import Postblox.Mail.Builder

/-!
# No header injection

Every string that goes into a header loses its line breaks, so the lines of a header block
are those that the builder put there, in its order. That holds for the block the message
begins with and for the block of every attachment, whatever the texts are.
-/
namespace Postblox.Mail

/-! ## Lines without breaks -/

theorem OneLine.append {s t : String} (hs : OneLine s) (ht : OneLine t) : OneLine (s ++ t) := by
  intro c hc
  rw [String.toList_append] at hc
  rcases List.mem_append.mp hc with h | h
  · exact hs c h
  · exact ht c h

theorem oneLine_sanitizeHeader (value : String) : OneLine (sanitizeHeader value) := by
  intro c hc
  rw [sanitizeHeader, String.toList_ofList] at hc
  simpa using (List.mem_filter.mp hc).2

theorem oneLine_hexChar : ∀ d : Fin 16, Uuid.hexChar d ≠ '\r' ∧ Uuid.hexChar d ≠ '\n' := by
  decide

theorem oneLine_simpleUuid (u : Uuid) : OneLine (simpleUuid u) := by
  intro c hc
  rw [simpleUuid, String.toList_ofList] at hc
  obtain ⟨d, -, rfl⟩ := List.mem_map.mp hc
  exact oneLine_hexChar d

theorem OneLine.not_mem {s : String} (h : OneLine s) : 13 ∉ utf8 s ∧ 10 ∉ utf8 s := by
  constructor
  · intro hmem
    obtain ⟨c, hc, hcr⟩ := mem_utf8 hmem (by decide)
    exact (h c hc).1 (Char.toNat_inj.mp hcr)
  · intro hmem
    obtain ⟨c, hc, hlf⟩ := mem_utf8 hmem (by decide)
    exact (h c hc).2 (Char.toNat_inj.mp hlf)

theorem utf8_ne_nil {s : String} (h : s ≠ "") : utf8 s ≠ [] := by
  intro hnil
  rw [utf8, List.flatMap_eq_nil_iff] at hnil
  refine h (String.toList_eq_nil_iff.mp (List.eq_nil_iff_forall_not_mem.mpr fun c hc => ?_))
  exact String.utf8EncodeChar_ne_nil (hnil c hc)

/-! ## Header blocks -/

/-- The lines before the first empty line, and that none of them can be cut further. -/
structure HeaderBlock (bytes : List UInt8) (lines : List String) : Prop where
  block : headerLines (linesOf bytes) = lines.map utf8
  oneLine : ∀ line ∈ lines, OneLine line

/-- A line of a header: not empty and without breaks. -/
def IsField (line : String) : Prop := OneLine line ∧ line ≠ ""

instance (line : String) : Decidable (IsField line) :=
  inferInstanceAs (Decidable (OneLine line ∧ line ≠ ""))

theorem written_append (a b : List Line) : written (a ++ b) = written a ++ written b :=
  List.flatMap_append

theorem written_cons (line : Line) (rest : List Line) :
    written (line :: rest) = line ++ (crlf ++ written rest) := by
  rw [written, List.flatMap_cons, List.append_assoc]
  rfl

theorem linesOf_fields {lines : List String} (h : ∀ line ∈ lines, IsField line)
    (rest : List UInt8) :
    linesOf (written (lines.map utf8) ++ (crlf ++ rest)) = lines.map utf8 ++ [] :: linesOf rest := by
  rw [linesOf_written]
  · exact congrArg _ (linesOf_cons List.not_mem_nil rest)
  · intro line hline
    obtain ⟨s, hs, rfl⟩ := List.mem_map.mp hline
    exact (h s hs).1.not_mem.1

theorem ne_nil_of_fields {lines : List String} (h : ∀ line ∈ lines, IsField line) :
    ∀ line ∈ lines.map utf8, line ≠ [] := by
  intro line hline
  obtain ⟨s, hs, rfl⟩ := List.mem_map.mp hline
  exact utf8_ne_nil (h s hs).2

theorem headerBlock_of_fields {lines : List String} (h : ∀ line ∈ lines, IsField line)
    (rest : List UInt8) : HeaderBlock (written (lines.map utf8) ++ (crlf ++ rest)) lines where
  block := by
    rw [linesOf_fields h, headerLines_append (ne_nil_of_fields h)]
  oneLine line hline := (h line hline).1

/-! ## The fields of a message -/

/-- A field that is left out without a value. -/
def optionalLine (name : String) (value : Option String) : List String :=
  ((value.filter fun s => s ≠ "").map fun s => name ++ ": " ++ sanitizeHeader s).toList

/-- The fields that every message has. -/
def commonLines (date : RenderedDate) (o : MimeBuildOptions) : List String :=
  ["From: " ++ sanitizeHeader o.fromAddr,
    "To: " ++ sanitizeHeader (", ".intercalate o.toAddrs)] ++
  (if o.ccAddrs = [] then [] else ["Cc: " ++ sanitizeHeader (", ".intercalate o.ccAddrs)]) ++
  ["Subject: " ++ sanitizeHeader o.subject, "Message-ID: " ++ sanitizeHeader o.messageId] ++
  optionalLine "In-Reply-To" o.reply.inReplyTo ++
  optionalLine "References" o.reply.references ++
  ["Date: " ++ date.text, "MIME-Version: 1.0"]

def plainLine : String := "Content-Type: text/plain; charset=utf-8"

def htmlLine : String := "Content-Type: text/html; charset=utf-8"

def alternativeLine (inner : Uuid) : String :=
  "Content-Type: multipart/alternative; boundary=\"" ++ alternativeBoundary inner ++ "\""

def mixedLine (mixed : Uuid) : String :=
  "Content-Type: multipart/mixed; boundary=\"" ++ mixedBoundary mixed ++ "\""

theorem utf8_alternativeLine (inner : Uuid) : utf8 (alternativeLine inner) =
    utf8 "Content-Type: multipart/alternative; boundary=\"" ++
      (utf8 (alternativeBoundary inner) ++ utf8 "\"") := by
  unfold alternativeLine
  rw [utf8_append, utf8_append, List.append_assoc]

theorem utf8_mixedLine (mixed : Uuid) : utf8 (mixedLine mixed) =
    utf8 "Content-Type: multipart/mixed; boundary=\"" ++
      (utf8 (mixedBoundary mixed) ++ utf8 "\"") := by
  unfold mixedLine
  rw [utf8_append, utf8_append, List.append_assoc]

/-- The type of the body alone. -/
def bodyLine (inner : Uuid) : Option String → Option String → String
  | some _, some _ => alternativeLine inner
  | none, some _ => htmlLine
  | _, none => plainLine

def contentTypeLine (mixed inner : Uuid) (o : MimeBuildOptions) : String :=
  if o.attachments = [] then bodyLine inner o.textBody o.htmlBody else mixedLine mixed

def dispositionLines (att : MimeAttachment) : List String :=
  match att.contentId with
  | some cid =>
    ["Content-ID: <" ++ sanitizeHeader cid ++ ">",
      "Content-Disposition: inline; filename=\"" ++ sanitizeHeader att.filename ++ "\""]
  | none =>
    ["Content-Disposition: attachment; filename=\"" ++ sanitizeHeader att.filename ++ "\""]

/-- The fields of an attachment. -/
def attachmentLines (att : MimeAttachment) : List String :=
  ("Content-Type: " ++ sanitizeHeader att.contentType ++ "; name=\"" ++
      sanitizeHeader att.filename ++ "\"") ::
    "Content-Transfer-Encoding: base64" :: dispositionLines att

/-- A literal in front of a value. -/
theorem IsField.append {name value : String} (hname : IsField name) (hvalue : OneLine value) :
    IsField (name ++ value) := by
  refine ⟨hname.1.append hvalue, fun h => hname.2 ?_⟩
  exact (String.append_eq_empty_iff.mp h).1

theorem IsField.sanitized {name : String} (hname : IsField name) (value : String) :
    IsField (name ++ sanitizeHeader value) :=
  hname.append (oneLine_sanitizeHeader value)

theorem isField_optionalLine (name : String) (hname : IsField (name ++ ": "))
    (value : Option String) : ∀ line ∈ optionalLine name value, IsField line := by
  intro line hline
  obtain ⟨v, -, rfl⟩ := Option.map_eq_some_iff.mp (Option.mem_toList.mp hline)
  exact hname.sanitized v

theorem isField_commonLines (date : RenderedDate) (o : MimeBuildOptions) :
    ∀ line ∈ commonLines date o, IsField line := by
  have hcc : ∀ line ∈ (if o.ccAddrs = [] then []
      else ["Cc: " ++ sanitizeHeader (", ".intercalate o.ccAddrs)]), IsField line := by
    split_ifs
    · exact fun _ h => absurd h List.not_mem_nil
    · rintro line (_ | ⟨_, ⟨⟩⟩)
      exact IsField.sanitized (by decide) _
  have hreply := isField_optionalLine "In-Reply-To" (by decide) o.reply.inReplyTo
  have hreferences := isField_optionalLine "References" (by decide) o.reply.references
  intro line hline
  simp only [commonLines, List.append_assoc, List.mem_append, List.mem_cons, List.not_mem_nil,
    or_false] at hline
  obtain (rfl | rfl) | hline | (rfl | rfl) | hline | hline | rfl | rfl := hline
  · exact IsField.sanitized (by decide) _
  · exact IsField.sanitized (by decide) _
  · exact hcc line hline
  · exact IsField.sanitized (by decide) _
  · exact IsField.sanitized (by decide) _
  · exact hreply line hline
  · exact hreferences line hline
  · exact IsField.append (by decide) date.oneLine
  · decide

theorem isField_bodyLine (inner : Uuid) (text html : Option String) :
    IsField (bodyLine inner text html) := by
  fun_cases bodyLine inner text html with
  | case1 =>
    exact (IsField.append (IsField.append (by decide) ((by decide +kernel : OneLine "postblox-").append
      (oneLine_simpleUuid inner))) (by decide))
  | case2 => decide
  | case3 => decide

theorem isField_mixedLine (mixed : Uuid) : IsField (mixedLine mixed) :=
  IsField.append (IsField.append (by decide) ((by decide +kernel : OneLine "postblox-mixed-").append
    (oneLine_simpleUuid mixed))) (by decide)

theorem isField_contentTypeLine (mixed inner : Uuid) (o : MimeBuildOptions) :
    IsField (contentTypeLine mixed inner o) := by
  unfold contentTypeLine
  split_ifs
  · exact isField_bodyLine inner o.textBody o.htmlBody
  · exact isField_mixedLine mixed

theorem isField_attachmentLines (att : MimeAttachment) :
    ∀ line ∈ attachmentLines att, IsField line := by
  have hquoted : ∀ name : String, IsField name →
      IsField (name ++ sanitizeHeader att.filename ++ "\"") := fun name hname =>
    (hname.sanitized att.filename).append (by decide)
  have hdisposition : ∀ line ∈ dispositionLines att, IsField line := by
    intro line hline
    unfold dispositionLines at hline
    cases hcid : att.contentId with
    | some cid =>
      simp only [hcid, List.mem_cons, List.not_mem_nil, or_false] at hline
      obtain rfl | rfl := hline
      · exact (IsField.sanitized (by decide) cid).append (by decide +kernel)
      · exact hquoted _ (by decide)
    | none =>
      simp only [hcid, List.mem_cons, List.not_mem_nil, or_false] at hline
      obtain rfl := hline
      exact hquoted _ (by decide)
  intro line hline
  rcases List.mem_cons.mp hline with rfl | hrest
  · exact hquoted _ ((IsField.sanitized (by decide) _).append (by decide +kernel))
  rcases List.mem_cons.mp hrest with rfl | hlast
  · decide
  · exact hdisposition line hlast

/-! ## What the builder writes -/

theorem utf8_optionalField (name : String) (value : Option String) :
    utf8 (optionalField name value) = written ((optionalLine name value).map utf8) := by
  unfold optionalField optionalLine
  cases value.filter fun s => s ≠ "" with
  | none => rfl
  | some v =>
    simp only [Option.map_some, Option.toList_some, List.map_cons, List.map_nil, written_cons,
      utf8_append, List.append_assoc]
    rfl

theorem utf8_commonFields (date : RenderedDate) (o : MimeBuildOptions) :
    utf8 (commonFields date o) = written ((commonLines date o).map utf8) := by
  have hversion : utf8 "MIME-Version: 1.0\r\n" = utf8 "MIME-Version: 1.0" ++ crlf := rfl
  have hcrlf : utf8 "\r\n" = crlf := rfl
  have hnil : written [] = [] := rfl
  unfold commonFields commonLines
  simp only [utf8_append, utf8_optionalField, List.map_append, written_append, List.append_assoc,
    List.map_cons, List.map_nil, written_cons, hversion, hcrlf, hnil, List.append_nil]
  split_ifs
  · rfl
  · simp only [utf8_append, List.map_cons, List.map_nil, written_cons, hcrlf, hnil,
      List.append_assoc, List.append_nil]

/-- The body alone begins with its type. -/
theorem utf8_buildBodyOnly (inner : Uuid) (text html : Option String) :
    ∃ rest, utf8 (buildBodyOnly inner text html) =
      written ([bodyLine inner text html].map utf8) ++ (crlf ++ rest) := by
  have hplain : utf8 "Content-Type: text/plain; charset=utf-8\r\n\r\n" =
      written ([plainLine].map utf8) ++ (crlf ++ []) := by decide
  have hhtml : utf8 "Content-Type: text/html; charset=utf-8\r\n\r\n" =
      written ([htmlLine].map utf8) ++ (crlf ++ []) := by decide
  fun_cases buildBodyOnly inner text html with
  | case1 text html =>
    have hquote : utf8 "\"\r\n" = utf8 "\"" ++ crlf := rfl
    have hcrlf : utf8 "\r\n" = crlf := rfl
    refine ⟨utf8 ("--" ++ alternativeBoundary inner ++ "\r\n" ++
      "Content-Type: text/plain; charset=utf-8\r\n\r\n" ++ text ++
      "\r\n--" ++ alternativeBoundary inner ++ "\r\n" ++
      "Content-Type: text/html; charset=utf-8\r\n\r\n" ++ html ++
      "\r\n--" ++ alternativeBoundary inner ++ "--\r\n"), ?_⟩
    have hnil : written [] = [] := rfl
    simp only [bodyLine, utf8_alternativeLine, utf8_append, List.map_cons, List.map_nil,
      written_cons, hquote, hcrlf, hnil, List.append_assoc, List.nil_append]
  | case2 text => exact ⟨utf8 text, by rw [utf8_append, hplain, List.append_assoc]; rfl⟩
  | case3 html => exact ⟨utf8 html, by rw [utf8_append, hhtml, List.append_assoc]; rfl⟩
  | case4 => exact ⟨[], hplain⟩

/-- An attachment is a delimiter, its fields, an empty line and its text. -/
theorem utf8_attachmentPart (base64 : Base64Crate) (mixed : Uuid) (att : MimeAttachment) :
    utf8 (attachmentPart base64 mixed att) =
      crlf ++ (utf8 ("--" ++ mixedBoundary mixed) ++ (crlf ++
        (written ((attachmentLines att).map utf8) ++
          (crlf ++ utf8 (wrapped (base64.encode att.data)))))) := by
  have hopen : utf8 "\r\n--" = crlf ++ utf8 "--" := rfl
  have hquote : utf8 "\"\r\n" = utf8 "\"" ++ crlf := rfl
  have hangle : utf8 ">\r\n" = utf8 ">" ++ crlf := rfl
  have hencoding : utf8 "Content-Transfer-Encoding: base64\r\n" =
      utf8 "Content-Transfer-Encoding: base64" ++ crlf := rfl
  have hcrlf : utf8 "\r\n" = crlf := rfl
  have hnil : written [] = [] := rfl
  unfold attachmentPart dispositionFields attachmentLines dispositionLines
  cases att.contentId with
  | some cid =>
    simp only [utf8_append, List.map_cons, List.map_nil, written_cons, hopen, hquote, hangle,
      hencoding, hcrlf, hnil, List.append_assoc, List.nil_append]
  | none =>
    simp only [utf8_append, List.map_cons, List.map_nil, written_cons, hopen, hquote, hencoding,
      hcrlf, hnil, List.append_assoc, List.nil_append]

/-- Before the body: the fields of the message. -/
theorem buildMimeFull_fields (base64 : Base64Crate) (date : RenderedDate) (mixed inner : Uuid)
    (o : MimeBuildOptions) :
    ∃ rest, buildMimeFull base64 date mixed inner o =
      written ((commonLines date o ++ [contentTypeLine mixed inner o]).map utf8) ++
        (crlf ++ rest) := by
  unfold buildMimeFull contentTypeLine
  rw [utf8_append, utf8_commonFields, List.map_append, written_append]
  split_ifs with hnone
  · obtain ⟨rest, hrest⟩ := utf8_buildBodyOnly inner o.textBody o.htmlBody
    exact ⟨rest, by rw [hrest, List.append_assoc]⟩
  · have hquote : utf8 "\"\r\n" = utf8 "\"" ++ crlf := rfl
    have hcrlf : utf8 "\r\n" = crlf := rfl
    refine ⟨utf8 ("--" ++ mixedBoundary mixed ++ "\r\n" ++
      buildBodyOnly inner o.textBody o.htmlBody ++
      String.join (o.attachments.map (attachmentPart base64 mixed)) ++
      "--" ++ mixedBoundary mixed ++ "--\r\n"), ?_⟩
    have hnil : written [] = [] := rfl
    simp only [utf8_mixedLine, utf8_append, List.map_cons, List.map_nil, written_cons, hquote,
      hcrlf, hnil, List.append_assoc, List.nil_append]

/-- The message begins with the expected fields and no others, and each attachment has the
three or four fields of its own behind its delimiter, whatever is put into them. -/
theorem header_blocks_are_fixed (base64 : Base64Crate) (date : RenderedDate) (mixed inner : Uuid)
    (o : MimeBuildOptions) :
    HeaderBlock (buildMimeFull base64 date mixed inner o)
      (commonLines date o ++ [contentTypeLine mixed inner o]) ∧
    (o.attachments ≠ [] → ∃ before after, buildMimeFull base64 date mixed inner o =
        before ++ o.attachments.flatMap (fun att => utf8 (attachmentPart base64 mixed att)) ++ after) ∧
    ∀ att ∈ o.attachments, ∃ part, utf8 (attachmentPart base64 mixed att) =
        crlf ++ (utf8 ("--" ++ mixedBoundary mixed) ++ (crlf ++ part)) ∧
      ∀ rest, HeaderBlock (part ++ rest) (attachmentLines att) := by
  refine ⟨?_, fun hsome => ?_, fun att _ => ?_⟩
  · obtain ⟨rest, hrest⟩ := buildMimeFull_fields base64 date mixed inner o
    rw [hrest]
    refine headerBlock_of_fields (fun line hline => ?_) rest
    rcases List.mem_append.mp hline with hcommon | htype
    · exact isField_commonLines date o line hcommon
    · rw [List.mem_singleton.mp htype]
      exact isField_contentTypeLine mixed inner o
  · unfold buildMimeFull
    rw [if_neg hsome]
    refine ⟨utf8 (commonFields date o ++ (mixedLine mixed ++ "\r\n" ++ "\r\n" ++
      "--" ++ mixedBoundary mixed ++ "\r\n" ++ buildBodyOnly inner o.textBody o.htmlBody)),
      utf8 ("--" ++ mixedBoundary mixed ++ "--\r\n"), ?_⟩
    have hquote : utf8 "\"\r\n" = utf8 "\"" ++ utf8 "\r\n" := rfl
    simp only [utf8_mixedLine, utf8_append, utf8_join, List.flatMap_map, hquote, List.append_assoc]
  · refine ⟨_, utf8_attachmentPart base64 mixed att, fun rest => ?_⟩
    rw [List.append_assoc, List.append_assoc]
    exact headerBlock_of_fields (isField_attachmentLines att) _

end Postblox.Mail
