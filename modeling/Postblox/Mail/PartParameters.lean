import Postblox.Mail.MimeRoundTrip

/-!
# The names of attachments in their headers

A reader takes the parameters of a header by the grammar of RFC 2045: a value in quotation
marks ends at the first mark that no backslash escapes. The builder puts file names between
quotation marks as they are, so the reader gets back those that hold neither of the two
characters.
-/
namespace Postblox.Mail

/-! ## Reading parameters -/

/-- A quoted string behind its opening mark, and what follows it. -/
def readQuoted : Line → Option (Line × Line)
  | [] => none
  | b :: rest =>
    if b = 34 then some ([], rest)
    else if b = 92 then
      match rest with
      | [] => none
      | escaped :: rest => (readQuoted rest).map fun p => (escaped :: p.1, p.2)
    else (readQuoted rest).map fun p => (b :: p.1, p.2)

/-- The `tspecials` of RFC 2045. -/
def tspecials : List UInt8 := utf8 "()<>@,;:\\\"/[]?="

def isTokenByte (b : UInt8) : Bool := 33 ≤ b && b ≤ 126 && !tspecials.contains b

def readToken (line : Line) : Option (Line × Line) :=
  let token := line.takeWhile isTokenByte
  if token = [] then none else some (token, line.drop token.length)

def readValue : Line → Option (Line × Line)
  | [] => none
  | b :: rest => if b = 34 then readQuoted rest else readToken (b :: rest)

def skipBlanks (line : Line) : Line := line.dropWhile fun b => b = 32 ∨ b = 9

/-- One parameter behind its semicolon. -/
def readParameter (line : Line) : Option ((Line × Line) × Line) :=
  (readToken (skipBlanks line)).bind fun name =>
    match name.2 with
    | [] => none
    | b :: rest =>
      if b = 61 then (readValue rest).map fun value => ((name.1, value.1), skipBlanks value.2)
      else none

def readParameters : Nat → Line → Option (List (Line × Line))
  | _, [] => some []
  | 0, _ :: _ => none
  | fuel + 1, b :: rest =>
    if b = 59 then
      (readParameter rest).bind fun p => (readParameters fuel p.2).map fun later => p.1 :: later
    else none

/-- The parameters of a field, behind its type. -/
def parameters (value : Line) : Option (List (Line × Line)) :=
  readParameters value.length (value.dropWhile fun b => b ≠ 59)

/-! ## Quoted strings -/

/-- A quoted string takes at least its value and the closing mark; no more only if nothing is
escaped. -/
theorem readQuoted_length {line value rest : Line} (h : readQuoted line = some (value, rest)) :
    value.length + rest.length + 1 ≤ line.length ∧
      (value.length + rest.length + 1 = line.length → 34 ∉ value ∧ 92 ∉ value) := by
  fun_induction readQuoted line generalizing value rest with
  | case1 => cases h
  | case2 tail =>
    cases h
    exact ⟨by simp, fun _ => ⟨List.not_mem_nil, List.not_mem_nil⟩⟩
  | case3 hother => cases h
  | case4 escaped tail hother ih =>
    obtain ⟨p, hp, heq⟩ := Option.map_eq_some_iff.mp h
    cases heq
    obtain ⟨hle, -⟩ := ih hp
    simp only [List.length_cons]
    exact ⟨by omega, fun hexact => by omega⟩
  | case5 b tail hquote hescape ih =>
    obtain ⟨p, hp, heq⟩ := Option.map_eq_some_iff.mp h
    cases heq
    obtain ⟨hle, hplain⟩ := ih hp
    simp only [List.length_cons]
    refine ⟨by omega, fun hexact => ?_⟩
    obtain ⟨hnoquote, hnoescape⟩ := hplain (by omega)
    rw [List.mem_cons, List.mem_cons, not_or, not_or]
    exact ⟨⟨fun h => hquote h.symm, hnoquote⟩, fun h => hescape h.symm, hnoescape⟩

theorem readQuoted_plain {value : Line} (hquote : 34 ∉ value) (hescape : 92 ∉ value)
    (rest : Line) : readQuoted (value ++ 34 :: rest) = some (value, rest) := by
  induction value with
  | nil =>
    rw [List.nil_append, readQuoted.eq_def]
    rfl
  | cons b value ih =>
    rw [List.mem_cons, not_or] at hquote hescape
    rw [List.cons_append, readQuoted.eq_def]
    dsimp only
    rw [if_neg (Ne.symm hquote.1), if_neg (Ne.symm hescape.1), ih hquote.2 hescape.2]
    rfl

/-- What is put between quotation marks as it is. -/
theorem readQuoted_eq_iff (value : Line) (rest : Line) :
    readQuoted (value ++ 34 :: rest) = some (value, rest) ↔ 34 ∉ value ∧ 92 ∉ value := by
  constructor
  · intro h
    refine (readQuoted_length h).2 ?_
    rw [List.length_append, List.length_cons]
    omega
  · exact fun h => readQuoted_plain h.1 h.2 rest

/-! ## Parameters -/

/-- Bytes of a token. -/
def IsToken (token : Line) : Prop := token ≠ [] ∧ ∀ b ∈ token, isTokenByte b = true

theorem readToken_append {token : Line} (h : IsToken token) {b : UInt8}
    (hb : isTokenByte b = false) (rest : Line) :
    readToken (token ++ b :: rest) = some (token, b :: rest) := by
  have htoken : (token ++ b :: rest).takeWhile isTokenByte = token := by
    rw [List.takeWhile_append_of_pos h.2, List.takeWhile_cons_of_neg (by simp [hb]),
      List.append_nil]
  rw [readToken, htoken, if_neg h.1, List.drop_left]

theorem skipBlanks_token {token : Line} (h : IsToken token) (rest : Line) :
    skipBlanks (token ++ rest) = token ++ rest := by
  obtain ⟨b, tail, rfl⟩ := List.exists_cons_of_ne_nil h.1
  have hb := h.2 b List.mem_cons_self
  rw [skipBlanks, List.cons_append, List.dropWhile_cons_of_neg]
  rw [decide_eq_true_eq]
  rintro (rfl | rfl)
  · exact absurd hb (by decide)
  · exact absurd hb (by decide)

/-- A parameter with a quoted value. -/
theorem readParameter_quoted {name : Line} (hname : IsToken name) (quoted : Line) :
    readParameter (32 :: (name ++ 61 :: 34 :: quoted)) =
      (readQuoted quoted).map fun value => ((name, value.1), skipBlanks value.2) := by
  have hblank : skipBlanks (32 :: (name ++ 61 :: 34 :: quoted)) = name ++ 61 :: 34 :: quoted := by
    rw [skipBlanks, List.dropWhile_cons_of_pos (by decide)]
    exact skipBlanks_token hname _
  rw [readParameter, hblank, readToken_append hname (by decide)]
  rfl

/-- A field with one parameter, which a value between quotation marks is. -/
theorem parameters_eq_iff {type name : Line} (htype : 59 ∉ type) (hname : IsToken name)
    (value : Line) :
    parameters (type ++ 59 :: 32 :: (name ++ 61 :: 34 :: (value ++ [34]))) =
        some [(name, value)] ↔
      34 ∉ value ∧ 92 ∉ value := by
  have hinside : ∀ b ∈ type, decide (b ≠ 59) = true := by
    intro b hb
    rw [decide_eq_true_eq]
    rintro rfl
    exact htype hb
  have hdrop : (type ++ 59 :: 32 :: (name ++ 61 :: 34 :: (value ++ [34]))).dropWhile
      (fun b => b ≠ 59) = 59 :: 32 :: (name ++ 61 :: 34 :: (value ++ [34])) := by
    rw [List.dropWhile_append_of_pos hinside, List.dropWhile_cons_of_neg (by simp)]
  obtain ⟨fuel, hfuel⟩ : ∃ fuel,
      (type ++ 59 :: 32 :: (name ++ 61 :: 34 :: (value ++ [34]))).length = fuel + 1 :=
    ⟨_, List.length_append⟩
  rw [parameters, hdrop, hfuel, readParameters, if_pos rfl, readParameter_quoted hname,
    ← readQuoted_eq_iff value []]
  constructor
  · intro h
    obtain ⟨p, hp, hlater⟩ := Option.bind_eq_some_iff.mp h
    obtain ⟨q, hq, rfl⟩ := Option.map_eq_some_iff.mp hp
    obtain ⟨later, -, heq⟩ := Option.map_eq_some_iff.mp hlater
    have hvalue : q.1 = value := (Prod.mk.inj (List.cons.inj heq).1).2
    have hlength := readQuoted_length hq
    rw [hvalue, List.length_append, List.length_singleton] at hlength
    have hrest : q.2 = [] := List.eq_nil_of_length_eq_zero (by omega)
    rw [hq, ← hvalue, ← hrest]
  · intro h
    rw [h]
    simp [skipBlanks, readParameters]

/-! ## The headers of a part -/

/-- Two tokens around a slash. -/
def IsMediaType (contentType : String) : Prop :=
  ∃ type subtype, IsToken (utf8 type) ∧ IsToken (utf8 subtype) ∧
    contentType = type ++ "/" ++ subtype

/-- What is left of a file name in a header. -/
def PlainName (filename : String) : Prop := '"' ∉ filename.toList ∧ '\\' ∉ filename.toList

instance plainNameDecidable (filename : String) : Decidable (PlainName filename) :=
  inferInstanceAs (Decidable (_ ∧ _))

/-- The reader finds the name in both headers, and nothing else. -/
structure NameSurvives (part : List UInt8) (filename : String) : Prop where
  contentType : (fieldValue "Content-Type" (headerLines (linesOf part))).bind parameters =
    some [(utf8 "name", utf8 (sanitizeHeader filename))]
  disposition : (fieldValue "Content-Disposition" (headerLines (linesOf part))).bind parameters =
    some [(utf8 "filename", utf8 (sanitizeHeader filename))]

theorem byte_mem_utf8 {s : String} {c : Char} {b : UInt8} (h : String.utf8EncodeChar c = [b])
    (hb : b.toNat < 128) (hc : c.toNat = b.toNat) : b ∈ utf8 s ↔ c ∈ s.toList := by
  constructor
  · intro hmem
    obtain ⟨d, hd, heq⟩ := mem_utf8 hmem hb
    rwa [Char.toNat_inj.mp (hc.trans heq.symm)]
  · intro hmem
    rw [utf8, List.mem_flatMap]
    exact ⟨c, hmem, by rw [h]; exact List.mem_singleton_self b⟩

theorem plainName_iff (filename : String) :
    34 ∉ utf8 (sanitizeHeader filename) ∧ 92 ∉ utf8 (sanitizeHeader filename) ↔
      PlainName filename := by
  rw [byte_mem_utf8 (c := '"') (b := 34) rfl (by decide) rfl,
    byte_mem_utf8 (c := '\\') (b := 92) rfl (by decide) rfl, sanitizeHeader, String.toList_ofList, List.mem_filter, List.mem_filter, PlainName]
  simp

theorem semicolon_notMem {contentType : String} (h : IsMediaType contentType) :
    59 ∉ utf8 (sanitizeHeader contentType) := by
  obtain ⟨type, subtype, htype, hsubtype, rfl⟩ := h
  have hsemicolon : isTokenByte 59 = false := by decide
  have htoken : ∀ s, IsToken (utf8 s) → ';' ∉ s.toList := by
    intro s hs hmem
    have hbyte := hs.2 59 ((byte_mem_utf8 (c := ';') rfl (by decide) rfl).mpr hmem)
    rw [hsemicolon] at hbyte
    cases hbyte
  rw [byte_mem_utf8 (c := ';') (b := 59) rfl (by decide) rfl, sanitizeHeader, String.toList_ofList,
    List.mem_filter, String.toList_append, String.toList_append]
  rintro ⟨hmem, -⟩
  rcases List.mem_append.mp hmem with hfirst | hlast
  · rcases List.mem_append.mp hfirst with hbefore | hslash
    · exact htoken type htype hbefore
    · revert hslash
      decide
  · exact htoken subtype hsubtype hlast

/-- What stands behind the name of the first field of a part. -/
theorem fieldValue_contentType (att : MimeAttachment) :
    fieldValue "Content-Type" ((attachmentLines att).map utf8) =
      some (utf8 (sanitizeHeader att.contentType) ++ 59 :: 32 ::
        (utf8 "name" ++ 61 :: 34 :: (utf8 (sanitizeHeader att.filename) ++ [34]))) := by
  have hlines : (attachmentLines att).map utf8 = [] ++
      (utf8 ("Content-Type" ++ ": ") ++ (utf8 (sanitizeHeader att.contentType) ++ 59 :: 32 ::
        (utf8 "name" ++ 61 :: 34 :: (utf8 (sanitizeHeader att.filename) ++ [34])))) ::
      (utf8 "Content-Transfer-Encoding: base64" :: (dispositionLines att).map utf8) := by
    have hname : utf8 "; name=\"" = 59 :: 32 :: (utf8 "name" ++ [61, 34]) := rfl
    have hquote : utf8 "\"" = [34] := rfl
    have htype : utf8 ("Content-Type" ++ ": ") = utf8 "Content-Type: " := rfl
    rw [attachmentLines]
    simp only [List.map_cons, utf8_append, hname, hquote, htype, List.append_assoc,
      List.cons_append, List.nil_append]
  rw [hlines]
  exact fieldValue_append (fun _ h => absurd h List.not_mem_nil) _ _

/-- The last field of a part is the disposition; another one may stand before it. -/
theorem dispositionLines_eq (att : MimeAttachment) :
    ∃ kind ids, (kind = "inline" ∨ kind = "attachment") ∧
      (∀ line ∈ ids, ∃ value, line = "Content-ID: <" ++ value) ∧
      dispositionLines att = ids ++ ["Content-Disposition: " ++
        (kind ++ ("; filename=\"" ++ (sanitizeHeader att.filename ++ "\"")))] := by
  rw [dispositionLines]
  cases att.contentId with
  | some cid =>
    refine ⟨"inline", ["Content-ID: <" ++ (sanitizeHeader cid ++ ">")], .inl rfl, ?_, ?_⟩
    · intro line hline
      exact ⟨_, List.mem_singleton.mp hline⟩
    · simp only [List.singleton_append, String.append_assoc]
      rfl
  | none =>
    refine ⟨"attachment", [], .inr rfl, fun _ h => absurd h List.not_mem_nil, ?_⟩
    simp only [List.nil_append, String.append_assoc]
    rfl

/-- What stands behind the name of the last field of a part. -/
theorem fieldValue_disposition (att : MimeAttachment) :
    ∃ type, 59 ∉ type ∧ fieldValue "Content-Disposition" ((attachmentLines att).map utf8) =
      some (type ++ 59 :: 32 ::
        (utf8 "filename" ++ 61 :: 34 :: (utf8 (sanitizeHeader att.filename) ++ [34]))) := by
  obtain ⟨kind, ids, hkind, hids, hlines⟩ := dispositionLines_eq att
  have hsemicolon : 59 ∉ utf8 kind := by
    rcases hkind with rfl | rfl
    · decide +kernel
    · decide +kernel
  have hname : utf8 "; filename=\"" = 59 :: 32 :: (utf8 "filename" ++ [61, 34]) := rfl
  have hquote : utf8 "\"" = [34] := rfl
  have hdisposition : utf8 ("Content-Disposition" ++ ": ") = utf8 "Content-Disposition: " := rfl
  have htype : ∀ value : Line,
      ¬ utf8 ("Content-Disposition" ++ ": ") <+: utf8 "Content-Type: " ++ value :=
    not_start (by decide +kernel) (by decide +kernel)
  have hencoding :
      ¬ utf8 ("Content-Disposition" ++ ": ") <+: utf8 "Content-Transfer-Encoding: base64" := by
    decide +kernel
  have hid : ∀ value : Line,
      ¬ utf8 ("Content-Disposition" ++ ": ") <+: utf8 "Content-ID: <" ++ value :=
    not_start (by decide +kernel) (by decide +kernel)
  have hfirst : ∀ line ∈ (attachmentLines att).take 2 ++ ids,
      ¬ utf8 ("Content-Disposition" ++ ": ") <+: utf8 line := by
    intro line hline
    rcases List.mem_append.mp hline with htwo | hlater
    · rw [attachmentLines, List.take_succ_cons, List.take_succ_cons, List.take_zero] at htwo
      rcases List.mem_cons.mp htwo with rfl | hsecond
      · simp only [utf8_append, List.append_assoc] at htype ⊢
        exact htype _
      · rw [List.mem_singleton.mp hsecond]
        exact hencoding
    · obtain ⟨value, rfl⟩ := hids line hlater
      rw [utf8_append "Content-ID: <"]
      exact hid _
  have hlacks : Lacks "Content-Disposition" (((attachmentLines att).take 2 ++ ids).map utf8) := by
    intro line hline
    obtain ⟨s, hs, rfl⟩ := List.mem_map.mp hline
    exact hfirst s hs
  refine ⟨utf8 kind, hsemicolon, ?_⟩
  rw [← fieldValue_append hlacks _ [], attachmentLines, hlines, hdisposition]
  simp only [List.take_succ_cons, List.take_zero, List.map_cons, List.map_nil, List.map_append,
    utf8_append, hname, hquote, List.append_assoc, List.cons_append, List.nil_append]

/-- An attachment stands in the message as the loop writes it. -/
theorem attachmentPart_infix (base64 : Base64Crate) (date : RenderedDate) (mixed inner : Uuid)
    {o : MimeBuildOptions} {att : MimeAttachment} (hatt : att ∈ o.attachments) :
    utf8 (attachmentPart base64 mixed att) <:+: buildMimeFull base64 date mixed inner o := by
  obtain ⟨front, back, hsplit⟩ := List.append_of_mem hatt
  have hparts : utf8 (String.join (o.attachments.map (attachmentPart base64 mixed))) =
      front.flatMap (fun a => utf8 (attachmentPart base64 mixed a)) ++
        (utf8 (attachmentPart base64 mixed att) ++
          back.flatMap fun a => utf8 (attachmentPart base64 mixed a)) := by
    rw [utf8_join, List.flatMap_map, hsplit, List.flatMap_append, List.flatMap_cons]
  have hpart : utf8 (attachmentPart base64 mixed att) <:+:
      utf8 (String.join (o.attachments.map (attachmentPart base64 mixed))) := by
    rw [hparts]
    exact ⟨_, _, List.append_assoc _ _ _⟩
  rw [buildMimeFull, if_neg (List.ne_nil_of_mem hatt)]
  -- the parts stand between the body and the closing delimiter
  have hinside : ∀ a b c d e x : String, utf8 x <:+: utf8 (a ++ (b ++ x ++ c ++ d ++ e)) := by
    intro a b c d e x
    refine ⟨utf8 a ++ utf8 b, utf8 c ++ (utf8 d ++ utf8 e), ?_⟩
    simp only [utf8_append, List.append_assoc]
  exact hpart.trans (hinside _ _ _ _ _ _)

/-- The parts of a message with an attachment hold one for it, and a reader of its headers gets
the file name back, and no other parameter, exactly if the name has no quotation mark and no
backslash. -/
theorem attachment_name_survives_iff (base64 : Base64Crate) (date : RenderedDate)
    (mixed inner : Uuid) (o : MimeBuildOptions) {att : MimeAttachment} (hatt : att ∈ o.attachments)
    (htype : IsMediaType att.contentType) :
    utf8 (attachmentPart base64 mixed att) <:+: buildMimeFull base64 date mixed inner o ∧
      ∃ part, utf8 (attachmentPart base64 mixed att) =
          crlf ++ (utf8 ("--" ++ mixedBoundary mixed) ++ (crlf ++ part)) ∧
        (NameSurvives part att.filename ↔ PlainName att.filename) := by
  constructor
  · exact attachmentPart_infix base64 date mixed inner hatt
  · refine ⟨_, utf8_attachmentPart base64 mixed att, ?_⟩
    have hheaders : headerLines (linesOf (written ((attachmentLines att).map utf8) ++
        (crlf ++ utf8 (wrapped (base64.encode att.data))))) = (attachmentLines att).map utf8 :=
      (headerBlock_of_fields (isField_attachmentLines att) _).block
    have hname : IsToken (utf8 "name") := ⟨by decide +kernel, by decide +kernel⟩
    have hfilename : IsToken (utf8 "filename") := ⟨by decide +kernel, by decide +kernel⟩
    obtain ⟨type, hsemicolon, hdisposition⟩ := fieldValue_disposition att
    rw [← plainName_iff]
    constructor
    · intro h
      have hread := h.contentType
      rw [hheaders, fieldValue_contentType, Option.bind_some] at hread
      exact (parameters_eq_iff (semicolon_notMem htype) hname _).mp hread
    · intro h
      constructor
      · rw [hheaders, fieldValue_contentType, Option.bind_some]
        exact (parameters_eq_iff (semicolon_notMem htype) hname _).mpr h
      · rw [hheaders, hdisposition, Option.bind_some]
        exact (parameters_eq_iff hsemicolon hfilename _).mpr h

theorem isMediaType_plain : IsMediaType "text/plain" :=
  ⟨"text", "plain", ⟨by decide +kernel, by decide +kernel⟩, ⟨by decide +kernel, by decide +kernel⟩,
    rfl⟩

/-- A plain name in a message with two attachments. -/
theorem plain_name_survives :
    ∃ part, utf8 (attachmentPart Base64.documented (Uuid.filled 1)
          ⟨"b.txt", "text/plain", [], none⟩) =
        crlf ++ (utf8 ("--" ++ mixedBoundary (Uuid.filled 1)) ++ (crlf ++ part)) ∧
      NameSurvives part "b.txt" := by
  have hlisted : (⟨"b.txt", "text/plain", [], none⟩ : MimeAttachment) ∈ greeting.attachments :=
    List.mem_cons_of_mem _ List.mem_cons_self
  obtain ⟨-, part, hpart, hiff⟩ := attachment_name_survives_iff Base64.documented newYear
    (Uuid.filled 1) (Uuid.filled 2) greeting hlisted isMediaType_plain
  exact ⟨part, hpart, hiff.mpr (by decide +kernel)⟩

def smuggled : MimeAttachment := ⟨"plan.txt\"; filename=\"plan.exe", "text/plain", [], none⟩

/-- A quotation mark ends the name, and what follows is read as another one. -/
theorem second_name_is_smuggled_in :
    IsMediaType smuggled.contentType ∧ ∃ part,
      utf8 (attachmentPart Base64.documented (Uuid.filled 1) smuggled) =
        crlf ++ (utf8 ("--" ++ mixedBoundary (Uuid.filled 1)) ++ (crlf ++ part)) ∧
      (fieldValue "Content-Disposition" (headerLines (linesOf part))).bind parameters =
        some [(utf8 "filename", utf8 "plan.txt"), (utf8 "filename", utf8 "plan.exe")] ∧
      ¬ NameSurvives part smuggled.filename := by
  have hpart : (fieldValue "Content-Disposition" (headerLines (linesOf
      (written ((attachmentLines smuggled).map utf8) ++
        (crlf ++ utf8 (wrapped (Base64.documented.encode [])))))) ).bind parameters =
        some [(utf8 "filename", utf8 "plan.txt"), (utf8 "filename", utf8 "plan.exe")] := by
    decide +kernel
  refine ⟨isMediaType_plain, _, utf8_attachmentPart Base64.documented (Uuid.filled 1) smuggled,
    hpart, ?_⟩
  intro h
  have hread := h.disposition
  rw [show smuggled.data = [] from rfl, hpart] at hread
  exact absurd hread (by decide +kernel)

end Postblox.Mail
