import Postblox.Mail.MimeTree

/-!
# MIME assembly is invertible

The lines of an assembled message, part by part, and from them the tree that a reader
gets: the texts as they were given, and one base64 part for each attachment.
-/
namespace Postblox.Mail

open Lib

/-! ## The body -/

/-- The lines behind the type of the body. -/
def bodyContent (inner : Uuid) : Option String → Option String → List Line
  | some text, some html =>
    delimited (openLine (utf8 (alternativeBoundary inner))) (closeLine (utf8 (alternativeBoundary inner)))
      [utf8 plainLine :: [] :: linesOf (utf8 text), utf8 htmlLine :: [] :: linesOf (utf8 html)] [[]]
  | some text, none => linesOf (utf8 text)
  | none, some html => linesOf (utf8 html)
  | none, none => [[]]

theorem oneLine_boundaries (u : Uuid) :
    OneLine (alternativeBoundary u) ∧ OneLine (mixedBoundary u) := by
  unfold alternativeBoundary mixedBoundary
  exact ⟨(by decide : OneLine "postblox-").append (oneLine_simpleUuid u),
    (by decide : OneLine "postblox-mixed-").append (oneLine_simpleUuid u)⟩

theorem not_mem_delimiter {boundary : Line} (h : 13 ∉ boundary) :
    13 ∉ openLine boundary ∧ 13 ∉ closeLine boundary := by
  have hdashes : 13 ∉ dashes := by decide
  unfold closeLine openLine
  simp only [List.mem_append, not_or]
  exact ⟨⟨hdashes, h⟩, ⟨hdashes, h⟩, hdashes⟩

theorem linesOf_buildBodyOnly (inner : Uuid) (text html : Option String) :
    linesOf (utf8 (buildBodyOnly inner text html)) =
      utf8 (bodyLine inner text html) :: [] :: bodyContent inner text html := by
  have hfield : ∀ line : String, IsField line → ∀ rest,
      linesOf (utf8 line ++ (crlf ++ (crlf ++ rest))) = utf8 line :: [] :: linesOf rest := by
    intro line hline rest
    rw [linesOf_cons hline.1.not_mem.1]
    exact congrArg _ (linesOf_cons List.not_mem_nil rest)
  have hplain : utf8 "Content-Type: text/plain; charset=utf-8\r\n\r\n" =
      utf8 plainLine ++ (crlf ++ (crlf ++ [])) := by decide
  have hhtml : utf8 "Content-Type: text/html; charset=utf-8\r\n\r\n" =
      utf8 htmlLine ++ (crlf ++ (crlf ++ [])) := by decide
  have hplainField : IsField plainLine := by decide
  have hhtmlField : IsField htmlLine := by decide
  fun_cases buildBodyOnly inner text html with
  | case1 text html =>
    obtain ⟨hopen, hclose⟩ := not_mem_delimiter (oneLine_boundaries inner).1.not_mem.1
    have hdashes : utf8 "\r\n--" = crlf ++ dashes := rfl
    have hquote : utf8 "\"\r\n" = utf8 "\"" ++ crlf := rfl
    have hend : utf8 "--\r\n" = dashes ++ crlf := rfl
    have hstart : utf8 "--" = dashes := rfl
    have hcrlf : utf8 "\r\n" = crlf := rfl
    have hbytes : utf8 (buildBodyOnly inner (some text) (some html)) =
        utf8 (alternativeLine inner) ++ (crlf ++ (crlf ++ (openLine (utf8 (alternativeBoundary inner)) ++ (crlf ++
          (utf8 plainLine ++ (crlf ++ (crlf ++ (utf8 text ++ (crlf ++
          (openLine (utf8 (alternativeBoundary inner)) ++ (crlf ++
          (utf8 htmlLine ++ (crlf ++ (crlf ++ (utf8 html ++ (crlf ++
          (closeLine (utf8 (alternativeBoundary inner)) ++ (crlf ++ [])))))))))))))))))) := by
      unfold buildBodyOnly
      simp only [utf8_alternativeLine, openLine, closeLine, utf8_append, hdashes,
        hquote, hend, hstart, hcrlf, hplain, hhtml, List.append_assoc, List.append_nil]
    have htype : IsField (alternativeLine inner) := isField_bodyLine inner (some text) (some html)
    show linesOf (utf8 (buildBodyOnly inner (some text) (some html))) = _
    rw [hbytes, hfield _ htype, linesOf_cons hopen, hfield _ hplainField, linesOf_append,
      linesOf_cons hopen, hfield _ hhtmlField, linesOf_append, linesOf_cons hclose]
    simp only [bodyContent, delimited, List.flatMap_cons, List.flatMap_nil, List.append_nil,
      List.cons_append, List.append_assoc]
    rfl
  | case2 text =>
    rw [utf8_append, hplain, List.append_assoc, List.append_assoc, List.append_assoc,
      hfield _ hplainField]
    rfl
  | case3 html =>
    rw [utf8_append, hhtml, List.append_assoc, List.append_assoc, List.append_assoc,
      hfield _ hhtmlField]
    rfl
  | case4 =>
    rw [hplain, hfield _ hplainField]
    rfl

/-- What the body reads as, under the fields `top`. -/
def bodyEntity (top : List Line) (inner : Uuid) : Option String → Option String → Entity
  | some text, some html =>
    .multipart (top ++ [utf8 (alternativeLine inner)])
      [.leaf [utf8 plainLine] (utf8 text), .leaf [utf8 htmlLine] (utf8 html)]
  | some text, none => .leaf (top ++ [utf8 plainLine]) (utf8 text)
  | none, some html => .leaf (top ++ [utf8 htmlLine]) (utf8 html)
  | none, none => .leaf (top ++ [utf8 plainLine]) []

/-- The boundary does not occur in a text. -/
def FreeOf (boundary : String) (text html : Option String) : Prop :=
  ∀ body, body ∈ text ∨ body ∈ html → ¬ utf8 boundary <:+: utf8 body

theorem ofLines_plain (depth : Nat) {top : List Line} (htop : Neutral top)
    (hfields : ∀ line ∈ top, line ≠ []) (body : List Line) :
    Entity.ofLines depth (top ++ utf8 plainLine :: [] :: body) =
      some (.leaf (top ++ [utf8 plainLine]) (joinLines body)) := by
  have hne : ∀ line ∈ top ++ [utf8 plainLine], line ≠ [] := by
    rw [List.forall_mem_append]
    refine ⟨hfields, List.forall_mem_singleton.mpr (by decide)⟩
  have hsplit : top ++ utf8 plainLine :: [] :: body = (top ++ [utf8 plainLine]) ++ [] :: body := by
    simp
  rw [hsplit]
  exact Entity.ofLines_leaf hne (declaredBoundary_plain htop) depth body

theorem ofLines_html (depth : Nat) {top : List Line} (htop : Neutral top)
    (hfields : ∀ line ∈ top, line ≠ []) (body : List Line) :
    Entity.ofLines depth (top ++ utf8 htmlLine :: [] :: body) =
      some (.leaf (top ++ [utf8 htmlLine]) (joinLines body)) := by
  have hne : ∀ line ∈ top ++ [utf8 htmlLine], line ≠ [] := by
    rw [List.forall_mem_append]
    refine ⟨hfields, List.forall_mem_singleton.mpr (by decide)⟩
  have hsplit : top ++ utf8 htmlLine :: [] :: body = (top ++ [utf8 htmlLine]) ++ [] :: body := by
    simp
  rw [hsplit]
  exact Entity.ofLines_leaf hne (declaredBoundary_html htop) depth body

/-- The lines of a part with a text, within another boundary. -/
theorem inside_of_text {boundary : Line} (type : String) (htype : ¬ dashes <+: utf8 type)
    {text : List UInt8} (h : ¬ boundary <:+: text) :
    ∀ line ∈ utf8 type :: [] :: linesOf text, delimiterMark boundary line = .inside := by
  rw [List.forall_mem_cons, List.forall_mem_cons]
  exact ⟨delimiterMark_of_not_dashes boundary htype,
    delimiterMark_of_not_dashes boundary (by decide), delimiterMark_linesOf h⟩

/-- The body is read back, by itself or as a part. -/
theorem ofLines_body (depth : Nat) {top : List Line} (htop : Neutral top)
    (hfields : ∀ line ∈ top, line ≠ []) {inner : Uuid} {text html : Option String}
    (hfree : text.isSome → html.isSome → FreeOf (alternativeBoundary inner) text html) :
    Entity.ofLines (depth + 1) (top ++ linesOf (utf8 (buildBodyOnly inner text html))) =
      some (bodyEntity top inner text html) := by
  rw [linesOf_buildBodyOnly]
  fun_cases bodyEntity top inner text html with
  | case1 text html =>
    have hfree' := hfree rfl rfl
    have hbetween := between_delimited
      (delimiterMark_openLine (utf8 (alternativeBoundary inner)))
      (delimiterMark_closeLine (utf8 (alternativeBoundary inner)))
      [utf8 plainLine :: [] :: linesOf (utf8 text),
        utf8 htmlLine :: [] :: linesOf (utf8 html)]
      (List.forall_mem_cons.mpr ⟨inside_of_text _ (by decide) (hfree' text (.inl rfl)),
        List.forall_mem_singleton.mpr
          (inside_of_text _ (by decide) (hfree' html (.inr rfl)))⟩) [[]]
    have hne : ∀ line ∈ top ++ [utf8 (alternativeLine inner)], line ≠ [] := by
      rw [List.forall_mem_append]
      exact ⟨hfields, List.forall_mem_singleton.mpr
        (utf8_ne_nil (isField_bodyLine inner (some text) (some html)).2)⟩
    have hsplit : ∀ body : List Line, top ++ utf8 (alternativeLine inner) :: [] :: body =
        (top ++ [utf8 (alternativeLine inner)]) ++ [] :: body := by
      simp
    show Entity.ofLines (depth + 1) (top ++ utf8 (alternativeLine inner) :: [] ::
      bodyContent inner (some text) (some html)) = _
    rw [hsplit]
    refine Entity.ofLines_multipart hne (declaredBoundary_alternative htop inner) hbetween ?_
    have hplain := ofLines_plain depth neutral_nil (fun _ h => absurd h List.not_mem_nil)
      (linesOf (utf8 text))
    have hhtml := ofLines_html depth neutral_nil (fun _ h => absurd h List.not_mem_nil)
      (linesOf (utf8 html))
    rw [joinLines_linesOf, List.nil_append, List.nil_append] at hplain hhtml
    simp only [List.mapM_cons, List.mapM_nil, hplain, hhtml, Option.bind_eq_bind, Option.bind_some,
      Option.pure_def]
  | case2 text =>
    have h := ofLines_plain (depth + 1) htop hfields (linesOf (utf8 text))
    rwa [joinLines_linesOf] at h
  | case3 html =>
    have h := ofLines_html (depth + 1) htop hfields (linesOf (utf8 html))
    rwa [joinLines_linesOf] at h
  | case4 => exact ofLines_plain (depth + 1) htop hfields [[]]

/-- The lines of the body as a part of a multipart. -/
theorem inside_body {mixed inner : Uuid} {text html : Option String}
    (hfree : FreeOf (mixedBoundary mixed) text html) :
    ∀ line ∈ linesOf (utf8 (buildBodyOnly inner text html)),
      delimiterMark (utf8 (mixedBoundary mixed)) line = .inside := by
  rw [linesOf_buildBodyOnly]
  fun_cases bodyContent inner text html with
  | case1 text html =>
    have htext := inside_of_text plainLine (by decide) (hfree text (.inl rfl))
    have hhtml := inside_of_text htmlLine (by decide) (hfree html (.inr rfl))
    have hopen := mixed_not_start mixed inner []
    have hclose := mixed_not_start mixed inner dashes
    rw [List.append_nil] at hopen
    have htype : ¬ dashes <+: utf8 (alternativeLine inner) := by
      rw [utf8_alternativeLine]
      exact not_start (by decide) (by decide +kernel) _
    have hempty : delimiterMark (utf8 (mixedBoundary mixed)) [] = .inside :=
      delimiterMark_of_not_dashes _ (by decide)
    rw [List.forall_mem_cons, List.forall_mem_cons]
    refine ⟨delimiterMark_of_not_dashes _ htype, hempty, ?_⟩
    simp only [delimited, List.flatMap_cons, List.flatMap_nil, List.append_nil,
      List.forall_mem_append, List.forall_mem_cons]
    rw [List.forall_mem_cons, List.forall_mem_cons] at htext hhtml
    exact ⟨⟨⟨delimiterMark_inside hopen, htext⟩, delimiterMark_inside hopen, hhtml⟩,
      delimiterMark_inside hclose, hempty, fun _ h => absurd h List.not_mem_nil⟩
  | case2 text =>
    exact inside_of_text plainLine (by decide) (hfree text (.inl rfl))
  | case3 html =>
    exact inside_of_text htmlLine (by decide) (hfree html (.inr rfl))
  | case4 =>
    have hnil : ¬ utf8 (mixedBoundary mixed) <:+: [] := by
      rw [List.infix_nil]
      exact utf8_ne_nil (by simp [mixedBoundary])
    exact inside_of_text plainLine (by decide) hnil

/-! ## The attachments -/

/-- The lines of the base64 text. -/
def encodedLines (base64 : Base64Crate) (att : MimeAttachment) : List Line :=
  (wrap (base64.encode att.data).toList).map fun line => utf8 (String.ofList line)

theorem flatten_wrap (chars : List Char) : (wrap chars).flatten = chars := by
  fun_induction wrap chars with
  | case1 => rfl
  | case2 c rest ih => rw [List.flatten_cons, ih, List.take_append_drop]

theorem length_le_of_mem_wrap {chars line : List Char} (h : line ∈ wrap chars) :
    line.length ≤ 76 := by
  fun_induction wrap chars with
  | case1 => cases h
  | case2 c rest ih =>
    rcases List.mem_cons.mp h with rfl | hrest
    · exact List.length_take_le 76 _
    · exact ih hrest

theorem utf8_ofList_flatten (parts : List (List Char)) :
    (parts.map fun part => utf8 (String.ofList part)).flatten = utf8 (String.ofList parts.flatten) := by
  induction parts with
  | nil => rfl
  | cons part parts ih =>
    rw [List.map_cons, List.flatten_cons, ih, List.flatten_cons, String.ofList_append, utf8_append]

theorem flatten_encodedLines (base64 : Base64Crate) (att : MimeAttachment) :
    (encodedLines base64 att).flatten = utf8 (base64.encode att.data) := by
  rw [encodedLines, utf8_ofList_flatten, flatten_wrap, String.ofList_toList]

/-- The text of the attachment. -/
theorem utf8_wrapped (base64 : Base64Crate) (att : MimeAttachment) :
    utf8 (wrapped (base64.encode att.data)) = written (encodedLines base64 att) := by
  unfold wrapped encodedLines written
  rw [utf8_join, List.flatMap_map, List.flatMap_map]
  refine List.flatMap_congr fun line _ => ?_
  rw [utf8_append]
  rfl

/-- A character of base64 is one byte, and neither a line break nor a hyphen. -/
theorem alphabet_ascii {c : Char} (h : c ∈ Daemon.Fetch.base64Alphabet.toList) :
    (utf8 (String.ofList [c])).length = 1 ∧ c ≠ '\r' ∧ c ≠ '-' := by
  have hall : (Daemon.Fetch.base64Alphabet.toList.all fun c =>
      (utf8 (String.ofList [c])).length = 1 ∧ c ≠ '\r' ∧ c ≠ '-') = true := by decide
  simpa using List.all_eq_true.mp hall c h

theorem length_utf8_of_ascii {chars : List Char}
    (h : ∀ c ∈ chars, (utf8 (String.ofList [c])).length = 1) :
    (utf8 (String.ofList chars)).length = chars.length := by
  induction chars with
  | nil => rfl
  | cons c rest ih =>
    rw [List.forall_mem_cons] at h
    have hsplit : String.ofList (c :: rest) = String.ofList [c] ++ String.ofList rest := by
      rw [← String.ofList_append, List.singleton_append]
    rw [hsplit, utf8_append, List.length_append, h.1, ih h.2, List.length_cons, Nat.add_comm]

/-- A line of base64 is short and cannot be taken for anything else. -/
theorem encodedLines_spec {base64 : Base64Crate} {att : MimeAttachment} {line : Line}
    (h : line ∈ encodedLines base64 att) :
    line.length ≤ 76 ∧ 13 ∉ line ∧ ¬ dashes <+: line := by
  obtain ⟨part, hpart, rfl⟩ := List.mem_map.mp h
  have hchars : ∀ c ∈ part, (utf8 (String.ofList [c])).length = 1 ∧ c ≠ '\r' ∧ c ≠ '-' := by
    intro c hc
    refine alphabet_ascii (base64.standard.alphabet att.data c ?_)
    rw [← flatten_wrap (base64.encode att.data).toList]
    exact List.mem_flatten_of_mem hpart hc
  have hnot : ∀ b : UInt8, b.toNat < 128 → b ∈ utf8 (String.ofList part) →
      ∃ c ∈ part, c.toNat = b.toNat := by
    intro b hb hmem
    obtain ⟨c, hc, heq⟩ := mem_utf8 hmem hb
    rw [String.toList_ofList] at hc
    exact ⟨c, hc, heq⟩
  refine ⟨?_, fun hmem => ?_, fun hstart => ?_⟩
  · rw [length_utf8_of_ascii fun c hc => (hchars c hc).1]
    exact length_le_of_mem_wrap hpart
  · obtain ⟨c, hc, heq⟩ := hnot 13 (by decide) hmem
    exact (hchars c hc).2.1 (Char.toNat_inj.mp heq)
  · have hmem : (45 : UInt8) ∈ utf8 (String.ofList part) := hstart.subset (by decide)
    obtain ⟨c, hc, heq⟩ := hnot 45 (by decide) hmem
    exact (hchars c hc).2.2 (Char.toNat_inj.mp heq)

/-- The lines of an attachment, and its bytes behind the delimiter. -/
def partLines (base64 : Base64Crate) (att : MimeAttachment) : List Line :=
  (attachmentLines att).map utf8 ++ [] :: encodedLines base64 att

def partBytes (base64 : Base64Crate) (att : MimeAttachment) : List UInt8 :=
  written ((attachmentLines att).map utf8) ++ (crlf ++ written (encodedLines base64 att))

theorem linesOf_partBytes (base64 : Base64Crate) (att : MimeAttachment) (rest : List UInt8) :
    linesOf (partBytes base64 att ++ rest) = partLines base64 att ++ linesOf rest := by
  unfold partBytes partLines
  rw [List.append_assoc, List.append_assoc, linesOf_fields (isField_attachmentLines att),
    linesOf_written fun line hline => (encodedLines_spec hline).2.1, List.append_assoc]
  rfl

/-- The parts as they are read: a line break before a delimiter belongs to it, so the text
of the last one ends differently. -/
def attachmentParts (base64 : Base64Crate) : List MimeAttachment → List (List Line)
  | [] => []
  | [att] => [partLines base64 att]
  | att :: next :: rest => (partLines base64 att ++ [[]]) :: attachmentParts base64 (next :: rest)

theorem utf8_attachmentPart_eq (base64 : Base64Crate) (mixed : Uuid) (att : MimeAttachment) :
    utf8 (attachmentPart base64 mixed att) =
      crlf ++ (openLine (utf8 (mixedBoundary mixed)) ++ (crlf ++ partBytes base64 att)) := by
  have hdelimiter : utf8 ("--" ++ mixedBoundary mixed) = openLine (utf8 (mixedBoundary mixed)) := by
    rw [utf8_append]
    rfl
  rw [utf8_attachmentPart, hdelimiter, utf8_wrapped]
  rfl

theorem linesOf_attachments (base64 : Base64Crate) (mixed : Uuid) (att : MimeAttachment)
    (rest : List MimeAttachment) :
    openLine (utf8 (mixedBoundary mixed)) :: linesOf (partBytes base64 att ++
        (rest.flatMap (fun att => utf8 (attachmentPart base64 mixed att)) ++
          (closeLine (utf8 (mixedBoundary mixed)) ++ (crlf ++ [])))) =
      delimited (openLine (utf8 (mixedBoundary mixed))) (closeLine (utf8 (mixedBoundary mixed)))
        (attachmentParts base64 (att :: rest)) [[]] := by
  obtain ⟨hopen, hclose⟩ := not_mem_delimiter (oneLine_boundaries mixed).2.not_mem.1
  induction rest generalizing att with
  | nil =>
    rw [linesOf_partBytes, List.flatMap_nil, List.nil_append, linesOf_cons hclose]
    simp only [attachmentParts, delimited, List.flatMap_cons, List.flatMap_nil, List.append_nil]
    rfl
  | cons next rest ih =>
    have hpart : utf8 (attachmentPart base64 mixed next) =
        [] ++ (crlf ++ (openLine (utf8 (mixedBoundary mixed)) ++ (crlf ++ partBytes base64 next))) :=
      utf8_attachmentPart_eq base64 mixed next
    rw [linesOf_partBytes, List.flatMap_cons, hpart]
    simp only [List.append_assoc]
    rw [linesOf_cons List.not_mem_nil, linesOf_cons hopen, ih]
    simp only [attachmentParts, delimited, List.flatMap_cons, List.cons_append, List.append_assoc,
      List.nil_append]

/-- A message with attachments, line by line. -/
theorem linesOf_mixed (base64 : Base64Crate) (mixed inner : Uuid) (o : MimeBuildOptions)
    {att : MimeAttachment} {rest : List MimeAttachment} (h : o.attachments = att :: rest) :
    linesOf (utf8 ("Content-Type: multipart/mixed; boundary=\"" ++ mixedBoundary mixed ++ "\"\r\n" ++
        "\r\n" ++
        "--" ++ mixedBoundary mixed ++ "\r\n" ++
        buildBodyOnly inner o.textBody o.htmlBody ++
        String.join (o.attachments.map (attachmentPart base64 mixed)) ++
        "--" ++ mixedBoundary mixed ++ "--\r\n")) =
      utf8 (mixedLine mixed) :: [] ::
        delimited (openLine (utf8 (mixedBoundary mixed))) (closeLine (utf8 (mixedBoundary mixed)))
          (linesOf (utf8 (buildBodyOnly inner o.textBody o.htmlBody)) ::
            attachmentParts base64 o.attachments) [[]] := by
  obtain ⟨hopen, -⟩ := not_mem_delimiter (oneLine_boundaries mixed).2.not_mem.1
  have hquote : utf8 "\"\r\n" = utf8 "\"" ++ crlf := rfl
  have hend : utf8 "--\r\n" = dashes ++ crlf := rfl
  have hstart : utf8 "--" = dashes := rfl
  have hcrlf : utf8 "\r\n" = crlf := rfl
  have hbytes : utf8 ("Content-Type: multipart/mixed; boundary=\"" ++ mixedBoundary mixed ++
        "\"\r\n" ++ "\r\n" ++
        "--" ++ mixedBoundary mixed ++ "\r\n" ++
        buildBodyOnly inner o.textBody o.htmlBody ++
        String.join (o.attachments.map (attachmentPart base64 mixed)) ++
        "--" ++ mixedBoundary mixed ++ "--\r\n") =
      utf8 (mixedLine mixed) ++ (crlf ++ ([] ++ (crlf ++ (openLine (utf8 (mixedBoundary mixed)) ++
        (crlf ++ (utf8 (buildBodyOnly inner o.textBody o.htmlBody) ++
        (crlf ++ (openLine (utf8 (mixedBoundary mixed)) ++ (crlf ++ (partBytes base64 att ++
        (rest.flatMap (fun att => utf8 (attachmentPart base64 mixed att)) ++
        (closeLine (utf8 (mixedBoundary mixed)) ++ (crlf ++ []))))))))))))) := by
    simp only [h, utf8_mixedLine, utf8_join, List.map_cons, List.flatMap_cons, List.flatMap_map,
      utf8_attachmentPart_eq, openLine, closeLine, utf8_append, hquote, hend, hstart, hcrlf,
      List.append_assoc, List.append_nil, List.nil_append]
  rw [hbytes, linesOf_cons (isField_mixedLine mixed).1.not_mem.1, linesOf_cons List.not_mem_nil,
    linesOf_cons hopen, linesOf_append, linesOf_cons hopen, linesOf_attachments, h]
  simp only [delimited, List.flatMap_cons, List.cons_append, List.append_assoc]

/-! ## The tree -/

/-- A base64 part with the fields of the attachment, whose short lines decode to its data. -/
def IsAttachment (base64 : Base64Crate) (att : MimeAttachment) (part : Entity) : Prop :=
  ∃ body, part = .leaf ((attachmentLines att).map utf8) body ∧
    (∀ line ∈ linesOf body, line.length ≤ 76) ∧
    ∃ text, utf8 text = (linesOf body).flatten ∧ base64.decode text = some att.data

theorem linesOf_joinLines {lines : List Line} (hne : lines ≠ []) (h : ∀ line ∈ lines, 13 ∉ line) :
    linesOf (joinLines lines) = lines := by
  induction lines with
  | nil => exact absurd rfl hne
  | cons line rest ih =>
    rw [List.forall_mem_cons] at h
    by_cases hrest : rest = []
    · have hjoin : joinLines [line] = line := List.intercalate_singleton
      rw [hrest, hjoin]
      exact linesOf_singleton h.1
    · have hjoin : joinLines (line :: rest) = line ++ (crlf ++ joinLines rest) := by
        rw [joinLines, List.intercalate_cons_of_ne_nil hrest, List.append_assoc]
        rfl
      rw [hjoin, linesOf_cons h.1, ih hrest h.2]

/-- The part is an attachment, with or without a last empty line. -/
theorem ofLines_attachment (base64 : Base64Crate) (depth : Nat) (att : MimeAttachment)
    (extra : List Line) (hextra : ∀ line ∈ extra, line = []) :
    ∃ part, Entity.ofLines depth (partLines base64 att ++ extra) = some part ∧
      IsAttachment base64 att part := by
  have hlines : ∀ line ∈ encodedLines base64 att ++ extra, line.length ≤ 76 ∧ 13 ∉ line := by
    intro line hline
    rcases List.mem_append.mp hline with hencoded | hempty
    · exact ⟨(encodedLines_spec hencoded).1, (encodedLines_spec hencoded).2.1⟩
    · rw [hextra line hempty]
      exact ⟨Nat.zero_le _, List.not_mem_nil⟩
  have hflatten : (encodedLines base64 att ++ extra).flatten = utf8 (base64.encode att.data) := by
    rw [List.flatten_append, List.flatten_eq_nil_iff.mpr hextra, List.append_nil,
      flatten_encodedLines]
  have hread := Entity.ofLines_leaf (ne_nil_of_fields (isField_attachmentLines att))
    (declaredBoundary_attachment att) depth (encodedLines base64 att ++ extra)
  refine ⟨_, ?_, joinLines (encodedLines base64 att ++ extra), rfl, ?_, base64.encode att.data, ?_,
    base64.decode_encode att.data⟩
  · unfold partLines
    rw [List.append_assoc, List.cons_append]
    exact hread
  · intro line hline
    by_cases hnone : encodedLines base64 att ++ extra = []
    · rw [hnone] at hline
      rw [List.mem_singleton.mp hline]
      exact Nat.zero_le _
    · rw [linesOf_joinLines hnone fun line hmem => (hlines line hmem).2] at hline
      exact (hlines line hline).1
  · by_cases hnone : encodedLines base64 att ++ extra = []
    · rw [← hflatten, hnone]
      rfl
    · rw [linesOf_joinLines hnone fun line hmem => (hlines line hmem).2, hflatten]

theorem ofLines_attachments (base64 : Base64Crate) (depth : Nat)
    (attachments : List MimeAttachment) :
    ∃ parts, (attachmentParts base64 attachments).mapM (Entity.ofLines depth) = some parts ∧
      List.Forall₂ (IsAttachment base64) attachments parts := by
  fun_induction attachmentParts base64 attachments with
  | case1 => exact ⟨[], rfl, .nil⟩
  | case2 att =>
    obtain ⟨part, hread, hpart⟩ := ofLines_attachment base64 depth att []
      fun _ h => absurd h List.not_mem_nil
    rw [List.append_nil] at hread
    refine ⟨[part], ?_, .cons hpart .nil⟩
    simp only [List.mapM_cons, List.mapM_nil, hread, Option.bind_eq_bind, Option.bind_some,
      Option.pure_def]
  | case3 att next rest ih =>
    obtain ⟨part, hread, hpart⟩ := ofLines_attachment base64 depth att [[]]
      fun _ h => List.mem_singleton.mp h
    obtain ⟨parts, hparts, hrest⟩ := ih
    refine ⟨part :: parts, ?_, .cons hpart hrest⟩
    rw [List.mapM_cons, hread, hparts]
    rfl

/-- All fields of an attachment begin alike. -/
theorem attachmentLines_start (att : MimeAttachment) :
    ∀ line ∈ attachmentLines att, ∃ rest, utf8 line = utf8 "Content-" ++ rest := by
  have hdisposition : ∀ line ∈ dispositionLines att, ∃ rest, utf8 line = utf8 "Content-" ++ rest := by
    have hid : utf8 "Content-ID: <" = utf8 "Content-" ++ utf8 "ID: <" := rfl
    have hinline : utf8 "Content-Disposition: inline; filename=\"" =
        utf8 "Content-" ++ utf8 "Disposition: inline; filename=\"" := by decide
    have hattachment : utf8 "Content-Disposition: attachment; filename=\"" =
        utf8 "Content-" ++ utf8 "Disposition: attachment; filename=\"" := by decide
    unfold dispositionLines
    cases att.contentId with
    | some cid =>
      refine List.forall_mem_cons.mpr ⟨⟨utf8 ("ID: <" ++ sanitizeHeader cid ++ ">"), ?_⟩,
        List.forall_mem_singleton.mpr ⟨utf8 ("Disposition: inline; filename=\"" ++
          sanitizeHeader att.filename ++ "\""), ?_⟩⟩
      · simp only [utf8_append, hid, List.append_assoc]
      · simp only [utf8_append, hinline, List.append_assoc]
    | none =>
      refine List.forall_mem_singleton.mpr ⟨utf8 ("Disposition: attachment; filename=\"" ++
        sanitizeHeader att.filename ++ "\""), ?_⟩
      simp only [utf8_append, hattachment, List.append_assoc]
  have htype : utf8 "Content-Type: " = utf8 "Content-" ++ utf8 "Type: " := rfl
  refine List.forall_mem_cons.mpr ⟨⟨utf8 ("Type: " ++ sanitizeHeader att.contentType ++
    "; name=\"" ++ sanitizeHeader att.filename ++ "\""), ?_⟩, List.forall_mem_cons.mpr
    ⟨⟨utf8 "Transfer-Encoding: base64", by decide⟩, hdisposition⟩⟩
  simp only [utf8_append, htype, List.append_assoc]

/-- The lines of an attachment within the outer boundary. -/
theorem inside_attachments (base64 : Base64Crate) (boundary : Line)
    (attachments : List MimeAttachment) :
    ∀ part ∈ attachmentParts base64 attachments, ∀ line ∈ part,
      delimiterMark boundary line = .inside := by
  have hempty : delimiterMark boundary [] = .inside :=
    delimiterMark_of_not_dashes boundary (by decide)
  have hpart : ∀ att, ∀ line ∈ partLines base64 att, delimiterMark boundary line = .inside := by
    intro att line hline
    unfold partLines at hline
    rw [List.mem_append, List.mem_cons] at hline
    obtain hfield | rfl | hencoded := hline
    · obtain ⟨s, hs, rfl⟩ := List.mem_map.mp hfield
      obtain ⟨rest, hrest⟩ := attachmentLines_start att s hs
      rw [hrest]
      exact delimiterMark_of_not_dashes boundary (not_start (by decide) (by decide +kernel) _)
    · exact hempty
    · exact delimiterMark_of_not_dashes boundary (encodedLines_spec hencoded).2.2
  fun_induction attachmentParts base64 attachments with
  | case1 => exact fun _ h => absurd h List.not_mem_nil
  | case2 att => exact List.forall_mem_singleton.mpr (hpart att)
  | case3 att next rest ih =>
    refine List.forall_mem_cons.mpr ⟨?_, ih⟩
    exact List.forall_mem_append.mpr ⟨hpart att, List.forall_mem_singleton.mpr hempty⟩

/-- The boundaries that are generated for these options. -/
def generatedBoundaries (mixed inner : Uuid) (o : MimeBuildOptions) : List String :=
  (if o.attachments = [] then [] else [mixedBoundary mixed]) ++
    if o.textBody.isSome ∧ o.htmlBody.isSome then [alternativeBoundary inner] else []

/-- What the message should read as. -/
def Reassembles (base64 : Base64Crate) (date : RenderedDate) (mixed inner : Uuid)
    (o : MimeBuildOptions) (message : Entity) : Prop :=
  if o.attachments = [] then
    message = bodyEntity ((commonLines date o).map utf8) inner o.textBody o.htmlBody
  else
    ∃ parts, message = .multipart ((commonLines date o).map utf8 ++ [utf8 (mixedLine mixed)])
        (bodyEntity [] inner o.textBody o.htmlBody :: parts) ∧
      List.Forall₂ (IsAttachment base64) o.attachments parts

/-- If no generated boundary occurs in a text, the assembled message reads as the texts and
the attachments that it was made of. -/
theorem assembly_is_invertible (base64 : Base64Crate) (date : RenderedDate) (mixed inner : Uuid)
    (o : MimeBuildOptions)
    (hfree : ∀ boundary ∈ generatedBoundaries mixed inner o,
      FreeOf boundary o.textBody o.htmlBody) (depth : Nat) :
    ∃ message, Entity.read (depth + 2) (buildMimeFull base64 date mixed inner o) = some message ∧
      Reassembles base64 date mixed inner o message := by
  have htop := neutral_commonLines date o
  have hfields := ne_nil_of_fields (isField_commonLines date o)
  have hinner : o.textBody.isSome → o.htmlBody.isSome →
      FreeOf (alternativeBoundary inner) o.textBody o.htmlBody := by
    intro htext hhtml
    refine hfree _ (List.mem_append_right _ ?_)
    rw [if_pos ⟨htext, hhtml⟩]
    exact List.mem_singleton_self _
  have hcommon : ∀ line ∈ (commonLines date o).map utf8, 13 ∉ line := by
    intro line hline
    obtain ⟨s, hs, rfl⟩ := List.mem_map.mp hline
    exact (isField_commonLines date o s hs).1.not_mem.1
  unfold Entity.read buildMimeFull Reassembles
  rw [utf8_append, utf8_commonFields, linesOf_written hcommon]
  by_cases hnone : o.attachments = []
  · simp only [if_pos hnone]
    exact ⟨_, ofLines_body (depth + 1) htop hfields hinner, rfl⟩
  · simp only [if_neg hnone]
    obtain ⟨att, rest, hatts⟩ := List.exists_cons_of_ne_nil hnone
    have hmixed : FreeOf (mixedBoundary mixed) o.textBody o.htmlBody := by
      refine hfree _ (List.mem_append_left _ ?_)
      rw [if_neg hnone]
      exact List.mem_singleton_self _
    have hbetween := between_delimited
      (delimiterMark_openLine (utf8 (mixedBoundary mixed)))
      (delimiterMark_closeLine (utf8 (mixedBoundary mixed)))
      (linesOf (utf8 (buildBodyOnly inner o.textBody o.htmlBody)) ::
        attachmentParts base64 o.attachments)
      (List.forall_mem_cons.mpr ⟨inside_body hmixed, inside_attachments base64 _ _⟩) [[]]
    have hbody := ofLines_body depth neutral_nil (fun _ h => absurd h List.not_mem_nil) hinner
    rw [List.nil_append] at hbody
    obtain ⟨parts, hread, hparts⟩ := ofLines_attachments base64 (depth + 1) o.attachments
    have hne : ∀ line ∈ (commonLines date o).map utf8 ++ [utf8 (mixedLine mixed)], line ≠ [] :=
      List.forall_mem_append.mpr ⟨hfields,
        List.forall_mem_singleton.mpr (utf8_ne_nil (isField_mixedLine mixed).2)⟩
    have hsplit : ∀ body : List Line, (commonLines date o).map utf8 ++
        utf8 (mixedLine mixed) :: [] :: body =
          ((commonLines date o).map utf8 ++ [utf8 (mixedLine mixed)]) ++ [] :: body := by
      simp
    refine ⟨_, ?_, parts, rfl, hparts⟩
    rw [linesOf_mixed base64 mixed inner o hatts, hsplit]
    refine Entity.ofLines_multipart hne (declaredBoundary_mixed htop mixed) hbetween ?_
    rw [List.mapM_cons, hbody, hread]
    rfl

/-! ## One message -/

def newYear : RenderedDate := ⟨"Thu, 01 Jan 2026 00:00:00 +0000", by decide⟩

/-- Both bodies, and two attachments of which the second is empty. -/
def greeting : MimeBuildOptions where
  fromAddr := "a@host"
  toAddrs := ["b@host"]
  ccAddrs := []
  subject := "hi"
  textBody := some "--postblox-\r\n"
  htmlBody := some "<p>hi</p>"
  messageId := "<1@host>"
  attachments := [⟨"a.bin", "image/png", [0, 255, 13, 10], some "logo"⟩, ⟨"b.txt", "text/plain", [], none⟩]
  reply := ⟨none, some "<0@host>"⟩

theorem greeting_is_read_back :
    ∃ message, Entity.read 2 (buildMimeFull Base64.documented newYear (Uuid.filled 1)
        (Uuid.filled 2) greeting) = some message ∧
      Reassembles Base64.documented newYear (Uuid.filled 1) (Uuid.filled 2) greeting message := by
  refine assembly_is_invertible Base64.documented newYear (Uuid.filled 1) (Uuid.filled 2) greeting
    ?_ 0
  have hshort : ∀ boundary ∈ generatedBoundaries (Uuid.filled 1) (Uuid.filled 2) greeting,
      ∀ body ∈ ["--postblox-\r\n", "<p>hi</p>"], ¬ utf8 boundary <:+: utf8 body := by
    decide
  intro boundary hboundary body hbody
  refine hshort boundary hboundary body ?_
  rcases hbody with htext | hhtml
  · rw [← Option.mem_some_iff.mp htext]
    exact List.mem_cons_self
  · rw [← Option.mem_some_iff.mp hhtml]
    exact List.mem_cons_of_mem _ List.mem_cons_self

end Postblox.Mail
