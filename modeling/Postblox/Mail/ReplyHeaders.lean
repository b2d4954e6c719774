import Postblox.Mail.MimeTree
import Postblox.Mail.ReplyAll
import Postblox.Mail.ReplyChain

/-!
# The threading headers of a reply

`In-Reply-To` and `References` are computed apart: the references leave a blank Message-ID
out, the other field wraps it. So a blank one, and no other, becomes the field `<>`, and
the builder, which only leaves out what is empty, sends it.
-/
namespace Postblox.Mail

/-! ## Fields that the builder writes or leaves out -/

/-- A reader finds the field. -/
def HasField (name : String) (bytes : List UInt8) : Prop :=
  (fieldValue name (headerLines (linesOf bytes))).isSome = true

/-- How the fields begin that are not about the message replied to. -/
def otherStarts : List String :=
  ["From: ", "To: ", "Cc: ", "Subject: ", "Message-ID: ", "Date: ", "MIME-Version: 1.0",
    "Content-Type: "]

section Fields

variable {base64 : Base64Crate} {date : RenderedDate} {mixed inner : Uuid} {o : MimeBuildOptions}

theorem contentTypeLine_start (mixed inner : Uuid) (o : MimeBuildOptions) :
    ∃ value, contentTypeLine mixed inner o = "Content-Type: " ++ value := by
  have hmixed : mixedLine mixed = "Content-Type: " ++
      ("multipart/mixed; boundary=\"" ++ mixedBoundary mixed ++ "\"") := by
    unfold mixedLine
    rw [← String.append_assoc, ← String.append_assoc]
    rfl
  have halternative : alternativeLine inner = "Content-Type: " ++
      ("multipart/alternative; boundary=\"" ++ alternativeBoundary inner ++ "\"") := by
    unfold alternativeLine
    rw [← String.append_assoc, ← String.append_assoc]
    rfl
  unfold contentTypeLine
  split
  · fun_cases bodyLine inner o.textBody o.htmlBody with
    | case1 => exact ⟨_, halternative⟩
    | case2 => exact ⟨"text/html; charset=utf-8", rfl⟩
    | case3 => exact ⟨"text/plain; charset=utf-8", rfl⟩
  · exact ⟨_, hmixed⟩

theorem line_cases {line : String}
    (hline : line ∈ commonLines date o ++ [contentTypeLine mixed inner o]) :
    line ∈ optionalLine "In-Reply-To" o.reply.inReplyTo ∨
      line ∈ optionalLine "References" o.reply.references ∨
        ∃ start ∈ otherStarts, ∃ value, line = start ++ value := by
  simp only [commonLines, List.append_assoc, List.mem_append, List.mem_cons, List.not_mem_nil,
    or_false] at hline
  obtain (rfl | rfl) | hcc | (rfl | rfl) | hreply | hreferences | (rfl | rfl) | rfl := hline
  · exact Or.inr (Or.inr ⟨"From: ", by decide, _, rfl⟩)
  · exact Or.inr (Or.inr ⟨"To: ", by decide, _, rfl⟩)
  · split_ifs at hcc
    · cases hcc
    · exact Or.inr (Or.inr ⟨"Cc: ", by decide, _, List.mem_singleton.mp hcc⟩)
  · exact Or.inr (Or.inr ⟨"Subject: ", by decide, _, rfl⟩)
  · exact Or.inr (Or.inr ⟨"Message-ID: ", by decide, _, rfl⟩)
  · exact Or.inl hreply
  · exact Or.inr (Or.inl hreferences)
  · exact Or.inr (Or.inr ⟨"Date: ", by decide, _, rfl⟩)
  · exact Or.inr (Or.inr ⟨"MIME-Version: 1.0", by decide, "", String.append_empty.symm⟩)
  · exact Or.inr (Or.inr ⟨"Content-Type: ", by decide, contentTypeLine_start mixed inner o⟩)

theorem hasField_iff (name : String) :
    HasField name (buildMimeFull base64 date mixed inner o) ↔
      ∃ line ∈ commonLines date o ++ [contentTypeLine mixed inner o],
        utf8 (name ++ ": ") <+: utf8 line := by
  obtain ⟨rest, hrest⟩ := buildMimeFull_fields base64 date mixed inner o
  have hfields : ∀ line ∈ commonLines date o ++ [contentTypeLine mixed inner o], IsField line := by
    intro line hline
    rcases List.mem_append.mp hline with hcommon | htype
    · exact isField_commonLines date o line hcommon
    · rw [List.mem_singleton.mp htype]
      exact isField_contentTypeLine mixed inner o
  rw [HasField, hrest, (headerBlock_of_fields hfields rest).block, fieldValue, Option.isSome_map,
    List.find?_isSome]
  constructor
  · rintro ⟨bytes, hbytes, hprefix⟩
    obtain ⟨line, hline, rfl⟩ := List.mem_map.mp hbytes
    exact ⟨line, hline, of_decide_eq_true hprefix⟩
  · rintro ⟨line, hline, hprefix⟩
    exact ⟨utf8 line, List.mem_map_of_mem hline, decide_eq_true hprefix⟩

theorem mem_optionalLine {name line : String} {value : Option String} :
    line ∈ optionalLine name value ↔
      value.getD "" ≠ "" ∧ line = name ++ ": " ++ sanitizeHeader (value.getD "") := by
  cases value with
  | none => simp [optionalLine]
  | some s =>
    by_cases h : s = ""
    · simp [optionalLine, h]
    · rw [optionalLine, Option.filter_some, if_pos (by simpa using h), Option.map_some,
        Option.toList_some, List.mem_singleton, Option.getD_some]
      exact (and_iff_right h).symm

theorem not_prefix_of_starts {name start value : String}
    (h : ¬ utf8 (name ++ ": ") <+: utf8 start) (h' : ¬ utf8 start <+: utf8 (name ++ ": ")) :
    ¬ utf8 (name ++ ": ") <+: utf8 (start ++ value) := by
  rw [utf8_append start value]
  exact not_start h h' _

/-- A field that stands in the message just where its line does. -/
theorem hasField_optional {name : String} {value : Option String}
    (hwritten : ∀ line ∈ optionalLine name value, line ∈ commonLines date o)
    (honly : ∀ line ∈ commonLines date o ++ [contentTypeLine mixed inner o],
      utf8 (name ++ ": ") <+: utf8 line → line ∈ optionalLine name value) :
    HasField name (buildMimeFull base64 date mixed inner o) ↔ value.getD "" ≠ "" := by
  rw [hasField_iff]
  constructor
  · rintro ⟨line, hline, hprefix⟩
    exact (mem_optionalLine.mp (honly line hline hprefix)).1
  · intro h
    have hline : name ++ ": " ++ sanitizeHeader (value.getD "") ∈ optionalLine name value :=
      mem_optionalLine.mpr ⟨h, rfl⟩
    refine ⟨_, List.mem_append_left _ (hwritten _ hline), ?_⟩
    rw [utf8_append (name ++ ": ")]
    exact List.prefix_append _ _

theorem hasField_inReplyTo :
    HasField "In-Reply-To" (buildMimeFull base64 date mixed inner o) ↔
      o.reply.inReplyTo.getD "" ≠ "" := by
  apply hasField_optional
  · intro line hline
    simp only [commonLines, List.mem_append]
    exact Or.inl (Or.inl (Or.inr hline))
  · intro line hline hprefix
    rcases line_cases hline with hreply | hreferences | ⟨start, hstart, value, rfl⟩
    · exact hreply
    · rw [(mem_optionalLine.mp hreferences).2] at hprefix
      exact absurd hprefix (not_prefix_of_starts (by decide) (by decide +kernel))
    · have hother : ∀ start ∈ otherStarts, ¬ utf8 ("In-Reply-To" ++ ": ") <+: utf8 start ∧
          ¬ utf8 start <+: utf8 ("In-Reply-To" ++ ": ") := by decide
      exact absurd hprefix (not_prefix_of_starts (hother start hstart).1 (hother start hstart).2)

theorem hasField_references :
    HasField "References" (buildMimeFull base64 date mixed inner o) ↔
      o.reply.references.getD "" ≠ "" := by
  apply hasField_optional
  · intro line hline
    simp only [commonLines, List.mem_append]
    exact Or.inl (Or.inr hline)
  · intro line hline hprefix
    rcases line_cases hline with hreply | hreferences | ⟨start, hstart, value, rfl⟩
    · rw [(mem_optionalLine.mp hreply).2] at hprefix
      exact absurd hprefix (not_prefix_of_starts (by decide) (by decide +kernel))
    · exact hreferences
    · have hother : ∀ start ∈ otherStarts, ¬ utf8 ("References" ++ ": ") <+: utf8 start ∧
          ¬ utf8 start <+: utf8 ("References" ++ ": ") := by decide
      exact absurd hprefix (not_prefix_of_starts (hother start hstart).1 (hother start hstart).2)

end Fields

/-! ## What the draft says -/

/-- The message has a Message-ID, and it is not blank. -/
def HasUsableId (message : MessageView) : Prop :=
  ∃ id, message.messageIdHeader = some id ∧ trimmed id ≠ ""

/-- The two threading headers agree, in the draft and in what is sent of it. -/
structure ThreadingHeadersAgree (message : MessageView) (draft : ReplyDraft) : Prop where
  empty_iff : draft.inReplyTo = "" ↔ ¬ HasUsableId message
  bracketed : HasUsableId message → ∃ id, draft.inReplyTo = "<" ++ id ++ ">"
  last : HasUsableId message →
    ∃ earlier, draft.references = " ".intercalate (earlier ++ [draft.inReplyTo])
  sent : ∀ base64 date mixed inner o, o.reply.inReplyTo.getD "" = draft.inReplyTo →
    o.reply.references.getD "" = draft.references →
    (HasUsableId message → HasField "In-Reply-To" (buildMimeFull base64 date mixed inner o) ∧
      HasField "References" (buildMimeFull base64 date mixed inner o)) ∧
    (¬ HasUsableId message → ¬ HasField "In-Reply-To" (buildMimeFull base64 date mixed inner o))

/-- The Message-ID is absent or not blank. -/
def NoBlankId (message : MessageView) : Prop :=
  ∀ id, message.messageIdHeader = some id → trimmed id ≠ ""

theorem angleWrap_bracketed (value : String) : ∃ id, angleWrap value = "<" ++ id ++ ">" := by
  simp only [angleWrap]
  split
  next h =>
    cases hs : (trimmed value).toList with
    | nil => rw [hs] at h; cases h.1
    | cons c rest =>
      rw [hs] at h
      have hc : c = '<' := by simpa using h.1
      have hne : rest ≠ [] := by
        intro hnil
        rw [hnil, hc] at h
        simp at h
      obtain ⟨mid, last, hrest⟩ := (List.eq_nil_or_concat rest).resolve_left hne
      have hlast : last = '>' := by
        have hend := h.2
        rw [hrest, List.concat_eq_append, ← List.cons_append, List.getLast?_concat] at hend
        exact Option.some.inj hend
      refine ⟨String.ofList mid, ?_⟩
      rw [← String.toList_inj, hs, hc, hrest, hlast]
      simp
  next => exact ⟨trimmed value, rfl⟩

theorem angleWrap_trimmed (value : String) : angleWrap (trimmed value) = angleWrap value := by
  rw [angleWrap, angleWrap, trimmed_trimmed]

theorem capReferences_concat (ids : List String) (id : String) :
    ∃ earlier, capReferences (ids ++ [id]) = earlier ++ [id] := by
  by_cases h : (ids ++ [id]).length ≤ 100
  · exact ⟨ids, capReferences_of_le h⟩
  · have hlength : (ids ++ [id]).length = ids.length + 1 := List.length_append
    have hlong : 100 < (ids ++ [id]).length := by omega
    refine ⟨(ids ++ [id]).take 1 ++ ids.drop ((ids ++ [id]).length - 99), ?_⟩
    rw [capReferences_of_lt hlong, List.append_assoc]
    congr 1
    exact List.drop_append_of_le_length (by omega)

section Draft

variable (formatRfc2822 : Int → RenderedDate) (message : MessageView) (accountEmail : String)
  (replyAll : Bool)

theorem inReplyTo_of_id {id : String} (h : message.messageIdHeader = some id) :
    (replyDraft formatRfc2822 message accountEmail replyAll).inReplyTo = angleWrap id := by
  simp only [replyDraft, h, Option.map_some, Option.getD_some]

theorem angleWrap_ne_empty (value : String) : angleWrap value ≠ "" := by
  obtain ⟨id, h⟩ := angleWrap_bracketed value
  rw [h]
  simp

theorem intercalate_concat_ne_empty (earlier : List String) {id : String} (h : id ≠ "") :
    " ".intercalate (earlier ++ [id]) ≠ "" := by
  intro hnil
  induction earlier with
  | nil =>
    rw [List.nil_append, String.intercalate_singleton] at hnil
    exact h hnil
  | cons first rest ih =>
    rw [List.cons_append, String.intercalate_cons_of_ne_nil (by simp)] at hnil
    exact ih (String.append_eq_empty_iff.mp hnil).2

theorem references_of_id {id : String} (h : message.messageIdHeader = some id)
    (hid : trimmed id ≠ "") : ∃ earlier,
      (replyDraft formatRfc2822 message accountEmail replyAll).references =
        " ".intercalate (earlier ++ [angleWrap id]) := by
  have hown : ((message.messageIdHeader.map trimmed).filter (· ≠ "")).toList = [trimmed id] := by
    rw [h, Option.map_some, Option.filter_some, if_pos (by simpa using hid), Option.toList_some]
  obtain ⟨earlier, hearlier⟩ := capReferences_concat
    ((message.referencesHeader.map splitWhitespace).getD []) (angleWrap id)
  refine ⟨earlier, ?_⟩
  rw [replyDraft_references, buildReferences, referenceIds, hown, List.map_singleton,
    angleWrap_trimmed, hearlier]

/-- A draft's threading headers agree exactly when the message has no blank Message-ID. -/
theorem threading_headers_agree_iff :
    ThreadingHeadersAgree message (replyDraft formatRfc2822 message accountEmail replyAll) ↔
      NoBlankId message := by
  constructor
  · intro h id hid hblank
    have hunusable : ¬ HasUsableId message := by
      rintro ⟨other, hother, husable⟩
      rw [hid] at hother
      exact husable (Option.some.inj hother ▸ hblank)
    have hempty := h.empty_iff.mpr hunusable
    rw [inReplyTo_of_id formatRfc2822 message accountEmail replyAll hid] at hempty
    exact angleWrap_ne_empty id hempty
  · intro h
    have hempty : (replyDraft formatRfc2822 message accountEmail replyAll).inReplyTo = "" ↔
        ¬ HasUsableId message := by
      cases hid : message.messageIdHeader with
      | none =>
        refine iff_of_true (by simp only [replyDraft, hid, Option.map_none, Option.getD_none]) ?_
        rintro ⟨id, hsome, -⟩
        rw [hid] at hsome
        cases hsome
      | some id =>
        rw [inReplyTo_of_id formatRfc2822 message accountEmail replyAll hid]
        exact iff_of_false (angleWrap_ne_empty id) (not_not.mpr ⟨id, hid, h id hid⟩)
    refine ⟨hempty, ?_, ?_, ?_⟩
    · rintro ⟨id, hid, -⟩
      rw [inReplyTo_of_id formatRfc2822 message accountEmail replyAll hid]
      exact angleWrap_bracketed id
    · rintro ⟨id, hid, husable⟩
      rw [inReplyTo_of_id formatRfc2822 message accountEmail replyAll hid]
      exact references_of_id formatRfc2822 message accountEmail replyAll hid husable
    · intro base64 date mixed inner o hreply hreferences
      rw [hasField_inReplyTo, hasField_references, hreply, hreferences]
      refine ⟨fun husable => ⟨?_, ?_⟩, fun hunusable => not_not.mpr (hempty.mpr hunusable)⟩
      · exact fun hnil => hempty.mp hnil husable
      · obtain ⟨id, hid, hwritten⟩ := husable
        obtain ⟨earlier, hids⟩ :=
          references_of_id formatRfc2822 message accountEmail replyAll hid hwritten
        rw [hids]
        exact intercalate_concat_ne_empty earlier (angleWrap_ne_empty id)

end Draft

/-- A message whose Message-ID is a blank. -/
def blankId : MessageView where
  fromAddr := "ada@example.com"
  replyTo := none
  subject := none
  messageIdHeader := some " "
  referencesHeader := none
  toAddrs := []
  ccAddrs := []
  textBody := none
  htmlBody := none
  internalDate := 0

theorem blank_id_is_replied_to :
    ¬ ∀ formatRfc2822 message accountEmail replyAll,
      ThreadingHeadersAgree message (replyDraft formatRfc2822 message accountEmail replyAll) := by
  intro h
  have hunusable : ¬ HasUsableId blankId := by
    rintro ⟨id, hid, husable⟩
    obtain rfl := Option.some.inj hid
    revert husable
    decide
  have hempty := (h undated blankId "" false).empty_iff.mpr hunusable
  revert hempty
  decide

end Postblox.Mail
