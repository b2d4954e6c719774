import Postblox.Mail.HeaderBlocks

/-!
# What a reader makes of an assembled message

The lines of the message are its fields and then, between the delimiter lines, those of
the body and of the attachments. A reader who cuts at the declared boundary gets the texts
and the attachments back, as long as no boundary occurs in a text.
-/
namespace Postblox.Mail

open Lib

/-! ## Lines that begin otherwise -/

theorem not_start {p a : Line} (h : ¬ p <+: a) (h' : ¬ a <+: p) (x : Line) : ¬ p <+: a ++ x := by
  intro hp
  rcases Nat.le_total p.length a.length with hle | hle
  · exact h (List.prefix_of_prefix_length_le hp (List.prefix_append a x) hle)
  · exact h' (List.prefix_of_prefix_length_le (List.prefix_append a x) hp hle)

/-- No line begins with the field's name. -/
def Lacks (name : String) (lines : List Line) : Prop :=
  ∀ line ∈ lines, ¬ utf8 (name ++ ": ") <+: line

theorem find?_of_lacks {name : String} {lines : List Line} (h : Lacks name lines) :
    lines.find? (fun line => utf8 (name ++ ": ") <+: line) = none := by
  rw [List.find?_eq_none]
  intro line hline
  rw [decide_eq_true_eq]
  exact h line hline

theorem fieldValue_of_lacks {name : String} {lines : List Line} (h : Lacks name lines) :
    fieldValue name lines = none := by
  unfold fieldValue
  rw [find?_of_lacks h, Option.map_none]

theorem fieldValue_append {name : String} {before : List Line} (h : Lacks name before)
    (value : Line) (after : List Line) :
    fieldValue name (before ++ (utf8 (name ++ ": ") ++ value) :: after) = some value := by
  have hfound := decide_eq_true (List.prefix_append (utf8 (name ++ ": ")) value)
  unfold fieldValue
  rw [List.find?_append, find?_of_lacks h, Option.none_or, List.find?_cons, hfound]
  exact congrArg some List.drop_left

theorem quotedParameter_eq {a b : Line} (ha : 34 ∉ a) (hb : 34 ∉ b) (rest : Line) :
    quotedParameter (a ++ 34 :: (b ++ 34 :: rest)) = b := by
  have hinside : ∀ l : Line, 34 ∉ l → ∀ x ∈ l, decide (x ≠ 34) = true :=
    fun l hl x hx => decide_eq_true fun heq => hl (heq ▸ hx)
  unfold quotedParameter
  rw [List.dropWhile_append_of_pos (hinside a ha), List.dropWhile_cons_of_neg (by simp),
    List.drop_one, List.tail_cons, List.takeWhile_append_of_pos (hinside b hb),
    List.takeWhile_cons_of_neg (by simp), List.append_nil]

/-! ## Boundaries -/

theorem mem_utf8_simpleUuid {u : Uuid} {b : UInt8} (h : b ∈ utf8 (simpleUuid u))
    (hb : b.toNat < 128) : ∃ d, (Uuid.hexChar d).toNat = b.toNat := by
  obtain ⟨c, hc, heq⟩ := mem_utf8 h hb
  rw [simpleUuid, String.toList_ofList] at hc
  obtain ⟨d, -, rfl⟩ := List.mem_map.mp hc
  exact ⟨d, heq⟩

theorem quote_not_mem_simpleUuid (u : Uuid) : 34 ∉ utf8 (simpleUuid u) := by
  intro h
  obtain ⟨d, hd⟩ := mem_utf8_simpleUuid h (by decide)
  revert d
  decide

/-- The digits do not begin like `mixed`. -/
theorem simpleUuid_start (u : Uuid) (rest x : Line) : ¬ 109 :: rest <+: utf8 (simpleUuid u) ++ x := by
  intro h
  have hne : utf8 (simpleUuid u) ≠ [] := by
    refine utf8_ne_nil fun hempty => ?_
    have hlen := congrArg String.toList hempty
    rw [simpleUuid, String.toList_ofList] at hlen
    have hsize := congrArg List.length hlen
    rw [Uuid.length_hex, u.size] at hsize
    cases hsize
  obtain ⟨b, bytes, hbytes⟩ := List.exists_cons_of_ne_nil hne
  rw [hbytes, List.cons_append, List.cons_prefix_cons] at h
  have hmem : (109 : UInt8) ∈ utf8 (simpleUuid u) := by
    rw [hbytes, h.1]
    exact List.mem_cons_self
  obtain ⟨d, hd⟩ := mem_utf8_simpleUuid hmem (by decide)
  revert d
  decide

/-- The inner delimiter is not taken for the outer one. -/
theorem mixed_not_start (mixed inner : Uuid) (x : Line) :
    ¬ openLine (utf8 (mixedBoundary mixed)) <+: openLine (utf8 (alternativeBoundary inner)) ++ x := by
  have hmixed : utf8 (mixedBoundary mixed) =
      utf8 "postblox-" ++ (109 :: (utf8 "ixed-" ++ utf8 (simpleUuid mixed))) := by
    unfold mixedBoundary
    rw [utf8_append]
    rfl
  have hinner : utf8 (alternativeBoundary inner) = utf8 "postblox-" ++ utf8 (simpleUuid inner) := by
    unfold alternativeBoundary
    rw [utf8_append]
  rw [openLine, openLine, hmixed, hinner, List.append_assoc, List.append_assoc,
    List.prefix_append_right_inj, List.prefix_append_right_inj]
  exact simpleUuid_start inner _ x

/-! ## What the headers declare -/

/-- How the fields that every message has begin. -/
def commonStarts : List String :=
  ["From: ", "To: ", "Cc: ", "Subject: ", "Message-ID: ", "In-Reply-To: ", "References: ", "Date: ",
    "MIME-Version: 1.0"]

theorem exists_start {date : RenderedDate} {o : MimeBuildOptions} {line : String}
    (hline : line ∈ commonLines date o) : ∃ start ∈ commonStarts, ∃ value, line = start ++ value := by
  simp only [commonLines, List.append_assoc, List.mem_append, List.mem_cons, List.not_mem_nil,
    or_false] at hline
  obtain (rfl | rfl) | hcc | (rfl | rfl) | hreply | hreferences | rfl | rfl := hline
  · exact ⟨"From: ", by decide, _, rfl⟩
  · exact ⟨"To: ", by decide, _, rfl⟩
  · split_ifs at hcc
    · cases hcc
    · exact ⟨"Cc: ", by decide, _, List.mem_singleton.mp hcc⟩
  · exact ⟨"Subject: ", by decide, _, rfl⟩
  · exact ⟨"Message-ID: ", by decide, _, rfl⟩
  · obtain ⟨v, -, rfl⟩ := Option.map_eq_some_iff.mp (Option.mem_toList.mp hreply)
    exact ⟨"In-Reply-To: ", by decide, _, rfl⟩
  · obtain ⟨v, -, rfl⟩ := Option.map_eq_some_iff.mp (Option.mem_toList.mp hreferences)
    exact ⟨"References: ", by decide, _, rfl⟩
  · exact ⟨"Date: ", by decide, _, rfl⟩
  · exact ⟨"MIME-Version: 1.0", by decide, "", (String.append_empty).symm⟩

/-- No field of these is read for the structure. -/
theorem lacks_commonLines {name : String} (hname : ∀ start ∈ commonStarts,
      ¬ utf8 (name ++ ": ") <+: utf8 start ∧ ¬ utf8 start <+: utf8 (name ++ ": "))
    (date : RenderedDate) (o : MimeBuildOptions) :
    Lacks name ((commonLines date o).map utf8) := by
  intro line hline
  obtain ⟨s, hs, rfl⟩ := List.mem_map.mp hline
  obtain ⟨start, hstart, value, rfl⟩ := exists_start hs
  rw [utf8_append start value]
  exact not_start (hname start hstart).1 (hname start hstart).2 _

/-- Headers that say nothing about the structure. -/
structure Neutral (top : List Line) : Prop where
  type : Lacks "Content-Type" top
  encoding : Lacks "Content-Transfer-Encoding" top

theorem neutral_nil : Neutral [] :=
  ⟨fun _ h => absurd h List.not_mem_nil, fun _ h => absurd h List.not_mem_nil⟩

theorem neutral_commonLines (date : RenderedDate) (o : MimeBuildOptions) :
    Neutral ((commonLines date o).map utf8) :=
  ⟨lacks_commonLines (by decide) date o, lacks_commonLines (by decide +kernel) date o⟩

/-- The boundary is declared by the last field. -/
theorem declaredBoundary_append {top : List Line} (htop : Neutral top) (value : Line) :
    declaredBoundary (top ++ [utf8 "Content-Type: " ++ value]) =
      if utf8 "multipart/" <+: value then some (quotedParameter value) else none := by
  have hencoding : Lacks "Content-Transfer-Encoding" (top ++ [utf8 "Content-Type: " ++ value]) := by
    intro line hline
    rcases List.mem_append.mp hline with hold | htype
    · exact htop.encoding line hold
    · rw [List.mem_singleton.mp htype]
      exact not_start (by decide) (by decide +kernel) value
  have htype : fieldValue "Content-Type" (top ++ [utf8 "Content-Type: " ++ value]) = some value :=
    fieldValue_append htop.type value []
  unfold declaredBoundary
  rw [fieldValue_of_lacks hencoding, if_neg (by simp), htype]
  rfl

theorem declaredBoundary_alternative {top : List Line} (htop : Neutral top) (inner : Uuid) :
    declaredBoundary (top ++ [utf8 (alternativeLine inner)]) =
      some (utf8 (alternativeBoundary inner)) := by
  have hline : utf8 (alternativeLine inner) = utf8 "Content-Type: " ++
      (utf8 "multipart/alternative; boundary=" ++ 34 :: (utf8 (alternativeBoundary inner) ++ [34])) := by
    rw [utf8_alternativeLine]
    rfl
  have hquote : 34 ∉ utf8 (alternativeBoundary inner) := by
    unfold alternativeBoundary
    rw [utf8_append, List.mem_append]
    exact fun h => h.elim (by decide) (quote_not_mem_simpleUuid inner)
  rw [hline, declaredBoundary_append htop, if_pos, quotedParameter_eq (by decide) hquote]
  exact (by decide : utf8 "multipart/" <+: utf8 "multipart/alternative; boundary=").trans
    (List.prefix_append _ _)

theorem declaredBoundary_mixed {top : List Line} (htop : Neutral top) (mixed : Uuid) :
    declaredBoundary (top ++ [utf8 (mixedLine mixed)]) = some (utf8 (mixedBoundary mixed)) := by
  have hline : utf8 (mixedLine mixed) = utf8 "Content-Type: " ++
      (utf8 "multipart/mixed; boundary=" ++ 34 :: (utf8 (mixedBoundary mixed) ++ [34])) := by
    rw [utf8_mixedLine]
    rfl
  have hquote : 34 ∉ utf8 (mixedBoundary mixed) := by
    unfold mixedBoundary
    rw [utf8_append, List.mem_append]
    exact fun h => h.elim (by decide) (quote_not_mem_simpleUuid mixed)
  rw [hline, declaredBoundary_append htop, if_pos, quotedParameter_eq (by decide) hquote]
  exact (by decide : utf8 "multipart/" <+: utf8 "multipart/mixed; boundary=").trans
    (List.prefix_append _ _)

theorem declaredBoundary_plain {top : List Line} (htop : Neutral top) :
    declaredBoundary (top ++ [utf8 plainLine]) = none := by
  have hline : utf8 plainLine = utf8 "Content-Type: " ++ utf8 "text/plain; charset=utf-8" := by
    decide
  rw [hline, declaredBoundary_append htop, if_neg (by decide)]

theorem declaredBoundary_html {top : List Line} (htop : Neutral top) :
    declaredBoundary (top ++ [utf8 htmlLine]) = none := by
  have hline : utf8 htmlLine = utf8 "Content-Type: " ++ utf8 "text/html; charset=utf-8" := by
    decide
  rw [hline, declaredBoundary_append htop, if_neg (by decide)]

/-- An attachment is base64, whatever its type is. -/
theorem declaredBoundary_attachment (att : MimeAttachment) :
    declaredBoundary ((attachmentLines att).map utf8) = none := by
  have hlines : ∃ type rest, (attachmentLines att).map utf8 = [utf8 "Content-Type: " ++ type] ++
      (utf8 "Content-Transfer-Encoding: " ++ utf8 "base64") :: rest := by
    refine ⟨utf8 (sanitizeHeader att.contentType ++ "; name=\"" ++ sanitizeHeader att.filename ++
      "\""), (dispositionLines att).map utf8, ?_⟩
    have hencoding : utf8 "Content-Transfer-Encoding: base64" =
        utf8 "Content-Transfer-Encoding: " ++ utf8 "base64" := by decide
    unfold attachmentLines
    simp only [List.map_cons, utf8_append, hencoding, List.append_assoc, List.singleton_append]
  obtain ⟨type, rest, hlines⟩ := hlines
  have hfirst : Lacks "Content-Transfer-Encoding" [utf8 "Content-Type: " ++ type] := by
    intro line hline
    rw [List.mem_singleton.mp hline]
    exact not_start (by decide) (by decide +kernel) type
  have hencoding : fieldValue "Content-Transfer-Encoding" ((attachmentLines att).map utf8) =
      some (utf8 "base64") := by
    rw [hlines]
    exact fieldValue_append hfirst (utf8 "base64") rest
  unfold declaredBoundary
  rw [if_pos hencoding]

end Postblox.Mail
