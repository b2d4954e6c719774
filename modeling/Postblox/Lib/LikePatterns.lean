import Mathlib

/-!
# Patterns with wildcards

In a `LIKE` pattern `%` stands for any sequence of characters and `_` for any one of them;
the escape character makes the one after it stand for itself. Characters are compared up to
a case folding. A text escaped character by character matches itself and nothing else.
-/
namespace Postblox.Lib

variable (foldCase : Char → Char) (escape : Char)

/-- A `%` tries every rest of the text. -/
def likeMatch : List Char → List Char → Bool
  | [], text => text.isEmpty
  | c :: pattern, text =>
    if c = '%' then text.tails.any fun rest => likeMatch pattern rest
    else if c = escape then
      match pattern, text with
      | literal :: pattern, d :: text => foldCase literal = foldCase d && likeMatch pattern text
      | _, _ => false
    else
      match text with
      | d :: text => (c = '_' || foldCase c = foldCase d) && likeMatch pattern text
      | [] => false

/-- A character that stands for itself in a pattern. -/
def likeLiteral (c : Char) : List Char := if c = '%' ∨ c = '_' ∨ c = escape then [escape, c] else [c]

variable {foldCase escape} {needle pattern text : List Char}

theorem likeMatch_nil : likeMatch foldCase escape [] text = true ↔ text = [] := by
  rw [likeMatch, List.isEmpty_iff]

theorem likeMatch_many : likeMatch foldCase escape ('%' :: pattern) text = true ↔
    ∃ front back, text = front ++ back ∧ likeMatch foldCase escape pattern back = true := by
  have hcons : likeMatch foldCase escape ('%' :: pattern) text =
      text.tails.any fun rest => likeMatch foldCase escape pattern rest := by
    rw [likeMatch.eq_def]
    exact if_pos rfl
  rw [hcons, List.any_eq_true]
  constructor
  · rintro ⟨back, hback, hmatch⟩
    obtain ⟨front, rfl⟩ := (List.mem_tails _ _).mp hback
    exact ⟨front, back, rfl, hmatch⟩
  · rintro ⟨front, back, rfl, hmatch⟩
    exact ⟨back, (List.mem_tails _ _).mpr (List.suffix_append front back), hmatch⟩

/-- An escaped character takes one character that is equal to it up to case. -/
theorem likeMatch_literal (hescape : escape ≠ '%') {c : Char} :
    likeMatch foldCase escape (likeLiteral escape c ++ pattern) text = true ↔
      ∃ d rest, text = d :: rest ∧ foldCase c = foldCase d ∧
        likeMatch foldCase escape pattern rest = true := by
  unfold likeLiteral
  split_ifs with hspecial
  · show likeMatch foldCase escape (escape :: c :: pattern) text = true ↔ _
    rw [likeMatch.eq_def]
    cases text with
    | nil => simp [hescape]
    | cons d rest => simp [hescape]
  · obtain ⟨hmany, hone, hc⟩ : c ≠ '%' ∧ c ≠ '_' ∧ c ≠ escape := by simpa using hspecial
    show likeMatch foldCase escape (c :: pattern) text = true ↔ _
    rw [likeMatch.eq_def]
    cases text with
    | nil => simp [hmany, hc]
    | cons d rest => simp [hmany, hone, hc]

theorem likeMatch_literals (hescape : escape ≠ '%') :
    likeMatch foldCase escape (needle.flatMap (likeLiteral escape) ++ pattern) text = true ↔
      ∃ front back, text = front ++ back ∧ needle.map foldCase = front.map foldCase ∧
        likeMatch foldCase escape pattern back = true := by
  induction needle generalizing text with
  | nil =>
    constructor
    · intro h
      exact ⟨[], text, rfl, rfl, h⟩
    · rintro ⟨front, back, rfl, hfront, h⟩
      rw [List.map_nil] at hfront
      rw [List.map_eq_nil_iff.mp hfront.symm]
      exact h
  | cons c needle ih =>
    rw [List.flatMap_cons, List.append_assoc, likeMatch_literal hescape]
    constructor
    · rintro ⟨d, rest, rfl, hcase, h⟩
      obtain ⟨front, back, rfl, hfront, h⟩ := ih.mp h
      exact ⟨d :: front, back, rfl, by rw [List.map_cons, List.map_cons, hcase, hfront], h⟩
    · rintro ⟨front, back, rfl, hfront, h⟩
      cases front with
      | nil => cases hfront
      | cons d front =>
        injection hfront with hcase hfront
        exact ⟨d, front ++ back, rfl, hcase, ih.mpr ⟨front, back, rfl, hfront, h⟩⟩

/-- Between two `%` a text is looked for as it is. -/
theorem likeMatch_infix (hescape : escape ≠ '%') :
    likeMatch foldCase escape ('%' :: (needle.flatMap (likeLiteral escape) ++ ['%'])) text = true ↔
      needle.map foldCase <:+: text.map foldCase := by
  have hlast : ∀ rest, likeMatch foldCase escape ['%'] rest = true := fun rest =>
    likeMatch_many.mpr ⟨rest, [], (List.append_nil rest).symm, likeMatch_nil.mpr rfl⟩
  rw [likeMatch_many]
  constructor
  · rintro ⟨front, rest, rfl, h⟩
    obtain ⟨found, back, rfl, hfound, -⟩ := (likeMatch_literals hescape).mp h
    refine ⟨front.map foldCase, back.map foldCase, ?_⟩
    rw [hfound, List.map_append, List.map_append, List.append_assoc]
  · rintro ⟨front, back, h⟩
    obtain ⟨left, right, rfl, hleft, hright⟩ := List.map_eq_append_iff.mp h.symm
    obtain ⟨before, found, rfl, -, hfound⟩ := List.map_eq_append_iff.mp hleft
    refine ⟨before, found ++ right, List.append_assoc _ _ _, ?_⟩
    exact (likeMatch_literals hescape).mpr ⟨found, right, rfl, hfound.symm, hlast right⟩

end Postblox.Lib
