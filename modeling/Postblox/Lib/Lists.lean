import Mathlib

/-!
# Lists: common prefixes, pages and replaced elements

The longest common prefix of several words; a list that grows while it is read page by
page; the place of an element when another one is replaced.
-/
namespace Postblox.Lib

/-! ## The longest common prefix

The first word is read as long as every word has the same letter at that place. A word is
a prefix of the result exactly if it is a prefix of all of them.
-/

section CommonPrefix

variable {α : Type*} [DecidableEq α]

/-- `rest` is what the first word has from place `i` on. -/
def commonFrom (words : List (List α)) (i : Nat) : List α → List α
  | [] => []
  | ch :: rest =>
    if words.all fun word => word[i]? = some ch then ch :: commonFrom words (i + 1) rest else []

def longestCommonPrefix : List (List α) → List α
  | [] => []
  | first :: others => commonFrom (first :: others) 0 first

variable {words : List (List α)} {read rest word p : List α} {ch : α}

omit [DecidableEq α] in
theorem snoc_prefix_iff : read ++ [ch] <+: word ↔ read <+: word ∧ word[read.length]? = some ch := by
  constructor
  · rintro ⟨tail, rfl⟩
    refine ⟨⟨ch :: tail, by simp⟩, by simp⟩
  · rintro ⟨⟨tail, rfl⟩, hch⟩
    rw [List.getElem?_append_right le_rfl, Nat.sub_self] at hch
    cases tail with
    | nil => cases hch
    | cons c tail =>
      obtain rfl : c = ch := by simpa using hch
      exact ⟨tail, by simp⟩

/-- The letters `read` so far are common to all words. -/
theorem prefix_commonFrom_iff (hmem : read ++ rest ∈ words) (hread : ∀ word ∈ words, read <+: word) :
    p <+: commonFrom words read.length rest ↔ ∀ word ∈ words, read ++ p <+: word := by
  induction rest generalizing read p with
  | nil =>
    rw [commonFrom, List.prefix_nil]
    constructor
    · rintro rfl
      simpa using hread
    · intro hall
      have hself := hall _ hmem
      rw [List.prefix_append_right_inj] at hself
      exact List.prefix_nil.mp hself
  | cons ch rest ih =>
    rw [commonFrom]
    split_ifs with hcommon
    · simp only [List.all_eq_true, decide_eq_true_eq] at hcommon
      have hnext : ∀ word ∈ words, read ++ [ch] <+: word :=
        fun word hword => snoc_prefix_iff.mpr ⟨hread word hword, hcommon word hword⟩
      have hmem' : (read ++ [ch]) ++ rest ∈ words := by simpa using hmem
      cases p with
      | nil => simpa using hread
      | cons c p =>
        rw [List.cons_prefix_cons]
        have hstep := @ih (read ++ [ch]) p hmem' hnext
        rw [List.length_append, List.length_singleton] at hstep
        rw [hstep]
        constructor
        · rintro ⟨rfl, hall⟩
          simpa using hall
        · intro hall
          have hself := hall _ hmem
          rw [List.prefix_append_right_inj, List.cons_prefix_cons] at hself
          obtain ⟨rfl, -⟩ := hself
          exact ⟨rfl, by simpa using hall⟩
    · rw [List.prefix_nil]
      constructor
      · rintro rfl
        simpa using hread
      · intro hall
        cases p with
        | nil => rfl
        | cons c p =>
          have hself := hall _ hmem
          rw [List.prefix_append_right_inj, List.cons_prefix_cons] at hself
          obtain ⟨rfl, -⟩ := hself
          refine absurd ?_ hcommon
          simp only [List.all_eq_true, decide_eq_true_eq]
          intro word hword
          have hlonger : read ++ [c] <+: word :=
            ((List.prefix_append_right_inj read).mpr ⟨p, rfl⟩).trans (hall word hword)
          exact (snoc_prefix_iff.mp hlonger).2

theorem prefix_longestCommonPrefix_iff (hne : words ≠ []) :
    p <+: longestCommonPrefix words ↔ ∀ word ∈ words, p <+: word := by
  obtain ⟨first, others, rfl⟩ := List.exists_cons_of_ne_nil hne
  have h := @prefix_commonFrom_iff α _ (first :: others) [] first p List.mem_cons_self
    (fun _ _ => List.nil_prefix)
  simpa [longestCommonPrefix] using h

end CommonPrefix

/-! ## Reading page by page

Between two reads a list may grow: the new one has the old elements in their order, with
others anywhere between them. A reader that asks for one page after the other by its offset
misses nothing that was there when it began.
-/

section Pages

variable {α : Type*}

/-- `LIMIT size OFFSET skip`. -/
def page (l : List α) (size skip : Nat) : List α := (l.drop skip).take size

/-- What was there at the start was read or is still to come. -/
def Unmissed (start seen now : List α) (skip : Nat) : Prop :=
  start.Sublist (seen ++ now.drop skip)

variable {start seen now now' : List α} {size skip : Nat}

theorem page_append_drop : page now size skip ++ now.drop (skip + size) = now.drop skip := by
  rw [page, ← List.drop_drop, List.take_append_drop]

theorem drop_eq_nil_of_short (h : (page now size skip).length < size) :
    now.drop (skip + size) = [] := by
  rw [page, List.length_take, List.length_drop] at h
  exact List.drop_eq_nil_of_le (by omega)

theorem Unmissed.at_start (l : List α) : Unmissed l [] l 0 := List.Sublist.refl l

theorem Unmissed.grow (h : Unmissed start seen now skip) (hgrow : now.Sublist now') :
    Unmissed start seen now' skip :=
  h.trans ((hgrow.drop skip).append_left seen)

theorem Unmissed.read (h : Unmissed start seen now skip) (size : Nat) :
    Unmissed start (seen ++ page now size skip) now (skip + size) := by
  rw [Unmissed, List.append_assoc, page_append_drop]
  exact h

/-- A page that is not full is the last one. -/
theorem Unmissed.all_of_short (h : Unmissed start seen now skip)
    (hshort : (page now size skip).length < size) :
    start.Sublist (seen ++ page now size skip) := by
  have hread := h.read size
  rw [Unmissed, drop_eq_nil_of_short hshort, List.append_nil] at hread
  exact hread

end Pages

/-! ## Replacing an element -/

/-- An element when one of the elements is replaced: it is that one, or it keeps its place. -/
theorem split_of_replaced {α : Type*} {front back front' back' : List α} {x y : α}
    (h : front ++ x :: back = front' ++ y :: back') (y' : α) :
    (x = y ∧ front = front' ∧ back = back') ∨ ∃ front₂ back₂,
      front' ++ y' :: back' = front₂ ++ x :: back₂ ∧ back₂.length = back.length := by
  rcases List.append_eq_append_iff.mp h with ⟨between, rfl, hrest⟩ | ⟨between, rfl, hrest⟩
  · cases between with
    | nil =>
      obtain ⟨rfl, rfl⟩ := List.cons.inj hrest
      exact .inl ⟨rfl, (List.append_nil _).symm, rfl⟩
    | cons first between =>
      obtain ⟨rfl, rfl⟩ := List.cons.inj hrest
      exact .inr ⟨front, between ++ y' :: back', by simp, by simp⟩
  · cases between with
    | nil =>
      obtain ⟨rfl, rfl⟩ := List.cons.inj hrest
      exact .inl ⟨rfl, List.append_nil _, rfl⟩
    | cons first between =>
      obtain ⟨rfl, rfl⟩ := List.cons.inj hrest
      exact .inr ⟨front' ++ y' :: between, back, by simp, rfl⟩

end Postblox.Lib
