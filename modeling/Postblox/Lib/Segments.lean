import Mathlib

/-!
# A list cut at a separator

`segments` are the pieces that end at a separator, and what comes after the last
separator when that is not empty.
-/
namespace Postblox.Lib

variable {α : Type} [DecidableEq α]

def segments (sep : α) (l : List α) : List (List α) :=
  if (l.splitOn sep).getLast? = some [] then (l.splitOn sep).dropLast else l.splitOn sep

/-- What stands before the first separator. -/
def firstSegment (sep : α) (l : List α) : List α := l.takeWhile (· ≠ sep)

/-- What follows the first separator. -/
def afterSegment (sep : α) (l : List α) : List α := (l.dropWhile (· ≠ sep)).drop 1

variable {sep : α} {l first rest : List α}

theorem segments_nil : segments sep [] = [] := rfl

theorem segments_unended (h : sep ∉ l) (hne : l ≠ []) : segments sep l = [l] := by
  unfold segments
  rw [List.splitOn_eq_singleton h, if_neg]
  simpa using hne

theorem segments_ended (h : sep ∉ first) :
    segments sep (first ++ sep :: rest) = first :: segments sep rest := by
  have hne := List.splitOn_ne_nil sep rest
  unfold segments
  rw [List.splitOn_append_cons_self_of_not_mem h]
  obtain ⟨head, tail, hparts⟩ := List.exists_cons_of_ne_nil hne
  rw [hparts, List.getLast?_cons_cons, List.dropLast_cons_cons]
  split_ifs <;> rfl

/-- Without a separator the first segment is all there is. -/
theorem firstSegment_unended (h : sep ∉ l) : firstSegment sep l = l := by
  refine List.takeWhile_eq_self_iff.mpr ?_
  intro a ha
  exact decide_eq_true fun heq => h (heq ▸ ha)

theorem afterSegment_unended (h : sep ∉ l) : afterSegment sep l = [] := by
  have hall : l.dropWhile (· ≠ sep) = [] := by
    refine List.dropWhile_eq_nil_iff.mpr ?_
    intro a ha
    exact decide_eq_true fun heq => h (heq ▸ ha)
  unfold afterSegment
  rw [hall]
  rfl

/-- What has no separator belongs to the first segment. -/
theorem firstSegment_append (h : sep ∉ first) :
    firstSegment sep (first ++ rest) = first ++ firstSegment sep rest := by
  have hall : ∀ a ∈ first, decide (a ≠ sep) = true := fun a ha =>
    decide_eq_true fun heq => h (heq ▸ ha)
  exact List.takeWhile_append_of_pos hall

theorem afterSegment_append (h : sep ∉ first) :
    afterSegment sep (first ++ rest) = afterSegment sep rest := by
  have hall : ∀ a ∈ first, decide (a ≠ sep) = true := fun a ha =>
    decide_eq_true fun heq => h (heq ▸ ha)
  unfold afterSegment
  rw [List.dropWhile_append_of_pos hall]

theorem firstSegment_ended (h : sep ∉ first) : firstSegment sep (first ++ sep :: rest) = first := by
  rw [firstSegment_append h]
  simp [firstSegment]

theorem afterSegment_ended (h : sep ∉ first) : afterSegment sep (first ++ sep :: rest) = rest := by
  rw [afterSegment_append h]
  simp [afterSegment]

/-- The position of the first separator, and the list around it. -/
theorem idxOf?_ended (h : sep ∉ first) :
    (first ++ sep :: rest).idxOf? sep = some first.length := by
  induction first with
  | nil => simp [List.idxOf?_cons]
  | cons a first ih =>
    have hne : a ≠ sep := fun heq => h (heq ▸ List.mem_cons_self)
    have hnot : sep ∉ first := fun hmem => h (List.mem_cons_of_mem _ hmem)
    rw [List.cons_append, List.idxOf?_cons, ih hnot, if_neg (by simpa using hne)]
    rfl

/-- A list that is not empty is its first segment in front of the others. -/
theorem segments_eq_cons (hne : l ≠ []) :
    segments sep l = firstSegment sep l :: segments sep (afterSegment sep l) := by
  by_cases h : sep ∈ l
  · obtain ⟨first, rest, rfl, hfirst⟩ := List.eq_append_cons_of_mem h
    rw [segments_ended hfirst, firstSegment_ended hfirst, afterSegment_ended hfirst]
  · rw [segments_unended h hne, firstSegment_unended h, afterSegment_unended h]
    rfl

end Postblox.Lib
