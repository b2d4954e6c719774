import Mathlib

/-!
# Blanks at the ends of a list, and of its lines

`strip` drops the blanks at both ends. Lines are cut at a separator that is a blank
itself, so stripping a text drops its blank lines at both ends and strips the outermost of
the others. A property that looks at stripped lines only, and not at blank lines at the
ends, does not see the difference.
-/
namespace Postblox.Lib

section Strip

variable {α : Type} (p : α → Bool)

def strip (s : List α) : List α := (s.dropWhile p).rdropWhile p

def Blank (s : List α) : Prop := ∀ c ∈ s, p c = true

/-- What is not blank, in order. -/
def ink (s : List α) : List α := s.filter fun c => !p c

variable {p} {s a b : List α}

theorem blank_append : Blank p (a ++ b) ↔ Blank p a ∧ Blank p b := List.forall_mem_append

theorem dropWhile_blank (h : Blank p a) : (a ++ b).dropWhile p = b.dropWhile p :=
  List.dropWhile_append_of_pos h

theorem dropWhile_written (h : ¬ Blank p a) : (a ++ b).dropWhile p = a.dropWhile p ++ b := by
  have hne : a.dropWhile p ≠ [] := fun hnil => h (List.dropWhile_eq_nil_iff.mp hnil)
  rw [List.dropWhile_append, if_neg (by simpa using hne)]

theorem rdropWhile_blank (h : Blank p b) : (a ++ b).rdropWhile p = a.rdropWhile p := by
  have hrev : Blank p b.reverse := fun c hc => h c (List.mem_reverse.mp hc)
  rw [List.rdropWhile, List.rdropWhile, List.reverse_append, dropWhile_blank hrev]

theorem rdropWhile_written (h : ¬ Blank p b) : (a ++ b).rdropWhile p = a ++ b.rdropWhile p := by
  have hrev : ¬ Blank p b.reverse := fun hb => h fun c hc => hb c (List.mem_reverse.mpr hc)
  rw [List.rdropWhile, List.rdropWhile, List.reverse_append, dropWhile_written hrev,
    List.reverse_append, List.reverse_reverse]

theorem strip_append_blank (h : Blank p b) : strip p (a ++ b) = strip p a := by
  unfold strip
  by_cases ha : Blank p a
  · rw [dropWhile_blank ha, List.dropWhile_eq_nil_iff.mpr h, List.dropWhile_eq_nil_iff.mpr ha]
  · rw [dropWhile_written ha, rdropWhile_blank h]

theorem strip_blank_append (h : Blank p a) : strip p (a ++ b) = strip p b := by
  unfold strip
  rw [dropWhile_blank h]

/-- What stands between two written parts is kept as it is. -/
theorem strip_between {m : List α} (ha : ¬ Blank p a) (hb : ¬ Blank p b) :
    strip p (a ++ m ++ b) = a.dropWhile p ++ m ++ b.rdropWhile p := by
  unfold strip
  rw [List.append_assoc, dropWhile_written ha, ← List.append_assoc, rdropWhile_written hb]

/-- A text is its stripped form between blanks. -/
theorem exists_strip (p : α → Bool) (s : List α) :
    ∃ front back, Blank p front ∧ Blank p back ∧ s = front ++ strip p s ++ back := by
  refine ⟨s.takeWhile p, (s.dropWhile p).rtakeWhile p, ?_, ?_, ?_⟩
  · exact fun c hc => List.mem_takeWhile_imp hc
  · exact fun c hc => List.mem_rtakeWhile_imp hc
  · rw [strip, List.append_assoc, List.rdropWhile_append_rtakeWhile,
      List.takeWhile_append_dropWhile]

theorem ink_append : ink p (a ++ b) = ink p a ++ ink p b := List.filter_append a b

theorem ink_blank (h : Blank p s) : ink p s = [] :=
  List.filter_eq_nil_iff.mpr fun c hc => by simp [h c hc]

theorem blank_iff_ink : Blank p s ↔ ink p s = [] := by
  constructor
  · exact ink_blank
  · intro h c hc
    have hno := List.filter_eq_nil_iff.mp h c hc
    simpa using hno

@[simp] theorem ink_strip (p : α → Bool) (s : List α) : ink p (strip p s) = ink p s := by
  obtain ⟨front, back, hfront, hback, hs⟩ := exists_strip p s
  have hink := congrArg (ink p) hs
  rw [ink_append, ink_append, ink_blank hfront, ink_blank hback, List.append_nil] at hink
  exact hink.symm

theorem mem_strip {c : α} (hc : p c = false) : c ∈ strip p s ↔ c ∈ s := by
  have hmem : ∀ l : List α, c ∈ ink p l ↔ c ∈ l := fun l => by simp [ink, hc]
  rw [← hmem, ink_strip, hmem]

theorem strip_blank (h : Blank p s) : strip p s = [] := by
  rw [strip, List.dropWhile_eq_nil_iff.mpr h, List.rdropWhile_nil]

@[simp] theorem dropWhile_strip (p : α → Bool) (s : List α) :
    (strip p s).dropWhile p = strip p s := by
  by_cases h : Blank p s
  · rw [strip_blank h]
    rfl
  · have hdrop : s.dropWhile p ≠ [] := fun hnil => h (List.dropWhile_eq_nil_iff.mp hnil)
    obtain ⟨c, rest, hcons⟩ := List.exists_cons_of_ne_nil hdrop
    have hc : p c = false := by
      have hnot := List.head?_dropWhile_not p s
      rw [hcons] at hnot
      simpa using hnot
    rw [strip, hcons]
    by_cases hrest : Blank p rest
    · have hone : (c :: rest).rdropWhile p = [c] := by
        rw [← List.singleton_append, rdropWhile_blank hrest, List.rdropWhile_singleton,
          if_neg (by simp [hc])]
      rw [hone, List.dropWhile_cons_of_neg (by simp [hc])]
    · rw [← List.singleton_append, rdropWhile_written hrest, List.singleton_append,
        List.dropWhile_cons_of_neg (by simp [hc])]

@[simp] theorem rdropWhile_strip (p : α → Bool) (s : List α) :
    (strip p s).rdropWhile p = strip p s := List.rdropWhile_idempotent p _

@[simp] theorem strip_strip (p : α → Bool) (s : List α) : strip p (strip p s) = strip p s := by
  rw [strip, dropWhile_strip, rdropWhile_strip]

/-- The two ends may be stripped in either order. -/
theorem dropWhile_rdropWhile (p : α → Bool) (s : List α) :
    (s.rdropWhile p).dropWhile p = strip p s := by
  obtain ⟨front, back, hfront, hback, hs⟩ := exists_strip p s
  by_cases h : Blank p (strip p s)
  · have hblank : Blank p (front ++ strip p s ++ back) :=
      blank_append.mpr ⟨blank_append.mpr ⟨hfront, h⟩, hback⟩
    rw [← hs] at hblank
    have hrdrop : s.rdropWhile p = [] := List.rdropWhile_eq_nil_iff.mpr hblank
    rw [hrdrop, strip_blank hblank]
    rfl
  · have hone : s.rdropWhile p = front ++ strip p s := by
      conv_lhs => rw [hs]
      rw [rdropWhile_blank hback, rdropWhile_written h, rdropWhile_strip]
    rw [hone, dropWhile_blank hfront, dropWhile_strip]

theorem strip_eq_nil_iff : strip p s = [] ↔ Blank p s := by
  rw [blank_iff_ink]
  constructor
  · intro h
    rw [← ink_strip, h]
    rfl
  · exact fun h => strip_blank (blank_iff_ink.mpr h)

/-- There is nothing to strip when neither end is a blank. -/
theorem strip_eq_self_iff : strip p s = s ↔
    (∀ c, s.head? = some c → p c = false) ∧ ∀ c, s.getLast? = some c → p c = false := by
  constructor
  · intro h
    constructor
    · intro c hc
      have hnot := List.head?_dropWhile_not p s
      rw [← h, dropWhile_strip, h, hc] at hnot
      simpa using hnot
    · intro c hc
      have hself : s.rdropWhile p = s := by
        rw [← h, rdropWhile_strip]
      obtain ⟨hne, hlast⟩ := List.mem_getLast?_eq_getLast hc
      rw [hlast]
      exact Bool.eq_false_iff.mpr (List.rdropWhile_eq_self_iff.mp hself hne)
  · rintro ⟨hhead, hlast⟩
    have hdrop : s.dropWhile p = s := by
      cases s with
      | nil => rfl
      | cons c rest =>
        rw [List.dropWhile_cons_of_neg]
        rw [hhead c rfl]
        decide
    rw [strip, hdrop, List.rdropWhile_eq_self_iff]
    intro hne
    rw [hlast _ (List.getLast?_eq_some_getLast hne)]
    decide

theorem length_strip_le (p : α → Bool) (s : List α) : (strip p s).length ≤ s.length := by
  obtain ⟨front, back, -, -, hs⟩ := exists_strip p s
  have hlength := congrArg List.length hs
  rw [List.length_append, List.length_append] at hlength
  omega

theorem strip_eq_of_length (h : s.length ≤ (strip p s).length) : strip p s = s := by
  obtain ⟨front, back, -, -, hs⟩ := exists_strip p s
  have hlength := congrArg List.length hs
  rw [List.length_append, List.length_append] at hlength
  have hfront : front = [] := List.length_eq_zero_iff.mp (by omega)
  have hback : back = [] := List.length_eq_zero_iff.mp (by omega)
  rw [hfront, hback, List.nil_append, List.append_nil] at hs
  exact hs.symm

/-- No piece of a cut list holds what it was cut at. -/
theorem not_of_mem_splitOnP {l piece : List α} (h : piece ∈ l.splitOnP p) {c : α}
    (hc : c ∈ piece) : p c = false := by
  induction l generalizing piece with
  | nil =>
    rw [List.splitOnP_nil, List.mem_singleton] at h
    rw [h] at hc
    exact absurd hc List.not_mem_nil
  | cons d rest ih =>
    by_cases hd : p d = true
    · rw [← List.nil_append (d :: rest), List.splitOnP_append_cons _ _ hd, List.splitOnP_nil,
        List.singleton_append, List.mem_cons] at h
      cases h with
      | inl hnil =>
        rw [hnil] at hc
        exact absurd hc List.not_mem_nil
      | inr hrest => exact ih hrest hc
    · obtain ⟨first, others, hsplit⟩ :=
        List.exists_cons_of_ne_nil (List.splitOnP_ne_nil p rest)
      rw [List.splitOnP_cons_eq_if_modifyHead, if_neg hd, hsplit, List.modifyHead_cons,
        List.mem_cons] at h
      cases h with
      | inl hfirst =>
        rw [hfirst, List.mem_cons] at hc
        cases hc with
        | inl hhere => simpa [hhere] using hd
        | inr hlater => exact ih (by rw [hsplit]; exact List.mem_cons_self) hlater
      | inr hother => exact ih (by rw [hsplit]; exact List.mem_cons_of_mem _ hother) hc

end Strip

end Postblox.Lib
