import Mathlib

/-!
# Lists with a slot for each position

A result is written at the position of its request, in any order; at the end the free slots
are dropped. The occupied positions say which requests the remaining results answer.
-/
namespace Postblox.Lib

variable {α : Type}

/-- The occupied positions, counted from `n`. -/
def occupied : Nat → List (Option α) → List Nat
  | _, [] => []
  | n, none :: rest => occupied (n + 1) rest
  | n, some _ :: rest => n :: occupied (n + 1) rest

theorem le_of_mem_occupied {slots : List (Option α)} {n i : Nat} (h : i ∈ occupied n slots) :
    n ≤ i := by
  induction slots generalizing n with
  | nil => cases h
  | cons slot rest ih =>
    cases slot with
    | none =>
      have hlater := ih h
      omega
    | some x =>
      rcases List.mem_cons.mp h with rfl | hrest
      · exact Nat.le_refl _
      · have hlater := ih hrest
        omega

/-- The positions are listed in order. -/
theorem pairwise_occupied (n : Nat) (slots : List (Option α)) :
    (occupied n slots).Pairwise (· < ·) := by
  induction slots generalizing n with
  | nil => exact List.Pairwise.nil
  | cons slot rest ih =>
    cases slot with
    | none => exact ih (n + 1)
    | some x =>
      refine List.pairwise_cons.mpr ⟨fun i hi => ?_, ih (n + 1)⟩
      have hlater := le_of_mem_occupied hi
      omega

theorem mem_occupied {slots : List (Option α)} {n i : Nat} {x : α}
    (h : slots[i]? = some (some x)) : n + i ∈ occupied n slots := by
  induction slots generalizing n i with
  | nil => cases h
  | cons slot rest ih =>
    cases i with
    | zero =>
      rw [List.getElem?_cons_zero, Option.some.injEq] at h
      rw [h]
      exact List.mem_cons_self
    | succ i =>
      rw [List.getElem?_cons_succ] at h
      have hlater : n + (i + 1) ∈ occupied (n + 1) rest := by
        have hmem := ih (n := n + 1) h
        have hsum : n + 1 + i = n + (i + 1) := by omega
        rwa [hsum] at hmem
      cases slot with
      | none => exact hlater
      | some y => exact List.mem_cons_of_mem _ hlater

/-- A slot that is not among the occupied ones is free. -/
theorem free_of_notMem {slots : List (Option α)} {i : Nat} (hi : i < slots.length)
    (h : i ∉ occupied 0 slots) : slots[i]? = some none := by
  rw [List.getElem?_eq_getElem hi]
  cases hslot : slots[i] with
  | none => rfl
  | some x =>
    have hmem : 0 + i ∈ occupied 0 slots :=
      mem_occupied (by rw [List.getElem?_eq_getElem hi, hslot])
    rw [Nat.zero_add] at hmem
    exact absurd hmem h

/-- Writing into a free slot adds its position. -/
theorem occupied_set {slots : List (Option α)} {i : Nat} (h : slots[i]? = some none) (n : Nat)
    (x : α) : (occupied n (slots.set i (some x))).Perm ((n + i) :: occupied n slots) := by
  induction slots generalizing n i with
  | nil => cases h
  | cons slot rest ih =>
    cases i with
    | zero =>
      rw [List.getElem?_cons_zero, Option.some.injEq] at h
      rw [h]
      exact List.Perm.refl _
    | succ i =>
      rw [List.getElem?_cons_succ] at h
      have hsum : n + 1 + i = n + (i + 1) := by omega
      have hrest := ih h (n + 1)
      rw [hsum] at hrest
      rw [List.set_cons_succ]
      cases slot with
      | none => exact hrest
      | some y => exact (hrest.cons n).trans (List.Perm.swap _ _ _)

/-- What remains without the free slots, position by position. -/
theorem forall₂_occupied {R : Nat → α → Prop} {slots : List (Option α)} {n : Nat}
    (h : ∀ i x, slots[i]? = some (some x) → R (n + i) x) :
    List.Forall₂ R (occupied n slots) (slots.filterMap fun slot => slot) := by
  induction slots generalizing n with
  | nil => exact List.Forall₂.nil
  | cons slot rest ih =>
    have hrest : List.Forall₂ R (occupied (n + 1) rest) (rest.filterMap fun slot => slot) := by
      apply ih
      intro i x hx
      have hsum : n + 1 + i = n + (i + 1) := by omega
      rw [hsum]
      exact h (i + 1) x hx
    cases slot with
    | none => exact hrest
    | some x => exact List.Forall₂.cons (h 0 x rfl) hrest

theorem occupied_replicate_none (n k : Nat) :
    occupied n (List.replicate k (none : Option α)) = [] := by
  induction k generalizing n with
  | zero => rfl
  | succ k ih => exact ih (n + 1)

end Postblox.Lib
