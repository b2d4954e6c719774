import Mathlib

/-!
# Partition points

A list is partitioned by a test if the elements that pass it come first. Where they end is
found by halving: the search keeps a window, and drops the half that the element in the
middle rules out.
-/
namespace Postblox.Lib

section Search

/-- The loop of the search, on the window of `size` places from `base`. -/
def halve (passes : ℕ → Bool) (base size : ℕ) : ℕ :=
  if size ≤ 1 then if passes base then base + 1 else base
  else
    let half := size / 2
    halve passes (if passes (base + half) then base + half else base) (size - half)
termination_by size

/-- If the window covers the end of a front, the loop finds that end. -/
theorem halve_eq {passes : ℕ → Bool} {base size k : ℕ}
    (hfront : ∀ i < base + size, passes i = true ↔ i < k) (hpos : 0 < size) (hbase : base ≤ k)
    (hlast : k ≤ base + size) : halve passes base size = k := by
  induction base, size using halve.induct passes with
  | case1 base size hsmall hpass =>
    have hhere := (hfront base (by omega)).mp hpass
    rw [halve, if_pos hsmall, if_pos hpass]
    omega
  | case2 base size hsmall hpass =>
    have hhere := mt (hfront base (by omega)).mpr hpass
    rw [halve, if_pos hsmall, if_neg hpass]
    omega
  | case3 base size hlarge half ih =>
    have hhalf : half = size / 2 := rfl
    have hmid := hfront (base + half) (by omega)
    rw [halve, if_neg hlarge]
    by_cases h : passes (base + half) = true
    · have hbehind := hmid.mp h
      simp only [dif_pos h] at ih
      simp only [← hhalf, if_pos h]
      exact ih (fun i hi => hfront i (by omega)) (by omega) (by omega) (by omega)
    · have hahead := mt hmid.mpr h
      simp only [dif_neg h] at ih
      simp only [← hhalf, if_neg h]
      exact ih (fun i hi => hfront i (by omega)) (by omega) (by omega) (by omega)

end Search

variable {α : Type*} {passes : α → Bool} {xs : List α}

/-- `partition_point` of a slice: the search in the whole of it. -/
def partitionPoint (passes : α → Bool) (xs : List α) : ℕ :=
  if xs.length = 0 then 0 else halve (fun i => (xs[i]?).any passes) 0 xs.length

/-- What passes comes first. -/
def PartitionedBy (passes : α → Bool) (xs : List α) : Prop :=
  xs.Pairwise fun x y => passes y = true → passes x = true

theorem any_getElem?_iff (h : PartitionedBy passes xs) (i : ℕ) :
    (xs[i]?).any passes = true ↔ i < (xs.takeWhile passes).length := by
  unfold PartitionedBy at h
  induction xs generalizing i with
  | nil => simp
  | cons x rest ih =>
    obtain ⟨hx, hrest⟩ := List.pairwise_cons.mp h
    by_cases hpass : passes x = true
    · rw [List.takeWhile_cons_of_pos hpass]
      cases i with
      | zero => simp [hpass]
      | succ i =>
        rw [List.getElem?_cons_succ, ih hrest, List.length_cons]
        omega
    · rw [List.takeWhile_cons_of_neg hpass]
      have hnone : ∀ y ∈ rest, ¬ passes y = true := fun y hy hp => hpass (hx y hy hp)
      constructor
      · intro hi
        rw [Option.any_eq_true] at hi
        obtain ⟨y, hy, hp⟩ := hi
        rcases List.mem_cons.mp (List.mem_of_getElem? hy) with rfl | hmem
        · exact absurd hp hpass
        · exact absurd hp (hnone y hmem)
      · intro hi
        exact absurd hi (Nat.not_lt_zero i)

/-- The search finds the end of the front. -/
theorem partitionPoint_eq (h : PartitionedBy passes xs) :
    partitionPoint passes xs = (xs.takeWhile passes).length := by
  unfold partitionPoint
  split
  next hnil => rw [List.length_eq_zero_iff.mp hnil]; rfl
  next hne =>
    have hle := (List.takeWhile_prefix passes (l := xs)).length_le
    apply halve_eq
    · intro i _
      exact any_getElem?_iff h i
    · omega
    · omega
    · omega

end Postblox.Lib
