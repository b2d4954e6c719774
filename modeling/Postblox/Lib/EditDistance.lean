import Mathlib

/-!
# Optimal string alignment

Entry `(i, j)` of the matrix is the cost of turning the first `i` items of one list into the
first `j` of another by deletions, insertions, substitutions and swaps of neighbours, none of
which touches what another has changed.
-/
namespace Postblox.Lib

variable {α : Type*} [DecidableEq α]

def substitutionCost (a b : List α) (i j : Nat) : Nat := if a[i]? = b[j]? then 0 else 1

/-- The two items that end at `i` and at `j` are each other's in reverse. -/
def Swapped (a b : List α) (i j : Nat) : Prop :=
  0 < i ∧ 0 < j ∧ a[i]? = b[j - 1]? ∧ a[i - 1]? = b[j]?

instance decidableSwapped (a b : List α) (i j : Nat) : Decidable (Swapped a b i j) :=
  inferInstanceAs (Decidable (_ ∧ _))

def alignment (a b : List α) (i j : Nat) : Nat :=
  match i, j with
  | 0, j => j
  | i + 1, 0 => i + 1
  | i + 1, j + 1 =>
    let deletion := alignment a b i (j + 1) + 1
    let insertion := alignment a b (i + 1) j + 1
    let substitution := alignment a b i j + substitutionCost a b i j
    let value := min (min deletion insertion) substitution
    if Swapped a b i j then min value (alignment a b (i - 1) (j - 1) + 1) else value
termination_by i + j

/-- The distance is the corner of the matrix. -/
def alignmentDistance (a b : List α) : Nat := alignment a b a.length b.length

@[simp] theorem alignment_zero_left (a b : List α) (j : Nat) : alignment a b 0 j = j := by
  rw [alignment]

@[simp] theorem alignment_zero_right (a b : List α) (i : Nat) : alignment a b i 0 = i := by
  cases i <;> rw [alignment]

theorem alignment_succ (a b : List α) (i j : Nat) :
    alignment a b (i + 1) (j + 1) =
      if Swapped a b i j then
        min (min (min (alignment a b i (j + 1) + 1) (alignment a b (i + 1) j + 1))
          (alignment a b i j + substitutionCost a b i j)) (alignment a b (i - 1) (j - 1) + 1)
      else
        min (min (alignment a b i (j + 1) + 1) (alignment a b (i + 1) j + 1))
          (alignment a b i j + substitutionCost a b i j) := by
  rw [alignment]

theorem substitutionCost_comm (a b : List α) (i j : Nat) :
    substitutionCost a b i j = substitutionCost b a j i := by
  unfold substitutionCost
  by_cases h : a[i]? = b[j]?
  · rw [if_pos h, if_pos h.symm]
  · rw [if_neg h, if_neg fun h' => h h'.symm]

omit [DecidableEq α] in
theorem swapped_comm {a b : List α} {i j : Nat} : Swapped a b i j ↔ Swapped b a j i := by
  unfold Swapped
  constructor
  · rintro ⟨hi, hj, hfirst, hsecond⟩
    exact ⟨hj, hi, hsecond.symm, hfirst.symm⟩
  · rintro ⟨hj, hi, hsecond, hfirst⟩
    exact ⟨hi, hj, hfirst.symm, hsecond.symm⟩

/-- What is deleted on the way there is inserted on the way back. -/
theorem alignment_comm (a b : List α) (i j : Nat) : alignment a b i j = alignment b a j i := by
  induction hn : i + j using Nat.strong_induction_on generalizing i j with
  | _ n ih =>
    cases i with
    | zero => rw [alignment_zero_left, alignment_zero_right]
    | succ i =>
      cases j with
      | zero => rw [alignment_zero_left, alignment_zero_right]
      | succ j =>
        have hdeletion := ih (i + (j + 1)) (by omega) i (j + 1) rfl
        have hinsertion := ih (i + 1 + j) (by omega) (i + 1) j rfl
        have hsubstitution := ih (i + j) (by omega) i j rfl
        have hswap := ih (i - 1 + (j - 1)) (by omega) (i - 1) (j - 1) rfl
        rw [alignment_succ, alignment_succ, hdeletion, hinsertion, hsubstitution, hswap,
          substitutionCost_comm a b, min_comm (alignment b a (j + 1) i + 1)]
        by_cases h : Swapped a b i j
        · rw [if_pos h, if_pos (swapped_comm.mp h)]
        · rw [if_neg h, if_neg (mt swapped_comm.mpr h)]

/-- Only deletions and insertions change the length, by one each. -/
theorem alignment_bounds (a b : List α) (i j : Nat) :
    i ≤ j + alignment a b i j ∧ j ≤ i + alignment a b i j := by
  induction hn : i + j using Nat.strong_induction_on generalizing i j with
  | _ n ih =>
    cases i with
    | zero => rw [alignment_zero_left]; omega
    | succ i =>
      cases j with
      | zero => rw [alignment_zero_right]; omega
      | succ j =>
        have hdeletion := ih (i + (j + 1)) (by omega) i (j + 1) rfl
        have hinsertion := ih (i + 1 + j) (by omega) (i + 1) j rfl
        have hsubstitution := ih (i + j) (by omega) i j rfl
        have hswap := ih (i - 1 + (j - 1)) (by omega) (i - 1) (j - 1) rfl
        rw [alignment_succ]
        split_ifs with h
        · obtain ⟨hi, hj, -⟩ := h
          omega
        · omega

/-! ## Rows of the matrix -/

variable {a b : List α} {cols : Nat}

/-- The row holds the entries of row `i` up to column `j`. -/
def RowHolds (a b : List α) (i j : Nat) (row : Vector Nat (cols + 1)) : Prop :=
  ∀ k, k ≤ j → row[k]? = some (alignment a b i k)

theorem RowHolds.mono {row : Vector Nat (cols + 1)} {i j j' : Nat} (h : RowHolds a b i j row)
    (hle : j' ≤ j) : RowHolds a b i j' row := fun k hk => h k (hk.trans hle)

theorem RowHolds.get {row : Vector Nat (cols + 1)} {i j k : Nat} (h : RowHolds a b i j row)
    (hk : k ≤ j) (hlt : k < cols + 1) : row[k] = alignment a b i k := by
  have hget := h k hk
  rw [Vector.getElem?_eq_getElem hlt] at hget
  exact Option.some.inj hget

/-- The next entry goes behind those the row has. -/
theorem RowHolds.set {row : Vector Nat (cols + 1)} {i j value : Nat} (h : RowHolds a b i j row)
    (hlt : j + 1 < cols + 1) (hvalue : value = alignment a b i (j + 1)) :
    RowHolds a b i (j + 1) (row.set (j + 1) value) := by
  intro k hk
  rw [Vector.getElem?_set]
  by_cases heq : j + 1 = k
  · rw [if_pos heq, hvalue, heq]
  · rw [if_neg heq]
    exact h k (by omega)

/-- A loop over `0, …, n - 1` whose body takes the invariant from each to the next. -/
theorem foldl_finRange_invariant {σ : Type*} {n : Nat} {body : σ → Fin n → σ}
    {I : Nat → σ → Prop} {s : σ} (h₀ : I 0 s) (hbody : ∀ k s, I k.val s → I (k.val + 1) (body s k)) :
    I n ((List.finRange n).foldl body s) := by
  induction n with
  | zero => exact h₀
  | succ n ih =>
    rw [List.finRange_succ_last, List.foldl_append, List.foldl_map]
    exact hbody (Fin.last n) _ (ih fun k s hk => hbody k.castSucc s hk)

end Postblox.Lib
