import Mathlib

/-!
# Contiguous ranges

A list of inclusive ranges is contiguous from `start` when the first begins there
and each of the others begins right after the one before it. Such ranges are
pairwise disjoint and cover exactly what lies between the two ends.
-/
namespace Postblox.Lib

def Contiguous : Nat → List (Nat × Nat) → Prop
  | _, [] => True
  | start, r :: rest => r.1 = start ∧ r.1 ≤ r.2 ∧ Contiguous (r.2 + 1) rest

namespace Contiguous

variable {start : Nat} {ranges : List (Nat × Nat)}

theorem start_le (h : Contiguous start ranges) : ∀ r ∈ ranges, start ≤ r.1 := by
  induction ranges generalizing start with
  | nil => exact fun r hr => nomatch hr
  | cons head rest ih =>
    obtain ⟨hstart, hle, hrest⟩ := h
    intro r hr
    rcases List.mem_cons.mp hr with rfl | hmem
    · omega
    · have hr := ih hrest r hmem
      omega

/-- Later ranges lie above earlier ones. -/
theorem pairwise (h : Contiguous start ranges) : ranges.Pairwise (fun a b => a.2 < b.1) := by
  induction ranges generalizing start with
  | nil => exact .nil
  | cons head rest ih =>
    obtain ⟨-, -, hrest⟩ := h
    refine .cons ?_ (ih hrest)
    intro r hr
    have hle := hrest.start_le r hr
    omega

theorem covers (h : Contiguous start ranges) (u : Nat) :
    (∃ r ∈ ranges, r.1 ≤ u ∧ u ≤ r.2) ↔
      ∃ last, ranges.getLast? = some last ∧ start ≤ u ∧ u ≤ last.2 := by
  induction ranges generalizing start u with
  | nil => simp
  | cons head rest ih =>
    obtain ⟨hstart, hle, hrest⟩ := h
    have htail := ih hrest
    cases rest with
    | nil =>
      simp only [List.mem_singleton, exists_eq_left, List.getLast?_singleton, Option.some.injEq,
        exists_eq_left']
      omega
    | cons next rest =>
      rw [List.getLast?_cons_cons]
      constructor
      · intro ⟨r, hr, hlo, hhi⟩
        rcases List.mem_cons.mp hr with rfl | hmem
        · -- below the next range, so below the last one
          obtain ⟨last, hlast, -, hend⟩ :=
            (htail next.1).mp ⟨next, List.mem_cons_self, Nat.le_refl _, hrest.2.1⟩
          have hnext := hrest.1
          exact ⟨last, hlast, by omega, by omega⟩
        · obtain ⟨last, hlast, hge, hend⟩ := (htail u).mp ⟨r, hmem, hlo, hhi⟩
          exact ⟨last, hlast, by omega, hend⟩
      · intro ⟨last, hlast, hge, hend⟩
        by_cases hu : u ≤ head.2
        · exact ⟨head, List.mem_cons_self, by omega, hu⟩
        · obtain ⟨r, hr, hmem⟩ := (htail u).mpr ⟨last, hlast, by omega, hend⟩
          exact ⟨r, List.mem_cons_of_mem _ hr, hmem⟩

end Contiguous

end Postblox.Lib
