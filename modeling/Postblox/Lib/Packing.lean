import Mathlib

/-!
# Greedy packing

Items are put into the open pack until there are too many of them or their weight would
pass the budget; an item alone may weigh more. The packs together are the items in order.
-/
namespace Postblox.Lib

section Packing

variable {α : Type} (limit budget : Nat) (weight : α → Nat)

def packWeight (pack : List α) : Nat := (pack.map weight).sum

/-- The closed packs follow the open one. -/
def packsFrom (pack : List α) : List α → List (List α)
  | [] => if pack.isEmpty then [] else [pack]
  | item :: rest =>
    if limit ≤ pack.length ∨ pack ≠ [] ∧ budget < packWeight weight pack + weight item then
      pack :: packsFrom [item] rest
    else packsFrom (pack ++ [item]) rest

def packs (items : List α) : List (List α) := packsFrom limit budget weight [] items

/-- A pack is not empty, holds at most `limit` items, and two items only within the budget. -/
structure Packed (pack : List α) : Prop where
  nonempty : pack ≠ []
  count : pack.length ≤ limit
  within : 2 ≤ pack.length → packWeight weight pack ≤ budget

variable {limit budget weight}

theorem packWeight_append (p q : List α) :
    packWeight weight (p ++ q) = packWeight weight p + packWeight weight q := by
  rw [packWeight, packWeight, packWeight, List.map_append, List.sum_append]

@[simp] theorem packWeight_singleton (a : α) : packWeight weight [a] = weight a := by
  simp [packWeight]

theorem flatten_packsFrom (pack items : List α) :
    (packsFrom limit budget weight pack items).flatten = pack ++ items := by
  induction items generalizing pack with
  | nil =>
    rw [packsFrom]
    split_ifs with hempty
    · rw [List.isEmpty_iff.mp hempty]
      rfl
    · rw [List.flatten_singleton, List.append_nil]
  | cons item rest ih =>
    rw [packsFrom]
    split_ifs
    · rw [List.flatten_cons, ih, List.singleton_append]
    · rw [ih, List.append_assoc, List.singleton_append]

/-- Nothing is lost, repeated or moved. -/
theorem flatten_packs (items : List α) : (packs limit budget weight items).flatten = items :=
  flatten_packsFrom [] items

theorem packed_packsFrom (hlimit : 0 < limit) {pack items : List α}
    (hopen : pack ≠ [] → Packed limit budget weight pack) :
    ∀ p ∈ packsFrom limit budget weight pack items, Packed limit budget weight p := by
  have hsingle : ∀ item : α, Packed limit budget weight [item] :=
    fun item => ⟨List.cons_ne_nil _ _, hlimit, fun h => absurd h (Nat.not_succ_le_self 1)⟩
  induction items generalizing pack with
  | nil =>
    intro p hp
    rw [packsFrom] at hp
    split_ifs at hp with hempty
    · cases hp
    · rw [List.mem_singleton.mp hp]
      exact hopen fun h => hempty (List.isEmpty_iff.mpr h)
  | cons item rest ih =>
    intro p hp
    rw [packsFrom] at hp
    split_ifs at hp with hfull
    · rcases List.mem_cons.mp hp with rfl | hlater
      · apply hopen
        rintro rfl
        rcases hfull with hcount | ⟨hne, -⟩
        · exact absurd hcount (Nat.not_le_of_lt hlimit)
        · exact hne rfl
      · exact ih (fun _ => hsingle item) p hlater
    · refine ih (fun _ => ⟨by simp, ?_, ?_⟩) p hp
      · have hroom : ¬ limit ≤ pack.length := fun h => hfull (.inl h)
        rw [List.length_append, List.length_singleton]
        omega
      · intro htwo
        have hne : pack ≠ [] := by
          rintro rfl
          exact absurd htwo (by simp)
        rw [packWeight_append, packWeight_singleton]
        exact Nat.le_of_not_lt fun h => hfull (.inr ⟨hne, h⟩)

theorem packed_packs (hlimit : 0 < limit) (items : List α) :
    ∀ p ∈ packs limit budget weight items, Packed limit budget weight p :=
  packed_packsFrom hlimit fun h => absurd rfl h

end Packing

end Postblox.Lib
