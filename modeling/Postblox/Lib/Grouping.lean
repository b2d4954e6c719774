import Mathlib

/-!
# Grouping a list by a key

One row for each key that occurs, in the order of first occurrence. The first element of a
group opens its row, every later one is absorbed into it, so the row of a key is a fold
over the elements with that key.
-/
namespace Postblox.Lib

structure Grouping (α β κ : Type) where
  keyOf : α → κ
  rowKey : β → κ
  opening : α → β
  absorb : β → α → β
  rowKey_opening : ∀ a, rowKey (opening a) = keyOf a
  rowKey_absorb : ∀ b a, rowKey (absorb b a) = rowKey b

namespace Grouping

variable {α β κ : Type} [DecidableEq κ] (g : Grouping α β κ)

/-- Absorb an element into the first row of its key, or open a row at the end. -/
def put : List β → α → List β
  | [], a => [g.opening a]
  | b :: rows, a => if g.rowKey b = g.keyOf a then g.absorb b a :: rows else b :: put rows a

def group (l : List α) : List β := l.foldl g.put []

/-- The row of a group. -/
def row : List α → Option β
  | [] => none
  | a :: rest => some (rest.foldl g.absorb (g.opening a))

def find (k : κ) (rows : List β) : Option β := rows.find? fun b => g.rowKey b = k

theorem find_put_ne {k : κ} {a : α} (h : g.keyOf a ≠ k) (rows : List β) :
    g.find k (g.put rows a) = g.find k rows := by
  induction rows with
  | nil =>
    have hne : g.rowKey (g.opening a) ≠ k := by rwa [g.rowKey_opening]
    simp [put, find, hne]
  | cons b rows ih =>
    unfold put
    split_ifs with hkey
    · have hne : g.rowKey b ≠ k := by rwa [hkey]
      simp [find, g.rowKey_absorb, hne]
    · unfold find at ih ⊢
      rw [List.find?_cons, List.find?_cons, ih]

theorem find_put_self (a : α) (rows : List β) :
    g.find (g.keyOf a) (g.put rows a) =
      some ((g.find (g.keyOf a) rows).elim (g.opening a) fun b => g.absorb b a) := by
  induction rows with
  | nil => simp [put, find, g.rowKey_opening]
  | cons b rows ih =>
    unfold put
    by_cases hkey : g.rowKey b = g.keyOf a
    · rw [if_pos hkey]
      simp [find, g.rowKey_absorb, hkey]
    · rw [if_neg hkey]
      unfold find at ih ⊢
      rw [List.find?_cons_of_neg (by simpa using hkey), ih,
        List.find?_cons_of_neg (by simpa using hkey)]

/-- The row of a key after further elements. -/
theorem find_foldl_put (k : κ) (l : List α) (rows : List β) :
    g.find k (l.foldl g.put rows) =
      (g.find k rows).elim (g.row (l.filter fun a => g.keyOf a = k))
        fun b => some ((l.filter fun a => g.keyOf a = k).foldl g.absorb b) := by
  induction l generalizing rows with
  | nil => cases h : g.find k rows <;> simp [row, h]
  | cons a l ih =>
    rw [List.foldl_cons, ih]
    by_cases hkey : g.keyOf a = k
    · subst hkey
      rw [find_put_self, List.filter_cons_of_pos (by simp)]
      cases g.find (g.keyOf a) rows <;> rfl
    · rw [g.find_put_ne hkey, List.filter_cons_of_neg (by simpa using hkey)]

/-- The row of a key is a fold over its elements. -/
theorem find_group (k : κ) (l : List α) :
    g.find k (g.group l) = g.row (l.filter fun a => g.keyOf a = k) :=
  g.find_foldl_put k l []

theorem keys_put (rows : List β) (a : α) :
    (g.put rows a).map g.rowKey =
      if g.keyOf a ∈ rows.map g.rowKey then rows.map g.rowKey
      else rows.map g.rowKey ++ [g.keyOf a] := by
  induction rows with
  | nil => simp [put, g.rowKey_opening]
  | cons b rows ih =>
    unfold put
    by_cases hkey : g.rowKey b = g.keyOf a
    · rw [if_pos hkey, if_pos (by simp [hkey])]
      simp [g.rowKey_absorb]
    · have hne : g.keyOf a ≠ g.rowKey b := fun h => hkey h.symm
      rw [if_neg hkey, List.map_cons, ih, List.map_cons]
      by_cases hmem : g.keyOf a ∈ rows.map g.rowKey
      · rw [if_pos hmem, if_pos (List.mem_cons_of_mem _ hmem)]
      · rw [if_neg hmem, if_neg (by simpa [hne] using hmem)]
        rfl

/-- No key has two rows. -/
theorem nodup_keys_group (l : List α) : ((g.group l).map g.rowKey).Nodup := by
  have hfold : ∀ rows : List β, (rows.map g.rowKey).Nodup →
      ((l.foldl g.put rows).map g.rowKey).Nodup := by
    induction l with
    | nil => exact fun rows h => h
    | cons a l ih =>
      intro rows hrows
      apply ih
      rw [keys_put]
      split_ifs with hmem
      · exact hrows
      · exact List.Nodup.append hrows (List.nodup_singleton _) (by simpa using hmem)
  exact hfold [] List.nodup_nil

/-- A key has a row if an element has it. -/
theorem mem_keys_group {k : κ} (l : List α) :
    k ∈ (g.group l).map g.rowKey ↔ ∃ a ∈ l, g.keyOf a = k := by
  have hfold : ∀ rows : List β, k ∈ (l.foldl g.put rows).map g.rowKey ↔
      k ∈ rows.map g.rowKey ∨ ∃ a ∈ l, g.keyOf a = k := by
    induction l with
    | nil => simp
    | cons a l ih =>
      intro rows
      have hput : k ∈ (g.put rows a).map g.rowKey ↔ k ∈ rows.map g.rowKey ∨ g.keyOf a = k := by
        rw [keys_put]
        split_ifs with hmem
        · exact ⟨Or.inl, fun h => h.elim id fun heq => heq ▸ hmem⟩
        · rw [List.mem_append, List.mem_singleton, eq_comm]
      rw [List.foldl_cons, ih, hput, List.exists_mem_cons_iff, or_assoc]
  exact (hfold []).trans (or_iff_right List.not_mem_nil)

/-- If a row counts its elements, the rows together count them all. -/
theorem sum_size_group (size : β → ℕ) (hopening : ∀ a, size (g.opening a) = 1)
    (habsorb : ∀ b a, size (g.absorb b a) = size b + 1) (l : List α) :
    ((g.group l).map size).sum = l.length := by
  have hput : ∀ rows a, ((g.put rows a).map size).sum = (rows.map size).sum + 1 := by
    intro rows a
    induction rows with
    | nil => simp [put, hopening]
    | cons b rows ih =>
      unfold put
      split_ifs
      · rw [List.map_cons, List.sum_cons, habsorb, List.map_cons, List.sum_cons]
        omega
      · rw [List.map_cons, List.sum_cons, ih, List.map_cons, List.sum_cons]
        omega
  have hfold : ∀ rows, ((l.foldl g.put rows).map size).sum = (rows.map size).sum + l.length := by
    induction l with
    | nil => exact fun rows => rfl
    | cons a l ih =>
      intro rows
      rw [List.foldl_cons, ih, hput, List.length_cons]
      omega
  rw [group, hfold, List.map_nil, List.sum_nil, Nat.zero_add]

/-- Elements that are alike pairwise, in what opens and changes a row, give rows that are. -/
theorem forall₂_group {R : α → α → Prop} {S : β → β → Prop}
    (hkey : ∀ a a', R a a' → g.keyOf a = g.keyOf a')
    (hrow : ∀ b b', S b b' → g.rowKey b = g.rowKey b')
    (hopening : ∀ a a', R a a' → S (g.opening a) (g.opening a'))
    (habsorb : ∀ b b' a a', S b b' → R a a' → S (g.absorb b a) (g.absorb b' a')) {l l' : List α}
    (h : List.Forall₂ R l l') : List.Forall₂ S (g.group l) (g.group l') := by
  have hput : ∀ rows rows' a a', List.Forall₂ S rows rows' → R a a' →
      List.Forall₂ S (g.put rows a) (g.put rows' a') := by
    intro rows rows' a a' hrows ha
    induction hrows with
    | nil => exact .cons (hopening a a' ha) .nil
    | cons hb hrest ih =>
      unfold put
      rw [← hrow _ _ hb, ← hkey a a' ha]
      split_ifs
      · exact .cons (habsorb _ _ _ _ hb ha) hrest
      · exact .cons hb ih
  have hfold : ∀ rows rows', List.Forall₂ S rows rows' →
      List.Forall₂ S (l.foldl g.put rows) (l'.foldl g.put rows') := by
    induction h with
    | nil => exact fun rows rows' hrows => hrows
    | cons ha _ ih => exact fun rows rows' hrows => ih _ _ (hput rows rows' _ _ hrows ha)
  exact hfold [] [] .nil

theorem find_of_mem {rows : List β} (hnodup : (rows.map g.rowKey).Nodup) {b : β} (hb : b ∈ rows) :
    g.find (g.rowKey b) rows = some b := by
  induction rows with
  | nil => cases hb
  | cons c rows ih =>
    rw [List.map_cons, List.nodup_cons] at hnodup
    unfold find at ih ⊢
    rcases List.mem_cons.mp hb with rfl | hrest
    · rw [List.find?_cons_of_pos (by simp)]
    · have hne : g.rowKey c ≠ g.rowKey b := by
        intro heq
        exact hnodup.1 (heq ▸ List.mem_map_of_mem hrest)
      rw [List.find?_cons_of_neg (by simpa using hne)]
      exact ih hnodup.2 hrest

/-- The rows are the folds over the groups. -/
theorem mem_group {l : List α} {b : β} :
    b ∈ g.group l ↔ g.row (l.filter fun a => g.keyOf a = g.rowKey b) = some b := by
  rw [← g.find_group]
  constructor
  · exact g.find_of_mem (g.nodup_keys_group l)
  · exact List.mem_of_find?_eq_some

end Grouping

end Postblox.Lib
