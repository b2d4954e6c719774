import Mathlib

/-!
# Unique indexes over a list of rows

A table is the list of its rows. A unique index reads an optional key from a row:
rows without a key (a `NULL` column) never clash, any other two rows have
different keys. Inserting a row with a free key, deleting rows and rewriting rows
without touching their keys keep the index.
-/
namespace Postblox.Lib

variable {α κ : Type}

def Unique (key : α → Option κ) (rows : List α) : Prop := (rows.filterMap key).Nodup

instance [DecidableEq κ] (key : α → Option κ) (rows : List α) : Decidable (Unique key rows) :=
  inferInstanceAs (Decidable (rows.filterMap key).Nodup)

/-- Rewrite the rows that satisfy `p`, in place. -/
def updateWhere (p : α → Bool) (f : α → α) (rows : List α) : List α :=
  rows.map (fun a => if p a then f a else a)

theorem mem_updateWhere {p : α → Bool} {f : α → α} {rows : List α} {b : α} :
    b ∈ updateWhere p f rows ↔ ∃ a ∈ rows, b = if p a then f a else a := by
  unfold updateWhere
  rw [List.mem_map]
  constructor
  · intro ⟨a, ha, h⟩
    exact ⟨a, ha, h.symm⟩
  · intro ⟨a, ha, h⟩
    exact ⟨a, ha, h.symm⟩

/-- A column that the rewriting leaves alone reads the same afterwards. -/
theorem map_updateWhere {β : Type} {p : α → Bool} {f : α → α} {col : α → β}
    (h : ∀ a, col (f a) = col a) (rows : List α) :
    (updateWhere p f rows).map col = rows.map col := by
  unfold updateWhere
  rw [List.map_map]
  refine List.map_congr_left fun a _ => ?_
  show col (if p a then f a else a) = col a
  split_ifs
  · exact h a
  · rfl

theorem filterMap_updateWhere {p : α → Bool} {f : α → α} {key : α → Option κ}
    (h : ∀ a, key (f a) = key a) (rows : List α) :
    (updateWhere p f rows).filterMap key = rows.filterMap key := by
  induction rows with
  | nil => rfl
  | cons a rows ih =>
    have hhead : key (if p a then f a else a) = key a := by
      split_ifs
      · exact h a
      · rfl
    show ((if p a then f a else a) :: updateWhere p f rows).filterMap key = _
    rw [List.filterMap_cons, List.filterMap_cons, hhead, ih]

/-- A search by columns that the rewriting leaves alone finds the rewritten row. -/
theorem find?_updateWhere {p q : α → Bool} {f : α → α} (h : ∀ a, q (f a) = q a) (rows : List α) :
    (updateWhere p f rows).find? q = (rows.find? q).map (fun a => if p a then f a else a) := by
  unfold updateWhere
  rw [List.find?_map]
  have hsame : (q ∘ fun a => if p a then f a else a) = q := by
    funext a
    show q (if p a then f a else a) = q a
    split_ifs
    · exact h a
    · rfl
  rw [hsame]

namespace Unique

variable {key : α → Option κ} {rows : List α}

theorem nil : Unique key [] := List.nodup_nil

theorem append_single (h : Unique key rows) {a : α}
    (hfree : ∀ b ∈ rows, ∀ k, key a = some k → key b ≠ some k) : Unique key (rows ++ [a]) := by
  unfold Unique at h ⊢
  rw [List.filterMap_append, List.nodup_append]
  refine ⟨h, ?_, ?_⟩
  · cases hk : key a <;> simp [hk]
  · intro k hk k' hk'
    obtain ⟨b, hb, hbk⟩ := List.mem_filterMap.mp hk
    have hak : key a = some k' := by
      obtain ⟨a', ha', hak⟩ := List.mem_filterMap.mp hk'
      rwa [List.mem_singleton.mp ha'] at hak
    intro heq
    exact hfree b hb k' hak (heq ▸ hbk)

theorem filter (h : Unique key rows) (p : α → Bool) : Unique key (rows.filter p) :=
  List.Nodup.sublist (List.Sublist.filterMap key (List.filter_sublist)) h

theorem update (h : Unique key rows) {p : α → Bool} {f : α → α}
    (hkey : ∀ a, key (f a) = key a) : Unique key (updateWhere p f rows) := by
  unfold Unique
  rw [filterMap_updateWhere hkey]
  exact h

theorem iff_pairwise : Unique key rows ↔
    rows.Pairwise fun a b => ∀ k, key a = some k → ∀ k', key b = some k' → k ≠ k' :=
  List.pairwise_filterMap

/-- Rewriting one row, here the one with a given key in another index, keeps the
index when the new key of the row is free. -/
theorem update_one {ι : Type} {id : α → Option ι} (h : Unique key rows) (hids : Unique id rows)
    {p : α → Bool} {i : ι} (hp : ∀ a, p a → id a = some i) {f : α → α}
    (hfree : ∀ a ∈ rows, p a → ∀ b ∈ rows, ¬ p b → ∀ k, key (f a) = some k → key b ≠ some k) :
    Unique key (updateWhere p f rows) := by
  rw [iff_pairwise] at h hids ⊢
  unfold updateWhere
  rw [List.pairwise_map]
  refine List.Pairwise.imp_of_mem ?_ (h.and hids)
  intro a b ha hb ⟨hkeys, hid⟩ k hk k' hk' heq
  by_cases hpa : p a
  · by_cases hpb : p b
    · exact hid i (hp a hpa) i (hp b hpb) rfl
    · rw [if_pos hpa] at hk
      rw [if_neg hpb, ← heq] at hk'
      exact hfree a ha hpa b hb hpb k hk hk'
  · rw [if_neg hpa] at hk
    by_cases hpb : p b
    · rw [if_pos hpb, ← heq] at hk'
      exact hfree b hb hpb a ha hpa k hk' hk
    · rw [if_neg hpb] at hk'
      exact hkeys k hk k' hk' heq

/-- Two rows with one key are one row. -/
theorem eq_of_key (h : Unique key rows) {a b : α} {k : κ} (ha : a ∈ rows) (hb : b ∈ rows)
    (hak : key a = some k) (hbk : key b = some k) : a = b := by
  induction rows with
  | nil => cases ha
  | cons c rows ih =>
    unfold Unique at h
    rw [List.filterMap_cons] at h
    have hnot : ∀ d ∈ rows, key d = some k → key c = some k → False := by
      intro d hd hdk hck
      rw [hck, List.nodup_cons] at h
      exact h.1 (List.mem_filterMap.mpr ⟨d, hd, hdk⟩)
    have htail : Unique key rows := by
      cases hc : key c with
      | none => rwa [hc] at h
      | some _ =>
        rw [hc, List.nodup_cons] at h
        exact h.2
    rcases List.mem_cons.mp ha with rfl | ha'
    · rcases List.mem_cons.mp hb with rfl | hb'
      · rfl
      · exact (hnot b hb' hbk hak).elim
    · rcases List.mem_cons.mp hb with rfl | hb'
      · exact (hnot a ha' hak hbk).elim
      · exact ih htail ha' hb'

/-- A key that occurs belongs to exactly one row. -/
theorem countP_eq_one [DecidableEq κ] (h : Unique key rows) {a : α} {k : κ} (ha : a ∈ rows)
    (hk : key a = some k) : rows.countP (fun b => key b = some k) = 1 := by
  have hcount : (rows.filterMap key).count k = rows.countP (fun b => key b = some k) := by
    rw [List.count, List.countP_filterMap]
    refine List.countP_congr fun b _ => ?_
    cases hb : key b with
    | none => simp
    | some k' => simp
  rw [← hcount]
  exact List.count_eq_one_of_mem h (List.mem_filterMap.mpr ⟨a, ha, hk⟩)

end Unique

end Postblox.Lib
