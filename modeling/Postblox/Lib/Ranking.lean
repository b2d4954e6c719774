import Mathlib

/-!
# Positions in a list sorted by a key

The rank of an element is the number of elements with a smaller key. In a sorted
list the element at that position has the same key, also after the list was cut
short as long as the element itself was not cut off.
-/
namespace Postblox.Lib

variable {α κ : Type} [LinearOrder κ] (key : α → κ)

def rank (a : α) (l : List α) : Nat := l.countP fun x => key x < key a

theorem rank_perm {a : α} {l l' : List α} (h : l.Perm l') : rank key a l = rank key a l' :=
  h.countP_eq _

/-- Sort by the key; the order of elements with one key stays. -/
def sortByKey (l : List α) : List α := l.insertionSort fun x y => key x ≤ key y

theorem sortByKey_perm (l : List α) : (sortByKey key l).Perm l := List.perm_insertionSort _ l

theorem sortByKey_sorted (l : List α) :
    (sortByKey key l).Pairwise fun x y => key x ≤ key y := by
  have htotal : Std.Total fun x y : α => key x ≤ key y := ⟨fun x y => le_total (key x) (key y)⟩
  have htrans : IsTrans α fun x y => key x ≤ key y := ⟨fun _ _ _ => le_trans⟩
  exact List.pairwise_insertionSort _ l

theorem sortByKey_map {β : Type} (f : β → α) (l : List β) :
    sortByKey key (l.map f) = (sortByKey (fun b => key (f b)) l).map f :=
  (List.map_insertionSort _ _ f l fun _ _ _ _ => Iff.rfl).symm

/-- An element that is left out does not move the others. -/
theorem filter_orderedInsert (p : α → Bool) (a : α) {l : List α}
    (h : l.Pairwise fun x y => key x ≤ key y) :
    (l.orderedInsert (fun x y => key x ≤ key y) a).filter p =
      if p a then (l.filter p).orderedInsert (fun x y => key x ≤ key y) a else l.filter p := by
  induction l with
  | nil =>
    cases hp : p a
    · simp [hp]
    · simp [hp]
  | cons b rest ih =>
    obtain ⟨hb, hrest⟩ := List.pairwise_cons.mp h
    rw [List.orderedInsert_cons]
    by_cases hle : key a ≤ key b
    · rw [if_pos hle, List.filter_cons]
      cases hp : p a
      · rfl
      · -- every row behind stays behind
        have hfirst : ∀ c ∈ (b :: rest).filter p, key a ≤ key c := by
          intro c hc
          rcases List.mem_cons.mp (List.mem_of_mem_filter hc) with rfl | hc
          · exact hle
          · exact hle.trans (hb c hc)
        cases hkept : (b :: rest).filter p with
        | nil => simp
        | cons c kept =>
          have hc := hfirst c (by rw [hkept]; exact List.mem_cons_self)
          simp [List.orderedInsert_cons, hc]
    · rw [if_neg hle, List.filter_cons, ih hrest, List.filter_cons]
      cases hb' : p b
      · simp
      · cases hp : p a
        · simp
        · simp [List.orderedInsert_cons, hle]

/-- Sorting what is left out and leaving out of what is sorted are the same. -/
theorem sortByKey_filter (p : α → Bool) (l : List α) :
    sortByKey key (l.filter p) = (sortByKey key l).filter p := by
  induction l with
  | nil => rfl
  | cons a rest ih =>
    have hsorted := sortByKey_sorted key rest
    have hstep : sortByKey key (a :: rest) =
        (sortByKey key rest).orderedInsert (fun x y => key x ≤ key y) a := rfl
    rw [hstep, filter_orderedInsert key p a hsorted, ← ih, List.filter_cons]
    split_ifs
    · rfl
    · rfl

variable {key}

/-- Elements that are alike pairwise and have the same keys are sorted alike. -/
theorem forall₂_sortByKey {S : α → α → Prop} (hkey : ∀ a b, S a b → key a = key b) {l l' : List α}
    (h : List.Forall₂ S l l') : List.Forall₂ S (sortByKey key l) (sortByKey key l') := by
  have hinsert : ∀ a a' l l', S a a' → List.Forall₂ S l l' →
      List.Forall₂ S (l.orderedInsert (fun x y => key x ≤ key y) a)
        (l'.orderedInsert (fun x y => key x ≤ key y) a') := by
    intro a a' l l' ha hl
    induction hl with
    | nil => exact .cons ha .nil
    | cons hb hrest ih =>
      rw [List.orderedInsert_cons, List.orderedInsert_cons, hkey _ _ ha, hkey _ _ hb]
      split_ifs
      · exact .cons ha (.cons hb hrest)
      · exact .cons hb ih
  induction h with
  | nil => exact .nil
  | cons ha _ ih => exact hinsert _ _ _ _ ha ih

/-- The last of a sorted list has the largest key. -/
theorem le_getLast_sortByKey {l : List α} (h : sortByKey key l ≠ []) {a : α} (ha : a ∈ l) :
    key a ≤ key ((sortByKey key l).getLast h) := by
  have hsorted := sortByKey_sorted key l
  rw [← List.dropLast_append_getLast h, List.pairwise_append] at hsorted
  have hmem : a ∈ sortByKey key l := (sortByKey_perm key l).mem_iff.mpr ha
  rw [← List.dropLast_append_getLast h, List.mem_append, List.mem_singleton] at hmem
  rcases hmem with hinit | rfl
  · exact hsorted.2.2 a hinit _ (List.mem_singleton_self _)
  · exact le_refl _

theorem getElem?_rank {l : List α} (hsorted : l.Pairwise fun x y => key x ≤ key y) {a : α}
    (ha : a ∈ l) : ∃ b, l[rank key a l]? = some b ∧ key b = key a := by
  induction l with
  | nil => cases ha
  | cons x rest ih =>
    rw [List.pairwise_cons] at hsorted
    unfold rank
    by_cases hlt : key x < key a
    · have hmem : a ∈ rest := by
        rcases List.mem_cons.mp ha with rfl | hrest
        · exact absurd hlt (lt_irrefl _)
        · exact hrest
      rw [List.countP_cons_of_pos (by simpa using hlt), List.getElem?_cons_succ]
      exact ih hsorted.2 hmem
    · have hle : key a ≤ key x := not_lt.mp hlt
      have hzero : rest.countP (fun y => key y < key a) = 0 := by
        refine List.countP_eq_zero.mpr fun y hy => ?_
        have hge := hle.trans (hsorted.1 y hy)
        simpa using hge
      rw [List.countP_cons_of_neg (by simpa using hle), hzero]
      refine ⟨x, rfl, le_antisymm ?_ hle⟩
      rcases List.mem_cons.mp ha with rfl | hrest
      · exact le_refl _
      · exact hsorted.1 a hrest

theorem getElem?_rank_take {l : List α} (hsorted : l.Pairwise fun x y => key x ≤ key y) {a : α}
    {n : Nat} (ha : a ∈ l.take n) : ∃ b, (l.take n)[rank key a l]? = some b ∧ key b = key a := by
  have hsplit := List.pairwise_append.mp (by rwa [List.take_append_drop n l] :
    (l.take n ++ l.drop n).Pairwise fun x y => key x ≤ key y)
  have hzero : (l.drop n).countP (fun y => key y < key a) = 0 := by
    refine List.countP_eq_zero.mpr fun y hy => ?_
    simpa using hsplit.2.2 a ha y hy
  have hrank : rank key a l = rank key a (l.take n) := by
    unfold rank
    rw [← List.take_append_drop n l, List.countP_append, List.take_append_drop, hzero,
      Nat.add_zero]
  rw [hrank]
  exact getElem?_rank hsplit.1 ha

end Postblox.Lib
