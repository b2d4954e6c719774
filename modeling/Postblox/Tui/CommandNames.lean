import Postblox.Lib.EditDistance
import Postblox.Utf8

/-!
# The nearest command name

For an unknown command the status line suggests a name at distance two or less. The distance
is computed in three rows that change roles after each character; what a row held before is
overwritten, never cleared.
-/
namespace Postblox.Tui

open Lib

def commandNames : List String :=
  ["account", "approvals", "approve", "archive", "compose", "delete", "deny", "flag", "forward",
    "goto", "help", "move", "reply", "reply-all", "search", "seen", "start-sync", "stop-sync",
    "sync", "theme", "unflag", "unseen", "w"]

/-- The rows of the matrix that are kept. -/
structure DistanceRows (cols : Nat) where
  prevPrev : Vector Nat (cols + 1)
  prev : Vector Nat (cols + 1)
  curr : Vector Nat (cols + 1)

variable {a b : List UInt8}

/-- The body of the inner loop. The loops of the source count from one. -/
def fillCell (a b : List UInt8) (i : Fin a.length) (rows : DistanceRows b.length)
    (j : Fin b.length) : DistanceRows b.length :=
  let cost := if a[i] = b[j] then 0 else 1
  let deletion := rows.prev[j.val + 1] + 1
  let insertion := rows.curr[j.val] + 1
  let substitution := rows.prev[j.val] + cost
  let value := min (min deletion insertion) substitution
  let value := if 0 < i.val ∧ 0 < j.val ∧ a[i] = b[j.val - 1] ∧ a[i.val - 1] = b[j] then
      min value (rows.prevPrev[j.val - 1] + 1)
    else value
  { rows with curr := rows.curr.set (j.val + 1) value }

/-- The body of the outer loop: a row, then the two swaps. -/
def fillRow (a b : List UInt8) (rows : DistanceRows b.length) (i : Fin a.length) :
    DistanceRows b.length :=
  let rows := { rows with curr := rows.curr.set 0 (i.val + 1) }
  let rows := (List.finRange b.length).foldl (fillCell a b i) rows
  let rows := { rows with prevPrev := rows.prev, prev := rows.prevPrev }
  { rows with prev := rows.curr, curr := rows.prev }

def firstRows (cols : Nat) : DistanceRows cols where
  prevPrev := Vector.replicate (cols + 1) 0
  prev := Vector.range (cols + 1)
  curr := Vector.replicate (cols + 1) 0

def damerauLevenshtein (a b : List UInt8) : Nat :=
  if a.length = 0 then b.length
  else if b.length = 0 then a.length
  else
    let rows := (List.finRange a.length).foldl (fillRow a b) (firstRows b.length)
    rows.prev[b.length]

/-- The better of the best so far and a new one. -/
def keepBetter (best : Option (Nat × Nat)) (distance index : Nat) : Option (Nat × Nat) :=
  match best with
  | none => some (distance, index)
  | some (currentDistance, currentIndex) =>
    if distance < currentDistance ∨ distance = currentDistance ∧ index < currentIndex then
      some (distance, index)
    else best

/-- One round of the search: the best distance so far and its place. -/
def consider (input : List UInt8) (best : Option (Nat × Nat)) (entry : String × Nat) :
    Option (Nat × Nat) :=
  let name := utf8 entry.1
  let lenDiff := (name.length - input.length) + (input.length - name.length)
  if 2 < lenDiff then best
  else
    let distance := damerauLevenshtein input name
    if 2 < distance then best else keepBetter best distance entry.2

def nearestCommandName (input : String) : Option String :=
  if input = "" then none
  else (commandNames.zipIdx.foldl (consider (utf8 input)) none).bind fun best =>
    commandNames[best.2]?

/-! ## The rows -/

/-- `prev` is row `i`, `prevPrev` the one before it. -/
structure DistanceRows.Hold (a b : List UInt8) (i : Nat) (rows : DistanceRows b.length) : Prop where
  prev : RowHolds a b i b.length rows.prev
  prevPrev : 0 < i → RowHolds a b (i - 1) b.length rows.prevPrev

theorem substitutionCost_eq (i : Fin a.length) (j : Fin b.length) :
    substitutionCost a b i j = if a[i] = b[j] then 0 else 1 := by
  have hiff : a[i.val]? = b[j.val]? ↔ a[i] = b[j] := by
    rw [List.getElem?_eq_getElem i.isLt, List.getElem?_eq_getElem j.isLt, Option.some_inj]
    rfl
  exact if_congr hiff rfl rfl

theorem swapped_iff (i : Fin a.length) (j : Fin b.length) :
    Swapped a b i j ↔ 0 < i.val ∧ 0 < j.val ∧ a[i] = b[j.val - 1] ∧ a[i.val - 1] = b[j] := by
  unfold Swapped
  rw [List.getElem?_eq_getElem i.isLt, List.getElem?_eq_getElem j.isLt,
    List.getElem?_eq_getElem (by omega : j.val - 1 < b.length),
    List.getElem?_eq_getElem (by omega : i.val - 1 < a.length), Option.some_inj, Option.some_inj]
  rfl

/-- The inner loop has written row `i + 1` up to column `j`, and left the other two rows. -/
structure CellsHold (a b : List UInt8) (i j : Nat) (rows : DistanceRows b.length) : Prop where
  kept : rows.Hold a b i
  curr : RowHolds a b (i + 1) j rows.curr

theorem cellsHold_fillCell {rows : DistanceRows b.length} {i : Fin a.length} {j : Fin b.length}
    (h : CellsHold a b i j rows) : CellsHold a b i (j + 1) (fillCell a b i rows j) := by
  refine ⟨⟨h.kept.prev, h.kept.prevPrev⟩, h.curr.set (by omega) ?_⟩
  have hdeletion := h.kept.prev.get (by omega : j.val + 1 ≤ b.length) (by omega)
  have hinsertion := h.curr.get (Nat.le_refl j.val) (by omega)
  have hsubstitution := h.kept.prev.get (by omega : j.val ≤ b.length) (by omega)
  rw [alignment_succ, hdeletion, hinsertion, hsubstitution, ← substitutionCost_eq]
  by_cases hswap : Swapped a b i j
  · have hpos := hswap.1
    have hprevPrev := (h.kept.prevPrev hpos).get (by omega : j.val - 1 ≤ b.length) (by omega)
    rw [if_pos hswap, if_pos ((swapped_iff i j).mp hswap), hprevPrev]
  · rw [if_neg hswap, if_neg (mt (swapped_iff i j).mpr hswap)]

theorem hold_fillRow {rows : DistanceRows b.length} {i : Fin a.length} (h : rows.Hold a b i) :
    (fillRow a b rows i).Hold a b (i + 1) := by
  have hfirst : CellsHold a b i 0 { rows with curr := rows.curr.set 0 (i.val + 1) } := by
    refine ⟨⟨h.prev, h.prevPrev⟩, ?_⟩
    intro k hk
    obtain rfl : k = 0 := by omega
    rw [alignment_zero_right]
    simp
  have hcells := foldl_finRange_invariant (I := fun j rows => CellsHold a b i j rows) hfirst
    fun j rows (hrows : CellsHold a b i j rows) => cellsHold_fillCell hrows
  exact ⟨hcells.curr, fun _ => hcells.kept.prev⟩

theorem hold_firstRows (a b : List UInt8) : (firstRows b.length).Hold a b 0 := by
  refine ⟨?_, fun h => absurd h (Nat.lt_irrefl 0)⟩
  intro k hk
  rw [alignment_zero_left]
  have hlt : k < b.length + 1 := by omega
  simp [firstRows, hlt]

theorem damerauLevenshtein_eq (a b : List UInt8) :
    damerauLevenshtein a b = alignmentDistance a b := by
  unfold damerauLevenshtein alignmentDistance
  split_ifs with hrows hcols
  · rw [hrows, alignment_zero_left]
  · rw [hcols, alignment_zero_right]
  · have hhold := foldl_finRange_invariant (I := fun i rows => DistanceRows.Hold a b i rows)
      (hold_firstRows a b) fun i rows (hrows : DistanceRows.Hold a b i rows) => hold_fillRow hrows
    exact hhold.prev.get (Nat.le_refl _) (Nat.lt_succ_self _)

/-! ## The nearest name -/

/-- The distance the search compares. -/
def nameDistance (input : List UInt8) (name : String) : Nat := damerauLevenshtein input (utf8 name)

/-- The first of the names at the least distance, which is at most two. -/
def FirstNearest (input : List UInt8) (names : List String) (name : String) : Prop :=
  ∃ front back, names = front ++ name :: back ∧ nameDistance input name ≤ 2 ∧
    (∀ other ∈ front, nameDistance input name < nameDistance input other) ∧
    ∀ other ∈ back, nameDistance input name ≤ nameDistance input other

theorem damerauLevenshtein_bounds (a b : List UInt8) :
    a.length ≤ b.length + damerauLevenshtein a b ∧
      b.length ≤ a.length + damerauLevenshtein a b := by
  rw [damerauLevenshtein_eq]
  exact alignment_bounds a b a.length b.length

/-- The cutoff on the lengths changes nothing. -/
theorem consider_eq (input : List UInt8) (best : Option (Nat × Nat)) (entry : String × Nat) :
    consider input best entry =
      if 2 < nameDistance input entry.1 then best
      else keepBetter best (nameDistance input entry.1) entry.2 := by
  have hbounds := damerauLevenshtein_bounds input (utf8 entry.1)
  unfold consider
  by_cases hcut : 2 < ((utf8 entry.1).length - input.length) + (input.length - (utf8 entry.1).length)
  · have hfar : 2 < nameDistance input entry.1 := by
      unfold nameDistance
      omega
    rw [if_pos hfar]
    exact if_pos hcut
  · exact if_neg hcut

/-- What the search has found among the names so far. -/
def Found (input : List UInt8) (names : List String) : Option (Nat × Nat) → Prop
  | none => ∀ name ∈ names, 2 < nameDistance input name
  | some best => ∃ front name back, names = front ++ name :: back ∧
      best = (nameDistance input name, front.length) ∧ nameDistance input name ≤ 2 ∧
      (∀ other ∈ front, nameDistance input name < nameDistance input other) ∧
      ∀ other ∈ back, nameDistance input name ≤ nameDistance input other

theorem Found.consider {input : List UInt8} {names : List String} {best : Option (Nat × Nat)}
    (h : Found input names best) (name : String) :
    Found input (names ++ [name]) (consider input best (name, names.length)) := by
  rw [consider_eq]
  by_cases hfar : 2 < nameDistance input name
  · rw [if_pos hfar]
    cases best with
    | none =>
      intro other hother
      rcases List.mem_append.mp hother with hold | hnew
      · exact h other hold
      · rwa [List.mem_singleton.mp hnew]
    | some best =>
      obtain ⟨front, found, back, rfl, rfl, hnear, hfront, hback⟩ := h
      refine ⟨front, found, back ++ [name], by simp, rfl, hnear, hfront, ?_⟩
      intro other hother
      rcases List.mem_append.mp hother with hold | hnew
      · exact hback other hold
      · rw [List.mem_singleton.mp hnew]
        omega
  · rw [if_neg hfar]
    cases best with
    | none =>
      refine ⟨names, name, [], rfl, rfl, by omega, ?_, fun other hother => by cases hother⟩
      intro other hother
      have hother := h other hother
      omega
    | some best =>
      obtain ⟨front, found, back, rfl, rfl, hnear, hfront, hback⟩ := h
      -- the place of the name is behind that of the best so far
      have hlater : ¬ (front ++ found :: back).length < front.length := by simp
      by_cases hbetter : nameDistance input name < nameDistance input found
      · rw [keepBetter, if_pos (.inl hbetter)]
        refine ⟨front ++ found :: back, name, [], rfl, rfl, by omega, ?_,
          fun other hother => by cases hother⟩
        intro other hother
        rcases List.mem_append.mp hother with hmem | hmem
        · exact hbetter.trans (hfront other hmem)
        · rcases List.mem_cons.mp hmem with rfl | hmem
          · exact hbetter
          · exact hbetter.trans_le (hback other hmem)
      · rw [keepBetter, if_neg fun h => h.elim hbetter fun h => hlater h.2]
        refine ⟨front, found, back ++ [name], by simp, rfl, hnear, hfront, ?_⟩
        intro other hother
        rcases List.mem_append.mp hother with hold | hnew
        · exact hback other hold
        · rw [List.mem_singleton.mp hnew]
          omega

theorem found_foldl (input : List UInt8) (names : List String) :
    Found input names (names.zipIdx.foldl (consider input) none) := by
  induction names using List.reverseRecOn with
  | nil => exact fun name hname => by cases hname
  | append_singleton front name ih =>
    rw [List.zipIdx_append, List.foldl_append, Nat.zero_add]
    exact ih.consider name

/-- There is one first nearest name. -/
theorem FirstNearest.unique {input : List UInt8} {names : List String} {name name' : String}
    (h : FirstNearest input names name) (h' : FirstNearest input names name') : name = name' := by
  obtain ⟨front, back, rfl, -, hfront, hback⟩ := h
  obtain ⟨front', back', hsplit, -, hfront', hback'⟩ := h'
  rcases List.append_eq_append_iff.mp hsplit with ⟨mid, rfl, hmid⟩ | ⟨mid, rfl, hmid⟩
  · cases mid with
    | nil => exact (List.cons.inj hmid).1
    | cons first rest =>
      obtain ⟨rfl, rfl⟩ := List.cons.inj hmid
      have hle := hback name' (by simp)
      have hlt := hfront' name (by simp)
      omega
  · cases mid with
    | nil => exact (List.cons.inj hmid).1.symm
    | cons first rest =>
      obtain ⟨rfl, rfl⟩ := List.cons.inj hmid
      have hle := hback' name (by simp)
      have hlt := hfront name' (by simp)
      omega

theorem nearestCommandName_spec {input : String} (hinput : input ≠ "") :
    (nearestCommandName input = none ∧ ∀ name ∈ commandNames, 2 < nameDistance (utf8 input) name) ∨
      ∃ name, nearestCommandName input = some name ∧
        FirstNearest (utf8 input) commandNames name := by
  have hfound := found_foldl (utf8 input) commandNames
  unfold nearestCommandName
  rw [if_neg hinput]
  generalize commandNames.zipIdx.foldl (consider (utf8 input)) none = best at hfound
  cases best with
  | none => exact .inl ⟨rfl, hfound⟩
  | some best =>
    obtain ⟨front, name, back, hnames, rfl, hnear, hfront, hback⟩ := hfound
    refine .inr ⟨name, ?_, front, back, hnames, hnear, hfront, hback⟩
    show commandNames[front.length]? = some name
    rw [hnames, List.getElem?_append_right (Nat.le_refl _), Nat.sub_self]
    rfl

/-- The three rows compute the distance of the full matrix, which is symmetric and no less
than the difference of the lengths. So the suggestion is the first name at the least
distance, if that is at most two, and the cutoff on the lengths drops no such name. -/
theorem suggested_name_is_nearest :
    (∀ a b : List UInt8, damerauLevenshtein a b = alignmentDistance a b ∧
      damerauLevenshtein a b = damerauLevenshtein b a ∧
      a.length ≤ b.length + damerauLevenshtein a b ∧
      b.length ≤ a.length + damerauLevenshtein a b) ∧
    ∀ input : String, input ≠ "" →
      (∀ name, nearestCommandName input = some name ↔
        FirstNearest (utf8 input) commandNames name) ∧
      (nearestCommandName input = none ↔
        ∀ name ∈ commandNames, 2 < nameDistance (utf8 input) name) ∧
      ∀ best entry, nameDistance (utf8 input) entry.1 ≤ 2 →
        consider (utf8 input) best entry =
          keepBetter best (nameDistance (utf8 input) entry.1) entry.2 := by
  refine ⟨?_, ?_⟩
  · intro a b
    refine ⟨damerauLevenshtein_eq a b, ?_, damerauLevenshtein_bounds a b⟩
    rw [damerauLevenshtein_eq, damerauLevenshtein_eq]
    exact alignment_comm a b a.length b.length
  · intro input hinput
    refine ⟨?_, ?_, ?_⟩
    · intro name
      rcases nearestCommandName_spec hinput with ⟨hnone, hfar⟩ | ⟨found, hsome, hfirst⟩
      · constructor
        · intro h
          rw [hnone] at h
          cases h
        · rintro ⟨front, back, hnames, hnear, -⟩
          have hname := hfar name (by rw [hnames]; simp)
          omega
      · rw [hsome, Option.some_inj]
        constructor
        · rintro rfl
          exact hfirst
        · exact hfirst.unique
    · rcases nearestCommandName_spec hinput with ⟨hnone, hfar⟩ | ⟨found, hsome, hfirst⟩
      · exact ⟨fun _ => hfar, fun _ => hnone⟩
      · obtain ⟨front, back, hnames, hnear, -⟩ := hfirst
        constructor
        · intro h
          rw [hsome] at h
          cases h
        · intro hfar
          have hname := hfar found (by rw [hnames]; simp)
          omega
    · intro best entry hnear
      rw [consider_eq, if_neg (by omega)]

theorem misspelt_search_is_found :
    nearestCommandName "seacrh" = some "search" ↔
      FirstNearest (utf8 "seacrh") commandNames "search" :=
  (suggested_name_is_nearest.2 "seacrh" (by decide)).1 "search"

example : damerauLevenshtein (utf8 "seacrh") (utf8 "search") = 1 := by decide

example : nearestCommandName "helo" = some "help" := by decide

end Postblox.Tui
