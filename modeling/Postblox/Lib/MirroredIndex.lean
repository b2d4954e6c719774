import Postblox.Lib.UniqueIndex

/-!
# An index kept up by the changes of a table

Every row has postings, and the index holds the postings of all rows. It is never
computed from the table: a new row adds its postings, a deletion takes away those of the
values it is given, and a rewritten row does both. The index goes along with the table
as long as every row that changes is passed with its old values.
-/
namespace Postblox.Lib.MirroredIndex

variable {R P : Type} (postings : R → Multiset P)

/-- The index that goes with the rows. -/
def of (rows : List R) : Multiset P := (rows.map postings).sum

@[simp] theorem of_nil : of postings [] = 0 := rfl

@[simp] theorem of_cons (r : R) (rows : List R) :
    of postings (r :: rows) = postings r + of postings rows := List.sum_cons

@[simp] theorem of_append (rows rows' : List R) :
    of postings (rows ++ rows') = of postings rows + of postings rows' := by
  rw [of, List.map_append, List.sum_append, of, of]

theorem of_congr {postings postings' : R → Multiset P} {rows : List R}
    (h : ∀ r ∈ rows, postings r = postings' r) : of postings rows = of postings' rows :=
  congrArg List.sum (List.map_congr_left h)

theorem of_filter_add (p : R → Bool) (rows : List R) :
    of postings (rows.filter p) + of postings (rows.filter fun r => !p r) = of postings rows := by
  induction rows with
  | nil => rfl
  | cons r rows ih =>
    rw [of_cons, ← ih]
    by_cases h : p r
    · rw [List.filter_cons_of_pos h, List.filter_cons_of_neg (by simp [h]), of_cons, add_assoc]
    · rw [List.filter_cons_of_neg h, List.filter_cons_of_pos (by simp [h]), of_cons,
        add_left_comm]

/-! ## Changes -/

variable [DecidableEq P]

def insert (index : Multiset P) (new : R) : Multiset P := index + postings new

def delete (index : Multiset P) (old : R) : Multiset P := index - postings old

def rewrite (index : Multiset P) (old new : R) : Multiset P :=
  insert postings (delete postings index old) new

/-- Deleting rows one after another leaves what the index holds beside them. -/
theorem foldl_delete (rows : List R) (rest : Multiset P) :
    rows.foldl (delete postings) (of postings rows + rest) = rest := by
  induction rows with
  | nil => exact zero_add rest
  | cons r rows ih =>
    rw [List.foldl_cons, of_cons, add_assoc, delete, add_tsub_cancel_left]
    exact ih

/-- Rewriting rows one after another replaces their postings. -/
theorem foldl_rewrite (f : R → R) (rows : List R) (rest : Multiset P) :
    rows.foldl (fun index r => rewrite postings index r (f r)) (of postings rows + rest) =
      of postings (rows.map f) + rest := by
  induction rows generalizing rest with
  | nil => rfl
  | cons r rows ih =>
    have hfirst : rewrite postings (of postings (r :: rows) + rest) r (f r) =
        of postings rows + (postings (f r) + rest) := by
      rw [rewrite, insert, delete, of_cons, add_assoc, add_tsub_cancel_left, add_assoc,
        add_comm rest]
    rw [List.foldl_cons, hfirst, ih, List.map_cons, of_cons, add_left_comm, add_assoc]

/-- The index after the rows that satisfy `p` are gone. -/
theorem delete_where (p : R → Bool) (rows : List R) :
    (rows.filter p).foldl (delete postings) (of postings rows) =
      of postings (rows.filter fun r => !p r) := by
  rw [← of_filter_add postings p rows]
  exact foldl_delete postings _ _

/-- The index after the rows that satisfy `p` are rewritten. -/
theorem rewrite_where (p : R → Bool) (f : R → R) (rows : List R) :
    (rows.filter p).foldl (fun index r => rewrite postings index r (f r)) (of postings rows) =
      of postings (updateWhere p f rows) := by
  have hsplit : of postings ((rows.filter p).map f) + of postings (rows.filter fun r => !p r) =
      of postings (updateWhere p f rows) := by
    induction rows with
    | nil => rfl
    | cons r rows ih =>
      have hcons : updateWhere p f (r :: rows) = (if p r then f r else r) :: updateWhere p f rows :=
        rfl
      rw [hcons, of_cons, ← ih]
      by_cases h : p r
      · rw [List.filter_cons_of_pos h, List.filter_cons_of_neg (by simp [h]), List.map_cons,
          of_cons, if_pos h, add_assoc]
      · rw [List.filter_cons_of_neg h, List.filter_cons_of_pos (by simp [h]), of_cons,
          if_neg h, add_left_comm]
  rw [← hsplit, ← of_filter_add postings p rows]
  exact foldl_rewrite postings f _ _

end Postblox.Lib.MirroredIndex
