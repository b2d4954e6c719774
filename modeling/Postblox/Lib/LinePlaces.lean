import Postblox.Lib.Lines

/-!
# Places in a text of lines

A place cuts a text in two; it is in the line that the last line of the one side and the
first line of the other make up. Before that line stand the lines that have ended.
-/
namespace Postblox.Lib

section Places

variable {α : Type} {x : α} {s t line : List α} {front back : List (List α)}

/-- Lines with the separator behind each. -/
def ended (x : α) (ls : List (List α)) : List α := ls.flatMap (· ++ [x])

theorem ended_nil (x : α) : ended x [] = [] := rfl

theorem ended_cons (x : α) (line : List α) (ls : List (List α)) :
    ended x (line :: ls) = line ++ [x] ++ ended x ls := rfl

theorem ended_append (x : α) (front back : List (List α)) :
    ended x (front ++ back) = ended x front ++ ended x back := List.flatMap_append

theorem unlines_concat (x : α) (front : List (List α)) (line : List α) :
    unlines x (front ++ [line]) = ended x front ++ line := by
  induction front with
  | nil => exact List.intercalate_singleton
  | cons first front ih =>
    rw [List.cons_append, ended_cons, List.append_assoc, ← ih]
    unfold unlines
    rw [List.intercalate_cons_of_ne_nil (by simp)]

theorem unlines_cons (x : α) (line next : List α) (back : List (List α)) :
    unlines x (line :: next :: back) = line ++ x :: unlines x (next :: back) := by
  unfold unlines
  rw [List.intercalate_cons_cons, List.append_assoc]
  rfl

/-- What follows a line. -/
def behind (x : α) : List (List α) → List α
  | [] => []
  | next :: back => x :: unlines x (next :: back)

theorem unlines_append_cons (x : α) (front : List (List α)) (line : List α)
    (back : List (List α)) :
    unlines x (front ++ line :: back) = ended x front ++ (line ++ behind x back) := by
  cases back with
  | nil => rw [unlines_concat, behind, List.append_nil]
  | cons next back =>
    rw [List.append_cons, unlines_append (by simp) (by simp), unlines_concat, behind,
      List.append_assoc]

theorem not_mem_unlines {c : α} {ls : List (List α)} (hx : c ≠ x) (h : ∀ l ∈ ls, c ∉ l) :
    c ∉ unlines x ls := by
  induction ls with
  | nil => exact List.not_mem_nil
  | cons l rest ih =>
    obtain ⟨hl, hrest⟩ := List.forall_mem_cons.mp h
    cases rest with
    | nil =>
      rw [unlines, List.intercalate_singleton]
      exact hl
    | cons next back =>
      rw [unlines_cons, List.mem_append, List.mem_cons, not_or, not_or]
      exact ⟨hl, hx, ih hrest⟩

variable [BEq α] [LawfulBEq α]

/-- A text that is cut into lines is the ended lines, a line, and what follows it. -/
theorem text_of_lines (h : s.splitOn x = front ++ line :: back) :
    s = ended x front ++ (line ++ behind x back) := by
  rw [← unlines_append_cons, ← h, unlines_splitOn]

/-- The lines of two joined texts: where they meet is one line. -/
theorem splitOn_joined (x : α) (s t : List α) :
    ∃ front a b back, s.splitOn x = front ++ [a] ∧ t.splitOn x = b :: back ∧
      (s ++ t).splitOn x = front ++ (a ++ b) :: back := by
  obtain ⟨b, back, ht⟩ := List.exists_cons_of_ne_nil (List.splitOn_ne_nil x t)
  induction s with
  | nil => exact ⟨[], [], b, back, List.splitOn_nil x, ht, ht⟩
  | cons c s ih =>
    obtain ⟨front, a, b', back', hs, ht', hst⟩ := ih
    by_cases hc : c = x
    · refine ⟨[] :: front, a, b', back', ?_, ht', ?_⟩
      · rw [hc, splitOn_cons_self, hs, List.cons_append]
      · rw [hc, List.cons_append, splitOn_cons_self, hst, List.cons_append]
    · obtain ⟨first, rest, hline, hcut⟩ := splitOn_cons_of_ne hc s
      obtain ⟨first', rest', hline', hcut'⟩ := splitOn_cons_of_ne hc (s ++ t)
      rw [hs] at hline
      rw [hst] at hline'
      cases front with
      | nil =>
        obtain ⟨rfl, rfl⟩ := List.cons.inj hline
        obtain ⟨rfl, rfl⟩ := List.cons.inj hline'
        exact ⟨[], c :: a, b', back', hcut, ht', hcut'⟩
      | cons l front =>
        obtain ⟨rfl, rfl⟩ := List.cons.inj hline
        obtain ⟨rfl, rfl⟩ := List.cons.inj hline'
        exact ⟨(c :: l) :: front, a, b', back', hcut, ht', hcut'⟩

/-- The number of lines that ended is the number of separators. -/
theorem length_splitOn (x : α) (s : List α) : (s.splitOn x).length = s.count x + 1 := by
  induction s with
  | nil => rw [List.splitOn_nil, List.count_nil, List.length_singleton]
  | cons c s ih =>
    by_cases hc : c = x
    · rw [hc, splitOn_cons_self, List.length_cons, ih, List.count_cons_self]
    · obtain ⟨first, rest, hline, hcut⟩ := splitOn_cons_of_ne hc s
      rw [hcut, List.length_cons, ← List.length_cons (a := first), ← hline, ih,
        List.count_cons_of_ne (by simpa using hc)]

end Places

end Postblox.Lib
