import Postblox.Lib.LinePlaces

/-!
# A text with a cursor

The text before the cursor and the text behind it. An edit works on the two ends that meet
at the cursor; a move shifts the cut and keeps the text.
-/
namespace Postblox.Lib

@[ext]
structure Sides (α : Type*) where
  before : List α
  after : List α
  deriving DecidableEq

namespace Sides

variable {α : Type}

def text (s : Sides α) : List α := s.before ++ s.after

/-! ## Edits -/

def insert (a : α) (s : Sides α) : Sides α := ⟨s.before ++ [a], s.after⟩

def backspace (s : Sides α) : Sides α := ⟨s.before.dropLast, s.after⟩

def delete (s : Sides α) : Sides α := ⟨s.before, s.after.tail⟩

/-- Blanks before the cursor go, then the word before them. -/
def deleteWord (blank : α → Bool) (s : Sides α) : Sides α :=
  ⟨(s.before.rdropWhile blank).rdropWhile fun a => !blank a, s.after⟩

/-! ## Moves -/

def left (s : Sides α) : Sides α := ⟨s.before.dropLast, s.before.getLast?.toList ++ s.after⟩

def right (s : Sides α) : Sides α := ⟨s.before ++ s.after.head?.toList, s.after.tail⟩

def toStart (s : Sides α) : Sides α := ⟨[], s.text⟩

def toEnd (s : Sides α) : Sides α := ⟨s.text, []⟩

theorem text_left (s : Sides α) : s.left.text = s.text := by
  obtain ⟨before, after⟩ := s
  rcases List.eq_nil_or_concat before with rfl | ⟨front, a, rfl⟩
  · rfl
  · simp [left, text]

theorem text_right (s : Sides α) : s.right.text = s.text := by
  obtain ⟨before, after⟩ := s
  cases after with
  | nil => simp [right, text]
  | cons a rest => simp [right, text]

theorem text_toStart (s : Sides α) : s.toStart.text = s.text := rfl

theorem text_toEnd (s : Sides α) : s.toEnd.text = s.text := List.append_nil _

/-! ## Lines -/

section Lines

variable [BEq α] (nl : α)

def lines (s : Sides α) : List (List α) := s.text.splitOn nl

/-- The number of the cursor's line. -/
def line (s : Sides α) : ℕ := s.before.count nl

/-- The number of places between the start of the line and the cursor. -/
def column (s : Sides α) : ℕ := (s.before.rtakeWhile fun a => !(a == nl)).length

def toLineStart (s : Sides α) : Sides α :=
  ⟨s.before.rdropWhile fun a => !(a == nl), s.before.rtakeWhile (fun a => !(a == nl)) ++ s.after⟩

def toLineEnd (s : Sides α) : Sides α :=
  ⟨s.before ++ s.after.takeWhile fun a => !(a == nl), s.after.dropWhile fun a => !(a == nl)⟩

/-- The cursor in a line, at a column or at the end of a shorter line. -/
def toPlace (n column : ℕ) (s : Sides α) : Sides α :=
  let line := ((s.lines nl)[n]?).getD []
  ⟨ended nl ((s.lines nl).take n) ++ line.take column,
    line.drop column ++ behind nl ((s.lines nl).drop (n + 1))⟩

/-- The line so many lines down or up, within the text. -/
def lineBeside (delta : ℤ) (s : Sides α) : ℕ :=
  if delta < 0 then s.line nl - delta.natAbs
  else min (s.line nl + delta.toNat) ((s.lines nl).length - 1)

end Lines

section LineLemmas

variable [BEq α] {nl : α} {s : Sides α}

theorem text_toLineStart (s : Sides α) : (s.toLineStart nl).text = s.text := by
  rw [toLineStart, text, ← List.append_assoc, List.rdropWhile_append_rtakeWhile]
  rfl

theorem text_toLineEnd (s : Sides α) : (s.toLineEnd nl).text = s.text := by
  rw [toLineEnd, text, List.append_assoc, List.takeWhile_append_dropWhile]
  rfl

/-- The sides by lines: the ended lines, the two parts of the cursor's line, what follows. -/
structure Cut (nl : α) (s : Sides α) (front : List (List α)) (a b : List α)
    (back : List (List α)) : Prop where
  before : s.before = ended nl front ++ a
  after : s.after = b ++ behind nl back
  lines : s.lines nl = front ++ (a ++ b) :: back
  left : nl ∉ a
  right : nl ∉ b
  line : s.line nl = front.length

variable [LawfulBEq α] {front back : List (List α)} {a b : List α}

theorem exists_cut (nl : α) (s : Sides α) : ∃ front a b back, s.Cut nl front a b back := by
  obtain ⟨front, a, b, back, hbefore, hafter, hboth⟩ := splitOn_joined nl s.before s.after
  refine ⟨front, a, b, back, ?_, ?_, hboth, ?_, ?_, ?_⟩
  · rw [← unlines_concat, ← hbefore, unlines_splitOn]
  · have hrest : s.after = ended nl [] ++ (b ++ behind nl back) := text_of_lines hafter
    simpa [ended_nil] using hrest
  · exact not_mem_of_mem_splitOn (s := s.before) (by rw [hbefore]; simp)
  · exact not_mem_of_mem_splitOn (s := s.after) (by rw [hafter]; simp)
  · have hcount := length_splitOn nl s.before
    rw [hbefore, List.length_append, List.length_singleton] at hcount
    rw [line]
    omega

/-- Ended lines end in a separator, or there are none. -/
theorem takeWhile_reverse_ended (front : List (List α)) :
    (ended nl front).reverse.takeWhile (fun a => !(a == nl)) = [] := by
  induction front using List.reverseRecOn with
  | nil => rfl
  | append_singleton front line _ =>
    rw [ended_append, ended_cons, ended_nil, List.append_nil, ← List.append_assoc,
      List.reverse_append, List.reverse_singleton, List.singleton_append,
      List.takeWhile_cons_of_neg (by simp)]

theorem takeWhile_behind (back : List (List α)) :
    (behind nl back).takeWhile (fun a => !(a == nl)) = [] := by
  cases back with
  | nil => rfl
  | cons next back => rw [behind, List.takeWhile_cons_of_neg (by simp)]

theorem Cut.rtakeWhile (h : s.Cut nl front a b back) :
    s.before.rtakeWhile (fun a => !(a == nl)) = a := by
  have ha : ∀ c ∈ a.reverse, (!(c == nl)) = true := by
    intro c hc
    simpa using fun heq : c = nl => h.left (heq ▸ List.mem_reverse.mp hc)
  rw [h.before, List.rtakeWhile, List.reverse_append, List.takeWhile_append_of_pos ha,
    takeWhile_reverse_ended, List.append_nil, List.reverse_reverse]

theorem Cut.takeWhile (h : s.Cut nl front a b back) :
    s.after.takeWhile (fun a => !(a == nl)) = b := by
  have hb : ∀ c ∈ b, (!(c == nl)) = true := by
    intro c hc
    simpa using fun heq : c = nl => h.right (heq ▸ hc)
  rw [h.after, List.takeWhile_append_of_pos hb, takeWhile_behind, List.append_nil]

theorem Cut.column (h : s.Cut nl front a b back) : s.column nl = a.length := by
  rw [Sides.column, h.rtakeWhile]

theorem Cut.toLineStart (h : s.Cut nl front a b back) :
    (s.toLineStart nl).before = ended nl front := by
  have hsides : s.before.rdropWhile (fun a => !(a == nl)) ++
      s.before.rtakeWhile (fun a => !(a == nl)) = s.before := List.rdropWhile_append_rtakeWhile
  rw [h.rtakeWhile] at hsides
  exact List.append_cancel_right (hsides.trans h.before)

theorem Cut.toLineEnd (h : s.Cut nl front a b back) :
    (s.toLineEnd nl).before = ended nl front ++ (a ++ b) := by
  rw [Sides.toLineEnd, h.takeWhile, h.before, List.append_assoc]

/-- A place in the lines is a cut of the text. -/
theorem text_toPlace {n : ℕ} (hn : n < (s.lines nl).length) (column : ℕ) :
    (s.toPlace nl n column).text = s.text := by
  have hsplit : s.text.splitOn nl = (s.lines nl).take n ++
      ((s.lines nl)[n]?).getD [] :: (s.lines nl).drop (n + 1) := by
    rw [List.getElem?_eq_getElem hn, Option.getD_some, List.cons_getElem_drop_succ,
      List.take_append_drop]
    rfl
  have htext := text_of_lines hsplit
  rw [toPlace, text, List.append_assoc, ← List.append_assoc (List.take column _),
    List.take_append_drop]
  exact htext.symm

theorem lineBeside_lt (delta : ℤ) (s : Sides α) : s.lineBeside nl delta < (s.lines nl).length := by
  obtain ⟨front, a, b, back, h⟩ := exists_cut nl s
  have hlength : (s.lines nl).length = front.length + (back.length + 1) := by
    rw [h.lines, List.length_append, List.length_cons]
  rw [lineBeside, h.line]
  split_ifs
  · omega
  · omega

end LineLemmas

end Sides

end Postblox.Lib
