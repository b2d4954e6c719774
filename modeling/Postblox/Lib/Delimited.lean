import Mathlib

/-!
# Lists cut at a pair, and what stands between marks

`pieces` cuts a list wherever two given elements follow one another, as a text is cut into
lines at CR LF. `between` reads a list of lines in which some are marked: what stands
before the first mark is skipped, and the lines between two marks are one part, until a
mark closes the last of them.
-/
namespace Postblox.Lib

section Pieces

variable {α : Type}

/-- An element in front of the first piece. -/
def onFirst (c : α) : List (List α) → List (List α)
  | [] => [[c]]
  | p :: ps => (c :: p) :: ps

theorem onFirst_append {c : α} {ps qs : List (List α)} (h : ps ≠ []) :
    onFirst c (ps ++ qs) = onFirst c ps ++ qs := by
  cases ps with
  | nil => exact absurd rfl h
  | cons p ps => rfl

theorem intercalate_onFirst {sep : List α} {c : α} {ps : List (List α)} (h : ps ≠ []) :
    sep.intercalate (onFirst c ps) = c :: sep.intercalate ps := by
  cases ps with
  | nil => exact absurd rfl h
  | cons p ps => cases ps <;> simp [onFirst, List.intercalate]

theorem infix_intercalate (sep : List α) {p : List α} {ps : List (List α)} (h : p ∈ ps) :
    p <:+: sep.intercalate ps := by
  induction ps with
  | nil => cases h
  | cons q qs ih =>
    cases qs with
    | nil =>
      rw [List.mem_singleton.mp h, List.intercalate_singleton]
    | cons r rs =>
      rw [List.intercalate_cons_cons]
      rcases List.mem_cons.mp h with rfl | hrest
      · exact (List.prefix_append p _).isInfix.trans (List.prefix_append _ _).isInfix
      · exact (ih hrest).trans (List.suffix_append _ _).isInfix

variable [DecidableEq α]

/-- Cut at every `x` that `y` follows. -/
def pieces (x y : α) : List α → List (List α)
  | [] => [[]]
  | [c] => [[c]]
  | c :: d :: rest =>
    if c = x ∧ d = y then [] :: pieces x y rest else onFirst c (pieces x y (d :: rest))

variable {x y : α}

theorem pieces_ne_nil (l : List α) : pieces x y l ≠ [] := by
  fun_cases pieces x y l with
  | case1 => simp
  | case2 => simp
  | case3 => simp
  | case4 c d rest =>
    cases pieces x y (d :: rest) <;> simp [onFirst]

theorem pieces_cons_sep (rest : List α) : pieces x y (x :: y :: rest) = [] :: pieces x y rest := by
  rw [pieces, if_pos ⟨rfl, rfl⟩]

/-- The pieces before a pair and the pieces behind it. -/
theorem pieces_append (hxy : x ≠ y) (a b : List α) :
    pieces x y (a ++ x :: y :: b) = pieces x y a ++ pieces x y b := by
  fun_induction pieces x y a with
  | case1 => exact pieces_cons_sep b
  | case2 c =>
    have hno : ¬ (c = x ∧ x = y) := fun h => hxy h.2
    rw [List.singleton_append, pieces, if_neg hno, pieces_cons_sep]
    rfl
  | case3 c d rest hsep ih =>
    rw [List.cons_append, List.cons_append, hsep.1, hsep.2, pieces_cons_sep, ih]
    rfl
  | case4 c d rest hno ih =>
    rw [List.cons_append, List.cons_append, pieces, if_neg hno, ← List.cons_append, ih,
      onFirst_append (pieces_ne_nil _)]

theorem pieces_of_not_mem {l : List α} (h : x ∉ l) : pieces x y l = [l] := by
  fun_induction pieces x y l with
  | case1 => rfl
  | case2 c => rfl
  | case3 c d rest hsep ih => exact absurd (hsep.1 ▸ List.mem_cons_self) h
  | case4 c d rest hno ih =>
    rw [ih fun hmem => h (List.mem_cons_of_mem c hmem)]
    rfl

/-- Joining the pieces gives the list back. -/
theorem intercalate_pieces (l : List α) : [x, y].intercalate (pieces x y l) = l := by
  fun_induction pieces x y l with
  | case1 => rfl
  | case2 c => rfl
  | case3 c d rest hsep ih =>
    rw [List.intercalate_cons_of_ne_nil (pieces_ne_nil rest), ih, hsep.1, hsep.2]
    rfl
  | case4 c d rest hno ih => rw [intercalate_onFirst (pieces_ne_nil _), ih]

theorem infix_of_mem_pieces {l p : List α} (h : p ∈ pieces x y l) : p <:+: l := by
  have hjoin := infix_intercalate [x, y] h
  rwa [intercalate_pieces] at hjoin

end Pieces

/-! ## Parts between marks -/

section Between

variable {β : Type}

inductive Mark where
  | inside
  | delimiter
  | close
  deriving DecidableEq

variable (mark : β → Mark)

/-- The parts from here on, the lines of the first of which are read so far. -/
def collect : List β → List β → Option (List (List β))
  | _, [] => none
  | part, line :: rest =>
    match mark line with
    | .inside => collect (part ++ [line]) rest
    | .delimiter => (collect [] rest).map fun parts => part :: parts
    | .close => some [part]

/-- The parts of a list of lines; `none` when it is not closed. -/
def between : List β → Option (List (List β))
  | [] => none
  | line :: rest =>
    match mark line with
    | .inside => between rest
    | .delimiter => collect mark [] rest
    | .close => some []

variable {mark}

theorem collect_append {lines : List β} (h : ∀ line ∈ lines, mark line = .inside)
    (part rest : List β) :
    collect mark part (lines ++ rest) = collect mark (part ++ lines) rest := by
  induction lines generalizing part with
  | nil => rw [List.nil_append, List.append_nil]
  | cons line lines ih =>
    rw [List.forall_mem_cons] at h
    rw [List.cons_append, collect, h.1]
    show collect mark (part ++ [line]) (lines ++ rest) = _
    rw [ih h.2, List.append_assoc]
    rfl

/-- Each part behind a delimiter, and a closing mark at the end; what follows that is not
read. -/
def delimited (delimiter close : β) (parts : List (List β)) (epilogue : List β) : List β :=
  parts.flatMap (fun part => delimiter :: part) ++ close :: epilogue

theorem collect_delimited {delimiter close : β} (hdelimiter : mark delimiter = .delimiter)
    (hclose : mark close = .close) (parts : List (List β))
    (hparts : ∀ part ∈ parts, ∀ line ∈ part, mark line = .inside) (part epilogue : List β) :
    collect mark part (delimited delimiter close parts epilogue) = some (part :: parts) := by
  induction parts generalizing part with
  | nil =>
    unfold delimited
    rw [List.flatMap_nil, List.nil_append, collect, hclose]
  | cons next rest ih =>
    rw [List.forall_mem_cons] at hparts
    have hsplit : delimited delimiter close (next :: rest) epilogue =
        delimiter :: (next ++ delimited delimiter close rest epilogue) := by
      simp [delimited]
    rw [hsplit, collect, hdelimiter]
    show (collect mark [] (next ++ _)).map _ = _
    rw [collect_append hparts.1, List.nil_append, ih hparts.2]
    rfl

/-- What was put between the marks is read back. -/
theorem between_delimited {delimiter close : β} (hdelimiter : mark delimiter = .delimiter)
    (hclose : mark close = .close) (parts : List (List β))
    (hparts : ∀ part ∈ parts, ∀ line ∈ part, mark line = .inside) (epilogue : List β) :
    between mark (delimited delimiter close parts epilogue) = some parts := by
  cases parts with
  | nil =>
    unfold delimited
    rw [List.flatMap_nil, List.nil_append, between, hclose]
  | cons first rest =>
    rw [List.forall_mem_cons] at hparts
    have hsplit : delimited delimiter close (first :: rest) epilogue =
        delimiter :: (first ++ delimited delimiter close rest epilogue) := by
      simp [delimited]
    rw [hsplit, between, hdelimiter]
    show collect mark [] (first ++ _) = _
    rw [collect_append hparts.1, List.nil_append,
      collect_delimited hdelimiter hclose _ hparts.2]

end Between

end Postblox.Lib
