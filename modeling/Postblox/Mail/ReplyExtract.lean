import Postblox.Lib.Lines
import Postblox.Mail.ReplyAll

/-!
# The new text of a reply

A reply is cut at its first signature separator, attribution or Outlook header block; the
quoted lines before it are left out and the rest is trimmed. What the source looks at from
line `i` on is here the list of lines that begins with that line.
-/
namespace Postblox.Mail

open Lib

/-- The lines of a text, with CR LF taken for LF. -/
def textLines (text : List Char) : List (List Char) := (crlfToLf text).splitOn '\n'

def isSignatureSeparator (trimmed : List Char) : Bool := trimmed == ['-', '-'] || trimmed == ['—']

def startsOn (trimmed : List Char) : Bool := ['O', 'n', ' '].isPrefixOf trimmed

def endsWrote (trimmed : List Char) : Bool := ['w', 'r', 'o', 't', 'e', ':'].isSuffixOf trimmed

def isWroteMarker (trimmed : List Char) : Bool := startsOn trimmed && endsWrote trimmed

/-- An attribution wrapped over up to four lines, with an address-like token in it. -/
def isMultilineWroteMarker : List (List Char) → Bool
  | [] => false
  | line :: rest =>
    startsOn (trim line) && ((line :: rest).take 4).any (fun l => endsWrote (trim l)) &&
      ((line :: rest).take 4).any (fun l => l.contains '@')

def isOutlookHeaderBlock : List (List Char) → Bool
  | l0 :: l1 :: l2 :: l3 :: _ =>
    ['F', 'r', 'o', 'm', ':'].isPrefixOf (trim l0) &&
      ['S', 'e', 'n', 't', ':'].isPrefixOf (trim l1) && ['T', 'o', ':'].isPrefixOf (trim l2) &&
      ['S', 'u', 'b', 'j', 'e', 'c', 't', ':'].isPrefixOf (trim l3)
  | _ => false

/-- One of the checks of `find_cutoff` holds of the first of these lines. -/
def marksCutoff : List (List Char) → Bool
  | [] => false
  | line :: rest =>
    isSignatureSeparator (trim line) || isWroteMarker (trim line) ||
      isMultilineWroteMarker (line :: rest) || isOutlookHeaderBlock (line :: rest)

def findCutoff : List (List Char) → Nat
  | [] => 0
  | line :: rest => if marksCutoff (line :: rest) then 0 else findCutoff rest + 1

def isQuoteLine (line : List Char) : Bool := ['>'].isPrefixOf (trimStart line)

/-- The lines that are kept: those before the cutoff that are no quotes. -/
def keptLines (lines : List (List Char)) : List (List Char) :=
  (lines.take (findCutoff lines)).filter fun line => !isQuoteLine line

def extractChars (text : List Char) : List Char := trim (unlines '\n' (keptLines (textLines text)))

def extractReply (text : String) : String := String.ofList (extractChars text.toList)

example : extractReply "Sounds good.\n\nOn Mon, Alice wrote:\n> Original" = "Sounds good." := by
  decide

/-! ## The cutoff -/

section Cutoff

variable {line : List Char} {lines rest : List (List Char)} {i : Nat}

theorem findCutoff_le (lines : List (List Char)) : findCutoff lines ≤ lines.length := by
  induction lines with
  | nil => exact Nat.le_refl 0
  | cons line rest ih =>
    unfold findCutoff
    split
    · exact Nat.zero_le _
    · rw [List.length_cons]
      omega

/-- No line before the cutoff is a marker. -/
theorem not_marks_of_lt (h : i < findCutoff lines) : marksCutoff (lines.drop i) = false := by
  induction lines generalizing i with
  | nil => exact absurd h (Nat.not_lt_zero i)
  | cons line rest ih =>
    unfold findCutoff at h
    split at h
    · exact absurd h (Nat.not_lt_zero i)
    next hno =>
      cases i with
      | zero => exact Bool.eq_false_iff.mpr hno
      | succ i => exact ih (by omega)

/-- The cutoff is a marker, unless it is the end. -/
theorem marks_findCutoff (h : findCutoff lines < lines.length) :
    marksCutoff (lines.drop (findCutoff lines)) = true := by
  induction lines with
  | nil => exact absurd h (Nat.not_lt_zero _)
  | cons line rest ih =>
    unfold findCutoff at h ⊢
    split
    next hmark => exact hmark
    next hno =>
      rw [if_neg hno, List.length_cons] at h
      exact ih (by omega)

theorem findCutoff_eq (hmark : i < lines.length → marksCutoff (lines.drop i) = true)
    (hle : i ≤ lines.length) (hbefore : ∀ j < i, marksCutoff (lines.drop j) = false) :
    findCutoff lines = i := by
  rcases Nat.lt_trichotomy (findCutoff lines) i with hlt | heq | hgt
  · have hcut := marks_findCutoff (by omega : findCutoff lines < lines.length)
    rw [hbefore _ hlt] at hcut
    cases hcut
  · exact heq
  · have hno := not_marks_of_lt hgt
    rw [hmark (by have hcut := findCutoff_le lines; omega)] at hno
    cases hno

/-! ## What a marker depends on -/

theorem isOutlookHeaderBlock_head (h : isOutlookHeaderBlock (line :: rest) = true) :
    ['F', 'r', 'o', 'm', ':'].isPrefixOf (trim line) = true := by
  unfold isOutlookHeaderBlock at h
  split at h
  next l0 l1 l2 l3 tail heq =>
    rw [List.cons.injEq] at heq
    rw [heq.1]
    simp only [Bool.and_eq_true] at h
    exact h.1.1.1
  next => cases h

/-- A marker begins with something written. -/
theorem written_of_marks (h : marksCutoff (line :: rest) = true) : trim line ≠ [] := by
  intro hblank
  have hfrom : isOutlookHeaderBlock (line :: rest) = false := by
    rw [Bool.eq_false_iff]
    intro hblock
    have hhead := isOutlookHeaderBlock_head hblock
    rw [hblank] at hhead
    cases hhead
  have hon : startsOn [] = false := by decide
  have hseparator : isSignatureSeparator [] = false := by decide
  have hmultiline : isMultilineWroteMarker (line :: rest) = false := by
    rw [isMultilineWroteMarker, hblank, hon, Bool.false_and, Bool.false_and]
  rw [marksCutoff, hfrom, hmultiline, hblank, hseparator, isWroteMarker, hon] at h
  cases h

theorem trim_trim (s : List Char) : trim (trim s) = trim s := by
  rw [trim_eq_strip, trim_eq_strip, strip_strip]

theorem contains_trim (s : List Char) : (trim s).contains '@' = s.contains '@' := by
  have hat : isWhitespace '@' = false := by decide
  rw [Bool.eq_iff_iff, List.contains_iff_mem, List.contains_iff_mem, trim_eq_strip, mem_strip hat]

/-- Only the trimmed lines matter. -/
theorem marksCutoff_map_trim (lines : List (List Char)) :
    marksCutoff (lines.map trim) = marksCutoff lines := by
  cases lines with
  | nil => rfl
  | cons line rest =>
    have hblock : isOutlookHeaderBlock ((line :: rest).map trim) =
        isOutlookHeaderBlock (line :: rest) := by
      rcases rest with _ | ⟨l1, _ | ⟨l2, _ | ⟨l3, rest⟩⟩⟩
      · rfl
      · rfl
      · rfl
      · simp only [List.map_cons, isOutlookHeaderBlock, trim_trim]
    have hmultiline : isMultilineWroteMarker ((line :: rest).map trim) =
        isMultilineWroteMarker (line :: rest) := by
      rw [List.map_cons, isMultilineWroteMarker, isMultilineWroteMarker, ← List.map_cons,
        ← List.map_take, List.any_map, List.any_map]
      simp only [Function.comp_def, trim_trim, contains_trim]
    rw [List.map_cons, marksCutoff, marksCutoff, ← List.map_cons, hblock, hmultiline, trim_trim]

theorem findCutoff_map_trim (lines : List (List Char)) :
    findCutoff (lines.map trim) = findCutoff lines := by
  induction lines with
  | nil => rfl
  | cons line rest ih =>
    have hmark := marksCutoff_map_trim (line :: rest)
    rw [List.map_cons] at hmark ⊢
    rw [findCutoff, findCutoff, hmark, ih]

theorem marksCutoff_nil_cons (rest : List (List Char)) : marksCutoff ([] :: rest) = false := by
  rw [Bool.eq_false_iff]
  exact fun h => written_of_marks h rfl

/-- A blank line behind them changes nothing for the lines before. -/
theorem marksCutoff_concat_nil (lines : List (List Char)) :
    marksCutoff (lines ++ [[]]) = marksCutoff lines := by
  cases lines with
  | nil => decide
  | cons line rest =>
    have hblock : isOutlookHeaderBlock (line :: rest ++ [[]]) =
        isOutlookHeaderBlock (line :: rest) := by
      rcases rest with _ | ⟨l1, _ | ⟨l2, _ | ⟨l3, rest⟩⟩⟩
      · rfl
      · rfl
      · simp [isOutlookHeaderBlock, trim]
      · rfl
    have htake : ∀ f : List Char → Bool, f [] = false →
        ((line :: rest ++ [[]]).take 4).any f = ((line :: rest).take 4).any f := by
      intro f hf
      by_cases hlong : 4 ≤ (line :: rest).length
      · rw [List.take_append_of_le_length hlong]
      · have hshort : (line :: rest ++ [[]]).length ≤ 4 := by
          rw [List.length_append, List.length_singleton]
          omega
        have hend : [([] : List Char)].any f = false := by
          rw [List.any_cons, hf, List.any_nil, Bool.or_false]
        rw [List.take_of_length_le hshort, List.take_of_length_le (by omega), List.any_append,
          hend, Bool.or_false]
    have hmultiline : isMultilineWroteMarker (line :: rest ++ [[]]) =
        isMultilineWroteMarker (line :: rest) := by
      rw [List.cons_append, isMultilineWroteMarker, isMultilineWroteMarker, ← List.cons_append,
        htake _ (by decide), htake _ (by decide)]
    rw [List.cons_append, marksCutoff, marksCutoff, ← List.cons_append, hblock, hmultiline]

/-- No line begins a marker. -/
def NoMarker (lines : List (List Char)) : Prop := ∀ i, marksCutoff (lines.drop i) = false

theorem noMarker_iff : NoMarker lines ↔ findCutoff lines = lines.length := by
  constructor
  · intro h
    apply findCutoff_eq _ (Nat.le_refl _) fun j _ => h j
    exact fun hlt => absurd hlt (Nat.lt_irrefl _)
  · intro h i
    by_cases hi : i < lines.length
    · exact not_marks_of_lt (h ▸ hi)
    · rw [List.drop_eq_nil_of_le (by omega)]
      rfl

theorem noMarker_cons : NoMarker (line :: rest) ↔ marksCutoff (line :: rest) = false ∧ NoMarker rest := by
  constructor
  · exact fun h => ⟨h 0, fun i => h (i + 1)⟩
  · rintro ⟨hhere, hrest⟩ i
    cases i with
    | zero => exact hhere
    | succ i => exact hrest i

theorem noMarker_blank_append (i : Nat) (lines : List (List Char)) :
    NoMarker (List.replicate i [] ++ lines) ↔ NoMarker lines := by
  induction i with
  | zero => rfl
  | succ i ih =>
    rw [List.replicate_succ, List.cons_append, noMarker_cons, ih]
    exact and_iff_right (marksCutoff_nil_cons _)

theorem noMarker_concat_nil (lines : List (List Char)) :
    NoMarker (lines ++ [[]]) ↔ NoMarker lines := by
  induction lines with
  | nil => exact iff_of_true (noMarker_iff.mpr (by decide)) (noMarker_iff.mpr rfl)
  | cons line rest ih =>
    rw [List.cons_append, noMarker_cons, noMarker_cons, ih, ← List.cons_append,
      marksCutoff_concat_nil]

theorem noMarker_append_blank (j : Nat) (lines : List (List Char)) :
    NoMarker (lines ++ List.replicate j []) ↔ NoMarker lines := by
  induction j generalizing lines with
  | zero => rw [List.replicate_zero, List.append_nil]
  | succ j ih =>
    rw [List.replicate_succ, ← List.singleton_append, ← List.append_assoc, ih, noMarker_concat_nil]

theorem noMarker_map_trim (lines : List (List Char)) : NoMarker (lines.map trim) ↔ NoMarker lines := by
  rw [noMarker_iff, noMarker_iff, findCutoff_map_trim, List.length_map]

/-- Whether a text has a marker can be seen from it stripped. -/
theorem noMarker_strip (s : List Char) :
    NoMarker ((trim s).splitOn '\n') ↔ NoMarker (s.splitOn '\n') := by
  have htrim : trim = strip isWhitespace := funext trim_eq_strip
  obtain ⟨i, j, hlines⟩ := splitOn_strip isWhitespace '\n' s
  rw [← noMarker_map_trim, ← noMarker_map_trim (s.splitOn '\n'), htrim, hlines,
    noMarker_append_blank, noMarker_blank_append]

end Cutoff

end Postblox.Mail
