import Postblox.Lib.Delimited
import Postblox.Lib.Strip
import Postblox.Mail.Threading

/-!
# Strings as the mail crate reads them

`str::trim`, `split_whitespace`, `to_ascii_lowercase`, and the line endings that become
plain line feeds before a body is cut into lines.
-/
namespace Postblox.Mail

open Lib

/-- `str::trim`. -/
def trimmed (s : String) : String := String.ofList (trim s.toList)

/-- `str::to_ascii_lowercase`. -/
def asciiLowercase (s : String) : String := String.ofList (s.toList.map Char.toLower)

/-- `str::split_whitespace`. -/
def splitWhitespace (s : String) : List String :=
  ((s.toList.splitOnP isWhitespace).filter (· ≠ [])).map String.ofList

/-- `replace("\r\n", "\n")`. -/
def crlfToLf (s : List Char) : List Char := ['\n'].intercalate (pieces '\r' '\n' s)

@[simp] theorem trimStart_nil : trimStart [] = [] := rfl

theorem trimStart_of_not {c : Char} {l : List Char} (h : isWhitespace c = false) :
    trimStart (c :: l) = c :: l := by
  rw [trimStart, List.dropWhile_cons_of_neg (by simp [h])]

theorem trim_eq (s : List Char) : trim s = (trimStart s).rdropWhile isWhitespace := rfl

theorem trim_eq_strip (s : List Char) : trim s = strip isWhitespace s := trim_eq s

theorem trimmed_trimmed (s : String) : trimmed (trimmed s) = trimmed s := by
  rw [trimmed, trimmed, String.toList_ofList, trim_eq_strip, trim_eq_strip, strip_strip]

theorem head_trimStart {s : List Char} {c : Char} (h : (trimStart s).head? = some c) :
    isWhitespace c = false := by
  have hnot := List.head?_dropWhile_not isWhitespace s
  rw [trimStart] at h
  rw [h] at hnot
  simpa using hnot

theorem head_trim {s : List Char} {c : Char} (h : (trim s).head? = some c) :
    isWhitespace c = false := by
  have hpre : trim s <+: trimStart s := List.rdropWhile_prefix isWhitespace _
  obtain ⟨rest, hrest⟩ := hpre
  apply head_trimStart (s := s)
  rw [← hrest, List.head?_append, h]
  rfl

theorem trimmed_toList {s : String} (h : trimmed s = s) : trim s.toList = s.toList := by
  have hlist := congrArg String.toList h
  rwa [trimmed, String.toList_ofList] at hlist

/-- The first word of a text that does not begin with a blank begins as the text does. -/
theorem splitWhitespace_of_head {s : String} {c : Char} (h : s.toList.head? = some c)
    (hc : isWhitespace c = false) :
    ∃ word words, splitWhitespace s = word :: words ∧ word.toList.head? = some c := by
  cases hs : s.toList with
  | nil => rw [hs] at h; cases h
  | cons d rest =>
    rw [hs] at h
    cases h
    obtain ⟨first, others, hsplit⟩ :=
      List.exists_cons_of_ne_nil (List.splitOnP_ne_nil isWhitespace rest)
    have hcut : s.toList.splitOnP isWhitespace = (c :: first) :: others := by
      rw [hs, List.splitOnP_cons_eq_if_modifyHead, hsplit, hc]
      rfl
    exact ⟨String.ofList (c :: first), (others.filter (· ≠ [])).map String.ofList,
      by simp [splitWhitespace, hcut], by simp⟩

end Postblox.Mail
