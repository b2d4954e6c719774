import Postblox.Lib.SqliteTokens

/-!
# The words of a full-text query

How FTS5 splits a query: blanks, punctuation, barewords, and strings. A string starts at a
double quote; two of them inside it stand for one, and the first that is not doubled ends it.
Without an end there is no query.
-/
namespace Postblox.Lib.Fts5

open Sqlite (doubleQuote beforeNul beforeNul_eq_self)

inductive QueryToken where
  | punctuation (c : Char)
  | bareword (text : List Char)
  | string (value : List Char)
  deriving DecidableEq

def isBlank (c : Char) : Bool := c = ' ' || c = '\t' || c = '\n' || c = '\r'

def isPunctuation (c : Char) : Bool := c ∈ ['(', ')', '{', '}', ':', ',', '+', '*', '-', '^']

/-- Letters, digits, `_`, the substitute character and all that is not ASCII. -/
def isBareword (c : Char) : Bool := c.isAlphanum || c = '_' || c.toNat = 26 || 128 ≤ c.toNat

/-- The value of a string after its opening quote, and what is behind the closing one. -/
def stringBody : List Char → Option (List Char × List Char)
  | [] => none
  | c :: rest =>
    if c = doubleQuote then
      match rest with
      | d :: rest =>
        if d = doubleQuote then
          (stringBody rest).map fun body => (doubleQuote :: body.1, body.2)
        else some ([], d :: rest)
      | [] => some ([], [])
    else (stringBody rest).map fun body => (c :: body.1, body.2)

/-- The first token of a query that does not begin with a blank. -/
def firstToken : List Char → Option (QueryToken × List Char)
  | [] => none
  | c :: rest =>
    if isPunctuation c then some (.punctuation c, rest)
    else if c = doubleQuote then (stringBody rest).map fun body => (.string body.1, body.2)
    else if isBareword c then
      some (.bareword (c :: rest.takeWhile isBareword), rest.dropWhile isBareword)
    else none

/-- A token takes at least one character, so the length bounds the number of rounds. -/
def tokensWithin : Nat → List Char → Option (List QueryToken)
  | 0, _ => none
  | fuel + 1, query =>
    if query.dropWhile isBlank = [] then some []
    else do
      let first ← firstToken (query.dropWhile isBlank)
      let tokens ← tokensWithin fuel first.2
      return first.1 :: tokens

/-- The tokens of a query; `none` is a syntax error. The text ends at a NUL. -/
def queryTokens (query : List Char) : Option (List QueryToken) :=
  tokensWithin (query.length + 1) (beforeNul query)

/-- A character of a string as it stands between the quotes. -/
def doubled (c : Char) : List Char := if c = doubleQuote then [doubleQuote, doubleQuote] else [c]

/-- A text between quotes. -/
def quoted (value : List Char) : List Char := doubleQuote :: (value.flatMap doubled ++ [doubleQuote])

variable {value : List Char}

/-- Two quotes are read as one, and the first that is not doubled is the closing one. -/
theorem stringBody_doubled (value : List Char) :
    stringBody (value.flatMap doubled ++ [doubleQuote]) = some (value, []) := by
  induction value with
  | nil => rfl
  | cons c value ih =>
    rw [List.flatMap_cons, List.append_assoc, doubled]
    split_ifs with hquote
    · show stringBody (doubleQuote :: doubleQuote :: (value.flatMap doubled ++ [doubleQuote])) = _
      rw [stringBody.eq_def]
      simp [ih, hquote]
    · show stringBody (c :: (value.flatMap doubled ++ [doubleQuote])) = _
      rw [stringBody.eq_def]
      simp [ih, hquote]

theorem mem_doubled {c d : Char} (h : d ∈ doubled c) : d = c := by
  unfold doubled at h
  split_ifs at h with hquote
  · simpa [hquote] using h
  · exact List.mem_singleton.mp h

theorem not_mem_quoted {c : Char} (hvalue : c ∉ value) (hc : c ≠ doubleQuote) : c ∉ quoted value := by
  intro h
  rcases List.mem_cons.mp h with heq | h
  · exact hc heq
  rcases List.mem_append.mp h with h | h
  · obtain ⟨d, hd, hmem⟩ := List.mem_flatMap.mp h
    rw [mem_doubled hmem] at hvalue
    exact hvalue hd
  · exact hc (List.mem_singleton.mp h)

/-- A quoted text is one string, whatever is in it. -/
theorem queryTokens_quoted (hvalue : Char.ofNat 0 ∉ value) :
    queryTokens (quoted value) = some [.string value] := by
  have hnul : Char.ofNat 0 ∉ quoted value := not_mem_quoted hvalue (by decide)
  obtain ⟨fuel, hfuel⟩ : ∃ fuel, (quoted value).length = fuel + 1 := ⟨_, rfl⟩
  have hfirst : firstToken (quoted value) = some (.string value, []) := by
    have hplain : isPunctuation doubleQuote = false := by decide
    rw [quoted, firstToken, hplain, if_neg Bool.false_ne_true, if_pos rfl, stringBody_doubled]
    rfl
  have hdrop : (quoted value).dropWhile isBlank = quoted value := by
    rw [quoted, List.dropWhile_cons_of_neg (by decide)]
  rw [queryTokens, beforeNul_eq_self hnul, hfuel, tokensWithin, hdrop, if_neg (by simp [quoted]), hfirst]
  rfl

end Postblox.Lib.Fts5
