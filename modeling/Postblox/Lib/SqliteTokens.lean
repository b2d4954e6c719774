import Mathlib

/-!
# Parentheses and semicolons in SQL text

SQLite's lexical rules for strings, quoted identifiers, line and block comments as
an automaton over characters: a parenthesis or a semicolon is a token exactly when
the character stands outside all of these. A doubled quote ends a string and
starts the next one at once, which leaves the same characters inside. A line
comment ends with its line, a block comment that is not closed runs to the end,
and a NUL ends the text.
-/
namespace Postblox.Lib.Sqlite

/-- Where the reader stands. -/
inductive Mode where
  | plain
  /-- After a `-` that may start a comment. -/
  | minus
  /-- After a `/` that may start a comment. -/
  | slash
  | lineComment
  | blockComment
  /-- In a block comment, after a `*`. -/
  | blockStar
  /-- Inside quotes, up to the given character. -/
  | quoted (close : Char)
  | ended
  deriving DecidableEq

inductive Symbol where
  | lparen
  | rparen
  | semicolon
  deriving DecidableEq

def singleQuote : Char := Char.ofNat 39

def doubleQuote : Char := Char.ofNat 34

def backquote : Char := Char.ofNat 96

/-- What SQLite sees of a text. -/
def beforeNul (text : List Char) : List Char := text.takeWhile (· ≠ Char.ofNat 0)

theorem beforeNul_eq_self {text : List Char} (h : Char.ofNat 0 ∉ text) : beforeNul text = text := by
  unfold beforeNul
  rw [List.takeWhile_eq_self_iff]
  intro c hc
  have hne : c ≠ Char.ofNat 0 := fun heq => h (heq ▸ hc)
  exact decide_eq_true hne

/-- A character outside strings and comments. -/
def Mode.fresh (c : Char) : Mode :=
  if c = '-' then .minus
  else if c = '/' then .slash
  else if c = singleQuote ∨ c = doubleQuote ∨ c = backquote then .quoted c
  else if c = '[' then .quoted ']'
  else .plain

def Mode.next (m : Mode) (c : Char) : Mode :=
  if c = Char.ofNat 0 then .ended
  else
    match m with
    | .plain => .fresh c
    | .minus => if c = '-' then .lineComment else .fresh c
    | .slash => if c = '*' then .blockComment else .fresh c
    | .lineComment => if c = '\n' then .plain else .lineComment
    | .blockComment => if c = '*' then .blockStar else .blockComment
    | .blockStar =>
      if c = '/' then .plain else if c = '*' then .blockStar else .blockComment
    | .quoted close => if c = close then .plain else .quoted close
    | .ended => .ended

/-- A token may start here. -/
def Mode.open : Mode → Bool
  | .plain => true
  | .minus => true
  | .slash => true
  | _ => false

def symbolOf (c : Char) : Option Symbol :=
  if c = '(' then some .lparen
  else if c = ')' then some .rparen
  else if c = ';' then some .semicolon
  else none

def Mode.symbol (m : Mode) (c : Char) : Option Symbol := if m.open then symbolOf c else none

def modeAfter (m : Mode) (text : List Char) : Mode := text.foldl Mode.next m

/-- The symbol tokens of a text with their positions, counted from `n`. -/
def tokensFrom (m : Mode) (n : Nat) : List Char → List (Nat × Symbol)
  | [] => []
  | c :: rest => ((m.symbol c).map (n, ·)).toList ++ tokensFrom (m.next c) (n + 1) rest

def tokens (text : List Char) : List (Nat × Symbol) := tokensFrom .plain 0 text

theorem tokensFrom_append (m : Mode) (n : Nat) (first second : List Char) :
    tokensFrom m n (first ++ second) =
      tokensFrom m n first ++ tokensFrom (modeAfter m first) (n + first.length) second := by
  induction first generalizing m n with
  | nil => rfl
  | cons c rest ih =>
    have hlen : n + 1 + rest.length = n + (c :: rest).length := by
      rw [List.length_cons]
      omega
    rw [List.cons_append, tokensFrom, ih, tokensFrom, List.append_assoc, hlen]
    rfl

theorem position_lt {m : Mode} {n i : Nat} {s : Symbol} {text : List Char}
    (h : (i, s) ∈ tokensFrom m n text) : n ≤ i ∧ i < n + text.length := by
  induction text generalizing m n with
  | nil => cases h
  | cons c rest ih =>
    rw [List.length_cons]
    rcases List.mem_append.mp h with hhead | htail
    · obtain ⟨s', -, heq⟩ := Option.map_eq_some_iff.mp (Option.mem_toList.mp hhead)
      have hi : n = i := congrArg Prod.fst heq
      omega
    · have hrest := ih htail
      omega

/-- Text without the three characters has no such tokens. -/
theorem tokensFrom_eq_nil {m : Mode} {n : Nat} {text : List Char}
    (h : ∀ c ∈ text, symbolOf c = none) : tokensFrom m n text = [] := by
  induction text generalizing m n with
  | nil => rfl
  | cons c rest ih =>
    have hnone : m.symbol c = none := by
      unfold Mode.symbol
      rw [h c List.mem_cons_self]
      exact ite_self _
    rw [tokensFrom, hnone, ih fun c' hc' => h c' (List.mem_cons_of_mem _ hc')]
    rfl

/-- A line break ends a line comment, and no token is in the making after it. -/
theorem next_newline (m : Mode) : (m.next '\n').open = true → m.next '\n' = .plain := by
  cases m with
  | plain => exact fun _ => rfl
  | minus => exact fun _ => rfl
  | slash => exact fun _ => rfl
  | lineComment => exact fun _ => rfl
  | blockComment => exact fun h => nomatch h
  | blockStar => exact fun h => nomatch h
  | ended => exact fun h => nomatch h
  | quoted close =>
    intro h
    unfold Mode.next at h ⊢
    rw [if_neg (by decide)] at h ⊢
    dsimp only at h ⊢
    split_ifs at h ⊢
    · rfl
    · cases h

/-! ## Matching parentheses -/

/-- The depth after a list of tokens that starts at depth `d`; none when it closes
more than is open. -/
def depthAfter : Nat → List (Nat × Symbol) → Option Nat
  | d, [] => some d
  | d, (_, .lparen) :: rest => depthAfter (d + 1) rest
  | 0, (_, .rparen) :: _ => none
  | d + 1, (_, .rparen) :: rest => depthAfter d rest
  | d, (_, .semicolon) :: rest => depthAfter d rest

/-- The position of the parenthesis that closes the one before these tokens, when
`d` more are open. -/
def partner : Nat → List (Nat × Symbol) → Option Nat
  | _, [] => none
  | d, (_, .lparen) :: rest => partner (d + 1) rest
  | 0, (i, .rparen) :: _ => some i
  | d + 1, (_, .rparen) :: rest => partner d rest
  | d, (_, .semicolon) :: rest => partner d rest

/-- The position of the parenthesis that closes the one at `i`. -/
def partnerOf (i : Nat) (toks : List (Nat × Symbol)) : Option Nat :=
  partner 0 (toks.dropWhile fun t => t.1 ≠ i).tail

/-- Behind tokens that close nothing of their surroundings the search goes on at
their depth; otherwise it ends inside them. -/
theorem partner_append (d : Nat) (first second : List (Nat × Symbol)) :
    (∀ e, depthAfter d first = some e → partner d (first ++ second) = partner e second) ∧
      (depthAfter d first = none →
        ∃ i, partner d (first ++ second) = some i ∧ (i, .rparen) ∈ first) := by
  induction first generalizing d with
  | nil =>
    refine ⟨?_, fun h => nomatch h⟩
    rintro e ⟨rfl⟩
    rfl
  | cons t rest ih =>
    have hmem : ∀ {e : Nat} {x : Option Nat}, (depthAfter e rest = none →
        ∃ i, x = some i ∧ (i, Symbol.rparen) ∈ rest) → depthAfter e rest = none →
        ∃ i, x = some i ∧ (i, Symbol.rparen) ∈ t :: rest := by
      intro e x h hnone
      obtain ⟨i, hi, hin⟩ := h hnone
      exact ⟨i, hi, List.mem_cons_of_mem _ hin⟩
    obtain ⟨i, s⟩ := t
    cases s with
    | lparen =>
      obtain ⟨hsome, hnone⟩ := ih (d + 1)
      exact ⟨hsome, hmem hnone⟩
    | rparen =>
      cases d with
      | zero => exact ⟨(fun _ h => nomatch h), fun _ => ⟨i, rfl, List.mem_cons_self⟩⟩
      | succ d =>
        obtain ⟨hsome, hnone⟩ := ih d
        exact ⟨hsome, hmem hnone⟩
    | semicolon =>
      have hstep : ∀ e, partner e ((i, Symbol.semicolon) :: rest ++ second) =
          partner e (rest ++ second) := by
        intro e
        cases e <;> rfl
      have hdepth : ∀ e, depthAfter e ((i, Symbol.semicolon) :: rest) = depthAfter e rest := by
        intro e
        cases e <;> rfl
      rw [hstep, hdepth]
      obtain ⟨hsome, hnone⟩ := ih d
      exact ⟨hsome, hmem hnone⟩

end Postblox.Lib.Sqlite
