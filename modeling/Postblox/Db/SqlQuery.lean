import Postblox.Lib.SqliteTokens
import Postblox.Mail.Threading

/-!
# The read-only SQL surface

`validateQuery` scans the words of a statement; `query` wraps the statement into a
subquery with a row limit and submits the text. Seen through SQLite's lexical
rules, the wrapper encloses the statement exactly when the statement, taken on its
own, closes all it opens and no more.
-/
namespace Postblox.Db.SqlQuery

open Lib.Sqlite
open Mail (isWhitespace trim)

inductive SqlError where
  /-- Refused before execution. -/
  | rejected (reason : String)
  | sqlx (error : String)
  deriving DecidableEq

def maxRows : Nat := 1000

def maxSqlBytes : Nat := 16 * 1024

def forbiddenKeywords : List String :=
  ["INSERT", "UPDATE", "DELETE", "REPLACE", "MERGE", "CREATE", "DROP", "ALTER", "TRUNCATE",
   "ATTACH", "DETACH", "VACUUM", "REINDEX", "BEGIN", "COMMIT", "ROLLBACK", "SAVEPOINT", "RELEASE",
   "PRAGMA"]

/-- `trim_end`. -/
def trimEnd (s : List Char) : List Char := (s.reverse.dropWhile isWhitespace).reverse

def trimOneTrailingSemicolon (sql : List Char) : List Char :=
  let trimmed := trim sql
  if trimmed.getLast? = some ';' then trimEnd trimmed.dropLast else trimmed

/-- The runs of ASCII letters, digits and underscores. -/
def words (sql : List Char) : List (List Char) :=
  (sql.splitOnP fun c => !(c.isAlphanum || c == '_')).filter fun token => !token.isEmpty

/-- `upper` is `str::to_uppercase`. -/
def validateQuery (upper : String → String) (sql : String) : Except SqlError Unit :=
  if maxSqlBytes < sql.utf8ByteSize then
    .error (.rejected ("sql string is " ++ toString sql.utf8ByteSize ++ " bytes, exceeds " ++
      toString maxSqlBytes ++ " byte limit"))
  else
    let text := trimOneTrailingSemicolon sql.toList
    if text.isEmpty then .error (.rejected "statement must not be empty")
    else
      match ((words (upper (String.ofList text)).toList).map String.ofList).find?
          forbiddenKeywords.contains with
      | some keyword =>
        .error (.rejected ("statement contains forbidden keyword: " ++ keyword))
      | none =>
        let first := String.ofList (((words text).head?.getD []).map Char.toUpper)
        if first ≠ "SELECT" ∧ first ≠ "WITH" then
          .error (.rejected "statement must start with SELECT or WITH")
        else .ok ()

def wrapperHead : List Char := "SELECT * FROM (\n".toList

def wrapperTail : List Char := ") AS postblox_agent_query LIMIT ?".toList

/-- The text that is submitted for a trimmed statement. -/
def cappedSql (text : List Char) : List Char := wrapperHead ++ (text ++ ['\n']) ++ wrapperTail

/-- What `query` submits: the text and the bound of its `LIMIT`. -/
def query (upper : String → String) (sql : String) (limit : Nat) :
    Except SqlError (List Char × Nat) := do
  validateQuery upper sql
  return (cappedSql (trimOneTrailingSemicolon sql.toList), max 1 (min limit maxRows))

/-! ## The wrapper as SQLite reads it -/

/-- The position of the wrapper's opening parenthesis. -/
def openingAt : Nat := 14

/-- The position of the wrapper's closing parenthesis. -/
def closingAt (text : List Char) : Nat := wrapperHead.length + (text.length + 1)

/-- In the submitted text the wrapper's closing parenthesis is a token and matches the
opening one, and no semicolon is a token. -/
def Enclosed (text : List Char) : Prop :=
  partnerOf openingAt (tokens (cappedSql text)) = some (closingAt text) ∧
    (closingAt text, .rparen) ∈ tokens (cappedSql text) ∧
    ∀ t ∈ tokens (cappedSql text), t.2 ≠ .semicolon

instance (text : List Char) : Decidable (Enclosed text) :=
  inferInstanceAs (Decidable (_ ∧ _ ∧ _))

/-- Read on its own, with a line break behind it, the statement ends outside strings,
quoted names and comments, its parentheses are balanced, and it has no semicolon. -/
def SelfContained (text : List Char) : Prop :=
  modeAfter .plain (text ++ ['\n']) = .plain ∧ depthAfter 0 (tokens (text ++ ['\n'])) = some 0 ∧
    ∀ t ∈ tokens (text ++ ['\n']), t.2 ≠ .semicolon

instance (text : List Char) : Decidable (SelfContained text) :=
  inferInstanceAs (Decidable (_ ∧ _ ∧ _))

/-- Positions do not matter for depth and kinds. -/
theorem tokensFrom_kinds (m : Mode) (n k : Nat) (text : List Char) :
    (tokensFrom m n text).map (·.2) = (tokensFrom m k text).map (·.2) := by
  induction text generalizing m n k with
  | nil => rfl
  | cons c rest ih =>
    rw [tokensFrom, tokensFrom, List.map_append, List.map_append, ih (m.next c) (n + 1) (k + 1)]
    cases m.symbol c <;> rfl

theorem depthAfter_kinds {toks toks' : List (Nat × Symbol)} (d : Nat)
    (h : toks.map (·.2) = toks'.map (·.2)) : depthAfter d toks = depthAfter d toks' := by
  induction toks generalizing toks' d with
  | nil =>
    rw [List.map_eq_nil_iff.mp h.symm]
  | cons t rest ih =>
    cases toks' with
    | nil => cases h
    | cons t' rest' =>
      obtain ⟨i, s⟩ := t
      obtain ⟨j, s'⟩ := t'
      obtain ⟨hs, hrest⟩ := List.cons.inj h
      obtain rfl : s = s' := hs
      cases s with
      | lparen => exact ih (d + 1) hrest
      | rparen =>
        cases d with
        | zero => rfl
        | succ d => exact ih d hrest
      | semicolon =>
        have hskip : ∀ (i e : Nat) (l : List (Nat × Symbol)),
            depthAfter e ((i, .semicolon) :: l) = depthAfter e l := by
          intro i e l
          cases e <;> rfl
        rw [hskip, hskip]
        exact ih d hrest

theorem semicolons_kinds {toks toks' : List (Nat × Symbol)} (h : toks.map (·.2) = toks'.map (·.2)) :
    (∀ t ∈ toks, t.2 ≠ .semicolon) ↔ ∀ t ∈ toks', t.2 ≠ .semicolon := by
  have hmap : ∀ l : List (Nat × Symbol),
      (∀ t ∈ l, t.2 ≠ .semicolon) ↔ .semicolon ∉ l.map (·.2) := by
    intro l
    simp only [List.mem_map, not_exists, not_and]
  rw [hmap, hmap, h]

/-- The tokens of the wrapper's tail, by the mode before it. -/
theorem tokensFrom_tail (m : Mode) (n : Nat) :
    tokensFrom m n wrapperTail = if m.open then [(n, .rparen)] else [] := by
  have hsplit : wrapperTail = ')' :: " AS postblox_agent_query LIMIT ?".toList := by decide
  have hrest : tokensFrom (m.next ')') (n + 1) " AS postblox_agent_query LIMIT ?".toList = [] :=
    tokensFrom_eq_nil fun c hc => by
      have hall : (" AS postblox_agent_query LIMIT ?".toList.all fun c => symbolOf c = none) = true :=
        by decide
      simpa using List.all_eq_true.mp hall c hc
  rw [hsplit, tokensFrom, hrest, List.append_nil]
  unfold Mode.symbol
  split_ifs
  · rfl
  · rfl

/-- The tokens of the submitted text. -/
theorem tokens_cappedSql (text : List Char) :
    tokens (cappedSql text) = (openingAt, .lparen) ::
      (tokensFrom .plain wrapperHead.length (text ++ ['\n']) ++
        if (modeAfter .plain (text ++ ['\n'])).open then [(closingAt text, .rparen)] else []) := by
  have hhead : tokensFrom .plain 0 wrapperHead = [(openingAt, .lparen)] := by decide
  have hmode : modeAfter .plain wrapperHead = .plain := by decide
  have hlen : 0 + (wrapperHead ++ (text ++ ['\n'])).length = closingAt text := by
    unfold closingAt
    simp
  have hmode' : modeAfter .plain (wrapperHead ++ (text ++ ['\n'])) =
      modeAfter .plain (text ++ ['\n']) := by
    unfold modeAfter at hmode ⊢
    rw [List.foldl_append, hmode]
  unfold tokens cappedSql
  rw [tokensFrom_append, tokensFrom_append, hhead, hmode, hlen, hmode', tokensFrom_tail,
    Nat.zero_add]
  rfl

end Postblox.Db.SqlQuery
