import Postblox.Db.SqlQuery
import Postblox.Ipc.JsonText
import Postblox.Lib.Program
import Postblox.Lib.Saturating
import Postblox.Mail.Base64

/-!
# The size of a query's answer

`query` counts the bytes of every cell before it keeps it. The count is an independent
reckoning of what `serde_json` will write; it is compared here with the text itself.
-/
namespace Postblox.Db.SqlQuery

open Json (Value Number insertEntry)
open Lib (addUpTo addUpTo_min_left foldl_addUpTo bind_eq_ok)

/-- `usize::MAX` on a 64-bit target. -/
def usizeMax : Nat := 2 ^ 64 - 1

/-- `usize::saturating_add`. -/
def satAdd (a b : Nat) : Nat := addUpTo usizeMax a b

/-! ## The reckoning -/

def jsonCharBytes (ch : Char) : Nat :=
  match ch with
  | '"' | '\\' => 2
  | '\x08' | '\x0c' | '\n' | '\r' | '\t' => 2
  | ch => if ch.toNat ≤ 0x1f then 6 else ch.utf8Size

def jsonStringBytes (text : String) : Nat :=
  text.toList.foldl (fun sum ch => satAdd sum (jsonCharBytes ch)) 2

section Size

variable (floatText : Rat → List UInt8)

/-- `Number::to_string`: `Display` writes a float as the formatter does. -/
def numberText : Number → List UInt8
  | .posInt n => Json.decimal n.toNat
  | .negInt m => Json.byte '-' :: Json.decimal (m.val + 1)
  | .float x => floatText x

mutual

def jsonValueBytes : Value → Nat
  | .null => 4
  | .bool true => 4
  | .bool false => 5
  | .number number => (numberText floatText number).length
  | .string text => jsonStringBytes text
  | .array values => jsonValuesBytes 2 values
  | .object map => jsonEntriesBytes 2 map

/-- The fold over an array. -/
def jsonValuesBytes (sum : Nat) : List Value → Nat
  | [] => sum
  | value :: rest => jsonValuesBytes (satAdd (satAdd sum (jsonValueBytes value)) 1) rest

/-- The fold over a map. -/
def jsonEntriesBytes (sum : Nat) : List (String × Value) → Nat
  | [] => sum
  | (key, value) :: rest =>
    jsonEntriesBytes (satAdd (satAdd (satAdd sum (jsonStringBytes key)) (jsonValueBytes value)) 2)
      rest

end

end Size

/-! ## The text is not longer -/

/-- The escape table of the formatter, class by class. -/
theorem length_escaped (ch : Char) : (Json.escaped ch).length = jsonCharBytes ch := by
  unfold Json.escaped
  split
  any_goals rfl
  next hquote hbackslash hbackspace htab hnewline hfeed hreturn =>
    have hplain : jsonCharBytes ch = if ch.toNat ≤ 0x1f then 6 else ch.utf8Size := by
      unfold jsonCharBytes
      split
      all_goals first | rfl | contradiction
    rw [hplain]
    by_cases hcontrol : ch.toNat < 0x20
    · rw [if_pos hcontrol, if_pos (by omega)]
      rfl
    · rw [if_neg hcontrol, if_neg (by omega), String.length_utf8EncodeChar]

theorem jsonStringBytes_eq (text : String) :
    jsonStringBytes text = min (Json.quoted text).length usizeMax := by
  have hsum : ∀ l : List Char, (l.map jsonCharBytes).sum = (l.flatMap Json.escaped).length := by
    intro l
    rw [List.length_flatMap]
    exact congrArg List.sum (List.map_congr_left fun ch _ => (length_escaped ch).symm)
  have hfold := foldl_addUpTo usizeMax 2 jsonCharBytes text.toList
  rw [hsum] at hfold
  rw [Json.length_quoted, Json.escapedLen, Json.escapedText, Nat.add_comm _ 2]
  exact hfold

section Size

variable (floatText : Rat → List UInt8)

theorem jsonValueBytes_number (n : Number) :
    jsonValueBytes floatText (.number n) = (Value.number n).textLen floatText := by
  unfold jsonValueBytes
  cases n <;> rfl

theorem jsonValueBytes_string (text : String) :
    jsonValueBytes floatText (.string text) =
      min ((Value.string text).textLen floatText) usizeMax := by
  unfold jsonValueBytes
  exact jsonStringBytes_eq text

theorem satAdd_min_left (a b : Nat) : satAdd (min a usizeMax) b = min (a + b) usizeMax :=
  addUpTo_min_left usizeMax a b

theorem jsonValuesBytes_cons (sum : Nat) (value : Value) (rest : List Value) :
    jsonValuesBytes floatText (min sum usizeMax) (value :: rest) =
      jsonValuesBytes floatText (min (sum + jsonValueBytes floatText value + 1) usizeMax) rest := by
  rw [jsonValuesBytes, satAdd_min_left, satAdd_min_left]

theorem jsonEntriesBytes_cons (sum : Nat) (key : String) (value : Value)
    (rest : List (String × Value)) :
    jsonEntriesBytes floatText (min sum usizeMax) ((key, value) :: rest) =
      jsonEntriesBytes floatText
        (min (sum + jsonStringBytes key + jsonValueBytes floatText value + 2) usizeMax) rest := by
  rw [jsonEntriesBytes, satAdd_min_left, satAdd_min_left, satAdd_min_left]

mutual

/-- A separator is counted behind every item, the text has one less. -/
theorem textLen_le_jsonValueBytes (value : Value) :
    min (value.textLen floatText) usizeMax ≤ jsonValueBytes floatText value := by
  cases value with
  | null => exact Nat.min_le_left 4 usizeMax
  | bool b =>
    cases b with
    | true => exact Nat.min_le_left 4 usizeMax
    | false => exact Nat.min_le_left 5 usizeMax
  | number n =>
    rw [jsonValueBytes_number]
    exact Nat.min_le_left _ usizeMax
  | string text => rw [jsonValueBytes_string]
  | array values =>
    have hitems := itemsLen_le_jsonValuesBytes 2 values
    rw [Json.textLen_array, jsonValueBytes]
    rw [show min 2 usizeMax = 2 from rfl] at hitems
    omega
  | object map =>
    have hentries := entriesLen_le_jsonEntriesBytes 2 map
    rw [Json.textLen_object, jsonValueBytes]
    rw [show min 2 usizeMax = 2 from rfl] at hentries
    omega

theorem itemsLen_le_jsonValuesBytes (sum : Nat) (values : List Value) :
    min (sum + Json.itemsLen floatText values) usizeMax ≤
      jsonValuesBytes floatText (min sum usizeMax) values := by
  cases values with
  | nil =>
    rw [jsonValuesBytes, Json.itemsLen_nil, Nat.add_zero]
  | cons value rest =>
    have hfirst := textLen_le_jsonValueBytes value
    have hrest := itemsLen_le_jsonValuesBytes (sum + jsonValueBytes floatText value + 1) rest
    rw [jsonValuesBytes_cons, Json.itemsLen_cons]
    omega

theorem entriesLen_le_jsonEntriesBytes (sum : Nat) (map : List (String × Value)) :
    min (sum + Json.entriesLen floatText map) usizeMax ≤
      jsonEntriesBytes floatText (min sum usizeMax) map := by
  cases map with
  | nil =>
    rw [jsonEntriesBytes, Json.entriesLen_nil, Nat.add_zero]
  | cons entry rest =>
    obtain ⟨key, value⟩ := entry
    have hkey := jsonStringBytes_eq key
    have hfirst := textLen_le_jsonValueBytes value
    have hrest := entriesLen_le_jsonEntriesBytes
      (sum + jsonStringBytes key + jsonValueBytes floatText value + 2) rest
    rw [Json.length_quoted] at hkey
    rw [jsonEntriesBytes_cons, Json.entriesLen_cons]
    omega

end

end Size

/-! ## The rows of an answer -/

def maxCellBytes : Nat := 64 * 1024

def maxResponseBytes : Nat := 1024 * 1024

/-- `ResponseBudget::account`: the bytes used so far, and those of one more cell. -/
def account (usedBytes cellBytes : Nat) : Except SqlError Nat :=
  if usizeMax < usedBytes + cellBytes then
    .error (.rejected s!"query response exceeds {maxResponseBytes} byte limit")
  else if maxResponseBytes < usedBytes + cellBytes then
    .error (.rejected (s!"query response is {usedBytes + cellBytes} bytes, " ++
      s!"exceeds {maxResponseBytes} byte limit"))
  else .ok (usedBytes + cellBytes)

/-- A double that is read from a row. -/
inductive Double where
  | finite (x : Rat)
  | other

/-- A column of a row with what `sqlx` makes of it: whether it is null, or the value of one of
the types asked for. -/
structure Cell where
  name : String
  raw : Except String Bool
  typeName : String
  asI64 : Except String (Option Int64)
  asF64 : Except String (Option Double)
  asText : Except String (Option String)
  asBytes : Except String (Option (List UInt8))

def ensureCellBytes (columnName valueKind : String) (bytes : Nat) : Except SqlError Unit :=
  if maxCellBytes < bytes then
    .error (.rejected (s!"{valueKind} cell '{columnName}' is {bytes} bytes, " ++
      s!"exceeds {maxCellBytes} byte limit"))
  else .ok ()

/-- `?` on a result of `sqlx`. -/
def orSqlx {α : Type} (result : Except String α) : Except SqlError α := result.mapError .sqlx

def textToJson (cell : Cell) : Except SqlError Value := do
  match ← orSqlx cell.asText with
  | some text =>
    ensureCellBytes cell.name "text" text.utf8ByteSize
    return .string text
  | none => return .null

def sqliteValueToJson (base64 : Mail.Base64Crate) (cell : Cell) : Except SqlError Value := do
  if ← orSqlx cell.raw then return .null
  if ["INTEGER", "INT", "BIGINT", "BOOLEAN"].contains cell.typeName then
    match ← orSqlx cell.asI64 with
    | some i => return Ipc.i64 i
    | none => return .null
  else if ["REAL", "FLOAT", "DOUBLE"].contains cell.typeName then
    match ← orSqlx cell.asF64 with
    | some (.finite x) => return .number (.float x)
    -- `Number::from_f64` has no text for infinities and NaN
    | some .other | none => return .null
  else if cell.typeName = "BLOB" then
    match ← orSqlx cell.asBytes with
    | some bytes =>
      ensureCellBytes cell.name "blob" bytes.length
      return .string (base64.encode bytes)
    | none => return .null
  -- `TEXT`, and whatever type is not known
  else textToJson cell

/-- What waiting for the next row comes to. -/
inductive Fetched where
  | row (cells : List Cell)
  | failed (error : String)
  | timedOut

section Rows

variable (floatText : Rat → List UInt8) (base64 : Mail.Base64Crate)

/-- The loop over the columns: the object so far and the bytes used so far. -/
def readRow (usedBytes : Nat) (obj : List (String × Value)) :
    List Cell → Except SqlError (List (String × Value) × Nat)
  | [] => .ok (obj, usedBytes)
  | cell :: rest => do
    let value ← sqliteValueToJson base64 cell
    let usedBytes ← account usedBytes (jsonValueBytes floatText value)
    readRow usedBytes (insertEntry cell.name value obj) rest

/-- The loop over the rows. -/
def readRows (usedBytes : Nat) (out : List (List (String × Value))) :
    List Fetched → Except SqlError (List (List (String × Value)))
  | [] => .ok out
  | .failed error :: _ => .error (.sqlx error)
  | .timedOut :: _ => .error (.rejected "query timed out after 2000 ms")
  | .row cells :: rest => do
    let (obj, usedBytes) ← readRow floatText base64 usedBytes [] cells
    readRows usedBytes (out ++ [obj]) rest

/-- `query` to its end; `fetch` are the rows of a statement under a limit. -/
def queryRows (upper : String → String) (fetch : List Char → Nat → List Fetched) (sql : String)
    (limit : Nat) : Except SqlError (List (List (String × Value))) := do
  let (submitted, cap) ← query upper sql limit
  readRows floatText base64 0 [] (fetch submitted cap)

/-! ## The budget bounds what is written -/

/-- The bytes of a row's cell values when they are written. -/
def cellsLen (row : List (String × Value)) : Nat := (row.map fun e => e.2.textLen floatText).sum

def responseLen (rows : List (List (String × Value))) : Nat := (rows.map (cellsLen floatText)).sum

theorem cellsLen_cons (name : String) (value : Value) (rest : List (String × Value)) :
    cellsLen floatText ((name, value) :: rest) =
      value.textLen floatText + cellsLen floatText rest := rfl

/-- A cell of the same name is replaced, and the bytes of the old one stay counted. -/
theorem cellsLen_insertEntry (name : String) (value : Value) (obj : List (String × Value)) :
    cellsLen floatText (insertEntry name value obj) ≤
      cellsLen floatText obj + value.textLen floatText := by
  induction obj with
  | nil =>
    rw [insertEntry, cellsLen_cons, Nat.add_comm]
  | cons entry rest ih =>
    obtain ⟨key, old⟩ := entry
    unfold insertEntry
    split_ifs
    · rw [cellsLen_cons, cellsLen_cons]
      omega
    · rw [cellsLen_cons, Nat.add_comm]
    · rw [cellsLen_cons, cellsLen_cons]
      omega

theorem responseLen_append (out : List (List (String × Value))) (obj : List (String × Value)) :
    responseLen floatText (out ++ [obj]) = responseLen floatText out + cellsLen floatText obj := by
  rw [responseLen, responseLen, List.map_append, List.sum_append, List.map_singleton,
    List.sum_singleton]

theorem account_ok {usedBytes cellBytes used' : Nat} (h : account usedBytes cellBytes = .ok used') :
    used' = usedBytes + cellBytes ∧ used' ≤ maxResponseBytes := by
  unfold account at h
  split_ifs at h with hoverflow hexceeds
  cases h
  exact ⟨rfl, Nat.le_of_not_lt hexceeds⟩

/-- Within the budget nothing is cut, so what is counted covers what is written. -/
theorem account_value {usedBytes used' : Nat} {value : Value}
    (h : account usedBytes (jsonValueBytes floatText value) = .ok used') :
    usedBytes + value.textLen floatText ≤ used' ∧ used' ≤ maxResponseBytes := by
  obtain ⟨rfl, hbound⟩ := account_ok h
  have hsize := textLen_le_jsonValueBytes floatText value
  have htop : maxResponseBytes < usizeMax := by decide
  refine ⟨?_, hbound⟩
  omega

variable {floatText base64}

theorem readRow_accounts {written usedBytes used' : Nat} {obj obj' : List (String × Value)}
    {cells : List Cell} (h : readRow floatText base64 usedBytes obj cells = .ok (obj', used'))
    (hcounted : written + cellsLen floatText obj ≤ usedBytes)
    (hbound : usedBytes ≤ maxResponseBytes) :
    written + cellsLen floatText obj' ≤ used' ∧ used' ≤ maxResponseBytes := by
  induction cells generalizing usedBytes obj with
  | nil =>
    cases h
    exact ⟨hcounted, hbound⟩
  | cons cell rest ih =>
    obtain ⟨value, -, h⟩ := bind_eq_ok.mp h
    obtain ⟨next, haccount, h⟩ := bind_eq_ok.mp h
    obtain ⟨hadded, hnext⟩ := account_value floatText haccount
    have hinsert := cellsLen_insertEntry floatText cell.name value obj
    exact ih h (by omega) hnext

theorem readRows_accounts {usedBytes : Nat} {out rows : List (List (String × Value))}
    {fetched : List Fetched} (h : readRows floatText base64 usedBytes out fetched = .ok rows)
    (hcounted : responseLen floatText out ≤ usedBytes) (hbound : usedBytes ≤ maxResponseBytes) :
    responseLen floatText rows ≤ maxResponseBytes := by
  induction fetched generalizing usedBytes out with
  | nil =>
    cases h
    exact hcounted.trans hbound
  | cons event rest ih =>
    cases event with
    | failed error => cases h
    | timedOut => cases h
    | row cells =>
      obtain ⟨⟨obj, next⟩, hrow, h⟩ := bind_eq_ok.mp h
      have hstart : responseLen floatText out + cellsLen floatText [] ≤ usedBytes := hcounted
      obtain ⟨hadded, hnext⟩ := readRow_accounts hrow hstart hbound
      exact ih h (by rw [responseLen_append]; exact hadded) hnext

theorem queryRows_accounts {upper : String → String} {fetch : List Char → Nat → List Fetched}
    {sql : String} {limit : Nat} {rows : List (List (String × Value))}
    (h : queryRows floatText base64 upper fetch sql limit = .ok rows) :
    responseLen floatText rows ≤ maxResponseBytes := by
  obtain ⟨⟨submitted, cap⟩, -, h⟩ := bind_eq_ok.mp h
  exact readRows_accounts h (Nat.le_refl 0) (Nat.zero_le _)

end Rows

/-- A text of zero characters. -/
def zeros (n : Nat) : String := String.ofList (List.replicate n '\x00')

theorem textLen_zeros (floatText : Rat → List UInt8) (n : Nat) :
    (Value.string (zeros n)).textLen floatText = n * 6 + 2 := by
  have hone : (Json.escaped '\x00').length = 6 := rfl
  rw [Json.textLen_string, Json.escapedLen, Json.escapedText, zeros, String.toList_ofList,
    List.length_flatMap, List.map_replicate, List.sum_replicate, hone, smul_eq_mul]

theorem utf8ByteSize_zeros (n : Nat) : (zeros n).utf8ByteSize = n := by
  induction n with
  | zero => rfl
  | succ n ih =>
    have hstep : zeros (n + 1) = String.singleton '\x00' ++ zeros n := by
      rw [zeros, List.replicate_succ, String.ofList_cons]
      rfl
    have hone : Char.utf8Size '\x00' = 1 := by decide
    rw [hstep, String.utf8ByteSize_append, String.utf8ByteSize_singleton, ih, hone, Nat.add_comm]

end Postblox.Db.SqlQuery
