import Postblox.Ipc.Wire

/-!
# How long the text of a value is

`serde_json` writes compact text: no blanks, entries in their order, and in a string
only quotes, backslashes and control characters are escaped. The text of a float is the
only part left open.
-/
namespace Postblox.Json

/-! ## The text -/

/-- The byte of an ASCII character. -/
def byte (c : Char) : UInt8 := .ofNat c.toNat

def ascii (s : String) : List UInt8 := s.toList.map byte

def hexByte (n : Nat) : UInt8 := .ofNat (if n < 10 then 48 + n else 87 + n)

/-- A character within a string, as `format_escaped_str` writes it. -/
def escaped (c : Char) : List UInt8 :=
  match c with
  | '"' => ascii "\\\""
  | '\\' => ascii "\\\\"
  | '\x08' => ascii "\\b"
  | '\t' => ascii "\\t"
  | '\n' => ascii "\\n"
  | '\x0c' => ascii "\\f"
  | '\r' => ascii "\\r"
  | c =>
    if c.toNat < 0x20 then ascii "\\u00" ++ [hexByte (c.toNat / 16), hexByte (c.toNat % 16)]
    else String.utf8EncodeChar c

def escapedText (s : String) : List UInt8 := s.toList.flatMap escaped

def quoted (s : String) : List UInt8 := byte '"' :: escapedText s ++ [byte '"']

def decimal (n : Nat) : List UInt8 := (Nat.toDigits 10 n).map byte

section Text

variable (floatText : Rat → List UInt8)

mutual

/-- The compact text of a value. -/
def Value.text : Value → List UInt8
  | .null => ascii "null"
  | .bool true => ascii "true"
  | .bool false => ascii "false"
  | .number (.posInt n) => decimal n.toNat
  | .number (.negInt m) => byte '-' :: decimal (m.val + 1)
  | .number (.float x) => floatText x
  | .string s => quoted s
  | .array [] => ascii "[]"
  | .array (v :: rest) => byte '[' :: v.text ++ itemsText rest ++ [byte ']']
  | .object [] => ascii "\x7b\x7d"
  | .object ((key, v) :: rest) =>
    byte '\x7b' :: quoted key ++ byte ':' :: v.text ++ entriesText rest ++ [byte '\x7d']

/-- The items behind the first. -/
def itemsText : List Value → List UInt8
  | [] => []
  | v :: rest => byte ',' :: v.text ++ itemsText rest

def entriesText : List (String × Value) → List UInt8
  | [] => []
  | (key, v) :: rest => byte ',' :: quoted key ++ byte ':' :: v.text ++ entriesText rest

end

end Text

/-! ## Its length -/

/-- How long a string is between its quotes. -/
def escapedLen (s : String) : Nat := (escapedText s).length

def decimalLen (n : Nat) : Nat := (decimal n).length

theorem length_quoted (s : String) : (quoted s).length = escapedLen s + 2 := by
  simp [quoted, escapedLen]

theorem escapedLen_append (a b : String) : escapedLen (a ++ b) = escapedLen a + escapedLen b := by
  simp [escapedLen, escapedText]

theorem decimalLen_le {n : Nat} (h : n < 2 ^ 64) : decimalLen n ≤ 20 := by
  rw [decimalLen, decimal, List.length_map]
  exact Nat.toDigits_length 10 n 20 (by omega) (by omega)

section Length

variable (floatText : Rat → List UInt8)

def Value.textLen (v : Value) : Nat := (v.text floatText).length

/-- What the items of an array add to its text, each with a comma or a bracket. -/
def itemsLen (items : List Value) : Nat := (items.map fun v => v.textLen floatText + 1).sum

def entriesLen (entries : List (String × Value)) : Nat :=
  (entries.map fun e => escapedLen e.1 + e.2.textLen floatText + 4).sum

@[simp] theorem textLen_null : Value.null.textLen floatText = 4 := rfl

@[simp] theorem textLen_true : (Value.bool true).textLen floatText = 4 := rfl

@[simp] theorem textLen_false : (Value.bool false).textLen floatText = 5 := rfl

@[simp] theorem textLen_string (s : String) :
    (Value.string s).textLen floatText = escapedLen s + 2 := by
  rw [Value.textLen, Value.text, length_quoted]

@[simp] theorem textLen_posInt (n : UInt64) :
    (Value.number (.posInt n)).textLen floatText = decimalLen n.toNat := by
  rw [Value.textLen, Value.text, decimalLen]

@[simp] theorem itemsLen_nil : itemsLen floatText [] = 0 := rfl

@[simp] theorem itemsLen_cons (v : Value) (rest : List Value) :
    itemsLen floatText (v :: rest) = v.textLen floatText + 1 + itemsLen floatText rest := by
  simp [itemsLen]

@[simp] theorem entriesLen_nil : entriesLen floatText [] = 0 := rfl

@[simp] theorem entriesLen_cons (key : String) (v : Value) (rest : List (String × Value)) :
    entriesLen floatText ((key, v) :: rest) =
      escapedLen key + v.textLen floatText + 4 + entriesLen floatText rest := by
  simp [entriesLen]

theorem length_itemsText (items : List Value) :
    (itemsText floatText items).length = itemsLen floatText items := by
  induction items with
  | nil => simp [itemsText]
  | cons v rest ih =>
    simp only [itemsText, List.cons_append, List.length_cons, List.length_append, ih, itemsLen_cons,
      Value.textLen]
    omega

theorem length_entriesText (entries : List (String × Value)) :
    (entriesText floatText entries).length = entriesLen floatText entries := by
  induction entries with
  | nil => simp [entriesText]
  | cons e rest ih =>
    obtain ⟨key, v⟩ := e
    simp only [entriesText, List.cons_append, List.length_cons, List.length_append, ih,
      entriesLen_cons, Value.textLen, length_quoted]
    omega

theorem textLen_array (items : List Value) :
    (Value.array items).textLen floatText = max 1 (itemsLen floatText items) + 1 := by
  cases items with
  | nil => rfl
  | cons v rest =>
    simp only [Value.textLen, Value.text, List.cons_append, List.length_cons, List.length_append,
      length_itemsText, itemsLen_cons, List.length_nil]
    omega

theorem textLen_object (entries : List (String × Value)) :
    (Value.object entries).textLen floatText = max 1 (entriesLen floatText entries) + 1 := by
  cases entries with
  | nil => rfl
  | cons e rest =>
    obtain ⟨key, v⟩ := e
    simp only [Value.textLen, Value.text, List.cons_append, List.length_cons, List.length_append,
      length_entriesText, entriesLen_cons, List.length_nil, length_quoted]
    omega

end Length

end Postblox.Json

namespace Postblox.Ipc

open Json (Value Data escapedLen decimalLen)

/-- `to_vec` and `to_writer` write compact text. -/
def JsonCodec.Compact (codec : JsonCodec) (floatText : Rat → List UInt8) : Prop :=
  ∀ v, codec.toVec v = v.text floatText

/-! ## Frames -/

/-- An `i64` field. -/
def i64 (n : Int64) : Value :=
  match n.toInt with
  | .ofNat k => .number (.posInt (.ofNat k))
  | .negSucc m => .number (.negInt (.ofNat (2 ^ 63) m))

def i64Len (n : Int64) : Nat :=
  if 0 ≤ n.toInt then decimalLen n.toInt.natAbs else decimalLen n.toInt.natAbs + 1

theorem i64Len_le (n : Int64) : i64Len n ≤ 21 := by
  have hlow := n.le_toInt
  have hhigh := n.toInt_lt
  have hdigits : decimalLen n.toInt.natAbs ≤ 20 := Json.decimalLen_le (by omega)
  unfold i64Len
  split_ifs <;> omega

section Length

variable (floatText : Rat → List UInt8)

theorem textLen_u64 (n : UInt64) : (u64 n).textLen floatText = decimalLen n.toNat :=
  Json.textLen_posInt floatText n

theorem textLen_i64 (n : Int64) : (i64 n).textLen floatText = i64Len n := by
  have hlow := n.le_toInt
  have hhigh := n.toInt_lt
  unfold i64 i64Len
  split
  · next k hk =>
    rw [hk, Int.ofNat_eq_natCast] at hhigh ⊢
    have hsmall : k % 2 ^ 64 = k := by omega
    rw [Json.textLen_posInt, if_pos (Int.natCast_nonneg k), UInt64.toNat_ofNat', hsmall,
      Int.natAbs_natCast]
  · next m hm =>
    rw [hm] at hlow ⊢
    have hsmall : m % 9223372036854775808 = m := by omega
    simp [Value.textLen, Value.text, decimalLen, hsmall]

theorem textLen_success {id : UInt64} {data : Data} (h : data.val ≠ .null) :
    (Response.success id data).toJson.textLen floatText =
      25 + decimalLen id.toNat + data.val.textLen floatText := by
  have hid : escapedLen "id" = 2 := rfl
  have hok : escapedLen "ok" = 2 := rfl
  have hdata : escapedLen "data" = 4 := rfl
  simp [Response.success, Response.toJson, Response.entries, h, Json.textLen_object, textLen_u64,
    hid, hok, hdata]
  omega

theorem textLen_success_null (id : UInt64) :
    (Response.success id .null).toJson.textLen floatText = 17 + decimalLen id.toNat := by
  have hid : escapedLen "id" = 2 := rfl
  have hok : escapedLen "ok" = 2 := rfl
  simp [Response.success, Response.toJson, Response.entries, Json.Data.null, Json.textLen_object,
    textLen_u64, hid, hok]
  omega

theorem textLen_failure (id : UInt64) (e : RpcError) :
    (Response.failure id e).toJson.textLen floatText =
      51 + decimalLen id.toNat + escapedLen e.code + escapedLen e.message := by
  have hid : escapedLen "id" = 2 := rfl
  have hok : escapedLen "ok" = 2 := rfl
  have herror : escapedLen "error" = 5 := rfl
  have hcode : escapedLen "code" = 4 := rfl
  have hmessage : escapedLen "message" = 7 := rfl
  simp [Response.failure, Response.toJson, Response.entries, Json.Data.null, Json.textLen_object,
    textLen_u64, RpcError.toJson, hid, hok, herror, hcode, hmessage]
  omega

theorem textLen_event (e : EventOut) :
    e.toJson.textLen floatText =
      27 + decimalLen e.sub.toNat + escapedLen e.topic.asStr + e.data.val.textLen floatText := by
  have hsub : escapedLen "sub" = 3 := rfl
  have htopic : escapedLen "topic" = 5 := rfl
  have hdata : escapedLen "data" = 4 := rfl
  simp [EventOut.toJson, Json.textLen_object, textLen_u64, hsub, htopic, hdata]
  omega

end Length

end Postblox.Ipc
