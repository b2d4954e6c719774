import Postblox.Lib.LinePlaces
import Postblox.Lib.Utf8Prefix

/-!
# Percent-encoded pairs

A byte that is not unreserved is written as `%` and two hexadecimal digits, so a value has
neither of the characters that separate pairs, and a query of such pairs is cut where they
were joined.
-/
namespace Postblox.Lib.Percent

/-- Letters, digits, `-`, `.`, `_` and `~`. -/
def unreserved (n : Nat) : Bool :=
  65 ≤ n && n ≤ 90 || 97 ≤ n && n ≤ 122 || 48 ≤ n && n ≤ 57 || n = 45 || n = 46 || n = 95 || n = 126

def hexDigit (n : Nat) : Char := if n < 10 then Char.ofNat (48 + n) else Char.ofNat (55 + n)

/-- Either case, as a reader takes them. -/
def hexValue (c : Char) : Option Nat :=
  let n := c.toNat
  if 48 ≤ n ∧ n ≤ 57 then some (n - 48)
  else if 65 ≤ n ∧ n ≤ 70 then some (n - 55)
  else if 97 ≤ n ∧ n ≤ 102 then some (n - 87)
  else none

def encodeByte (b : UInt8) : List Char :=
  if unreserved b.toNat then [Char.ofNat b.toNat]
  else ['%', hexDigit (b.toNat / 16), hexDigit (b.toNat % 16)]

def encode (bytes : List UInt8) : List Char := bytes.flatMap encodeByte

/-- The bytes a text stands for; `none` if a `%` is not followed by two digits. -/
def decode : List Char → Option (List UInt8)
  | [] => some []
  | c :: rest =>
    if c = '%' then
      match rest with
      | high :: low :: rest => do
        let h ← hexValue high
        let l ← hexValue low
        let bytes ← decode rest
        return UInt8.ofNat (16 * h + l) :: bytes
      | _ => none
    else (decode rest).map (String.utf8EncodeChar c ++ ·)

/-- A text of allowed characters and of `%` with two hexadecimal digits. -/
inductive Escaped (allowed : Char → Prop) : List Char → Prop where
  | nil : Escaped allowed []
  | plain {c : Char} {rest : List Char} (hc : allowed c) (hrest : Escaped allowed rest) :
      Escaped allowed (c :: rest)
  | byte {high low : Char} {rest : List Char} (hhigh : (hexValue high).isSome = true)
      (hlow : (hexValue low).isSome = true) (hrest : Escaped allowed rest) :
      Escaped allowed ('%' :: high :: low :: rest)

/-! ## One byte -/

theorem hexDigit_spec : ∀ n : Fin 16, hexValue (hexDigit n) = some n.val := by decide

theorem hexValue_hexDigit {n : Nat} (h : n < 16) : hexValue (hexDigit n) = some n :=
  hexDigit_spec ⟨n, h⟩

theorem unreserved_lt {n : Nat} (h : unreserved n = true) : n < 128 := by
  simp only [unreserved, Bool.or_eq_true, Bool.and_eq_true, decide_eq_true_eq] at h
  omega

theorem unreserved_char {n : Nat} (h : unreserved n = true) : (Char.ofNat n).toNat = n := by
  have hlt := unreserved_lt h
  have hvalid : n.isValidChar := .inl (by omega)
  rw [Char.ofNat, dif_pos hvalid]
  rfl

/-- No unreserved character separates pairs or begins an escape. -/
theorem unreserved_ne {n : Nat} (h : unreserved n = true) {c : Char}
    (hc : unreserved c.toNat = false) : Char.ofNat n ≠ c := by
  intro heq
  rw [← heq, unreserved_char h, h] at hc
  cases hc

theorem utf8EncodeChar_unreserved {n : Nat} (h : unreserved n = true) :
    String.utf8EncodeChar (Char.ofNat n) = [UInt8.ofNat n] := by
  have hval : (Char.ofNat n).val.toNat = n := unreserved_char h
  have hlt := unreserved_lt h
  unfold String.utf8EncodeChar
  dsimp only
  rw [hval, if_pos (by omega)]

theorem decode_encodeByte (b : UInt8) (rest : List Char) :
    decode (encodeByte b ++ rest) = (decode rest).map (b :: ·) := by
  unfold encodeByte
  split_ifs with h
  · show decode (Char.ofNat b.toNat :: rest) = _
    have hne : Char.ofNat b.toNat ≠ '%' := unreserved_ne h (by decide)
    rw [decode.eq_def]
    simp [hne, utf8EncodeChar_unreserved h]
  · have hbyte := b.toNat_lt
    have hvalue : UInt8.ofNat (16 * (b.toNat / 16) + b.toNat % 16) = b := by
      rw [Nat.div_add_mod]
      exact UInt8.ofNat_toNat
    show decode ('%' :: hexDigit (b.toNat / 16) :: hexDigit (b.toNat % 16) :: rest) = _
    rw [decode.eq_def]
    simp only [if_pos, hexValue_hexDigit (by omega : b.toNat / 16 < 16),
      hexValue_hexDigit (by omega : b.toNat % 16 < 16)]
    cases decode rest with
    | none => rfl
    | some bytes => exact congrArg (fun first => some (first :: bytes)) hvalue

/-- Decoding gives back what was encoded. -/
theorem decode_encode (bytes : List UInt8) : decode (encode bytes) = some bytes := by
  induction bytes with
  | nil => rfl
  | cons b bytes ih =>
    rw [encode, List.flatMap_cons, decode_encodeByte, ← encode, ih]
    rfl

/-! ## What is in an encoded text -/

theorem Escaped.append {allowed : Char → Prop} {s t : List Char} (hs : Escaped allowed s)
    (ht : Escaped allowed t) : Escaped allowed (s ++ t) := by
  induction hs with
  | nil => exact ht
  | plain hc _ ih => exact .plain hc ih
  | byte hhigh hlow _ ih => exact .byte hhigh hlow ih

theorem escaped_encode {allowed : Char → Prop}
    (hallowed : ∀ n, unreserved n = true → allowed (Char.ofNat n)) (bytes : List UInt8) :
    Escaped allowed (encode bytes) := by
  induction bytes with
  | nil => exact .nil
  | cons b bytes ih =>
    have hbyte := b.toNat_lt
    refine Escaped.append ?_ ih
    unfold encodeByte
    split_ifs with h
    · exact .plain (hallowed b.toNat h) .nil
    · refine .byte ?_ ?_ .nil
      · rw [hexValue_hexDigit (by omega)]
        rfl
      · rw [hexValue_hexDigit (by omega)]
        rfl

theorem hexDigit_ne_separator : ∀ n : Fin 16, hexDigit n ≠ '=' ∧ hexDigit n ≠ '&' := by decide

/-- An encoded text has no separator. -/
theorem not_mem_encode {c : Char} (hc : c = '=' ∨ c = '&') (bytes : List UInt8) :
    c ∉ encode bytes := by
  intro hmem
  obtain ⟨b, -, hmem⟩ := List.mem_flatMap.mp hmem
  have hbyte := b.toNat_lt
  have hreserved : unreserved c.toNat = false := by
    rcases hc with rfl | rfl <;> decide
  unfold encodeByte at hmem
  split_ifs at hmem with h
  · exact unreserved_ne h hreserved (List.mem_singleton.mp hmem).symm
  · have hhigh := hexDigit_ne_separator ⟨b.toNat / 16, by omega⟩
    have hlow := hexDigit_ne_separator ⟨b.toNat % 16, by omega⟩
    simp only [List.mem_cons, List.not_mem_nil, or_false] at hmem
    rcases hmem with rfl | rfl | rfl
    · rcases hc with h | h <;> cases h
    · exact hc.elim hhigh.1 hhigh.2
    · exact hc.elim hlow.1 hlow.2

/-! ## Queries -/

/-- A key and its value. -/
def writePair (pair : List Char × List Char) : List Char :=
  encode (encodeChars pair.1) ++ '=' :: encode (encodeChars pair.2)

def writeQuery (pairs : List (List Char × List Char)) : List Char :=
  unlines '&' (pairs.map writePair)

/-- The text that encoded bytes stand for; `none` if they are not UTF-8. -/
def readText (s : List Char) : Option (List Char) :=
  (decode s).bind fun bytes =>
    let text := decodeValid bytes.length bytes
    if encodeChars text = bytes then some text else none

/-- What is before the first `=` and what is behind it. -/
def readPair (s : List Char) : Option (List Char × List Char) := do
  let key ← readText (s.takeWhile (· ≠ '='))
  let value ← readText ((s.dropWhile (· ≠ '=')).drop 1)
  return (key, value)

/-- The pairs of a query, cut at each `&`. -/
def readQuery (s : List Char) : Option (List (List Char × List Char)) :=
  (s.splitOn '&').mapM readPair

theorem readText_encode (text : List Char) : readText (encode (encodeChars text)) = some text := by
  have hfuel : text.length ≤ (encodeChars text).length := by
    rw [length_encodeChars]
    exact length_le_byteLength text
  have hdecode := decodeValid_encode text decodeFirst_nil hfuel
  rw [List.append_nil] at hdecode
  rw [readText, decode_encode, Option.bind_some]
  dsimp only
  rw [hdecode, if_pos rfl]

theorem readPair_writePair (pair : List Char × List Char) : readPair (writePair pair) = some pair := by
  have hkey : ∀ c ∈ encode (encodeChars pair.1), decide (c ≠ '=') = true := by
    intro c hc
    have hne : c ≠ '=' := fun heq => not_mem_encode (.inl rfl) _ (heq ▸ hc)
    exact decide_eq_true hne
  have htake : (writePair pair).takeWhile (· ≠ '=') = encode (encodeChars pair.1) := by
    rw [writePair, List.takeWhile_append_of_pos hkey]
    simp
  have hdrop : (writePair pair).dropWhile (· ≠ '=') = '=' :: encode (encodeChars pair.2) := by
    rw [writePair, List.dropWhile_append_of_pos hkey]
    simp
  rw [readPair, htake, hdrop, List.drop_one, List.tail_cons, readText_encode, readText_encode]
  rfl

theorem not_mem_writePair (pair : List Char × List Char) : '&' ∉ writePair pair := by
  intro h
  rcases List.mem_append.mp h with h | h
  · exact not_mem_encode (.inr rfl) _ h
  rcases List.mem_cons.mp h with h | h
  · cases h
  · exact not_mem_encode (.inr rfl) _ h

/-- A query of pairs is read back as those pairs in their order. -/
theorem readQuery_writeQuery {pairs : List (List Char × List Char)} (hne : pairs ≠ []) :
    readQuery (writeQuery pairs) = some pairs := by
  have hlines : ∀ line ∈ pairs.map writePair, '&' ∉ line := by
    intro line hline
    obtain ⟨pair, -, rfl⟩ := List.mem_map.mp hline
    exact not_mem_writePair pair
  rw [readQuery, writeQuery, splitOn_unlines hlines (by simpa using hne)]
  clear hlines hne
  induction pairs with
  | nil => rfl
  | cons pair pairs ih =>
    rw [List.map_cons, List.mapM_cons, readPair_writePair, ih]
    rfl

/-- What a query of pairs is made of. -/
def QueryChar (c : Char) : Prop := unreserved c.toNat = true ∨ c = '=' ∨ c = '&'

theorem escaped_writeQuery (pairs : List (List Char × List Char)) :
    Escaped QueryChar (writeQuery pairs) := by
  have hencode : ∀ bytes, Escaped QueryChar (encode bytes) := fun bytes =>
    escaped_encode (fun n hn => .inl (by rw [unreserved_char hn]; exact hn)) bytes
  have hpair : ∀ pair, Escaped QueryChar (writePair pair) := fun pair =>
    (hencode _).append (.plain (.inr (.inl rfl)) (hencode _))
  induction pairs with
  | nil => exact .nil
  | cons pair pairs ih =>
    cases pairs with
    | nil =>
      rw [writeQuery, List.map_singleton, unlines, List.intercalate_singleton]
      exact hpair pair
    | cons next rest =>
      rw [writeQuery, List.map_cons, List.map_cons, unlines_cons]
      exact (hpair pair).append (.plain (.inr (.inr rfl)) ih)

end Postblox.Lib.Percent
