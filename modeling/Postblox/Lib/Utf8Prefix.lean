import Postblox.Lib.ByteText

/-!
# Decoding a prefix of a text

Bytes cut off at an arbitrary offset need not end where a character ends. What decodes of
them is the characters that lie before the cut as a whole: no encoding of a character is a
proper prefix of another one.
-/
namespace Postblox.Lib

def encodeChars (text : List Char) : List UInt8 := text.flatMap String.utf8EncodeChar

/-- The character the bytes begin with. -/
def decodeFirst (bytes : List UInt8) : Option Char := bytes.toByteArray.utf8DecodeChar? 0

/-- The characters up to the first byte that does not continue a text. -/
def decodeValid : Nat → List UInt8 → List Char
  | 0, _ => []
  | fuel + 1, bytes =>
    match decodeFirst bytes with
    | none => []
    | some c => c :: decodeValid fuel (bytes.drop c.utf8Size)

/-- `p` is the longest piece from the start of `text` that takes no more than `limit` bytes. -/
structure LongestFitting (limit : Nat) (text p : List Char) : Prop where
  isPrefix : p <+: text
  fits : byteLength p ≤ limit
  longest : ∀ q, q <+: text → byteLength q ≤ limit → q <+: p

/-! ## Encoding -/

@[simp] theorem encodeChars_nil : encodeChars [] = [] := rfl

theorem encodeChars_cons (c : Char) (text : List Char) :
    encodeChars (c :: text) = String.utf8EncodeChar c ++ encodeChars text := rfl

theorem byteLength_cons (c : Char) (text : List Char) :
    byteLength (c :: text) = c.utf8Size + byteLength text := rfl

theorem length_encodeChars (text : List Char) : (encodeChars text).length = byteLength text := by
  induction text with
  | nil => rfl
  | cons c text ih =>
    rw [encodeChars_cons, List.length_append, String.length_utf8EncodeChar, ih, byteLength_cons]

theorem length_le_byteLength (text : List Char) : text.length ≤ byteLength text := by
  induction text with
  | nil => exact Nat.le_refl 0
  | cons c text ih =>
    have hpos : 0 < c.utf8Size := Char.utf8Size_pos c
    rw [List.length_cons, byteLength_cons]
    omega

/-! ## Decoding -/

theorem decodeFirst_nil : decodeFirst [] = none := by decide

theorem decodeFirst_encode (c : Char) (rest : List UInt8) :
    decodeFirst (String.utf8EncodeChar c ++ rest) = some c := by
  rw [decodeFirst, List.toByteArray_append, ByteArray.utf8DecodeChar?_utf8EncodeChar_append]

theorem eq_of_decodeFirst {bytes : List UInt8} {c : Char} (h : decodeFirst bytes = some c) :
    bytes = String.utf8EncodeChar c ++ bytes.drop c.utf8Size := by
  obtain ⟨rest, hrest⟩ := ByteArray.exists_of_utf8DecodeChar?_eq_some h
  have hbytes : bytes = String.utf8EncodeChar c ++ rest.data.toList := by
    have hdata := congrArg (fun b : ByteArray => b.data.toList) hrest
    simpa using hdata
  rw [hbytes]
  rw [List.drop_left' (String.length_utf8EncodeChar c)]

/-- No encoding is a proper prefix of another one. -/
theorem decodeFirst_of_properPrefix {c : Char} {bytes missing : List UInt8}
    (h : bytes ++ missing = String.utf8EncodeChar c) (hmissing : missing ≠ []) :
    decodeFirst bytes = none := by
  cases hd : decodeFirst bytes with
  | none => rfl
  | some d =>
    have hbytes := eq_of_decodeFirst hd
    have hsame : some c = some d := by
      rw [← decodeFirst_encode c [], List.append_nil, ← h, hbytes, List.append_assoc,
        decodeFirst_encode]
    cases hsame
    have hlength := congrArg List.length h
    rw [hbytes, List.length_append, List.length_append] at hlength
    exact absurd (List.eq_nil_of_length_eq_zero (by omega)) hmissing

theorem decodeValid_encode (text : List Char) {rest : List UInt8}
    (hrest : decodeFirst rest = none) {fuel : Nat} (hfuel : text.length ≤ fuel) :
    decodeValid fuel (encodeChars text ++ rest) = text := by
  induction text generalizing fuel with
  | nil =>
    cases fuel with
    | zero => rfl
    | succ fuel => rw [encodeChars_nil, List.nil_append, decodeValid, hrest]
  | cons c text ih =>
    obtain ⟨n, rfl⟩ : ∃ n, fuel = n + 1 := ⟨fuel - 1, by rw [List.length_cons] at hfuel; omega⟩
    rw [encodeChars_cons, List.append_assoc, decodeValid, decodeFirst_encode]
    dsimp only
    rw [List.drop_left' (String.length_utf8EncodeChar c),
      ih (by rw [List.length_cons] at hfuel; omega)]

/-- What decodes is a prefix of the bytes. -/
theorem encode_decodeValid (fuel : Nat) (bytes : List UInt8) :
    encodeChars (decodeValid fuel bytes) <+: bytes := by
  induction fuel generalizing bytes with
  | zero => exact List.nil_prefix
  | succ fuel ih =>
    rw [decodeValid]
    cases hd : decodeFirst bytes with
    | none => exact List.nil_prefix
    | some c =>
      have hbytes := eq_of_decodeFirst hd
      dsimp only
      rw [encodeChars_cons]
      nth_rewrite 2 [hbytes]
      exact (List.prefix_append_right_inj _).mpr (ih _)

/-! ## A cut text -/

/-- A cut falls behind some character, with a part of the next one left over. -/
theorem exists_take_encodeChars (text : List Char) (n : Nat) :
    ∃ p rest, LongestFitting n text p ∧ (encodeChars text).take n = encodeChars p ++ rest ∧
      decodeFirst rest = none := by
  induction text generalizing n with
  | nil =>
    refine ⟨[], [], ⟨List.prefix_refl _, Nat.zero_le n, fun q hq _ => hq⟩, ?_, decodeFirst_nil⟩
    rw [encodeChars_nil, List.take_nil, List.append_nil]
  | cons c text ih =>
    by_cases hfits : c.utf8Size ≤ n
    · obtain ⟨p, rest, hp, htake, hrest⟩ := ih (n - c.utf8Size)
      refine ⟨c :: p, rest, ⟨?_, ?_, ?_⟩, ?_, hrest⟩
      · exact (List.prefix_cons_inj c).mpr hp.isPrefix
      · have hle := hp.fits
        rw [byteLength_cons]
        omega
      · intro q hq hle
        cases q with
        | nil => exact List.nil_prefix
        | cons d q =>
          obtain ⟨rfl, hq'⟩ := List.cons_prefix_cons.mp hq
          rw [byteLength_cons] at hle
          exact (List.prefix_cons_inj d).mpr (hp.longest q hq' (by omega))
      · rw [encodeChars_cons, List.take_append, String.length_utf8EncodeChar, htake,
          List.take_of_length_le (by rw [String.length_utf8EncodeChar]; exact hfits),
          encodeChars_cons, List.append_assoc]
    · have hlength : (String.utf8EncodeChar c).length = c.utf8Size :=
        String.length_utf8EncodeChar c
      refine ⟨[], (String.utf8EncodeChar c).take n, ⟨List.nil_prefix, Nat.zero_le n, ?_⟩, ?_, ?_⟩
      · intro q hq hle
        cases q with
        | nil => exact List.nil_prefix
        | cons d q =>
          obtain ⟨rfl, -⟩ := List.cons_prefix_cons.mp hq
          rw [byteLength_cons] at hle
          omega
      · rw [encodeChars_cons, List.take_append_of_le_length (by omega), encodeChars_nil,
          List.nil_append]
      · apply decodeFirst_of_properPrefix (List.take_append_drop n _)
        rw [ne_eq, List.drop_eq_nil_iff]
        omega

/-- What decodes of the first `n` bytes is the longest piece that fits them. -/
theorem decodeValid_take (text : List Char) (n : Nat) {fuel : Nat}
    (hfuel : ((encodeChars text).take n).length ≤ fuel) :
    LongestFitting n text (decodeValid fuel ((encodeChars text).take n)) := by
  obtain ⟨p, rest, hp, htake, hrest⟩ := exists_take_encodeChars text n
  rw [htake, List.length_append, length_encodeChars] at hfuel
  have hle := length_le_byteLength p
  rw [htake, decodeValid_encode p hrest (by omega)]
  exact hp

end Postblox.Lib
