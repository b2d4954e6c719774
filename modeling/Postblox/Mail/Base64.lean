import Postblox.Daemon.AnswerSizes

/-!
# Base64 read back

The `base64` crate is a parameter with what it documents: the length and alphabet of its
text, and that decoding gives the bytes back.
-/
namespace Postblox.Mail

open Daemon.Fetch (Base64 base64Alphabet base64Chars sextet documentedBase64
  documentedBase64_standard)

/-- `STANDARD`, by its documentation. -/
structure Base64Crate where
  encode : Base64
  standard : encode.Standard
  decode : String → Option (List UInt8)
  decode_encode : ∀ bytes, decode (encode bytes) = some bytes

namespace Base64

/-- The six bits a character stands for. -/
def sextetValue (c : Char) : Nat := base64Alphabet.toList.idxOf c

def decodeChars : List Char → Option (List UInt8)
  | [] => some []
  | [a, b, '=', '='] => some [.ofNat (sextetValue a * 4 + sextetValue b / 16)]
  | [a, b, c, '='] =>
    some [.ofNat (sextetValue a * 4 + sextetValue b / 16),
      .ofNat (sextetValue b % 16 * 16 + sextetValue c / 4)]
  | a :: b :: c :: d :: rest =>
    (decodeChars rest).map fun bytes =>
      .ofNat (sextetValue a * 4 + sextetValue b / 16) ::
        .ofNat (sextetValue b % 16 * 16 + sextetValue c / 4) ::
        .ofNat (sextetValue c % 4 * 64 + sextetValue d) :: bytes
  | _ => none

theorem sextet_fin : ∀ n : Fin 64, sextetValue (sextet n) = n.val ∧ sextet n ≠ '=' := by
  decide +kernel

theorem sextetValue_sextet (n : Nat) : sextetValue (sextet n) = n % 64 := by
  have h := (sextet_fin ⟨n % 64, Nat.mod_lt n (by omega)⟩).1
  rwa [sextet, Nat.mod_mod, ← sextet] at h

theorem sextet_ne_pad (n : Nat) : sextet n ≠ '=' := by
  have h := (sextet_fin ⟨n % 64, Nat.mod_lt n (by omega)⟩).2
  rwa [sextet, Nat.mod_mod, ← sextet] at h

theorem ofNat_eq {n : Nat} {b : UInt8} (h : n = b.toNat) : UInt8.ofNat n = b := by
  rw [h, UInt8.ofNat_toNat]

theorem decodeChars_base64Chars (bytes : List UInt8) :
    decodeChars (base64Chars bytes) = some bytes := by
  fun_induction base64Chars bytes with
  | case1 => rfl
  | case2 a =>
    have ha := a.toNat_lt
    rw [decodeChars, sextetValue_sextet, sextetValue_sextet, ofNat_eq]
    omega
  | case3 a b =>
    have ha := a.toNat_lt
    have hb := b.toNat_lt
    rw [decodeChars]
    · rw [sextetValue_sextet, sextetValue_sextet, sextetValue_sextet, ofNat_eq (b := a),
        ofNat_eq (b := b)]
      · omega
      · omega
    · exact sextet_ne_pad _
  | case4 a b c rest ih =>
    have ha := a.toNat_lt
    have hb := b.toNat_lt
    have hc := c.toNat_lt
    rw [decodeChars, ih, Option.map_some, sextetValue_sextet, sextetValue_sextet,
      sextetValue_sextet, sextetValue_sextet, ofNat_eq (b := a), ofNat_eq (b := b), ofNat_eq (b := c)]
    · omega
    · omega
    · omega
    · exact fun _ h => absurd h (sextet_ne_pad _)
    · exact fun h => absurd h (sextet_ne_pad _)

/-- The standard alphabet with padding, as documented. -/
def documented : Base64Crate where
  encode := documentedBase64
  standard := documentedBase64_standard
  decode s := decodeChars s.toList
  decode_encode bytes := by
    rw [documentedBase64, String.toList_ofList, decodeChars_base64Chars]

end Base64

end Postblox.Mail
