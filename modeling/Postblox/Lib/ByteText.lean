import Mathlib

/-!
# Text cut at byte offsets

A text is a list of characters, each as wide as its UTF-8 encoding. A byte offset is a
place to cut only where no character straddles it; the offset of the `n`-th character is
one.
-/
namespace Postblox.Lib

/-- The length of the encoding. -/
def byteLength (text : List Char) : Nat := (text.map Char.utf8Size).sum

/-- The offset of the `n`-th character, or the length of a shorter text. -/
def byteOffset (text : List Char) (n : Nat) : Nat := byteLength (text.take n)

/-- The two sides of an offset; `none` if it is inside a character or past the end. -/
def cutAtByte : Nat → List Char → Option (List Char × List Char)
  | 0, text => some ([], text)
  | _ + 1, [] => none
  | n + 1, c :: rest =>
    if c.utf8Size ≤ n + 1 then
      (cutAtByte (n + 1 - c.utf8Size) rest).map fun sides => (c :: sides.1, sides.2)
    else none

/-- The characters between two offsets; `none` if they are no places to cut, or crossed. -/
def byteSlice (first last : Nat) (text : List Char) : Option (List Char) :=
  if last < first then none
  else (cutAtByte first text).bind fun sides => (cutAtByte (last - first) sides.2).map (·.1)

theorem byteOffset_cons (c : Char) (text : List Char) (n : Nat) :
    byteOffset (c :: text) (n + 1) = c.utf8Size + byteOffset text n := by
  rw [byteOffset, byteOffset, byteLength, byteLength, List.take_succ_cons, List.map_cons,
    List.sum_cons]

/-- Character offsets are places to cut. -/
theorem cutAtByte_byteOffset (text : List Char) (n : Nat) :
    cutAtByte (byteOffset text n) text = some (text.take n, text.drop n) := by
  induction text generalizing n with
  | nil =>
    rw [byteOffset, List.take_nil, List.drop_nil]
    rfl
  | cons c text ih =>
    cases n with
    | zero => rfl
    | succ n =>
      have hpos : 0 < c.utf8Size := Char.utf8Size_pos c
      obtain ⟨k, hk⟩ : ∃ k, byteOffset (c :: text) (n + 1) = k + 1 := by
        rw [byteOffset_cons]
        exact ⟨c.utf8Size + byteOffset text n - 1, by omega⟩
      rw [hk, cutAtByte, ← hk, byteOffset_cons, if_pos (Nat.le_add_right _ _),
        Nat.add_sub_cancel_left, ih]
      rfl

theorem byteLength_append (a b : List Char) : byteLength (a ++ b) = byteLength a + byteLength b := by
  rw [byteLength, List.map_append, List.sum_append]
  rfl

theorem byteOffset_append (a b : List Char) : byteOffset (a ++ b) a.length = byteLength a := by
  rw [byteOffset, List.take_left]

theorem cutAtByte_append (a b : List Char) : cutAtByte (byteLength a) (a ++ b) = some (a, b) := by
  have h := cutAtByte_byteOffset (a ++ b) a.length
  rwa [byteOffset_append, List.take_left, List.drop_left] at h

theorem byteSlice_append (a b c : List Char) :
    byteSlice (byteLength a) (byteLength a + byteLength b) (a ++ (b ++ c)) = some b := by
  rw [byteSlice, if_neg (by omega), cutAtByte_append, Option.bind_some, Nat.add_sub_cancel_left,
    cutAtByte_append]
  rfl

end Postblox.Lib
