import Mathlib

/-!
# A byte stream in chunks

What a reader hands out, cut in chunks of any size. A read takes a part of the first
chunk and leaves the rest of it; `readExact` fills a buffer over as many reads as that
takes, and what it has read depends on the bytes alone.
-/
namespace Postblox.Lib

/-- What one read can return; only at the end of the stream is that empty. -/
abbrev Chunk := { bytes : List UInt8 // bytes ≠ [] }

/-- All bytes of the chunks. -/
def joined (chunks : List Chunk) : List UInt8 := (chunks.map Subtype.val).flatten

/-- The first `n` bytes of a chunk are taken; the rest of it stays. -/
def consume (n : Nat) (available : Chunk) (rest : List Chunk) : List Chunk :=
  if h : available.val.drop n = [] then rest else ⟨available.val.drop n, h⟩ :: rest

@[simp] theorem joined_nil : joined [] = [] := rfl

@[simp] theorem joined_cons (available : Chunk) (rest : List Chunk) :
    joined (available :: rest) = available.val ++ joined rest := rfl

theorem joined_eq_nil {chunks : List Chunk} : joined chunks = [] ↔ chunks = [] := by
  cases chunks with
  | nil => simp
  | cons available rest => simp [available.property]

theorem joined_consume (n : Nat) (available : Chunk) (rest : List Chunk) :
    joined (consume n available rest) = available.val.drop n ++ joined rest := by
  unfold consume
  split_ifs with h
  · rw [h, List.nil_append]
  · rfl

/-! ## Filling a buffer -/

/-- `bytes` written over the buffer from a position on. -/
def overwrite (buf : List UInt8) (position : Nat) (bytes : List UInt8) : List UInt8 :=
  buf.take position ++ bytes ++ buf.drop (position + bytes.length)

/-- Fills the buffer from position `filled` on; `none` when the stream ends first. -/
def readExact : List UInt8 → Nat → List Chunk → Option (List UInt8) × List Chunk
  | buf, filled, [] => (if buf.length ≤ filled then some buf else none, [])
  | buf, filled, available :: rest =>
    if buf.length ≤ filled then (some buf, available :: rest)
    else if available.val.length ≤ buf.length - filled then
      readExact (overwrite buf filled available.val) (filled + available.val.length) rest
    else
      (some (overwrite buf filled (available.val.take (buf.length - filled))),
        consume (buf.length - filled) available rest)

theorem length_overwrite {buf bytes : List UInt8} {position : Nat}
    (h : position + bytes.length ≤ buf.length) :
    (overwrite buf position bytes).length = buf.length := by
  simp only [overwrite, List.length_append, List.length_take, List.length_drop]
  omega

theorem take_overwrite {buf bytes : List UInt8} {position : Nat}
    (h : position + bytes.length ≤ buf.length) :
    (overwrite buf position bytes).take (position + bytes.length) = buf.take position ++ bytes := by
  have hlength : (buf.take position ++ bytes).length = position + bytes.length := by
    rw [List.length_append, List.length_take]
    omega
  rw [overwrite, ← hlength, List.take_left]

/-- With enough bytes ahead the buffer holds them, whatever it held before. -/
theorem readExact_spec {buf : List UInt8} {filled : Nat} {chunks : List Chunk}
    (hfilled : filled ≤ buf.length) (h : buf.length - filled ≤ (joined chunks).length) :
    ∃ left, readExact buf filled chunks =
        (some (buf.take filled ++ (joined chunks).take (buf.length - filled)), left) ∧
      joined left = (joined chunks).drop (buf.length - filled) := by
  induction chunks generalizing buf filled with
  | nil =>
    have hfull : buf.length ≤ filled := by simpa [Nat.sub_eq_zero_iff_le] using h
    refine ⟨[], ?_, by simp⟩
    rw [readExact, if_pos hfull, List.take_of_length_le hfull]
    simp
  | cons available rest ih =>
    rw [readExact]
    by_cases hfull : buf.length ≤ filled
    · have hnone : buf.length - filled = 0 := by omega
      refine ⟨available :: rest, ?_, by rw [hnone, List.drop_zero]⟩
      rw [if_pos hfull, hnone, List.take_zero, List.append_nil, List.take_of_length_le hfull]
    · rw [if_neg hfull]
      by_cases hwhole : available.val.length ≤ buf.length - filled
      · rw [if_pos hwhole]
        have hbound : filled + available.val.length ≤ buf.length := by omega
        have hsame := length_overwrite hbound
        rw [joined_cons, List.length_append] at h
        obtain ⟨left, hread, hleft⟩ := @ih (overwrite buf filled available.val)
          (filled + available.val.length) (by omega) (by omega)
        have hremaining : buf.length - filled =
            available.val.length + (buf.length - (filled + available.val.length)) := by omega
        refine ⟨left, ?_, ?_⟩
        · rw [hread, take_overwrite hbound, hsame, joined_cons, hremaining,
            List.take_length_add_append, List.append_assoc]
        · rw [hleft, hsame, joined_cons, hremaining, List.drop_length_add_append]
      · rw [if_neg hwhole]
        have hpart : (available.val.take (buf.length - filled)).length = buf.length - filled := by
          rw [List.length_take]
          omega
        refine ⟨consume (buf.length - filled) available rest, ?_, ?_⟩
        · rw [joined_cons, List.take_append_of_le_length (by omega), overwrite, hpart,
            List.drop_of_length_le (by omega), List.append_nil]
        · rw [joined_consume, joined_cons, List.drop_append_of_le_length (by omega)]

end Postblox.Lib
