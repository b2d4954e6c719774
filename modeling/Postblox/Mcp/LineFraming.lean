import Postblox.Lib.Chunks
import Postblox.Lib.Segments

/-!
# Lines of bounded length

`read_bounded_line` takes the next line from a buffered reader whose `fill_buf` hands
out the stream in chunks of any size. A line ends at its newline or at the end of the
stream; one that is too long is skipped up to there, however much of it is in the
buffer. What comes out depends on the bytes alone: the segments between newlines, each
judged by itself.
-/
namespace Postblox.Mcp.Stdio

open Lib (Chunk joined consume joined_nil joined_cons joined_consume segments firstSegment
  afterSegment)

def newline : UInt8 := 10

def carriageReturn : UInt8 := 13

/-- What is left to read: the chunks that `fill_buf` will return, and the error it
returns after them, if it does not come to the end of the stream. -/
structure Reader (ε : Type) where
  chunks : List Chunk
  failure : Option ε

inductive StdioFrame where
  | line (text : String)
  | oversized
  deriving DecidableEq

/-- An error of the stream, or a line that is not UTF-8 (`ErrorKind::InvalidData`). -/
inductive ReadError (ε : Type) where
  | stream (e : ε)
  | invalidData
  deriving DecidableEq

section Read

variable {ε : Type}

/-- `String::from_utf8`. -/
def fromUtf8 (bytes : List UInt8) : Option String := String.fromUTF8? ⟨bytes.toArray⟩

def stripCarriageReturn (line : List UInt8) : List UInt8 :=
  if line.getLast? = some carriageReturn then line.dropLast else line

def decodeStdioLine (line : List UInt8) : Except (ReadError ε) StdioFrame :=
  match fromUtf8 (stripCarriageReturn line) with
  | some text => .ok (.line text)
  | none => .error .invalidData

/-- The end of the chunks: an error, or the end of the stream. -/
def discardUntilNewline (failure : Option ε) : List Chunk → Except (ReadError ε) Unit × List Chunk
  | [] => match failure with
    | some e => (.error (.stream e), [])
    | none => (.ok (), [])
  | available :: rest =>
    match available.val.idxOf? newline with
    | some position => (.ok (), consume (position + 1) available rest)
    | none => discardUntilNewline failure rest

/-- The loop of `read_bounded_line`, with what it has collected of the line. -/
def readLoop (failure : Option ε) (maxLineBytes : Nat) :
    List UInt8 → List Chunk → Except (ReadError ε) (Option StdioFrame) × List Chunk
  | line, [] => match failure with
    | some e => (.error (.stream e), [])
    | none => if line.isEmpty then (.ok none, []) else ((decodeStdioLine line).map some, [])
  | line, available :: rest =>
    match available.val.idxOf? newline with
    | some position =>
      if maxLineBytes < line.length + position then
        (.ok (some .oversized), consume (position + 1) available rest)
      else
        ((decodeStdioLine (line ++ available.val.take position)).map some,
          consume (position + 1) available rest)
    | none =>
      if maxLineBytes < line.length + available.val.length then
        match discardUntilNewline failure rest with
        | (.ok (), left) => (.ok (some .oversized), left)
        | (.error e, left) => (.error e, left)
      else readLoop failure maxLineBytes (line ++ available.val) rest

def readBoundedLine (maxLineBytes : Nat) (r : Reader ε) :
    Except (ReadError ε) (Option StdioFrame) × Reader ε :=
  let (result, chunks) := readLoop r.failure maxLineBytes [] r.chunks
  (result, { r with chunks })

end Read

/-! ## What the bytes say -/

/-- The frame of a segment. -/
def frameOf {ε : Type} (maxLineBytes : Nat) (segment : List UInt8) :
    Except (ReadError ε) (Option StdioFrame) :=
  if maxLineBytes < segment.length then .ok (some .oversized)
  else (decodeStdioLine segment).map some

variable {ε : Type} {available : Chunk} {rest chunks : List Chunk} {line first : List UInt8}

/-- A chunk with a newline, cut there. -/
theorem cut_at_newline {position : Nat} (h : available.val.idxOf? newline = some position) :
    ∃ first tail, available.val = first ++ newline :: tail ∧ newline ∉ first ∧
      available.val.take position = first ∧ available.val.drop (position + 1) = tail ∧
      position = first.length := by
  have hmem : newline ∈ available.val := by
    rw [← List.isSome_idxOf?, h]
    rfl
  obtain ⟨first, tail, heq, hnot⟩ := List.eq_append_cons_of_mem hmem
  rw [heq, Lib.idxOf?_ended hnot] at h
  obtain rfl := Option.some.inj h
  refine ⟨first, tail, heq, hnot, ?_, ?_, rfl⟩
  · rw [heq, List.take_left]
  · rw [heq, List.drop_append]
    simp

theorem discardUntilNewline_ended (failure : Option ε) (h : newline ∈ joined chunks) :
    ∃ left, discardUntilNewline failure chunks = (.ok (), left) ∧
      joined left = afterSegment newline (joined chunks) := by
  induction chunks with
  | nil => cases h
  | cons available rest ih =>
    unfold discardUntilNewline
    cases hposition : available.val.idxOf? newline with
    | some position =>
      obtain ⟨first, tail, heq, hnot, -, hdrop, -⟩ := cut_at_newline hposition
      refine ⟨_, rfl, ?_⟩
      rw [joined_consume, hdrop, joined_cons, heq, List.append_assoc, List.cons_append,
        Lib.afterSegment_ended hnot]
    | none =>
      have hnot := List.idxOf?_eq_none_iff.mp hposition
      have hrest : newline ∈ joined rest := by
        rw [joined_cons, List.mem_append] at h
        exact h.resolve_left hnot
      obtain ⟨left, hleft, hjoined⟩ := ih hrest
      exact ⟨left, hleft, by rw [hjoined, joined_cons, Lib.afterSegment_append hnot]⟩

theorem discardUntilNewline_unended (failure : Option ε) (h : newline ∉ joined chunks) :
    discardUntilNewline failure chunks =
      (match failure with | some e => .error (.stream e) | none => .ok (), []) := by
  induction chunks with
  | nil => cases failure <;> rfl
  | cons available rest ih =>
    rw [joined_cons, List.mem_append, not_or] at h
    unfold discardUntilNewline
    rw [List.idxOf?_eq_none_iff.mpr h.1]
    exact ih h.2

/-- The newline is in the chunk. -/
theorem readLoop_at_newline (failure : Option ε) (maxLineBytes : Nat) (line : List UInt8)
    {position : Nat} (h : available.val.idxOf? newline = some position) :
    readLoop failure maxLineBytes line (available :: rest) =
      (if maxLineBytes < line.length + position then .ok (some .oversized)
        else (decodeStdioLine (line ++ available.val.take position)).map some,
        consume (position + 1) available rest) := by
  simp only [readLoop, h]
  split_ifs <;> rfl

/-- It is not, and the loop goes on, or skips the rest of the line. -/
theorem readLoop_before_newline (failure : Option ε) (maxLineBytes : Nat) (line : List UInt8)
    (h : newline ∉ available.val) :
    readLoop failure maxLineBytes line (available :: rest) =
      if maxLineBytes < line.length + available.val.length then
        ((discardUntilNewline failure rest).1.map fun _ => some .oversized,
          (discardUntilNewline failure rest).2)
      else readLoop failure maxLineBytes (line ++ available.val) rest := by
  simp only [readLoop, List.idxOf?_eq_none_iff.mpr h]
  split_ifs
  · rcases discardUntilNewline failure rest with ⟨_ | _, left⟩ <;> rfl
  · rfl

/-- A line that a newline ends: the frame is that of its segment, and the next read
starts behind the newline. -/
theorem readLoop_ended (failure : Option ε) (maxLineBytes : Nat) (hline : newline ∉ line)
    (h : newline ∈ joined chunks) :
    ∃ left, readLoop failure maxLineBytes line chunks =
        (frameOf maxLineBytes (firstSegment newline (line ++ joined chunks)), left) ∧
      joined left = afterSegment newline (line ++ joined chunks) := by
  induction chunks generalizing line with
  | nil => cases h
  | cons available rest ih =>
    cases hposition : available.val.idxOf? newline with
    | some position =>
      obtain ⟨first, tail, heq, hnot, htake, hdrop, rfl⟩ := cut_at_newline hposition
      have hsegment : newline ∉ line ++ first := by
        rw [List.mem_append]
        exact not_or.mpr ⟨hline, hnot⟩
      have hwhole : line ++ joined (available :: rest) =
          (line ++ first) ++ newline :: (tail ++ joined rest) := by
        rw [joined_cons, heq]
        simp
      refine ⟨consume (first.length + 1) available rest, ?_, ?_⟩
      · rw [readLoop_at_newline failure maxLineBytes line hposition, hwhole,
          Lib.firstSegment_ended hsegment, frameOf, htake, List.length_append]
      · rw [hwhole, Lib.afterSegment_ended hsegment, joined_consume, hdrop]
    | none =>
      have hnot := List.idxOf?_eq_none_iff.mp hposition
      have hlonger : newline ∉ line ++ available.val := by
        rw [List.mem_append]
        exact not_or.mpr ⟨hline, hnot⟩
      have hrest : newline ∈ joined rest := by
        rw [joined_cons, List.mem_append] at h
        exact h.resolve_left hnot
      rw [readLoop_before_newline failure maxLineBytes line hnot, joined_cons, ← List.append_assoc]
      by_cases hlong : maxLineBytes < line.length + available.val.length
      · -- the segment is at least as long as what has been seen of it
        obtain ⟨left, hleft, hjoined⟩ := discardUntilNewline_ended failure hrest
        refine ⟨left, ?_, ?_⟩
        · rw [if_pos hlong, hleft, Lib.firstSegment_append hlonger, frameOf, if_pos]
          · rfl
          · rw [List.length_append, List.length_append]
            omega
        · rw [hjoined, Lib.afterSegment_append hlonger]
      · rw [if_neg hlong]
        exact ih hlonger hrest

/-- Without a newline the line goes to the end of the stream. -/
theorem readLoop_unended (failure : Option ε) (maxLineBytes : Nat)
    (hfits : line.length ≤ maxLineBytes) (h : newline ∉ joined chunks) :
    readLoop failure maxLineBytes line chunks =
      (match failure with
        | some e => .error (.stream e)
        | none => if line ++ joined chunks = [] then .ok none
          else frameOf maxLineBytes (line ++ joined chunks), []) := by
  induction chunks generalizing line with
  | nil =>
    have hframe : (frameOf maxLineBytes line : Except (ReadError ε) (Option StdioFrame)) =
        (decodeStdioLine line).map some :=
      if_neg (by omega)
    rw [joined_nil, List.append_nil, hframe]
    unfold readLoop
    cases failure with
    | some e => rfl
    | none =>
      simp only [List.isEmpty_iff]
      split_ifs <;> rfl
  | cons available rest ih =>
    rw [joined_cons, List.mem_append, not_or] at h
    rw [readLoop_before_newline failure maxLineBytes line h.1, joined_cons, ← List.append_assoc]
    by_cases hlong : maxLineBytes < line.length + available.val.length
    · rw [if_pos hlong, discardUntilNewline_unended failure h.2]
      have hne : line ++ available.val ++ joined rest ≠ [] := by
        simp [available.property]
      have hlength : maxLineBytes < (line ++ available.val ++ joined rest).length := by
        rw [List.length_append, List.length_append]
        omega
      cases failure with
      | some e => rfl
      | none => simp only [if_neg hne, frameOf, if_pos hlength, Except.map]
    · rw [if_neg hlong]
      exact ih (by rw [List.length_append]; omega) h.2

/-! ## Every read -/

/-- The bytes that are left. -/
def Reader.bytes (r : Reader ε) : List UInt8 := joined r.chunks

/-- The reader after `n` reads, whatever they returned. -/
def afterReads (maxLineBytes : Nat) (r : Reader ε) : Nat → Reader ε
  | 0 => r
  | n + 1 => (readBoundedLine maxLineBytes (afterReads maxLineBytes r n)).2

/-- The bytes behind the first `n` segments. -/
def afterSegments (bytes : List UInt8) : Nat → List UInt8
  | 0 => bytes
  | n + 1 => afterSegment newline (afterSegments bytes n)

/-- One read of a stream that does not fail takes its first segment. -/
theorem readBoundedLine_spec (maxLineBytes : Nat) {r : Reader ε} (hfailure : r.failure = none) :
    (readBoundedLine maxLineBytes r).1 =
        (if r.bytes = [] then .ok none
          else frameOf maxLineBytes (firstSegment newline r.bytes)) ∧
      (readBoundedLine maxLineBytes r).2.bytes = afterSegment newline r.bytes := by
  have hdef : (readBoundedLine maxLineBytes r).1 = (readLoop r.failure maxLineBytes [] r.chunks).1 ∧
      (readBoundedLine maxLineBytes r).2.bytes =
        joined (readLoop r.failure maxLineBytes [] r.chunks).2 := ⟨rfl, rfl⟩
  rw [hdef.1, hdef.2]
  unfold Reader.bytes
  by_cases hended : newline ∈ joined r.chunks
  · obtain ⟨left, hread, hleft⟩ :=
      readLoop_ended r.failure maxLineBytes List.not_mem_nil hended
    have hne : joined r.chunks ≠ [] := List.ne_nil_of_mem hended
    rw [hread, if_neg hne]
    exact ⟨rfl, hleft⟩
  · rw [readLoop_unended r.failure maxLineBytes (Nat.zero_le _) hended, hfailure,
      Lib.firstSegment_unended hended, Lib.afterSegment_unended hended]
    exact ⟨rfl, rfl⟩

theorem segments_afterSegments (bytes : List UInt8) (n : Nat) :
    segments newline (afterSegments bytes n) = (segments newline bytes).drop n := by
  induction n with
  | zero => rfl
  | succ n ih =>
    rw [← List.drop_drop, ← ih]
    show segments newline (afterSegment newline (afterSegments bytes n)) = _
    by_cases hempty : afterSegments bytes n = []
    · rw [hempty]
      rfl
    · rw [Lib.segments_eq_cons hempty]
      rfl

/-- The `n`-th read of a stream yields the `n`-th segment between newlines and leaves
what is behind it, however the stream is cut into chunks. -/
theorem reads_are_segments (maxLineBytes : Nat) (chunks : List Chunk) (n : Nat) :
    (readBoundedLine maxLineBytes (afterReads maxLineBytes (⟨chunks, none⟩ : Reader ε) n)).1 =
        (match (segments newline (joined chunks))[n]? with
          | some segment => frameOf maxLineBytes segment
          | none => .ok none) ∧
      (afterReads maxLineBytes (⟨chunks, none⟩ : Reader ε) n).bytes =
        afterSegments (joined chunks) n := by
  have hbytes : ∀ n, (afterReads maxLineBytes (⟨chunks, none⟩ : Reader ε) n).failure = none ∧
      (afterReads maxLineBytes (⟨chunks, none⟩ : Reader ε) n).bytes =
        afterSegments (joined chunks) n := by
    intro n
    induction n with
    | zero => exact ⟨rfl, rfl⟩
    | succ n ih =>
      obtain ⟨hfailure, ih⟩ := ih
      have hread := (readBoundedLine_spec maxLineBytes hfailure).2
      rw [ih] at hread
      exact ⟨hfailure, hread⟩
  obtain ⟨hfailure, hleft⟩ := hbytes n
  refine ⟨?_, hleft⟩
  have hnth : (segments newline (joined chunks))[n]? =
      (segments newline (afterSegments (joined chunks) n)).head? := by
    rw [segments_afterSegments, List.head?_drop]
  rw [(readBoundedLine_spec maxLineBytes hfailure).1, hnth, hleft]
  by_cases hempty : afterSegments (joined chunks) n = []
  · rw [if_pos hempty, hempty]
    rfl
  · rw [if_neg hempty, Lib.segments_eq_cons hempty]
    rfl

end Postblox.Mcp.Stdio
