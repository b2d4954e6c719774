import Postblox.Lib.Delimited
import Postblox.Utf8

/-!
# Reading a MIME message

An entity is its header lines, an empty line and its body. A multipart declares a
boundary, and its body consists of the parts between the lines that begin with two
hyphens and the boundary; the line break before such a line belongs to it, and two more
hyphens end the last part. A base64 entity is never a multipart.
-/
namespace Postblox.Mail

open Lib

abbrev Line := List UInt8

/-- Lines end at CR LF. -/
def linesOf (bytes : List UInt8) : List Line := pieces 13 10 bytes

def crlf : List UInt8 := [13, 10]

def joinLines (lines : List Line) : List UInt8 := crlf.intercalate lines

def headerLines (lines : List Line) : List Line := lines.takeWhile fun line => line ≠ []

def bodyLines (lines : List Line) : List Line := (lines.dropWhile fun line => line ≠ []).drop 1

/-- The value of the first field with a name. -/
def fieldValue (name : String) (headers : List Line) : Option Line :=
  (headers.find? fun line => utf8 (name ++ ": ") <+: line).map fun line =>
    line.drop (utf8 (name ++ ": ")).length

/-- What stands between the first two quotation marks. -/
def quotedParameter (value : Line) : Line :=
  ((value.dropWhile fun b => b ≠ 34).drop 1).takeWhile fun b => b ≠ 34

/-- The boundary that a multipart declares. -/
def declaredBoundary (headers : List Line) : Option Line :=
  if fieldValue "Content-Transfer-Encoding" headers = some (utf8 "base64") then none
  else
    (fieldValue "Content-Type" headers).bind fun value =>
      if utf8 "multipart/" <+: value then some (quotedParameter value) else none

def dashes : Line := utf8 "--"

/-- What stands before a part. -/
def openLine (boundary : Line) : Line := dashes ++ boundary

/-- What stands behind the last part. -/
def closeLine (boundary : Line) : Line := openLine boundary ++ dashes

/-- A line is compared with the boundary by its beginning. -/
def delimiterMark (boundary line : Line) : Mark :=
  if closeLine boundary <+: line then .close
  else if openLine boundary <+: line then .delimiter
  else .inside

inductive Entity where
  | leaf (headers : List Line) (body : List UInt8)
  | multipart (headers : List Line) (parts : List Entity)

namespace Entity

/-- Read an entity; `none` for a multipart that is not closed, or nested too deeply. -/
def ofLines : Nat → List Line → Option Entity
  | depth, lines =>
    match declaredBoundary (headerLines lines), depth with
    | none, _ => some (.leaf (headerLines lines) (joinLines (bodyLines lines)))
    | some _, 0 => none
    | some boundary, depth + 1 =>
      ((between (delimiterMark boundary) (bodyLines lines)).bind fun parts =>
        parts.mapM (ofLines depth)).map fun parts => .multipart (headerLines lines) parts

def read (depth : Nat) (bytes : List UInt8) : Option Entity := ofLines depth (linesOf bytes)

end Entity

theorem linesOf_append (a b : List UInt8) :
    linesOf (a ++ (crlf ++ b)) = linesOf a ++ linesOf b :=
  pieces_append (by decide) a b

theorem joinLines_linesOf (bytes : List UInt8) : joinLines (linesOf bytes) = bytes :=
  intercalate_pieces bytes

theorem linesOf_singleton {line : Line} (h : 13 ∉ line) : linesOf line = [line] :=
  pieces_of_not_mem h

theorem linesOf_cons {line : Line} (h : 13 ∉ line) (rest : List UInt8) :
    linesOf (line ++ (crlf ++ rest)) = line :: linesOf rest := by
  rw [linesOf_append, linesOf_singleton h]
  rfl

/-- Lines that are put down one by one. -/
def written (lines : List Line) : List UInt8 := lines.flatMap fun line => line ++ crlf

theorem linesOf_written {lines : List Line} (h : ∀ line ∈ lines, 13 ∉ line) (rest : List UInt8) :
    linesOf (written lines ++ rest) = lines ++ linesOf rest := by
  induction lines with
  | nil => rfl
  | cons line lines ih =>
    rw [List.forall_mem_cons] at h
    have hsplit : written (line :: lines) ++ rest = line ++ (crlf ++ (written lines ++ rest)) := by
      simp [written]
    rw [hsplit, linesOf_cons h.1, ih h.2]
    rfl

/-! ## Headers and bodies -/

theorem headerLines_append {headers : List Line} (h : ∀ line ∈ headers, line ≠ [])
    (body : List Line) : headerLines (headers ++ [] :: body) = headers := by
  unfold headerLines
  rw [List.takeWhile_append_of_pos fun line hline => decide_eq_true (h line hline)]
  simp

theorem bodyLines_append {headers : List Line} (h : ∀ line ∈ headers, line ≠ [])
    (body : List Line) : bodyLines (headers ++ [] :: body) = body := by
  unfold bodyLines
  rw [List.dropWhile_append_of_pos fun line hline => decide_eq_true (h line hline)]
  simp

/-- An entity that is not a multipart. -/
theorem Entity.ofLines_leaf {headers : List Line} (h : ∀ line ∈ headers, line ≠ [])
    (hnone : declaredBoundary headers = none) (depth : Nat) (body : List Line) :
    Entity.ofLines depth (headers ++ [] :: body) = some (.leaf headers (joinLines body)) := by
  unfold Entity.ofLines
  rw [headerLines_append h, bodyLines_append h, hnone]

/-- A multipart whose parts can be read. -/
theorem Entity.ofLines_multipart {headers : List Line} (h : ∀ line ∈ headers, line ≠ [])
    {boundary : Line} (hsome : declaredBoundary headers = some boundary) {depth : Nat}
    {body : List Line} {parts : List (List Line)} {entities : List Entity}
    (hbetween : between (delimiterMark boundary) body = some parts)
    (hparts : parts.mapM (Entity.ofLines depth) = some entities) :
    Entity.ofLines (depth + 1) (headers ++ [] :: body) = some (.multipart headers entities) := by
  unfold Entity.ofLines
  rw [headerLines_append h, bodyLines_append h, hsome]
  simp only [hbetween, Option.bind_some, hparts, Option.map_some]

/-! ## Delimiters -/

theorem delimiterMark_openLine (boundary : Line) :
    delimiterMark boundary (openLine boundary) = .delimiter := by
  unfold delimiterMark
  rw [if_neg, if_pos List.prefix_rfl]
  intro h
  have hlen := h.length_le
  have htwo : dashes.length = 2 := rfl
  rw [closeLine, List.length_append] at hlen
  omega

theorem delimiterMark_closeLine (boundary : Line) :
    delimiterMark boundary (closeLine boundary) = .close := by
  unfold delimiterMark
  rw [if_pos List.prefix_rfl]

/-- A line that does not begin like a delimiter. -/
theorem delimiterMark_inside {boundary line : Line} (h : ¬ openLine boundary <+: line) :
    delimiterMark boundary line = .inside := by
  have hclose : ¬ closeLine boundary <+: line := fun hline =>
    h ((List.prefix_append (openLine boundary) dashes).trans hline)
  unfold delimiterMark
  rw [if_neg hclose, if_neg h]

theorem delimiterMark_of_not_dashes (boundary : Line) {line : Line} (h : ¬ dashes <+: line) :
    delimiterMark boundary line = .inside :=
  delimiterMark_inside fun hopen => h ((List.prefix_append dashes boundary).trans hopen)

/-- The lines of a text without the boundary. -/
theorem delimiterMark_linesOf {boundary : Line} {text : List UInt8} (h : ¬ boundary <:+: text) :
    ∀ line ∈ linesOf text, delimiterMark boundary line = .inside := by
  intro line hline
  refine delimiterMark_inside fun hstart => h ?_
  have hinfix : boundary <:+: line :=
    (List.suffix_append dashes boundary).isInfix.trans hstart.isInfix
  exact hinfix.trans (infix_of_mem_pieces hline)

end Postblox.Mail
