import Postblox.Lib.ByteText

/-!
# The line index of a text

The bounds of every line in characters and in bytes, found in one pass, and the lookups
the composer makes in them.
-/
namespace Postblox.Tui

structure LineBounds where
  charStart : Nat
  charEnd : Nat
  byteStart : Nat
  byteEnd : Nat
  deriving DecidableEq

structure LineCache where
  bounds : List LineBounds
  charLen : Nat
  deriving DecidableEq

namespace LineCache

/-- The loop of `from_text`: the start of the open line, and where the loop stands. -/
def scan (charStart byteStart charIndex byteIndex : Nat) : List Char → LineCache
  | [] => ⟨[⟨charStart, charIndex, byteStart, byteIndex⟩], charIndex⟩
  | ch :: rest =>
    if ch = '\n' then
      let next := charIndex + 1
      let nextByte := byteIndex + ch.utf8Size
      let cache := scan next nextByte next nextByte rest
      { cache with bounds := ⟨charStart, charIndex, byteStart, byteIndex⟩ :: cache.bounds }
    else scan charStart byteStart (charIndex + 1) (byteIndex + ch.utf8Size) rest

def fromText (value : String) : LineCache := scan 0 0 0 0 value.toList

variable (cache : LineCache)

def lineCount : Nat := cache.bounds.length

def clampedLine (line : Nat) : Option LineBounds :=
  cache.bounds[min line (cache.bounds.length - 1)]?

def lineStart (line : Nat) : Nat := ((cache.clampedLine line).map (·.charStart)).getD 0

def lineEnd (line : Nat) : Nat := ((cache.clampedLine line).map (·.charEnd)).getD 0

/-- `partition_point` finds the first line that does not end before the cursor. -/
def lineForCursor (cursor : Nat) : Nat :=
  min (cache.bounds.takeWhile fun bounds => bounds.charEnd < cursor).length
    (cache.bounds.length - 1)

/-- The text of a line. -/
def line (text : String) (line : Nat) : Option String :=
  (cache.bounds[line]?).bind fun bounds =>
    (Lib.byteSlice bounds.byteStart bounds.byteEnd text.toList).map String.ofList

/-- `LineCache::lines`. -/
def lines (text : String) : List String := (List.range cache.lineCount).filterMap (cache.line text)

end LineCache

end Postblox.Tui
