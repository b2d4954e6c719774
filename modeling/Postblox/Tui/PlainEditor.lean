import Postblox.Lib.TwoSides
import Postblox.Tui.Composer

/-!
# The composer as a plain editor

What the composer is for: five texts with a cursor each, one of them focused, edited at the
cursor. Moves up and down in the body keep to a column until something else happens there.
-/
namespace Postblox.Tui

open Lib

/-- What is done in the composer. `enter` is a newline in the body and a step to the next
field elsewhere; a move up or down has the height of the view. -/
inductive Edit where
  | insert (ch : Char)
  | enter
  | backspace
  | delete
  | deleteWord
  | left
  | right
  | home
  | last
  | move (delta : Int) (viewportHeight : Nat)
  | next
  | previous
  | startSelection
  | toggleSelection
  | clearSelection

structure PlainEditor where
  fields : ComposeField → Sides Char
  focused : ComposeField
  preferred : Option Nat

namespace PlainEditor

variable (e : PlainEditor)

def here : Sides Char := e.fields e.focused

def put (sides : Sides Char) : PlainEditor :=
  { e with fields := Function.update e.fields e.focused sides, preferred := none }

/-- A change at the cursor; one that changes nothing leaves the column alone. -/
def change (f : Sides Char → Sides Char) : PlainEditor :=
  if f e.here = e.here then e else e.put (f e.here)

def focus (field : ComposeField) : PlainEditor := { e with focused := field, preferred := none }

/-- The body's cursor goes to another line, to the preferred column if there is one. -/
def moveLine (delta : Int) : PlainEditor :=
  if e.focused = .body then
    let column := e.preferred.getD (e.here.column '\n')
    { e.put (e.here.toPlace '\n' (e.here.lineBeside '\n' delta) column) with
      preferred := some column }
  else e

def apply : Edit → PlainEditor
  | .insert ch => e.put (e.here.insert ch)
  | .enter => if e.focused = .body then e.put (e.here.insert '\n') else e.focus e.focused.next
  | .backspace => e.change Sides.backspace
  | .delete => e.change Sides.delete
  | .deleteWord => e.change (Sides.deleteWord Mail.isWhitespace)
  | .left => e.change Sides.left
  | .right => e.change Sides.right
  | .home => e.change (if e.focused = .body then Sides.toLineStart '\n' else Sides.toStart)
  | .last => e.change (if e.focused = .body then Sides.toLineEnd '\n' else Sides.toEnd)
  | .move delta _ => e.moveLine delta
  | .next => e.focus e.focused.next
  | .previous => e.focus e.focused.previous
  | .startSelection => e
  | .toggleSelection => e
  | .clearSelection => e

/-- A run of edits. -/
def run (edits : List Edit) : PlainEditor := edits.foldl apply e

end PlainEditor

namespace ComposerState

/-- `focus_composer_field`. -/
def focusField (c : ComposerState) (step : ComposeField → ComposeField) : ComposerState :=
  { c with focused := step c.focused, bodyPreferredColumn := none }

/-- The function of the composer behind an edit; `none` if it panics. -/
def apply (c : ComposerState) : Edit → Option ComposerState
  | .insert ch => c.insertFocusedChar ch
  | .enter =>
    if c.focused = .body then c.insertBodyNewline
    else some { c with focused := c.focused.next }
  | .backspace => c.deleteBeforeFocusedCursor.map (·.1)
  | .delete => c.deleteAtFocusedCursor.map (·.1)
  | .deleteWord => c.deleteWordBeforeCursor.map (·.1)
  | .left => some c.moveFocusedCursorLeft.1
  | .right => some c.moveFocusedCursorRight.1
  | .home => some c.moveFocusedCursorHome.1
  | .last => some c.moveFocusedCursorEnd.1
  | .move delta viewportHeight => some (c.moveBodyLine delta viewportHeight).1
  | .next => some (c.focusField ComposeField.next)
  | .previous => some (c.focusField ComposeField.previous)
  | .startSelection => some c.startBodyLineSelection.1
  | .toggleSelection => some c.toggleBodyLineSelection.1
  | .clearSelection => some c.clearBodySelection.1

def applyAll : List Edit → ComposerState → Option ComposerState
  | [], c => some c
  | edit :: rest, c => (c.apply edit).bind (applyAll rest)

def textOf (c : ComposerState) : ComposeField → String
  | .toLine => c.toLine
  | .ccLine => c.ccLine
  | .bccLine => c.bccLine
  | .subject => c.subject
  | .body => c.body

def cursorOf (c : ComposerState) : ComposeField → Nat
  | .toLine => c.toCursor
  | .ccLine => c.ccCursor
  | .bccLine => c.bccCursor
  | .subject => c.subjectCursor
  | .body => c.bodyCursor

/-- A composer as its three constructors leave it. -/
inductive Opened : ComposerState → Prop
  | new (accountId : Uuid) : Opened (new accountId)
  | prefill (accountId : Uuid) (prefill : ComposerPrefill) : Opened (fromPrefill accountId prefill)
  | draft (draftId : Uuid) (draft : ComposerDraft) (focus : ComposeField) :
      Opened (ofExistingDraft draftId draft focus)

/-- The composer shows the texts, cursors and focus of the editor, and its index of the
body's lines is up to date. -/
structure Shows (c : ComposerState) (e : PlainEditor) : Prop where
  text : ∀ field, (c.textOf field).toList = (e.fields field).text
  cursor : ∀ field, c.cursorOf field = (e.fields field).before.length
  focused : c.focused = e.focused
  preferred : c.bodyPreferredColumn = e.preferred
  resting : e.focused ≠ .body → e.preferred = none
  lines : c.bodyLineCache = .fromText c.body

end ComposerState

end Postblox.Tui
