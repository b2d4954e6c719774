import Postblox.Tui.State

/-!
# Keys in the composer

Commands and text compete for the same keys; the first arm that fits takes the key. In the
body every character without the control key is text but one: `v` starts and ends a
selection of lines. So what is typed there is what is saved, without the `v`s.
-/
namespace Postblox.Tui

open Lib

inductive KeyCode where
  | char (ch : Char)
  | enter
  | esc
  | tab
  | backTab
  | up
  | down
  | left
  | right
  | home
  | last
  | pageUp
  | pageDown
  | backspace
  | delete
  | other

/-- A key with the modifiers that are asked for. -/
structure KeyEvent where
  code : KeyCode
  control : Bool
  shift : Bool

/-- What the daemon answers to the requests of the composer: an id, or the text of an error. -/
structure DraftClient where
  createDraft : ComposerDraft → Except String Uuid
  updateDraft : Uuid → ComposerDraft → Except String Uuid
  sendDraft : Uuid → Uuid → Except String Unit

def composerBodyKeyViewportLines : Nat := 3

/-- `char::is_control`. -/
def isControl (ch : Char) : Bool := ch.toNat < 32 || (127 ≤ ch.toNat && ch.toNat < 160)

namespace AppState

variable (app : AppState)

/-! ## What the keys do -/

def mapComposer (f : ComposerState → ComposerState) : AppState :=
  { app with composer := app.composer.map f }

def discardComposer : AppState := { app with composer := none, mode := .normal, error := none }

def exitComposer : AppState := { app with composer := none, mode := .normal }

def enterCommandMode : AppState := { app with mode := .command, commandInput := "", error := none }

def composerNeedsDiscardConfirmation : Bool := app.composer.any fun c => c.dirty && c.hasContent

def focusComposerField (step : ComposeField → ComposeField) : AppState :=
  app.mapComposer fun c => { c with focused := step c.focused, bodyPreferredColumn := none }

def moveComposerBodyLine (delta : Int) : AppState :=
  app.mapComposer fun c => (c.moveBodyLine delta composerBodyKeyViewportLines).1

def pushComposerChar (ch : Char) : Option (AppState × Bool) :=
  match app.composer with
  | none => some (app, false)
  | some c =>
    if isControl ch || c.fieldLimit ≤ c.fieldLen then some (app, false)
    else (c.insertFocusedChar ch).map fun c =>
      ({ app with composer := some { c with dirty := true } }, true)

def composerEnter : Option (AppState × Bool) :=
  match app.composer with
  | none => some (app, false)
  | some c =>
    if c.focused = .body then
      if maxComposeBodyChars ≤ charCount c.body then some (app, false)
      else c.insertBodyNewline.map fun c =>
        ({ app with composer := some { c with dirty := true } }, true)
    else some ({ app with composer := some { c with focused := c.focused.next } }, true)

/-- A deletion; the composer is dirty if something went. -/
def deleteInComposer (delete : ComposerState → Option (ComposerState × Bool)) : Option AppState :=
  match app.composer with
  | none => some app
  | some c => (delete c).map fun (c, changed) =>
    { app with composer := some { c with dirty := changed || c.dirty } }

def beginComposeAttach : AppState :=
  match app.composer with
  | none => app
  | some c =>
    { app with composer := some { c with attachInput := "" }, mode := .composeAttachPath }

def removeSelectedComposeAttachment : AppState :=
  app.mapComposer fun c =>
    if c.attachments.isEmpty then c
    else
      let index := min c.selectedAttachment (c.attachments.length - 1)
      let attachments := c.attachments.eraseIdx index
      { c with
        attachments
        selectedAttachment := clampIndex c.selectedAttachment attachments.length
        dirty := true }

def moveComposeAttachmentSelection (delta : Int) : AppState :=
  app.mapComposer fun c =>
    if c.attachments.isEmpty then c
    else { c with
      selectedAttachment := (moveIndex c.selectedAttachment c.attachments.length delta).1 }

def saveComposer (client : DraftClient) : AppState × Option Uuid :=
  match app.composer with
  | none => (app, none)
  | some c =>
    let cleared := app.clearError
    let result :=
      match c.draftId with
      | some id => client.updateDraft id c.draft
      | none => client.createDraft c.draft
    match result with
    | .ok id => (cleared.mapComposer fun c => { c with draftId := some id, dirty := false }, some id)
    | .error message => (cleared.setError message, none)

def sendComposer (client : DraftClient) : AppState :=
  match app.composer with
  | none => app
  | some c =>
    let (saved, id) :=
      match c.draftId with
      | some id => if c.dirty then app.saveComposer client else (app, some id)
      | none => app.saveComposer client
    match id with
    | none => saved
    | some id =>
      match client.sendDraft c.accountId id with
      | .ok () => saved.clearError.exitComposer
      | .error message => saved.clearError.setError message

/-! ## The key handler -/

def composerBodyFocused : Bool := app.composer.any fun c => c.focused = .body

/-- The keys of the question whether to discard. -/
def handleConfirmDiscardKey (key : KeyEvent) : AppState :=
  match key.code with
  | .char 'y' | .char 'Y' => app.discardComposer
  | .char 'n' | .char 'N' | .esc => { app with mode := .compose }
  | _ => app

def composerEsc : AppState :=
  match app.composer with
  | none => app.exitComposer
  | some c =>
    let (cleared, changed) := c.clearBodySelection
    let next := { app with composer := some cleared }
    if changed then next
    else if next.composerNeedsDiscardConfirmation then { next with mode := .confirmDiscard }
    else next.exitComposer

/-- The arms for the arrow keys up and down. -/
def composerVertical (delta : Int) (shift : Bool) (step : ComposeField → ComposeField) :
    AppState :=
  if app.composerBodyFocused then
    let started := if shift then app.mapComposer (·.startBodyLineSelection.1) else app
    started.moveComposerBodyLine delta
  else app.focusComposerField step

def composerPage (delta : Int) : AppState :=
  if app.composerBodyFocused then app.moveComposerBodyLine delta else app

/-- The arms for characters, in their order. -/
def handleComposerChar (client : DraftClient) (control : Bool) (ch : Char) : Option AppState :=
  if ch = 's' ∧ control then some (app.saveComposer client).1
  else if ch = 'x' ∧ control then some (app.sendComposer client)
  else if ch = ':' ∧ ¬ app.composerBodyFocused then some app.enterCommandMode
  else if ch = 'a' ∧ control then some app.beginComposeAttach
  else if ch = 'k' ∧ control then some app.removeSelectedComposeAttachment
  else if ch = 'n' ∧ control then some (app.moveComposeAttachmentSelection 1)
  else if ch = 'p' ∧ control then some (app.moveComposeAttachmentSelection (-1))
  else if ch = 'd' ∧ control then some (app.composerPage composerBodyKeyViewportLines)
  else if ch = 'u' ∧ control then some (app.composerPage (-composerBodyKeyViewportLines))
  else if ch = 'v' ∧ app.composerBodyFocused ∧ ¬ control then
    some (app.mapComposer (·.toggleBodyLineSelection.1))
  else if ch = 'w' ∧ control then app.deleteInComposer (·.deleteWordBeforeCursor)
  else if control then some app
  else (app.pushComposerChar ch).map fun (next, pushed) =>
    if pushed then next else next.setError "compose field is at its limit"

/-- `none` if an edit panics. -/
def handleComposerKey (client : DraftClient) (key : KeyEvent) : Option AppState :=
  if app.mode = .confirmDiscard then some (app.handleConfirmDiscardKey key)
  else
    match key.code with
    | .char ch => app.handleComposerChar client key.control ch
    | .esc => some app.composerEsc
    | .tab => some (app.focusComposerField ComposeField.next)
    | .backTab => some (app.focusComposerField ComposeField.previous)
    | .down => some (app.composerVertical 1 key.shift ComposeField.next)
    | .up => some (app.composerVertical (-1) key.shift ComposeField.previous)
    | .pageDown => some (app.composerPage composerBodyKeyViewportLines)
    | .pageUp => some (app.composerPage (-composerBodyKeyViewportLines))
    | .left => some (app.mapComposer (·.moveFocusedCursorLeft.1))
    | .right => some (app.mapComposer (·.moveFocusedCursorRight.1))
    | .home => some (app.mapComposer (·.moveFocusedCursorHome.1))
    | .last => some (app.mapComposer (·.moveFocusedCursorEnd.1))
    | .enter => app.composerEnter.map fun (next, entered) =>
        if entered then next
        else next.setError s!"body is limited to {maxComposeBodyChars} characters"
    | .backspace => app.deleteInComposer (·.deleteBeforeFocusedCursor)
    | .delete => app.deleteInComposer (·.deleteAtFocusedCursor)
    | .other => some app

def handleComposerKeys (client : DraftClient) : List KeyEvent → AppState → Option AppState
  | [], app => some app
  | key :: rest, app => (app.handleComposerKey client key).bind (handleComposerKeys client rest)

end AppState

end Postblox.Tui
