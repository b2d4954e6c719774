import Postblox.Lib.ByteText
import Postblox.Mail.Text
import Postblox.Tui.LineCache
import Postblox.Tui.Requests

/-!
# The composer

Five text fields, each with a cursor counted in characters, and what a save sends of them.
An edit goes through byte offsets; `none` stands for the panic of an offset inside a
character.
-/
namespace Postblox.Tui

open Lib

def maxComposeHeaderChars : Nat := 4096

def maxComposeBodyChars : Nat := 100000

inductive ComposeField where
  | toLine
  | ccLine
  | bccLine
  | subject
  | body
  deriving DecidableEq

def ComposeField.next : ComposeField → ComposeField
  | .toLine => .ccLine
  | .ccLine => .bccLine
  | .bccLine => .subject
  | .subject => .body
  | .body => .toLine

def ComposeField.previous : ComposeField → ComposeField
  | .toLine => .body
  | .ccLine => .toLine
  | .bccLine => .ccLine
  | .subject => .bccLine
  | .body => .subject

/-! ## Texts -/

def charCount (value : String) : Nat := value.toList.length

def charToByteIndex (value : String) (charIndex : Nat) : Nat := byteOffset value.toList charIndex

/-- `String::insert`. -/
def insertAt (value : String) (byteIndex : Nat) (ch : Char) : Option String :=
  (cutAtByte byteIndex value.toList).map fun sides => String.ofList (sides.1 ++ ch :: sides.2)

/-- `replace_range(start..end, "")`, for `start` not behind the end. -/
def removeRange (value : String) (first last : Nat) : Option String := do
  let (before, rest) ← cutAtByte first value.toList
  let (_, behind) ← cutAtByte (last - first) rest
  return String.ofList (before ++ behind)

def nonEmptyString (value : String) : Option String :=
  if Mail.trimmed value = "" then none else some value

def isAddressSeparator (ch : Char) : Bool := ch = ',' || ch = ';' || ch = '\n'

def splitAddresses (value : String) : List String :=
  (((value.toList.splitOnP isAddressSeparator).map Mail.trim).filter (· ≠ [])).map String.ofList

def joinAddresses (values : List String) : String := String.intercalate ", " values

/-! ## State -/

structure ComposerState where
  accountId : Uuid
  draftId : Option Uuid
  focused : ComposeField
  toLine : String
  toCursor : Nat
  ccLine : String
  ccCursor : Nat
  bccLine : String
  bccCursor : Nat
  subject : String
  subjectCursor : Nat
  body : String
  bodyCursor : Nat
  bodyLineCache : LineCache
  bodyScroll : Nat
  bodySelectionAnchor : Option Nat
  bodySelectionFocus : Nat
  bodyPreferredColumn : Option Nat
  dirty : Bool
  attachments : List ComposerAttachment
  selectedAttachment : Nat
  attachInput : String
  inReplyToMsg : Option Uuid
  inReplyTo : Option String
  referencesHeader : Option String

/-- Pre-fill payload of the reply and forward keys. -/
structure ComposerPrefill where
  inReplyToMsg : Option Uuid
  toAddrs : List String
  ccAddrs : List String
  bccAddrs : List String
  subject : Option String
  body : Option String
  inReplyTo : Option String
  referencesHeader : Option String
  attachments : List ComposerAttachment

namespace ComposerState

def new (accountId : Uuid) : ComposerState where
  accountId := accountId
  draftId := none
  focused := .toLine
  toLine := ""
  toCursor := 0
  ccLine := ""
  ccCursor := 0
  bccLine := ""
  bccCursor := 0
  subject := ""
  subjectCursor := 0
  body := ""
  bodyCursor := 0
  bodyLineCache := .fromText ""
  bodyScroll := 0
  bodySelectionAnchor := none
  bodySelectionFocus := 0
  bodyPreferredColumn := none
  dirty := false
  attachments := []
  selectedAttachment := 0
  attachInput := ""
  inReplyToMsg := none
  inReplyTo := none
  referencesHeader := none

variable (s : ComposerState)

def focusedText : String :=
  match s.focused with
  | .toLine => s.toLine
  | .ccLine => s.ccLine
  | .bccLine => s.bccLine
  | .subject => s.subject
  | .body => s.body

def focusedCursor : Nat :=
  match s.focused with
  | .toLine => s.toCursor
  | .ccLine => s.ccCursor
  | .bccLine => s.bccCursor
  | .subject => s.subjectCursor
  | .body => s.bodyCursor

/-- Write through `focused_text_and_cursor_mut`. -/
def setFocused (text : String) (cursor : Nat) : ComposerState :=
  match s.focused with
  | .toLine => { s with toLine := text, toCursor := cursor }
  | .ccLine => { s with ccLine := text, ccCursor := cursor }
  | .bccLine => { s with bccLine := text, bccCursor := cursor }
  | .subject => { s with subject := text, subjectCursor := cursor }
  | .body => { s with body := text, bodyCursor := cursor }

def fieldLen : Nat := charCount s.focusedText

def fieldLimit : Nat :=
  match s.focused with
  | .body => maxComposeBodyChars
  | _ => maxComposeHeaderChars

def hasContent : Bool :=
  [s.toLine, s.ccLine, s.bccLine, s.subject, s.body].any (fun value => Mail.trimmed value ≠ "") ||
    !s.attachments.isEmpty

def draft : ComposerDraft where
  accountId := s.accountId
  inReplyToMsg := s.inReplyToMsg
  toAddrs := splitAddresses s.toLine
  ccAddrs := splitAddresses s.ccLine
  bccAddrs := splitAddresses s.bccLine
  subject := nonEmptyString s.subject
  textBody := nonEmptyString s.body
  htmlBody := none
  attachments := s.attachments
  inReplyTo := s.inReplyTo
  referencesHeader := s.referencesHeader

def refreshBodyLineCache : ComposerState := { s with bodyLineCache := .fromText s.body }

/-- `from_prefill`: an absent subject or body keeps the blank one. -/
def fromPrefill (accountId : Uuid) (prefill : ComposerPrefill) : ComposerState :=
  let blank := new accountId
  let toLine := joinAddresses prefill.toAddrs
  let ccLine := joinAddresses prefill.ccAddrs
  let bccLine := joinAddresses prefill.bccAddrs
  let subject := prefill.subject.getD blank.subject
  let body := prefill.body.getD blank.body
  let filled := { blank with
    toLine, ccLine, bccLine, subject, body
    toCursor := charCount toLine
    ccCursor := charCount ccLine
    bccCursor := charCount bccLine
    subjectCursor := charCount subject
    bodyCursor := charCount body
    bodyLineCache := .fromText body
    attachments := prefill.attachments
    inReplyToMsg := prefill.inReplyToMsg
    inReplyTo := prefill.inReplyTo
    referencesHeader := prefill.referencesHeader
    focused := .body }
  { filled with dirty := filled.hasContent }

/-- The composer of `enter_composer_for_existing_draft`: the cursor of the body is at its
start, the view at its end. -/
def ofExistingDraft (draftId : Uuid) (draft : ComposerDraft) (focus : ComposeField) :
    ComposerState :=
  let blank := new draft.accountId
  let toLine := joinAddresses draft.toAddrs
  let ccLine := joinAddresses draft.ccAddrs
  let bccLine := joinAddresses draft.bccAddrs
  let subject := draft.subject.getD blank.subject
  let body := draft.textBody.getD blank.body
  let lines := LineCache.fromText body
  { blank with
    draftId := some draftId
    toLine, ccLine, bccLine, subject, body
    toCursor := charCount toLine
    ccCursor := charCount ccLine
    bccCursor := charCount bccLine
    subjectCursor := charCount subject
    bodyCursor := 0
    bodyLineCache := lines
    bodyScroll := lines.lineCount - 1
    inReplyToMsg := draft.inReplyToMsg
    inReplyTo := draft.inReplyTo
    referencesHeader := draft.referencesHeader
    attachments := draft.attachments
    focused := focus
    dirty := false }

/-! ## The body as lines -/

def bodyCursorLineColumn : Nat × Nat :=
  let cursor := min s.bodyCursor s.bodyLineCache.charLen
  let line := s.bodyLineCache.lineForCursor cursor
  (line, cursor - s.bodyLineCache.lineStart line)

def bodyVisibleScroll (viewportHeight : Nat) : Nat :=
  let height := max viewportHeight 1
  let maxScroll := s.bodyLineCache.lineCount - height
  let scroll := min s.bodyScroll maxScroll
  let line := s.bodyCursorLineColumn.1
  let shown :=
    if line < scroll then line
    else if scroll + height ≤ line then line + 1 - height
    else scroll
  min shown maxScroll

def ensureBodyCursorVisible (viewportHeight : Nat) : ComposerState :=
  { s with bodyScroll := s.bodyVisibleScroll viewportHeight }

def bodyLineLen (line : Nat) : Nat := s.bodyLineCache.lineEnd line - s.bodyLineCache.lineStart line

/-- The second component tells whether a selection was there. -/
def clearBodySelection : ComposerState × Bool :=
  ({ s with
    bodySelectionAnchor := none
    bodySelectionFocus := s.bodyCursorLineColumn.1 }, s.bodySelectionAnchor.isSome)

def toggleBodyLineSelection : ComposerState × Bool :=
  if s.focused ≠ .body then (s, false)
  else if s.bodySelectionAnchor.isSome then s.clearBodySelection
  else
    let line := s.bodyCursorLineColumn.1
    ({ s with bodySelectionAnchor := some line, bodySelectionFocus := line }, true)

def startBodyLineSelection : ComposerState × Bool :=
  if s.focused ≠ .body ∨ s.bodySelectionAnchor.isSome then (s, false)
  else
    let line := s.bodyCursorLineColumn.1
    ({ s with bodySelectionAnchor := some line, bodySelectionFocus := line }, true)

def resetBodyNavigationState : ComposerState :=
  if s.focused = .body then ({ s with bodyPreferredColumn := none }).clearBodySelection.1 else s

def afterTextEdit : ComposerState :=
  if s.focused = .body then
    ({ s.refreshBodyLineCache with bodyPreferredColumn := none }).clearBodySelection.1
      |>.ensureBodyCursorVisible 1
  else s

/-! ## Cursor moves -/

def moveFocusedCursorLeft : ComposerState × Bool :=
  if s.focusedCursor = 0 then (s, false)
  else ((s.setFocused s.focusedText (s.focusedCursor - 1)).resetBodyNavigationState, true)

def moveFocusedCursorRight : ComposerState × Bool :=
  let old := min s.focusedCursor s.fieldLen
  if s.fieldLen ≤ old then (s.setFocused s.focusedText s.fieldLen, false)
  else ((s.setFocused s.focusedText (old + 1)).resetBodyNavigationState, true)

def setFocusedCursor (next : Nat) : ComposerState × Bool :=
  let next := min next s.fieldLen
  let old := min s.focusedCursor s.fieldLen
  let moved := s.setFocused s.focusedText next
  if old = next then (moved, false) else (moved.resetBodyNavigationState, true)

def moveFocusedCursorHome : ComposerState × Bool :=
  s.setFocusedCursor <|
    if s.focused = .body then s.bodyLineCache.lineStart s.bodyCursorLineColumn.1 else 0

def moveFocusedCursorEnd : ComposerState × Bool :=
  s.setFocusedCursor <|
    if s.focused = .body then s.bodyLineCache.lineEnd s.bodyCursorLineColumn.1 else s.fieldLen

def moveBodyLine (delta : Int) (viewportHeight : Nat) : ComposerState × Bool :=
  if s.focused ≠ .body then (s, false)
  else
    let maxLine := s.bodyLineCache.lineCount - 1
    let (line, column) := s.bodyCursorLineColumn
    let preferred := s.bodyPreferredColumn.getD column
    let nextLine := if delta < 0 then line - delta.natAbs else min (line + delta.toNat) maxLine
    let nextColumn := min preferred (s.bodyLineLen nextLine)
    let moved := { s with
      bodyPreferredColumn := some preferred
      bodyCursor := s.bodyLineCache.lineStart nextLine + nextColumn
      bodySelectionFocus :=
        if s.bodySelectionAnchor.isSome then nextLine else s.bodySelectionFocus }
    let shown := moved.ensureBodyCursorVisible viewportHeight
    (shown, shown.bodyCursor ≠ s.bodyCursor || shown.bodyScroll ≠ s.bodyScroll ||
      shown.bodySelectionFocus ≠ s.bodySelectionFocus)

/-! ## Edits -/

def insertFocusedChar (ch : Char) : Option ComposerState := do
  let current := min s.focusedCursor (charCount s.focusedText)
  let text ← insertAt s.focusedText (charToByteIndex s.focusedText current) ch
  return (s.setFocused text (current + 1)).afterTextEdit

def insertBodyNewline : Option ComposerState := do
  let current := min s.bodyCursor (charCount s.body)
  let body ← insertAt s.body (charToByteIndex s.body current) '\n'
  return { s with body, bodyCursor := current + 1 }.afterTextEdit

/-- Remove the characters from `first` to `last`; the cursor ends at `first`. -/
def removeFocused (first last : Nat) : Option ComposerState := do
  let text ← removeRange s.focusedText (charToByteIndex s.focusedText first)
    (charToByteIndex s.focusedText last)
  return (s.setFocused text first).afterTextEdit

def deleteBeforeFocusedCursor : Option (ComposerState × Bool) :=
  let current := min s.focusedCursor (charCount s.focusedText)
  if current = 0 then some (s.setFocused s.focusedText 0, false)
  else (s.removeFocused (current - 1) current).map (·, true)

def deleteAtFocusedCursor : Option (ComposerState × Bool) :=
  let len := charCount s.focusedText
  let current := min s.focusedCursor len
  if len ≤ current then some (s.setFocused s.focusedText len, false)
  else (s.removeFocused current (current + 1)).map (·, true)

/-- Where the word before the cursor starts: back over blanks, then over the word. -/
def wordStart (before : List Char) : Nat :=
  ((before.rdropWhile Mail.isWhitespace).rdropWhile fun ch => !Mail.isWhitespace ch).length

def deleteWordBeforeCursor : Option (ComposerState × Bool) :=
  let current := min s.focusedCursor (charCount s.focusedText)
  if current = 0 then some (s.setFocused s.focusedText 0, false)
  else
    let newCursor := wordStart (s.focusedText.toList.take current)
    if newCursor = current then some (s, false)
    else (s.removeFocused newCursor current).map (·, true)

end ComposerState

end Postblox.Tui
