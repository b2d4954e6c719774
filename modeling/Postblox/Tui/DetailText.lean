import Postblox.Mail.ReplyChain
import Postblox.Tui.LineLookups
import Postblox.Tui.State

/-!
# The text of a conversation

The messages of a conversation are drawn one below the other, each with a header and, if it
is expanded, with its body. Where the header of the focused message stands is counted apart
from the drawing; the count is the number of the line that the index of the text has there.
-/
namespace Postblox.Tui

open Lib

/-! ## Texts -/

def detailText (detail : MessageDetail) : String :=
  "Subject: " ++ detail.subject ++ "\nFrom: " ++ detail.sender ++ "\nSnippet: " ++ detail.snippet ++
    "\n\n" ++ detail.body

def stackDetailText (detail : MessageDetail) : String :=
  "Subject: " ++ detail.subject ++ "\nSnippet: " ++ detail.snippet ++ "\n\n" ++ detail.body

def messageSummaryDetailText (message : MessageItem) : String :=
  "Subject: " ++ message.subject ++ "\nSnippet: " ++ message.snippet ++ "\n\n" ++ message.snippet

/-- The words of a text, one blank between them, cut at a number of characters. -/
def firstCharsOneLine (value : String) (limit : Nat) : String :=
  String.ofList ((" ".intercalate (Mail.splitWhitespace value)).toList.take limit)

def headerPrefix (focused : Bool) : String := if focused then "▶ " else ""

def expandedMessageHeader (message : MessageItem) (focused : Bool) : String :=
  headerPrefix focused ++ "[-] " ++ message.sender ++ " · " ++ message.date

def collapsedMessageHeader (message : MessageItem) (focused : Bool) : String :=
  let snippet := firstCharsOneLine message.snippet 72
  if snippet = "" then headerPrefix focused ++ "[+] " ++ message.sender ++ " · " ++ message.date
  else headerPrefix focused ++ "[+] " ++ message.sender ++ " · " ++ message.date ++ " · " ++ snippet

/-- The text an expanded message shows below its header. -/
def stackBodyText (detail : Option MessageDetail) (message : MessageItem) : String :=
  (detail.map stackDetailText).getD (messageSummaryDetailText message)

def stackMessageBodyLineCount (detail : Option MessageDetail) (message : MessageItem) : Nat :=
  (LineCache.fromText (stackBodyText detail message)).lineCount

/-- `TextLineCache`. -/
structure TextLineCache where
  text : String
  lines : LineCache

def TextLineCache.new (text : String) : TextLineCache := ⟨text, .fromText text⟩

/-- What the detail pane keeps of its text and its cursor. -/
structure DetailView where
  textCache : Option TextLineCache
  cursor : Nat
  selectionFocus : Nat

namespace AppState

variable (app : AppState)

def isConversationMessageExpanded (id : Uuid) : Bool :=
  app.messages.length = 1 || id ∈ app.conversationDetail.expandedMessageIds

/-- The loaded body of a message: from the stack, or the one of the pane. -/
def loadedDetail (message : MessageItem) : Option MessageDetail :=
  (app.conversationDetail.detailsById message.id).or
    (app.detail.filter fun detail => detail.id = message.id)

def messageHeader (message : MessageItem) : String :=
  let focused := app.focusedMessageId = some message.id
  if app.isConversationMessageExpanded message.id then expandedMessageHeader message focused
  else collapsedMessageHeader message focused

/-- One message of the stack. -/
def stackMessageText (message : MessageItem) : String :=
  if app.isConversationMessageExpanded message.id then
    app.messageHeader message ++ "\n" ++ stackBodyText (app.loadedDetail message) message
  else app.messageHeader message

def conversationDetailText : Option String :=
  match app.messages with
  | [] => app.detail.map detailText
  | [message] =>
    some (((app.loadedDetail message).map detailText).getD (messageSummaryDetailText message))
  | messages => some ("\n".intercalate (messages.map app.stackMessageText))

/-- `rebuild_detail_text_cache`. -/
def rebuildDetailTextCache (view : DetailView) : DetailView :=
  { view with textCache := app.conversationDetailText.map .new }

/-- The loop of `focused_message_header_line`, from the line it has counted to. -/
def headerLineFrom (focused : Uuid) (line : Nat) : List MessageItem → Nat
  | [] => 0
  | message :: rest =>
    if message.id = focused then line
    else
      let body :=
        if app.isConversationMessageExpanded message.id then
          stackMessageBodyLineCount (app.loadedDetail message) message
        else 0
      headerLineFrom focused (line + 1 + body) rest

def focusedMessageHeaderLine : Nat :=
  match app.focusedMessageId with
  | none => 0
  | some focused =>
    if app.messages.length ≤ 1 then 0 else app.headerLineFrom focused 0 app.messages

def placeDetailCursorAtFocusedMessage (view : DetailView) : DetailView :=
  let line := app.focusedMessageHeaderLine
  { view with
    cursor := (view.textCache.map fun cache => cache.lines.lineStart line).getD 0
    selectionFocus := line }

/-! ## The counted line -/

theorem count_ended (pieces : List (List Char)) :
    (ended '\n' pieces).count '\n' = (pieces.map fun piece => piece.count '\n' + 1).sum := by
  induction pieces with
  | nil => rfl
  | cons piece rest ih =>
    rw [ended_cons, List.count_append, List.count_append, ih, List.map_cons, List.sum_cons,
      List.count_singleton_self]

variable {app} {focused : Uuid} {front back : List MessageItem} {message : MessageItem}

theorem not_newline_firstCharsOneLine (value : String) (limit : Nat) :
    '\n' ∉ (firstCharsOneLine value limit).toList := by
  have hblank : Mail.isWhitespace '\n' = true := by decide
  have hwords : ∀ word ∈ (Mail.splitWhitespace value).map String.toList, '\n' ∉ word := by
    intro word hword hnewline
    obtain ⟨text, htext, rfl⟩ := List.mem_map.mp hword
    have hplain := (Mail.unbroken_of_mem_splitWhitespace htext).2 '\n' hnewline
    rw [hblank] at hplain
    cases hplain
  have hjoined : '\n' ∉ unlines ' ' ((Mail.splitWhitespace value).map String.toList) :=
    not_mem_unlines (by decide) hwords
  rw [firstCharsOneLine, String.toList_ofList, String.toList_intercalate]
  exact fun hmem => hjoined (List.mem_of_mem_take hmem)

/-- A message whose sender and date are written on one line. -/
def OneLineItem (message : MessageItem) : Prop :=
  '\n' ∉ message.sender.toList ∧ '\n' ∉ message.date.toList

instance OneLineItem.decidable (message : MessageItem) : Decidable (OneLineItem message) :=
  inferInstanceAs (Decidable (_ ∧ _))

theorem not_newline_headerPrefix (focused : Bool) : '\n' ∉ (headerPrefix focused).toList := by
  cases focused <;> decide

theorem not_newline_expandedMessageHeader (h : OneLineItem message) (focused : Bool) :
    '\n' ∉ (expandedMessageHeader message focused).toList := by
  have hmarks : '\n' ∉ "[-] ".toList ∧ '\n' ∉ " · ".toList := by decide
  simp only [expandedMessageHeader, String.toList_append, List.mem_append, not_or]
  exact ⟨⟨⟨⟨not_newline_headerPrefix focused, hmarks.1⟩, h.1⟩, hmarks.2⟩, h.2⟩

theorem not_newline_collapsedMessageHeader (h : OneLineItem message) (focused : Bool) :
    '\n' ∉ (collapsedMessageHeader message focused).toList := by
  have hmarks : '\n' ∉ "[+] ".toList ∧ '\n' ∉ " · ".toList := by decide
  have hfront := not_newline_headerPrefix focused
  have hsnippet := not_newline_firstCharsOneLine message.snippet 72
  unfold collapsedMessageHeader
  dsimp only
  split_ifs
  · simp only [String.toList_append, List.mem_append, not_or]
    exact ⟨⟨⟨⟨hfront, hmarks.1⟩, h.1⟩, hmarks.2⟩, h.2⟩
  · simp only [String.toList_append, List.mem_append, not_or]
    exact ⟨⟨⟨⟨⟨⟨hfront, hmarks.1⟩, h.1⟩, hmarks.2⟩, h.2⟩, hmarks.2⟩, hsnippet⟩

theorem not_newline_messageHeader (app : AppState) (h : OneLineItem message) :
    '\n' ∉ (app.messageHeader message).toList := by
  unfold messageHeader
  dsimp only
  split
  · exact not_newline_expandedMessageHeader h _
  · exact not_newline_collapsedMessageHeader h _

/-- The lines that the count adds for a message are those of its text. -/
theorem count_stackMessageText (h : OneLineItem message) :
    (app.stackMessageText message).toList.count '\n' =
      if app.isConversationMessageExpanded message.id then
        stackMessageBodyLineCount (app.loadedDetail message) message
      else 0 := by
  have hheader : (app.messageHeader message).toList.count '\n' = 0 :=
    List.count_eq_zero.mpr (not_newline_messageHeader app h)
  unfold stackMessageText
  split_ifs
  · have hlines : stackMessageBodyLineCount (app.loadedDetail message) message =
        (stackBodyText (app.loadedDetail message) message).toList.count '\n' + 1 := by
      rw [stackMessageBodyLineCount, LineCache.lineCount_fromText]
      exact length_splitOn '\n' _
    have hbreak : "\n".toList.count '\n' = 1 := by decide
    rw [String.toList_append, String.toList_append, List.count_append, List.count_append, hheader,
      hbreak, hlines]
    omega
  · exact hheader

/-- The count stops at the focused message, behind the texts of those before it. -/
theorem headerLineFrom_eq (hlines : ∀ m ∈ front, OneLineItem m) (line : Nat)
    (hfirst : ∀ m ∈ front, m.id ≠ focused) (hmessage : message.id = focused) :
    app.headerLineFrom focused line (front ++ message :: back) =
      line + (ended '\n' (front.map fun m => (app.stackMessageText m).toList)).count '\n' := by
  induction front generalizing line with
  | nil => rw [List.nil_append, headerLineFrom, if_pos hmessage]; rfl
  | cons first rest ih =>
    obtain ⟨hline, hrest⟩ := List.forall_mem_cons.mp hlines
    obtain ⟨hne, hlater⟩ := List.forall_mem_cons.mp hfirst
    have hcount := @count_stackMessageText app _ hline
    rw [List.cons_append, headerLineFrom, if_neg hne, ih hrest _ hlater, count_ended, count_ended,
      List.map_cons, List.map_cons, List.sum_cons, hcount]
    omega

/-- Where the text has the header of a message: behind the texts of those before it, on a
line of its own. -/
theorem exists_header_in_text (hmany : 1 < app.messages.length)
    (hsplit : app.messages = front ++ message :: back) :
    ∃ text rest, app.conversationDetailText = some text ∧
      text.toList = ended '\n' (front.map fun m => (app.stackMessageText m).toList) ++
        ((app.messageHeader message).toList ++ behind '\n' rest) := by
  have htext : app.conversationDetailText =
      some ("\n".intercalate (app.messages.map app.stackMessageText)) := by
    unfold conversationDetailText
    split
    next h => rw [h] at hmany; exact absurd hmany (by decide)
    next h => rw [h] at hmany; exact absurd hmany (by simp)
    next => rfl
  have hpieces : ("\n".intercalate (app.messages.map app.stackMessageText)).toList =
      unlines '\n' (front.map (fun m => (app.stackMessageText m).toList) ++
        (app.stackMessageText message).toList ::
          back.map fun m => (app.stackMessageText m).toList) := by
    rw [String.toList_intercalate, List.map_map, hsplit, List.map_append, List.map_cons]
    rfl
  rw [unlines_append_cons] at hpieces
  by_cases hexpanded : app.isConversationMessageExpanded message.id = true
  · have hmessage : (app.stackMessageText message).toList = (app.messageHeader message).toList ++
        '\n' :: (stackBodyText (app.loadedDetail message) message).toList := by
      rw [stackMessageText, if_pos hexpanded, String.toList_append, String.toList_append,
        List.append_assoc]
      rfl
    refine ⟨_, (stackBodyText (app.loadedDetail message) message).toList ::
      back.map (fun m => (app.stackMessageText m).toList), htext, hpieces.trans ?_⟩
    have hbehind := unlines_append_cons '\n' [] (stackBodyText (app.loadedDetail message) message).toList
      (back.map fun m => (app.stackMessageText m).toList)
    rw [List.nil_append, ended_nil, List.nil_append] at hbehind
    rw [hmessage, behind, hbehind, List.append_assoc]
    rfl
  · refine ⟨_, back.map (fun m => (app.stackMessageText m).toList), htext, hpieces.trans ?_⟩
    rw [stackMessageText, if_neg hexpanded]

/-- In a stack the counted line is the line of the focused message's header, by the index of
the drawn text, and the cursor goes to its start; without a stack it stays at the top. -/
theorem focused_header_line_agrees (app : AppState) (view : DetailView)
    (hlines : ∀ m ∈ app.messages, OneLineItem m) :
    (∀ front message back, 1 < app.messages.length → app.messages = front ++ message :: back →
      (∀ m ∈ front, m.id ≠ message.id) → app.focusedMessageId = some message.id →
        ∃ text rest, app.conversationDetailText = some text ∧
          (app.rebuildDetailTextCache view).textCache = some (.new text) ∧
          text.toList = ended '\n' (front.map fun m => (app.stackMessageText m).toList) ++
            ((app.messageHeader message).toList ++ behind '\n' rest) ∧
          (LineCache.fromText text).line text app.focusedMessageHeaderLine =
            some (app.messageHeader message) ∧
          (app.placeDetailCursorAtFocusedMessage (app.rebuildDetailTextCache view)).cursor =
            (ended '\n' (front.map fun m => (app.stackMessageText m).toList)).length ∧
          (app.placeDetailCursorAtFocusedMessage
            (app.rebuildDetailTextCache view)).selectionFocus = app.focusedMessageHeaderLine) ∧
      (app.messages.length ≤ 1 → app.focusedMessageHeaderLine = 0 ∧
        (app.placeDetailCursorAtFocusedMessage (app.rebuildDetailTextCache view)).cursor = 0) := by
  constructor
  · intro front message back hmany hsplit hfirst hfocused
    have hmessage := hlines message (by rw [hsplit]; simp)
    have hfront : ∀ m ∈ front, OneLineItem m := fun m hm => hlines m (by rw [hsplit]; simp [hm])
    obtain ⟨text, rest, htext, hdrawn⟩ := exists_header_in_text hmany hsplit
    have hcache : (app.rebuildDetailTextCache view).textCache = some (.new text) := by
      rw [rebuildDetailTextCache, htext]
      rfl
    have hline : app.focusedMessageHeaderLine =
        (ended '\n' (front.map fun m => (app.stackMessageText m).toList)).count '\n' := by
      unfold focusedMessageHeaderLine
      rw [hfocused]
      dsimp only
      rw [if_neg (by omega), hsplit, headerLineFrom_eq hfront 0 hfirst rfl, Nat.zero_add]
    obtain ⟨hfound, hstart⟩ := LineCache.line_behind hdrawn (not_newline_messageHeader app hmessage)
    refine ⟨text, rest, htext, hcache, hdrawn, ?_, ?_, rfl⟩
    · rw [hline, hfound, String.ofList_toList]
    · rw [placeDetailCursorAtFocusedMessage, hcache, hline]
      exact hstart
  · intro hfew
    have hzero : app.focusedMessageHeaderLine = 0 := by
      unfold focusedMessageHeaderLine
      split
      · rfl
      · rw [if_pos hfew]
    refine ⟨hzero, ?_⟩
    rw [placeDetailCursorAtFocusedMessage, hzero, rebuildDetailTextCache]
    cases app.conversationDetailText with
    | none => rfl
    | some text => exact LineCache.lineStart_zero text

end AppState

def openedLunch : MessageItem :=
  ⟨.filled 1, some (.filled 9), "Lunch", "ann@example.org", "2026-05-01 09:00", "Noon?", []⟩

def laterLunch : MessageItem :=
  ⟨.filled 2, some (.filled 9), "Re: Lunch", "bob@example.org", "2026-05-02 09:00", "", []⟩

/-- A stack of two with the first message expanded and the second one focused. -/
def lunchStack : AppState :=
  { AppState.initial with
    messages := [openedLunch, laterLunch]
    conversationDetail := ⟨some (.filled 2), {.filled 1}, fun _ => none⟩ }

theorem later_lunch_header_is_found :
    ∃ text, lunchStack.conversationDetailText = some text ∧
      (LineCache.fromText text).line text 5 = some (lunchStack.messageHeader laterLunch) := by
  have hcount : lunchStack.focusedMessageHeaderLine = 5 := by decide
  obtain ⟨text, rest, htext, -, -, hline, -⟩ :=
    (lunchStack.focused_header_line_agrees ⟨none, 0, 0⟩ (by decide)).1 [openedLunch] laterLunch []
      (by decide) rfl (by decide) rfl
  rw [hcount] at hline
  exact ⟨text, htext, hline⟩

end Postblox.Tui
