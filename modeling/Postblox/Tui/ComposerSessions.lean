import Postblox.Lib.Machine
import Postblox.Tui.Commands
import Postblox.Tui.ReopenedDraft

/-!
# What becomes of a composed text

A composer is typed into, saved, sent, left or discarded, with the prompt for an attachment
and the command line in between; all the while other parts of the client go on. A clean
composer holds what was last saved, so what is sent is what is shown, and a composer with
unsaved content closes only on the answer to a question.
-/
namespace Postblox.Tui

open Lib

def maxComposePathChars : Nat := 4096

def CommandError.text : CommandError → String
  | .empty => "empty command"
  | .unknown name => s!"unknown command '{name}'"
  | .usage text => s!"usage: {text}"

/-- The text of `record_command_parse_error`. -/
def CommandError.hint (error : CommandError) : String :=
  match error with
  | .unknown name =>
    match nearestCommandName name with
    | some suggestion => error.text ++ " — did you mean :" ++ suggestion ++ "?"
    | none => error.text
  | .empty | .usage _ => error.text

namespace AppState

variable (app : AppState)

/-! ## The prompt for an attachment -/

def cancelComposeAttach : AppState :=
  { app.mapComposer fun c => { c with attachInput := "" } with mode := .compose }

/-- `probe` reads the file system and checks the sizes; it gives the text of the error. -/
def confirmComposeAttach (probe : String → Except String ComposerAttachment) :
    Except String AppState :=
  match app.composer with
  | none => .error "cannot read : no composer"
  | some c =>
    let raw := Mail.trimmed c.attachInput
    if raw = "" then .error "file not found: (empty)"
    else
      match probe raw with
      | .error text => .error text
      | .ok attachment => .ok { app with
          composer := some { c with
            attachments := c.attachments ++ [attachment]
            attachInput := ""
            dirty := true
            selectedAttachment := c.attachments.length }
          mode := .compose }

def pushComposeAttachChar (ch : Char) : AppState :=
  app.mapComposer fun c =>
    if isControl ch || maxComposePathChars ≤ charCount c.attachInput then c
    else { c with attachInput := c.attachInput.push ch }

def backspaceComposeAttach : AppState :=
  app.mapComposer fun c => { c with attachInput := String.ofList c.attachInput.toList.dropLast }

def handleComposeAttachKey (probe : String → Except String ComposerAttachment) (key : KeyEvent) :
    AppState :=
  match key.code with
  | .esc => app.cancelComposeAttach
  | .enter =>
    match app.confirmComposeAttach probe with
    | .ok next => next
    | .error text => (app.setError text).cancelComposeAttach
  | .backspace => app.backspaceComposeAttach
  | .char ch => if key.control then app else app.pushComposeAttachChar ch
  | _ => app

/-! ## The command line under a composer -/

def finishCommand : AppState :=
  { app with mode := if app.composer.isSome then .compose else .normal, commandInput := "" }

def cancelCommandMode : AppState := { app.finishCommand with error := none }

def enterComposer (accountId : Uuid) : AppState :=
  { app with composer := some (.new accountId), mode := .compose, error := none }

def enterComposerWithPrefill (accountId : Uuid) (prefill : ComposerPrefill) : AppState :=
  { app with composer := some (.fromPrefill accountId prefill), mode := .compose, error := none }

def enterComposerForExistingDraft (id : Uuid) (draft : ComposerDraft) (focus : ComposeField) :
    AppState :=
  { app with composer := some (.ofExistingDraft id draft focus), mode := .compose, error := none }

end AppState

/-! ## What the daemon took -/

/-- A draft that was stored under an id or read from it, and a message that was sent from the
draft of an id, with what the composer showed. -/
inductive Taken where
  | kept (id : Uuid) (shown : ComposerDraft)
  | sent (id : Uuid) (shown : ComposerDraft)

/-- What was last stored under an id or read from it; the newest entry comes first. -/
def keptUnder (id : Uuid) : List Taken → Option ComposerDraft
  | [] => none
  | .kept other shown :: rest => if other = id then some shown else keptUnder id rest
  | .sent _ _ :: rest => keptUnder id rest

namespace AppState

variable (app : AppState) (client : DraftClient)

/-- What `save_composer` got stored. -/
def takenBySave : List Taken :=
  match app.composer, (app.saveComposer client).2 with
  | some c, some id => [.kept id c.draft]
  | _, _ => []

/-- What `send_composer` got stored and sent. -/
def takenBySend : List Taken :=
  match app.composer with
  | none => []
  | some c =>
    let clean := if c.dirty then none else c.draftId
    match clean.or (app.saveComposer client).2 with
    | none => []
    | some id =>
      let stored := if clean.isSome then [] else app.takenBySave client
      match client.sendDraft c.accountId id with
      | .ok () => .sent id c.draft :: stored
      | .error _ => stored

def takenByKey (key : KeyEvent) : List Taken :=
  if app.mode = .confirmDiscard then []
  else
    match key.code with
    | .char ch =>
      if ch = 's' ∧ key.control then app.takenBySave client
      else if ch = 'x' ∧ key.control then app.takenBySend client
      else []
    | _ => []

/-- `handle_command_key`; `none` for a command that is not about this composer. -/
def handleCommandKey (key : KeyEvent) : Option (AppState × List Taken) :=
  match key.code with
  | .esc => some (app.cancelCommandMode, [])
  | .enter =>
    let next := app.finishCommand
    if Mail.trimmed app.commandInput = "" then some (next, [])
    else
      match parseCommand app.commandInput with
      | .ok .write =>
        if next.composer.isSome then some ((next.saveComposer client).1, next.takenBySave client)
        else some (next, [])
      | .ok _ => none
      | .error error => some (next.setError error.hint, [])
  | .backspace => some ({ app with commandInput := commandKey app.commandInput .backspace }, [])
  | .tab => some ({ app with commandInput := commandKey app.commandInput .tab }, [])
  | .char ch =>
    match pushCommandChar app.commandInput ch with
    | some line => some ({ app with commandInput := line }, [])
    | none => some (app.setError s!"command is limited to {maxCommandChars} characters", [])
  | _ => some (app, [])

end AppState

/-! ## Sessions -/

/-- The composer has the keys, or its prompts. -/
def InputMode.composes : InputMode → Bool
  | .compose | .composeAttachPath | .confirmDiscard => true
  | .normal | .command | .confirmDelete | .quickSearch => false

/-- The client and what the daemon took, newest first. -/
structure ComposerSession where
  app : AppState
  taken : List Taken

/-- A key goes where the mode sends it, with the answers there would be for it. A composer is
opened by a key of the panes or by a command. The rest of the client changes what it likes
but the composer; it asks no question about it and gives it no keys unless there is one. -/
inductive SessionAct where
  | key (client : DraftClient) (probe : String → Except String ComposerAttachment) (key : KeyEvent)
  | compose (accountId : Uuid)
  | answer (accountId : Uuid) (prefill : ComposerPrefill)
  | reopen (id : Uuid) (draft : ComposerDraft) (focus : ComposeField)
  | other (next : AppState)

namespace ComposerSession

def start (app : AppState) : ComposerSession := ⟨{ app with composer := none, mode := .normal }, []⟩

/-- The client when a composer is about to open: the panes have the keys, or a command was
entered. -/
def opening (s : ComposerSession) : Option AppState :=
  match s.app.mode with
  | .normal => some s.app
  | .command => some s.app.finishCommand
  | _ => none

def step (s : ComposerSession) : SessionAct → Option ComposerSession
  | .key client probe key =>
    match s.app.mode with
    | .compose | .confirmDiscard =>
      (s.app.handleComposerKey client key).map fun next =>
        ⟨next, s.app.takenByKey client key ++ s.taken⟩
    | .composeAttachPath => some ⟨s.app.handleComposeAttachKey probe key, s.taken⟩
    | .command => (s.app.handleCommandKey client key).map fun (next, new) => ⟨next, new ++ s.taken⟩
    | .normal | .confirmDelete | .quickSearch => none
  | .compose accountId => s.opening.map fun app => ⟨app.enterComposer accountId, s.taken⟩
  | .answer accountId prefill =>
    s.opening.map fun app => ⟨app.enterComposerWithPrefill accountId prefill, s.taken⟩
  | .reopen id draft focus =>
    s.opening.map fun app => ⟨app.enterComposerForExistingDraft id draft focus,
      .kept id (ComposerState.ofExistingDraft id draft focus).draft :: s.taken⟩
  | .other next =>
    if next.mode = .confirmDiscard ∧ s.app.mode ≠ .confirmDiscard ∨
        next.mode.composes ∧ s.app.composer.isNone then none
    else some ⟨{ next with composer := s.app.composer }, s.taken⟩

end ComposerSession

/-! ## What a key does to the composer -/

namespace ComposerState

/-- What a save sends, and what tells whether one is due. -/
def record (c : ComposerState) : ComposerDraft × Bool × Bool × Option Uuid :=
  (c.draft, c.hasContent, c.dirty, c.draftId)

theorem eq_of_record {c c' : ComposerState} (h : c'.record = c.record) :
    c'.draft = c.draft ∧ c'.hasContent = c.hasContent ∧ c'.dirty = c.dirty ∧
      c'.draftId = c.draftId := by
  simpa only [record, Prod.mk.injEq] using h

/-- Nothing that is saved changed, or the composer is marked. -/
def Touched (c' c : ComposerState) : Prop :=
  c'.record = c.record ∨ c'.dirty = true ∧ c'.draftId = c.draftId

section Records

variable (c : ComposerState)

theorem record_setFocused (cursor : Nat) : (c.setFocused c.focusedText cursor).record = c.record := by
  unfold setFocused focusedText
  cases c.focused <;> rfl

theorem record_resetBodyNavigationState : c.resetBodyNavigationState.record = c.record := by
  unfold resetBodyNavigationState
  split_ifs
  · rfl
  · rfl

theorem record_setFocusedCursor (next : Nat) : (c.setFocusedCursor next).1.record = c.record := by
  unfold setFocusedCursor
  dsimp only
  split_ifs
  · exact c.record_setFocused _
  · rw [record_resetBodyNavigationState, record_setFocused]

theorem record_moveFocusedCursorLeft : c.moveFocusedCursorLeft.1.record = c.record := by
  unfold moveFocusedCursorLeft
  split_ifs
  · rfl
  · rw [record_resetBodyNavigationState, record_setFocused]

theorem record_moveFocusedCursorRight : c.moveFocusedCursorRight.1.record = c.record := by
  unfold moveFocusedCursorRight
  dsimp only
  split_ifs
  · exact c.record_setFocused _
  · rw [record_resetBodyNavigationState, record_setFocused]

theorem record_moveBodyLine (delta : Int) (viewportHeight : Nat) :
    (c.moveBodyLine delta viewportHeight).1.record = c.record := by
  unfold moveBodyLine
  by_cases hbody : c.focused ≠ .body
  · rw [if_pos hbody]
  · rw [if_neg hbody]
    rfl

theorem record_startBodyLineSelection : c.startBodyLineSelection.1.record = c.record := by
  unfold startBodyLineSelection
  split_ifs
  · rfl
  · rfl

theorem record_toggleBodyLineSelection : c.toggleBodyLineSelection.1.record = c.record := by
  unfold toggleBodyLineSelection
  split_ifs
  · rfl
  · rfl
  · rfl

theorem draftId_setFocused (text : String) (cursor : Nat) :
    (c.setFocused text cursor).draftId = c.draftId := by
  unfold setFocused
  cases c.focused <;> rfl

theorem draftId_afterTextEdit : c.afterTextEdit.draftId = c.draftId := by
  unfold afterTextEdit
  split_ifs
  · rfl
  · rfl

variable {c} {c' : ComposerState} {changed : Bool}

theorem draftId_insertFocusedChar {ch : Char} (h : c.insertFocusedChar ch = some c') :
    c'.draftId = c.draftId := by
  obtain ⟨text, -, h⟩ := Option.bind_eq_some_iff.mp h
  obtain rfl := Option.some.inj h
  rw [draftId_afterTextEdit, draftId_setFocused]

theorem draftId_insertBodyNewline (h : c.insertBodyNewline = some c') :
    c'.draftId = c.draftId := by
  obtain ⟨body, -, h⟩ := Option.bind_eq_some_iff.mp h
  obtain rfl := Option.some.inj h
  rw [draftId_afterTextEdit]

theorem draftId_of_delete {first last : Nat}
    (h : (c.removeFocused first last).map (·, true) = some (c', changed)) :
    changed = true ∧ c'.draftId = c.draftId := by
  obtain ⟨removed, hremoved, heq⟩ := Option.map_eq_some_iff.mp h
  obtain ⟨rfl, rfl⟩ := Prod.mk.inj heq
  obtain ⟨text, -, h⟩ := Option.bind_eq_some_iff.mp hremoved
  obtain rfl := Option.some.inj h
  exact ⟨rfl, by rw [draftId_afterTextEdit, draftId_setFocused]⟩

/-- A deletion tells whether something went. -/
def Deletes (delete : ComposerState → Option (ComposerState × Bool)) : Prop :=
  ∀ c c' changed, delete c = some (c', changed) →
    changed = false ∧ c'.record = c.record ∨ changed = true ∧ c'.draftId = c.draftId

theorem deletes_before : Deletes deleteBeforeFocusedCursor := by
  intro c c' changed h
  simp only [deleteBeforeFocusedCursor] at h
  split_ifs at h
  · cases h
    exact .inl ⟨rfl, c.record_setFocused _⟩
  · exact .inr (draftId_of_delete h)

theorem deletes_at : Deletes deleteAtFocusedCursor := by
  intro c c' changed h
  simp only [deleteAtFocusedCursor] at h
  split_ifs at h
  · cases h
    exact .inl ⟨rfl, c.record_setFocused _⟩
  · exact .inr (draftId_of_delete h)

theorem deletes_word : Deletes deleteWordBeforeCursor := by
  intro c c' changed h
  simp only [deleteWordBeforeCursor] at h
  split_ifs at h
  · cases h
    exact .inl ⟨rfl, c.record_setFocused _⟩
  · cases h
    exact .inl ⟨rfl, rfl⟩
  · exact .inr (draftId_of_delete h)

end Records

end ComposerState

namespace AppState

variable {app next : AppState} {c : ComposerState} {client : DraftClient} {key : KeyEvent}

/-- No composer, and the panes have the keys. -/
def Closed (app : AppState) : Prop := app.composer = none ∧ app.mode = .normal

/-- What a key can do to an open composer, and what the daemon takes meanwhile. -/
inductive ComposerStep (app : AppState) (c : ComposerState) (key : KeyEvent) :
    AppState → List Taken → Prop
  | touched {next : AppState} {c' : ComposerState} (hcomposer : next.composer = some c')
      (htouched : c'.Touched c) (hmode : next.mode = .confirmDiscard → next = app) :
      ComposerStep app c key next []
  | saved {next : AppState} (id : Uuid)
      (hcomposer : next.composer = some { c with draftId := some id, dirty := false })
      (hmode : next.mode = .compose) : ComposerStep app c key next [.kept id c.draft]
  | sent {next : AppState} (id : Uuid) (hclosed : next.Closed) (hclean : c.dirty = false)
      (hid : c.draftId = some id) : ComposerStep app c key next [.sent id c.draft]
  | savedAndSent {next : AppState} (id : Uuid) (hclosed : next.Closed) :
      ComposerStep app c key next [.sent id c.draft, .kept id c.draft]
  | asked {next : AppState} {c' : ComposerState} (hcomposer : next.composer = some c')
      (hrecord : c'.record = c.record) (hunsaved : c.dirty = true ∧ c.hasContent = true) :
      ComposerStep app c key next []
  | left {next : AppState} (hclosed : next.Closed) (hsaved : c.dirty = true → c.hasContent = false) :
      ComposerStep app c key next []
  | discarded {next : AppState} (hclosed : next.Closed) (hasked : app.mode = .confirmDiscard)
      (hyes : key.code = .char 'y' ∨ key.code = .char 'Y') : ComposerStep app c key next []

/-! ### Saving and sending -/

theorem saveComposer_ok {id : Uuid} (hc : app.composer = some c)
    (h : (app.saveComposer client).2 = some id) :
    (app.saveComposer client).1.composer = some { c with draftId := some id, dirty := false } ∧
      (app.saveComposer client).1.mode = app.mode ∧ app.takenBySave client = [.kept id c.draft] := by
  have htaken : app.takenBySave client = [.kept id c.draft] := by simp only [takenBySave, hc, h]
  simp only [saveComposer, hc] at h ⊢
  split at h
  next =>
    obtain rfl := Option.some.inj h
    exact ⟨by simp [mapComposer, clearError, hc], rfl, htaken⟩
  next => cases h

theorem saveComposer_failed (hc : app.composer = some c) (h : (app.saveComposer client).2 = none) :
    (app.saveComposer client).1.composer = some c ∧
      (app.saveComposer client).1.mode = app.mode ∧ app.takenBySave client = [] := by
  have htaken : app.takenBySave client = [] := by simp only [takenBySave, hc, h]
  simp only [saveComposer, hc] at h ⊢
  split at h
  next => cases h
  next => exact ⟨hc, rfl, htaken⟩

theorem composerStep_save (front : AppState) (hc : app.composer = some c)
    (hmode : app.mode = .compose) :
    ComposerStep front c key (app.saveComposer client).1 (app.takenBySave client) := by
  cases h : (app.saveComposer client).2 with
  | none =>
    obtain ⟨hcomposer, hsame, htaken⟩ := saveComposer_failed hc h
    rw [htaken]
    refine .touched hcomposer (.inl rfl) ?_
    rw [hsame, hmode]
    exact nofun
  | some id =>
    obtain ⟨hcomposer, hsame, htaken⟩ := saveComposer_ok hc h
    rw [htaken]
    exact .saved id hcomposer (hsame.trans hmode)

/-- A clean composer that has an id is sent as it is stored. -/
theorem composerStep_sendClean {id : Uuid} (hc : app.composer = some c) (hmode : app.mode = .compose)
    (hdirty : c.dirty = false) (hid : c.draftId = some id) :
    ComposerStep app c key (app.sendComposer client) (app.takenBySend client) := by
  cases hanswer : client.sendDraft c.accountId id with
  | ok =>
    have hsend : app.sendComposer client = app.clearError.exitComposer := by
      simp [sendComposer, hc, hdirty, hid, hanswer]
    have htaken : app.takenBySend client = [.sent id c.draft] := by
      simp [takenBySend, hc, hdirty, hid, hanswer]
    rw [hsend, htaken]
    exact .sent id ⟨rfl, rfl⟩ hdirty hid
  | error message =>
    have hsend : app.sendComposer client = app.clearError.setError message := by
      simp [sendComposer, hc, hdirty, hid, hanswer]
    have htaken : app.takenBySend client = [] := by
      simp [takenBySend, hc, hdirty, hid, hanswer]
    rw [hsend, htaken]
    refine .touched hc (.inl rfl) fun hasked => ?_
    exact absurd (hmode.symm.trans hasked) nofun

/-- The end of `send_composer`. -/
def afterSend (saved : AppState) : Except String Unit → AppState
  | .ok () => saved.clearError.exitComposer
  | .error message => saved.clearError.setError message

/-- Any other is saved first. -/
theorem sendComposer_due (hc : app.composer = some c) (hdue : c.dirty = true ∨ c.draftId = none) :
    app.sendComposer client = (app.saveComposer client).2.elim (app.saveComposer client).1
      fun id => afterSend (app.saveComposer client).1 (client.sendDraft c.accountId id) := by
  unfold sendComposer
  rw [hc]
  dsimp only
  generalize app.saveComposer client = stored
  obtain ⟨saved, answer⟩ := stored
  rcases hdue with hdirty | hid
  · rw [hdirty]
    cases c.draftId <;> cases answer <;> rfl
  · rw [hid]
    cases answer <;> rfl

theorem composerStep_sendSaved (hc : app.composer = some c) (hmode : app.mode = .compose)
    (hdue : c.dirty = true ∨ c.draftId = none) :
    ComposerStep app c key (app.sendComposer client) (app.takenBySend client) := by
  have hclean : (if c.dirty then none else c.draftId) = none := by
    rcases hdue with hdirty | hid
    · rw [if_pos hdirty]
    · rw [hid, ite_self]
  have hsave := @composerStep_save app c client key app hc hmode
  rw [sendComposer_due hc hdue]
  cases hanswer : (app.saveComposer client).2 with
  | none =>
    obtain ⟨-, -, hnothing⟩ := saveComposer_failed hc hanswer
    have htaken : app.takenBySend client = app.takenBySave client := by
      simp [takenBySend, hc, hclean, hanswer, hnothing]
    rw [htaken]
    exact hsave
  | some id =>
    obtain ⟨hcomposer, hsame, hstored⟩ := saveComposer_ok hc hanswer
    rw [Option.elim_some]
    cases hsent : client.sendDraft c.accountId id with
    | ok =>
      have htaken : app.takenBySend client = [.sent id c.draft, .kept id c.draft] := by
        simp [takenBySend, hc, hclean, hanswer, hsent, hstored]
      rw [htaken]
      exact .savedAndSent id ⟨rfl, rfl⟩
    | error message =>
      have htaken : app.takenBySend client = [.kept id c.draft] := by
        simp [takenBySend, hc, hclean, hanswer, hsent, hstored]
      rw [htaken]
      exact .saved id hcomposer (hsame.trans hmode)

theorem composerStep_send (hc : app.composer = some c) (hmode : app.mode = .compose) :
    ComposerStep app c key (app.sendComposer client) (app.takenBySend client) := by
  by_cases hdirty : c.dirty = true
  · exact composerStep_sendSaved hc hmode (.inl hdirty)
  · cases hid : c.draftId with
    | none => exact composerStep_sendSaved hc hmode (.inr hid)
    | some id => exact composerStep_sendClean hc hmode (Bool.not_eq_true _ ▸ hdirty) hid

/-! ### The other keys -/

/-- The mode stays, and the composer is touched at most. -/
def Touching (app : AppState) (c : ComposerState) (next : AppState) : Prop :=
  ∃ c', next.composer = some c' ∧ c'.Touched c ∧ next.mode = app.mode

theorem Touching.step (h : Touching app c next) (hnot : app.mode ≠ .confirmDiscard) :
    ComposerStep app c key next [] := by
  obtain ⟨c', hcomposer, htouched, hmode⟩ := h
  exact .touched hcomposer htouched fun hasked => absurd (hmode.symm.trans hasked) hnot

theorem touching_map {f : ComposerState → ComposerState} (hc : app.composer = some c)
    (hf : (f c).Touched c) : Touching app c (app.mapComposer f) :=
  ⟨f c, by rw [mapComposer, hc]; rfl, hf, rfl⟩

theorem touching_same (hc : app.composer = some c) : Touching app c app := ⟨c, hc, .inl rfl, rfl⟩

theorem touching_page (hc : app.composer = some c) (delta : Int) :
    Touching app c (app.composerPage delta) := by
  unfold composerPage
  split
  · exact touching_map hc (.inl (c.record_moveBodyLine delta _))
  · exact touching_same hc

theorem touching_vertical (hc : app.composer = some c) (delta : Int) (shift : Bool)
    (step : ComposeField → ComposeField) :
    Touching app c (app.composerVertical delta shift step) := by
  unfold composerVertical
  split
  · split
    · refine ⟨(c.startBodyLineSelection.1.moveBodyLine delta composerBodyKeyViewportLines).1,
        by simp [moveComposerBodyLine, mapComposer, hc], .inl ?_, rfl⟩
      rw [ComposerState.record_moveBodyLine, ComposerState.record_startBodyLineSelection]
    · exact touching_map hc (.inl (c.record_moveBodyLine delta _))
  · exact touching_map hc (.inl rfl)

theorem touching_push {ch : Char} {pushed : Bool} (hc : app.composer = some c)
    (h : app.pushComposerChar ch = some (next, pushed)) : Touching app c next := by
  simp only [pushComposerChar, hc] at h
  split at h
  · cases h
    exact touching_same hc
  · obtain ⟨c', hinsert, heq⟩ := Option.map_eq_some_iff.mp h
    cases heq
    have hid := ComposerState.draftId_insertFocusedChar hinsert
    exact ⟨_, rfl, .inr ⟨rfl, hid⟩, rfl⟩

theorem touching_enter {entered : Bool} (hc : app.composer = some c)
    (h : app.composerEnter = some (next, entered)) : Touching app c next := by
  simp only [composerEnter, hc] at h
  split_ifs at h
  · cases h
    exact touching_same hc
  · obtain ⟨c', hinsert, heq⟩ := Option.map_eq_some_iff.mp h
    cases heq
    have hid := ComposerState.draftId_insertBodyNewline hinsert
    exact ⟨_, rfl, .inr ⟨rfl, hid⟩, rfl⟩
  · cases h
    exact ⟨_, rfl, .inl rfl, rfl⟩

theorem touching_delete {delete : ComposerState → Option (ComposerState × Bool)}
    (hdelete : ComposerState.Deletes delete) (hc : app.composer = some c)
    (h : app.deleteInComposer delete = some next) : Touching app c next := by
  simp only [deleteInComposer, hc] at h
  obtain ⟨⟨c', changed⟩, hgone, rfl⟩ := Option.map_eq_some_iff.mp h
  refine ⟨_, rfl, ?_, rfl⟩
  rcases hdelete c c' changed hgone with ⟨rfl, hrecord⟩ | ⟨rfl, hid⟩
  · refine .inl ?_
    rw [← hrecord, Bool.false_or]
  · exact .inr ⟨rfl, hid⟩

theorem touching_remove (hc : app.composer = some c) :
    Touching app c app.removeSelectedComposeAttachment := by
  refine touching_map hc ?_
  split_ifs
  · exact .inl rfl
  · exact .inr ⟨rfl, rfl⟩

theorem touching_select (hc : app.composer = some c) (delta : Int) :
    Touching app c (app.moveComposeAttachmentSelection delta) := by
  refine touching_map hc ?_
  split_ifs
  · exact .inl rfl
  · exact .inl rfl

theorem touching_setError {message : String} (h : Touching app c next) :
    Touching app c (next.setError message) := h

/-- The arms for characters behind those that save and send. -/
theorem composerStep_char {ch : Char} (hc : app.composer = some c)
    (hnot : app.mode ≠ .confirmDiscard)
    (hsave : ¬ (ch = 's' ∧ key.control = true)) (hsend : ¬ (ch = 'x' ∧ key.control = true))
    (h : app.handleComposerChar client key.control ch = some next) :
    ComposerStep app c key next [] := by
  unfold handleComposerChar at h
  rw [if_neg hsave, if_neg hsend] at h
  obtain ⟨-, h⟩ | ⟨-, h⟩ := ite_eq_iff.mp h
  · cases h
    exact .touched hc (.inl rfl) nofun
  obtain ⟨-, h⟩ | ⟨-, h⟩ := ite_eq_iff.mp h
  · cases h
    have hattach : app.beginComposeAttach.composer = some { c with attachInput := "" } ∧
        app.beginComposeAttach.mode = .composeAttachPath := by
      rw [beginComposeAttach, hc]
      exact ⟨rfl, rfl⟩
    refine .touched hattach.1 (.inl rfl) ?_
    rw [hattach.2]
    exact nofun
  obtain ⟨-, h⟩ | ⟨-, h⟩ := ite_eq_iff.mp h
  · cases h
    exact (touching_remove hc).step hnot
  obtain ⟨-, h⟩ | ⟨-, h⟩ := ite_eq_iff.mp h
  · cases h
    exact (touching_select hc _).step hnot
  obtain ⟨-, h⟩ | ⟨-, h⟩ := ite_eq_iff.mp h
  · cases h
    exact (touching_select hc _).step hnot
  obtain ⟨-, h⟩ | ⟨-, h⟩ := ite_eq_iff.mp h
  · cases h
    exact (touching_page hc _).step hnot
  obtain ⟨-, h⟩ | ⟨-, h⟩ := ite_eq_iff.mp h
  · cases h
    exact (touching_page hc _).step hnot
  obtain ⟨-, h⟩ | ⟨-, h⟩ := ite_eq_iff.mp h
  · cases h
    exact (touching_map hc (.inl c.record_toggleBodyLineSelection)).step hnot
  obtain ⟨-, h⟩ | ⟨-, h⟩ := ite_eq_iff.mp h
  · exact (touching_delete ComposerState.deletes_word hc h).step hnot
  obtain ⟨-, h⟩ | ⟨-, h⟩ := ite_eq_iff.mp h
  · cases h
    exact (touching_same hc).step hnot
  · obtain ⟨⟨pushed, ok⟩, hpush, rfl⟩ := Option.map_eq_some_iff.mp h
    have htouching := touching_push hc hpush
    dsimp only
    split
    · exact htouching.step hnot
    · exact (touching_setError htouching).step hnot

theorem composerStep_esc (hc : app.composer = some c) (hnot : app.mode ≠ .confirmDiscard) :
    ComposerStep app c key app.composerEsc [] := by
  have hrecord : c.clearBodySelection.1.record = c.record := rfl
  simp only [composerEsc, hc]
  split_ifs with hselected hneeds
  · exact .touched rfl (.inl hrecord) fun hasked => absurd hasked hnot
  · simp only [composerNeedsDiscardConfirmation, Option.any_some, Bool.and_eq_true] at hneeds
    exact .asked rfl hrecord hneeds
  · simp only [composerNeedsDiscardConfirmation, Option.any_some, Bool.and_eq_true, not_and,
      Bool.not_eq_true] at hneeds
    exact .left ⟨rfl, rfl⟩ hneeds

theorem composerStep_confirm (hc : app.composer = some c) (hmode : app.mode = .confirmDiscard) :
    ComposerStep app c key (app.handleConfirmDiscardKey key) [] := by
  unfold handleConfirmDiscardKey
  split
  next hyes => exact .discarded ⟨rfl, rfl⟩ hmode (.inl hyes)
  next hyes => exact .discarded ⟨rfl, rfl⟩ hmode (.inr hyes)
  · exact .touched hc (.inl rfl) nofun
  · exact .touched hc (.inl rfl) nofun
  · exact .touched hc (.inl rfl) nofun
  · exact .touched hc (.inl rfl) fun _ => rfl

/-- Every key, by its arm. -/
theorem composerStep_key (hc : app.composer = some c)
    (hmode : app.mode = .compose ∨ app.mode = .confirmDiscard)
    (h : app.handleComposerKey client key = some next) :
    ComposerStep app c key next (app.takenByKey client key) := by
  rcases hmode with hmode | hmode
  · have hnot : app.mode ≠ .confirmDiscard := by rw [hmode]; exact nofun
    unfold handleComposerKey at h
    unfold takenByKey
    rw [if_neg hnot] at h ⊢
    cases hcode : key.code with
    | char ch =>
      rw [hcode] at h
      by_cases hsave : ch = 's' ∧ key.control = true
      · dsimp only at h ⊢
        rw [handleComposerChar, if_pos hsave] at h
        rw [if_pos hsave]
        cases h
        exact composerStep_save app hc hmode
      · by_cases hsend : ch = 'x' ∧ key.control = true
        · dsimp only at h ⊢
          rw [handleComposerChar, if_neg hsave, if_pos hsend] at h
          rw [if_neg hsave, if_pos hsend]
          cases h
          exact composerStep_send hc hmode
        · dsimp only at h ⊢
          rw [if_neg hsave, if_neg hsend]
          exact composerStep_char hc hnot hsave hsend h
    | esc =>
      rw [hcode] at h
      cases h
      exact composerStep_esc hc hnot
    | enter =>
      rw [hcode] at h
      obtain ⟨⟨entered, ok⟩, henter, rfl⟩ := Option.map_eq_some_iff.mp h
      have htouching := touching_enter hc henter
      dsimp only
      split
      · exact htouching.step hnot
      · exact (touching_setError htouching).step hnot
    | backspace =>
      rw [hcode] at h
      exact (touching_delete ComposerState.deletes_before hc h).step hnot
    | delete =>
      rw [hcode] at h
      exact (touching_delete ComposerState.deletes_at hc h).step hnot
    | tab | backTab =>
      rw [hcode] at h
      cases h
      exact (touching_map hc (.inl rfl)).step hnot
    | up | down =>
      rw [hcode] at h
      cases h
      exact (touching_vertical hc _ _ _).step hnot
    | pageUp | pageDown =>
      rw [hcode] at h
      cases h
      exact (touching_page hc _).step hnot
    | left =>
      rw [hcode] at h
      cases h
      exact (touching_map hc (.inl c.record_moveFocusedCursorLeft)).step hnot
    | right =>
      rw [hcode] at h
      cases h
      exact (touching_map hc (.inl c.record_moveFocusedCursorRight)).step hnot
    | home | last =>
      rw [hcode] at h
      cases h
      exact (touching_map hc (.inl (c.record_setFocusedCursor _))).step hnot
    | other =>
      rw [hcode] at h
      cases h
      exact (touching_same hc).step hnot
  · have htaken : app.takenByKey client key = [] := if_pos hmode
    rw [handleComposerKey, if_pos hmode] at h
    rw [htaken]
    cases h
    exact composerStep_confirm hc hmode

theorem composerStep_attach (probe : String → Except String ComposerAttachment)
    (hc : app.composer = some c) (hmode : app.mode = .composeAttachPath) :
    ComposerStep app c key (app.handleComposeAttachKey probe key) [] := by
  have hnot : app.mode ≠ .confirmDiscard := by rw [hmode]; decide
  have hcancel : app.cancelComposeAttach.composer = some { c with attachInput := "" } := by
    simp [cancelComposeAttach, mapComposer, hc]
  unfold handleComposeAttachKey
  split
  · exact .touched hcancel (.inl rfl) fun hasked => by cases hasked
  · split
    next next hattached =>
      simp only [confirmComposeAttach, hc] at hattached
      obtain ⟨-, h⟩ | ⟨-, h⟩ := ite_eq_iff.mp hattached
      · cases h
      · split at h
        · cases h
        · cases h
          exact .touched rfl (.inr ⟨rfl, rfl⟩) fun hasked => by cases hasked
    · exact .touched hcancel (.inl rfl) fun hasked => by cases hasked
  · exact (touching_map hc (.inl rfl)).step hnot
  · split
    · exact (touching_same hc).step hnot
    · refine (touching_map hc ?_).step hnot
      split_ifs
      · exact .inl rfl
      · exact .inl rfl
  · exact (touching_same hc).step hnot

theorem composerStep_command {new : List Taken} (hc : app.composer = some c)
    (hmode : app.mode = .command) (h : app.handleCommandKey client key = some (next, new)) :
    ComposerStep app c key next new := by
  have hnot : app.mode ≠ .confirmDiscard := by rw [hmode]; exact nofun
  have hback : app.finishCommand.composer = some c ∧ app.finishCommand.mode = .compose := by
    refine ⟨hc, ?_⟩
    simp only [finishCommand, hc]
    rfl
  have hkept : ComposerStep app c key app.finishCommand [] := by
    refine .touched hback.1 (.inl rfl) ?_
    rw [hback.2]
    exact nofun
  unfold handleCommandKey at h
  split at h
  · cases h
    exact .touched hback.1 (.inl rfl) fun hasked => absurd (hback.2.symm.trans hasked) nofun
  · obtain ⟨-, h⟩ | ⟨-, h⟩ := ite_eq_iff.mp h
    · cases h
      exact hkept
    · split at h
      · rw [hback.1] at h
        cases h
        exact composerStep_save app hback.1 hback.2
      · cases h
      · cases h
        exact .touched hback.1 (.inl rfl) fun hasked => absurd (hback.2.symm.trans hasked) nofun
  · cases h
    exact .touched hc (.inl rfl) fun hasked => absurd hasked hnot
  · cases h
    exact .touched hc (.inl rfl) fun hasked => absurd hasked hnot
  · split at h
    · cases h
      exact .touched hc (.inl rfl) fun hasked => absurd hasked hnot
    · cases h
      exact .touched hc (.inl rfl) fun hasked => absurd hasked hnot
  · cases h
    exact (touching_same hc).step hnot

end AppState

/-! ## What every session keeps -/

section Kept

open ComposerState

variable {id : Uuid} {c c' : ComposerState} {taken : List Taken} {app next : AppState}
  {key : KeyEvent} {new : List Taken}

/-- What the composer shows is what was last stored, or there is nothing in it. -/
def ComposerState.Saved (c : ComposerState) (taken : List Taken) : Prop :=
  (c.draftId = none → c.hasContent = false) ∧
    ∀ id, c.draftId = some id → keptUnder id taken = some c.draft

theorem ComposerState.Saved.of_record (h : c.Saved taken) (hrecord : c'.record = c.record) :
    c'.Saved taken := by
  obtain ⟨hdraft, hcontent, -, hid⟩ := eq_of_record hrecord
  rw [ComposerState.Saved, hdraft, hcontent, hid]
  exact h

theorem keptUnder_self (id : Uuid) (shown : ComposerDraft) (taken : List Taken) :
    keptUnder id (.kept id shown :: taken) = some shown := if_pos rfl

theorem saved_kept :
    { c with draftId := some id, dirty := false }.Saved (.kept id c.draft :: taken) := by
  refine ⟨nofun, ?_⟩
  intro other hother
  cases hother
  exact keptUnder_self id c.draft taken

/-- Whatever was sent is what was stored last under its id. -/
def SentAsKept (taken : List Taken) : Prop :=
  ∀ id shown before, .sent id shown :: before <:+ taken → keptUnder id before = some shown

theorem SentAsKept.kept {shown : ComposerDraft} (h : SentAsKept taken) :
    SentAsKept (.kept id shown :: taken) := by
  intro other sent before hsuffix
  rcases List.suffix_cons_iff.mp hsuffix with heq | hrest
  · cases heq
  · exact h other sent before hrest

theorem SentAsKept.sent {shown : ComposerDraft} (h : SentAsKept taken)
    (hkept : keptUnder id taken = some shown) : SentAsKept (.sent id shown :: taken) := by
  intro other sent before hsuffix
  rcases List.suffix_cons_iff.mp hsuffix with heq | hrest
  · cases heq
    exact hkept
  · exact h other sent before hrest

/-- What holds between two keys. -/
structure ComposerSession.Safe (s : ComposerSession) : Prop where
  held : s.app.mode.composes = true → s.app.composer.isSome = true
  asked : s.app.mode = .confirmDiscard →
    ∃ c, s.app.composer = some c ∧ c.dirty = true ∧ c.hasContent = true
  clean : ∀ c, s.app.composer = some c → c.dirty = false → c.Saved s.taken
  sends : SentAsKept s.taken

theorem ComposerSession.Safe.of_closed (hclosed : next.Closed) (hsends : SentAsKept taken) :
    ComposerSession.Safe ⟨next, taken⟩ := by
  obtain ⟨hcomposer, hmode⟩ := hclosed
  refine ⟨fun hcomposes => ?_, fun hasked => ?_, fun c hc _ => ?_, hsends⟩
  · rw [hmode] at hcomposes
    cases hcomposes
  · rw [hmode] at hasked
    cases hasked
  · rw [hcomposer] at hc
    cases hc

theorem ComposerSession.Safe.composerStep (h : ComposerSession.Safe ⟨app, taken⟩)
    (hc : app.composer = some c) (hstep : app.ComposerStep c key next new) :
    ComposerSession.Safe ⟨next, new ++ taken⟩ := by
  cases hstep with
  | touched hcomposer htouched hmode =>
    refine ⟨fun _ => by rw [hcomposer]; rfl, fun hasked => ?_, fun d hd hdirty => ?_, h.sends⟩
    · obtain rfl := hmode hasked
      exact h.asked hasked
    · cases hcomposer.symm.trans hd
      rcases htouched with hrecord | ⟨hmarked, -⟩
      · obtain ⟨-, -, hsame, -⟩ := eq_of_record hrecord
        exact (h.clean c hc (hsame.symm.trans hdirty)).of_record hrecord
      · exact absurd (hmarked.symm.trans hdirty) nofun
  | saved id hcomposer hmode =>
    refine ⟨fun _ => by rw [hcomposer]; rfl, fun hasked => ?_, fun d hd hdirty => ?_, h.sends.kept⟩
    · exact absurd (hmode.symm.trans hasked) nofun
    · cases hcomposer.symm.trans hd
      exact saved_kept
  | sent id hclosed hclean hid =>
    exact .of_closed hclosed (h.sends.sent ((h.clean c hc hclean).2 id hid))
  | savedAndSent id hclosed =>
    exact .of_closed hclosed (h.sends.kept.sent (keptUnder_self id c.draft taken))
  | asked hcomposer hrecord hunsaved =>
    obtain ⟨-, hcontent, hdirty, -⟩ := eq_of_record hrecord
    rw [hunsaved.1] at hdirty
    rw [hunsaved.2] at hcontent
    refine ⟨fun _ => by rw [hcomposer]; rfl, fun _ => ⟨_, hcomposer, hdirty, hcontent⟩,
      fun d hd hclean => ?_, h.sends⟩
    cases hcomposer.symm.trans hd
    exact absurd (hdirty.symm.trans hclean) nofun
  | left hclosed => exact .of_closed hclosed h.sends
  | discarded hclosed => exact .of_closed hclosed h.sends

theorem ComposerSession.Safe.of_opened (hmode : next.mode = .compose)
    (hcomposer : next.composer = some c) (hclean : c.dirty = false → c.Saved taken)
    (hsends : SentAsKept taken) : ComposerSession.Safe ⟨next, taken⟩ := by
  refine ⟨fun _ => by rw [hcomposer]; rfl, fun hasked => ?_, fun d hd hdirty => ?_, hsends⟩
  · rw [hmode] at hasked
    cases hasked
  · cases hcomposer.symm.trans hd
    exact hclean hdirty

theorem saved_new (accountId : Uuid) : (ComposerState.new accountId).Saved taken := by
  have hblank : Mail.trimmed "" = "" := by decide
  refine ⟨fun _ => ?_, nofun⟩
  simp [hasContent, ComposerState.new, hblank]

theorem saved_fromPrefill {accountId : Uuid} {prefill : ComposerPrefill}
    (h : (ComposerState.fromPrefill accountId prefill).dirty = false) :
    (ComposerState.fromPrefill accountId prefill).Saved taken := by
  have hid : (ComposerState.fromPrefill accountId prefill).draftId = none := rfl
  have hdirty : (ComposerState.fromPrefill accountId prefill).dirty =
      (ComposerState.fromPrefill accountId prefill).hasContent := by
    simp only [fromPrefill, hasContent]
  rw [ComposerState.Saved, hid, ← hdirty]
  exact ⟨fun _ => h, nofun⟩

theorem saved_ofExistingDraft (draft : ComposerDraft) (focus : ComposeField) :
    (ComposerState.ofExistingDraft id draft focus).Saved
      (.kept id (ComposerState.ofExistingDraft id draft focus).draft :: taken) := by
  refine ⟨nofun, ?_⟩
  intro other hother
  cases hother
  exact keptUnder_self id _ taken

/-- Without a composer the command line opens none. -/
theorem handleCommandKey_none {client : DraftClient} (hc : app.composer = none)
    (hmode : app.mode = .command) (h : app.handleCommandKey client key = some (next, new)) :
    next.composer = none ∧ next.mode.composes = false ∧ new = [] := by
  have hback : app.finishCommand.composer = none ∧ app.finishCommand.mode.composes = false := by
    refine ⟨hc, ?_⟩
    simp only [AppState.finishCommand, hc]
    rfl
  have hopen : app.mode.composes = false := by rw [hmode]; rfl
  unfold AppState.handleCommandKey at h
  split at h
  · cases h
    exact ⟨hback.1, hback.2, rfl⟩
  · obtain ⟨-, h⟩ | ⟨-, h⟩ := ite_eq_iff.mp h
    · cases h
      exact ⟨hback.1, hback.2, rfl⟩
    · split at h
      · rw [hback.1] at h
        cases h
        exact ⟨hback.1, hback.2, rfl⟩
      · cases h
      · cases h
        exact ⟨hback.1, hback.2, rfl⟩
  · cases h
    exact ⟨hc, hopen, rfl⟩
  · cases h
    exact ⟨hc, hopen, rfl⟩
  · split at h
    · cases h
      exact ⟨hc, hopen, rfl⟩
    · cases h
      exact ⟨hc, hopen, rfl⟩
  · cases h
    exact ⟨hc, hopen, rfl⟩

end Kept

namespace ComposerSession

variable {s t : ComposerSession} {act : SessionAct} {c : ComposerState} {client : DraftClient}
  {probe : String → Except String ComposerAttachment} {key : KeyEvent}

/-- A key under an open composer is a step of the composer. -/
theorem composerStep_of_key (h : s.step (.key client probe key) = some t)
    (hc : s.app.composer = some c) :
    ∃ new, t.taken = new ++ s.taken ∧ s.app.ComposerStep c key t.app new := by
  simp only [step] at h
  split at h
  next hmode =>
    obtain ⟨next, hnext, rfl⟩ := Option.map_eq_some_iff.mp h
    exact ⟨_, rfl, AppState.composerStep_key hc (.inl hmode) hnext⟩
  next hmode =>
    obtain ⟨next, hnext, rfl⟩ := Option.map_eq_some_iff.mp h
    exact ⟨_, rfl, AppState.composerStep_key hc (.inr hmode) hnext⟩
  next hmode =>
    cases h
    exact ⟨[], rfl, AppState.composerStep_attach probe hc hmode⟩
  next hmode =>
    obtain ⟨⟨next, new⟩, hnext, rfl⟩ := Option.map_eq_some_iff.mp h
    exact ⟨new, rfl, AppState.composerStep_command hc hmode hnext⟩
  all_goals cases h

theorem Safe.pressed (hsafe : s.Safe) (h : s.step (.key client probe key) = some t) : t.Safe := by
  cases hc : s.app.composer with
  | some c =>
    obtain ⟨new, htaken, hstep⟩ := composerStep_of_key h hc
    have hnext := hsafe.composerStep hc hstep
    rwa [← htaken] at hnext
  | none =>
    have hnone : s.app.mode.composes = false := by
      rw [Bool.eq_false_iff]
      intro hcomposes
      have hopen := hsafe.held hcomposes
      rw [hc] at hopen
      cases hopen
    simp only [step] at h
    split at h
    next hmode => rw [hmode] at hnone; cases hnone
    next hmode => rw [hmode] at hnone; cases hnone
    next hmode => rw [hmode] at hnone; cases hnone
    next hmode =>
      obtain ⟨⟨next, new⟩, hnext, rfl⟩ := Option.map_eq_some_iff.mp h
      obtain ⟨hcomposer, hopen, rfl⟩ := handleCommandKey_none hc hmode hnext
      refine ⟨fun hcomposes => ?_, fun hasked => ?_, fun d hd _ => ?_, hsafe.sends⟩
      · exact absurd (hcomposes.symm.trans hopen) nofun
      · rw [show next.mode = .confirmDiscard from hasked] at hopen
        cases hopen
      · exact absurd (hcomposer.symm.trans hd) nofun
    all_goals cases h

theorem Safe.next (hsafe : s.Safe) (h : s.step act = some t) : t.Safe := by
  cases act with
  | key client probe key => exact hsafe.pressed h
  | compose accountId =>
    obtain ⟨app, -, rfl⟩ := Option.map_eq_some_iff.mp h
    exact .of_opened rfl rfl (fun _ => saved_new accountId) hsafe.sends
  | answer accountId prefill =>
    obtain ⟨app, -, rfl⟩ := Option.map_eq_some_iff.mp h
    exact .of_opened rfl rfl saved_fromPrefill hsafe.sends
  | reopen id draft focus =>
    obtain ⟨app, -, rfl⟩ := Option.map_eq_some_iff.mp h
    exact .of_opened rfl rfl (fun _ => saved_ofExistingDraft draft focus) hsafe.sends.kept
  | other next =>
    simp only [step] at h
    split at h
    · cases h
    next hallowed =>
      rw [not_or, not_and, not_and, not_not] at hallowed
      cases h
      refine ⟨fun hcomposes => ?_, fun hasked => ?_, hsafe.clean, hsafe.sends⟩
      · exact Option.isSome_iff_ne_none.mpr (mt Option.isNone_iff_eq_none.mpr (hallowed.2 hcomposes))
      · exact hsafe.asked (hallowed.1 hasked)

theorem safe_start (app : AppState) : (start app).Safe :=
  .of_closed ⟨rfl, rfl⟩ fun _ _ _ hsuffix =>
    absurd (List.suffix_nil.mp hsuffix) (List.cons_ne_nil _ _)

theorem safe_run {app : AppState} {acts : List SessionAct}
    (hrun : Machine.run step (start app) acts = some s) : s.Safe :=
  Machine.invariant step (safe_start app) (fun _ _ _ hsafe => hsafe.next) hrun

/-- Every request is granted. -/
def granting : DraftClient where
  createDraft _ := .ok (.filled 7)
  updateDraft id _ := .ok id
  sendDraft _ _ := .ok ()

def pressed (ch : Char) (control : Bool) : SessionAct :=
  .key granting (fun _ => .error "no file") ⟨.char ch, control, false⟩

/-- `a` is typed and saved, then `b` is typed and the message sent. -/
def savedThenSent : List SessionAct :=
  [.compose (.filled 1), pressed 'a' false, pressed 's' true, pressed 'b' false, pressed 'x' true]

/-- A composer closes by a key in one of four ways: what it showed was sent and is stored; it
was empty; what it showed is stored; or the question whether to discard was answered with
yes, and then there was something unsaved to ask about. -/
theorem composer_closes {app : AppState} {acts : List SessionAct}
    (hrun : Machine.run step (start app) acts = some s) (hstep : s.step act = some t)
    (hopen : s.app.composer = some c) (hclosed : t.app.composer = none) :
    ∃ client probe key, act = .key client probe key ∧
      ((∃ id stored, t.taken = .sent id c.draft :: stored ∧ keptUnder id stored = some c.draft) ∨
        c.hasContent = false ∨
        (∃ id, c.draftId = some id ∧ keptUnder id s.taken = some c.draft) ∨
        s.app.mode = .confirmDiscard ∧ (c.dirty = true ∧ c.hasContent = true) ∧
          (key.code = .char 'y' ∨ key.code = .char 'Y')) := by
  have hsafe := safe_run hrun
  cases act with
  | key client probe key =>
    refine ⟨client, probe, key, rfl, ?_⟩
    obtain ⟨new, htaken, hkey⟩ := composerStep_of_key hstep hopen
    cases hkey with
    | touched hcomposer => exact absurd (hclosed.symm.trans hcomposer) nofun
    | saved id hcomposer => exact absurd (hclosed.symm.trans hcomposer) nofun
    | asked hcomposer => exact absurd (hclosed.symm.trans hcomposer) nofun
    | sent id _ hclean hid =>
      exact .inl ⟨id, s.taken, htaken, (hsafe.clean c hopen hclean).2 id hid⟩
    | savedAndSent id => exact .inl ⟨id, _, htaken, keptUnder_self id c.draft s.taken⟩
    | left _ hsaved =>
      by_cases hdirty : c.dirty = true
      · exact .inr (.inl (hsaved hdirty))
      · have hkept := hsafe.clean c hopen (Bool.not_eq_true _ ▸ hdirty)
        cases hid : c.draftId with
        | none => exact .inr (.inl (hkept.1 hid))
        | some id => exact .inr (.inr (.inl ⟨id, rfl, hkept.2 id hid⟩))
    | discarded _ hasked hyes =>
      obtain ⟨d, hd, hunsaved⟩ := hsafe.asked hasked
      cases hopen.symm.trans hd
      exact .inr (.inr (.inr ⟨hasked, hunsaved, hyes⟩))
  | compose accountId =>
    obtain ⟨app, -, rfl⟩ := Option.map_eq_some_iff.mp hstep
    cases hclosed
  | answer accountId prefill =>
    obtain ⟨app, -, rfl⟩ := Option.map_eq_some_iff.mp hstep
    cases hclosed
  | reopen id draft focus =>
    obtain ⟨app, -, rfl⟩ := Option.map_eq_some_iff.mp hstep
    cases hclosed
  | other next =>
    simp only [step] at hstep
    split at hstep
    · cases hstep
    · cases hstep
      exact absurd (hopen.symm.trans hclosed) nofun

/-- `a` is typed, and Escape asks whether to discard it. -/
def typedThenLeft : List SessionAct :=
  [.compose (.filled 1), pressed 'a' false,
    .key granting (fun _ => .error "no file") ⟨.esc, false, false⟩]

theorem composer_closes_discarded :
    ∃ s c, Machine.run step (start .initial) typedThenLeft = some s ∧ s.app.composer = some c ∧
      (∃ t, s.step (pressed 'y' false) = some t ∧ t.app.composer = none) ∧
        s.app.mode = .confirmDiscard ∧ c.hasContent = true := by
  have hrun : Machine.run step (start .initial) typedThenLeft = some _ := rfl
  obtain ⟨client, probe, key, -, hsent | hempty | ⟨id, hid, -⟩ | ⟨hmode, hunsaved, -⟩⟩ :=
    composer_closes hrun (by rfl : step _ (pressed 'y' false) = some _) (by rfl) (by rfl)
  · obtain ⟨id, stored, htaken, -⟩ := hsent
    cases htaken
  · cases hempty
  · cases hid
  · exact ⟨_, _, hrun, rfl, ⟨_, rfl, rfl⟩, hmode, hunsaved.2⟩

/-- But a composer that is opened over another takes its place unasked. -/
example : ∃ s, Machine.run step (start .initial) [.compose (.filled 1), pressed 'a' false,
    pressed ':' false, .compose (.filled 1)] = some s ∧
      s.app.composer = some (.new (.filled 1)) ∧ s.taken = [] := ⟨_, rfl, rfl, rfl⟩

end ComposerSession

end Postblox.Tui
