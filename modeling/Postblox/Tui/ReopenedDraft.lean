import Postblox.Daemon.AttachmentOrder
import Postblox.Daemon.FrameLimit
import Postblox.Tui.AddressLines
import Postblox.Tui.Agreement
import Postblox.Tui.ComposerEditing
import Postblox.Tui.DraftTempFiles
import Postblox.Tui.TypedText

/-!
# A draft reopened and saved

A stored draft is fetched, shown in the composer, edited in one field and saved as a whole. The
fields that were not edited come back as the composer writes them: without the HTML body, with
addresses cut out of a line, and with the attachments in the order of their new stamps. When
that is what was stored is what is told here.
-/
namespace Postblox.Tui

open Lib

/-! ## Editing -/

namespace ComposerState

section Attachments

variable (c : ComposerState)

theorem attachments_setFocused (text : String) (cursor : Nat) :
    (c.setFocused text cursor).attachments = c.attachments := by
  unfold setFocused
  cases c.focused <;> rfl

theorem attachments_afterTextEdit : c.afterTextEdit.attachments = c.attachments := by
  unfold afterTextEdit
  split_ifs
  · rfl
  · rfl

theorem attachments_resetBodyNavigationState :
    c.resetBodyNavigationState.attachments = c.attachments := by
  unfold resetBodyNavigationState
  split_ifs
  · rfl
  · rfl

theorem attachments_setFocusedCursor (next : Nat) :
    (c.setFocusedCursor next).1.attachments = c.attachments := by
  unfold setFocusedCursor
  dsimp only
  split_ifs
  · exact c.attachments_setFocused _ _
  · rw [attachments_resetBodyNavigationState, attachments_setFocused]

variable {c} {c' : ComposerState} {moved : Bool}

theorem attachments_removeFocused {first last : Nat} (h : c.removeFocused first last = some c') :
    c'.attachments = c.attachments := by
  obtain ⟨text, -, h⟩ := Option.bind_eq_some_iff.mp h
  obtain rfl := Option.some.inj h
  rw [attachments_afterTextEdit, attachments_setFocused]

theorem attachments_of_delete {first last : Nat}
    (h : (c.removeFocused first last).map (·, true) = some (c', moved)) :
    c'.attachments = c.attachments := by
  obtain ⟨removed, hremoved, heq⟩ := Option.map_eq_some_iff.mp h
  obtain ⟨rfl, -⟩ := Prod.mk.inj heq
  exact attachments_removeFocused hremoved

/-- No edit of a text touches the attachments. -/
theorem attachments_apply {edit : Edit} (h : c.apply edit = some c') :
    c'.attachments = c.attachments := by
  cases edit with
  | insert ch =>
    obtain ⟨text, -, h⟩ := Option.bind_eq_some_iff.mp h
    obtain rfl := Option.some.inj h
    rw [attachments_afterTextEdit, attachments_setFocused]
  | enter =>
    simp only [apply] at h
    split_ifs at h
    · obtain ⟨body, -, h⟩ := Option.bind_eq_some_iff.mp h
      obtain rfl := Option.some.inj h
      rw [attachments_afterTextEdit]
    · cases h
      rfl
  | backspace =>
    obtain ⟨⟨removed, moved⟩, hremoved, rfl⟩ := Option.map_eq_some_iff.mp h
    simp only [deleteBeforeFocusedCursor] at hremoved
    split_ifs at hremoved
    · cases hremoved
      exact c.attachments_setFocused _ _
    · exact attachments_of_delete hremoved
  | delete =>
    obtain ⟨⟨removed, moved⟩, hremoved, rfl⟩ := Option.map_eq_some_iff.mp h
    simp only [deleteAtFocusedCursor] at hremoved
    split_ifs at hremoved
    · cases hremoved
      exact c.attachments_setFocused _ _
    · exact attachments_of_delete hremoved
  | deleteWord =>
    obtain ⟨⟨removed, moved⟩, hremoved, rfl⟩ := Option.map_eq_some_iff.mp h
    simp only [deleteWordBeforeCursor] at hremoved
    split_ifs at hremoved
    · cases hremoved
      exact c.attachments_setFocused _ _
    · cases hremoved
      rfl
    · exact attachments_of_delete hremoved
  | left =>
    cases h
    unfold moveFocusedCursorLeft
    split_ifs
    · rfl
    · rw [attachments_resetBodyNavigationState, attachments_setFocused]
  | right =>
    cases h
    unfold moveFocusedCursorRight
    dsimp only
    split_ifs
    · exact c.attachments_setFocused _ _
    · rw [attachments_resetBodyNavigationState, attachments_setFocused]
  | home =>
    cases h
    exact c.attachments_setFocusedCursor _
  | last =>
    cases h
    exact c.attachments_setFocusedCursor _
  | move delta viewportHeight =>
    cases h
    unfold moveBodyLine
    by_cases hbody : c.focused ≠ .body
    · rw [if_pos hbody]
    · rw [if_neg hbody]
      rfl
  | next =>
    cases h
    rfl
  | previous =>
    cases h
    rfl
  | startSelection =>
    cases h
    unfold startBodyLineSelection
    split_ifs
    · rfl
    · rfl
  | toggleSelection =>
    cases h
    unfold toggleBodyLineSelection
    split_ifs
    · rfl
    · rfl
    · rfl
  | clearSelection =>
    cases h
    rfl

theorem attachments_applyAll {edits : List Edit} (h : applyAll edits c = some c') :
    c'.attachments = c.attachments := by
  induction edits generalizing c with
  | nil =>
    cases h
    rfl
  | cons edit rest ih =>
    obtain ⟨next, hnext, h⟩ := Option.bind_eq_some_iff.mp h
    exact (ih h).trans (attachments_apply hnext)

/-- A character goes to the field that has the focus. -/
theorem textOf_insertFocusedChar {ch : Char} (h : c.insertFocusedChar ch = some c')
    {other : ComposeField} (hne : other ≠ c.focused) : c'.textOf other = c.textOf other := by
  obtain ⟨text, -, h⟩ := Option.bind_eq_some_iff.mp h
  obtain rfl := Option.some.inj h
  rw [(sameFields_afterTextEdit _).text, textOf_setFocused, if_neg hne]

end Attachments

end ComposerState

/-! ## What the daemon reads of the files -/

open Daemon.Args (DraftAttachmentSpec)
open Daemon.Drafts (Db Draft DraftAttachment PreparedDraftAttachment newAttachment Serves Committed
  committed)
open Daemon.DraftFiles

/-- The daemon finds in the files named by the specs what they hold. -/
def SeesFiles (calls : Calls) (files : Files) (index : Nat) (specs : List DraftAttachmentSpec) :
    Prop :=
  ∀ i spec, specs[i]? = some spec →
    ∃ bytes, files spec.path = some bytes ∧ calls.read (index + i) = .ok bytes

theorem SeesFiles.tail {calls : Calls} {files : Files} {index : Nat} {spec : DraftAttachmentSpec}
    {specs : List DraftAttachmentSpec} (h : SeesFiles calls files index (spec :: specs)) :
    SeesFiles calls files (index + 1) specs := by
  intro i other hother
  obtain ⟨bytes, hbytes, hread⟩ := h (i + 1) other hother
  refine ⟨bytes, hbytes, ?_⟩
  rwa [Nat.add_assoc, Nat.add_comm 1 i]

/-- An attachment of the composer for a stored one. -/
structure OpenedFor (files : Files) (row : PreparedDraftAttachment)
    (attachment : ComposerAttachment) : Prop where
  filename : attachment.filename = row.filename
  contentType : attachment.contentType = row.contentType
  content : files attachment.path = some row.content

/-- A stored attachment and the file it is replaced with: the name and the bytes are the same,
and the type is if it is not blank. -/
structure Resaved (row file : PreparedDraftAttachment) : Prop where
  filename : file.filename = row.filename
  content : file.content = row.content
  visible : Mail.trimmed file.contentType ≠ ""
  contentType : Mail.trimmed row.contentType ≠ "" → file.contentType = row.contentType

def ComposerAttachment.spec (a : ComposerAttachment) : DraftAttachmentSpec :=
  ⟨a.path, some a.contentType, some a.filename⟩

/-- Types guessed from a path are not blank. -/
def Guesses (calls : Calls) : Prop :=
  ∀ path type, calls.guess path = some type → Mail.trimmed type ≠ ""

theorem filename_pendingOf (calls : Calls) (a : ComposerAttachment) :
    (pendingOf calls a.spec).filename = a.filename := by
  unfold pendingOf ComposerAttachment.spec
  dsimp only
  rw [Option.getD_some]

theorem contentType_pendingOf {calls : Calls} (hguess : Guesses calls) (a : ComposerAttachment) :
    Mail.trimmed (pendingOf calls a.spec).contentType ≠ "" ∧
      (Mail.trimmed a.contentType ≠ "" → (pendingOf calls a.spec).contentType = a.contentType) := by
  have htype : (pendingOf calls a.spec).contentType =
      if Mail.trimmed a.contentType ≠ "" then a.contentType
      else guessContentTypeForPath calls a.path := by
    unfold pendingOf ComposerAttachment.spec
    dsimp only
    rw [Option.filter_some]
    by_cases h : Mail.trimmed a.contentType ≠ ""
    · rw [if_pos h, if_pos (decide_eq_true h)]
      rfl
    · rw [if_neg h, if_neg (by simpa using h)]
      rfl
  rw [htype]
  split_ifs with h
  · exact ⟨h, fun _ => rfl⟩
  · refine ⟨?_, fun hvisible => absurd hvisible h⟩
    unfold guessContentTypeForPath
    cases hguessed : calls.guess a.path with
    | none =>
      rw [Option.getD_none]
      decide
    | some type => exact hguess a.path type hguessed

/-- The second pass of the daemon over the files of the reopened draft. -/
theorem resaved_of_readFrom {calls : Calls} (hguess : Guesses calls) {files : Files}
    {rows : List PreparedDraftAttachment} {attachments : List ComposerAttachment}
    (hopened : List.Forall₂ (OpenedFor files) rows attachments) {index sofar : Nat}
    (hsees : SeesFiles calls files index (attachments.map (·.spec)))
    {new : List PreparedDraftAttachment}
    (hread : readFrom calls index sofar (attachments.map fun a => pendingOf calls a.spec) = .ok new) :
    List.Forall₂ Resaved rows new := by
  induction hopened generalizing index sofar new with
  | nil =>
    cases hread
    exact .nil
  | @cons row a rows rest hfirst _ ih =>
    rw [List.map_cons] at hsees hread
    unfold readFrom at hread
    obtain ⟨content, hcontent, hread⟩ := bind_eq_ok.mp hread
    obtain ⟨_, -, hread⟩ := bind_eq_ok.mp hread
    obtain ⟨later, hlater, hread⟩ := bind_eq_ok.mp hread
    cases hread
    refine .cons ?_ (ih hsees.tail hlater)
    obtain ⟨bytes, hbytes, hseen⟩ := hsees 0 a.spec rfl
    obtain ⟨hvisible, htype⟩ := contentType_pendingOf hguess a
    have hfile : content = row.content := by
      rw [show a.spec.path = a.path from rfl, hfirst.content] at hbytes
      rw [Nat.add_zero, readAttachmentBounded_ok hcontent] at hseen
      rw [Option.some.inj hbytes]
      exact Except.ok.inj hseen
    have hname := (filename_pendingOf calls a).trans hfirst.filename
    rw [hfirst.contentType] at htype
    generalize pendingOf calls a.spec = pending at hname hvisible htype ⊢
    exact ⟨hname, hfile, hvisible, htype⟩

/-! ## What is stored then -/

/-- Attachments that get these ids and times are listed in their order. -/
def StampedInOrder (files : List PreparedDraftAttachment) (ids : List (Uuid × Int)) : Prop :=
  (sortByKey (fun new : PreparedDraftAttachment × (Uuid × Int) =>
    toLex (new.2.2, new.2.1.hyphenated)) (files.zip ids)).map (·.1) = files

theorem listForDraft_stamped {db : Db} {d : Uuid} {new : List PreparedDraftAttachment}
    {ids : List (Uuid × Int)}
    (hrows : db.attachments.filter (fun a => a.draftId = d) = (new.zip ids).map (newAttachment d)) :
    (db.listForDraft d).map (·.prepared) =
      (sortByKey (fun p : PreparedDraftAttachment × (Uuid × Int) =>
        toLex (p.2.2, p.2.1.hyphenated)) (new.zip ids)).map (·.1) := by
  rw [Db.listForDraft, hrows, sortByKey_map, List.map_map]
  rfl

theorem visible_of_resaved {rows new : List PreparedDraftAttachment}
    (h : List.Forall₂ Resaved rows new) : ∀ file ∈ new, Mail.trimmed file.contentType ≠ "" := by
  induction h with
  | nil =>
    intro file hfile
    cases hfile
  | cons hfirst _ ih => exact List.forall_mem_cons.mpr ⟨hfirst.visible, ih⟩

/-- Attachments saved again are listed as before exactly if no type was blank and the stamps
come in their order. -/
theorem resaved_listed_iff {rows new : List PreparedDraftAttachment} {ids : List (Uuid × Int)}
    (hlength : new.length = ids.length) (hresaved : List.Forall₂ Resaved rows new) :
    (sortByKey (fun p : PreparedDraftAttachment × (Uuid × Int) =>
      toLex (p.2.2, p.2.1.hyphenated)) (new.zip ids)).map (·.1) = rows ↔
      (∀ row ∈ rows, Mail.trimmed row.contentType ≠ "") ∧ StampedInOrder rows ids := by
  have hsame : (∀ row ∈ rows, Mail.trimmed row.contentType ≠ "") → new = rows := by
    intro hvisible
    induction hresaved generalizing ids with
    | nil => rfl
    | @cons row file rows new hfirst hrest ih =>
      rw [List.forall_mem_cons] at hvisible
      cases ids with
      | nil => cases hlength
      | cons id ids =>
        rw [ih (Nat.succ.inj hlength) hvisible.2]
        obtain ⟨filename, contentType, content⟩ := file
        obtain ⟨hname, hcontent, -, htype⟩ := hfirst
        cases hname
        cases hcontent
        cases htype hvisible.1
        rfl
  constructor
  · intro hlisted
    have hperm := (sortByKey_perm (fun p : PreparedDraftAttachment × (Uuid × Int) =>
      toLex (p.2.2, p.2.1.hyphenated)) (new.zip ids)).map Prod.fst
    rw [hlisted, List.map_fst_zip hlength.le] at hperm
    have hvisible : ∀ row ∈ rows, Mail.trimmed row.contentType ≠ "" :=
      fun row hrow => visible_of_resaved hresaved row (hperm.mem_iff.mp hrow)
    refine ⟨hvisible, ?_⟩
    rw [hsame hvisible] at hlisted
    exact hlisted
  · rintro ⟨hvisible, hordered⟩
    rw [hsame hvisible]
    exact hordered

/-- A field of the composer has the same value in two drafts. -/
def SameField (old new : Draft) : ComposeField → Prop
  | .toLine => new.toAddrs = old.toAddrs
  | .ccLine => new.ccAddrs = old.ccAddrs
  | .bccLine => new.bccAddrs = old.bccAddrs
  | .subject => new.subject = old.subject
  | .body => new.textBody = old.textBody

/-- The composer can show the field and read it back. -/
def ShowsField (old : Draft) : ComposeField → Prop
  | .toLine => ∀ a ∈ old.toAddrs, PlainAddress a
  | .ccLine => ∀ a ∈ old.ccAddrs, PlainAddress a
  | .bccLine => ∀ a ∈ old.bccAddrs, PlainAddress a
  | .subject => ∀ s, old.subject = some s → Mail.trimmed s ≠ ""
  | .body => ∀ s, old.textBody = some s → Mail.trimmed s ≠ ""

/-- Only the one field of the stored draft is another. -/
structure OnlyEdited (field : ComposeField) (d : Uuid) (old : Draft) (before after : Db) : Prop where
  row : ∃ new, after.getDraft d = some new ∧ (∀ other, other ≠ field → SameField old new other) ∧
    new.htmlBody = old.htmlBody ∧ new.accountId = old.accountId ∧
    new.inReplyToMsg = old.inReplyToMsg ∧ new.inReplyTo = old.inReplyTo ∧
    new.referencesHeader = old.referencesHeader
  attachments : (after.listForDraft d).map (·.prepared) = (before.listForDraft d).map (·.prepared)

/-- What the way through the composer and the files does not lose. -/
structure Survives (field : ComposeField) (old : Draft) (rows : List PreparedDraftAttachment)
    (ids : List (Uuid × Int)) : Prop where
  html : old.htmlBody = none
  fields : ∀ other, other ≠ field → ShowsField old other
  types : ∀ row ∈ rows, Mail.trimmed row.contentType ≠ ""
  stamps : StampedInOrder rows ids

/-- The update that is sent has the texts of the composer. -/
structure Sends (upd : Daemon.Args.DraftUpdate) (draft : ComposerDraft) : Prop where
  toAddrs : upd.toAddrs = draft.toAddrs
  ccAddrs : upd.ccAddrs = draft.ccAddrs
  bccAddrs : upd.bccAddrs = draft.bccAddrs
  subject : upd.subject = draft.subject
  textBody : upd.textBody = draft.textBody
  htmlBody : upd.htmlBody = draft.htmlBody

theorem draftUpdateArgs_decodes (crates : Crates) (d : Uuid) (draft : ComposerDraft) :
    Daemon.Args.draftUpdateArgs crates (draftUpdateArgs d draft) =
      .ok (.draftUpdate ⟨d, draft.toAddrs, draft.ccAddrs, draft.bccAddrs, draft.subject,
        draft.textBody, draft.htmlBody⟩ (some draft.specs)) := by
  have hdecodes : (Daemon.Args.draftUpdateArgs crates (draftUpdateArgs d draft)).map
      Daemon.Args.Decoded.operation = .ok (Request.updateDraft d draft).intended :=
    updateDraft_decodes crates d draft
  cases hargs : Daemon.Args.draftUpdateArgs crates (draftUpdateArgs d draft) with
  | error e =>
    rw [hargs] at hdecodes
    cases hdecodes
  | ok operation =>
    rw [hargs] at hdecodes
    cases hdecodes
    rfl

theorem sends_of_args {crates : Crates} {d : Uuid} {draft : ComposerDraft}
    {upd : Daemon.Args.DraftUpdate} {specs : Option (List DraftAttachmentSpec)}
    (h : Daemon.Args.draftUpdateArgs crates (draftUpdateArgs d draft) = .ok (.draftUpdate upd specs)) :
    upd.id = d ∧ Sends upd draft ∧ specs = some draft.specs := by
  rw [draftUpdateArgs_decodes] at h
  cases h
  exact ⟨rfl, ⟨rfl, rfl, rfl, rfl, rfl, rfl⟩, rfl⟩

/-- The texts and the HTML body of the draft that is opened are the stored ones. -/
structure OpenedFrom (old : Draft) (opened : ComposerDraft) : Prop where
  toAddrs : opened.toAddrs = old.toAddrs
  ccAddrs : opened.ccAddrs = old.ccAddrs
  bccAddrs : opened.bccAddrs = old.bccAddrs
  subject : opened.subject = old.subject
  textBody : opened.textBody = old.textBody

theorem composerDraftFromSummary_ok {temp : TempDir} {uniques : Nat → Uuid}
    {rows : List DraftAttachment} (huniques : Set.InjOn uniques (Set.Iio rows.length))
    {base64 : Mail.Base64Crate} {errorText : String → String} {stored : Daemon.Fetch.Draft}
    {files files' : Files} {opened : ComposerDraft}
    (h : composerDraftFromSummary temp uniques (.ofAnswer base64 errorText stored
      (rows.map fun a => (a.toFetch, a.content))) files = .ok (opened, files')) :
    OpenedFrom stored.toDraft opened ∧
      List.Forall₂ (OpenedFor files') (rows.map (·.prepared)) opened.attachments := by
  obtain ⟨⟨attachments, final⟩, hfiles, h⟩ := bind_eq_ok.mp h
  cases h
  refine ⟨⟨rfl, rfl, rfl, rfl, rfl⟩, ?_⟩
  have hnames : Set.InjOn uniques (Set.Iio (0 + (DraftSummary.ofAnswer base64 errorText stored
      (rows.map fun a => (a.toFetch, a.content))).attachments.length)) := by
    rw [DraftSummary.ofAnswer, List.length_map, List.length_map, Nat.zero_add]
    exact huniques
  have hall := (materialiseFrom_ok hnames hfiles).1
  rw [DraftSummary.ofAnswer, List.forall₂_map_left_iff, List.forall₂_map_left_iff] at hall
  rw [List.forall₂_map_left_iff]
  refine hall.imp fun a attachment hmaterialised => ?_
  dsimp only at hmaterialised
  rw [base64.decode_encode] at hmaterialised
  obtain ⟨decoded, hdecoded, hholds⟩ := hmaterialised.content
  cases hdecoded
  exact ⟨hmaterialised.filename, hmaterialised.contentType, hholds⟩

/-- A field that is not edited is saved as it was stored exactly if the composer can show it. -/
theorem sameField_iff {old : Draft} {opened : ComposerDraft} (hopened : OpenedFrom old opened)
    {d : Uuid} {focus : ComposeField} {c : ComposerState} {upd : Daemon.Args.DraftUpdate}
    (hsends : Sends upd c.draft) {other : ComposeField}
    (htext : c.textOf other = (ComposerState.ofExistingDraft d opened focus).textOf other) :
    SameField old (old.patch upd) other ↔ ShowsField old other := by
  cases other with
  | toLine =>
    show upd.toAddrs = old.toAddrs ↔ _
    have hline : c.toLine = joinAddresses opened.toAddrs := htext
    have hsaved : c.draft.toAddrs = splitAddresses c.toLine := rfl
    rw [hsends.toAddrs, hsaved, hline, hopened.toAddrs]
    exact splitAddresses_joinAddresses_iff _
  | ccLine =>
    show upd.ccAddrs = old.ccAddrs ↔ _
    have hline : c.ccLine = joinAddresses opened.ccAddrs := htext
    have hsaved : c.draft.ccAddrs = splitAddresses c.ccLine := rfl
    rw [hsends.ccAddrs, hsaved, hline, hopened.ccAddrs]
    exact splitAddresses_joinAddresses_iff _
  | bccLine =>
    show upd.bccAddrs = old.bccAddrs ↔ _
    have hline : c.bccLine = joinAddresses opened.bccAddrs := htext
    have hsaved : c.draft.bccAddrs = splitAddresses c.bccLine := rfl
    rw [hsends.bccAddrs, hsaved, hline, hopened.bccAddrs]
    exact splitAddresses_joinAddresses_iff _
  | subject =>
    show upd.subject = old.subject ↔ _
    have hshown : c.subject = opened.subject.getD "" := htext
    have hsaved : c.draft.subject = nonEmptyString c.subject := by rw [ComposerState.draft]
    rw [hsends.subject, hsaved, hshown, hopened.subject]
    exact nonEmptyString_getD_iff _
  | body =>
    show upd.textBody = old.textBody ↔ _
    have hshown : c.body = opened.textBody.getD "" := htext
    have hsaved : c.draft.textBody = nonEmptyString c.body := by rw [ComposerState.draft]
    rw [hsends.textBody, hsaved, hshown, hopened.textBody]
    exact nonEmptyString_getD_iff _

open Daemon.Drafts (State Task step)

/-- A draft that is fetched, opened, edited and saved, with what the calls in between return. -/
structure Reopening where
  args : Json.Value
  stored : Daemon.Fetch.Draft
  parts : List (Daemon.Fetch.DraftAttachment × List UInt8)
  base64 : Mail.Base64Crate
  errorText : String → String
  temp : TempDir
  uniques : Nat → Uuid
  oldFiles : Files
  files : Files
  opened : ComposerDraft
  edits : List Edit
  composer : ComposerState
  upd : Daemon.Args.DraftUpdate
  specs : Option (List DraftAttachmentSpec)
  calls : Calls
  prepared : Option (List PreparedDraftAttachment)
  task : Nat
  ids : List (Uuid × Int)

/-- `draft.get` reads what is stored when the update commits; one field is edited; nobody else
writes the temporary files. -/
structure Reopening.Goes (r : Reopening) (crates : Crates) (b : Daemon.Fetch.Backend) (d : Uuid)
    (field : ComposeField) (s s' : State) : Prop where
  serves : Serves b s.db d
  id : Daemon.Args.parseId crates r.args "id" = .ok d
  get : Daemon.Fetch.draftGetParts crates b r.args = .ok (some (r.stored, r.parts))
  row : s.db.getDraft d = some r.stored.toDraft
  uniques : Set.InjOn r.uniques (Set.Iio r.parts.length)
  opens : composerDraftFromSummary r.temp r.uniques
    (.ofAnswer r.base64 r.errorText r.stored r.parts) r.oldFiles = .ok (r.opened, r.files)
  edited : ComposerState.applyAll r.edits (.ofExistingDraft d r.opened .body) = some r.composer
  only : ∀ other, other ≠ field →
    r.composer.textOf other = (ComposerState.ofExistingDraft d r.opened .body).textOf other
  saves : Daemon.Args.draftUpdateArgs crates (draftUpdateArgs d r.composer.draft) =
    .ok (.draftUpdate r.upd r.specs)
  guesses : Guesses r.calls
  sees : SeesFiles r.calls r.files 0 r.composer.draft.specs
  prepares : prepareDraftAttachments r.calls r.specs = .ok r.prepared
  commits : s.tasks r.task = some (.update r.upd r.specs (.transaction r.prepared))
  step : step s (.resume r.task (.minted r.ids)) = some s'

/-- A stored draft is fetched, opened, edited in one field and saved: every other field and the
attachments are as they were exactly if the draft is one the composer can show, without an HTML
body and without an attachment of a blank type, and the new attachment rows are stamped in
order. -/
theorem reopened_draft_survives_iff {r : Reopening} {crates : Crates} {b : Daemon.Fetch.Backend}
    {d : Uuid} {field : ComposeField} {s s' : State} (h : r.Goes crates b d field s s') :
    OnlyEdited field d r.stored.toDraft s.db s'.db ↔
      Survives field r.stored.toDraft ((s.db.listForDraft d).map (·.prepared)) r.ids := by
  obtain ⟨args, stored, parts, base64, errorText, temp, uniques, oldFiles, files, opened, edits, c,
    upd, specs, calls, prepared, t, ids⟩ := r
  obtain ⟨hserves, hid, hget, hold, huniques, hopen, hedit, honly, hargs, hguess, hsees, hprepare,
    htask, hstep⟩ := h
  dsimp only at *
  obtain ⟨hupd, hsends, rfl⟩ := sends_of_args hargs
  subst hupd
  obtain ⟨draft, hparts⟩ := Daemon.Drafts.draftGetParts_eq hserves hid
  rw [hget] at hparts
  cases hparts
  rw [List.length_map] at huniques
  obtain ⟨hfrom, hopened⟩ := composerDraftFromSummary_ok huniques hopen
  have hattached : c.attachments = opened.attachments := ComposerState.attachments_applyAll hedit
  obtain ⟨hcommitted, -⟩ := committed htask hold hstep
  -- the files are those of the rows
  obtain ⟨pending, hpending, hread⟩ := bind_eq_ok.mp hprepare
  obtain ⟨new, hnew, hread⟩ := bind_eq_ok.mp hread
  cases hread
  obtain ⟨hlength, hrows⟩ := hcommitted.replaced new rfl
  have hspecs : c.draft.specs = opened.attachments.map (·.spec) := by
    rw [← hattached]
    rfl
  rw [hspecs] at hsees
  rw [pendFrom_ok hpending, hspecs, List.map_map] at hnew
  have hresaved := resaved_of_readFrom hguess hopened hsees hnew
  have hlisted := resaved_listed_iff hlength hresaved
  rw [← listForDraft_stamped hrows] at hlisted
  have hfields : ∀ other, other ≠ field → (SameField stored.toDraft (stored.toDraft.patch upd) other ↔
      ShowsField stored.toDraft other) := fun other hne => sameField_iff hfrom hsends (honly other hne)
  have hhtml : upd.htmlBody = none := hsends.htmlBody
  constructor
  · rintro ⟨⟨row, hrow, hsame, hhtmlrow, -⟩, hattachments⟩
    rw [hcommitted.row] at hrow
    obtain rfl := Option.some.inj hrow
    obtain ⟨htypes, hstamps⟩ := hlisted.mp hattachments
    refine ⟨?_, fun other hne => (hfields other hne).mp (hsame other hne), htypes, hstamps⟩
    rw [← hhtmlrow]
    exact hhtml
  · intro h
    refine ⟨⟨_, hcommitted.row, fun other hne => (hfields other hne).mpr (h.fields other hne), ?_,
      rfl, rfl, rfl, rfl⟩, hlisted.mpr ⟨h.types, h.stamps⟩⟩
    rw [h.html]
    exact hhtml

/-! ## A mark before the text -/

open Machine (run)
open Daemon.Drafts (sampleId sampleDraft)

def htmlDraft : Draft := { sampleDraft with htmlBody := some "<p>text</p>" }

theorem nothing_attached : Unique (fun a : DraftAttachment => some a.id) [] := Unique.nil

def storing (draft : Draft) : Db where
  accounts := []
  drafts := [draft]
  attachments := []
  unique := nothing_attached

def fetching (draft : Draft) : Daemon.Fetch.Backend :=
  { Daemon.FrameLimit.draftBackend [] with
    getDraft := fun _ => .ok (some ⟨draft, none, none, "", ""⟩)
    listForDraft := fun _ => .ok []
    loadContent := fun _ => .ok none }

/-- The draft as the composer has it. -/
def openedDraft (draft : Draft) : ComposerDraft :=
  ⟨draft.accountId, draft.inReplyToMsg, draft.toAddrs, draft.ccAddrs, draft.bccAddrs, draft.subject,
    draft.textBody, draft.htmlBody, [], draft.inReplyTo, draft.referencesHeader⟩

/-- An exclamation mark is typed at the start of the body. -/
def marking (draft : Draft) : Reopening :=
  let composer := ((ComposerState.ofExistingDraft draft.id (openedDraft draft)
    .body).insertFocusedChar '!').getD (.new draft.accountId)
  { args := .object [("id", .string draft.id.hyphenated)]
    stored := ⟨draft, none, none, "", ""⟩
    parts := []
    base64 := Mail.Base64.documented
    errorText := fun _ => ""
    temp := ⟨"/tmp", fun _ => none⟩
    uniques := fun _ => draft.id
    oldFiles := fun _ => none
    files := fun _ => none
    opened := openedDraft draft
    edits := [.insert '!']
    composer
    upd := ⟨draft.id, composer.draft.toAddrs, composer.draft.ccAddrs, composer.draft.bccAddrs,
      composer.draft.subject, composer.draft.textBody, composer.draft.htmlBody⟩
    specs := some []
    calls := Daemon.Drafts.sampleCalls
    prepared := some []
    task := 0
    ids := [] }

/-- The update up to its transaction. -/
def savingRun (draft : Draft) : List Daemon.Drafts.Action :=
  [.arrive 0 (.draftUpdate (marking draft).upd (some [])), .resume 0 (.files (some []))]

theorem edited_marking (draft : Draft) :
    ComposerState.applyAll (marking draft).edits (.ofExistingDraft draft.id (openedDraft draft)
      .body) = some (marking draft).composer := by
  have hinserted : ((ComposerState.ofExistingDraft draft.id (openedDraft draft)
      .body).insertFocusedChar '!').isSome := by
    unfold ComposerState.insertFocusedChar
    dsimp only
    rw [insertAt_charToByteIndex]
    rfl
  obtain ⟨composer, hcomposer⟩ := Option.isSome_iff_exists.mp hinserted
  have hmarked : (marking draft).composer = composer := by
    show Option.getD _ _ = composer
    rw [hcomposer]
    rfl
  rw [hmarked]
  show (ComposerState.insertFocusedChar _ '!').bind (ComposerState.applyAll []) = some composer
  rw [hcomposer]
  rfl

theorem run_savingRun (draft : Draft) :
    ∃ s, run step (State.init (storing draft)) (savingRun draft) = some s ∧
      s.db = storing draft ∧
      s.tasks 0 = some (.update (marking draft).upd (some []) (.transaction (some []))) :=
  ⟨_, rfl, rfl, rfl⟩

theorem getDraft_storing (draft : Draft) : (storing draft).getDraft draft.id = some draft := by
  show [draft].find? (fun d => d.id = draft.id) = some draft
  exact List.find?_cons_of_pos (by exact decide_eq_true rfl)

/-- Whatever the draft is, the session goes this way. -/
theorem marking_goes (draft : Draft) :
    ∃ s s', run step (State.init (storing draft)) (savingRun draft) = some s ∧
      s.db = storing draft ∧
      (marking draft).Goes .plain (fetching draft) draft.id .body s s' := by
  obtain ⟨s, hrun, hdb, htask⟩ := run_savingRun draft
  have hspecs : (marking draft).composer.draft.specs = [] := by
    show (marking draft).composer.attachments.map (·.spec) = []
    rw [ComposerState.attachments_applyAll (edited_marking draft)]
    rfl
  have hold : s.db.getDraft draft.id = some draft := by rw [hdb, getDraft_storing]
  have hid : Daemon.Args.parseId .plain (marking draft).args "id" = .ok draft.id :=
    parseId_of_get .plain rfl
  obtain ⟨s', hstep⟩ : ∃ s', step s (.resume 0 (.minted [])) = some s' := by
    have hupd : (marking draft).upd.id = draft.id := rfl
    have hempty : s.db.attachments = [] := by
      rw [hdb]
      rfl
    simp [Daemon.Drafts.step, htask, Daemon.Drafts.Task.resume, Daemon.Drafts.resumeUpdate, hupd,
      hold, Daemon.Drafts.Change.minted, Db.apply, hempty, Db.withAttachments, Unique.nil]
  refine ⟨s, s', hrun, hdb, ?_⟩
  exact {
    serves := by
      refine ⟨⟨_, rfl⟩, ?_, ?_⟩
      · rw [hdb]
        rfl
      · intro id
        rw [hdb]
        rfl
    id := hid
    get := by
      unfold Daemon.Fetch.draftGetParts
      rw [hid]
      rfl
    row := hold
    uniques := by
      intro i hi
      cases hi
    opens := rfl
    edited := edited_marking draft
    only := by
      intro other hother
      obtain ⟨composer, hcomposer, hrest⟩ := Option.bind_eq_some_iff.mp (edited_marking draft)
      cases hrest
      exact ComposerState.textOf_insertFocusedChar hcomposer hother
    saves := by
      rw [draftUpdateArgs_decodes, hspecs]
      rfl
    guesses := by
      intro path type h
      cases h
    sees := by
      rw [hspecs]
      intro i spec h
      cases h
    prepares := rfl
    commits := htask
    step := hstep }

/-- A plain draft: the mark is all that is new. -/
theorem plain_draft_survives :
    ∃ s s', run step (State.init (storing sampleDraft)) (savingRun sampleDraft) = some s ∧
      (marking sampleDraft).Goes .plain (fetching sampleDraft) sampleDraft.id .body s s' ∧
      OnlyEdited .body sampleDraft.id sampleDraft s.db s'.db := by
  obtain ⟨s, s', hrun, hdb, hgoes⟩ := marking_goes sampleDraft
  refine ⟨s, s', hrun, hgoes, (reopened_draft_survives_iff hgoes).mpr ?_⟩
  rw [hdb]
  refine ⟨rfl, ?_, ?_, rfl⟩
  · intro other hother
    cases other with
    | toLine =>
      intro a ha
      obtain rfl := List.mem_singleton.mp ha
      have huncut : "bob@example.org".toList.all (fun c => isAddressSeparator c = false) := by decide
      exact ⟨by decide, by decide, fun c hc => of_decide_eq_true (List.all_eq_true.mp huncut c hc)⟩
    | ccLine =>
      intro a ha
      cases ha
    | bccLine =>
      intro a ha
      cases ha
    | subject =>
      intro text htext
      cases htext
      decide
    | body => exact absurd rfl hother
  · intro row hrow
    cases hrow

/-- A draft with an HTML body: the mark in the text takes it away. -/
theorem html_draft_loses_its_html :
    ∃ s s', run step (State.init (storing htmlDraft)) (savingRun htmlDraft) = some s ∧
      (marking htmlDraft).Goes .plain (fetching htmlDraft) htmlDraft.id .body s s' ∧
      ¬ OnlyEdited .body htmlDraft.id htmlDraft s.db s'.db := by
  obtain ⟨s, s', hrun, hdb, hgoes⟩ := marking_goes htmlDraft
  refine ⟨s, s', hrun, hgoes, fun h => ?_⟩
  obtain ⟨row, hrow, -, hhtml, -⟩ := h.row
  have hnew := (committed hgoes.commits hgoes.row hgoes.step).1.row
  have hid : (marking htmlDraft).upd.id = htmlDraft.id := rfl
  rw [hid, hrow] at hnew
  rw [Option.some.inj hnew] at hhtml
  have hsent : (marking htmlDraft).upd.htmlBody = none := rfl
  rw [Draft.patch, hsent] at hhtml
  cases hhtml

end Postblox.Tui
