import Postblox.Daemon.OneVersion

/-!
# What an update leaves of the fields it does not name

A request names the fields it wants to change. The attachments are left alone when they are
not named; the six columns of the row are all written, those that are not named with the
default of their type.
-/
namespace Postblox.Daemon.Drafts

open Daemon.Args (DraftUpdate DraftAttachmentSpec draftUpdate draftUpdateArgs stringVec
  optionField requiredField defaultedField takeAttachmentSpecs)
open Json (Value)
open Lib.Machine

variable {s s' : State}

/-! ## A committed update -/

/-- The row and the attachments after the transaction. -/
structure Committed (upd : DraftUpdate) (prepared : Option (List PreparedDraftAttachment))
    (ids : List (Uuid × Int)) (old : Draft) (before after : Db) : Prop where
  row : after.getDraft upd.id = some (old.patch upd)
  kept : prepared = none → after.attachments.filter (fun a => a.draftId = upd.id) =
    before.attachments.filter (fun a => a.draftId = upd.id)
  replaced : ∀ files, prepared = some files → files.length = ids.length ∧
    after.attachments.filter (fun a => a.draftId = upd.id) =
      (files.zip ids).map (newAttachment upd.id)

theorem filter_map_newAttachment (draftId : Uuid)
    (new : List (PreparedDraftAttachment × (Uuid × Int))) :
    (new.map (newAttachment draftId)).filter (fun a => a.draftId = draftId) =
      new.map (newAttachment draftId) := by
  rw [List.filter_eq_self]
  intro a ha
  obtain ⟨p, -, rfl⟩ := List.mem_map.mp ha
  exact decide_eq_true rfl

theorem filter_ne_eq_nil (rows : List DraftAttachment) (draftId : Uuid) :
    (rows.filter fun a => a.draftId ≠ draftId).filter (fun a => a.draftId = draftId) = [] := by
  rw [List.filter_eq_nil_iff]
  intro a ha
  simpa using (List.mem_filter.mp ha).2

theorem committed {t : Nat} {upd : DraftUpdate} {specs : Option (List DraftAttachmentSpec)}
    {prepared : Option (List PreparedDraftAttachment)} {ids : List (Uuid × Int)} {old : Draft}
    (htask : s.tasks t = some (.update upd specs (.transaction prepared)))
    (hold : s.db.getDraft upd.id = some old)
    (hstep : step s (.resume t (.minted ids)) = some s') :
    Committed upd prepared ids old s.db s'.db ∧
      s'.tasks t = some (.update upd specs (.finished (.ok (some (old.patch upd))))) := by
  cases step_cases hstep with
  | @resume _ _ task task' change db htask' hresume _ hdb =>
    rw [htask] at htask'
    cases htask'
    obtain ⟨⟨stage, change'⟩, hupdate, heq⟩ := Option.map_eq_some_iff.mp hresume
    cases heq
    simp only [resumeUpdate, hold] at hupdate
    split_ifs at hupdate with hlength
    cases hupdate
    have hrow := resume_updated hresume hdb
    refine ⟨⟨hrow, ?_, ?_⟩, by rw [resumed_tasks, if_pos rfl]⟩
    · rintro rfl
      cases hdb
      rfl
    · rintro files rfl
      obtain ⟨-, -, hattachments⟩ := withAttachments_eq hdb
      refine ⟨hlength.symm, ?_⟩
      show db.attachments.filter _ = _
      rw [hattachments, List.filter_append, filter_ne_eq_nil, filter_map_newAttachment,
        List.nil_append]

/-! ## What the request says -/

/-- The addresses a request names for a field. -/
def suppliedAddrs (args : Value) (key : String) : Option (List String) :=
  (args.get key).bind stringVec

/-- The text a request names for a field, `null` for none. -/
def suppliedText (args : Value) (key : String) : Option (Option String) :=
  (args.get key).map Value.asStr

/-- An array of attachments that is neither missing nor `null`. -/
def namesAttachments (args : Value) : Prop :=
  args.get "attachments" ≠ none ∧ args.get "attachments" ≠ some .null

/-- Name, type and bytes. -/
def DraftAttachment.payload (a : DraftAttachment) : String × String × List UInt8 :=
  (a.filename, a.contentType, a.content)

def PreparedDraftAttachment.payload (a : PreparedDraftAttachment) :
    String × String × List UInt8 :=
  (a.filename, a.contentType, a.content)

/-- Each field that is named has the value that is named, each other one its old value. -/
structure FollowsRequest (args : Value) (prepared : Option (List PreparedDraftAttachment))
    (id : Uuid) (old new : Draft) (before after : Db) : Prop where
  toAddrs : new.toAddrs = (suppliedAddrs args "to_addrs").getD old.toAddrs
  ccAddrs : new.ccAddrs = (suppliedAddrs args "cc_addrs").getD old.ccAddrs
  bccAddrs : new.bccAddrs = (suppliedAddrs args "bcc_addrs").getD old.bccAddrs
  subject : new.subject = (suppliedText args "subject").getD old.subject
  textBody : new.textBody = (suppliedText args "text_body").getD old.textBody
  htmlBody : new.htmlBody = (suppliedText args "html_body").getD old.htmlBody
  keptAttachments : ¬ namesAttachments args → after.listForDraft id = before.listForDraft id
  newAttachments : namesAttachments args → ∃ files, prepared = some files ∧
    ((after.listForDraft id).map (·.payload)).Perm (files.map (·.payload))

/-- What a request does not name is empty anyway. -/
structure LeavesOnlyDefaults (args : Value) (old : Draft) : Prop where
  toAddrs : args.get "to_addrs" = none → old.toAddrs = []
  ccAddrs : args.get "cc_addrs" = none → old.ccAddrs = []
  bccAddrs : args.get "bcc_addrs" = none → old.bccAddrs = []
  subject : args.get "subject" = none → old.subject = none
  textBody : args.get "text_body" = none → old.textBody = none
  htmlBody : args.get "html_body" = none → old.htmlBody = none

/-! ## One field -/

theorem addrs_iff {args : Value} {key : String} {value old : List String}
    (h : defaultedField stringVec args key = some value) :
    value = (suppliedAddrs args key).getD old ↔ (args.get key = none → old = []) := by
  unfold defaultedField at h
  unfold suppliedAddrs
  cases hget : args.get key with
  | none =>
    rw [hget] at h
    cases h
    exact ⟨fun heq _ => heq.symm, fun heq => (heq rfl).symm⟩
  | some v =>
    rw [hget] at h
    have hread : stringVec v = some value := h
    rw [Option.bind_some, hread]
    exact ⟨fun _ hnone => absurd hnone (Option.some_ne_none v), fun _ => rfl⟩

theorem text_iff {args : Value} {key : String} {value old : Option String}
    (h : optionField Value.asStr args key = some value) :
    value = (suppliedText args key).getD old ↔ (args.get key = none → old = none) := by
  unfold optionField at h
  unfold suppliedText
  cases hget : args.get key with
  | none =>
    rw [hget] at h
    cases h
    exact ⟨fun heq _ => heq.symm, fun heq => (heq rfl).symm⟩
  | some v =>
    rw [hget] at h
    have hread : v.asStr = value := by
      cases v with
      | null => cases h; rfl
      | _ =>
        obtain ⟨text, htext, rfl⟩ := Option.map_eq_some_iff.mp h
        exact htext
    rw [Option.map_some, hread]
    exact ⟨fun _ hnone => absurd hnone (Option.some_ne_none v), fun _ => rfl⟩

/-- The fields of a decoded update, one by one. -/
structure ReadsFields (crates : Crates) (args : Value) (upd : DraftUpdate) : Prop where
  id : requiredField (Args.uuidValue crates) args "id" = some upd.id
  toAddrs : defaultedField stringVec args "to_addrs" = some upd.toAddrs
  ccAddrs : defaultedField stringVec args "cc_addrs" = some upd.ccAddrs
  bccAddrs : defaultedField stringVec args "bcc_addrs" = some upd.bccAddrs
  subject : optionField Value.asStr args "subject" = some upd.subject
  textBody : optionField Value.asStr args "text_body" = some upd.textBody
  htmlBody : optionField Value.asStr args "html_body" = some upd.htmlBody

theorem readsFields {crates : Crates} {args : Value} {upd : DraftUpdate}
    (h : draftUpdate crates args = some upd) : ReadsFields crates args upd := by
  simp only [draftUpdate, Option.bind_eq_bind, Option.bind_eq_some_iff] at h
  obtain ⟨id, hid, toAddrs, hto, ccAddrs, hcc, bccAddrs, hbcc, subject, hsubject, textBody, htext,
    htmlBody, hhtml, heq⟩ := h
  cases heq
  exact ⟨hid, hto, hcc, hbcc, hsubject, htext, hhtml⟩

/-- The specs are there exactly if the request names attachments. -/
theorem isSome_specs_iff {crates : Crates} {args : Value}
    {specs : Option (List DraftAttachmentSpec)}
    (h : takeAttachmentSpecs crates args = .ok specs) : specs.isSome = true ↔ namesAttachments args := by
  unfold takeAttachmentSpecs at h
  unfold namesAttachments
  cases hget : args.get "attachments" with
  | none =>
    rw [hget] at h
    cases h
    simp
  | some v =>
    rw [hget] at h
    cases v with
    | null =>
      cases h
      simp
    | _ =>
      dsimp only at h
      split at h
      · cases h
      · cases h
        simp

theorem draftUpdateArgs_ok {crates : Crates} {args : Value} {upd : DraftUpdate}
    {specs : Option (List DraftAttachmentSpec)}
    (h : draftUpdateArgs crates args = .ok (.draftUpdate upd specs)) :
    takeAttachmentSpecs crates args = .ok specs ∧ draftUpdate crates args = some upd := by
  unfold draftUpdateArgs at h
  cases hspecs : takeAttachmentSpecs crates args with
  | error e =>
    rw [hspecs] at h
    cases h
  | ok specs' =>
    rw [hspecs] at h
    cases hupd : draftUpdate crates args with
    | none =>
      rw [hupd] at h
      cases h
    | some upd' =>
      rw [hupd] at h
      cases h
      exact ⟨rfl, rfl⟩

/-! ## Runs -/

/-- Files are prepared for the requests that name attachments. -/
def PreparedAsAsked (s : State) : Prop :=
  ∀ t upd specs prepared, s.tasks t = some (.update upd specs (.transaction prepared)) →
    prepared.isSome = specs.isSome

theorem resume_transaction {db : Db} {task : Task} {outcome : Outcome} {upd : DraftUpdate}
    {specs : Option (List DraftAttachmentSpec)}
    {prepared : Option (List PreparedDraftAttachment)} {change : Change}
    (h : task.resume db outcome = some (.update upd specs (.transaction prepared), change)) :
    task = .update upd specs .files ∧ outcome = .files prepared ∧
      prepared.isSome = specs.isSome := by
  cases task with
  | update upd₀ specs₀ stage =>
    obtain ⟨⟨stage', change'⟩, hresume, heq⟩ := Option.map_eq_some_iff.mp h
    cases heq
    cases stage with
    | files =>
      cases outcome with
      | files attachments =>
        simp only [resumeUpdate] at hresume
        split_ifs at hresume with hsome
        cases hresume
        exact ⟨rfl, rfl, hsome⟩
      | _ => cases hresume
    | transaction attachments =>
      cases outcome with
      | minted ids =>
        simp only [resumeUpdate] at hresume
        split at hresume
        · cases hresume
        · split_ifs at hresume
          cases hresume
      | failed e => cases hresume
      | _ => cases hresume
    | finished result => cases hresume
  | send a d stage =>
    obtain ⟨x, -, heq⟩ := Option.map_eq_some_iff.mp h
    cases heq
  | create new specs stage =>
    obtain ⟨x, -, heq⟩ := Option.map_eq_some_iff.mp h
    cases heq
  | delete id result =>
    cases result with
    | none =>
      obtain ⟨x, -, heq⟩ := Option.map_eq_some_iff.mp h
      cases heq
    | some r => cases h
  | cancelled => cases h

/-- A new task has not begun. -/
theorem start_update {operation : Args.Operation} {upd : DraftUpdate}
    {specs : Option (List DraftAttachmentSpec)} {stage : UpdateStage}
    (h : Task.start operation = some (.update upd specs stage)) : stage = .files := by
  cases operation <;> cases h
  rfl

theorem PreparedAsAsked.step (h : PreparedAsAsked s) {a : Action} (hstep : Step s a s') :
    PreparedAsAsked s' := by
  intro t₀ upd specs prepared htask
  cases hstep with
  | @arrive t operation task _ hstart =>
    rw [State.setTask_tasks] at htask
    split_ifs at htask
    · cases htask
      cases start_update hstart
    · exact h t₀ upd specs prepared htask
  | @resume t outcome task task' change db _ hresume _ _ =>
    rw [resumed_tasks] at htask
    split_ifs at htask
    · cases htask
      exact (resume_transaction hresume).2.2
    · exact h t₀ upd specs prepared htask
  | @cancel t task _ =>
    rw [State.setTask_tasks] at htask
    split_ifs at htask
    · cases htask
    · exact h t₀ upd specs prepared htask

theorem preparedAsAsked_of_run {db : Db} {acts : List Action}
    (hrun : run step (State.init db) acts = some s) : PreparedAsAsked s :=
  invariant step (fun _ _ _ _ h => by cases h)
    (fun _ _ _ h hstep => h.step (step_cases hstep)) hrun

/-- An accepted update that commits follows the request exactly if every field the request does
not name is stored with the default of its type already. -/
theorem update_follows_request_iff {crates : Crates} {args : Value} {upd : DraftUpdate}
    {specs : Option (List DraftAttachmentSpec)} {db : Db} {acts : List Action} {t : Nat}
    {prepared : Option (List PreparedDraftAttachment)} {ids : List (Uuid × Int)} {old : Draft}
    (hargs : draftUpdateArgs crates args = .ok (.draftUpdate upd specs))
    (hrun : run step (State.init db) acts = some s)
    (htask : s.tasks t = some (.update upd specs (.transaction prepared)))
    (hold : s.db.getDraft upd.id = some old)
    (hstep : Drafts.step s (.resume t (.minted ids)) = some s') :
    ∃ new, s'.db.getDraft upd.id = some new ∧
      (FollowsRequest args prepared upd.id old new s.db s'.db ↔ LeavesOnlyDefaults args old) := by
  obtain ⟨hspecs, hupd⟩ := draftUpdateArgs_ok hargs
  have hfields := readsFields hupd
  have hasked := preparedAsAsked_of_run hrun t upd specs prepared htask
  obtain ⟨hcommitted, -⟩ := committed htask hold hstep
  have hkept : ¬ namesAttachments args →
      s'.db.listForDraft upd.id = s.db.listForDraft upd.id := by
    intro hnames
    rw [← isSome_specs_iff hspecs, ← hasked] at hnames
    apply listForDraft_frame
    exact hcommitted.kept (Option.not_isSome_iff_eq_none.mp hnames)
  have hnew : namesAttachments args → ∃ files, prepared = some files ∧
      ((s'.db.listForDraft upd.id).map (·.payload)).Perm (files.map (·.payload)) := by
    intro hnames
    rw [← isSome_specs_iff hspecs, ← hasked] at hnames
    obtain ⟨files, rfl⟩ := Option.isSome_iff_exists.mp hnames
    obtain ⟨hlength, hrows⟩ := hcommitted.replaced files rfl
    refine ⟨files, rfl, ?_⟩
    have hperm := (Lib.sortByKey_perm (fun a : DraftAttachment =>
      toLex (a.createdAt, a.id.hyphenated))
      (s'.db.attachments.filter fun a => a.draftId = upd.id)).map (·.payload)
    refine hperm.trans ?_
    rw [hrows, List.map_map]
    have hpayload : (files.zip ids).map ((·.payload) ∘ newAttachment upd.id) =
        (files.zip ids).map ((·.payload) ∘ Prod.fst) := rfl
    rw [hpayload, ← List.map_map, List.map_fst_zip hlength.le]
  refine ⟨old.patch upd, hcommitted.row, ?_⟩
  constructor
  · intro h
    exact ⟨(addrs_iff hfields.toAddrs).mp h.toAddrs, (addrs_iff hfields.ccAddrs).mp h.ccAddrs,
      (addrs_iff hfields.bccAddrs).mp h.bccAddrs, (text_iff hfields.subject).mp h.subject,
      (text_iff hfields.textBody).mp h.textBody, (text_iff hfields.htmlBody).mp h.htmlBody⟩
  · intro h
    exact ⟨(addrs_iff hfields.toAddrs).mpr h.toAddrs, (addrs_iff hfields.ccAddrs).mpr h.ccAddrs,
      (addrs_iff hfields.bccAddrs).mpr h.bccAddrs, (text_iff hfields.subject).mpr h.subject,
      (text_iff hfields.textBody).mpr h.textBody, (text_iff hfields.htmlBody).mpr h.htmlBody,
      hkept, hnew⟩

/-! ## Two requests -/

/-- The new text of a request that names everything, and of one that names the text alone. -/
def fullArgs : Value :=
  .object [("bcc_addrs", .array []), ("cc_addrs", .array []), ("html_body", .null),
    ("id", .string (sampleId 2).hyphenated), ("subject", .string "offer"),
    ("text_body", .string "better text"), ("to_addrs", .array [.string "bob@example.org"])]

def textArgs : Value :=
  .object [("id", .string (sampleId 2).hyphenated), ("text_body", .string "better text")]

def fullUpdate : DraftUpdate :=
  ⟨sampleId 2, ["bob@example.org"], [], [], some "offer", some "better text", none⟩

def textUpdate : DraftUpdate := ⟨sampleId 2, [], [], [], none, some "better text", none⟩

/-- The request up to its transaction. -/
def updating (upd : DraftUpdate) : List Action :=
  [.arrive 0 (.draftUpdate upd none), .resume 0 (.files none)]

theorem run_updating (upd : DraftUpdate) :
    ∃ s, run step (State.init sampleDb) (updating upd) = some s ∧ s.db = sampleDb ∧
      s.tasks 0 = some (.update upd none (.transaction none)) := ⟨_, rfl, rfl, rfl⟩

theorem updates_sample {upd : DraftUpdate} (hid : upd.id = sampleId 2)
    (hdb : s.db = sampleDb) (htask : s.tasks 0 = some (.update upd none (.transaction none))) :
    s.db.getDraft upd.id = some sampleDraft ∧
      ∃ s', step s (.resume 0 (.minted [])) = some s' := by
  have hold : s.db.getDraft upd.id = some sampleDraft := by
    rw [hdb, hid]
    decide
  refine ⟨hold, ?_⟩
  simp [Drafts.step, htask, Task.resume, resumeUpdate, hold, Change.minted, Db.apply]

/-- A request that names every field. -/
theorem full_update_follows :
    ∃ (s s' : State) (new : Draft), s.db.getDraft (sampleId 2) = some sampleDraft ∧
      s'.db.getDraft (sampleId 2) = some new ∧
      FollowsRequest fullArgs none (sampleId 2) sampleDraft new s.db s'.db := by
  obtain ⟨s, hrun, hdb, htask⟩ := run_updating fullUpdate
  obtain ⟨hold, s', hstep⟩ := updates_sample rfl hdb htask
  have hargs : draftUpdateArgs Crates.plain fullArgs = .ok (.draftUpdate fullUpdate none) := by
    decide
  obtain ⟨new, hnew, hiff⟩ := update_follows_request_iff hargs hrun htask hold hstep
  refine ⟨s, s', new, hold, hnew, hiff.mpr ?_⟩
  exact ⟨fun h => absurd h (by decide), fun h => absurd h (by decide),
    fun h => absurd h (by decide), fun h => absurd h (by decide), fun h => absurd h (by decide),
    fun _ => rfl⟩

/-- A request that names the text alone: the recipients and the subject are gone. -/
theorem text_update_clears_the_rest :
    ∃ s s', run step (State.init sampleDb) (updating textUpdate) = some s ∧
      draftUpdateArgs Crates.plain textArgs = .ok (.draftUpdate textUpdate none) ∧
      step s (.resume 0 (.minted [])) = some s' ∧
      s.db.getDraft (sampleId 2) = some sampleDraft ∧
      ∃ new, s'.db.getDraft (sampleId 2) = some new ∧ new.toAddrs = [] ∧ new.subject = none ∧
        ¬ FollowsRequest textArgs none (sampleId 2) sampleDraft new s.db s'.db := by
  obtain ⟨s, hrun, hdb, htask⟩ := run_updating textUpdate
  obtain ⟨hold, s', hstep⟩ := updates_sample rfl hdb htask
  obtain ⟨hcommitted, -⟩ := committed htask hold hstep
  refine ⟨s, s', hrun, by decide, hstep, hold, _, hcommitted.row, rfl, rfl, ?_⟩
  intro h
  have hsubject := h.subject
  revert hsubject
  decide

end Postblox.Daemon.Drafts
