import Postblox.Daemon.DraftRows

/-!
# How a draft is created

A create inserts the row and then one attachment after the other; when one of these statements
fails it deletes the row again. Until then no other request adds to the draft, unless an
update commits in between.
-/
namespace Postblox.Daemon.Drafts

open Daemon.Args (NewDraft DraftUpdate DraftAttachmentSpec)
open Lib.Machine

variable {s s' : State}

/-! ## Who creates a draft -/

/-- The draft that a create has inserted and not completed. -/
def CreateStage.unfinished : CreateStage → Option Draft
  | .clear draft _ | .attach draft _ _ | .rollback draft _ => some draft
  | _ => none

def State.Creating (s : State) (t : Nat) (d : Uuid) : Prop :=
  ∃ new specs stage draft, s.tasks t = some (.create new specs stage) ∧
    stage.unfinished = some draft ∧ draft.id = d

/-- Request `t` has attachments of draft `d` still to insert. -/
def State.Attaching (s : State) (t : Nat) (d : Uuid) : Prop :=
  ∃ new specs draft next rest, s.tasks t = some (.create new specs (.attach draft next rest)) ∧
    draft.id = d

/-- The drafts that are being created are minted, and each by one request. -/
structure Owned (s : State) : Prop where
  drafts : ∀ d, s.db.getDraft d ≠ none → d ∈ s.minted
  parents : ∀ d, s.db.getDraft d = none → s.db.rowsOf d = []
  owns : ∀ t d, s.Creating t d → d ∈ s.minted
  alone : ∀ t t' d, s.Creating t d → s.Creating t' d → t = t'

theorem State.Attaching.creating {t : Nat} {d : Uuid} (h : s.Attaching t d) : s.Creating t d := by
  obtain ⟨new, specs, draft, next, rest, htask, hid⟩ := h
  exact ⟨new, specs, _, draft, htask, rfl, hid⟩

/-- What request `t` may write. -/
inductive Writes (s : State) (t : Nat) : Change → Prop where
  | quiet : Writes s t .quiet
  | deleteDraft {id : Uuid} : Writes s t (.deleteDraft id)
  | updateDraft {upd : DraftUpdate} {draft : Draft}
      {files : Option (List (PreparedDraftAttachment × (Uuid × Int)))}
      (hdraft : s.db.getDraft upd.id = some draft) : Writes s t (.updateDraft upd files)
  | insertDraft {draft : Draft} (hfresh : draft.id ∉ s.minted) : Writes s t (.insertDraft draft)
  | clearAttachments {d : Uuid} (hcreating : s.Creating t d) : Writes s t (.clearAttachments d)
  | insertAttachment {row : DraftAttachment} (hparent : s.db.getDraft row.draftId ≠ none)
      (hattaching : s.Attaching t row.draftId) : Writes s t (.insertAttachment row)

section Resume

variable {t : Nat} {outcome : Outcome} {task task' : Task} {change : Change} {db : Db}

theorem attach_writes {new : NewDraft} {specs : Option (List DraftAttachmentSpec)} {draft : Draft}
    {next : PreparedDraftAttachment} {rest : List PreparedDraftAttachment} {id : Uuid × Int}
    (htask : s.tasks t = some (.create new specs (.attach draft next rest)))
    (hdb : s.db.apply (.insertAttachment (newAttachment draft.id (next, id))) = some db) :
    Writes s t (.insertAttachment (newAttachment draft.id (next, id))) :=
  .insertAttachment (Option.isSome_iff_ne_none.mp (insertAttachment_eq hdb).1)
    ⟨new, specs, draft, next, rest, htask, rfl⟩

theorem resume_writes (htask : s.tasks t = some task)
    (hresume : task.resume s.db outcome = some (task', change))
    (hfresh : ∀ id ∈ change.minted, id ∉ s.minted) (hdb : s.db.apply change = some db) :
    Writes s t change := by
  cases resume_moves hresume with
  | send hmoves =>
    cases hmoves with
    | deletes => exact .deleteDraft
    | _ => exact .quiet
  | update hmoves =>
    cases hmoves with
    | commits hdraft _ => exact .updateDraft hdraft
    | _ => exact .quiet
  | create hmoves =>
    cases hmoves with
    | insertsAlone => exact .insertDraft (hfresh _ List.mem_cons_self)
    | inserts => exact .insertDraft (hfresh _ List.mem_cons_self)
    | clears => exact .clearAttachments ⟨_, _, _, _, htask, rfl, rfl⟩
    | attaches => exact attach_writes htask hdb
    | unread => exact attach_writes htask hdb
    | deletes => exact .deleteDraft
    | _ => exact .quiet
  | delete hchange =>
    rcases hchange with rfl | rfl
    · exact .quiet
    · exact .deleteDraft

theorem Writes.drafts (hwrites : Writes s t change) (h : Owned s)
    (hdb : s.db.apply change = some db) {d : Uuid} (hd : db.getDraft d ≠ none) :
    d ∈ s.minted ++ change.minted := by
  rw [getDraft_apply hdb] at hd
  cases hwrites with
  | deleteDraft =>
    simp only [Change.row] at hd
    split_ifs at hd
    · exact absurd rfl hd
    · exact List.mem_append_left _ (h.drafts d hd)
  | updateDraft =>
    simp only [Change.row] at hd
    split_ifs at hd
    · exact List.mem_append_left _ (h.drafts d fun hnone => hd (by rw [hnone]; rfl))
    · exact List.mem_append_left _ (h.drafts d hd)
  | insertDraft =>
    simp only [Change.row] at hd
    split_ifs at hd with hid
    · exact List.mem_append_right _ (List.mem_singleton.mpr hid.symm)
    · exact List.mem_append_left _ (h.drafts d hd)
  | _ => exact List.mem_append_left _ (h.drafts d hd)

theorem Writes.parents (hwrites : Writes s t change) (h : Owned s)
    (hdb : s.db.apply change = some db) {d : Uuid} (hd : db.getDraft d = none) :
    db.rowsOf d = [] := by
  rw [getDraft_apply hdb] at hd
  rw [rowsOf_apply hdb]
  cases hwrites with
  | quiet => exact h.parents d hd
  | deleteDraft =>
    simp only [Change.row, Change.rows] at hd ⊢
    split_ifs at hd ⊢
    · rfl
    · exact h.parents d hd
  | @updateDraft upd draft files hdraft =>
    simp only [Change.row] at hd
    split_ifs at hd with hid
    · subst hid
      rw [hdraft] at hd
      cases hd
    · have hframe : (Change.updateDraft upd files).draft ≠ some d :=
        fun heq => hid (Option.some.inj heq)
      rw [Change.rows_frame hframe]
      exact h.parents d hd
  | insertDraft =>
    simp only [Change.row] at hd
    split_ifs at hd
    · cases hrow : s.db.getDraft d with
      | none =>
        rw [hrow] at hd
        cases hd
      | some row =>
        rw [hrow] at hd
        cases hd
    · exact h.parents d hd
  | clearAttachments =>
    simp only [Change.rows]
    split_ifs
    · rfl
    · exact h.parents d hd
  | @insertAttachment row hparent =>
    have hid : row.draftId ≠ d := fun heq => hparent (heq ▸ hd)
    have hframe : (Change.insertAttachment row).draft ≠ some d :=
      fun heq => hid (Option.some.inj heq)
    rw [Change.rows_frame hframe]
    exact h.parents d hd

/-- A row that goes back to an inserted one, by whole updates. -/
def FromRow (draft : Draft) (row : Option Draft) : Prop :=
  row = none ∨ ∃ upds : List DraftUpdate, row = some (upds.foldl Draft.patch draft)

theorem FromRow.patch {draft : Draft} {row : Option Draft} (h : FromRow draft row)
    (upd : DraftUpdate) : FromRow draft (row.map (·.patch upd)) := by
  rcases h with rfl | ⟨upds, rfl⟩
  · exact .inl rfl
  · refine .inr ⟨upds ++ [upd], ?_⟩
    rw [List.foldl_append]
    rfl

/-- Other requests do not insert the row of a draft that is being created. -/
theorem Writes.row (hwrites : Writes s t change)
    (hdb : s.db.apply change = some db) {d : Uuid} (hd : d ∈ s.minted) {draft : Draft}
    (hrow : FromRow draft (s.db.getDraft d)) : FromRow draft (db.getDraft d) := by
  rw [getDraft_apply hdb]
  cases hwrites with
  | deleteDraft =>
    simp only [Change.row]
    split_ifs
    · exact .inl rfl
    · exact hrow
  | @updateDraft upd =>
    simp only [Change.row]
    split_ifs
    · exact hrow.patch upd
    · exact hrow
  | insertDraft hfresh =>
    simp only [Change.row]
    split_ifs with hid
    · exact absurd hd (hid ▸ hfresh)
    · exact hrow
  | _ => exact hrow

/-- Other requests do not add to a draft that is still given attachments, updates apart. -/
theorem Writes.rows (hwrites : Writes s t change) (h : Owned s)
    (hdb : s.db.apply change = some db) {t' : Nat} {d : Uuid} (hne : t' ≠ t)
    (hcreating : s.Creating t' d)
    (hunmixed : ∀ upd files, change = .updateDraft upd (some files) → upd.id ≠ d) :
    db.getDraft d = none ∨
      db.rowsOf d = s.db.rowsOf d ∧ (s.db.getDraft d = none → db.getDraft d = none) := by
  rw [getDraft_apply hdb, rowsOf_apply hdb]
  cases hwrites with
  | quiet => exact .inr ⟨rfl, fun hnone => hnone⟩
  | @deleteDraft id =>
    by_cases hid : id = d
    · exact .inl (if_pos hid)
    · have hframe : (Change.deleteDraft id).draft ≠ some d :=
        fun heq => hid (Option.some.inj heq)
      exact .inr ⟨if_neg hid, (Change.row_frame hframe _).trans⟩
  | @updateDraft upd draft files hdraft =>
    by_cases hid : upd.id = d
    · have hnone : files = none := by
        by_contra hsome
        obtain ⟨new, rfl⟩ := Option.ne_none_iff_exists'.mp hsome
        exact hunmixed upd new rfl hid
      subst hid hnone
      exact .inr ⟨rfl, fun hgone => absurd (hdraft.symm.trans hgone) (Option.some_ne_none _)⟩
    · have hframe : (Change.updateDraft upd files).draft ≠ some d :=
        fun heq => hid (Option.some.inj heq)
      exact .inr ⟨Change.rows_frame hframe _, (Change.row_frame hframe _).trans⟩
  | @insertDraft draft hfresh =>
    have hid : draft.id ≠ d := fun heq => hfresh (heq ▸ h.owns t' d hcreating)
    have hframe : (Change.insertDraft draft).draft ≠ some d :=
      fun heq => hid (Option.some.inj heq)
    exact .inr ⟨rfl, (Change.row_frame hframe _).trans⟩
  | @clearAttachments d' hown =>
    have hid : d' ≠ d := by
      rintro rfl
      exact hne (h.alone t' t d' hcreating hown)
    exact .inr ⟨if_neg hid, fun hnone => hnone⟩
  | @insertAttachment row hparent hown =>
    have hid : row.draftId ≠ d := by
      rintro rfl
      exact hne (h.alone t' t _ hcreating hown.creating)
    exact .inr ⟨if_neg hid, fun hnone => hnone⟩

theorem next_unfinished {draft draft' : Draft} {files : List PreparedDraftAttachment}
    (h : (CreateStage.next draft files).unfinished = some draft') : draft = draft' := by
  cases files with
  | nil => cases h
  | cons next rest => exact Option.some.inj h

/-- A create begins with the insertion of its draft. -/
theorem CreateMoves.unfinished {new : NewDraft} {stage stage' : CreateStage}
    (h : CreateMoves new stage outcome stage' change) {draft : Draft}
    (hstage : stage'.unfinished = some draft) :
    stage.unfinished = some draft ∨ change.minted = [draft.id] := by
  cases h with
  | inserts =>
    cases hstage
    exact .inr rfl
  | clears => exact .inl (congrArg some (next_unfinished hstage))
  | attaches => exact .inl (congrArg some (next_unfinished hstage))
  | unread => exact .inl hstage
  | clearFails => exact .inl hstage
  | attachFails => exact .inl hstage
  | _ => cases hstage

theorem creating_resumed (htask : s.tasks t = some task)
    (hresume : task.resume s.db outcome = some (task', change)) {t' : Nat} {d : Uuid}
    (h : (s.resumed t outcome task task' change db).Creating t' d) :
    s.Creating t' d ∨ t' = t ∧ d ∈ change.minted := by
  obtain ⟨new, specs, stage, draft, htask', hstage, rfl⟩ := h
  rw [resumed_tasks] at htask'
  split_ifs at htask' with heq
  · subst heq
    cases htask'
    cases resume_moves hresume with
    | create hmoves =>
      rcases hmoves.unfinished hstage with hold | hminted
      · exact .inl ⟨new, specs, _, draft, htask, hold, rfl⟩
      · exact .inr ⟨rfl, by rw [hminted]; exact List.mem_singleton.mpr rfl⟩
  · exact .inl ⟨new, specs, stage, draft, htask', hstage, rfl⟩

theorem Owned.resumed (h : Owned s) (htask : s.tasks t = some task)
    (hresume : task.resume s.db outcome = some (task', change))
    (hfresh : ∀ id ∈ change.minted, id ∉ s.minted) (hdb : s.db.apply change = some db) :
    Owned (s.resumed t outcome task task' change db) := by
  have hwrites := resume_writes htask hresume hfresh hdb
  refine ⟨fun d => hwrites.drafts h hdb, fun d => hwrites.parents h hdb, ?_, ?_⟩
  · intro t' d hcreating
    rcases creating_resumed htask hresume hcreating with hold | ⟨rfl, hminted⟩
    · exact List.mem_append_left _ (h.owns t' d hold)
    · exact List.mem_append_right _ hminted
  · intro t₁ t₂ d h₁ h₂
    rcases creating_resumed htask hresume h₁ with hold₁ | ⟨rfl, hminted₁⟩
    · rcases creating_resumed htask hresume h₂ with hold₂ | ⟨rfl, hminted₂⟩
      · exact h.alone t₁ t₂ d hold₁ hold₂
      · exact absurd (h.owns t₁ d hold₁) (hfresh d hminted₂)
    · rcases creating_resumed htask hresume h₂ with hold₂ | ⟨rfl, hminted₂⟩
      · exact absurd (h.owns t₂ d hold₂) (hfresh d hminted₁)
      · rfl

end Resume

/-- Replacing a task by one that creates nothing. -/
theorem Owned.setTask (h : Owned s) {t : Nat} {task : Task}
    (hfree : ∀ new specs stage, task = .create new specs stage → stage.unfinished = none) :
    Owned (s.setTask t task) := by
  have hback : ∀ t' d, (s.setTask t task).Creating t' d → s.Creating t' d := by
    intro t' d ⟨new, specs, stage, draft, htask, hstage, hid⟩
    rw [State.setTask_tasks] at htask
    split_ifs at htask
    · rw [hfree new specs stage (Option.some.inj htask)] at hstage
      cases hstage
    · exact ⟨new, specs, stage, draft, htask, hstage, hid⟩
  exact ⟨h.drafts, h.parents, fun t' d hd => h.owns t' d (hback t' d hd),
    fun t₁ t₂ d h₁ h₂ => h.alone t₁ t₂ d (hback t₁ d h₁) (hback t₂ d h₂)⟩

theorem start_unfinished {operation : Args.Operation} {task : Task}
    (h : Task.start operation = some task) {new : NewDraft}
    {specs : Option (List DraftAttachmentSpec)} {stage : CreateStage}
    (htask : task = .create new specs stage) : stage.unfinished = none := by
  subst htask
  cases operation with
  | draftCreate new specs =>
    cases h
    rfl
  | _ => cases h

theorem Owned.step (h : Owned s) {a : Action} (hstep : Step s a s') : Owned s' := by
  cases hstep with
  | arrive _ hstart => exact h.setTask fun _ _ _ htask => start_unfinished hstart htask
  | resume htask hresume hfresh hdb => exact h.resumed htask hresume hfresh hdb
  | cancel => exact h.setTask fun _ _ _ heq => by cases heq

/-- No attachment without its draft. -/
def Db.Linked (db : Db) : Prop := ∀ a ∈ db.attachments, a.draftId ∈ db.drafts.map (·.id)

theorem Owned.init {db : Db} (h : db.Linked) : Owned (State.init db) where
  drafts d hd := by
    obtain ⟨draft, hdraft⟩ := Option.ne_none_iff_exists'.mp hd
    have hid : draft.id = d := by simpa using List.find?_some hdraft
    rw [← hid]
    exact List.mem_map_of_mem (List.mem_of_find?_eq_some hdraft)
  parents d hd := by
    refine List.filter_eq_nil_iff.mpr fun a ha => ?_
    obtain ⟨draft, hdraft, hid⟩ := List.mem_map.mp (h a ha)
    have hne := List.find?_eq_none.mp hd draft hdraft
    rw [hid] at hne
    exact hne
  owns t d := by
    rintro ⟨new, specs, stage, draft, htask, -, -⟩
    cases htask
  alone t t' d := by
    rintro ⟨new, specs, stage, draft, htask, -, -⟩
    cases htask

theorem owned_of_run {db : Db} (hdb : db.Linked) {acts : List Action}
    (hrun : run step (State.init db) acts = some s) : Owned s :=
  invariant step (Owned.init hdb) (fun _ _ _ h hstep => h.step (step_cases hstep)) hrun

/-! ## A draft that is created -/

/-- These files, in this order, are the attachments of the draft. -/
def Attached (files : List PreparedDraftAttachment) (d : Uuid) (db : Db) : Prop :=
  ∃ ids : List (Uuid × Int), ids.length = files.length ∧
    db.rowsOf d = (files.zip ids).map (newAttachment d)

/-- The draft has its fields and these attachments. -/
def Stored (draft : Draft) (files : List PreparedDraftAttachment) (db : Db) : Prop :=
  FromRow draft (db.getDraft draft.id) ∧ Attached files draft.id db

theorem Attached.attach {files : List PreparedDraftAttachment} {d : Uuid} {db db' : Db}
    (h : Attached files d db) {next : PreparedDraftAttachment} {id : Uuid × Int}
    (hdb : db.apply (.insertAttachment (newAttachment d (next, id))) = some db') :
    Attached (files ++ [next]) d db' := by
  obtain ⟨ids, hlength, hrows⟩ := h
  refine ⟨ids ++ [id], by rw [List.length_append, List.length_append, hlength]; rfl, ?_⟩
  rw [rowsOf_apply hdb, List.zip_append hlength.symm, List.map_append, ← hrows]
  exact if_pos rfl

/-- The create has returned its draft. -/
def Task.hasCreated : Task → Bool
  | .create _ _ (.finished (.ok _)) => true
  | _ => false

def State.Created (s : State) (t : Nat) : Prop := (s.tasks t).any Task.hasCreated = true

theorem created_of_task {t : Nat} {new : NewDraft} {specs : Option (List DraftAttachmentSpec)}
    {row : Draft} (h : s.tasks t = some (.create new specs (.finished (.ok row)))) :
    s.Created t := by
  unfold State.Created
  rw [h]
  rfl

theorem task_of_created {t : Nat} (h : s.Created t) :
    ∃ new specs row, s.tasks t = some (.create new specs (.finished (.ok row))) := by
  obtain ⟨task, htask, hcreated⟩ := (Option.any_eq_true _ _).mp h
  cases task with
  | create new specs stage =>
    cases stage with
    | finished result =>
      cases result with
      | ok row => exact ⟨new, specs, row, htask⟩
      | error e => cases hcreated
    | _ => cases hcreated
  | _ => cases hcreated

theorem not_created_of_cancelled {t : Nat} (h : s.tasks t = some .cancelled) : ¬ s.Created t := by
  unfold State.Created
  rw [h]
  exact Bool.false_ne_true

/-- No update stores attachments in `d` while a create has others to insert. -/
def Unmixed (d : Uuid) (s : State) : Action → Prop
  | .resume t outcome => ∀ task task' upd files, s.tasks t = some task →
    task.resume s.db outcome = some (task', .updateDraft upd (some files)) → upd.id = d →
    ∀ t', ¬ s.Attaching t' d
  | _ => True

/-- What may end the creation of `d` by request `t` halfway is recorded in `left`. -/
structure Steady (left : Prop) (t : Nat) (d : Uuid) (s : State) (a : Action) : Prop where
  unmixed : Unmixed d s a
  cancelled : a = .cancel t → s.Creating t d → left
  undone : ∀ e, a = .resume t (.failed e) →
    (∃ new specs draft e', s.tasks t = some (.create new specs (.rollback draft e'))) → left

/-- How the create that has inserted `draft` goes on. `completed` records that it once was
complete, `left` that it was cancelled before or that its deletion failed. -/
inductive Creation (completed left : Prop) (t : Nat) (draft : Draft)
    (files : List PreparedDraftAttachment) (s : State) : Prop where
  | clears {new : NewDraft} {specs : Option (List DraftAttachmentSpec)}
      (htask : s.tasks t = some (.create new specs (.clear draft files)))
      (hrow : FromRow draft (s.db.getDraft draft.id))
  | attaches {new : NewDraft} {specs : Option (List DraftAttachmentSpec)}
      {done rest : List PreparedDraftAttachment} {next : PreparedDraftAttachment}
      (htask : s.tasks t = some (.create new specs (.attach draft next rest)))
      (hfiles : files = done ++ next :: rest)
      (hstored : s.db.getDraft draft.id = none ∨ Stored draft done s.db)
  | undoes {new : NewDraft} {specs : Option (List DraftAttachmentSpec)} {e : RpcError}
      (htask : s.tasks t = some (.create new specs (.rollback draft e)))
  | failed {new : NewDraft} {specs : Option (List DraftAttachmentSpec)} {e : RpcError}
      (htask : s.tasks t = some (.create new specs (.finished (.error e))))
      (hended : s.db.getDraft draft.id = none ∨ left)
  | finished {new : NewDraft} {specs : Option (List DraftAttachmentSpec)} {row : Draft}
      (htask : s.tasks t = some (.create new specs (.finished (.ok row)))) (hcompleted : completed)
  | cancelled (htask : s.tasks t = some .cancelled)
      (hended : s.db.getDraft draft.id = none ∨ completed ∨ left)

section Creation

variable {completed completed' left : Prop} {t : Nat} {draft : Draft}
  {files : List PreparedDraftAttachment}

theorem Creation.task_isSome (h : Creation completed left t draft files s) :
    (s.tasks t).isSome = true := by
  cases h <;> simp [*]

/-- The request itself does not move. -/
theorem Creation.keep (h : Creation completed left t draft files s) (htasks : s'.tasks t = s.tasks t)
    (hcompleted : completed → completed')
    (hrow : FromRow draft (s.db.getDraft draft.id) → FromRow draft (s'.db.getDraft draft.id))
    (hstored : ∀ done, s.Attaching t draft.id → Stored draft done s.db →
      s'.db.getDraft draft.id = none ∨ Stored draft done s'.db)
    (hgone : s.db.getDraft draft.id = none → s'.db.getDraft draft.id = none) :
    Creation completed' left t draft files s' := by
  cases h with
  | clears htask hold => exact .clears (htasks.trans htask) (hrow hold)
  | @attaches new specs done rest next htask hfiles hold =>
    have hattaching : s.Attaching t draft.id := ⟨new, specs, draft, next, rest, htask, rfl⟩
    exact .attaches (htasks.trans htask) hfiles
      (hold.elim (fun hnone => .inl (hgone hnone)) (hstored done hattaching))
  | undoes htask => exact .undoes (htasks.trans htask)
  | failed htask hold => exact .failed (htasks.trans htask) (hold.imp_left hgone)
  | finished htask hold => exact .finished (htasks.trans htask) (hcompleted hold)
  | cancelled htask hold => exact .cancelled (htasks.trans htask) (hold.imp hgone (Or.imp_left hcompleted))

theorem Creation.cancel (h : Creation completed left t draft files s)
    (hcancel : s.Creating t draft.id → left) (hcompleted : completed → completed') :
    Creation completed' left t draft files (s.setTask t .cancelled) := by
  have hleft : s.Creating t draft.id → s.db.getDraft draft.id = none ∨ completed' ∨ left :=
    fun hcreating => .inr (.inr (hcancel hcreating))
  have htask' : (s.setTask t .cancelled).tasks t = some .cancelled := by
    rw [State.setTask_tasks, if_pos rfl]
  cases h with
  | clears htask => exact .cancelled htask' (hleft ⟨_, _, _, draft, htask, rfl, rfl⟩)
  | attaches htask => exact .cancelled htask' (hleft ⟨_, _, _, draft, htask, rfl, rfl⟩)
  | undoes htask => exact .cancelled htask' (hleft ⟨_, _, _, draft, htask, rfl, rfl⟩)
  | failed _ hended => exact .cancelled htask' (hended.imp_right .inr)
  | finished _ hold => exact .cancelled htask' (.inr (.inl (hcompleted hold)))
  | cancelled _ hended => exact .cancelled htask' (hended.imp_right (Or.imp_left hcompleted))

variable {outcome : Outcome} {task task' : Task} {change : Change} {db : Db}

/-- The stage after the last write, whether a file is left or not. -/
theorem creation_next {new : NewDraft} {specs : Option (List DraftAttachmentSpec)}
    {done rest : List PreparedDraftAttachment} (hfiles : files = done ++ rest)
    (htask : s.tasks t = some (.create new specs (.next draft rest)))
    (hstored : Stored draft done s.db) (hnow : s.Created t → Stored draft files s.db → completed) :
    Creation completed left t draft files s := by
  cases rest with
  | nil =>
    rw [List.append_nil] at hfiles
    subst hfiles
    exact .finished htask (hnow (created_of_task htask) hstored)
  | cons next later => exact .attaches htask hfiles (.inr hstored)

/-- The request's own step. -/
theorem Creation.own (h : Creation completed left t draft files s)
    (hundone : ∀ e, outcome = .failed e →
      (∃ new specs draft e', s.tasks t = some (.create new specs (.rollback draft e'))) → left)
    (htask : s.tasks t = some task)
    (hresume : task.resume s.db outcome = some (task', change))
    (hdb : s.db.apply change = some db)
    (hnow : (s.resumed t outcome task task' change db).Created t → Stored draft files db →
      completed') :
    Creation completed' left t draft files (s.resumed t outcome task task' change db) := by
  have htask' : (s.resumed t outcome task task' change db).tasks t = some task' := by
    rw [resumed_tasks, if_pos rfl]
  cases h with
  | clears hstage hrow =>
    rw [hstage] at htask
    cases htask
    cases resume_moves hresume with
    | create hmoves =>
      cases hmoves with
      | clears =>
        refine creation_next (List.nil_append files).symm htask' ⟨?_, [], rfl, ?_⟩ hnow
        · show FromRow draft (db.getDraft draft.id)
          rw [getDraft_apply hdb]
          exact hrow
        · show db.rowsOf draft.id = []
          rw [rowsOf_apply hdb]
          exact if_pos rfl
      | clearFails => exact .undoes htask'
  | @attaches new specs done rest next hstage hfiles hstored =>
    rw [hstage] at htask
    cases htask
    cases resume_moves hresume with
    | create hmoves =>
      cases hmoves with
      | @attaches _ _ _ id =>
        have hparent := (insertAttachment_eq hdb).1
        rcases hstored with hnone | ⟨hrow, hattached⟩
        · have hgone : (s.db.getDraft draft.id).isSome = true := hparent
          rw [hnone] at hgone
          cases hgone
        · have hsplit : files = (done ++ [next]) ++ rest := by
            rw [hfiles, List.append_assoc, List.singleton_append]
          refine creation_next hsplit htask' ⟨?_, hattached.attach hdb⟩ hnow
          show FromRow draft (db.getDraft draft.id)
          rw [getDraft_apply hdb]
          exact hrow
      | unread => exact .undoes htask'
      | attachFails => exact .undoes htask'
  | undoes hstage =>
    rw [hstage] at htask
    cases htask
    cases resume_moves hresume with
    | create hmoves =>
      cases hmoves with
      | deletes => exact .failed htask' (.inl (getDraft_deleteDraft hdb))
      | deletionFails => exact .failed htask' (.inr (hundone _ rfl ⟨_, _, _, _, hstage⟩))
  | failed hstage =>
    rw [hstage] at htask
    cases htask
    cases hresume
  | finished hstage =>
    rw [hstage] at htask
    cases htask
    cases hresume
  | cancelled hstage =>
    rw [hstage] at htask
    cases htask
    cases hresume

theorem Creation.step (h : Creation completed left t draft files s) (howned : Owned s)
    (hminted : draft.id ∈ s.minted) {a : Action} (hsteady : Steady left t draft.id s a)
    (hstep : Step s a s') (hcompleted : completed → completed')
    (hnow : s'.Created t → Stored draft files s'.db → completed') :
    Creation completed' left t draft files s' := by
  cases hstep with
  | @arrive t₁ _ task hfree =>
    have hne : t ≠ t₁ := by
      rintro rfl
      have hsome := h.task_isSome
      rw [hfree] at hsome
      cases hsome
    exact h.keep ((State.setTask_tasks ..).trans (if_neg hne)) hcompleted (fun hrow => hrow)
      (fun _ _ hstored => .inr hstored) (fun hgone => hgone)
  | @cancel t₁ task htask =>
    by_cases heq : t = t₁
    · subst heq
      exact h.cancel (hsteady.cancelled rfl) hcompleted
    · exact h.keep ((State.setTask_tasks ..).trans (if_neg heq)) hcompleted (fun hrow => hrow)
        (fun _ _ hstored => .inr hstored) (fun hgone => hgone)
  | @resume t₁ outcome task task' change db htask hresume hfresh hdb =>
    by_cases heq : t = t₁
    · subst heq
      exact h.own (fun e he => hsteady.undone e (congrArg _ he)) htask hresume hdb hnow
    · have hwrites := resume_writes htask hresume hfresh hdb
      have hrow : ∀ {row : Draft}, FromRow row (s.db.getDraft draft.id) →
          FromRow row (db.getDraft draft.id) := hwrites.row hdb hminted
      refine h.keep ((resumed_tasks t).trans (if_neg heq)) hcompleted hrow ?_ ?_
      · intro done hattaching ⟨hold, ids, hlength, hattached⟩
        have hother : ∀ upd files, change = .updateDraft upd (some files) → upd.id ≠ draft.id := by
          rintro upd new rfl hid
          exact hsteady.unmixed task task' upd new htask hresume hid t hattaching
        rcases hwrites.rows howned hdb heq hattaching.creating hother with hgone | ⟨hrows, -⟩
        · exact .inl hgone
        · exact .inr ⟨hrow hold, ids, hlength, hrows.trans hattached⟩
      · intro hgone
        exact apply_gone hdb hgone fun hmem => hfresh _ hmem hminted

end Creation

/-! ## Runs -/

/-- In this run request `t` inserts the draft it is asked for, with these files to follow. -/
def Inserts (db : Db) (acts : List Action) (t : Nat) (draft : Draft)
    (files : List PreparedDraftAttachment) : Prop :=
  ∃ before stamp after s₁ new specs prepared,
    acts = before ++ .resume t (.minted [(draft.id, stamp)]) :: after ∧
      run step (State.init db) before = some s₁ ∧
      s₁.tasks t = some (.create new specs (.insert prepared)) ∧
      draft = .new draft.id new ∧ files = prepared.getD []

/-- After a first part of the actions request `t` has returned its draft, and it is complete. -/
def CompletedIn (s₀ : State) (acts : List Action) (t : Nat) (draft : Draft)
    (files : List PreparedDraftAttachment) : Prop :=
  ∃ before after s₁, acts = before ++ after ∧ run step s₀ before = some s₁ ∧ s₁.Created t ∧
    Stored draft files s₁.db

theorem CompletedIn.mono {s₀ : State} {acts : List Action} {t : Nat} {draft : Draft}
    {files : List PreparedDraftAttachment} (h : CompletedIn s₀ acts t draft files)
    (a : Action) : CompletedIn s₀ (acts ++ [a]) t draft files := by
  obtain ⟨before, after, s₁, rfl, hrest⟩ := h
  exact ⟨before, after ++ [a], s₁, List.append_assoc _ _ _, hrest⟩

/-- The draft right after its insertion. -/
theorem creation_begins (howned : Owned s) (left : Prop) {t : Nat} {draft : Draft} {stamp : Int}
    {new : NewDraft} {specs : Option (List DraftAttachmentSpec)}
    {prepared : Option (List PreparedDraftAttachment)}
    (htask : s.tasks t = some (.create new specs (.insert prepared)))
    (hdraft : draft = .new draft.id new)
    (hstep : step s (.resume t (.minted [(draft.id, stamp)])) = some s') :
    draft.id ∈ s'.minted ∧
      Creation (CompletedIn s' [] t draft (prepared.getD [])) left t draft (prepared.getD []) s' := by
  cases step_cases hstep with
  | @resume _ _ task task' change db htask' hresume hfresh hdb =>
    rw [htask] at htask'
    cases htask'
    have hown : (s.resumed t (.minted [(draft.id, stamp)]) (.create new specs (.insert prepared))
        task' change db).tasks t = some task' := by
      rw [resumed_tasks, if_pos rfl]
    have hinserted : s.db.apply (.insertDraft draft) = some db → draft.id ∉ s.minted →
        db.getDraft draft.id = some draft ∧ db.rowsOf draft.id = [] := by
      intro hdb hfresh
      have hnone : s.db.getDraft draft.id = none := by
        by_contra hsome
        exact hfresh (howned.drafts draft.id hsome)
      rw [getDraft_apply hdb, rowsOf_apply hdb, hnone]
      exact ⟨if_pos rfl, howned.parents draft.id hnone⟩
    generalize hid : draft.id = d at hresume hown
    cases resume_moves hresume with
    | create hmoves =>
      cases hmoves with
      | insertsAlone =>
        subst hid
        have hchange : s.db.apply (.insertDraft draft) = some db := by rw [hdraft]; exact hdb
        obtain ⟨hrow, hrows⟩ := hinserted hchange (hfresh _ List.mem_cons_self)
        refine ⟨List.mem_append_right _ List.mem_cons_self, .finished hown ?_⟩
        exact ⟨[], [], _, rfl, rfl, created_of_task hown, .inr ⟨[], hrow⟩, [], rfl, hrows⟩
      | @inserts files =>
        subst hid
        have hchange : s.db.apply (.insertDraft draft) = some db := by rw [hdraft]; exact hdb
        obtain ⟨hrow, -⟩ := hinserted hchange (hfresh _ List.mem_cons_self)
        have hclear : some (Task.create new specs (.clear (.new draft.id new) files)) =
            some (Task.create new specs (.clear draft files)) := by rw [← hdraft]
        exact ⟨List.mem_append_right _ List.mem_cons_self,
          .clears (hown.trans hclear) (.inr ⟨[], hrow⟩)⟩

/-- A create that has inserted its draft, at the end of a run. -/
theorem creation_of_run {db : Db} (hdb : db.Linked) {left : Prop} {acts : List Action} {t : Nat}
    {draft : Draft} {files : List PreparedDraftAttachment}
    (hguard : Guarded step (Steady left t draft.id) (State.init db) acts)
    (hrun : run step (State.init db) acts = some s) (hinserts : Inserts db acts t draft files) :
    Creation (CompletedIn (State.init db) acts t draft files) left t draft files s := by
  obtain ⟨before, stamp, after, s₁, new, specs, prepared, rfl, hbefore, htask, hdraft, rfl⟩ :=
    hinserts
  obtain ⟨s₁', hbefore', hrest⟩ := (run_append_iff step).mp hrun
  obtain rfl : s₁ = s₁' := Option.some.inj (hbefore.symm.trans hbefore')
  rw [run_cons] at hrest
  obtain ⟨s₂, hstep, hafter⟩ := Option.bind_eq_some_iff.mp hrest
  obtain ⟨-, hguardRest⟩ := guarded_append step hguard hbefore
  have howned := owned_of_run hdb hbefore
  obtain ⟨hminted, hbegins⟩ := creation_begins howned left htask hdraft hstep
  have hinv := guarded_history step
    (P := fun acts s => Owned s ∧ draft.id ∈ s.minted ∧
      Creation (CompletedIn s₂ acts t draft (prepared.getD [])) left t draft (prepared.getD []) s)
    ⟨howned.step (step_cases hstep), hminted, hbegins⟩ (fun acts s a s' hacts h hok hstep => ?_)
    (hguardRest.2 s₂ hstep) hafter
  · obtain ⟨-, -, hcreation⟩ := hinv
    have hlift : CompletedIn s₂ after t draft (prepared.getD []) →
        CompletedIn (State.init db)
          (before ++ .resume t (.minted [(draft.id, stamp)]) :: after) t draft
          (prepared.getD []) := by
      rintro ⟨front, back, s₃, rfl, hfront, hcompleted⟩
      refine ⟨before ++ .resume t (.minted [(draft.id, stamp)]) :: front, back, s₃, ?_, ?_,
        hcompleted⟩
      · rw [List.append_assoc, List.cons_append]
      · refine (run_append_iff step).mpr ⟨s₁, hbefore, ?_⟩
        rw [run_cons, hstep]
        exact hfront
    exact hcreation.keep rfl hlift (fun hrow => hrow) (fun _ _ hstored => .inr hstored)
      (fun hgone => hgone)
  · obtain ⟨howned, hminted, hcreation⟩ := h
    have hcases := step_cases hstep
    refine ⟨howned.step hcases, ?_, ?_⟩
    · cases hcases with
      | resume => exact List.mem_append_left _ hminted
      | _ => exact hminted
    · refine hcreation.step howned hminted hok hcases (fun h => h.mono a) ?_
      intro hcreated hstored
      refine ⟨acts ++ [a], [], s', (List.append_nil _).symm, ?_, hcreated, hstored⟩
      exact (run_snoc_iff step).mpr ⟨s, hacts, hstep⟩

end Postblox.Daemon.Drafts
