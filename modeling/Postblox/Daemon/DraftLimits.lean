import Postblox.Daemon.DraftCreation
import Postblox.Daemon.DraftFiles

/-!
# How large a draft becomes

An update replaces the attachments in one transaction, a create inserts one after the other.
Each holds its own files against the limit; when an update commits between two insertions of
a create, nothing holds their sum against it.
-/
namespace Postblox.Daemon.Drafts

open Daemon.Args (NewDraft DraftUpdate DraftAttachmentSpec)
open DraftFiles (prepareDraftAttachments maxDraftAttachmentBytes preparedBytes preparedBytes_le)
open Lib.Machine

variable {s s' : State}

/-! ## Conditions on a run -/

/-- The specs whose files a request waits for. -/
def Task.awaitedFiles : Task → Option (Option (List DraftAttachmentSpec))
  | .update _ specs .files | .create _ specs .files => some specs
  | _ => none

def Outcome.filesAnswer :
    Outcome → Option (Except RpcError (Option (List PreparedDraftAttachment)))
  | .files prepared => some (.ok prepared)
  | .failed e => some (.error e)
  | _ => none

/-- What a request gets for its files is what `prepare_draft_attachments` makes of them. -/
def FilesRead (s : State) : Action → Prop
  | .resume t outcome => ∀ task specs, s.tasks t = some task → task.awaitedFiles = some specs →
    ∃ calls, outcome.filesAnswer = some (prepareDraftAttachments calls specs)
  | _ => True

/-- The condition on a step. No create is cancelled between the insertion of its draft and its
last attachment; its deletion of the draft does not fail; and no update stores attachments in a
draft that is still given others. -/
structure Whole (s : State) (a : Action) : Prop where
  uninterrupted : ∀ t d, a = .cancel t → ¬ s.Creating t d
  undone : ∀ t new specs draft e e', a = .resume t (.failed e') →
    s.tasks t ≠ some (.create new specs (.rollback draft e))
  unmixed : ∀ d, Unmixed d s a

/-! ## The size of a draft -/

/-- Files that are read and not yet stored. -/
def Task.prepared : Task → Option (List PreparedDraftAttachment)
  | .update _ _ (.transaction prepared) | .create _ _ (.insert prepared) => prepared
  | .create _ _ (.clear _ files) => some files
  | _ => none

/-- The stored attachments fit, and those that a create is still to insert fit beside them. -/
structure Bounded (s : State) : Prop where
  owned : Owned s
  fits : ∀ t task files, s.tasks t = some task → task.prepared = some files →
    preparedBytes files ≤ maxDraftAttachmentBytes
  leaves : ∀ t new specs draft next rest,
    s.tasks t = some (.create new specs (.attach draft next rest)) →
    s.db.getDraft draft.id = none ∨
      s.db.aggregateSizeForDraft draft.id + preparedBytes (next :: rest) ≤
        maxDraftAttachmentBytes
  bounded : ∀ d, s.db.aggregateSizeForDraft d ≤ maxDraftAttachmentBytes

theorem aggregateSizeForDraft_of_rows {db : Db} {d : Uuid} {rows : List DraftAttachment}
    (h : db.rowsOf d = rows) :
    db.aggregateSizeForDraft d = (rows.map (·.content.length)).sum := by
  unfold Db.aggregateSizeForDraft
  rw [h]

theorem preparedBytes_zip (d : Uuid) (new : List (PreparedDraftAttachment × (Uuid × Int))) :
    ((new.map (newAttachment d)).map (·.content.length)).sum =
      preparedBytes (new.map Prod.fst) := by
  unfold preparedBytes
  rw [List.map_map, List.map_map]
  rfl

section Resume

variable {t : Nat} {outcome : Outcome} {task task' : Task} {change : Change} {db : Db}

theorem Bounded.attach (h : Bounded s) {new : NewDraft}
    {specs : Option (List DraftAttachmentSpec)} {draft : Draft} {next : PreparedDraftAttachment}
    {rest : List PreparedDraftAttachment} {id : Uuid × Int}
    (htask : s.tasks t = some (.create new specs (.attach draft next rest)))
    (hdb : s.db.apply (.insertAttachment (newAttachment draft.id (next, id))) = some db) :
    (((Change.insertAttachment (newAttachment draft.id (next, id))).rows draft.id
      (s.db.rowsOf draft.id)).map (·.content.length)).sum + preparedBytes rest ≤
        maxDraftAttachmentBytes := by
  have hparent : (s.db.getDraft draft.id).isSome = true := (insertAttachment_eq hdb).1
  have hroom := (h.leaves t new specs draft next rest htask).resolve_left
    (Option.isSome_iff_ne_none.mp hparent)
  have hrows : (Change.insertAttachment (newAttachment draft.id (next, id))).rows draft.id
      (s.db.rowsOf draft.id) =
      s.db.rowsOf draft.id ++ [newAttachment draft.id (next, id)] := if_pos rfl
  have hone : ([newAttachment draft.id (next, id)].map (·.content.length)).sum =
      next.content.length := rfl
  have hcons : preparedBytes (next :: rest) = next.content.length + preparedBytes rest := rfl
  rw [hrows, List.map_append, List.sum_append, hone]
  unfold Db.aggregateSizeForDraft at hroom
  omega

/-- What a change stores in a draft fits. -/
theorem Bounded.stores (h : Bounded s) (htask : s.tasks t = some task)
    (hresume : task.resume s.db outcome = some (task', change))
    (hdb : s.db.apply change = some db) (d : Uuid) :
    db.aggregateSizeForDraft d ≤ maxDraftAttachmentBytes := by
  by_cases hd : change.draft = some d
  · rw [aggregateSizeForDraft_of_rows (rowsOf_apply hdb d)]
    have hold := h.bounded d
    unfold Db.aggregateSizeForDraft at hold
    cases resume_moves hresume with
    | send hmoves =>
      cases hmoves with
      | deletes =>
        cases hd
        simp [Change.rows]
      | _ => cases hd
    | update hmoves =>
      cases hmoves with
      | @commits prepared ids draft hdraft hlength =>
        cases prepared with
        | none => exact hold
        | some files =>
          cases hd
          have hzip : (files.zip ids).map Prod.fst = files := List.map_fst_zip hlength.ge
          have hfits := h.fits t _ files htask rfl
          rw [← hzip, ← preparedBytes_zip] at hfits
          simpa [Change.rows] using hfits
      | _ => cases hd
    | create hmoves =>
      cases hmoves with
      | insertsAlone => exact hold
      | inserts => exact hold
      | clears =>
        cases hd
        simp [Change.rows]
      | attaches =>
        cases hd
        exact (Nat.le_add_right _ _).trans (h.attach htask hdb)
      | unread =>
        cases hd
        exact (Nat.le_add_right _ _).trans (h.attach htask hdb)
      | deletes =>
        cases hd
        simp [Change.rows]
      | _ => cases hd
    | delete hchange =>
      rcases hchange with rfl | rfl
      · cases hd
      · cases hd
        simp [Change.rows]
  · rw [aggregateSizeForDraft_of_rows (rowsOf_apply hdb d), Change.rows_frame hd]
    exact h.bounded d

/-- Files are prepared as `prepare_draft_attachments` does, or they were prepared before. -/
theorem Bounded.fits_resumed (h : Bounded s) (hread : FilesRead s (.resume t outcome))
    (htask : s.tasks t = some task) (hresume : task.resume s.db outcome = some (task', change))
    {files : List PreparedDraftAttachment} (hfiles : task'.prepared = some files) :
    preparedBytes files ≤ maxDraftAttachmentBytes := by
  have hanswer : ∀ specs prepared, task.awaitedFiles = some specs → outcome = .files prepared →
      prepared = some files → preparedBytes files ≤ maxDraftAttachmentBytes := by
    rintro specs _ hawaits rfl rfl
    obtain ⟨calls, hcalls⟩ := hread task specs htask hawaits
    exact preparedBytes_le (Option.some.inj hcalls).symm
  cases resume_moves hresume with
  | send => cases hfiles
  | update hmoves =>
    cases hmoves with
    | reads => exact hanswer _ _ rfl rfl hfiles
    | _ => cases hfiles
  | create hmoves =>
    cases hmoves with
    | reads => exact hanswer _ _ rfl rfl hfiles
    | inserts =>
      cases hfiles
      exact h.fits t _ files htask rfl
    | @clears draft rows => cases rows <;> cases hfiles
    | @attaches draft next rest => cases rest <;> cases hfiles
    | _ => cases hfiles
  | delete => cases hfiles

theorem Bounded.leaves_resumed (h : Bounded s)
    (htask : s.tasks t = some task) (hresume : task.resume s.db outcome = some (task', change))
    (hdb : s.db.apply change = some db) {new : NewDraft}
    {specs : Option (List DraftAttachmentSpec)} {draft : Draft} {next : PreparedDraftAttachment}
    {rest : List PreparedDraftAttachment}
    (htask' : task' = .create new specs (.attach draft next rest)) :
    db.getDraft draft.id = none ∨
      db.aggregateSizeForDraft draft.id + preparedBytes (next :: rest) ≤
        maxDraftAttachmentBytes := by
  rw [aggregateSizeForDraft_of_rows (rowsOf_apply hdb draft.id)]
  subst htask'
  generalize hstage : CreateStage.attach draft next rest = stage' at hresume
  cases resume_moves hresume with
  | create hmoves =>
    cases hmoves with
    | @clears draft₀ files =>
      cases files with
      | nil => cases hstage
      | cons next₀ rest₀ =>
        cases hstage
        have hfits := h.fits t _ (next :: rest) htask rfl
        have hnone : (Change.clearAttachments draft.id).rows draft.id
            (s.db.rowsOf draft.id) = [] := if_pos rfl
        rw [hnone, List.map_nil, List.sum_nil]
        omega
    | @attaches draft₀ first files id =>
      cases files with
      | nil => cases hstage
      | cons next₀ rest₀ =>
        cases hstage
        exact .inr (h.attach htask hdb)
    | _ => cases hstage

theorem Bounded.resumed (h : Bounded s) (hread : FilesRead s (.resume t outcome))
    (hok : Whole s (.resume t outcome)) (htask : s.tasks t = some task)
    (hresume : task.resume s.db outcome = some (task', change))
    (hfresh : ∀ id ∈ change.minted, id ∉ s.minted) (hdb : s.db.apply change = some db) :
    Bounded (s.resumed t outcome task task' change db) := by
  refine ⟨h.owned.resumed htask hresume hfresh hdb, ?_, ?_, h.stores htask hresume hdb⟩
  · intro t' task₁ files htask₁ hfiles
    rw [resumed_tasks] at htask₁
    split_ifs at htask₁
    · cases htask₁
      exact h.fits_resumed hread htask hresume hfiles
    · exact h.fits t' task₁ files htask₁ hfiles
  · intro t' new specs draft next rest htask₁
    rw [resumed_tasks] at htask₁
    split_ifs at htask₁ with heq
    · exact h.leaves_resumed htask hresume hdb (Option.some.inj htask₁)
    · have hattaching : s.Attaching t' draft.id :=
        ⟨new, specs, draft, next, rest, htask₁, rfl⟩
      have hother : ∀ upd files, change = .updateDraft upd (some files) → upd.id ≠ draft.id := by
        rintro upd new rfl hid
        exact hok.unmixed _ task task' upd new htask hresume hid t' hattaching
      have hwrites := resume_writes htask hresume hfresh hdb
      rcases hwrites.rows h.owned hdb heq hattaching.creating hother with hgone | ⟨hrows, hstays⟩
      · exact .inl hgone
      · rcases h.leaves t' new specs draft next rest htask₁ with hnone | hroom
        · exact .inl (hstays hnone)
        · refine .inr ?_
          show db.aggregateSizeForDraft draft.id + _ ≤ _
          rw [aggregateSizeForDraft_of_rows hrows]
          exact hroom

end Resume

/-- Replacing a task by one that has prepared and inserted nothing. -/
theorem Bounded.setTask (h : Bounded s) {t : Nat} {task : Task} (hprepared : task.prepared = none)
    (hfree : ∀ new specs stage, task = .create new specs stage → stage.unfinished = none) :
    Bounded (s.setTask t task) := by
  refine ⟨h.owned.setTask hfree, ?_, ?_, h.bounded⟩
  · intro t' task' files htask hfiles
    rw [State.setTask_tasks] at htask
    split_ifs at htask
    · cases htask
      rw [hprepared] at hfiles
      cases hfiles
    · exact h.fits t' task' files htask hfiles
  · intro t' new specs draft next rest htask
    rw [State.setTask_tasks] at htask
    split_ifs at htask
    · cases hfree new specs _ (Option.some.inj htask)
    · exact h.leaves t' new specs draft next rest htask

theorem start_prepared {operation : Args.Operation} {task : Task}
    (h : Task.start operation = some task) : task.prepared = none := by
  cases operation <;> cases h <;> rfl

theorem Bounded.step (h : Bounded s) {a : Action} (hread : FilesRead s a) (hok : Whole s a)
    (hstep : Step s a s') : Bounded s' := by
  cases hstep with
  | arrive _ hstart =>
    exact h.setTask (start_prepared hstart) fun _ _ _ htask => start_unfinished hstart htask
  | resume htask hresume hfresh hdb => exact h.resumed hread hok htask hresume hfresh hdb
  | cancel => exact h.setTask rfl fun _ _ _ heq => by cases heq

/-- No attachment without its draft, and no draft beyond the limit. -/
structure Db.WithinLimit (db : Db) : Prop where
  linked : db.Linked
  bounded : ∀ d, db.aggregateSizeForDraft d ≤ maxDraftAttachmentBytes

theorem Bounded.init {db : Db} (h : db.WithinLimit) : Bounded (State.init db) where
  owned := Owned.init h.linked
  fits t task files htask := by cases htask
  leaves t new specs draft next rest htask := by cases htask
  bounded := h.bounded

theorem bounded_of_run {db : Db} (hdb : db.WithinLimit) {acts : List Action}
    (hread : Guarded step FilesRead (State.init db) acts)
    (hguard : Guarded step Whole (State.init db) acts)
    (hrun : run step (State.init db) acts = some s) : Bounded s :=
  guarded_invariant step (Bounded.init hdb)
    (fun _ _ _ h hok hstep => h.step hok.1 hok.2 (step_cases hstep))
    (guarded_and step hread hguard) hrun

end Postblox.Daemon.Drafts
