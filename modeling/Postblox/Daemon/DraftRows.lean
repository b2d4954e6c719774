import Postblox.Daemon.PartialUpdates

/-!
# One draft in the database

What a change does to the row of one draft and to its attachments, and the transitions of
the requests that write both.
-/
namespace Postblox.Daemon.Drafts

open Daemon.Args (NewDraft DraftUpdate DraftAttachmentSpec)

variable {s s' : State}

/-! ## Rows -/

/-- The attachments of a draft, as they were inserted. -/
def Db.rowsOf (db : Db) (d : Uuid) : List DraftAttachment :=
  db.attachments.filter fun a => a.draftId = d

/-- `aggregate_size_for_draft`. -/
def Db.aggregateSizeForDraft (db : Db) (d : Uuid) : Nat :=
  ((db.rowsOf d).map (·.content.length)).sum

/-- The row of draft `d` after a change. -/
def Change.row (d : Uuid) : Change → Option Draft → Option Draft
  | .deleteDraft id, row => if id = d then none else row
  | .updateDraft upd _, row => if upd.id = d then row.map (·.patch upd) else row
  | .insertDraft draft, row => if draft.id = d then row.or (some draft) else row
  | _, row => row

/-- The attachments of draft `d` after a change. -/
def Change.rows (d : Uuid) : Change → List DraftAttachment → List DraftAttachment
  | .deleteDraft id, rows => if id = d then [] else rows
  | .updateDraft upd (some new), rows =>
    if upd.id = d then new.map (newAttachment d) else rows
  | .clearAttachments id, rows => if id = d then [] else rows
  | .insertAttachment row, rows => if row.draftId = d then rows ++ [row] else rows
  | _, rows => rows

theorem Change.row_frame {change : Change} {d : Uuid} (h : change.draft ≠ some d)
    (row : Option Draft) : change.row d row = row := by
  cases change with
  | deleteDraft id => exact if_neg fun heq => h (congrArg some heq)
  | updateDraft upd new => exact if_neg fun heq => h (congrArg some heq)
  | insertDraft draft => exact if_neg fun heq => h (congrArg some heq)
  | _ => rfl

theorem Change.rows_frame {change : Change} {d : Uuid} (h : change.draft ≠ some d)
    (rows : List DraftAttachment) : change.rows d rows = rows := by
  cases change with
  | deleteDraft id => exact if_neg fun heq => h (congrArg some heq)
  | updateDraft upd new =>
    cases new with
    | none => rfl
    | some new => exact if_neg fun heq => h (congrArg some heq)
  | clearAttachments id => exact if_neg fun heq => h (congrArg some heq)
  | insertAttachment row => exact if_neg fun heq => h (congrArg some heq)
  | _ => rfl

theorem getDraft_updateWhere {db : Db} {upd : DraftUpdate} :
    (Lib.updateWhere (fun x : Draft => x.id = upd.id) (fun x => x.patch upd) db.drafts).find?
      (fun x => x.id = upd.id) = (db.getDraft upd.id).map (·.patch upd) := by
  refine (Lib.find?_updateWhere (fun x => ?_) db.drafts).trans ?_
  · rfl
  · unfold Db.getDraft
    cases hfind : db.drafts.find? (fun x => x.id = upd.id) with
    | none => rfl
    | some draft =>
      have hid : draft.id = upd.id := by simpa using List.find?_some hfind
      simp [hid]

theorem getDraft_apply {db db' : Db} {change : Change} (h : db.apply change = some db')
    (d : Uuid) : db'.getDraft d = change.row d (db.getDraft d) := by
  by_cases hd : change.draft = some d
  · cases change with
    | quiet => cases hd
    | deleteDraft id =>
      cases hd
      rw [getDraft_deleteDraft h]
      exact (if_pos rfl).symm
    | updateDraft upd new =>
      cases hd
      have hdrafts : db'.drafts =
          Lib.updateWhere (fun x : Draft => x.id = upd.id) (fun x => x.patch upd) db.drafts := by
        cases new with
        | none =>
          cases h
          rfl
        | some new => exact (withAttachments_eq h).1
      have hrow : Change.row upd.id (.updateDraft upd new) (db.getDraft upd.id) =
          (db.getDraft upd.id).map (·.patch upd) := if_pos rfl
      rw [hrow, ← getDraft_updateWhere, ← hdrafts]
      rfl
    | insertDraft draft =>
      cases hd
      cases h
      have hrow : Change.row draft.id (.insertDraft draft) (db.getDraft draft.id) =
          (db.getDraft draft.id).or (some draft) := if_pos rfl
      rw [hrow]
      unfold Db.getDraft
      rw [List.find?_append, List.find?_singleton, if_pos (by simp)]
    | clearAttachments id => exact getDraft_congr (withAttachments_eq h).1 d
    | insertAttachment row => exact getDraft_congr (insertAttachment_eq h).2.1 d
  · rw [Change.row_frame hd]
    exact (apply_frame h hd).1

theorem rowsOf_apply {db db' : Db} {change : Change} (h : db.apply change = some db')
    (d : Uuid) : db'.rowsOf d = change.rows d (db.rowsOf d) := by
  by_cases hd : change.draft = some d
  · unfold Db.rowsOf
    cases change with
    | quiet => cases hd
    | deleteDraft id =>
      cases hd
      obtain ⟨-, -, hrows⟩ := withAttachments_eq h
      rw [hrows, filter_ne_eq_nil]
      exact (if_pos rfl).symm
    | updateDraft upd new =>
      cases hd
      cases new with
      | none =>
        cases h
        rfl
      | some new =>
        obtain ⟨-, -, hrows⟩ := withAttachments_eq h
        rw [hrows, List.filter_append, filter_ne_eq_nil, filter_map_newAttachment,
          List.nil_append]
        exact (if_pos rfl).symm
    | insertDraft draft =>
      cases h
      rfl
    | clearAttachments id =>
      cases hd
      obtain ⟨-, -, hrows⟩ := withAttachments_eq h
      rw [hrows, filter_ne_eq_nil]
      exact (if_pos rfl).symm
    | insertAttachment row =>
      cases hd
      obtain ⟨-, -, hrows⟩ := insertAttachment_eq h
      rw [hrows, List.filter_append, List.filter_singleton, decide_eq_true rfl]
      exact (if_pos rfl).symm
  · rw [Change.rows_frame hd]
    exact (apply_frame h hd).2

/-! ## Transitions -/

/-- How an update moves on. -/
inductive UpdateMoves (db : Db) (upd : DraftUpdate) :
    UpdateStage → Outcome → UpdateStage → Change → Prop where
  | reads {prepared : Option (List PreparedDraftAttachment)} :
      UpdateMoves db upd .files (.files prepared) (.transaction prepared) .quiet
  | unknown {prepared : Option (List PreparedDraftAttachment)} {ids : List (Uuid × Int)} :
      UpdateMoves db upd (.transaction prepared) (.minted ids) (.finished (.ok none)) .quiet
  | commits {prepared : Option (List PreparedDraftAttachment)} {ids : List (Uuid × Int)}
      {draft : Draft} (hdraft : db.getDraft upd.id = some draft)
      (hlength : ids.length = (prepared.getD []).length) :
      UpdateMoves db upd (.transaction prepared) (.minted ids)
        (.finished (.ok (some (draft.patch upd))))
        (.updateDraft upd (prepared.map fun new => new.zip ids))
  | fails {stage : UpdateStage} {e : RpcError} :
      UpdateMoves db upd stage (.failed e) (.finished (.error e)) .quiet

theorem resumeUpdate_moves {db : Db} {upd : DraftUpdate}
    {specs : Option (List DraftAttachmentSpec)} {stage stage' : UpdateStage} {outcome : Outcome}
    {change : Change} (h : resumeUpdate db upd specs stage outcome = some (stage', change)) :
    UpdateMoves db upd stage outcome stage' change := by
  cases stage with
  | files =>
    cases outcome with
    | files prepared =>
      simp only [resumeUpdate] at h
      split_ifs at h
      cases h
      exact .reads
    | failed e =>
      cases h
      exact .fails
    | _ => cases h
  | transaction prepared =>
    cases outcome with
    | minted ids =>
      simp only [resumeUpdate] at h
      split at h
      · cases h
        exact .unknown
      · next draft hdraft =>
        split_ifs at h with hlength
        cases h
        exact .commits hdraft hlength
    | failed e =>
      cases h
      exact .fails
    | _ => cases h
  | finished result => cases h

/-- How a create moves on. -/
inductive CreateMoves (new : NewDraft) :
    CreateStage → Outcome → CreateStage → Change → Prop where
  | reads {prepared : Option (List PreparedDraftAttachment)} :
      CreateMoves new .files (.files prepared) (.insert prepared) .quiet
  | unreadable {e : RpcError} :
      CreateMoves new .files (.failed e) (.finished (.error e)) .quiet
  | refused {prepared : Option (List PreparedDraftAttachment)} {e : RpcError} :
      CreateMoves new (.insert prepared) (.failed e) (.finished (.error e)) .quiet
  | insertsAlone {id : Uuid} {stamp : Int} :
      CreateMoves new (.insert none) (.minted [(id, stamp)]) (.finished (.ok (.new id new)))
        (.insertDraft (.new id new))
  | inserts {files : List PreparedDraftAttachment} {id : Uuid} {stamp : Int} :
      CreateMoves new (.insert (some files)) (.minted [(id, stamp)]) (.clear (.new id new) files)
        (.insertDraft (.new id new))
  | clears {draft : Draft} {files : List PreparedDraftAttachment} :
      CreateMoves new (.clear draft files) .done (.next draft files) (.clearAttachments draft.id)
  | attaches {draft : Draft} {next : PreparedDraftAttachment}
      {rest : List PreparedDraftAttachment} {id : Uuid × Int} :
      CreateMoves new (.attach draft next rest) (.minted [id]) (.next draft rest)
        (.insertAttachment (newAttachment draft.id (next, id)))
  | unread {draft : Draft} {next : PreparedDraftAttachment}
      {rest : List PreparedDraftAttachment} {id : Uuid × Int} {e : RpcError} :
      CreateMoves new (.attach draft next rest) (.unread id e) (.rollback draft e)
        (.insertAttachment (newAttachment draft.id (next, id)))
  | clearFails {draft : Draft} {files : List PreparedDraftAttachment} {e : RpcError} :
      CreateMoves new (.clear draft files) (.failed e) (.rollback draft e) .quiet
  | attachFails {draft : Draft} {next : PreparedDraftAttachment}
      {rest : List PreparedDraftAttachment} {e : RpcError} :
      CreateMoves new (.attach draft next rest) (.failed e) (.rollback draft e) .quiet
  | deletes {draft : Draft} {e : RpcError} :
      CreateMoves new (.rollback draft e) .done (.finished (.error e)) (.deleteDraft draft.id)
  | deletionFails {draft : Draft} {e e' : RpcError} :
      CreateMoves new (.rollback draft e) (.failed e') (.finished (.error e)) .quiet

theorem resumeCreate_moves {new : NewDraft} {specs : Option (List DraftAttachmentSpec)}
    {stage stage' : CreateStage} {outcome : Outcome} {change : Change}
    (h : resumeCreate new specs stage outcome = some (stage', change)) :
    CreateMoves new stage outcome stage' change := by
  cases stage with
  | files =>
    cases outcome with
    | files prepared =>
      simp only [resumeCreate] at h
      split_ifs at h
      cases h
      exact .reads
    | failed e =>
      cases h
      exact .unreadable
    | _ => cases h
  | insert prepared =>
    cases outcome with
    | minted ids =>
      rcases ids with _ | ⟨⟨id, stamp⟩, _ | ⟨second, ids⟩⟩
      · cases h
      · cases prepared with
        | none =>
          cases h
          exact .insertsAlone
        | some files =>
          cases h
          exact .inserts
      · cases h
    | failed e =>
      cases h
      exact .refused
    | _ => cases h
  | clear draft files =>
    cases outcome with
    | done =>
      cases h
      exact .clears
    | failed e =>
      cases h
      exact .clearFails
    | _ => cases h
  | attach draft next rest =>
    cases outcome with
    | minted ids =>
      rcases ids with _ | ⟨id, _ | ⟨second, ids⟩⟩
      · cases h
      · cases h
        exact .attaches
      · cases h
    | unread id e =>
      cases h
      exact .unread
    | failed e =>
      cases h
      exact .attachFails
    | _ => cases h
  | rollback draft e =>
    cases outcome with
    | done =>
      cases h
      exact .deletes
    | failed e' =>
      cases h
      exact .deletionFails
    | _ => cases h
  | finished result => cases h

/-- How any request moves on. -/
inductive TaskMoves (db : Db) : Task → Outcome → Task → Change → Prop where
  | send {accountId d : Uuid} {stage stage' : SendStage} {outcome : Outcome} {change : Change}
      (h : Moves db accountId d stage outcome stage' change) :
      TaskMoves db (.send accountId d stage) outcome (.send accountId d stage') change
  | update {upd : DraftUpdate} {specs : Option (List DraftAttachmentSpec)}
      {stage stage' : UpdateStage} {outcome : Outcome} {change : Change}
      (h : UpdateMoves db upd stage outcome stage' change) :
      TaskMoves db (.update upd specs stage) outcome (.update upd specs stage') change
  | create {new : NewDraft} {specs : Option (List DraftAttachmentSpec)}
      {stage stage' : CreateStage} {outcome : Outcome} {change : Change}
      (h : CreateMoves new stage outcome stage' change) :
      TaskMoves db (.create new specs stage) outcome (.create new specs stage') change
  | delete {id : Uuid} {outcome : Outcome} {result : Except RpcError Bool} {change : Change}
      (h : change = .quiet ∨ change = .deleteDraft id) :
      TaskMoves db (.delete id none) outcome (.delete id (some result)) change

theorem resume_moves {db : Db} {task task' : Task} {outcome : Outcome} {change : Change}
    (h : task.resume db outcome = some (task', change)) :
    TaskMoves db task outcome task' change := by
  cases task with
  | send accountId d stage =>
    obtain ⟨⟨stage', change'⟩, hresume, heq⟩ := Option.map_eq_some_iff.mp h
    cases heq
    exact .send (resumeSend_moves hresume)
  | update upd specs stage =>
    obtain ⟨⟨stage', change'⟩, hresume, heq⟩ := Option.map_eq_some_iff.mp h
    cases heq
    exact .update (resumeUpdate_moves hresume)
  | create new specs stage =>
    obtain ⟨⟨stage', change'⟩, hresume, heq⟩ := Option.map_eq_some_iff.mp h
    cases heq
    exact .create (resumeCreate_moves hresume)
  | delete id result =>
    cases result with
    | none =>
      obtain ⟨⟨result', change'⟩, hresume, heq⟩ := Option.map_eq_some_iff.mp h
      cases heq
      cases outcome with
      | done =>
        cases hresume
        exact .delete (.inr rfl)
      | failed e =>
        cases hresume
        exact .delete (.inl rfl)
      | _ => cases hresume
    | some r => cases h
  | cancelled => cases h

end Postblox.Daemon.Drafts
