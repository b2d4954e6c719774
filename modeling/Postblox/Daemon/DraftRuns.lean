import Postblox.Daemon.Drafts

/-!
# What one step does to a draft

The transitions with their guards, the draft a change writes, and what a send task
may have become. Every invariant about drafts is proved from these.
-/
namespace Postblox.Daemon.Drafts

open Daemon.Args (NewDraft DraftUpdate DraftAttachmentSpec Operation)
open Lib.Machine

variable {s s' : State}

/-! ## Transitions -/

/-- What a resumed task leaves behind. -/
def State.resumed (s : State) (t : Nat) (outcome : Outcome) (task task' : Task) (change : Change)
    (db : Db) : State :=
  { s with
    db := db
    submissions := s.submissions ++ submitted t task outcome
    minted := s.minted ++ change.minted }.setTask t task'

inductive Step (s : State) : Action → State → Prop where
  | arrive {t : Nat} {operation : Operation} {task : Task} (hfree : s.tasks t = none)
      (hstart : Task.start operation = some task) :
      Step s (.arrive t operation) (s.setTask t task)
  | resume {t : Nat} {outcome : Outcome} {task task' : Task} {change : Change} {db : Db}
      (htask : s.tasks t = some task) (hresume : task.resume s.db outcome = some (task', change))
      (hfresh : ∀ id ∈ change.minted, id ∉ s.minted) (hdb : s.db.apply change = some db) :
      Step s (.resume t outcome) (s.resumed t outcome task task' change db)
  | cancel {t : Nat} {task : Task} (htask : s.tasks t = some task) :
      Step s (.cancel t) (s.setTask t .cancelled)

theorem step_cases {a : Action} (h : step s a = some s') : Step s a s' := by
  cases a with
  | arrive t operation =>
    simp only [step] at h
    split_ifs at h with hfree
    simp only [Option.bind_eq_bind, Option.bind_eq_some_iff] at h
    obtain ⟨task, hstart, h⟩ := h
    cases h
    exact .arrive (by simpa using hfree) hstart
  | resume t outcome =>
    simp only [step, Option.bind_eq_bind, Option.bind_eq_some_iff] at h
    obtain ⟨task, htask, ⟨task', change⟩, hresume, h⟩ := h
    split_ifs at h with hfresh
    simp only [Option.bind_eq_some_iff] at h
    obtain ⟨db, hdb, h⟩ := h
    cases h
    refine .resume htask hresume (fun id hid hmem => hfresh ?_) hdb
    exact List.any_eq_true.mpr ⟨id, hid, List.contains_iff_mem.mpr hmem⟩
  | cancel t =>
    simp only [step, Option.bind_eq_bind, Option.bind_eq_some_iff] at h
    obtain ⟨task, htask, h⟩ := h
    cases h
    exact .cancel htask

/-! ## Frames -/

/-- The draft whose rows a change writes. -/
def Change.draft : Change → Option Uuid
  | .quiet => none
  | .deleteDraft id => some id
  | .updateDraft upd _ => some upd.id
  | .insertDraft draft => some draft.id
  | .clearAttachments draftId => some draftId
  | .insertAttachment row => some row.draftId

theorem withAttachments_eq {db db' : Db} {rows : List DraftAttachment}
    (h : db.withAttachments rows = some db') :
    db'.drafts = db.drafts ∧ db'.accounts = db.accounts ∧ db'.attachments = rows := by
  unfold Db.withAttachments at h
  split_ifs at h
  cases h
  exact ⟨rfl, rfl, rfl⟩

theorem insertAttachment_eq {db db' : Db} {row : DraftAttachment}
    (h : db.apply (.insertAttachment row) = some db') :
    (db.getDraft row.draftId).isSome ∧ db'.drafts = db.drafts ∧
      db'.attachments = db.attachments ++ [row] := by
  simp only [Db.apply] at h
  split_ifs at h with hparent
  obtain ⟨hdrafts, -, hrows⟩ := withAttachments_eq h
  exact ⟨hparent, hdrafts, hrows⟩

theorem getDraft_congr {db db' : Db} (h : db'.drafts = db.drafts) (d : Uuid) :
    db'.getDraft d = db.getDraft d := by
  unfold Db.getDraft
  rw [h]

theorem find?_filter_ne (drafts : List Draft) {id d : Uuid} (h : d ≠ id) :
    (drafts.filter fun x => x.id ≠ id).find? (fun x => x.id = d) =
      drafts.find? (fun x => x.id = d) := by
  have hsame : (fun x : Draft => decide (x.id ≠ id) && decide (x.id = d)) =
      fun x => decide (x.id = d) := by
    funext x
    by_cases hx : x.id = d
    · simp [hx, h]
    · simp [hx]
  rw [List.find?_filter]
  simpa using congrArg drafts.find? hsame

/-- A change writes the rows of its own draft only. -/
theorem apply_frame {db db' : Db} {change : Change} (h : db.apply change = some db') {d : Uuid}
    (hd : change.draft ≠ some d) :
    db'.getDraft d = db.getDraft d ∧
      db'.attachments.filter (fun a => a.draftId = d) =
        db.attachments.filter (fun a => a.draftId = d) := by
  have hkeep : ∀ id, id ≠ d → (db.attachments.filter fun a => a.draftId ≠ id).filter
      (fun a => a.draftId = d) = db.attachments.filter (fun a => a.draftId = d) := by
    intro id hid
    rw [List.filter_filter]
    refine List.filter_congr fun a _ => ?_
    by_cases ha : a.draftId = d
    · simp [ha, Ne.symm hid]
    · simp [ha]
  have hother : ∀ rows : List DraftAttachment, (∀ a ∈ rows, a.draftId ≠ d) →
      rows.filter (fun a => a.draftId = d) = [] := by
    intro rows hrows
    refine List.filter_eq_nil_iff.mpr fun a ha => ?_
    simpa using hrows a ha
  cases change with
  | quiet =>
    cases h
    exact ⟨rfl, rfl⟩
  | deleteDraft id =>
    have hid : id ≠ d := fun heq => hd (congrArg some heq)
    obtain ⟨hdrafts, -, hrows⟩ := withAttachments_eq h
    refine ⟨?_, ?_⟩
    · unfold Db.getDraft
      rw [hdrafts]
      exact find?_filter_ne db.drafts (Ne.symm hid)
    · rw [hrows]
      exact hkeep id hid
  | updateDraft upd attachments =>
    have hid : upd.id ≠ d := fun heq => hd (congrArg some heq)
    have hrow : (Lib.updateWhere (fun x : Draft => x.id = upd.id) (fun x => x.patch upd)
        db.drafts).find? (fun x => x.id = d) = db.drafts.find? (fun x => x.id = d) := by
      refine (Lib.find?_updateWhere (fun x => ?_) db.drafts).trans ?_
      · rfl
      cases hfind : db.drafts.find? (fun x => x.id = d) with
      | none => rfl
      | some draft =>
        have hdraft : draft.id = d := by simpa using List.find?_some hfind
        have hne : draft.id ≠ upd.id := fun heq => hid (heq.symm.trans hdraft)
        simp [hne]
    cases attachments with
    | none =>
      cases h
      exact ⟨hrow, rfl⟩
    | some new =>
      obtain ⟨hdrafts, -, hrows⟩ := withAttachments_eq h
      refine ⟨?_, ?_⟩
      · unfold Db.getDraft
        rw [hdrafts]
        exact hrow
      · have hnew : ∀ a ∈ new.map (newAttachment upd.id), a.draftId ≠ d := by
          intro a ha
          obtain ⟨x, -, rfl⟩ := List.mem_map.mp ha
          exact hid
        rw [hrows, List.filter_append, hkeep upd.id hid, hother _ hnew, List.append_nil]
  | insertDraft draft =>
    have hid : draft.id ≠ d := fun heq => hd (congrArg some heq)
    cases h
    refine ⟨?_, rfl⟩
    unfold Db.getDraft
    rw [List.find?_append, List.find?_singleton, if_neg (by simpa using hid), Option.or_none]
  | clearAttachments draftId =>
    have hid : draftId ≠ d := fun heq => hd (congrArg some heq)
    obtain ⟨hdrafts, -, hrows⟩ := withAttachments_eq h
    refine ⟨getDraft_congr hdrafts d, ?_⟩
    rw [hrows]
    exact hkeep draftId hid
  | insertAttachment row =>
    have hid : row.draftId ≠ d := fun heq => hd (congrArg some heq)
    obtain ⟨-, hdrafts, hrows⟩ := insertAttachment_eq h
    refine ⟨getDraft_congr hdrafts d, ?_⟩
    rw [hrows, List.filter_append, hother [row] (fun a ha => ?_), List.append_nil]
    rw [List.mem_singleton.mp ha]
    exact hid

/-- A draft that is gone stays gone unless its id is inserted. -/
theorem apply_gone {db db' : Db} {change : Change} (h : db.apply change = some db') {d : Uuid}
    (hgone : db.getDraft d = none) (hd : d ∉ change.minted) : db'.getDraft d = none := by
  by_cases hdraft : change.draft = some d
  · cases change with
    | quiet => cases hdraft
    | deleteDraft id =>
      obtain ⟨hdrafts, -, -⟩ := withAttachments_eq h
      unfold Db.getDraft at hgone ⊢
      rw [hdrafts, List.find?_eq_none]
      intro x hx
      exact List.find?_eq_none.mp hgone x (List.mem_of_mem_filter hx)
    | updateDraft upd attachments =>
      have hrow : (Lib.updateWhere (fun x : Draft => x.id = upd.id) (fun x => x.patch upd)
          db.drafts).find? (fun x => x.id = d) = none := by
        refine (Lib.find?_updateWhere (fun x => ?_) db.drafts).trans ?_
        · rfl
        · unfold Db.getDraft at hgone
          rw [hgone]
          rfl
      cases attachments with
      | none =>
        cases h
        exact hrow
      | some new =>
        obtain ⟨hdrafts, -, -⟩ := withAttachments_eq h
        unfold Db.getDraft
        rw [hdrafts]
        exact hrow
    | insertDraft draft =>
      obtain rfl : draft.id = d := Option.some.inj hdraft
      exact absurd List.mem_cons_self hd
    | clearAttachments draftId =>
      rw [getDraft_congr (withAttachments_eq h).1]
      exact hgone
    | insertAttachment row =>
      rw [getDraft_congr (insertAttachment_eq h).2.1]
      exact hgone
  · rw [(apply_frame h hdraft).1]
    exact hgone

theorem getDraft_deleteDraft {db db' : Db} {d : Uuid} (h : db.apply (.deleteDraft d) = some db') :
    db'.getDraft d = none := by
  obtain ⟨hdrafts, -, -⟩ := withAttachments_eq h
  unfold Db.getDraft
  rw [hdrafts, List.find?_eq_none]
  intro x hx
  simpa using (List.mem_filter.mp hx).2

/-! ## Send tasks -/

/-- The draft is read and its copy is still in use. -/
def SendStage.holds : SendStage → Bool
  | .credential _ | .attachments _ _ _ | .content _ _ _ _ _ _ | .smtp _ | .accepted _ => true
  | _ => false

def State.Holding (s : State) (t : Nat) (d : Uuid) : Prop :=
  ∃ a stage, s.tasks t = some (.send a d stage) ∧ stage.holds = true

/-- The server has accepted what task `t` sent, and the draft is not deleted yet. -/
def State.Accepted (s : State) (t : Nat) (d : Uuid) : Prop :=
  ∃ a request, s.tasks t = some (.send a d (.accepted request))

theorem State.Accepted.holding {t : Nat} {d : Uuid} (h : s.Accepted t d) : s.Holding t d := by
  obtain ⟨a, request, htask⟩ := h
  exact ⟨a, _, htask, rfl⟩

theorem next_holds (p : Prepared) (credential : Imap.MailCredential) (messageId : String)
    (loaded : List MimeAttachment) (rows : List AttachmentRow) :
    (SendStage.next p credential messageId loaded rows).holds = true ∧
      ∀ request, SendStage.next p credential messageId loaded rows ≠ .accepted request := by
  cases rows with
  | nil => exact ⟨rfl, fun _ h => nomatch h⟩
  | cons row rows => exact ⟨rfl, fun _ h => nomatch h⟩

/-- How a send task moves on, with the rows it saw. -/
inductive Moves (db : Db) (a d : Uuid) :
    SendStage → Outcome → SendStage → Change → Prop where
  | noAccount : Moves db a d .account .done
      (.finished (.error (.badArgs "unknown account_id"))) .quiet
  | readsAccount {account : Account} (haccount : db.getAccount a = some account) :
      Moves db a d .account .done (.draft account) .quiet
  | noDraft {account : Account} : Moves db a d (.draft account) .done
      (.finished (.error (.badArgs "unknown draft_id"))) .quiet
  | unfit {account : Account} {e : RpcError} :
      Moves db a d (.draft account) .done (.finished (.error e)) .quiet
  | readsDraft {account : Account} {draft : Draft} {p : Prepared}
      (hdraft : db.getDraft d = some draft) (hprepare : prepare a account draft = .ok p) :
      Moves db a d (.draft account) .done (.credential p) .quiet
  | credential {p : Prepared} {c : Imap.MailCredential} {m : String} :
      Moves db a d (.credential p) (.credential c m) (.attachments p c m) .quiet
  | lists {p : Prepared} {c : Imap.MailCredential} {m : String} :
      Moves db a d (.attachments p c m) .done
        (.next p c m [] ((db.listForDraft d).map (·.row))) .quiet
  | vanished {p : Prepared} {c : Imap.MailCredential} {m : String} {loaded : List MimeAttachment}
      {row : AttachmentRow} {rows : List AttachmentRow} {e : RpcError} :
      Moves db a d (.content p c m loaded row rows) .done (.finished (.error e)) .quiet
  | loads {p : Prepared} {c : Imap.MailCredential} {m : String} {loaded : List MimeAttachment}
      {row : AttachmentRow} {rows : List AttachmentRow} {data : List UInt8}
      (hdata : db.loadContent row.id = some data) :
      Moves db a d (.content p c m loaded row rows) .done
        (.next p c m (loaded ++ [row.mime data]) rows) .quiet
  | accepts {r : SmtpSubmitRequest} : Moves db a d (.smtp r) .done (.accepted r) .quiet
  | rejects {r : SmtpSubmitRequest} {e : SmtpError} :
      Moves db a d (.smtp r) (.rejected e) (.finished (.error (mapSmtpError e))) .quiet
  | deletes {r : SmtpSubmitRequest} :
      Moves db a d (.accepted r) .done (.finished (.ok r.mime.messageId)) (.deleteDraft d)
  | deletionFails {r : SmtpSubmitRequest} {e : RpcError} :
      Moves db a d (.accepted r) (.failed e) (.finished (.ok r.mime.messageId)) .quiet
  | fails {stage : SendStage} {e : RpcError} (hsmtp : ∀ r, stage ≠ .smtp r)
      (haccepted : ∀ r, stage ≠ .accepted r) :
      Moves db a d stage (.failed e) (.finished (.error e)) .quiet

theorem resumeSend_moves {db : Db} {a d : Uuid} {stage stage' : SendStage} {outcome : Outcome}
    {change : Change} (h : resumeSend db a d stage outcome = some (stage', change)) :
    Moves db a d stage outcome stage' change := by
  cases stage with
  | account =>
    cases outcome with
    | done =>
      simp only [resumeSend] at h
      split at h
      · cases h
        exact .noAccount
      · next account haccount =>
        cases h
        exact .readsAccount haccount
    | failed e =>
      cases h
      exact .fails (fun _ h => nomatch h) (fun _ h => nomatch h)
    | _ => cases h
  | draft account =>
    cases outcome with
    | done =>
      simp only [resumeSend] at h
      split at h
      · cases h
        exact .noDraft
      · next draft hdraft =>
        split at h
        · cases h
          exact .unfit
        · next p hprepare =>
          cases h
          exact .readsDraft hdraft hprepare
    | failed e =>
      cases h
      exact .fails (fun _ h => nomatch h) (fun _ h => nomatch h)
    | _ => cases h
  | credential p =>
    cases outcome with
    | credential c m =>
      cases h
      exact .credential
    | failed e =>
      cases h
      exact .fails (fun _ h => nomatch h) (fun _ h => nomatch h)
    | _ => cases h
  | attachments p c m =>
    cases outcome with
    | done =>
      cases h
      exact .lists
    | failed e =>
      cases h
      exact .fails (fun _ h => nomatch h) (fun _ h => nomatch h)
    | _ => cases h
  | content p c m loaded row rows =>
    cases outcome with
    | done =>
      simp only [resumeSend] at h
      split at h
      · cases h
        exact .vanished
      · next data hdata =>
        cases h
        exact .loads hdata
    | failed e =>
      cases h
      exact .fails (fun _ h => nomatch h) (fun _ h => nomatch h)
    | _ => cases h
  | smtp r =>
    cases outcome with
    | done =>
      cases h
      exact .accepts
    | rejected e =>
      cases h
      exact .rejects
    | _ => cases h
  | accepted r =>
    cases outcome with
    | done =>
      cases h
      exact .deletes
    | failed e =>
      cases h
      exact .deletionFails
    | _ => cases h
  | finished result => cases h

/-- A copy in use after a move was in use before, or has just been read. -/
theorem Moves.holds_before {db : Db} {a d : Uuid} {stage stage' : SendStage} {outcome : Outcome}
    {change : Change} (h : Moves db a d stage outcome stage' change)
    (hstage' : stage'.holds = true) :
    stage.holds = true ∨ (∃ account, stage = .draft account) ∧ ∃ draft, db.getDraft d = some draft := by
  cases h with
  | readsDraft hdraft _ => exact .inr ⟨⟨_, rfl⟩, _, hdraft⟩
  | credential => exact .inl rfl
  | lists => exact .inl rfl
  | loads _ => exact .inl rfl
  | accepts => exact .inl rfl
  | _ => cases hstage'

/-- The task as it was, when the task it became is a send. -/
theorem resume_send {db : Db} {task : Task} {outcome : Outcome} {a d : Uuid} {stage' : SendStage}
    {change : Change} (h : task.resume db outcome = some (.send a d stage', change)) :
    ∃ stage, task = .send a d stage ∧ Moves db a d stage outcome stage' change := by
  cases task with
  | send a₀ d₀ stage =>
    obtain ⟨⟨stage₁, change₁⟩, hresume, heq⟩ := Option.map_eq_some_iff.mp h
    cases heq
    exact ⟨stage, rfl, resumeSend_moves hresume⟩
  | update upd specs stage =>
    obtain ⟨x, -, heq⟩ := Option.map_eq_some_iff.mp h
    cases heq
  | create new specs stage =>
    obtain ⟨x, -, heq⟩ := Option.map_eq_some_iff.mp h
    cases heq
  | delete id result =>
    cases result with
    | none =>
      obtain ⟨x, -, heq⟩ := Option.map_eq_some_iff.mp h
      cases heq
    | some r => cases h
  | cancelled => cases h

end Postblox.Daemon.Drafts
