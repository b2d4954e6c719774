import Postblox.Daemon.SendOnce

/-!
# Which version of a draft is sent

A send reads the row, the list of attachments and each content in statements of their
own and deletes by id at the end. As long as no other request writes the draft's rows in
between, it sends what is stored at one moment and deletes what it has sent.
-/
namespace Postblox.Daemon.Drafts

open Daemon.Args (DraftUpdate)
open Lib.Machine

variable {s s' : State}

/-! ## Versions -/

/-- A draft as it is stored at one moment. -/
structure Version where
  draft : Draft
  attachments : List DraftAttachment

def Db.version (db : Db) (d : Uuid) : Option Version :=
  (db.getDraft d).map fun draft => ⟨draft, db.listForDraft d⟩

def DraftAttachment.mime (a : DraftAttachment) : MimeAttachment := a.row.mime a.content

/-- What a send of this version hands over. -/
def Version.request (v : Version) (accountId : Uuid) (account : Account)
    (credential : Imap.MailCredential) (messageId : String) : Except RpcError SmtpSubmitRequest :=
  (prepare accountId account v.draft).map fun p =>
    p.request credential messageId (v.attachments.map (·.mime))

/-- The whole message comes from this version of the draft. -/
def Version.Rendered (v : Version) (request : SmtpSubmitRequest) : Prop :=
  ∃ accountId account credential messageId,
    v.request accountId account credential messageId = .ok request

/-- The stored version of `d` renders to this request. -/
def Db.Renders (db : Db) (d : Uuid) (request : SmtpSubmitRequest) : Prop :=
  ∃ v, db.version d = some v ∧ v.Rendered request

/-- No statement writes the rows of a draft while another request has it read. -/
def Undisturbed (s : State) : Action → Prop
  | .resume t outcome => ∀ task task' change d, s.tasks t = some task →
    task.resume s.db outcome = some (task', change) → change.draft = some d →
    ∀ t', s.Holding t' d → t' = t
  | _ => True

/-- Nothing but sends writes the rows of `d`. -/
def OnlySends (d : Uuid) (s : State) : Action → Prop
  | .resume t outcome => ∀ task task' change, s.tasks t = some task →
    task.resume s.db outcome = some (task', change) → change.draft = some d →
    ∃ a stage, task = .send a d stage
  | _ => True

/-! ## Copies in use -/

/-- The copy a send works on is what is stored. -/
def StageOk (db : Db) (a d : Uuid) : SendStage → Prop
  | .credential p | .attachments p _ _ =>
    ∃ account draft, db.getDraft d = some draft ∧ prepare a account draft = .ok p
  | .content p _ _ loaded row rows =>
    ∃ account draft read unread, db.getDraft d = some draft ∧ prepare a account draft = .ok p ∧
      db.listForDraft d = read ++ unread ∧ loaded = read.map (·.mime) ∧
      row :: rows = unread.map (·.row)
  | .smtp request | .accepted request => db.Renders d request
  | _ => True

theorem version_frame {db db' : Db} {d : Uuid} (hrow : db'.getDraft d = db.getDraft d)
    (hlist : db'.listForDraft d = db.listForDraft d) : db'.version d = db.version d := by
  unfold Db.version
  rw [hrow, hlist]

theorem StageOk.of_frame {db db' : Db} {a d : Uuid} {stage : SendStage}
    (hrow : db'.getDraft d = db.getDraft d) (hlist : db'.listForDraft d = db.listForDraft d)
    (h : StageOk db a d stage) : StageOk db' a d stage := by
  have hversion := version_frame hrow hlist
  cases stage with
  | credential p =>
    unfold StageOk at h ⊢
    rw [hrow]
    exact h
  | attachments p c m =>
    unfold StageOk at h ⊢
    rw [hrow]
    exact h
  | content p c m loaded row rows =>
    unfold StageOk at h ⊢
    rw [hrow, hlist]
    exact h
  | smtp r =>
    unfold StageOk Db.Renders at h ⊢
    rw [hversion]
    exact h
  | accepted r =>
    unfold StageOk Db.Renders at h ⊢
    rw [hversion]
    exact h
  | _ => trivial

theorem listForDraft_frame {db db' : Db} {d : Uuid}
    (h : db'.attachments.filter (fun a => a.draftId = d) =
      db.attachments.filter (fun a => a.draftId = d)) :
    db'.listForDraft d = db.listForDraft d := by
  unfold Db.listForDraft
  rw [h]

/-- The primary key: the content found for an id is that of its row. -/
theorem loadContent_of_mem {db : Db} {d : Uuid} {a : DraftAttachment} (h : a ∈ db.listForDraft d) :
    db.loadContent a.id = some a.content := by
  have hmem : a ∈ db.attachments :=
    List.mem_of_mem_filter ((Lib.sortByKey_perm _ _).mem_iff.mp h)
  obtain ⟨b, hb⟩ : ∃ b, db.attachments.find? (fun x => x.id = a.id) = some b := by
    cases hfind : db.attachments.find? (fun x => x.id = a.id) with
    | some b => exact ⟨b, rfl⟩
    | none =>
      have hnone := List.find?_eq_none.mp hfind a hmem
      simp at hnone
  have hid : b.id = a.id := by simpa using List.find?_some hb
  obtain rfl : b = a :=
    db.unique.eq_of_key (List.mem_of_find?_eq_some hb) hmem (congrArg some hid) rfl
  unfold Db.loadContent
  rw [hb]
  rfl

/-- The next stage of a send whose unread rows are known. -/
theorem stageOk_next {db : Db} {a d : Uuid} {account : Account} {draft : Draft} {p : Prepared}
    {c : Imap.MailCredential} {m : String} {read unread : List DraftAttachment}
    (hrow : db.getDraft d = some draft) (hprepare : prepare a account draft = .ok p)
    (hlist : db.listForDraft d = read ++ unread) :
    StageOk db a d (.next p c m (read.map (·.mime)) (unread.map (·.row))) := by
  cases unread with
  | nil =>
    rw [List.append_nil] at hlist
    refine ⟨⟨draft, db.listForDraft d⟩, ?_, a, account, c, m, ?_⟩
    · unfold Db.version
      rw [hrow]
      rfl
    · unfold Version.request
      rw [hprepare, hlist]
      rfl
  | cons x rest =>
    exact ⟨account, draft, read, x :: rest, hrow, hprepare, hlist, rfl, rfl⟩

/-- A send that goes on without writing keeps its copy up to date. -/
theorem Moves.stageOk {db : Db} {a d : Uuid} {stage stage' : SendStage} {outcome : Outcome}
    {change : Change} (h : Moves db a d stage outcome stage' change) (hok : StageOk db a d stage) :
    StageOk db a d stage' := by
  cases h with
  | readsDraft hdraft hprepare => exact ⟨_, _, hdraft, hprepare⟩
  | credential => exact hok
  | lists =>
    obtain ⟨account, draft, hrow, hprepare⟩ := hok
    exact stageOk_next hrow hprepare (List.nil_append _).symm
  | @loads p c m loaded row rows data hdata =>
    obtain ⟨account, draft, read, unread, hrow, hprepare, hlist, hloaded, hrows⟩ := hok
    cases unread with
    | nil => cases hrows
    | cons x rest =>
      obtain ⟨rfl, rfl⟩ := List.cons.inj hrows
      have hmem : x ∈ db.listForDraft d := by
        rw [hlist]
        exact List.mem_append_right _ List.mem_cons_self
      obtain rfl : x.content = data := by
        have hcontent := loadContent_of_mem hmem
        exact Option.some.inj (hcontent.symm.trans hdata)
      have hsplit : db.listForDraft d = (read ++ [x]) ++ rest := by
        rw [hlist, List.append_assoc]
        rfl
      have hnext := stageOk_next (c := c) (m := m) hrow hprepare hsplit
      rw [List.map_append] at hnext
      rw [hloaded]
      exact hnext
  | accepts => exact hok
  | _ => trivial

theorem stageOk_of_not_holds {db : Db} {a d : Uuid} {stage : SendStage}
    (h : stage.holds = false) : StageOk db a d stage := by
  cases stage <;> trivial

/-- Every copy in use is what is stored. -/
def Current (s : State) : Prop :=
  ∀ t a d stage, s.tasks t = some (.send a d stage) → StageOk s.db a d stage

theorem Current.step (h : Current s) {act : Action} (hok : Undisturbed s act)
    (hstep : Step s act s') : Current s' := by
  cases hstep with
  | arrive hfree hstart =>
    intro t' a d stage htask'
    rw [State.setTask_tasks] at htask'
    split_ifs at htask' with heq
    · exact stageOk_of_not_holds (start_not_held hstart (Option.some.inj htask'))
    · exact h t' a d stage htask'
  | @resume t outcome task task' change db htask hresume hfresh hdb =>
    intro t' a d stage' htask'
    rw [resumed_tasks] at htask'
    show StageOk db a d stage'
    split_ifs at htask' with heq
    · cases htask'
      obtain ⟨stage, rfl, hmoves⟩ := resume_send hresume
      have hmoved := hmoves.stageOk (h t a d stage htask)
      by_cases hquiet : change.draft = some d
      · -- only the deletion writes, and the task is done then
        cases hmoves with
        | deletes => trivial
        | _ => cases hquiet
      · obtain ⟨hrow, hrows⟩ := apply_frame hdb hquiet
        exact hmoved.of_frame hrow (listForDraft_frame hrows)
    · have hold := h t' a d stage' htask'
      by_cases hholds : stage'.holds = true
      · have hframe : change.draft ≠ some d := fun hd =>
          heq (hok task task' change d htask hresume hd t' ⟨a, stage', htask', hholds⟩)
        obtain ⟨hrow, hrows⟩ := apply_frame hdb hframe
        exact hold.of_frame hrow (listForDraft_frame hrows)
      · exact stageOk_of_not_holds (Bool.eq_false_iff.mpr hholds)
  | cancel htask =>
    intro t' a d stage htask'
    rw [State.setTask_tasks] at htask'
    split_ifs at htask' with heq
    · cases htask'
    · exact h t' a d stage htask'

theorem current_of_run {db : Db} {acts : List Action}
    (hrun : run step (State.init db) acts = some s)
    (hguard : Guarded step Undisturbed (State.init db) acts) : Current s := by
  refine guarded_invariant step (I := Current) (fun t a d stage htask => ?_)
    (fun _ _ _ h hok hstep => h.step hok (step_cases hstep)) hguard hrun
  cases htask

/-- A send that is about to delete its draft has submitted it. -/
def Recorded (s : State) : Prop :=
  ∀ t a d r, s.tasks t = some (.send a d (.accepted r)) → ⟨t, d, r⟩ ∈ s.submissions

theorem Recorded.step (h : Recorded s) {act : Action} (hstep : Step s act s') : Recorded s' := by
  cases hstep with
  | arrive hfree hstart =>
    intro t' a d r htask'
    rw [State.setTask_tasks] at htask'
    split_ifs at htask' with heq
    · cases start_not_held hstart (Option.some.inj htask')
    · exact h t' a d r htask'
  | @resume t outcome task task' change db htask hresume hfresh hdb =>
    intro t' a d r htask'
    rw [resumed_tasks] at htask'
    split_ifs at htask' with heq
    · subst heq
      cases htask'
      obtain ⟨stage, rfl, hmoves⟩ := resume_send hresume
      refine List.mem_append_right _ ?_
      generalize hlast : SendStage.accepted r = last at hmoves
      cases hmoves with
      | accepts =>
        cases hlast
        exact List.mem_singleton.mpr rfl
      | lists => exact absurd hlast.symm ((next_holds _ _ _ _ _).2 r)
      | loads => exact absurd hlast.symm ((next_holds _ _ _ _ _).2 r)
      | _ => cases hlast
    · exact List.mem_append_left _ (h t' a d r htask')
  | cancel htask =>
    intro t' a d r htask'
    rw [State.setTask_tasks] at htask'
    split_ifs at htask' with heq
    · cases htask'
    · exact h t' a d r htask'

/-- The version of a draft is stored, or it was submitted. -/
def KeptOrSent (d : Uuid) (v : Version) (s : State) : Prop :=
  s.db.version d = some v ∨ ∃ sub ∈ s.submissions, sub.draftId = d ∧ v.Rendered sub.request

/-- Only the deletion at the end of a send takes a version away. -/
theorem KeptOrSent.step {d : Uuid} {v : Version} (h : KeptOrSent d v s) (hcurrent : Current s)
    (hrecorded : Recorded s) {act : Action} (honly : OnlySends d s act) (hstep : Step s act s') :
    KeptOrSent d v s' := by
  cases hstep with
  | @resume t outcome task task' change db htask hresume hfresh hdb =>
    rcases h with hversion | ⟨sub, hsub, hsent⟩
    · by_cases hwrites : change.draft = some d
      · obtain ⟨a, stage, rfl⟩ := honly task task' change htask hresume hwrites
        obtain ⟨⟨stage', change'⟩, hsend, heq⟩ := Option.map_eq_some_iff.mp hresume
        cases heq
        cases resumeSend_moves hsend with
        | @deletes r =>
          obtain ⟨v', hversion', hrendered⟩ := hcurrent t a d _ htask
          obtain rfl : v = v' := Option.some.inj (hversion.symm.trans hversion')
          exact .inr ⟨⟨t, d, r⟩, List.mem_append_left _ (hrecorded t a d r htask), rfl, hrendered⟩
        | _ => cases hwrites
      · obtain ⟨hrow, hrows⟩ := apply_frame hdb hwrites
        exact .inl ((version_frame hrow (listForDraft_frame hrows)).trans hversion)
    · exact .inr ⟨sub, List.mem_append_left _ hsub, hsent⟩
  | _ => exact h

theorem keptOrSent_of_run {d : Uuid} {v : Version} {mid : List Action} (hcurrent : Current s)
    (hrecorded : Recorded s) (hguard : Guarded step Undisturbed s mid)
    (honly : Guarded step (OnlySends d) s mid) (hversion : s.db.version d = some v)
    (hrun : run step s mid = some s') : KeptOrSent d v s' := by
  refine (guarded_invariant step (I := fun s => Current s ∧ Recorded s ∧ KeptOrSent d v s)
    ⟨hcurrent, hrecorded, .inl hversion⟩ ?_ (guarded_and step hguard honly) hrun).2.2
  intro s act s' ⟨hcurrent, hrecorded, hkept⟩ ⟨hok, honly⟩ hstep
  have hstep := step_cases hstep
  exact ⟨hcurrent.step hok hstep, hrecorded.step hstep, hkept.step hcurrent hrecorded honly hstep⟩

theorem resume_updated_inv {db : Db} {task : Task} {outcome : Outcome} {upd : DraftUpdate}
    {specs : Option (List Args.DraftAttachmentSpec)} {row : Draft} {change : Change}
    (h : task.resume db outcome = some (.update upd specs (.finished (.ok (some row))), change)) :
    ∃ attachments draft, db.getDraft upd.id = some draft ∧ draft.patch upd = row ∧
      .updateDraft upd attachments = change := by
  cases task with
  | update upd₀ specs₀ stage =>
    obtain ⟨⟨stage', change'⟩, hresume, heq⟩ := Option.map_eq_some_iff.mp h
    cases heq
    cases stage with
    | transaction attachments =>
      cases outcome with
      | minted ids =>
        simp only [resumeUpdate] at hresume
        split at hresume
        · cases hresume
        · next draft hdraft =>
          split_ifs at hresume
          cases hresume
          exact ⟨_, draft, hdraft, rfl, rfl⟩
      | failed e => cases hresume
      | _ => cases hresume
    | files =>
      cases outcome with
      | files attachments =>
        simp only [resumeUpdate] at hresume
        split_ifs at hresume
        cases hresume
      | _ => cases hresume
    | finished result => cases hresume
  | send a d stage =>
    obtain ⟨x, -, heq⟩ := Option.map_eq_some_iff.mp h
    cases heq
  | create new specs stage =>
    obtain ⟨x, -, heq⟩ := Option.map_eq_some_iff.mp h
    cases heq
  | delete id result =>
    cases result with
    | none =>
      obtain ⟨x, -, heq⟩ := Option.map_eq_some_iff.mp h
      cases heq
    | some r => cases h
  | cancelled => cases h

/-- An update that returns the updated draft has committed it. -/
theorem resume_updated {db db' : Db} {task : Task} {outcome : Outcome} {upd : DraftUpdate}
    {specs : Option (List Args.DraftAttachmentSpec)} {row : Draft} {change : Change}
    (h : task.resume db outcome = some (.update upd specs (.finished (.ok (some row))), change))
    (hdb : db.apply change = some db') : db'.getDraft upd.id = some row := by
  obtain ⟨attachments, draft, hdraft, rfl, rfl⟩ := resume_updated_inv h
  have hrow : (Lib.updateWhere (fun x : Draft => x.id = upd.id) (fun x => x.patch upd)
      db.drafts).find? (fun x => x.id = upd.id) = some (draft.patch upd) := by
    refine (Lib.find?_updateWhere (fun x => ?_) db.drafts).trans ?_
    · rfl
    · have hid : draft.id = upd.id := by simpa using List.find?_some hdraft
      unfold Db.getDraft at hdraft
      rw [hdraft]
      simp [hid]
  cases attachments with
  | none =>
    cases hdb
    exact hrow
  | some new =>
    obtain ⟨hdrafts, -, -⟩ := withAttachments_eq hdb
    unfold Db.getDraft
    rw [hdrafts]
    exact hrow

theorem Alone.undisturbed {t₀ : Nat} {a : Action} (h : Alone t₀ s) (ha : IsStepOf t₀ a) :
    Undisturbed s a := by
  rcases ha with ⟨operation, rfl⟩ | ⟨outcome, rfl, -⟩
  · trivial
  · exact fun _ _ _ _ _ _ _ t' ht' => h.holding ht'

/-- Request `t` rewrites the sample draft and gives it an attachment. -/
def sampleEdit (t : Nat) : List Action :=
  [.arrive t (.draftUpdate ⟨sampleId 2, ["bob@example.org"], [], [], some "new offer",
      some "text", none⟩ (some [⟨"/tmp/b.pdf", none, none⟩])),
    .resume t (.files (some [⟨"b.pdf", "application/pdf", [1, 2, 3]⟩])),
    .resume t (.minted [(sampleId 3, 7)])]

/-- An edit between the two reads of a send. -/
def editedRun : List Action :=
  [.arrive 0 (.messageSend (sampleId 1) (sampleId 2)), .resume 0 .done, .resume 0 .done] ++
    sampleEdit 1 ++
    [.resume 0 (.credential (.password "secret") "<m@postblox.local>"), .resume 0 .done,
      .resume 0 .done, .resume 0 .done, .resume 0 .done]

/-- What a message shows of the version it comes from. -/
def Version.shown (v : Version) : String × Nat := (v.draft.subject.getD "", v.attachments.length)

def SmtpSubmitRequest.shown (r : SmtpSubmitRequest) : String × Nat :=
  (r.mime.subject, r.mime.attachments.length)

theorem Version.Rendered.shown {v : Version} {r : SmtpSubmitRequest} (h : v.Rendered r) :
    v.shown = r.shown := by
  obtain ⟨accountId, account, credential, messageId, hrequest⟩ := h
  unfold Version.request at hrequest
  cases hprepare : prepare accountId account v.draft with
  | error e =>
    rw [hprepare] at hrequest
    cases hrequest
  | ok p =>
    rw [hprepare] at hrequest
    cases hrequest
    show _ = (p.draft.subject.getD "", (v.attachments.map (·.mime)).length)
    rw [prepare_draft hprepare, List.length_map]
    rfl

/-- No state of the run stores the old row with an attachment. -/
theorem editedRun_versions {before after : List Action} {s₁ : State} {v : Version}
    (h : editedRun = before ++ after) (hrun : run step (State.init sampleDb) before = some s₁)
    (hversion : s₁.db.version (sampleId 2) = some v) : v.shown ≠ ("offer", 1) := by
  have hall : ∀ n ∈ List.range 12, ∀ shown ∈ ((run step (State.init sampleDb)
      (editedRun.take n)).bind fun s => (s.db.version (sampleId 2)).map (·.shown)),
      shown ≠ ("offer", 1) := by decide
  have hlength : before.length < 12 := by
    have htotal : before.length + after.length = 11 := by
      rw [← List.length_append, ← h]
      rfl
    omega
  have htake : editedRun.take before.length = before := by
    rw [h]
    exact List.take_left
  refine hall before.length (List.mem_range.mpr hlength) v.shown ?_
  rw [htake, hrun, Option.bind_some, hversion]
  exact rfl

/-- The updated draft that a request has returned. -/
def Task.returned : Task → Option Draft
  | .update _ _ (.finished (.ok row)) => row
  | _ => none

end Postblox.Daemon.Drafts
