import Postblox.Daemon.DraftRuns

/-!
# How often a draft is submitted

Nothing keeps two sends of one draft apart: both may read it before either deletes it,
and a draft stays readable when the send that was accepted is cancelled or cannot delete
it. Where neither happens, a draft is submitted once.
-/
namespace Postblox.Daemon.Drafts

open Lib.Machine

variable {s s' : State}

/-- How often a server has accepted draft `d`. -/
def State.sent (s : State) (d : Uuid) : Nat :=
  s.submissions.countP fun sub => sub.draftId = d

/-- The condition on a step. A server accepts a draft while no other send has it read; no
send reads a draft that was accepted and is not deleted yet; and a send that was accepted
is neither cancelled nor fails to delete the draft. -/
def Careful (s : State) : Action → Prop
  | .resume t outcome => ∀ a d stage, s.tasks t = some (.send a d stage) →
    ((∃ r, stage = .smtp r) → outcome = .done → ∀ t', s.Holding t' d → t' = t) ∧
    ((∃ account, stage = .draft account) → ∀ t', ¬ s.Accepted t' d) ∧
    ((∃ r, stage = .accepted r) → ∀ e, outcome ≠ .failed e)
  | .cancel t => ∀ d, ¬ s.Accepted t d
  | .arrive _ _ => True

/-- Every stored draft has a minted id, and so has every draft that is read or sent. A
draft that was sent is held by the send about to delete it, or it is gone. -/
structure Once (s : State) : Prop where
  rows : ∀ d draft, s.db.getDraft d = some draft → d ∈ s.minted
  held : ∀ t d, s.Holding t d → d ∈ s.minted
  sent : ∀ d, s.sent d ≤ 1
  settled : ∀ d, 0 < s.sent d → d ∈ s.minted ∧
    ((∃ t, s.Accepted t d ∧ ∀ t', s.Holding t' d → t' = t) ∨
      s.db.getDraft d = none ∧ ∀ t, ¬ s.Holding t d)

theorem Once.init (db : Db) : Once (State.init db) where
  rows d draft h := by
    have hid : draft.id = d := by simpa using List.find?_some h
    rw [← hid]
    exact List.mem_map_of_mem (List.mem_of_find?_eq_some h)
  held t d h := by
    obtain ⟨a, stage, htask, -⟩ := h
    cases htask
  sent d := Nat.zero_le 1
  settled d h := absurd h (Nat.lt_irrefl 0)

/-- Replacing a task by one that holds nothing, where the old one was not accepted. -/
theorem Once.setTask (h : Once s) {t : Nat} {task : Task}
    (hfree : ∀ a d stage, task = .send a d stage → stage.holds = false)
    (hold : ∀ d, ¬ s.Accepted t d) : Once (s.setTask t task) := by
  have hback : ∀ t' d, (s.setTask t task).Holding t' d → s.Holding t' d := by
    intro t' d ⟨a, stage, htask, hstage⟩
    rw [State.setTask_tasks] at htask
    split_ifs at htask with heq
    · rw [hfree a d stage (Option.some.inj htask)] at hstage
      cases hstage
    · exact ⟨a, stage, htask, hstage⟩
  refine ⟨h.rows, fun t' d ht' => h.held t' d (hback t' d ht'), h.sent, fun d hd => ?_⟩
  obtain ⟨hminted, hcase⟩ := h.settled d hd
  refine ⟨hminted, ?_⟩
  rcases hcase with ⟨t₀, haccepted, honly⟩ | ⟨hgone, hnone⟩
  · have hne : t₀ ≠ t := fun heq => hold d (heq ▸ haccepted)
    obtain ⟨a, r, htask⟩ := haccepted
    refine .inl ⟨t₀, ⟨a, r, ?_⟩, fun t' ht' => honly t' (hback t' d ht')⟩
    rw [State.setTask_tasks, if_neg hne]
    exact htask
  · exact .inr ⟨hgone, fun t' ht' => hnone t' (hback t' d ht')⟩

section Resume

variable {t : Nat} {outcome : Outcome} {task task' : Task} {change : Change} {db : Db}

theorem resumed_tasks (t' : Nat) : (s.resumed t outcome task task' change db).tasks t' =
    if t' = t then some task' else s.tasks t' :=
  Function.update_apply ..

theorem resumed_sent (d : Uuid) : (s.resumed t outcome task task' change db).sent d =
    s.sent d + (submitted t task outcome).countP fun sub => sub.draftId = d :=
  List.countP_append

/-- Who holds a draft after a task is resumed: the others as before, the task itself if
it held it before or has just read it. -/
theorem holding_resumed (htask : s.tasks t = some task)
    (hresume : task.resume s.db outcome = some (task', change)) {t' : Nat} {d : Uuid}
    (h : (s.resumed t outcome task task' change db).Holding t' d) :
    s.Holding t' d ∨ t' = t ∧ (∃ a account, task = .send a d (.draft account)) ∧
      ∃ draft, s.db.getDraft d = some draft := by
  obtain ⟨a, stage', htask', hstage'⟩ := h
  rw [resumed_tasks] at htask'
  split_ifs at htask' with heq
  · cases htask'
    obtain ⟨stage, rfl, hmoves⟩ := resume_send hresume
    rcases hmoves.holds_before hstage' with hholds | ⟨⟨account, rfl⟩, draft, hdraft⟩
    · exact .inl ⟨a, stage, heq ▸ htask, hholds⟩
    · exact .inr ⟨heq, ⟨a, account, rfl⟩, draft, hdraft⟩
  · exact .inl ⟨a, stage', htask', hstage'⟩

theorem submitted_cases (t : Nat) (task : Task) (outcome : Outcome) :
    submitted t task outcome = [] ∨ ∃ a d r, task = .send a d (.smtp r) ∧ outcome = .done ∧
      submitted t task outcome = [⟨t, d, r⟩] := by
  unfold submitted
  split
  · exact .inr ⟨_, _, _, rfl, rfl, rfl⟩
  · exact .inl rfl

/-- A step that hands nothing over. -/
theorem Once.resumed_quietly (h : Once s) (hcareful : Careful s (.resume t outcome))
    (htask : s.tasks t = some task) (hresume : task.resume s.db outcome = some (task', change))
    (hfresh : ∀ id ∈ change.minted, id ∉ s.minted) (hdb : s.db.apply change = some db)
    (hnone : submitted t task outcome = []) :
    Once (s.resumed t outcome task task' change db) := by
  have hsent : ∀ d, (s.resumed t outcome task task' change db).sent d = s.sent d := by
    intro d
    rw [resumed_sent, hnone]
    rfl
  have hmem : ∀ d, d ∈ s.minted → d ∈ (s.resumed t outcome task task' change db).minted :=
    fun d hd => List.mem_append_left _ hd
  refine ⟨fun d draft hdraft => ?_, fun t' d ht' => ?_, fun d => ?_, fun d hd => ?_⟩
  · by_cases hminted : d ∈ change.minted
    · exact List.mem_append_right _ hminted
    · cases hold : s.db.getDraft d with
      | some draft' => exact hmem d (h.rows d draft' hold)
      | none => cases (apply_gone hdb hold hminted).symm.trans hdraft
  · rcases holding_resumed htask hresume ht' with hold | ⟨-, -, draft, hdraft⟩
    · exact hmem d (h.held t' d hold)
    · exact hmem d (h.rows d draft hdraft)
  · rw [hsent d]
    exact h.sent d
  · rw [hsent d] at hd
    obtain ⟨hminted, hcase⟩ := h.settled d hd
    refine ⟨hmem d hminted, ?_⟩
    rcases hcase with ⟨t₀, haccepted, honly⟩ | ⟨hgone, hfree⟩
    · by_cases heq : t₀ = t
      · -- the send that was accepted deletes its draft
        subst heq
        obtain ⟨a, r, htask₀⟩ := haccepted
        rw [htask] at htask₀
        cases htask₀
        obtain rfl : outcome = .done := by
          have hworks := (hcareful a d _ htask).2.2 ⟨r, rfl⟩
          cases outcome with
          | done => rfl
          | failed e => exact absurd rfl (hworks e)
          | _ => cases hresume
        cases hresume
        refine .inr ⟨getDraft_deleteDraft hdb, fun t' ht' => ?_⟩
        rcases holding_resumed htask rfl ht' with hold | ⟨-, ⟨a', account, hdraft⟩, -⟩
        · obtain rfl := honly t' hold
          obtain ⟨a', stage, hstage, hholds⟩ := ht'
          rw [resumed_tasks, if_pos rfl] at hstage
          cases hstage
          cases hholds
        · cases hdraft
      · obtain ⟨a, r, htask₀⟩ := haccepted
        refine .inl ⟨t₀, ⟨a, r, ?_⟩, fun t' ht' => ?_⟩
        · rw [resumed_tasks, if_neg heq]
          exact htask₀
        · rcases holding_resumed htask hresume ht' with hold | ⟨-, ⟨a', account, rfl⟩, -⟩
          · exact honly t' hold
          · exact absurd ⟨a, r, htask₀⟩ ((hcareful a' d _ htask).2.1 ⟨account, rfl⟩ t₀)
    · refine .inr ⟨apply_gone hdb hgone (fun hin => hfresh d hin hminted), fun t' ht' => ?_⟩
      rcases holding_resumed htask hresume ht' with hold | ⟨-, -, draft, hdraft⟩
      · exact hfree t' hold
      · cases hgone.symm.trans hdraft

/-- The step in which a server accepts. -/
theorem Once.accepts (h : Once s) {a d : Uuid} {r : SmtpSubmitRequest}
    (hcareful : Careful s (.resume t .done)) (htask : s.tasks t = some (.send a d (.smtp r))) :
    Once (s.resumed t .done (.send a d (.smtp r)) (.send a d (.accepted r)) .quiet s.db) := by
  have hholding : s.Holding t d := ⟨a, _, htask, rfl⟩
  have honly : ∀ t', s.Holding t' d → t' = t :=
    (hcareful a d _ htask).1 ⟨r, rfl⟩ rfl
  have hzero : s.sent d = 0 := by
    by_contra hne
    rcases (h.settled d (Nat.pos_of_ne_zero hne)).2 with ⟨t₀, haccepted, -⟩ | ⟨-, hfree⟩
    · obtain rfl := honly t₀ haccepted.holding
      obtain ⟨a', r', htask'⟩ := haccepted
      cases htask.symm.trans htask'
    · exact hfree t hholding
  have hback : ∀ t' d', (s.resumed t .done (.send a d (.smtp r)) (.send a d (.accepted r)) .quiet
      s.db).Holding t' d' → s.Holding t' d' := by
    intro t' d' ht'
    rcases holding_resumed htask rfl ht' with hold | ⟨-, ⟨a', account, hdraft⟩, -⟩
    · exact hold
    · cases hdraft
  have hcount : ∀ d', (s.resumed t .done (.send a d (.smtp r)) (.send a d (.accepted r)) .quiet
      s.db).sent d' = s.sent d' + if d = d' then 1 else 0 := by
    intro d'
    rw [resumed_sent]
    show s.sent d' + [(⟨t, d, r⟩ : Submission)].countP (fun sub => sub.draftId = d') = _
    rw [List.countP_singleton]
    simp
  have hminted : (s.resumed t .done (.send a d (.smtp r)) (.send a d (.accepted r)) .quiet
      s.db).minted = s.minted := List.append_nil _
  refine ⟨fun d' draft hdraft => ?_, fun t' d' ht' => ?_, fun d' => ?_, fun d' hd' => ?_⟩
  · rw [hminted]
    exact h.rows d' draft hdraft
  · rw [hminted]
    exact h.held t' d' (hback t' d' ht')
  · rw [hcount]
    split_ifs with heq
    · rw [← heq, hzero]
    · exact h.sent d'
  · rw [hminted]
    by_cases heq : d = d'
    · subst heq
      refine ⟨h.held t d hholding, .inl ⟨t, ⟨a, r, ?_⟩, fun t' ht' => honly t' (hback t' d ht')⟩⟩
      rw [resumed_tasks, if_pos rfl]
    · rw [hcount, if_neg heq] at hd'
      obtain ⟨hmem, hcase⟩ := h.settled d' hd'
      refine ⟨hmem, ?_⟩
      rcases hcase with ⟨t₀, ⟨a₀, r₀, htask₀⟩, honly₀⟩ | ⟨hgone, hfree⟩
      · have hne : t₀ ≠ t := by
          rintro rfl
          cases htask.symm.trans htask₀
        refine .inl ⟨t₀, ⟨a₀, r₀, ?_⟩, fun t' ht' => honly₀ t' (hback t' d' ht')⟩
        rw [resumed_tasks, if_neg hne]
        exact htask₀
      · exact .inr ⟨hgone, fun t' ht' => hfree t' (hback t' d' ht')⟩

end Resume

theorem submissions_of_step {act : Action} (hstep : Step s act s') {sub : Submission}
    (h : sub ∈ s'.submissions) : sub ∈ s.submissions ∨
      ∃ a, s.tasks sub.task = some (.send a sub.draftId (.smtp sub.request)) := by
  cases hstep with
  | @resume t outcome task task' change db htask hresume hfresh hdb =>
    rcases List.mem_append.mp h with hold | hnew
    · exact .inl hold
    · rcases submitted_cases t task outcome with hnone | ⟨a, d, r, rfl, -, hone⟩
      · rw [hnone] at hnew
        cases hnew
      · rw [hone] at hnew
        rw [List.mem_singleton.mp hnew]
        exact .inr ⟨a, htask⟩
  | _ => exact .inl h

theorem start_not_held {operation : Args.Operation} {task : Task}
    (h : Task.start operation = some task) {a d : Uuid} {stage : SendStage}
    (hsend : task = .send a d stage) : stage.holds = false := by
  subst hsend
  unfold Task.start at h
  split at h <;> cases h
  rfl

theorem Once.step (h : Once s) {a : Action} (hcareful : Careful s a)
    (hstep : Step s a s') : Once s' := by
  cases hstep with
  | arrive hfree hstart =>
    refine h.setTask (fun a d stage hsend => start_not_held hstart hsend) fun d haccepted => ?_
    obtain ⟨a, r, htask⟩ := haccepted
    cases hfree.symm.trans htask
  | @resume t outcome task task' change db htask hresume hfresh hdb =>
    rcases submitted_cases t task outcome with hnone | ⟨a, d, r, rfl, rfl, -⟩
    · exact h.resumed_quietly hcareful htask hresume hfresh hdb hnone
    · cases hresume
      cases hdb
      exact h.accepts hcareful htask
  | cancel htask => exact h.setTask (fun _ _ _ hsend => nomatch hsend) hcareful

/-- The steps of one request that is not cancelled and whose statements work. -/
def IsStepOf (t₀ : Nat) (a : Action) : Prop :=
  (∃ operation, a = .arrive t₀ operation) ∨ ∃ outcome, a = .resume t₀ outcome ∧
    ∀ e, outcome ≠ .failed e

/-- No other request has arrived. -/
def Alone (t₀ : Nat) (s : State) : Prop := ∀ t, t ≠ t₀ → s.tasks t = none

theorem Alone.step {t₀ : Nat} {a : Action} (h : Alone t₀ s) (ha : IsStepOf t₀ a)
    (hstep : step s a = some s') : Alone t₀ s' := by
  intro t ht
  rcases ha with ⟨operation, rfl⟩ | ⟨outcome, rfl, -⟩
  · cases step_cases hstep with
    | arrive hfree hstart =>
      rw [State.setTask_tasks, if_neg ht]
      exact h t ht
  · cases step_cases hstep with
    | resume htask hresume hfresh hdb =>
      rw [resumed_tasks, if_neg ht]
      exact h t ht

theorem Alone.holding {t₀ t : Nat} {d : Uuid} (h : Alone t₀ s) (hholding : s.Holding t d) :
    t = t₀ := by
  by_contra hne
  obtain ⟨a, stage, htask, -⟩ := hholding
  cases (h t hne).symm.trans htask

theorem Alone.careful {t₀ : Nat} {a : Action} (h : Alone t₀ s) (ha : IsStepOf t₀ a) :
    Careful s a := by
  rcases ha with ⟨operation, rfl⟩ | ⟨outcome, rfl, hworks⟩
  · trivial
  · refine fun a d stage htask => ⟨fun _ _ t' ht' => h.holding ht', ?_, fun _ => hworks⟩
    rintro ⟨account, rfl⟩ t' haccepted
    obtain rfl := h.holding haccepted.holding
    obtain ⟨a', r, htask'⟩ := haccepted
    cases htask.symm.trans htask'

def sampleId (n : Fin 16) : Uuid := .filled n

def sampleDraft : Draft :=
  ⟨sampleId 2, sampleId 1, none, ["bob@example.org"], [], [], some "offer", some "text", none,
    none, none⟩

/-- One account with one draft. -/
def sampleDb : Db where
  accounts := [⟨sampleId 1, "ann@example.org", "smtp.example.org", 465, true, false⟩]
  drafts := [sampleDraft]
  attachments := []
  unique := by decide

/-- Request `t` sends the sample draft up to the server's answer. -/
def sampleSend (t : Nat) : List Action :=
  [.arrive t (.messageSend (sampleId 1) (sampleId 2)), .resume t .done, .resume t .done,
    .resume t (.credential (.password "secret") "<m@postblox.local>"), .resume t .done]

/-- The same request to its end. -/
def sampleRun : List Action := sampleSend 0 ++ [.resume 0 .done, .resume 0 .done]

theorem sampleRun_steps : ∀ a ∈ sampleRun, IsStepOf 0 a := by
  intro a ha
  simp only [sampleRun, sampleSend, List.cons_append, List.nil_append, List.mem_cons,
    List.not_mem_nil, or_false] at ha
  rcases ha with rfl | rfl | rfl | rfl | rfl | rfl | rfl
  · exact .inl ⟨_, rfl⟩
  all_goals exact .inr ⟨_, rfl, fun _ h => nomatch h⟩

theorem sampleRun_guarded {ok : State → Action → Prop}
    (hok : ∀ s a, Alone 0 s → IsStepOf 0 a → ok s a) :
    Guarded step ok (State.init sampleDb) sampleRun :=
  guarded_of_invariant step (I := Alone 0) (fun _ _ => rfl)
    (fun s a ha halone => hok s a halone (sampleRun_steps a ha))
    (fun _ a ha _ halone hstep => halone.step (sampleRun_steps a ha) hstep)

end Postblox.Daemon.Drafts
