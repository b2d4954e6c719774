import Postblox.Daemon.SendOnce
import Postblox.Mcp.Confinement

/-!
# What an approved send submits

The bridge and the daemon's draft requests run side by side: a forwarded call becomes a
request of the daemon when it is delivered, and the other clients' requests arrive on
their own. An approval names a draft by its id. What is submitted is the draft as the
forwarded request reads it, which is what the draft was when the approval was requested
if nothing has written it since.
-/
namespace Postblox.Mcp

open Daemon.Drafts (Prepared SendStage Outcome Change Task Moves prepare)
open Daemon.Args (parseId)
open Lib.Machine

/-- `carried` pairs a task of the daemon with the call it was delivered for. -/
structure System where
  bridge : Bridge.State
  daemon : Daemon.Drafts.State
  carried : List (Nat × Nat)

inductive Event where
  | bridge (a : Bridge.Action)
  | deliver (c t : Nat)
  | daemon (a : Daemon.Drafts.Action)

namespace System

def init (gates : List McpGate) (db : Daemon.Drafts.Db) : System := ⟨.init gates, .init db, []⟩

section

variable (crates : Crates)

/-- A request that does not decode to a draft operation does nothing to a draft. -/
def step (s : System) : Event → Option System
  | .bridge a => do
    let bridge ← Bridge.step crates s.bridge a
    some { s with bridge := bridge }
  | .deliver c t => do
    let f ← s.bridge.forwards.find? fun f => f.call = c
    let call ← s.bridge.calls c
    if s.carried.any (fun x => x.2 = c) then none
    else
      match Daemon.Args.operation crates call.tool f.args with
      | some (.ok operation) =>
        let daemon ← Daemon.Drafts.step s.daemon (.arrive t operation)
        some { s with daemon := daemon, carried := s.carried ++ [(t, c)] }
      | _ => none
  | .daemon a => do
    let daemon ← Daemon.Drafts.step s.daemon a
    some { s with daemon := daemon }

inductive Step (s : System) : Event → System → Prop where
  | bridge {a : Bridge.Action} {bridge : Bridge.State}
      (hbridge : Bridge.Step crates s.bridge a bridge) :
      Step s (.bridge a) { s with bridge := bridge }
  | deliver {c t : Nat} {f : Bridge.Forward} {call : Bridge.Call}
      {operation : Daemon.Args.Operation} {daemon : Daemon.Drafts.State}
      (hf : f ∈ s.bridge.forwards) (hfor : f.call = c) (hcall : s.bridge.calls c = some call)
      (hoperation : Daemon.Args.operation crates call.tool f.args = some (.ok operation))
      (hdaemon : Daemon.Drafts.Step s.daemon (.arrive t operation) daemon) :
      Step s (.deliver c t) { s with daemon := daemon, carried := s.carried ++ [(t, c)] }
  | daemon {a : Daemon.Drafts.Action} {daemon : Daemon.Drafts.State}
      (hdaemon : Daemon.Drafts.Step s.daemon a daemon) :
      Step s (.daemon a) { s with daemon := daemon }

end

variable {crates : Crates} {s s' : System}

theorem step_cases {e : Event} (h : step crates s e = some s') : Step crates s e s' := by
  cases e with
  | bridge a =>
    obtain ⟨bridge, hbridge, heq⟩ := Option.bind_eq_some_iff.mp h
    cases heq
    exact .bridge (Bridge.step_cases crates hbridge)
  | deliver c t =>
    obtain ⟨f, hfind, h⟩ := Option.bind_eq_some_iff.mp h
    obtain ⟨call, hcall, h⟩ := Option.bind_eq_some_iff.mp h
    have hfor : f.call = c := by simpa using List.find?_some hfind
    split_ifs at h
    split at h
    · next operation hoperation =>
      obtain ⟨daemon, hdaemon, heq⟩ := Option.bind_eq_some_iff.mp h
      cases heq
      exact .deliver (List.mem_of_find?_eq_some hfind) hfor hcall hoperation
        (Daemon.Drafts.step_cases hdaemon)
    · cases h
  | daemon a =>
    obtain ⟨daemon, hdaemon, heq⟩ := Option.bind_eq_some_iff.mp h
    cases heq
    exact .daemon (Daemon.Drafts.step_cases hdaemon)

/-! ## Whose request a task is -/

/-- Task `t` sends draft `d` and nothing else. -/
def Sends (daemon : Daemon.Drafts.State) (t : Nat) (a d : Uuid) : Prop :=
  (∃ task, daemon.tasks t = some task ∧ (task = .cancelled ∨ ∃ stage, task = .send a d stage)) ∧
    ∀ sub ∈ daemon.submissions, sub.task = t → sub.draftId = d

theorem Sends.step {daemon daemon' : Daemon.Drafts.State} {t : Nat} {a d : Uuid}
    {act : Daemon.Drafts.Action} (h : Sends daemon t a d)
    (hstep : Daemon.Drafts.Step daemon act daemon') : Sends daemon' t a d := by
  obtain ⟨⟨task₀, htask₀, hsend⟩, hsubs⟩ := h
  cases hstep with
  | @arrive t' operation task hfree hstart =>
    have hne : t ≠ t' := by
      rintro rfl
      cases hfree.symm.trans htask₀
    refine ⟨⟨task₀, ?_, hsend⟩, hsubs⟩
    rw [Daemon.Drafts.State.setTask_tasks, if_neg hne]
    exact htask₀
  | @resume t' outcome task task' change db htask hresume hfresh hdb =>
    constructor
    · rw [Daemon.Drafts.resumed_tasks]
      split_ifs with heq
      · subst heq
        cases htask.symm.trans htask₀
        rcases hsend with rfl | ⟨stage, rfl⟩
        · cases hresume
        · obtain ⟨⟨stage', change'⟩, -, heq⟩ := Option.map_eq_some_iff.mp hresume
          cases heq
          exact ⟨_, rfl, .inr ⟨stage', rfl⟩⟩
      · exact ⟨task₀, htask₀, hsend⟩
    · intro sub hsub hsubt
      rcases List.mem_append.mp hsub with hold | hnew
      · exact hsubs sub hold hsubt
      · rcases Daemon.Drafts.submitted_cases t' task outcome with hnone | ⟨a', d', r, rfl, -, hone⟩
        · rw [hnone] at hnew
          cases hnew
        · rw [hone] at hnew
          obtain rfl := List.mem_singleton.mp hnew
          obtain rfl : t' = t := hsubt
          cases htask.symm.trans htask₀
          rcases hsend with hcancelled | ⟨stage, heq⟩
          · cases hcancelled
          · cases heq
            rfl
  | @cancel t' task htask =>
    refine ⟨?_, hsubs⟩
    rw [Daemon.Drafts.State.setTask_tasks]
    split_ifs with heq
    · exact ⟨_, rfl, .inl rfl⟩
    · exact ⟨task₀, htask₀, hsend⟩

/-- What was submitted was submitted by a task. -/
def Tasked (daemon : Daemon.Drafts.State) : Prop :=
  ∀ sub ∈ daemon.submissions, ∃ task, daemon.tasks sub.task = some task

/-- Tasks stay. -/
theorem task_stays {daemon daemon' : Daemon.Drafts.State} {t : Nat} {task : Task}
    {act : Daemon.Drafts.Action} (h : daemon.tasks t = some task)
    (hstep : Daemon.Drafts.Step daemon act daemon') : ∃ task', daemon'.tasks t = some task' := by
  cases hstep with
  | @arrive t' operation task₀ hfree hstart =>
    rw [Daemon.Drafts.State.setTask_tasks]
    split_ifs
    · exact ⟨_, rfl⟩
    · exact ⟨_, h⟩
  | @resume t' outcome task₀ task' change db htask hresume hfresh hdb =>
    rw [Daemon.Drafts.resumed_tasks]
    split_ifs
    · exact ⟨_, rfl⟩
    · exact ⟨_, h⟩
  | @cancel t' task₀ htask =>
    rw [Daemon.Drafts.State.setTask_tasks]
    split_ifs
    · exact ⟨_, rfl⟩
    · exact ⟨_, h⟩

theorem Tasked.step {daemon daemon' : Daemon.Drafts.State} {act : Daemon.Drafts.Action}
    (h : Tasked daemon) (hstep : Daemon.Drafts.Step daemon act daemon') : Tasked daemon' := by
  intro sub hsub
  have hold : ∃ task, daemon.tasks sub.task = some task := by
    rcases Daemon.Drafts.submissions_of_step hstep hsub with hold | ⟨a, htask⟩
    · exact h sub hold
    · exact ⟨_, htask⟩
  obtain ⟨task, htask⟩ := hold
  exact task_stays htask hstep

theorem Sends.start {daemon daemon' : Daemon.Drafts.State} {t : Nat} {a d : Uuid}
    (h : Tasked daemon)
    (hstep : Daemon.Drafts.Step daemon (.arrive t (.messageSend a d)) daemon') :
    Sends daemon' t a d := by
  cases hstep with
  | arrive hfree hstart =>
    cases hstart
    refine ⟨⟨.send a d .account, ?_, .inr ⟨.account, rfl⟩⟩, fun sub hsub hsubt => ?_⟩
    · rw [Daemon.Drafts.State.setTask_tasks, if_pos rfl]
    · obtain ⟨task, htask⟩ := h sub hsub
      rw [hsubt, hfree] at htask
      cases htask

/-! ## Calls and their requests -/

theorem call_follows {b b' : Bridge.State} {a : Bridge.Action} (hstep : Bridge.Step crates b a b')
    {c : Nat} {call call' : Bridge.Call} (hcall : b.calls c = some call)
    (hcall' : b'.calls c = some call') : call'.tool = call.tool ∧ call'.args = call.args := by
  rcases Bridge.call_of_step hstep hcall' with ⟨call₀, hcall₀, hf⟩ | ⟨name, arguments, rfl, -⟩
  · cases hcall.symm.trans hcall₀
    exact ⟨hf.tool, hf.args⟩
  · cases hstep with
    | callTool hnew => cases hnew.symm.trans hcall

theorem forwards_grow {b b' : Bridge.State} {a : Bridge.Action} (hstep : Bridge.Step crates b a b')
    {f : Bridge.Forward} (hf : f ∈ b.forwards) : f ∈ b'.forwards := by
  cases hstep with
  | send => exact List.mem_append_left _ hf
  | _ => exact hf

theorem call_of_forward {b : Bridge.State} (h : Bridge.Inv crates b) {f : Bridge.Forward}
    (hf : f ∈ b.forwards) : ∃ call, b.calls f.call = some call := by
  cases hcall : b.calls f.call with
  | some call => exact ⟨call, rfl⟩
  | none =>
    have hsent : 0 < Bridge.sent b f.call :=
      List.countP_pos_iff.mpr ⟨f, hf, decide_eq_true rfl⟩
    rw [h.uncalled f.call hcall] at hsent
    exact absurd hsent (Nat.lt_irrefl 0)

theorem forwardArgs_congr {call call' : Bridge.Call} (htool : call'.tool = call.tool)
    (hargs : call'.args = call.args) : call'.forwardArgs = call.forwardArgs := by
  unfold Bridge.Call.forwardArgs
  rw [htool, hargs]

/-- The draft id the daemon decodes is the one in the call's arguments. -/
theorem draftId_of_operation {call : Bridge.Call} {operation : Daemon.Args.Operation}
    (htool : call.tool = .messageSend)
    (h : Daemon.Args.operation crates call.tool call.forwardArgs = some (.ok operation)) :
    ∃ a d, operation = .messageSend a d ∧ parseId crates call.args "draft_id" = .ok d := by
  have hget : call.forwardArgs.get "draft_id" = call.args.get "draft_id" := by
    unfold Bridge.Call.forwardArgs
    rw [htool]
    cases call.args with
    | object entries => exact (Json.lookup_insertEntry _ _ _ entries).trans (if_neg (by decide))
    | _ => rfl
  have hid : parseId crates call.forwardArgs "draft_id" = parseId crates call.args "draft_id" := by
    unfold parseId
    rw [hget]
  rw [htool] at h
  have hdecode := Option.some.inj h
  rw [← hid]
  cases haccount : parseId crates call.forwardArgs "account_id" with
  | error e =>
    rw [haccount] at hdecode
    cases hdecode
  | ok a =>
    cases hdraft : parseId crates call.forwardArgs "draft_id" with
    | error e =>
      rw [haccount, hdraft] at hdecode
      cases hdecode
    | ok d =>
      rw [haccount, hdraft] at hdecode
      cases hdecode
      exact ⟨a, d, rfl, rfl⟩

/-- The invariant that ties the two sides together. -/
structure Linked (crates : Crates) (s : System) : Prop where
  bridge : Bridge.Inv crates s.bridge
  args : ∀ f ∈ s.bridge.forwards, ∀ call, s.bridge.calls f.call = some call →
    f.args = call.forwardArgs
  tasked : Tasked s.daemon
  carried : ∀ t c, (t, c) ∈ s.carried → (∃ f ∈ s.bridge.forwards, f.call = c) ∧
    ∀ call, s.bridge.calls c = some call → call.tool = .messageSend →
      ∃ a d, parseId crates call.args "draft_id" = .ok d ∧ Sends s.daemon t a d

theorem Linked.init (gates : List McpGate) (db : Daemon.Drafts.Db) :
    Linked crates (System.init gates db) where
  bridge := .init gates
  args _ hf := nomatch hf
  tasked _ hsub := nomatch hsub
  carried _ _ h := nomatch h

theorem Linked.step (h : Linked crates s) {e : Event} (hstep : Step crates s e s') :
    Linked crates s' := by
  cases hstep with
  | @bridge a bridge hbridge =>
    refine ⟨h.bridge.step hbridge, fun f hf call' hcall' => ?_, h.tasked, fun t c htc => ?_⟩
    · have hold : ∃ call, s.bridge.calls f.call = some call ∧ f.args = call.forwardArgs := by
        rcases Bridge.forwards_of_step hbridge hf with hold | ⟨call, hcall, -, hargs⟩
        · obtain ⟨call, hcall⟩ := call_of_forward h.bridge hold
          exact ⟨call, hcall, h.args f hold call hcall⟩
        · exact ⟨call, hcall, hargs⟩
      obtain ⟨call, hcall, hargs⟩ := hold
      obtain ⟨htool, hsame⟩ := call_follows hbridge hcall hcall'
      rw [forwardArgs_congr htool hsame]
      exact hargs
    · obtain ⟨⟨f, hf, rfl⟩, hsends⟩ := h.carried t c htc
      refine ⟨⟨f, forwards_grow hbridge hf, rfl⟩, fun call' hcall' htool' => ?_⟩
      obtain ⟨call, hcall⟩ := call_of_forward h.bridge hf
      obtain ⟨htool, hsame⟩ := call_follows hbridge hcall hcall'
      rw [hsame]
      exact hsends call hcall (htool.symm.trans htool')
  | @deliver c t f call operation daemon hf hfor hcall hoperation hdaemon =>
    refine ⟨h.bridge, h.args, h.tasked.step hdaemon, fun t' c' htc => ?_⟩
    rcases List.mem_append.mp htc with hold | hnew
    · obtain ⟨hforward, hsends⟩ := h.carried t' c' hold
      refine ⟨hforward, fun call' hcall' htool' => ?_⟩
      obtain ⟨a, d, hd, hsend⟩ := hsends call' hcall' htool'
      exact ⟨a, d, hd, hsend.step hdaemon⟩
    · cases List.mem_singleton.mp hnew
      refine ⟨⟨f, hf, hfor⟩, fun call' hcall' htool' => ?_⟩
      cases hcall.symm.trans hcall'
      rw [h.args f hf call (hfor ▸ hcall)] at hoperation
      obtain ⟨a, d, rfl, hd⟩ := draftId_of_operation htool' hoperation
      exact ⟨a, d, hd, .start h.tasked hdaemon⟩
  | @daemon a daemon hdaemon =>
    refine ⟨h.bridge, h.args, h.tasked.step hdaemon, fun t c htc => ?_⟩
    obtain ⟨hforward, hsends⟩ := h.carried t c htc
    refine ⟨hforward, fun call hcall htool => ?_⟩
    obtain ⟨a, d, hd, hsend⟩ := hsends call hcall htool
    exact ⟨a, d, hd, hsend.step hdaemon⟩

/-! ## Where the content comes from -/

/-- The stage works on what `p` holds. -/
def Carries (p : Prepared) : SendStage → Prop
  | .credential q | .attachments q _ _ | .content q _ _ _ _ _ => q = p
  | .smtp r | .accepted r => ∃ credential messageId attachments,
    r = p.request credential messageId attachments
  | _ => False

theorem carries_next {p q : Prepared} {c : Imap.MailCredential} {m : String}
    {loaded : List Daemon.Drafts.MimeAttachment} {rows : List Daemon.Drafts.AttachmentRow}
    (h : q = p) : Carries p (.next q c m loaded rows) := by
  subst h
  cases rows with
  | nil => exact ⟨c, m, loaded, rfl⟩
  | cons row rows => rfl

/-- A stage in use has just read the draft, or it works on what it worked on before. -/
theorem carries_of_moves {db : Daemon.Drafts.Db} {a d : Uuid} {stage stage' : SendStage}
    {outcome : Outcome} {change : Change} (h : Moves db a d stage outcome stage' change)
    (hstage' : stage'.holds = true) :
    (∃ account draft p, outcome = .done ∧ db.getDraft d = some draft ∧
      prepare a account draft = .ok p ∧ Carries p stage') ∨
    stage.holds = true ∧ ∀ p, Carries p stage → Carries p stage' := by
  cases h with
  | readsDraft hdraft hprepare => exact .inl ⟨_, _, _, rfl, hdraft, hprepare, rfl⟩
  | credential => exact .inr ⟨rfl, fun _ hp => hp⟩
  | lists => exact .inr ⟨rfl, fun _ hp => carries_next hp⟩
  | loads => exact .inr ⟨rfl, fun _ hp => carries_next hp⟩
  | accepts => exact .inr ⟨rfl, fun _ hp => hp⟩
  | _ => cases hstage'

section Reads

variable (crates) (s₀ : System)

/-- Among `events` is the step in which task `t` reads draft `d`, and `p` is made of the
row it finds. -/
def ReadAt (events : List Event) (t : Nat) (a d : Uuid) (p : Prepared) : Prop :=
  ∃ mid rest s account draft, events = mid ++ .daemon (.resume t .done) :: rest ∧
    run (step crates) s₀ mid = some s ∧ s.daemon.db.getDraft d = some draft ∧
    prepare a account draft = .ok p

/-- What task `t` uses and what it has submitted was read among `events`. -/
structure Reads (events : List Event) (s : System) (t : Nat) : Prop where
  used : ∀ a d stage, s.daemon.tasks t = some (.send a d stage) → stage.holds = true →
    ∃ p, Carries p stage ∧ ReadAt crates s₀ events t a d p
  sent : ∀ sub ∈ s.daemon.submissions, sub.task = t → sub ∈ s₀.daemon.submissions ∨
    ∃ a p credential messageId attachments,
      sub.request = p.request credential messageId attachments ∧
      ReadAt crates s₀ events t a sub.draftId p

variable {crates s₀} {events : List Event} {t : Nat}

theorem ReadAt.later {a d : Uuid} {p : Prepared} (h : ReadAt crates s₀ events t a d p)
    (e : Event) : ReadAt crates s₀ (events ++ [e]) t a d p := by
  obtain ⟨mid, rest, s, account, draft, rfl, hrest⟩ := h
  exact ⟨mid, rest ++ [e], s, account, draft, by simp, hrest⟩

theorem Reads.later (h : Reads crates s₀ events s t) (e : Event)
    (hdaemon : s'.daemon = s.daemon) : Reads crates s₀ (events ++ [e]) s' t := by
  constructor
  · intro a d stage htask hholds
    rw [hdaemon] at htask
    obtain ⟨p, hp, hread⟩ := h.used a d stage htask hholds
    exact ⟨p, hp, hread.later e⟩
  · intro sub hsub hsubt
    rw [hdaemon] at hsub
    rcases h.sent sub hsub hsubt with hold | ⟨a, p, c, m, atts, hrequest, hread⟩
    · exact .inl hold
    · exact .inr ⟨a, p, c, m, atts, hrequest, hread.later e⟩

/-- A task that was not there at first reads its draft before it uses it. -/
theorem Reads.step (hrun : run (System.step crates) s₀ events = some s)
    (h : Reads crates s₀ events s t) {act : Daemon.Drafts.Action} {e : Event}
    (he : ∀ outcome, act = .resume t outcome → e = .daemon (.resume t outcome))
    (hstep : Daemon.Drafts.Step s.daemon act s'.daemon) :
    Reads crates s₀ (events ++ [e]) s' t := by
  constructor
  · intro a d stage' htask' hholds
    have hkept : s.daemon.tasks t = some (.send a d stage') →
        ∃ p, Carries p stage' ∧ ReadAt crates s₀ (events ++ [e]) t a d p := by
      intro htask
      obtain ⟨p, hp, hread⟩ := h.used a d stage' htask hholds
      exact ⟨p, hp, hread.later e⟩
    generalize s'.daemon = daemon' at hstep htask'
    cases hstep with
    | arrive hfree hstart =>
      rw [Daemon.Drafts.State.setTask_tasks] at htask'
      split_ifs at htask' with heq
      · rw [Daemon.Drafts.start_not_held hstart (Option.some.inj htask')] at hholds
        cases hholds
      · exact hkept htask'
    | @resume t' outcome task task' change db htask hresume hfresh hdb =>
      rw [Daemon.Drafts.resumed_tasks] at htask'
      split_ifs at htask' with heq
      · subst heq
        cases htask'
        obtain ⟨stage, rfl, hmoves⟩ := Daemon.Drafts.resume_send hresume
        rcases carries_of_moves hmoves hholds with
          ⟨account, draft, p, rfl, hdraft, hprepare, hp⟩ | ⟨hbefore, hsame⟩
        · refine ⟨p, hp, events, [], s, account, draft, ?_, hrun, hdraft, hprepare⟩
          rw [he _ rfl]
        · obtain ⟨p, hp, hread⟩ := h.used a d stage htask hbefore
          exact ⟨p, hsame p hp, hread.later e⟩
      · exact hkept htask'
    | cancel htask =>
      rw [Daemon.Drafts.State.setTask_tasks] at htask'
      split_ifs at htask' with heq
      · cases htask'
      · exact hkept htask'
  · intro sub hsub hsubt
    rcases Daemon.Drafts.submissions_of_step hstep hsub with hold | ⟨a, htask⟩
    · rcases h.sent sub hold hsubt with hfirst | ⟨a, p, c, m, atts, hrequest, hread⟩
      · exact .inl hfirst
      · exact .inr ⟨a, p, c, m, atts, hrequest, hread.later e⟩
    · rw [hsubt] at htask
      obtain ⟨p, ⟨c, m, atts, hrequest⟩, hread⟩ := h.used a sub.draftId _ htask rfl
      exact .inr ⟨a, p, c, m, atts, hrequest, hread.later e⟩

theorem reads_of_run (hnew : s₀.daemon.tasks t = none)
    (hrun : run (System.step crates) s₀ events = some s) : Reads crates s₀ events s t := by
  refine history_invariant (System.step crates) (P := fun events s => Reads crates s₀ events s t)
    ⟨fun a d stage htask => ?_, fun sub hsub _ => .inl hsub⟩
    (fun events s e s' hevents ih hstep => ?_) hrun
  · cases hnew.symm.trans htask
  · cases step_cases hstep with
    | bridge => exact ih.later _ rfl
    | deliver hf hfor hcall hoperation hdaemon =>
      refine ih.step hevents (fun _ hact => ?_) hdaemon
      cases hact
    | daemon hdaemon => exact ih.step hevents (fun _ hact => by rw [hact]) hdaemon

end Reads

/-! ## Drafts that are not written -/

/-- No step writes the rows of draft `d`. -/
def Keeps (d : Uuid) (s : System) : Event → Prop
  | .daemon (.resume t outcome) => ∀ task task' change, s.daemon.tasks t = some task →
    task.resume s.daemon.db outcome = some (task', change) → change.draft ≠ some d
  | _ => True

theorem getDraft_of_keeps {d : Uuid} {events : List Event}
    (hguard : Guarded (step crates) (Keeps d) s events)
    (hrun : run (step crates) s events = some s') :
    s'.daemon.db.getDraft d = s.daemon.db.getDraft d := by
  refine guarded_invariant (step crates)
    (I := fun u => u.daemon.db.getDraft d = s.daemon.db.getDraft d) rfl ?_ hguard hrun
  intro u e v hu hok hstep
  cases step_cases hstep with
  | bridge => exact hu
  | deliver hf hfor hcall hoperation hdaemon =>
    cases hdaemon with
    | arrive => exact hu
  | daemon hdaemon =>
    cases hdaemon with
    | resume htask hresume hfresh hdb =>
      exact (Daemon.Drafts.apply_frame hdb (hok _ _ _ htask hresume)).1.trans hu
    | _ => exact hu

/-- The task of a call that was not carried yet has not arrived yet. -/
theorem carried_cases {events : List Event} (hrun : run (step crates) s events = some s')
    {t c : Nat} (h : (t, c) ∈ s'.carried) : (t, c) ∈ s.carried ∨ s.daemon.tasks t = none := by
  have hinv := invariant (step crates) (I := fun u =>
      (∀ task, s.daemon.tasks t = some task → ∃ task', u.daemon.tasks t = some task') ∧
      ((t, c) ∈ u.carried → (t, c) ∈ s.carried ∨ s.daemon.tasks t = none))
    ⟨fun task htask => ⟨task, htask⟩, fun hmem => .inl hmem⟩
    (fun u e v hu hstep => ?_) hrun
  · exact hinv.2 h
  · obtain ⟨hstays, hcarried⟩ := hu
    cases step_cases hstep with
    | bridge => exact ⟨hstays, hcarried⟩
    | @deliver c' t' f call operation daemon hf hfor hcall hoperation hdaemon =>
      refine ⟨fun task htask => ?_, fun hmem => ?_⟩
      · obtain ⟨task', htask'⟩ := hstays task htask
        exact task_stays htask' hdaemon
      · rcases List.mem_append.mp hmem with hold | hnew
        · exact hcarried hold
        · cases List.mem_singleton.mp hnew
          refine .inr (Option.eq_none_iff_forall_ne_some.mpr fun task htask => ?_)
          obtain ⟨task', htask'⟩ := hstays task htask
          cases hdaemon with
          | arrive hfree => cases hfree.symm.trans htask'
    | daemon hdaemon =>
      refine ⟨fun task htask => ?_, hcarried⟩
      obtain ⟨task', htask'⟩ := hstays task htask
      exact task_stays htask' hdaemon

/-! ## The approved send -/

/-- A call that still asks for its approval has sent nothing. -/
theorem not_carried_of_created (h : Linked crates s) {c t : Nat} {id : Uuid}
    (hcreate : step crates s (.bridge (.createApproval c id)) = some s') :
    (t, c) ∉ s'.carried := by
  intro hmem
  cases step_cases hcreate with
  | bridge hbridge =>
    obtain ⟨⟨f, hf, rfl⟩, -⟩ := h.carried t c hmem
    cases hbridge with
    | @createApproval _ _ call _ hcall hstage =>
      have hsent := (h.bridge.calls f.call call hcall).sent
      unfold Bridge.SentOk at hsent
      rw [hstage] at hsent
      have hpos : 0 < Bridge.sent s.bridge f.call :=
        List.countP_pos_iff.mpr ⟨f, hf, decide_eq_true rfl⟩
      exact absurd hpos (by rw [hsent]; exact Nat.lt_irrefl 0)

/-- Let a `postblox_message_send` call have created its approval, which was allowed later,
and let a message be submitted for it. The approval names the draft that was submitted.
The message is rendered from the row that the forwarded request has read after the
approval was created; and if no step in between writes that draft, the row is the one
stored when the approval was created and at every moment until it was read. -/
theorem approved_send_submits_named_draft {gates : List McpGate} {db : Daemon.Drafts.Db}
    {before after : List Event} {c t : Nat} {id : Uuid} {s₁ s₂ : System} {call : Bridge.Call}
    {sub : Daemon.Drafts.Submission}
    (hbefore : run (step crates) (System.init gates db) before = some s₁)
    (hcreate : step crates s₁ (.bridge (.createApproval c id)) = some s₂)
    (hafter : run (step crates) s₂ after = some s)
    (hcall : s.bridge.calls c = some call) (htool : call.tool = .messageSend)
    (happroval : call.approval = some id) (hallowed : call.waited = some .allowed)
    (hcarried : (t, c) ∈ s.carried) (hsub : sub ∈ s.daemon.submissions) (hsubt : sub.task = t) :
    (∃ row, s.bridge.approvals id = some row ∧ row.state = .allowed ∧
      parseId crates row.args "draft_id" = .ok sub.draftId) ∧
    ∃ mid rest s₃ a account draft p credential messageId attachments,
      after = mid ++ .daemon (.resume t .done) :: rest ∧
      run (step crates) s₂ mid = some s₃ ∧
      s₃.daemon.db.getDraft sub.draftId = some draft ∧ prepare a account draft = .ok p ∧
      sub.request = p.request credential messageId attachments ∧
      (Guarded (step crates) (Keeps sub.draftId) s₂ mid →
        ∀ front back u, mid = front ++ back → run (step crates) s₂ front = some u →
          u.daemon.db.getDraft sub.draftId = some draft) := by
  have hlinked₁ : Linked crates s₁ := invariant (step crates) (Linked.init gates db)
    (fun _ _ _ h hstep => h.step (step_cases hstep)) hbefore
  have hlinked₂ : Linked crates s₂ := hlinked₁.step (step_cases hcreate)
  have hlinked : Linked crates s := invariant (step crates) hlinked₂
    (fun _ _ _ h hstep => h.step (step_cases hstep)) hafter
  have hok := hlinked.bridge.calls c call hcall
  constructor
  · obtain ⟨id', hid', -, row, hrow, hstate⟩ := hok.waited .allowed hallowed
    cases happroval.symm.trans hid'
    obtain ⟨-, row', hrow', -, hargs⟩ := hok.owned id happroval
    cases hrow.symm.trans hrow'
    obtain ⟨a, d, hd, hsends⟩ := (hlinked.carried t c hcarried).2 call hcall htool
    refine ⟨row, hrow, hstate, ?_⟩
    rw [hargs, hsends.2 sub hsub hsubt]
    exact hd
  · have hnew : s₂.daemon.tasks t = none := by
      rcases carried_cases hafter hcarried with hold | hnone
      · exact absurd hold (not_carried_of_created hlinked₁ hcreate)
      · exact hnone
    rcases (reads_of_run hnew hafter).sent sub hsub hsubt with
      hold | ⟨a, p, c', m, atts, hrequest, mid, rest, s₃, account, draft, hsplit, hmid, hdraft, hprepare⟩
    · obtain ⟨task, htask⟩ := hlinked₂.tasked sub hold
      rw [hsubt, hnew] at htask
      cases htask
    · refine ⟨mid, rest, s₃, a, account, draft, p, c', m, atts, hsplit, hmid, hdraft, hprepare,
        hrequest, fun hguard front back u hmid' hu => ?_⟩
      rw [hmid'] at hguard
      have hfront := getDraft_of_keeps (guarded_append (step crates) hguard hu).1 hu
      have hwhole := getDraft_of_keeps (hmid' ▸ hguard) hmid
      rw [hfront, ← hwhole]
      exact hdraft

/-! ## Runs -/

open Json (Value)
open Daemon.Drafts (sampleId sampleDraft sampleDb)

/-- Session 0 asks to send the sample draft, up to the creation of its approval. -/
def askRun : List Event :=
  [.bridge (.callTool 0 "postblox_message_send" (.object
      [("account_id", .string "11111111-1111-1111-1111-111111111111"),
        ("draft_id", .string "22222222-2222-2222-2222-222222222222")])),
    .bridge (.serve 0), .bridge (.resume 0)]

/-- A human allows it while the bridge waits, and the request is delivered. -/
def allowRun : List Event :=
  [.bridge (.resume 0), .bridge (.subscribe 0), .bridge (.resume 0), .bridge (.serve 0),
    .bridge (.resume 0),
    .bridge (.decideArrives 0 (.object [("id", .string "55555555-5555-5555-5555-555555555555"),
      ("state", .string "allowed")])),
    .bridge (.update 0 1700000000), .bridge (.fetch 0), .bridge (.publish 0), .bridge (.recv 0),
    .bridge (.send 0), .deliver 0 0]

/-- The daemon runs it up to the server's answer. -/
def submitRun : List Event :=
  [.daemon (.resume 0 .done), .daemon (.resume 0 .done),
    .daemon (.resume 0 (.credential (.password "secret") "<m@postblox.local>")),
    .daemon (.resume 0 .done), .daemon (.resume 0 .done)]

/-- Session 1 updates the draft through a gate that allows every update. -/
def updateRun : List Event :=
  [.bridge (.callTool 1 "postblox_draft_update" (.object
      [("bcc_addrs", .array []), ("cc_addrs", .array []), ("html_body", .null),
        ("id", .string "22222222-2222-2222-2222-222222222222"), ("subject", .string "new offer"),
        ("text_body", .string "text"), ("to_addrs", .array [.string "eve@example.org"])])),
    .bridge (.serve 1), .bridge (.resume 1), .bridge (.send 1), .deliver 1 1,
    .daemon (.resume 1 (.files none)), .daemon (.resume 1 (.minted []))]

def updateGates : List McpGate := [⟨sampleId 4, "postblox_draft_update", none, .autoAllow⟩]

/-- The state after the approval was requested and what becomes of it. -/
def sampleRun (events : List Event) : Option (System × System × System) := do
  let s₁ ← run (step Crates.plain) (System.init updateGates sampleDb) askRun
  let s₂ ← step Crates.plain s₁ (.bridge (.createApproval 0 (sampleId 5)))
  let s ← run (step Crates.plain) s₂ events
  return (s₁, s₂, s)

theorem sampleRun_eq {events : List Event} {s₁ s₂ s : System}
    (h : sampleRun events = some (s₁, s₂, s)) :
    run (step Crates.plain) (System.init updateGates sampleDb) askRun = some s₁ ∧
      step Crates.plain s₁ (.bridge (.createApproval 0 (sampleId 5))) = some s₂ ∧
      run (step Crates.plain) s₂ events = some s := by
  simp only [sampleRun, Option.bind_eq_bind, Option.bind_eq_some_iff] at h
  obtain ⟨x₁, hx₁, x₂, hx₂, x, hx, h⟩ := h
  cases h
  exact ⟨hx₁, hx₂, hx⟩

/-- What call 0 asked for, what its wait returned, and what was submitted for it. -/
def asked (s : System) : Option (Tools.Tool × Option Uuid × Option ApprovalState) :=
  (s.bridge.calls 0).map fun call => (call.tool, call.approval, call.waited)

def sentBy (s : System) : List (Nat × Uuid × List String × String) :=
  s.daemon.submissions.map fun sub =>
    (sub.task, sub.draftId, sub.request.recipients, sub.request.mime.subject)

/-- One session alone: what it submits is the row it has read. -/
theorem approved_send_submits_named_draft_alone :
    ∃ s₁ s₂ s sub row draft, sampleRun (allowRun ++ submitRun) = some (s₁, s₂, s) ∧
      s.daemon.submissions = [sub] ∧ s.bridge.approvals (sampleId 5) = some row ∧
      parseId Crates.plain row.args "draft_id" = .ok sub.draftId ∧
      ∃ a account p credential messageId attachments, prepare a account draft = .ok p ∧
        sub.request = p.request credential messageId attachments := by
  obtain ⟨⟨s₁, s₂, s⟩, hs⟩ : ∃ x, sampleRun (allowRun ++ submitRun) = some x :=
    Option.isSome_iff_exists.mp (by decide)
  have hasked : (sampleRun (allowRun ++ submitRun)).map (fun x => asked x.2.2) =
      some (some (.messageSend, some (sampleId 5), some .allowed)) := by decide
  have hsent : (sampleRun (allowRun ++ submitRun)).map (fun x => sentBy x.2.2) =
      some [(0, sampleId 2, ["bob@example.org"], "offer")] := by decide
  have hpairs : (sampleRun (allowRun ++ submitRun)).map (fun x => x.2.2.carried) =
      some [(0, 0)] := by decide
  rw [hs] at hasked hsent hpairs
  have hcarried : s.carried = [(0, 0)] := Option.some.inj hpairs
  obtain ⟨call, hcall, hlocals⟩ := Option.map_eq_some_iff.mp (Option.some.inj hasked)
  obtain ⟨htool, hlocals⟩ := Prod.mk.inj hlocals
  obtain ⟨happroval, hwaited⟩ := Prod.mk.inj hlocals
  obtain ⟨sub, hone, hsub⟩ := List.map_eq_singleton_iff.mp (Option.some.inj hsent)
  obtain ⟨hbefore, hcreate, hafter⟩ := sampleRun_eq hs
  obtain ⟨⟨row, hrow, -, hid⟩, -, -, -, a, account, draft, p, credential, messageId, attachments,
      -, -, -, hprepare, hrequest, -⟩ :=
    approved_send_submits_named_draft hbefore hcreate hafter hcall htool happroval hwaited
      (hcarried ▸ List.mem_cons_self) (hone ▸ List.mem_cons_self) (Prod.mk.inj hsub).1
  exact ⟨s₁, s₂, s, sub, row, draft, hs, hone, hrow, hid, a, account, p, credential, messageId,
    attachments, hprepare, hrequest⟩

/-- Between the request and the decision another session rewrites the draft; the send that
was allowed goes to another address with another subject. -/
theorem approved_send_submits_other_content :
    ∃ s₁ s₂ s, sampleRun (updateRun ++ allowRun ++ submitRun) = some (s₁, s₂, s) ∧
      s₂.daemon.db.getDraft (sampleId 2) = some sampleDraft ∧
      asked s = some (.messageSend, some (sampleId 5), some .allowed) ∧ (0, 0) ∈ s.carried ∧
      sampleDraft.toAddrs = ["bob@example.org"] ∧ sampleDraft.subject = some "offer" ∧
      sentBy s = [(0, sampleId 2, ["eve@example.org"], "new offer")] := by
  obtain ⟨⟨s₁, s₂, s⟩, hs⟩ : ∃ x, sampleRun (updateRun ++ allowRun ++ submitRun) = some x :=
    Option.isSome_iff_exists.mp (by decide)
  have hasked : (sampleRun (updateRun ++ allowRun ++ submitRun)).map (fun x => asked x.2.2) =
      some (some (.messageSend, some (sampleId 5), some .allowed)) := by decide
  have hsent : (sampleRun (updateRun ++ allowRun ++ submitRun)).map (fun x => sentBy x.2.2) =
      some [(0, sampleId 2, ["eve@example.org"], "new offer")] := by decide
  have hrest : (sampleRun (updateRun ++ allowRun ++ submitRun)).map (fun x =>
      (x.2.1.daemon.db.getDraft (sampleId 2), x.2.2.carried)) =
      some (some sampleDraft, [(1, 1), (0, 0)]) := by decide
  rw [hs] at hasked hsent hrest
  obtain ⟨hdraft, hcarried⟩ := Prod.mk.inj (Option.some.inj hrest)
  refine ⟨s₁, s₂, s, hs, hdraft, Option.some.inj hasked, ?_, rfl, rfl, Option.some.inj hsent⟩
  rw [hcarried]
  exact List.mem_cons_of_mem _ List.mem_cons_self

end System

end Postblox.Mcp
