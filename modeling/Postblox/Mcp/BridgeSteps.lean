import Postblox.Mcp.Bridge

/-!
# The transitions of the bridge system, one by one

`Step` lists what each action can do with its guards; `step_cases` says that the
executable `step` does nothing else. Every invariant is proved by cases on
`Step`.
-/
namespace Postblox.Mcp.Bridge

open Json (Value)
open Tools

variable (crates : Crates)

/-- The row `db::mcp::decide` writes. -/
def decidedRow (row : McpApproval) (request : DecideRequest) (now : Int) : McpApproval :=
  { row with
    state := request.state, decidedAt := some now, decidedBy := some request.decidedBy }

def State.setApproval (s : State) (id : Uuid) (row : McpApproval) : State :=
  { s with approvals := Function.update s.approvals id (some row) }

inductive Step (s : State) : Action → State → Prop where
  | callTool {c : Nat} {name : String} {arguments args : Value} {tool : Tool}
      (hnew : s.calls c = none) (hfind : findTool name = some tool)
      (hvalid : validateArguments crates tool arguments = .ok args) :
      Step s (.callTool c name arguments) (s.setCall c (Call.start tool args))
  | serve {c : Nat} {call : Call} {reply : Reply} (hcall : s.calls c = some call)
      (hreply : call.reply = none) (hread : s.read call = some reply) :
      Step s (.serve c) (s.setCall c { call with reply := some (.ok reply) })
  | createApproval {c : Nat} {id : Uuid} {call : Call} {row : McpApproval}
      (hcall : s.calls c = some call) (hstage : call.stage = .createApproval)
      (hfresh : s.approvals id = none)
      (hrow : row = pendingRow id call.tool.name call.args
        (approvalSummary crates call.tool call.args)) :
      Step s (.createApproval c id) ((s.addApproval row (some c)).setCall c
        { call with reply := some (.ok (.approval (some row))) })
  | subscribe {c : Nat} {id : Uuid} {call : Call} (hcall : s.calls c = some call)
      (hstage : call.stage = .subscribe id) :
      Step s (.subscribe c)
        ((s.setSub c ⟨[], true⟩).setCall c { call with reply := some (.ok .subscribed) })
  | expireRejected {c t : Nat} {id : Uuid} {call : Call} {e : RpcError}
      (hcall : s.calls c = some call) (hstage : call.stage = .expire id) :
      Step s (.expireArrives c t) (s.setCall c { call with reply := some (.error (.ofRpc e)) })
  | expireArrives {c t : Nat} {id : Uuid} {call : Call} {request : DecideRequest}
      (hcall : s.calls c = some call) (hstage : call.stage = .expire id)
      (hfresh : s.tasks t = none) (hrequest : decodeDecide crates (expireArgs id) = .ok request) :
      Step s (.expireArrives c t)
        ((s.setTask t (DecideTask.start request)).setCall c (call.goto (.expiring id t)))
  | expireReply {c t : Nat} {id : Uuid} {call : Call} {task : DecideTask}
      {reply : Except RpcError Bool} (hcall : s.calls c = some call)
      (hstage : call.stage = .expiring id t) (htask : s.tasks t = some task)
      (hphase : task.phase = .answered reply) :
      Step s (.expireReply c) (s.setCall c { call with reply := some (answerWith .decided reply) })
  | send {c : Nat} {call : Call} (hcall : s.calls c = some call)
      (hstage : call.stage = .forwardReady) :
      Step s (.send c) { s.setCall c (call.goto .forwarding) with
        forwards := s.forwards ++ [⟨c, call.tool.op, call.forwardArgs⟩] }
  | toolReply {c : Nat} {call : Call} {reply : Except RpcError Value}
      (hcall : s.calls c = some call) (hstage : call.stage = .forwarding) :
      Step s (.toolReply c reply)
        (s.setCall c { call with reply := some (answerWith .value reply) })
  | refuse {c : Nat} {e : RpcError} {call : Call} (hcall : s.calls c = some call)
      (hstage : call.stage.isRequest = true) :
      Step s (.refuse c e) (s.setCall c { call with reply := some (.error (.ofRpc e)) })
  | lose {c : Nat} {message : String} {call : Call} (hcall : s.calls c = some call)
      (hstage : call.stage.isRequest = true) :
      Step s (.lose c message) (s.setCall c { call with reply := some (.error (.ipc message)) })
  | resume {c : Nat} {call : Call} {reply : Except BridgeError Reply}
      (hcall : s.calls c = some call) (hreply : call.reply = some reply) :
      Step s (.resume c) (s.setCall c (call.resume crates reply))
  | timeout {c : Nat} {id : Uuid} {call : Call} (hcall : s.calls c = some call)
      (hstage : call.stage = .waiting id) :
      Step s (.timeout c) (s.setCall c (call.goto (.expire id)))
  | recvEvent {c : Nat} {id : Uuid} {call : Call} {sub : Subscription} {data : Value}
      {rest : List Value} (hcall : s.calls c = some call) (hsub : s.subs c = some sub)
      (hstage : call.stage = .waiting id) (hevents : sub.events = data :: rest) :
      Step s (.recv c)
        ((s.setSub c { sub with events := rest }).setCall c (call.afterEvent crates id data))
  | recvNone {c : Nat} {id : Uuid} {call : Call} (hcall : s.calls c = some call)
      (hstage : call.stage = .waiting id) :
      Step s (.recv c) (s.setCall c (call.goto (.dropRead id)))
  | decideRejected {t : Nat} {args : Value} : Step s (.decideArrives t args) s
  | decideArrives {t : Nat} {args : Value} {request : DecideRequest} (hfresh : s.tasks t = none)
      (hrequest : decodeDecide crates args = .ok request) :
      Step s (.decideArrives t args) (s.setTask t (DecideTask.start request))
  | updateWins {t : Nat} {now : Int} {task : DecideTask} {row : McpApproval}
      (htask : s.tasks t = some task) (hphase : task.phase = .received)
      (hrow : s.approvals task.request.id = some row) (hpending : row.state = .pending) :
      Step s (.update t now)
        ((s.setApproval task.request.id (decidedRow row task.request now)).setTask t
          { task with phase := .updated true, changed := some true })
  | updateLoses {t : Nat} {now : Int} {task : DecideTask} (htask : s.tasks t = some task)
      (hphase : task.phase = .received)
      (hrow : ∀ row, s.approvals task.request.id = some row → row.state ≠ .pending) :
      Step s (.update t now)
        (s.setTask t { task with phase := .updated false, changed := some false })
  | fetchRow {t : Nat} {task : DecideTask} (htask : s.tasks t = some task)
      (hphase : task.phase = .updated true) :
      Step s (.fetch t)
        (s.setTask t { task with phase := .fetched (s.approvals task.request.id) })
  | fetchSkipped {t : Nat} {task : DecideTask} (htask : s.tasks t = some task)
      (hphase : task.phase = .updated false) :
      Step s (.fetch t) (s.setTask t { task with phase := .answered (.ok false) })
  | publishRow {t : Nat} {task : DecideTask} {row : McpApproval} (htask : s.tasks t = some task)
      (hphase : task.phase = .fetched (some row)) :
      Step s (.publish t) ((s.publish t (decidedEvent row)).setTask t
        { task with phase := .answered (.ok true) })
  | publishNone {t : Nat} {task : DecideTask} (htask : s.tasks t = some task)
      (hphase : task.phase = .fetched none) :
      Step s (.publish t) (s.setTask t { task with phase := .answered (.ok true) })
  | dbFails {t : Nat} {message : String} {task : DecideTask} (htask : s.tasks t = some task)
      (hphase : task.phase = .received ∨ task.phase = .updated true) :
      Step s (.dbFails t message)
        (s.setTask t { task with phase := .answered (.error ⟨.internal, message⟩) })
  | lag {c skip missed : Nat} {sub : Subscription} (hsub : s.subs c = some sub) :
      Step s (.lag c skip missed) (s.setSub c { sub with
        events := sub.events.take skip ++ laggedEvent missed :: sub.events.drop (skip + missed) })
  | dropSubscription {c keep : Nat} {sub : Subscription} (hsub : s.subs c = some sub) :
      Step s (.dropSubscription c keep) (s.setSub c ⟨sub.events.take keep, false⟩)
  | otherApproval {id : Uuid} {tool summary : String} {args : Value}
      (hfresh : s.approvals id = none) :
      Step s (.otherApproval id tool args summary)
        (s.addApproval (pendingRow id tool args summary) none)
  | setGates {gates : List McpGate} : Step s (.setGates gates) { s with gates := gates }

theorem step_cases {s s' : State} {a : Action} (h : step crates s a = some s') :
    Step crates s a s' := by
  cases a with
  | callTool c name arguments =>
    simp only [step] at h
    split_ifs at h with hnew
    simp only [Option.bind_eq_bind, Option.bind_eq_some_iff] at h
    obtain ⟨tool, hfind, h⟩ := h
    split at h
    · cases h
    · next args hvalid =>
      cases h
      exact .callTool (by simpa using hnew) hfind hvalid
  | serve c =>
    simp only [step, Option.bind_eq_bind, Option.bind_eq_some_iff] at h
    obtain ⟨call, hcall, h⟩ := h
    split_ifs at h with hreply
    obtain ⟨reply, hread, h⟩ := Option.bind_eq_some_iff.mp h
    cases h
    exact .serve hcall (by simpa using hreply) hread
  | createApproval c id =>
    simp only [step, Option.bind_eq_bind, Option.bind_eq_some_iff] at h
    obtain ⟨call, hcall, h⟩ := h
    split at h
    · next hstage _ hfresh =>
      cases h
      exact .createApproval hcall hstage hfresh rfl
    · cases h
  | subscribe c =>
    simp only [step, Option.bind_eq_bind, Option.bind_eq_some_iff] at h
    obtain ⟨call, hcall, h⟩ := h
    split at h
    · next hstage _ =>
      cases h
      exact .subscribe hcall hstage
    · cases h
  | expireArrives c t =>
    simp only [step, Option.bind_eq_bind, Option.bind_eq_some_iff] at h
    obtain ⟨call, hcall, h⟩ := h
    split at h
    · next hstage _ hfresh =>
      split at h
      · cases h
        exact .expireRejected hcall hstage
      · next request hrequest =>
        cases h
        exact .expireArrives hcall hstage hfresh hrequest
    · cases h
  | expireReply c =>
    simp only [step, Option.bind_eq_bind, Option.bind_eq_some_iff] at h
    obtain ⟨call, hcall, h⟩ := h
    split at h
    · next hstage _ =>
      obtain ⟨task, htask, h⟩ := Option.bind_eq_some_iff.mp h
      split at h
      · next reply hphase =>
        cases h
        exact .expireReply hcall hstage htask hphase
      · cases h
    · cases h
  | send c =>
    simp only [step, Option.bind_eq_bind, Option.bind_eq_some_iff] at h
    obtain ⟨call, hcall, h⟩ := h
    split at h
    · next hstage =>
      cases h
      exact .send hcall hstage
    · cases h
  | toolReply c reply =>
    simp only [step, Option.bind_eq_bind, Option.bind_eq_some_iff] at h
    obtain ⟨call, hcall, h⟩ := h
    split at h
    · next hstage _ =>
      cases h
      exact .toolReply hcall hstage
    · cases h
  | refuse c e =>
    simp only [step, Option.bind_eq_bind, Option.bind_eq_some_iff] at h
    obtain ⟨call, hcall, h⟩ := h
    split_ifs at h with hstage
    cases h
    exact .refuse hcall hstage.1
  | lose c message =>
    simp only [step, Option.bind_eq_bind, Option.bind_eq_some_iff] at h
    obtain ⟨call, hcall, h⟩ := h
    split_ifs at h with hstage
    cases h
    exact .lose hcall hstage
  | resume c =>
    simp only [step, Option.bind_eq_bind, Option.bind_eq_some_iff] at h
    obtain ⟨call, hcall, reply, hreply, h⟩ := h
    cases h
    exact .resume hcall hreply
  | timeout c =>
    simp only [step, Option.bind_eq_bind, Option.bind_eq_some_iff] at h
    obtain ⟨call, hcall, h⟩ := h
    split at h
    · next hstage =>
      cases h
      exact .timeout hcall hstage
    · cases h
  | recv c =>
    simp only [step, Option.bind_eq_bind, Option.bind_eq_some_iff] at h
    obtain ⟨call, hcall, sub, hsub, h⟩ := h
    split at h
    · next hstage hevents =>
      cases h
      exact .recvEvent hcall hsub hstage hevents
    · next hstage _ =>
      split_ifs at h
      cases h
      exact .recvNone hcall hstage
    · cases h
  | decideArrives t args =>
    simp only [step] at h
    split_ifs at h with hfresh
    split at h
    · cases h
      exact .decideRejected
    · next request hrequest =>
      cases h
      exact .decideArrives (by simpa using hfresh) hrequest
  | update t now =>
    simp only [step, Option.bind_eq_bind, Option.bind_eq_some_iff] at h
    obtain ⟨task, htask, h⟩ := h
    split at h
    · next hphase =>
      cases h
      unfold dbDecide
      split
      · next row hrow =>
        split_ifs with hpending
        · exact .updateWins htask hphase hrow hpending
        · refine .updateLoses htask hphase fun row' hrow' => ?_
          cases hrow.symm.trans hrow'
          exact hpending
      · next hrow =>
        refine .updateLoses htask hphase fun row' hrow' => ?_
        cases hrow.symm.trans hrow'
    · cases h
  | fetch t =>
    simp only [step, Option.bind_eq_bind, Option.bind_eq_some_iff] at h
    obtain ⟨task, htask, h⟩ := h
    split at h
    · next hphase =>
      cases h
      exact .fetchRow htask hphase
    · next hphase =>
      cases h
      exact .fetchSkipped htask hphase
    · cases h
  | publish t =>
    simp only [step, Option.bind_eq_bind, Option.bind_eq_some_iff] at h
    obtain ⟨task, htask, h⟩ := h
    split at h
    · next hphase =>
      cases h
      exact .publishRow htask hphase
    · next hphase =>
      cases h
      exact .publishNone htask hphase
    · cases h
  | dbFails t message =>
    simp only [step, Option.bind_eq_bind, Option.bind_eq_some_iff] at h
    obtain ⟨task, htask, h⟩ := h
    split at h
    · next hphase =>
      cases h
      exact .dbFails htask (.inl hphase)
    · next hphase =>
      cases h
      exact .dbFails htask (.inr hphase)
    · cases h
  | lag c skip missed =>
    simp only [step, Option.bind_eq_bind, Option.bind_eq_some_iff] at h
    obtain ⟨sub, hsub, h⟩ := h
    split_ifs at h
    cases h
    exact .lag hsub
  | dropSubscription c keep =>
    simp only [step, Option.bind_eq_bind, Option.bind_eq_some_iff] at h
    obtain ⟨sub, hsub, h⟩ := h
    cases h
    exact .dropSubscription hsub
  | otherApproval id tool args summary =>
    simp only [step] at h
    split_ifs at h with hfresh
    cases h
    exact .otherApproval (by simpa using hfresh)
  | setGates gates =>
    cases h
    exact .setGates

end Postblox.Mcp.Bridge
