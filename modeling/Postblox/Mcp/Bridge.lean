import Postblox.Daemon.Args
import Postblox.Lib.Machine

/-!
# The bridge, the daemon's approval ops and everything that interleaves

`McpBridge::call_tool` is one state machine per call: each `.await` is a stage,
the daemon answers a stage's request in one step and the bridge resumes on the
reply in another. A decide request is a task of its own with a step for the
`UPDATE`, one for the re-read and one for the publication. Replies may be lost,
subscriptions may lag or drop, and other clients create and decide approvals and
edit the gates at any time.
-/
namespace Postblox.Mcp.Bridge

open Json (Value)
open Tools
open Daemon.Args (parseId parseStr actorFromArgs actorIsAllowed)

/-! ## Messages -/

inductive BridgeError where
  | daemon (code message : String)
  | badDaemonResponse (message : String)
  | ipc (message : String)

def BridgeError.ofRpc (e : RpcError) : BridgeError := .daemon e.code.asStr e.message

inductive Reply where
  | gates (gates : List McpGate)
  | approval (row : Option McpApproval)
  | subscribed
  | decided (changed : Bool)
  | value (v : Value)

/-- A daemon response as the bridge sees it. -/
def answerWith {α : Type} (f : α → Reply) : Except RpcError α → Except BridgeError Reply
  | .ok a => .ok (f a)
  | .error e => .error (.ofRpc e)

/-- The payload of `mcp.approval_decided`, its keys in map order. -/
def decidedEvent (row : McpApproval) : Value :=
  .object
    [("approval_id", .string row.id.hyphenated),
      ("decided_by", match row.decidedBy with | some actor => .string actor | none => .null),
      ("state", .string row.state.asStr),
      ("tool", .string row.tool)]

def laggedEvent (n : Nat) : Value := .object [("lagged", .number (.posInt (UInt64.ofNat n)))]

/-- A subscription's events in flight; `live` until its transport breaks. -/
structure Subscription where
  events : List Value
  live : Bool

/-! ## The call -/

/-- Where `call_tool` stands. A stage up to `forwarding` other than `waiting` and
`forwardReady` is a request to the daemon that has not been answered to the bridge. -/
inductive Stage where
  | gateDecision
  | createApproval
  | subscribe (id : Uuid)
  | firstRead (id : Uuid)
  | waiting (id : Uuid)
  | lagRead (id : Uuid)
  | dropRead (id : Uuid)
  | expire (id : Uuid)
  | expiring (id : Uuid) (task : Nat)
  | expireRead (id : Uuid)
  | forwardReady
  | forwarding
  | finished (result : Except BridgeError Value)

/-- `gates`, `approval` and `waited` are locals of the functions below: the reply
of `mcp.gate.list`, the id of the created row and the `Ok` of `wait_for_approval`. -/
structure Call where
  tool : Tool
  args : Value
  stage : Stage
  reply : Option (Except BridgeError Reply)
  gates : Option (List McpGate)
  approval : Option Uuid
  waited : Option ApprovalState

section Bridge

variable (crates : Crates)

def approvalSummary (tool : Tool) (arguments : Value) : String :=
  let fields := ["account_id", "draft_id", "id", "subject"].filterMap
    fun key => (arguments.get key).map fun value => (key, value)
  if fields.isEmpty then s!"MCP tool {tool.name} requested"
  else s!"MCP tool {tool.name} requested with {crates.toText (.object fields)}"

def matchDecidedEvent (id : Uuid) (data : Value) : Option ApprovalState := do
  let payload ← data.asObject
  let eventId ← (payload.lookup "approval_id").bind Value.asStr
  let parsed ← crates.uuid.parseStr eventId
  if parsed ≠ id then none
  else
    let state ← (payload.lookup "state").bind Value.asStr
    ApprovalState.fromStr state

def eventIsLagged (data : Value) : Bool :=
  data.asObject.any fun payload => (payload.lookup "lagged").isSome

namespace Call

def start (tool : Tool) (args : Value) : Call where
  tool := tool
  args := args
  stage := if tool.dangerous then .gateDecision else .forwardReady
  reply := none
  gates := none
  approval := none
  waited := none

/-- The bridge moves on: the reply is consumed. -/
def goto (call : Call) (stage : Stage) : Call := { call with stage := stage, reply := none }

def refused (call : Call) (code message : String) : Call :=
  call.goto (.finished (.error (.daemon code message)))

def afterGateDecision (call : Call) (gates : List McpGate) : Call :=
  let call := { call with gates := some gates }
  match Gates.decide crates gates call.args with
  | .autoAllow _ => call.goto .forwardReady
  | .deny _ => call.refused "gate_denied" s!"MCP gate denied {call.tool.name}"
  | .require _ => call.goto .createApproval

/-- `call_after_required_approval` once `wait_for_approval` has returned `Ok`. -/
def afterWait (call : Call) (id : Uuid) (state : ApprovalState) : Call :=
  let call := { call with waited := some state }
  match state with
  | .allowed => call.goto .forwardReady
  | .denied => call.refused "approval_denied" s!"MCP approval {id.hyphenated} was denied"
  | .expired => call.refused "approval_expired" s!"MCP approval {id.hyphenated} expired"
  | .pending => call.refused "approval_timeout" s!"MCP approval {id.hyphenated} timed out"

/-- A read inside `wait_for_approval`: a decided row ends the wait. -/
def afterRead (call : Call) (id : Uuid) (row : McpApproval) (stage : Stage) : Call :=
  if row.state ≠ .pending then call.afterWait id row.state else call.goto stage

def approvalMissing (call : Call) (id : Uuid) : Call :=
  call.goto (.finished (.error (.badDaemonResponse s!"approval {id.hyphenated} not found")))

/-- One continuation of `call_tool` per stage. -/
def resume (call : Call) : Except BridgeError Reply → Call
  | .error e => call.goto (.finished (.error e))
  | .ok reply =>
    match call.stage, reply with
    | .gateDecision, .gates gates => call.afterGateDecision crates gates
    | .createApproval, .approval (some row) =>
      { call with approval := some row.id }.goto (.subscribe row.id)
    | .subscribe id, .subscribed => call.goto (.firstRead id)
    | .firstRead id, .approval (some row) => call.afterRead id row (.waiting id)
    | .lagRead id, .approval (some row) => call.afterRead id row (.waiting id)
    | .dropRead id, .approval (some row) => call.afterRead id row (.expire id)
    | .expireRead id, .approval (some row) => call.afterWait id row.state
    | .firstRead id, .approval none | .lagRead id, .approval none
    | .dropRead id, .approval none | .expireRead id, .approval none => call.approvalMissing id
    | .expiring id _, .decided true => call.afterWait id .expired
    | .expiring id _, .decided false => call.goto (.expireRead id)
    | .forwarding, .value v => call.goto (.finished (.ok v))
    | _, _ => call.goto (.finished (.error (.badDaemonResponse "unexpected reply")))

/-- The event arm of the `select!` in `wait_for_approval`. -/
def afterEvent (call : Call) (id : Uuid) (data : Value) : Call :=
  match matchDecidedEvent crates id data with
  | some state => call.afterWait id state
  | none => if eventIsLagged data then call.goto (.lagRead id) else call

def forwardArgs (call : Call) : Value :=
  if call.tool.dangerous then withActor call.tool call.args else call.args

end Call

end Bridge

/-! ## The decide op -/

structure DecideRequest where
  id : Uuid
  state : ApprovalState
  decidedBy : String

def decodeDecide (crates : Crates) (args : Value) : Except RpcError DecideRequest := do
  let id ← parseId crates args "id"
  let text ← parseStr args "state"
  match ApprovalState.fromStr text with
  | none => throw (.badArgs s!"invalid ApprovalState: {text}")
  | some state =>
    if state = .pending then throw (.badArgs "'state' must be allowed, denied, or expired")
    else match (args.get "decided_by").bind Value.asStr with
      | some actor =>
        if actorIsAllowed actor then return ⟨id, state, actor⟩
        else throw (.badArgs "invalid 'decided_by'")
      | none => return ⟨id, state, actorFromArgs args⟩

/-- The arguments `expire_approval` sends. -/
def expireArgs (id : Uuid) : Value :=
  .object [("decided_by", .string "mcp:timeout"), ("id", .string id.hyphenated),
    ("state", .string "expired")]

inductive Phase where
  | received
  | updated (changed : Bool)
  | fetched (row : Option McpApproval)
  | answered (reply : Except RpcError Bool)

/-- A running `op_mcp_approval_decide`; `changed` is what `db::mcp::decide` returned. -/
structure DecideTask where
  request : DecideRequest
  phase : Phase
  changed : Option Bool

def DecideTask.start (request : DecideRequest) : DecideTask := ⟨request, .received, none⟩

/-- `UPDATE … WHERE id = ? AND state = 'pending'` and its number of rows. -/
def dbDecide (approvals : Uuid → Option McpApproval) (request : DecideRequest) (now : Int) :
    (Uuid → Option McpApproval) × Bool :=
  match approvals request.id with
  | some row =>
    if row.state = .pending then
      (Function.update approvals request.id (some { row with
        state := request.state, decidedAt := some now, decidedBy := some request.decidedBy }), true)
    else (approvals, false)
  | none => (approvals, false)

def pendingRow (id : Uuid) (tool : String) (args : Value) (summary : String) : McpApproval where
  id := id
  tool := tool
  args := args
  summary := summary
  state := .pending
  decidedAt := none
  decidedBy := none

/-! ## The system -/

/-- An op the bridge sent to the daemon on behalf of a call. -/
structure Forward where
  call : Nat
  op : Op
  args : Value

/-- `creator` remembers which call an approval row was created for, `published`
the decided events with the task that published each, and `forwards` the ops sent. -/
structure State where
  approvals : Uuid → Option McpApproval
  creator : Uuid → Option Nat
  gates : List McpGate
  calls : Nat → Option Call
  subs : Nat → Option Subscription
  tasks : Nat → Option DecideTask
  published : List (Nat × Value)
  forwards : List Forward

def State.init (gates : List McpGate) : State where
  approvals _ := none
  creator _ := none
  gates := gates
  calls _ := none
  subs _ := none
  tasks _ := none
  published := []
  forwards := []

inductive Action where
  | callTool (c : Nat) (name : String) (arguments : Value)
  | serve (c : Nat)
  | createApproval (c : Nat) (id : Uuid)
  | subscribe (c : Nat)
  | expireArrives (c t : Nat)
  | expireReply (c : Nat)
  | send (c : Nat)
  | toolReply (c : Nat) (reply : Except RpcError Value)
  | refuse (c : Nat) (e : RpcError)
  | lose (c : Nat) (message : String)
  | resume (c : Nat)
  | timeout (c : Nat)
  | recv (c : Nat)
  | decideArrives (t : Nat) (args : Value)
  | update (t : Nat) (now : Int)
  | fetch (t : Nat)
  | publish (t : Nat)
  | dbFails (t : Nat) (message : String)
  | lag (c skip missed : Nat)
  | dropSubscription (c keep : Nat)
  | otherApproval (id : Uuid) (tool : String) (args : Value) (summary : String)
  | setGates (gates : List McpGate)

namespace State

def setCall (s : State) (c : Nat) (call : Call) : State :=
  { s with calls := Function.update s.calls c (some call) }

def setSub (s : State) (c : Nat) (sub : Subscription) : State :=
  { s with subs := Function.update s.subs c (some sub) }

def setTask (s : State) (t : Nat) (task : DecideTask) : State :=
  { s with tasks := Function.update s.tasks t (some task) }

def addApproval (s : State) (row : McpApproval) (creator : Option Nat) : State :=
  { s with
    approvals := Function.update s.approvals row.id (some row)
    creator := Function.update s.creator row.id creator }

theorem setCall_calls (s : State) (c c' : Nat) (call : Call) :
    (s.setCall c call).calls c' = if c' = c then some call else s.calls c' :=
  Function.update_apply ..

theorem setSub_subs (s : State) (c c' : Nat) (sub : Subscription) :
    (s.setSub c sub).subs c' = if c' = c then some sub else s.subs c' :=
  Function.update_apply ..

theorem setTask_tasks (s : State) (t t' : Nat) (task : DecideTask) :
    (s.setTask t task).tasks t' = if t' = t then some task else s.tasks t' :=
  Function.update_apply ..

theorem addApproval_approvals (s : State) (row : McpApproval) (creator : Option Nat) (id : Uuid) :
    (s.addApproval row creator).approvals id = if id = row.id then some row else s.approvals id :=
  Function.update_apply ..

theorem addApproval_creator (s : State) (row : McpApproval) (creator : Option Nat) (id : Uuid) :
    (s.addApproval row creator).creator id = if id = row.id then creator else s.creator id :=
  Function.update_apply ..

/-- `Hub::publish`: every live subscription gets the event. -/
def publish (s : State) (t : Nat) (data : Value) : State :=
  { s with
    subs := fun c => (s.subs c).map fun sub =>
      if sub.live then { sub with events := sub.events ++ [data] } else sub
    published := s.published ++ [(t, data)] }

/-- What the daemon answers to a request that only reads. -/
def read (s : State) (call : Call) : Option Reply :=
  match call.stage with
  | .gateDecision => some (.gates (s.gates.filter (fun g => g.tool = call.tool.name)))
  | .firstRead id | .lagRead id | .dropRead id | .expireRead id =>
    some (.approval (s.approvals id))
  | _ => none

end State

/-- A request is on its way or its reply is. -/
def Stage.isRequest : Stage → Bool
  | .waiting _ | .forwardReady | .finished _ => false
  | _ => true

variable (crates : Crates)

def step (s : State) : Action → Option State
  | .callTool c name arguments => do
    if (s.calls c).isSome then none
    else
      let tool ← findTool name
      match validateArguments crates tool arguments with
      | .error _ => none
      | .ok args => some (s.setCall c (Call.start tool args))
  | .serve c => do
    let call ← s.calls c
    if call.reply.isSome then none
    else
      let reply ← s.read call
      some (s.setCall c { call with reply := some (.ok reply) })
  | .createApproval c id => do
    let call ← s.calls c
    match call.stage, call.reply, s.approvals id with
    | .createApproval, none, none =>
      let row := pendingRow id call.tool.name call.args (approvalSummary crates call.tool call.args)
      some ((s.addApproval row (some c)).setCall c
        { call with reply := some (.ok (.approval (some row))) })
    | _, _, _ => none
  | .subscribe c => do
    let call ← s.calls c
    match call.stage, call.reply with
    | .subscribe _, none =>
      some ((s.setSub c ⟨[], true⟩).setCall c { call with reply := some (.ok .subscribed) })
    | _, _ => none
  | .expireArrives c t => do
    let call ← s.calls c
    match call.stage, call.reply, s.tasks t with
    | .expire id, none, none =>
      match decodeDecide crates (expireArgs id) with
      | .error e => some (s.setCall c { call with reply := some (.error (.ofRpc e)) })
      | .ok request =>
        some ((s.setTask t (DecideTask.start request)).setCall c (call.goto (.expiring id t)))
    | _, _, _ => none
  | .expireReply c => do
    let call ← s.calls c
    match call.stage, call.reply with
    | .expiring _ t, none =>
      let task ← s.tasks t
      match task.phase with
      | .answered reply => some (s.setCall c { call with reply := some (answerWith .decided reply) })
      | _ => none
    | _, _ => none
  | .send c => do
    let call ← s.calls c
    match call.stage with
    | .forwardReady =>
      some { s.setCall c (call.goto .forwarding) with
        forwards := s.forwards ++ [⟨c, call.tool.op, call.forwardArgs⟩] }
    | _ => none
  | .toolReply c reply => do
    let call ← s.calls c
    match call.stage, call.reply with
    | .forwarding, none =>
      some (s.setCall c { call with reply := some (answerWith .value reply) })
    | _, _ => none
  | .refuse c e => do
    let call ← s.calls c
    if call.stage.isRequest ∧ call.reply.isNone then
      some (s.setCall c { call with reply := some (.error (.ofRpc e)) })
    else none
  | .lose c message => do
    let call ← s.calls c
    if call.stage.isRequest then
      some (s.setCall c { call with reply := some (.error (.ipc message)) })
    else none
  | .resume c => do
    let call ← s.calls c
    let reply ← call.reply
    some (s.setCall c (call.resume crates reply))
  | .timeout c => do
    let call ← s.calls c
    match call.stage with
    | .waiting id => some (s.setCall c (call.goto (.expire id)))
    | _ => none
  | .recv c => do
    let call ← s.calls c
    let sub ← s.subs c
    match call.stage, sub.events with
    | .waiting id, data :: rest =>
      some ((s.setSub c { sub with events := rest }).setCall c (call.afterEvent crates id data))
    | .waiting id, [] => if sub.live then none else some (s.setCall c (call.goto (.dropRead id)))
    | _, _ => none
  | .decideArrives t args =>
    if (s.tasks t).isSome then none
    else match decodeDecide crates args with
      | .error _ => some s
      | .ok request => some (s.setTask t (DecideTask.start request))
  | .update t now => do
    let task ← s.tasks t
    match task.phase with
    | .received =>
      let (approvals, changed) := dbDecide s.approvals task.request now
      some ({ s with approvals := approvals }.setTask t
        { task with phase := .updated changed, changed := some changed })
    | _ => none
  | .fetch t => do
    let task ← s.tasks t
    match task.phase with
    | .updated true => some (s.setTask t { task with phase := .fetched (s.approvals task.request.id) })
    | .updated false => some (s.setTask t { task with phase := .answered (.ok false) })
    | _ => none
  | .publish t => do
    let task ← s.tasks t
    match task.phase with
    | .fetched (some row) =>
      some ((s.publish t (decidedEvent row)).setTask t { task with phase := .answered (.ok true) })
    | .fetched none => some (s.setTask t { task with phase := .answered (.ok true) })
    | _ => none
  | .dbFails t message => do
    let task ← s.tasks t
    match task.phase with
    | .received | .updated true =>
      some (s.setTask t { task with phase := .answered (.error ⟨.internal, message⟩) })
    | _ => none
  | .lag c skip missed => do
    let sub ← s.subs c
    if 0 < missed ∧ skip + missed ≤ sub.events.length then
      some (s.setSub c { sub with
        events := sub.events.take skip ++ laggedEvent missed :: sub.events.drop (skip + missed) })
    else none
  | .dropSubscription c keep => do
    let sub ← s.subs c
    some (s.setSub c ⟨sub.events.take keep, false⟩)
  | .otherApproval id tool args summary =>
    if (s.approvals id).isSome then none
    else some (s.addApproval (pendingRow id tool args summary) none)
  | .setGates gates => some { s with gates := gates }

end Postblox.Mcp.Bridge
