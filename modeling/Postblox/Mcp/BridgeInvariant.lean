import Postblox.Mcp.BridgeSteps

/-!
# What every interleaving keeps

A row moves from `pending` to its decision once and is then frozen; tasks keep
their request and the result of their `UPDATE`. The invariant of the system is
stated relative to the rows, so that it survives every step that only lets the
rows advance, and each action is checked on the one component it changes.
-/
namespace Postblox.Mcp.Bridge

open Json (Value)
open Tools

/-! ## Rows and tasks advance -/

/-- A later version of a row: the same request, and the same row once decided. -/
structure Advances (row row' : McpApproval) : Prop where
  id : row'.id = row.id
  tool : row'.tool = row.tool
  args : row'.args = row.args
  frozen : row.state ≠ .pending → row' = row

theorem Advances.refl (row : McpApproval) : Advances row row := ⟨rfl, rfl, rfl, fun _ => rfl⟩

theorem Advances.trans {a b c : McpApproval} (h : Advances a b) (h' : Advances b c) :
    Advances a c where
  id := h'.id.trans h.id
  tool := h'.tool.trans h.tool
  args := h'.args.trans h.args
  frozen hne := by
    obtain rfl := h.frozen hne
    exact h'.frozen hne

/-- The row has left `pending`. -/
def Decided (s : State) (id : Uuid) (state : ApprovalState) : Prop :=
  state ≠ .pending ∧ ∃ row, s.approvals id = some row ∧ row.state = state

/-- How a state may differ from the one a step earlier in what other parties rely
on. A task that learns the result of its `UPDATE` has left the row decided. -/
structure Extends (s s' : State) : Prop where
  rows : ∀ id row, s.approvals id = some row →
    ∃ row', s'.approvals id = some row' ∧ Advances row row'
  creator : ∀ id c, s.creator id = some c → s'.creator id = some c
  tasks : ∀ t task, s.tasks t = some task → ∃ task', s'.tasks t = some task' ∧
    task'.request = task.request ∧ (∀ b, task.changed = some b → task'.changed = some b) ∧
    ∀ b row, task'.changed = some b → task.changed = none →
      s.approvals task.request.id = some row → ∃ state, Decided s' task.request.id state

theorem Decided.mono {s s' : State} (h : Extends s s') {id : Uuid} {state : ApprovalState}
    (hd : Decided s id state) : Decided s' id state := by
  obtain ⟨hne, row, hrow, hstate⟩ := hd
  obtain ⟨row', hrow', hadv⟩ := h.rows id row hrow
  obtain rfl := hadv.frozen (by rw [hstate]; exact hne)
  exact ⟨hne, row', hrow', hstate⟩

/-- The row a call created: it is the call's own and asks for exactly its
tool and arguments. -/
def Owned (s : State) (c : Nat) (call : Call) (id : Uuid) : Prop :=
  s.creator id = some c ∧
    ∃ row, s.approvals id = some row ∧ row.tool = call.tool.name ∧ row.args = call.args

theorem Owned.mono {s s' : State} (h : Extends s s') {c : Nat} {call : Call} {id : Uuid}
    (ho : Owned s c call id) : Owned s' c call id := by
  obtain ⟨hc, row, hrow, htool, hargs⟩ := ho
  obtain ⟨row', hrow', hadv⟩ := h.rows id row hrow
  exact ⟨h.creator id c hc, row', hrow', hadv.tool.trans htool, hadv.args.trans hargs⟩

section

variable (crates : Crates)

/-- The two grounds on which a dangerous op may be forwarded. -/
def Authorised (s : State) (c : Nat) (call : Call) : Prop :=
  (∃ gates gateId, call.gates = some gates ∧
    Gates.decide crates gates call.args = .autoAllow gateId) ∨
  ∃ id, call.approval = some id ∧ Owned s c call id ∧ Decided s id .allowed

theorem Authorised.mono {s s' : State} (h : Extends s s') {c : Nat} {call : Call}
    (ha : Authorised crates s c call) : Authorised crates s' c call := by
  rcases ha with hgate | ⟨id, hid, howned, hallowed⟩
  · exact .inl hgate
  · exact .inr ⟨id, hid, howned.mono h, hallowed.mono h⟩

end

/-! ## Results that refuse a call -/

/-- The codes of `call_tool`'s own refusals. -/
def refusalCodes : List String :=
  ["gate_denied", "approval_denied", "approval_expired", "approval_timeout"]

def Refusal : Except BridgeError Value → Prop
  | .error (.daemon code _) => code ∈ refusalCodes
  | _ => False

theorem ofRpc_not_refusal (e : RpcError) : ¬ Refusal (.error (.ofRpc e)) := by
  obtain ⟨code, message⟩ := e
  cases code <;> simp [Refusal, BridgeError.ofRpc, RpcCode.asStr, refusalCodes]

theorem ipc_not_refusal (message : String) : ¬ Refusal (.error (.ipc message)) := id

theorem badDaemonResponse_not_refusal (message : String) :
    ¬ Refusal (.error (.badDaemonResponse message)) := id

/-! ## One call -/

section Call

variable (crates : Crates) (s : State) (c : Nat)

/-- Before the op can have been sent. -/
def Stage.early : Stage → Bool
  | .forwarding | .finished _ => false
  | _ => true

/-- The approval a stage inside `wait_for_approval` is about. -/
def Stage.approvalId : Stage → Option Uuid
  | .subscribe id | .firstRead id | .waiting id | .lagRead id | .dropRead id | .expire id
  | .expiring id _ | .expireRead id => some id
  | _ => none

/-- How often the op of call `c` was sent. -/
def sent : Nat := s.forwards.countP (fun f => f.call = c)

def StageOk (call : Call) : Prop :=
  match call.stage with
  | .gateDecision | .createApproval => call.waited = none
  | .finished _ => True
  | .subscribe id | .firstRead id | .waiting id | .lagRead id | .dropRead id | .expire id =>
    call.approval = some id
  | .expiring id t => call.approval = some id ∧ ∃ task, s.tasks t = some task ∧
      task.request.id = id ∧ task.request.state = .expired ∧
      ∀ b, task.changed = some b → ∃ state, Decided s id state
  | .expireRead id => call.approval = some id ∧ ∃ state, Decided s id state
  | .forwardReady | .forwarding => call.tool.dangerous = true → Authorised crates s c call

def SentOk (call : Call) : Prop :=
  match call.stage with
  | .forwarding => sent s c = 1
  | .finished result => sent s c ≤ 1 ∧ (Refusal result → sent s c = 0)
  | _ => sent s c = 0

/-- A reply that names a decision names the stored one. -/
structure ReplyOk (call : Call) (r : Except BridgeError Reply) : Prop where
  refusal : ∀ e, r = .error e → ¬ Refusal (.error e)
  created : ∀ row, call.stage = .createApproval → r = .ok (.approval (some row)) →
    Owned s c call row.id
  current : ∀ id row, call.stage = .firstRead id ∨ call.stage = .lagRead id ∨
    call.stage = .dropRead id → r = .ok (.approval (some row)) → row.state ≠ .pending →
    Decided s id row.state
  final : ∀ id row, call.stage = .expireRead id → r = .ok (.approval (some row)) →
    Decided s id row.state
  expired : ∀ id t, call.stage = .expiring id t → r = .ok (.decided true) → Decided s id .expired
  late : ∀ id t, call.stage = .expiring id t → r = .ok (.decided false) →
    ∃ state, Decided s id state

/-- The locals of a call: the approval it created, and what `wait_for_approval`
returned is the stored decision of that approval. -/
structure LocalsOk (call : Call) : Prop where
  owned : ∀ id, call.approval = some id → Owned s c call id
  waited : ∀ state, call.waited = some state →
    ∃ id, call.approval = some id ∧ Decided s id state

structure CallOk (call : Call) : Prop extends LocalsOk s c call where
  stage : StageOk crates s c call
  reply : ∀ r, call.reply = some r → ReplyOk s c call r
  sent : SentOk s c call

end Call

section CallLemmas

variable {crates : Crates} {s s' : State} {c : Nat} {call : Call}

theorem StageOk.mono (h : Extends s s') (howned : ∀ id, call.approval = some id → Owned s c call id)
    (hs : StageOk crates s c call) : StageOk crates s' c call := by
  unfold StageOk at hs ⊢
  split <;> rename_i heq <;> simp only [heq] at hs
  case h_10 id t =>
    obtain ⟨happroval, task, htask, hid, hstate, hchanged⟩ := hs
    obtain ⟨task', htask', hrequest, hkeep, hlearn⟩ := h.tasks t task htask
    refine ⟨happroval, task', htask', by rw [hrequest]; exact hid, by rw [hrequest]; exact hstate, ?_⟩
    intro b hb
    cases hold : task.changed with
    | none =>
      obtain ⟨-, row, hrow, -⟩ := howned id happroval
      rw [← hid] at hrow ⊢
      exact hlearn b row hb hold hrow
    | some b' =>
      obtain ⟨state, hd⟩ := hchanged b' hold
      exact ⟨state, hd.mono h⟩
  case h_11 id =>
    obtain ⟨happroval, state, hd⟩ := hs
    exact ⟨happroval, state, hd.mono h⟩
  case h_12 => exact fun hdangerous => (hs hdangerous).mono crates h
  case h_13 => exact fun hdangerous => (hs hdangerous).mono crates h
  all_goals exact hs

theorem ReplyOk.mono (h : Extends s s') {r : Except BridgeError Reply} (hr : ReplyOk s c call r) :
    ReplyOk s' c call r where
  refusal := hr.refusal
  created row hst heq := (hr.created row hst heq).mono h
  current id row hst heq hne := (hr.current id row hst heq hne).mono h
  final id row hst heq := (hr.final id row hst heq).mono h
  expired id t hst heq := (hr.expired id t hst heq).mono h
  late id t hst heq := by
    obtain ⟨state, hd⟩ := hr.late id t hst heq
    exact ⟨state, hd.mono h⟩

theorem SentOk.mono (hsent : sent s' c = sent s c) (hs : SentOk s c call) : SentOk s' c call := by
  unfold SentOk at hs ⊢
  rw [hsent]
  exact hs

theorem LocalsOk.mono (h : Extends s s') (hl : LocalsOk s c call) : LocalsOk s' c call where
  owned id hid := (hl.owned id hid).mono h
  waited state hw := by
    obtain ⟨id, hid, hd⟩ := hl.waited state hw
    exact ⟨id, hid, hd.mono h⟩

theorem CallOk.mono (h : Extends s s') (hsent : Bridge.sent s' c = Bridge.sent s c)
    (hc : CallOk crates s c call) : CallOk crates s' c call where
  toLocalsOk := hc.toLocalsOk.mono h
  stage := hc.stage.mono h hc.owned
  reply r hr := (hc.reply r hr).mono h
  sent := hc.sent.mono hsent

/-! ### The bridge's own steps -/

theorem LocalsOk.goto (hl : LocalsOk s c call) {stage : Stage}
    (hstage : StageOk crates s c (call.goto stage)) (hsent : SentOk s c (call.goto stage)) :
    CallOk crates s c (call.goto stage) where
  owned := hl.owned
  waited := hl.waited
  stage := hstage
  reply _ hr := by cases hr
  sent := hsent

theorem LocalsOk.finish (hl : LocalsOk s c call) {result : Except BridgeError Value}
    (hr : ¬ Refusal result) (hsent : Bridge.sent s c ≤ 1) :
    CallOk crates s c (call.goto (.finished result)) :=
  hl.goto trivial ⟨hsent, fun h => absurd h hr⟩

theorem LocalsOk.refused (hl : LocalsOk s c call) (code message : String)
    (hsent : Bridge.sent s c = 0) : CallOk crates s c (call.refused code message) :=
  hl.goto trivial ⟨by omega, fun _ => hsent⟩

theorem LocalsOk.afterWait (hl : LocalsOk s c call) {id : Uuid} {state : ApprovalState}
    (hid : call.approval = some id) (hd : Decided s id state) (hsent : Bridge.sent s c = 0) :
    CallOk crates s c (call.afterWait id state) := by
  have hl' : LocalsOk s c { call with waited := some state } :=
    ⟨hl.owned, fun _ hw => by cases hw; exact ⟨id, hid, hd⟩⟩
  cases state with
  | pending => exact absurd rfl hd.1
  | allowed => exact hl'.goto (fun _ => .inr ⟨id, hid, hl.owned id hid, hd⟩) hsent
  | denied => exact hl'.refused _ _ hsent
  | expired => exact hl'.refused _ _ hsent

theorem LocalsOk.afterRead (hl : LocalsOk s c call) {id : Uuid} {row : McpApproval}
    {stage : Stage} (hid : call.approval = some id)
    (hd : row.state ≠ .pending → Decided s id row.state) (hsent : Bridge.sent s c = 0)
    (hstage : StageOk crates s c (call.goto stage)) (hsent' : SentOk s c (call.goto stage)) :
    CallOk crates s c (call.afterRead id row stage) := by
  unfold Call.afterRead
  split_ifs with hne
  · exact hl.afterWait hid (hd hne) hsent
  · exact hl.goto hstage hsent'

theorem LocalsOk.afterGateDecision (hl : LocalsOk s c call) (gates : List McpGate)
    (hsent : Bridge.sent s c = 0) (hwaited : call.waited = none) :
    CallOk crates s c (call.afterGateDecision crates gates) := by
  have hl' : LocalsOk s c { call with gates := some gates } := ⟨hl.owned, hl.waited⟩
  unfold Call.afterGateDecision
  dsimp only
  split
  · next gateId hdecide => exact hl'.goto (fun _ => .inl ⟨gates, gateId, rfl, hdecide⟩) hsent
  · exact hl'.refused _ _ hsent
  · exact hl'.goto hwaited hsent

theorem CallOk.sent_le (hc : CallOk crates s c call) : Bridge.sent s c ≤ 1 := by
  have hs := hc.sent
  unfold SentOk at hs
  split at hs
  · omega
  · exact hs.1
  · omega

theorem CallOk.unsent (hc : CallOk crates s c call) {stage : Stage} (hstage : call.stage = stage)
    (hearly : stage.early = true) : Bridge.sent s c = 0 := by
  have hs := hc.sent
  unfold SentOk at hs
  rw [hstage] at hs
  cases stage <;> first | exact hs | cases hearly

theorem CallOk.approval_eq (hc : CallOk crates s c call) {stage : Stage} {id : Uuid}
    (hstage : call.stage = stage) (hid : stage.approvalId = some id) :
    call.approval = some id := by
  have hs := hc.stage
  unfold StageOk at hs
  rw [hstage] at hs
  cases stage <;> cases hid <;> first | exact hs | exact hs.1

theorem CallOk.resume (hc : CallOk crates s c call) {r : Except BridgeError Reply}
    (hr : call.reply = some r) : CallOk crates s c (call.resume crates r) := by
  have hok := hc.reply r hr
  cases r with
  | error e => exact hc.finish (hok.refusal e rfl) hc.sent_le
  | ok reply =>
    simp only [Call.resume]
    split
    · next gates heq =>
      have hwaited : call.waited = none := by simpa [StageOk, heq] using hc.stage
      exact hc.afterGateDecision gates (hc.unsent heq rfl) hwaited
    · next row heq =>
      have howned := hok.created row heq rfl
      have hwaited : call.waited = none := by simpa [StageOk, heq] using hc.stage
      have hl : LocalsOk s c { call with approval := some row.id } :=
        ⟨fun id hid => by cases hid; exact howned, fun _ hw => by cases hwaited.symm.trans hw⟩
      exact hl.goto rfl (hc.unsent heq rfl)
    · next id heq => exact hc.goto (hc.approval_eq heq rfl) (hc.unsent heq rfl)
    · next id row heq =>
      exact hc.afterRead (hc.approval_eq heq rfl) (hok.current id row (.inl heq) rfl)
        (hc.unsent heq rfl) (hc.approval_eq heq rfl) (hc.unsent heq rfl)
    · next id row heq =>
      exact hc.afterRead (hc.approval_eq heq rfl) (hok.current id row (.inr (.inl heq)) rfl)
        (hc.unsent heq rfl) (hc.approval_eq heq rfl) (hc.unsent heq rfl)
    · next id row heq =>
      exact hc.afterRead (hc.approval_eq heq rfl) (hok.current id row (.inr (.inr heq)) rfl)
        (hc.unsent heq rfl) (hc.approval_eq heq rfl) (hc.unsent heq rfl)
    · next id row heq =>
      exact hc.afterWait (hc.approval_eq heq rfl) (hok.final id row heq rfl) (hc.unsent heq rfl)
    · next heq => exact hc.finish (badDaemonResponse_not_refusal _) hc.sent_le
    · next heq => exact hc.finish (badDaemonResponse_not_refusal _) hc.sent_le
    · next heq => exact hc.finish (badDaemonResponse_not_refusal _) hc.sent_le
    · next heq => exact hc.finish (badDaemonResponse_not_refusal _) hc.sent_le
    · next id t heq =>
      exact hc.afterWait (hc.approval_eq heq rfl) (hok.expired id t heq rfl) (hc.unsent heq rfl)
    · next id t heq =>
      exact hc.goto ⟨hc.approval_eq heq rfl, hok.late id t heq rfl⟩ (hc.unsent heq rfl)
    · exact hc.finish id hc.sent_le
    · exact hc.finish (badDaemonResponse_not_refusal _) hc.sent_le

theorem CallOk.afterEvent (hc : CallOk crates s c call) {id : Uuid} {data : Value}
    (hstage : call.stage = .waiting id)
    (hdata : ∀ state, matchDecidedEvent crates id data = some state → Decided s id state) :
    CallOk crates s c (call.afterEvent crates id data) := by
  unfold Call.afterEvent
  split
  · next state hmatch =>
    exact hc.afterWait (hc.approval_eq hstage rfl) (hdata state hmatch) (hc.unsent hstage rfl)
  · split_ifs
    · exact hc.goto (hc.approval_eq hstage rfl) (hc.unsent hstage rfl)
    · exact hc

/-- A daemon reply leaves everything but the reply as it was. -/
theorem CallOk.withReply (hc : CallOk crates s c call) {r : Except BridgeError Reply}
    (hr : ReplyOk s c call r) : CallOk crates s c { call with reply := some r } where
  owned := hc.owned
  stage := hc.stage
  reply _ hr' := by
    cases hr'
    exact ⟨hr.refusal, hr.created, hr.current, hr.final, hr.expired, hr.late⟩
  waited := hc.waited
  sent := hc.sent

theorem ReplyOk.of_error {e : BridgeError} (he : ¬ Refusal (.error e)) :
    ReplyOk s c call (.error e) where
  refusal e' heq := by
    cases heq
    exact he
  created _ _ heq := by cases heq
  current _ _ _ heq := by cases heq
  final _ _ _ heq := by cases heq
  expired _ _ _ heq := by cases heq
  late _ _ _ heq := by cases heq

end CallLemmas

end Postblox.Mcp.Bridge
