import Postblox.Mcp.BridgeSafety

/-!
# No unapproved forward, one decision per approval

The two conclusions about every run from an empty approval table: what a
dangerous call may forward, and what the deciders, the event and the waiter of
one approval agree on.
-/
namespace Postblox.Mcp.Bridge

open Json (Value)
open Tools
open Lib.Machine

variable {crates : Crates} {s s' : State}

/-! ## Where a call's arguments and gates come from -/

/-- What one step keeps of a call; a listing of gates is the one just served. -/
structure Follows (s : State) (a : Action) (c : Nat) (call call' : Call) : Prop where
  tool : call'.tool = call.tool
  args : call'.args = call.args
  gates : ∀ gs, call'.gates = some gs ∨ call'.reply = some (.ok (.gates gs)) →
    (call.gates = some gs ∨ call.reply = some (.ok (.gates gs))) ∨
      (a = .serve c ∧ gs = s.gates.filter (fun g => g.tool = call.tool.name))

theorem Follows.refl (s : State) (a : Action) (c : Nat) (call : Call) : Follows s a c call call :=
  ⟨rfl, rfl, fun _ h => .inl h⟩

/-- The bridge moved on without looking at the gates. -/
theorem Follows.of_gates {a : Action} {c : Nat} {call call' : Call} (htool : call'.tool = call.tool)
    (hargs : call'.args = call.args) (hgates : call'.gates = call.gates)
    (hreply : ∀ gs, call'.reply ≠ some (.ok (.gates gs))) : Follows s a c call call' where
  tool := htool
  args := hargs
  gates gs h := by
    rcases h with h | h
    · exact .inl (.inl (hgates.symm.trans h))
    · exact absurd h (hreply gs)

theorem Follows.withReply (a : Action) (c : Nat) (call : Call) {r : Except BridgeError Reply}
    (hr : ∀ gs, r ≠ .ok (.gates gs)) : Follows s a c call { call with reply := some r } :=
  .of_gates rfl rfl rfl (fun gs h => hr gs (Option.some.inj h))

theorem Follows.goto (a : Action) (c : Nat) (call : Call) (stage : Stage) :
    Follows s a c call (call.goto stage) :=
  .of_gates rfl rfl rfl (fun _ h => by cases h)

theorem Follows.afterWait (a : Action) (c : Nat) (call : Call) (id : Uuid)
    (state : ApprovalState) : Follows s a c call (call.afterWait id state) := by
  cases state <;> exact .of_gates rfl rfl rfl (fun _ h => by cases h)

theorem Follows.afterRead (a : Action) (c : Nat) (call : Call) (id : Uuid) (row : McpApproval)
    (stage : Stage) : Follows s a c call (call.afterRead id row stage) := by
  unfold Call.afterRead
  split_ifs
  · exact .afterWait a c call id row.state
  · exact .goto a c call stage

theorem Follows.afterGateDecision (a : Action) (c : Nat) {call : Call} {gates : List McpGate}
    (hreply : call.reply = some (.ok (.gates gates))) :
    Follows s a c call (call.afterGateDecision crates gates) := by
  unfold Call.afterGateDecision
  dsimp only
  split <;>
  · refine ⟨rfl, rfl, fun gs h => ?_⟩
    rcases h with h | h
    · cases h
      exact .inl (.inr hreply)
    · cases h

theorem Follows.resume (a : Action) (c : Nat) {call : Call} {r : Except BridgeError Reply}
    (hreply : call.reply = some r) : Follows s a c call (call.resume crates r) := by
  cases r with
  | error e => exact .goto a c call _
  | ok reply =>
    simp only [Call.resume]
    split
    · exact .afterGateDecision a c hreply
    · exact .of_gates rfl rfl rfl (fun _ h => by cases h)
    · exact .goto a c call _
    · exact .afterRead a c call _ _ _
    · exact .afterRead a c call _ _ _
    · exact .afterRead a c call _ _ _
    · exact .afterWait a c call _ _
    · exact .goto a c call _
    · exact .goto a c call _
    · exact .goto a c call _
    · exact .goto a c call _
    · exact .afterWait a c call _ _
    · exact .goto a c call _
    · exact .goto a c call _
    · exact .goto a c call _

theorem Follows.afterEvent (a : Action) (c : Nat) (call : Call) (id : Uuid) (data : Value) :
    Follows s a c call (call.afterEvent crates id data) := by
  unfold Call.afterEvent
  split
  · exact .afterWait a c call id _
  · split_ifs
    · exact .goto a c call _
    · exact .refl s a c call

theorem Follows.read (c : Nat) {call : Call} {reply : Reply} (hread : s.read call = some reply) :
    Follows s (.serve c) c call { call with reply := some (.ok reply) } where
  tool := rfl
  args := rfl
  gates gs h := by
    rcases h with h | h
    · exact .inl (.inl h)
    · cases h
      unfold State.read at hread
      split at hread <;> cases hread
      exact .inr ⟨rfl, rfl⟩

/-- A call after a step is a follower of the same call before it, or has just
been started on arguments that validation returned. -/
def Continued (crates : Crates) (s : State) (a : Action) (c : Nat) (call' : Call) : Prop :=
  (∃ call, s.calls c = some call ∧ Follows s a c call call') ∨
  ∃ name arguments, a = .callTool c name arguments ∧ findTool name = some call'.tool ∧
    validateArguments crates call'.tool arguments = .ok call'.args ∧ call'.gates = none ∧
    call'.reply = none

theorem Continued.same {a : Action} {c : Nat} {call' : Call} (hc : s.calls c = some call') :
    Continued crates s a c call' :=
  .inl ⟨call', hc, .refl s a c call'⟩

theorem Continued.setCall {s₀ : State} {a : Action} {c c' : Nat} {new call' : Call}
    (hs₀ : s₀.calls = s.calls) (hnew : Continued crates s a c new)
    (hc' : (s₀.setCall c new).calls c' = some call') : Continued crates s a c' call' := by
  rw [State.setCall_calls] at hc'
  split_ifs at hc' with heq
  · subst heq
    cases hc'
    exact hnew
  · rw [hs₀] at hc'
    exact .same hc'

theorem call_of_step {a : Action} (hstep : Step crates s a s') {c : Nat} {call' : Call}
    (hc' : s'.calls c = some call') : Continued crates s a c call' := by
  cases hstep with
  | @callTool c₀ name arguments args tool _ hfind hvalid =>
    refine .setCall rfl ?_ hc'
    exact .inr ⟨name, arguments, rfl, hfind, hvalid, rfl, rfl⟩
  | serve hcall _ hread =>
    refine .setCall rfl ?_ hc'
    exact .inl ⟨_, hcall, .read _ hread⟩
  | createApproval hcall _ _ _ =>
    refine .setCall rfl ?_ hc'
    exact .inl ⟨_, hcall, .withReply _ _ _ (fun _ h => by cases h)⟩
  | subscribe hcall _ =>
    refine .setCall rfl ?_ hc'
    exact .inl ⟨_, hcall, .withReply _ _ _ (fun _ h => by cases h)⟩
  | expireRejected hcall _ =>
    refine .setCall rfl ?_ hc'
    exact .inl ⟨_, hcall, .withReply _ _ _ (fun _ h => by cases h)⟩
  | expireArrives hcall _ _ _ =>
    refine .setCall rfl ?_ hc'
    exact .inl ⟨_, hcall, .goto _ _ _ _⟩
  | @expireReply _ _ _ _ _ reply hcall _ _ _ =>
    refine .setCall rfl ?_ hc'
    refine .inl ⟨_, hcall, .withReply _ _ _ (fun _ h => ?_)⟩
    cases reply <;> cases h
  | send hcall _ =>
    refine .setCall rfl ?_ hc'
    exact .inl ⟨_, hcall, .goto _ _ _ _⟩
  | @toolReply _ _ reply hcall _ =>
    refine .setCall rfl ?_ hc'
    refine .inl ⟨_, hcall, .withReply _ _ _ (fun _ h => ?_)⟩
    cases reply <;> cases h
  | refuse hcall _ =>
    refine .setCall rfl ?_ hc'
    exact .inl ⟨_, hcall, .withReply _ _ _ (fun _ h => by cases h)⟩
  | lose hcall _ =>
    refine .setCall rfl ?_ hc'
    exact .inl ⟨_, hcall, .withReply _ _ _ (fun _ h => by cases h)⟩
  | resume hcall hreply =>
    refine .setCall rfl ?_ hc'
    exact .inl ⟨_, hcall, .resume _ _ hreply⟩
  | timeout hcall _ =>
    refine .setCall rfl ?_ hc'
    exact .inl ⟨_, hcall, .goto _ _ _ _⟩
  | recvEvent hcall _ _ _ =>
    refine .setCall rfl ?_ hc'
    exact .inl ⟨_, hcall, .afterEvent _ _ _ _ _⟩
  | recvNone hcall _ =>
    refine .setCall rfl ?_ hc'
    exact .inl ⟨_, hcall, .goto _ _ _ _⟩
  | _ => exact .same hc'

/-- The call was started by a request that names its tool and whose arguments
validated to the call's own; its gates are what `mcp.gate.list` answered it. -/
structure Provenance (crates : Crates) (s₀ : State) (acts : List Action) (c : Nat) (call : Call) :
    Prop where
  started : ∃ before name arguments after, acts = before ++ .callTool c name arguments :: after ∧
    findTool name = some call.tool ∧ validateArguments crates call.tool arguments = .ok call.args
  listed : ∀ gs, call.gates = some gs ∨ call.reply = some (.ok (.gates gs)) →
    ∃ before s after, acts = before ++ .serve c :: after ∧ run (step crates) s₀ before = some s ∧
      gs = s.gates.filter (fun g => g.tool = call.tool.name)

theorem provenance {s₀ : State} (h₀ : ∀ c, s₀.calls c = none) {acts : List Action}
    (hrun : run (step crates) s₀ acts = some s) :
    ∀ c call, s.calls c = some call → Provenance crates s₀ acts c call := by
  refine history_invariant (step crates)
    (P := fun acts s => ∀ c call, s.calls c = some call → Provenance crates s₀ acts c call)
    (fun c call hc => ?_) (fun acts s a t hacts ih hstep c call' hc' => ?_) hrun
  · cases (h₀ c).symm.trans hc
  · rcases call_of_step (step_cases crates hstep) hc' with ⟨call, hc, hf⟩ |
      ⟨name, arguments, rfl, hfind, hvalid, hgates, hreply⟩
    · have hp := ih c call hc
      refine ⟨?_, fun gs hgs => ?_⟩
      · obtain ⟨before, name, arguments, after, rfl, hfind, hvalid⟩ := hp.started
        refine ⟨before, name, arguments, after ++ [a], by simp, ?_, ?_⟩
        · rw [hf.tool]
          exact hfind
        · rw [hf.tool, hf.args]
          exact hvalid
      · rw [hf.tool]
        rcases hf.gates gs hgs with hold | ⟨rfl, hserved⟩
        · obtain ⟨before, s₁, after, rfl, hbefore, heq⟩ := hp.listed gs hold
          exact ⟨before, s₁, after ++ [a], by simp, hbefore, heq⟩
        · exact ⟨acts, s, [], rfl, hacts, hserved⟩
    · refine ⟨⟨acts, name, arguments, [], rfl, hfind, hvalid⟩, fun gs hgs => ?_⟩
      rcases hgs with hgs | hgs
      · cases hgates.symm.trans hgs
      · cases hreply.symm.trans hgs

/-! ## Rows along a run -/

theorem rows_of_step {a : Action} (hstep : Step crates s a s') (id : Uuid) (row : McpApproval)
    (hrow : s.approvals id = some row) :
    ∃ row', s'.approvals id = some row' ∧ Advances row row' := by
  cases hstep with
  | @createApproval c id₀ call row₀ _ _ hfresh hrow₀ =>
    subst hrow₀
    have hne : id ≠ id₀ := fun heq => by cases (heq ▸ hrow).symm.trans hfresh
    exact ⟨row, (Function.update_of_ne hne _ _).trans hrow, .refl row⟩
  | @otherApproval id₀ tool summary args hfresh =>
    have hne : id ≠ id₀ := fun heq => by cases (heq ▸ hrow).symm.trans hfresh
    exact ⟨row, (Function.update_of_ne hne _ _).trans hrow, .refl row⟩
  | @updateWins t now task row₀ _ _ hrow₀ hpending =>
    by_cases heq : id = task.request.id
    · subst heq
      cases hrow₀.symm.trans hrow
      exact ⟨_, Function.update_self _ _ _, rfl, rfl, rfl, fun hne => absurd hpending hne⟩
    · exact ⟨row, (Function.update_of_ne heq _ _).trans hrow, .refl row⟩
  | _ => exact ⟨row, hrow, .refl row⟩

theorem rows_of_run {acts : List Action} (hrun : run (step crates) s acts = some s') (id : Uuid)
    (row : McpApproval) (hrow : s.approvals id = some row) :
    ∃ row', s'.approvals id = some row' ∧ Advances row row' :=
  run_rel (step crates)
    (R := fun s s' => ∀ id row, s.approvals id = some row →
      ∃ row', s'.approvals id = some row' ∧ Advances row row')
    (fun _ _ row h => ⟨row, h, .refl row⟩)
    (fun _ _ _ h₁ h₂ id row h => by
      obtain ⟨row₁, hr₁, ha₁⟩ := h₁ id row h
      obtain ⟨row₂, hr₂, ha₂⟩ := h₂ id row₁ hr₁
      exact ⟨row₂, hr₂, ha₁.trans ha₂⟩)
    (fun _ _ _ hstep => rows_of_step (step_cases crates hstep)) hrun id row hrow

theorem inv_of_run {gates : List McpGate} {acts : List Action}
    (hrun : run (step crates) (State.init gates) acts = some s) : Inv crates s :=
  invariant (step crates) (Inv.init gates) (fun _ _ _ h hstep => h.step (step_cases crates hstep))
    hrun

/-! ## Forwards along a run -/

def isSend (c : Nat) : Action → Bool
  | .send c' => c' = c
  | _ => false

theorem sent_of_step {a : Action} (hstep : Step crates s a s') (c : Nat) :
    sent s' c = sent s c + if isSend c a then 1 else 0 := by
  cases hstep with
  | @send c' call hcall hstage =>
    refine (sent_append (s.setCall c' (call.goto .forwarding)) c
      ⟨c', call.tool.op, call.forwardArgs⟩).trans ?_
    simp [isSend, sent, State.setCall]
  | _ => rfl

/-- The ops sent for a call are its `send` steps. -/
theorem sent_eq_countP {gates : List McpGate} {acts : List Action}
    (hrun : run (step crates) (State.init gates) acts = some s) (c : Nat) :
    sent s c = acts.countP (isSend c) :=
  history_invariant (step crates) (P := fun acts s => sent s c = acts.countP (isSend c)) rfl
    (fun acts s a t _ ih hstep => by
      rw [sent_of_step (step_cases crates hstep) c, ih, List.countP_append, List.countP_singleton])
    hrun

/-- Why a dangerous call may be forwarded in state `s`, reached by `acts`: the
gates it was served allow exactly its arguments, or the row it created for its
tool and arguments is `allowed` now. -/
def Grounds (crates : Crates) (s₀ : State) (acts : List Action) (s : State) (c : Nat)
    (call : Call) : Prop :=
  (∃ gates gateId, Gates.decide crates gates call.args = .autoAllow gateId ∧
    ∃ before s₁ after, acts = before ++ .serve c :: after ∧
      run (step crates) s₀ before = some s₁ ∧
      gates = s₁.gates.filter (fun g => g.tool = call.tool.name)) ∨
  ∃ id row, s.creator id = some c ∧ s.approvals id = some row ∧ row.tool = call.tool.name ∧
    row.args = call.args ∧ row.state = .allowed

theorem grounds_of_send {gates : List McpGate} {acts : List Action} {c : Nat}
    (hrun : run (step crates) (State.init gates) acts = some s)
    (hstep : step crates s (.send c) = some s') :
    ∃ call, s.calls c = some call ∧
      s'.forwards = s.forwards ++ [⟨c, call.tool.op, call.forwardArgs⟩] ∧
      (call.tool.dangerous = true → Grounds crates (State.init gates) acts s c call) := by
  have hinv := inv_of_run hrun
  cases step_cases crates hstep with
  | @send _ call hcall hstage =>
    refine ⟨call, hcall, rfl, fun hd => ?_⟩
    have hst := (hinv.calls c call hcall).stage
    unfold StageOk at hst
    rw [hstage] at hst
    rcases hst hd with ⟨gs, gateId, hgs, hdecide⟩ | ⟨id, -, howned, hallowed⟩
    · have hlisted := (provenance (fun _ => rfl) hrun c call hcall).listed gs (.inl hgs)
      exact .inl ⟨gs, gateId, hdecide, hlisted⟩
    · obtain ⟨hcreator, row, hrow, htool, hargs⟩ := howned
      obtain ⟨-, row', hrow', hstate⟩ := hallowed
      cases hrow.symm.trans hrow'
      exact .inr ⟨id, row, hcreator, hrow, htool, hargs, hstate⟩

/-- In every run a dangerous call forwards its op at most once, at a moment when
its gates or its own approval allow it, and never when it ends in a refusal. -/
theorem forwards_only_when_allowed {gates : List McpGate} {acts : List Action}
    (hrun : run (step crates) (State.init gates) acts = some s) :
    (∀ c call, s.calls c = some call → call.tool.dangerous = true →
      acts.countP (isSend c) ≤ 1 ∧
      ∀ result, call.stage = .finished result → Refusal result → acts.countP (isSend c) = 0) ∧
    ∀ before c after, acts = before ++ .send c :: after → ∃ s₁ s₂ call,
      run (step crates) (State.init gates) before = some s₁ ∧ s₁.calls c = some call ∧
      step crates s₁ (.send c) = some s₂ ∧
      s₂.forwards = s₁.forwards ++ [⟨c, call.tool.op, call.forwardArgs⟩] ∧
      (∃ pre name arguments post, before = pre ++ .callTool c name arguments :: post ∧
        findTool name = some call.tool ∧
        validateArguments crates call.tool arguments = .ok call.args) ∧
      (call.tool.dangerous = true → Grounds crates (State.init gates) before s₁ c call) := by
  refine ⟨fun c call hcall _ => ?_, fun before c after hacts => ?_⟩
  · have hok := (inv_of_run hrun).calls c call hcall
    rw [← sent_eq_countP hrun c]
    refine ⟨hok.sent_le, fun result hstage hrefusal => ?_⟩
    have hsent := hok.sent
    unfold SentOk at hsent
    rw [hstage] at hsent
    exact hsent.2 hrefusal
  · rw [hacts, run_append_iff] at hrun
    obtain ⟨s₁, hbefore, hrest⟩ := hrun
    rw [run_cons] at hrest
    obtain ⟨s₂, hsend, -⟩ := Option.bind_eq_some_iff.mp hrest
    obtain ⟨call, hcall, hforwards, hgrounds⟩ := grounds_of_send hbefore hsend
    exact ⟨s₁, s₂, call, hbefore, hcall, hsend, hforwards,
      (provenance (fun _ => rfl) hbefore c call hcall).started, hgrounds⟩

/-- A call without gates that a human allows while the bridge waits. -/
def allowedRun : List Action :=
  [.callTool 0 "postblox_draft_delete"
      (.object [("id", .string "11111111-1111-1111-1111-111111111111")]),
    .serve 0, .resume 0, .createApproval 0 (.filled 2), .resume 0, .subscribe 0,
    .resume 0, .serve 0, .resume 0,
    .decideArrives 0 (.object [("id", .string "22222222-2222-2222-2222-222222222222"),
      ("state", .string "allowed")]),
    .update 0 1700000000, .fetch 0, .publish 0, .recv 0]

theorem forwards_only_when_allowed_allowedRun :
    ∃ s call, run (step Crates.plain) (State.init []) allowedRun = some s ∧
      s.calls 0 = some call ∧
      (call.tool.dangerous = true → Grounds Crates.plain (State.init []) allowedRun s 0 call) := by
  obtain ⟨t, ht⟩ : ∃ t, run (step Crates.plain) (State.init []) (allowedRun ++ [.send 0]) = some t :=
    Option.isSome_iff_exists.mp (by decide)
  obtain ⟨s, -, call, hrun, hcall, -, -, -, hgrounds⟩ :=
    (forwards_only_when_allowed ht).2 allowedRun 0 [] rfl
  exact ⟨s, call, hrun, hcall, hgrounds⟩

/-! ## Agreement on one approval -/

/-- The `approval_id` an event carries. -/
def isAbout (id : Uuid) (data : Value) : Prop :=
  data.get "approval_id" = some (.string id.hyphenated)

instance (id : Uuid) (data : Value) : Decidable (isAbout id data) :=
  inferInstanceAs (Decidable (_ = _))

theorem isAbout_decidedEvent {id : Uuid} {row : McpApproval} (h : isAbout id (decidedEvent row)) :
    row.id = id := by
  have hparse := congrArg (Option.bind · Value.asStr) h
  simp only [decidedEvent, Value.get, List.lookup, show ("approval_id" == "approval_id") = true
    from rfl, Value.asStr, Option.bind_some, Option.some.injEq] at hparse
  have hu := Uuid.parseStr_hyphenated row.id
  rw [hparse, Uuid.parseStr_hyphenated] at hu
  exact (Option.some.inj hu).symm

theorem published_at_most_once (h : Inv crates s) (id : Uuid) :
    s.published.countP (fun e => isAbout id e.2) ≤ 1 := by
  have hwinner : ∀ e ∈ s.published, isAbout id e.2 → Winner s id e.1 := by
    intro e he habout
    obtain ⟨task, row, htask, hphase, hid, -, -, hdata⟩ := h.published e he
    rw [hdata] at habout
    refine ⟨task, htask, hid.symm.trans (isAbout_decidedEvent habout), ?_⟩
    exact (h.tasks e.1 task htask).answered true hphase
  rw [List.countP_eq_length_filter]
  by_contra hlen
  obtain ⟨e₁, e₂, rest, hfilter⟩ : ∃ e₁ e₂ rest,
      s.published.filter (fun e => isAbout id e.2) = e₁ :: e₂ :: rest := by
    match hf : s.published.filter (fun e => isAbout id e.2) with
    | [] => simp [hf] at hlen
    | [_] => simp [hf] at hlen
    | e₁ :: e₂ :: rest => exact ⟨e₁, e₂, rest, hf⟩
  have hmem : ∀ e ∈ e₁ :: e₂ :: rest, e ∈ s.published ∧ isAbout id e.2 := by
    intro e he
    rw [← hfilter, List.mem_filter] at he
    exact ⟨he.1, by simpa using he.2⟩
  obtain ⟨hm₁, ha₁⟩ := hmem e₁ (by simp)
  obtain ⟨hm₂, ha₂⟩ := hmem e₂ (by simp)
  have heq := h.unique id e₁.1 e₂.1 (hwinner e₁ hm₁ ha₁) (hwinner e₂ hm₂ ha₂)
  have hnodup : ((e₁ :: e₂ :: rest).map Prod.fst).Nodup := by
    rw [← hfilter]
    exact h.once.sublist (List.filter_sublist.map Prod.fst)
  simp [heq] at hnodup

/-- In every reachable state: a decided row stays as it is in all continuations;
exactly one decide call has changed it, and none has while it is pending; a
decide reply says what the call's `UPDATE` did; at most one event is published
about an approval and it carries the stored decision; and what
`wait_for_approval` returned is the stored decision. -/
theorem approval_agreement {gates : List McpGate} {acts : List Action}
    (hrun : run (step crates) (State.init gates) acts = some s) :
    (∀ more t, run (step crates) s more = some t → ∀ id row, s.approvals id = some row →
      ∃ row', t.approvals id = some row' ∧ (row.state ≠ .pending → row' = row)) ∧
    (∀ id row, s.approvals id = some row →
      (row.state ≠ .pending → ∃! t, Winner s id t) ∧
      (row.state = .pending → ∀ t, ¬ Winner s id t)) ∧
    (∀ t task b, s.tasks t = some task → task.phase = .answered (.ok b) →
      task.changed = some b) ∧
    (∀ id, s.published.countP (fun e => isAbout id e.2) ≤ 1) ∧
    (∀ e ∈ s.published, ∃ row, s.approvals row.id = some row ∧ row.state ≠ .pending ∧
      e.2 = decidedEvent row) ∧
    ∀ c call state, s.calls c = some call → call.waited = some state →
      ∃ id row, call.approval = some id ∧ s.approvals id = some row ∧ row.state = state ∧
        state ≠ .pending := by
  have hinv := inv_of_run hrun
  refine ⟨fun more t hmore id row hrow => ?_, fun id row hrow => ⟨fun hne => ?_, fun hp => ?_⟩,
    fun t task b htask hphase => ?_, published_at_most_once hinv, fun e he => ?_,
    fun c call state hcall hwaited => ?_⟩
  · obtain ⟨row', hrow', hadv⟩ := rows_of_run hmore id row hrow
    exact ⟨row', hrow', hadv.frozen⟩
  · obtain ⟨t, ht⟩ := hinv.decided id row hrow hne
    exact ⟨t, ht, fun t' ht' => hinv.unique id t' t ht' ht⟩
  · exact hinv.undecided id row hrow hp
  · exact (hinv.tasks t task htask).answered b hphase
  · obtain ⟨-, row, -, -, -, hrow, hne, hdata⟩ := hinv.published e he
    exact ⟨row, hrow, hne, hdata⟩
  · obtain ⟨id, hid, hne, row, hrow, hstate⟩ := (hinv.calls c call hcall).waited state hwaited
    exact ⟨id, row, hid, hrow, hstate, hne⟩

theorem approval_agreement_allowedRun :
    ∃ s, run (step Crates.plain) (State.init []) allowedRun = some s ∧
      ∀ id row, s.approvals id = some row →
        (row.state ≠ .pending → ∃! t, Winner s id t) ∧
        (row.state = .pending → ∀ t, ¬ Winner s id t) := by
  obtain ⟨s, hs⟩ : ∃ s, run (step Crates.plain) (State.init []) allowedRun = some s :=
    Option.isSome_iff_exists.mp (by decide)
  exact ⟨s, hs, (approval_agreement hs).2.1⟩

end Postblox.Mcp.Bridge
