import Postblox.Ipc.Connection

/-!
# What a step of a connection does

A step is one of the client or one of the server; the steps of the server are listed with
the guards later arguments need.
-/
namespace Postblox.Ipc

open Json (Data)
open Daemon (Op)

namespace Connection

variable {s t : Connection}

/-- What a step of the client does. -/
inductive Calls (s : Connection) : Connection → Prop where
  | request (op : String) (args : Data) (hidle : s.client.caller = .idle) :
      Calls s { s with
        client := { s.client with
          nextId := s.client.nextId + 1
          pending := s.client.nextId :: s.client.pending.filter (· ≠ s.client.nextId)
          caller := .requesting ⟨s.client.nextId, op, args⟩ false .waiting }
        calls := s.calls + 1 }
  | write {req : Request} {slot : Slot} (hcaller : s.client.caller = .requesting req false slot) :
      Calls s { s with
        client := { s.client with
          caller := .requesting req true slot, outbound := s.client.outbound ++ [req] }
        requests := req :: s.requests }
  | writeFails {req : Request} {slot : Slot} (e : ClientError)
      (hcaller : s.client.caller = .requesting req false slot) :
      Calls s { s with
        client := { s.client with
          pending := s.client.pending.filter (· ≠ req.id), caller := .idle
          returned := s.client.returned ++ [(req, .error e)] } }
  | finish {req : Request} {r : Response}
      (hcaller : s.client.caller = .requesting req true (.answered r)) :
      Calls s { s with
        client := { s.client with
          caller := .idle, returned := s.client.returned ++ [(req, .ok r)] } }
  | finishClosed {req : Request} (hcaller : s.client.caller = .requesting req true .dropped) :
      Calls s { s with
        client := { s.client with
          caller := .idle, returned := s.client.returned ++ [(req, .error .closed)] } }
  | abandon {req : Request} {slot : Slot} (hcaller : s.client.caller = .requesting req true slot)
      (hslot : ∀ r, slot ≠ .answered r) :
      Calls s { s with client := { s.client with caller := .idle } }
  | abandonAnswered {req : Request} {r : Response}
      (hcaller : s.client.caller = .requesting req true (.answered r)) :
      Calls s { s with
        client := { s.client with caller := .idle }
        discarded := req.id :: s.discarded }
  | sendRequest (op : String) (args : Data) (hidle : s.client.caller = .idle) :
      Calls s { s with
        client := { s.client with
          nextId := s.client.nextId + 1
          outbound := s.client.outbound ++ [⟨s.client.nextId, op, args⟩] }
        calls := s.calls + 1
        pipelined := ⟨s.client.nextId, op, args⟩ :: s.pipelined }
  | sendRequestFails :
      Calls s { s with
        client := { s.client with nextId := s.client.nextId + 1 }
        calls := s.calls + 1 }
  | nextResponse {r : Response} {rest : List Response} (hresponses : s.client.responses = r :: rest) :
      Calls s { s with
        client := { s.client with responses := rest, obtained := s.client.obtained ++ [r] } }
  | nextEvent (events : List Event) : Calls s { s with client := { s.client with events } }
  | readAnswer {req : Request} {written : Bool} {r : Response} {rest : List (Option Frame)}
      (hreading : s.client.reader = .reading) (hinbound : s.client.inbound = some (.response r) :: rest)
      (hpending : r.id ∈ s.client.pending)
      (hcaller : s.client.caller = .requesting req written .waiting) (hid : req.id = r.id) :
      Calls s { s with
        client := { s.client with
          inbound := rest, pending := s.client.pending.filter (· ≠ r.id)
          caller := .requesting req written (.answered r) } }
  | readStale {r : Response} {rest : List (Option Frame)}
      (hreading : s.client.reader = .reading) (hinbound : s.client.inbound = some (.response r) :: rest)
      (hpending : r.id ∈ s.client.pending) :
      Calls s { s with
        client := { s.client with
          inbound := rest, pending := s.client.pending.filter (· ≠ r.id) }
        discarded := r.id :: s.discarded }
  | readQueued {r : Response} {rest : List (Option Frame)}
      (hreading : s.client.reader = .reading) (hinbound : s.client.inbound = some (.response r) :: rest)
      (hpending : r.id ∉ s.client.pending) :
      Calls s { s with
        client := { s.client with inbound := rest, reader := .sendingResponse r } }
  | readOther {item : Option Frame} {rest : List (Option Frame)} {reader : ReaderTask}
      (hreading : s.client.reader = .reading) (hinbound : s.client.inbound = item :: rest)
      (hitem : ∀ r, item ≠ some (.response r))
      (hreader : reader = .reading ∧ item.isSome ∨ reader = .clearing ∨
        ∃ e, reader = .sendingEvent e ∧ item = some (.event e)) :
      Calls s { s with client := { s.client with inbound := rest, reader } }
  | pushResponse {r : Response} (hreader : s.client.reader = .sendingResponse r) :
      Calls s { s with
        client := { s.client with
          reader := .reading, responses := s.client.responses ++ [r] } }
  | pushEvent {e : Event} (hreader : s.client.reader = .sendingEvent e) :
      Calls s { s with
        client := { s.client with reader := .reading, events := s.client.events ++ [e] } }
  | clear (hreader : s.client.reader = .clearing) :
      Calls s { s with
        client := { s.client with
          reader := .ended, pending := []
          caller := Client.dropSenders s.client.caller s.client.pending } }

/-- A delivery that is noticed. -/
theorem deliver_ne {caller : Caller} {r : Response} (h : Client.deliver caller r ≠ caller) :
    ∃ req written, caller = .requesting req written .waiting ∧ req.id = r.id := by
  unfold Client.deliver at h
  split at h
  · next req written =>
    by_cases hid : req.id = r.id
    · exact ⟨req, written, rfl, hid⟩
    · rw [if_neg hid] at h
      exact absurd rfl h
  · exact absurd rfl h

theorem calls_of_read {c : Client} (hstep : s.client.step .read = some c) :
    Calls s { s.record .read with client := c } := by
  simp only [Client.step] at hstep
  split at hstep
  · next item rest hreading hinbound =>
    cases hstep
    by_cases hitem : ∃ r, item = some (.response r)
    · obtain ⟨r, rfl⟩ := hitem
      by_cases hpending : r.id ∈ s.client.pending
      · simp only [Client.readItem, if_pos hpending]
        by_cases hsame : Client.deliver s.client.caller r = s.client.caller
        · have hrecord : s.record .read = { s with discarded := r.id :: s.discarded } := by
            simp [record, hinbound, hpending, hsame]
          rw [hrecord, hsame]
          exact .readStale hreading hinbound hpending
        · have hrecord : s.record .read = s := by
            simp [record, hinbound, hsame]
          obtain ⟨req, written, hcaller, hid⟩ := deliver_ne hsame
          have hdeliver : Client.deliver s.client.caller r =
              .requesting req written (.answered r) := by
            simp [Client.deliver, hcaller, hid]
          rw [hrecord, hdeliver]
          exact .readAnswer hreading hinbound hpending hcaller hid
      · have hrecord : s.record .read = s := by
          simp [record, hinbound, hpending]
        rw [hrecord]
        simp only [Client.readItem, if_neg hpending]
        exact .readQueued hreading hinbound hpending
    · have hnot : ∀ r, item ≠ some (.response r) := fun r h => hitem ⟨r, h⟩
      have hrecord : s.record .read = s := by
        match item with
        | none | some (.event _) | some (.request _) => simp [record, hinbound]
        | some (.response r) => exact absurd rfl (hnot r)
      rw [hrecord]
      match item with
      | none => exact .readOther hreading hinbound hnot (.inr (.inl rfl))
      | some (.event e) => exact .readOther hreading hinbound hnot (.inr (.inr ⟨e, rfl, rfl⟩))
      | some (.request _) => exact .readOther hreading hinbound hnot (.inl ⟨hreading, rfl⟩)
      | some (.response r) => exact absurd rfl (hnot r)
  · cases hstep

theorem calls_of_step {a : ClientAction} {c : Client} (ha : ∀ item, a ≠ .arrive item)
    (hstep : s.client.step a = some c) : Calls s { s.record a with client := c } := by
  cases a with
  | request op args =>
    simp only [Client.step] at hstep
    split at hstep
    · next hidle =>
      cases hstep
      exact .request op args hidle
    · cases hstep
  | write =>
    simp only [Client.step] at hstep
    split at hstep
    · next req slot hcaller =>
      cases hstep
      have hrecord : s.record .write = { s with requests := req :: s.requests } := by
        simp [record, hcaller]
      rw [hrecord]
      exact .write hcaller
    · cases hstep
  | writeFails e =>
    simp only [Client.step] at hstep
    split at hstep
    · next hcaller =>
      cases hstep
      exact .writeFails e hcaller
    · cases hstep
  | finish =>
    simp only [Client.step] at hstep
    split at hstep
    · next hcaller =>
      cases hstep
      exact .finish hcaller
    · next hcaller =>
      cases hstep
      exact .finishClosed hcaller
    · cases hstep
  | abandon =>
    simp only [Client.step] at hstep
    split at hstep
    · next req slot hcaller =>
      cases hstep
      simp only [record, hcaller]
      cases slot with
      | answered r => exact .abandonAnswered hcaller
      | waiting => exact .abandon hcaller (fun _ h => (nomatch h))
      | dropped => exact .abandon hcaller (fun _ h => (nomatch h))
    · cases hstep
  | sendRequest op args =>
    simp only [Client.step] at hstep
    split at hstep
    · next hidle =>
      cases hstep
      exact .sendRequest op args hidle
    · cases hstep
  | sendRequestFails op args =>
    simp only [Client.step] at hstep
    split at hstep <;> cases hstep
    exact .sendRequestFails
  | nextResponse =>
    simp only [Client.step] at hstep
    split at hstep
    · next hresponses =>
      cases hstep
      exact .nextResponse hresponses
    · cases hstep
  | nextEvent =>
    simp only [Client.step] at hstep
    split at hstep <;> cases hstep
    exact .nextEvent _
  | read => exact calls_of_read hstep
  | push =>
    simp only [Client.step] at hstep
    split at hstep
    · next hreader =>
      split_ifs at hstep
      cases hstep
      exact .pushResponse hreader
    · next hreader =>
      split_ifs at hstep
      cases hstep
      exact .pushEvent hreader
    · cases hstep
  | clear =>
    simp only [Client.step] at hstep
    split at hstep
    · next hreader =>
      cases hstep
      exact .clear hreader
    · cases hstep
  | arrive item => exact absurd rfl (ha item)

/-- The response a handler makes for a request: the dispatcher's result for the op and the
args of that request, or what the loop itself knows. -/
inductive Replies (results : List (Request × Except RpcError Data)) (req : Request) :
    Response → Prop where
  | subscribe (hop : req.op = "subscribe") (subs : List (UInt64 × Topic)) (nextSub : UInt64) :
      Replies results req (handleSubscribe req subs nextSub).1
  | unsubscribe (hop : req.op = "unsubscribe") (subs : List (UInt64 × Topic)) :
      Replies results req (handleUnsubscribe req subs).1
  | ping (hop : req.op = "ping") : Replies results req (pong req.id)
  | unknown (hop : Op.parse req.op = none) : Replies results req (unknownOp req.id req.op)
  | dispatched {op : Op} {result : Except RpcError Data} (hop : Op.parse req.op = some op)
      (hresult : (req, result) ∈ results) : Replies results req (.ofResult req.id result)

theorem handleSubscribe_id (req : Request) (subs : List (UInt64 × Topic)) (nextSub : UInt64) :
    (handleSubscribe req subs nextSub).1.id = req.id := by
  unfold handleSubscribe
  split
  · rfl
  · split
    · rfl
    · split_ifs <;> rfl

theorem handleUnsubscribe_id (req : Request) (subs : List (UInt64 × Topic)) :
    (handleUnsubscribe req subs).1.id = req.id := by
  unfold handleUnsubscribe
  split
  · rfl
  · split_ifs <;> rfl

theorem ofResult_id (id : UInt64) (result : Except RpcError Data) :
    (Response.ofResult id result).id = id := by
  cases result <;> rfl

theorem Replies.id_eq {results : List (Request × Except RpcError Data)} {req : Request}
    {r : Response} (h : Replies results req r) : r.id = req.id := by
  cases h with
  | subscribe _ subs nextSub => exact handleSubscribe_id req subs nextSub
  | unsubscribe _ subs => exact handleUnsubscribe_id req subs
  | ping | unknown => rfl
  | dispatched => exact ofResult_id _ _

theorem Replies.mono {results results' : List (Request × Except RpcError Data)} {req : Request}
    {r : Response} (h : Replies results req r) (hsub : results ⊆ results') :
    Replies results' req r := by
  cases h with
  | subscribe hop subs nextSub => exact .subscribe hop subs nextSub
  | unsubscribe hop subs => exact .unsubscribe hop subs
  | ping hop => exact .ping hop
  | unknown hop => exact .unknown hop
  | dispatched hop hresult => exact .dispatched hop (hsub hresult)

/-- What a step of the server does. -/
inductive Serves (s : Connection) : Connection → Prop where
  | receive {req : Request} {rest : List Request} (houtbound : s.client.outbound = req :: rest) :
      Serves s { s with
        client := { s.client with outbound := rest }
        spawned := req :: s.spawned
        received := req :: s.received }
  | reap : Serves s { s with joinable := s.joinable - 1 }
  | dispatch {req : Request} {op : Op} (hmem : req ∈ s.spawned) (hop : Op.parse req.op = some op) :
      Serves s { s with
        spawned := s.spawned.erase req, started := req :: s.started
        dispatching := (req, op) :: s.dispatching }
  | reply {req : Request} {r : Response} (hmem : req ∈ s.spawned) (hreply : Replies [] req r)
      (subs : List (UInt64 × Topic)) (nextSub : UInt64) :
      Serves s { s with
        spawned := s.spawned.erase req, started := req :: s.started
        subs, nextSub, replying := (req, r) :: s.replying, answers := (req, r) :: s.answers }
  | complete {req : Request} {op : Op} (hmem : (req, op) ∈ s.dispatching)
      (result : Except RpcError Data) :
      Serves s { s with
        dispatching := s.dispatching.erase (req, op)
        replying := (req, .ofResult req.id result) :: s.replying
        results := (req, result) :: s.results
        answers := (req, .ofResult req.id result) :: s.answers }
  | respond {req : Request} {r : Response} (hmem : (req, r) ∈ s.replying) :
      Serves s { s with
        replying := s.replying.erase (req, r), joinable := s.joinable + 1
        mailbox := s.mailbox ++ [.response r] }
  | dismiss {req : Request} {r : Response} (hmem : (req, r) ∈ s.replying)
      (hwriting : s.writing = false ∨ s.interrupted = true) :
      Serves s { s with
        replying := s.replying.erase (req, r), joinable := s.joinable + 1
        lost := r.id :: s.lost }
  | forward (e : EventOut) : Serves s { s with mailbox := s.mailbox ++ [.event e] }
  | write {frame : OutFrame} {rest : List OutFrame} (hmailbox : s.mailbox = frame :: rest) :
      Serves s { s with
        mailbox := rest
        client := { s.client with inbound := s.client.inbound ++ [some frame.frame] } }
  | writeUnreadable {frame : OutFrame} {rest : List OutFrame} (hmailbox : s.mailbox = frame :: rest) :
      Serves s { s with
        mailbox := rest
        client := { s.client with inbound := s.client.inbound ++ [none] }
        lost := responseIds [frame.frame] ++ s.lost }
  | writeFails :
      Serves s { s with
        writing := false, mailbox := []
        lost := responseIds (s.mailbox.map OutFrame.frame) ++ s.lost }
  | interrupt : Serves s { s with interrupted := true }
  | cancelSpawned {req : Request} (hinterrupted : s.interrupted = true) (hmem : req ∈ s.spawned) :
      Serves s { s with
        spawned := s.spawned.erase req, joinable := s.joinable + 1
        aborted := req :: s.aborted, lost := req.id :: s.lost }
  | cancelDispatching {req : Request} {op : Op} (hinterrupted : s.interrupted = true)
      (hmem : (req, op) ∈ s.dispatching) :
      Serves s { s with
        dispatching := s.dispatching.erase (req, op), joinable := s.joinable + 1
        lost := req.id :: s.lost }
  | drain (hinterrupted : s.interrupted = true) :
      Serves s { s with
        serving := false, spawned := [], dispatching := [], replying := [], joinable := 0
        subs := []
        aborted := s.spawned ++ s.aborted
        lost := (s.spawned.map Request.id ++ s.dispatching.map (fun t => t.1.id) ++
          s.replying.map fun t => t.2.id) ++ s.lost }
  | close :
      Serves s { s with
        writing := false
        client := { s.client with inbound := s.client.inbound ++ [none] } }

theorem serves_of_poll {req : Request} (hmem : req ∈ s.spawned) :
    Serves s ({ s with
      spawned := s.spawned.erase req, started := req :: s.started }.pollHandler req) := by
  unfold pollHandler
  split
  · next hop => exact .reply hmem (.subscribe hop s.subs s.nextSub) _ _
  · next hop => exact .reply hmem (.unsubscribe hop s.subs) _ _
  · next hop => exact .reply hmem (.ping hop) _ _
  · split
    · next hop => exact .dispatch hmem hop
    · next hop => exact .reply hmem (.unknown hop) _ _

/-- A step is one of the client or one of the server. -/
theorem step_cases {a : Action} (hstep : step s a = some t) : Calls s t ∨ Serves s t := by
  cases a with
  | client ca =>
    cases ca with
    | arrive item => cases hstep
    | _ =>
      obtain ⟨c, hc, rfl⟩ := Option.map_eq_some_iff.mp hstep
      exact .inl (calls_of_step (fun _ h => (nomatch h)) hc)
  | receive =>
    simp only [step] at hstep
    split at hstep
    · next houtbound =>
      split_ifs at hstep
      cases hstep
      exact .inr (.receive houtbound)
    · cases hstep
  | reap =>
    simp only [step] at hstep
    split_ifs at hstep
    cases hstep
    exact .inr .reap
  | poll req =>
    simp only [step] at hstep
    split_ifs at hstep with hmem
    cases hstep
    exact .inr (serves_of_poll hmem)
  | complete req op result =>
    simp only [step] at hstep
    split_ifs at hstep with hmem
    cases hstep
    exact .inr (.complete hmem result)
  | respond req r =>
    simp only [step] at hstep
    split_ifs at hstep with hmem hwriting
    · cases hstep
      exact .inr (.dismiss hmem (.inl (by simpa using hwriting)))
    · cases hstep
      exact .inr (.respond hmem)
  | forward sub topic data =>
    simp only [step] at hstep
    split_ifs at hstep
    cases hstep
    exact .inr (.forward _)
  | write =>
    simp only [step] at hstep
    split at hstep
    · next hmailbox =>
      split_ifs at hstep
      cases hstep
      exact .inr (.write hmailbox)
    · cases hstep
  | writeUnreadable =>
    simp only [step] at hstep
    split at hstep
    · next hmailbox =>
      split_ifs at hstep
      cases hstep
      exact .inr (.writeUnreadable hmailbox)
    · cases hstep
  | writeFails =>
    simp only [step] at hstep
    split_ifs at hstep
    cases hstep
    exact .inr .writeFails
  | interrupt =>
    cases hstep
    exact .inr .interrupt
  | cancel task =>
    cases task with
    | spawned req =>
      simp only [step] at hstep
      split_ifs at hstep with h
      rw [Bool.and_eq_true, decide_eq_true_iff] at h
      cases hstep
      exact .inr (.cancelSpawned h.1 h.2)
    | dispatching req op =>
      simp only [step] at hstep
      split_ifs at hstep with h
      rw [Bool.and_eq_true, decide_eq_true_iff] at h
      cases hstep
      exact .inr (.cancelDispatching h.1 h.2)
    | replying req r =>
      simp only [step] at hstep
      split_ifs at hstep with h
      rw [Bool.and_eq_true, decide_eq_true_iff] at h
      cases hstep
      exact .inr (.dismiss h.2 (.inr h.1))
  | drain =>
    simp only [step] at hstep
    split_ifs at hstep with h
    rw [Bool.and_eq_true] at h
    cases hstep
    exact .inr (.drain h.2)
  | close =>
    simp only [step] at hstep
    split_ifs at hstep
    cases hstep
    exact .inr .close

end Connection

end Postblox.Ipc
