import Postblox.Ipc.ConnectionSteps
import Postblox.Lib.Broadcast

/-!
# Events from the hub to a client

The hub, one connection and the forwarder tasks of its subscriptions. A subscription has a
receiver on the bounded channel of its topic; its forwarder takes one payload at a time and
waits for room in the mailbox of the connection, from where the payload goes the way of
every frame. A value that is sent while nobody listens stays in the channel here, before
the place where the next receiver starts.
-/
namespace Postblox.Ipc

open Json (Value Data)
open Lib Lib.Machine

/-- `DEFAULT_TOPIC_CAPACITY`. -/
def defaultTopicCapacity : Nat := 256

/-- `log` is the history: what was sent on a topic since its channel is there. -/
structure Hub where
  channels : Topic → Option (Channel Data)
  log : Topic → List Data

namespace Hub

def new : Hub := ⟨fun _ => none, fun _ => []⟩

/-- `Hub::publish`; a no-op as long as nobody has subscribed. -/
def publish (capacity : Nat) (hub : Hub) (topic : Topic) (data : Data) : Hub :=
  match hub.channels topic with
  | none => hub
  | some c => {
      channels := Function.update hub.channels topic (some (c.send capacity data))
      log := Function.update hub.log topic (hub.log topic ++ [data]) }

/-- The channel of a topic is made for its first subscriber. -/
def openTopic (hub : Hub) (topic : Topic) : Hub :=
  match hub.channels topic with
  | none => { hub with channels := Function.update hub.channels topic (some .empty) }
  | some _ => hub

/-- The position of a new receiver. -/
def tail (hub : Hub) (topic : Topic) : Nat := (hub.channels topic).elim 0 Channel.sent

end Hub

/-- What a forwarder sends for what it has received. -/
def eventData : Received Data → Data
  | .value data => data
  | .lagged missed => toData (.object [("lagged", u64 (UInt64.ofNat missed))])

/-- `held` waits for the mailbox. The history: where the receiver started and what it got. -/
structure Forwarder where
  sub : UInt64
  topic : Topic
  cursor : Nat
  held : Option Data
  start : Nat
  got : List (Received Data)

def Forwarder.spawned (sub : UInt64) (topic : Topic) (position : Nat) : Forwarder where
  sub := sub
  topic := topic
  cursor := position
  held := none
  start := position
  got := []

/-- `rx.recv()` has yielded. -/
def Forwarder.receive (f : Forwarder) (r : Received Data × Nat) : Forwarder :=
  { f with cursor := r.2, held := some (eventData r.1), got := f.got ++ [r.1] }

/-- The mailbox has taken the payload. -/
def Forwarder.release (f : Forwarder) : Forwarder := { f with held := none }

/-- The event as the client reads it. -/
def Forwarder.event (f : Forwarder) (data : Data) : Event := ⟨f.sub, f.topic.asStr, data⟩

/-- A forwarder is aborted with its subscription; it stays in the list. The last two fields
are the events the mailbox has taken and those the client has. -/
structure EventSystem where
  hub : Hub
  connection : Connection
  forwarders : List Forwarder
  posted : List Event
  taken : List Event

inductive EventAction where
  | publish (topic : Topic) (data : Data)
  | recv (i : Nat)
  | forward (i : Nat)
  | connection (a : Action)

/-- The topic of a request that gets as far as `Hub::subscribe`. -/
def subscribedTopic (req : Request) : Option Topic :=
  if req.op = "subscribe" then ((req.args.val.get "topic").bind Value.asStr).bind Topic.parse
  else none

namespace EventSystem

variable (capacity : Nat)

def start : EventSystem where
  hub := .new
  connection := .start
  forwarders := []
  posted := []
  taken := []

def live (s : EventSystem) (f : Forwarder) : Bool := s.connection.subs.contains (f.sub, f.topic)

/-- The part of `handle_subscribe` that the connection does not see. -/
def subscribe (s : EventSystem) (req : Request) : EventSystem :=
  match subscribedTopic req with
  | none => s
  | some topic =>
    let hub := s.hub.openTopic topic
    if maxSubsPerConn ≤ s.connection.subs.length then { s with hub }
    else
      let f := Forwarder.spawned s.connection.nextSub topic (hub.tail topic)
      { s with hub, forwarders := s.forwarders ++ [f] }

/-- What the step of the connection means for the rest. -/
def follow (s : EventSystem) : Action → EventSystem
  | .poll req => s.subscribe req
  | .client .nextEvent => { s with taken := s.taken ++ s.connection.client.events.head?.toList }
  | _ => s

def step (s : EventSystem) : EventAction → Option EventSystem
  | .publish topic data => some { s with hub := s.hub.publish capacity topic data }
  | .recv i =>
    match s.forwarders[i]? with
    | none => none
    | some f =>
      if s.live f && f.held.isNone then
        (s.hub.channels f.topic).bind fun c => (c.recv f.cursor).map fun r =>
          { s with forwarders := s.forwarders.set i (f.receive r) }
      else none
  | .forward i =>
    match s.forwarders[i]? with
    | none => none
    | some f =>
      match f.held with
      | none => none
      | some data =>
        (s.connection.step (.forward f.sub f.topic data)).map fun connection =>
          { s with
            connection
            forwarders := s.forwarders.set i f.release
            posted := s.posted ++ [f.event data] }
  | .connection (.forward ..) => none
  | .connection a => (s.connection.step a).map fun connection => { s.follow a with connection }

end EventSystem

/-! ## The way of an event -/

def eventOf : Frame → Option Event
  | .event e => some e
  | .request _ | .response _ => none

/-- The events that are read before the first error. -/
def readable (inbound : List (Option Frame)) : List Event :=
  ((inbound.takeWhile Option.isSome).filterMap id).filterMap eventOf

def mailboxEvents (mailbox : List OutFrame) : List Event :=
  mailbox.filterMap fun frame => eventOf frame.frame

/-- The reader task has left its loop. -/
def ReaderTask.done : ReaderTask → Bool
  | .clearing | .ended => true
  | .reading | .sendingResponse _ | .sendingEvent _ => false

def ReaderTask.hand : ReaderTask → List Event
  | .sendingEvent e => [e]
  | .reading | .sendingResponse _ | .clearing | .ended => []

namespace Connection

variable {s t : Connection} {a : Action}

/-- Behind the queue of the client: what will be read, if the mailbox is written. -/
def behind (reader : ReaderTask) (inbound : List (Option Frame)) (mailbox : List OutFrame) :
    List Event :=
  if reader.done then []
  else reader.hand ++ readable inbound ++ if none ∈ inbound then [] else mailboxEvents mailbox

/-- The events that the client can still get, in order. -/
def onTheWay (s : Connection) : List Event :=
  s.client.events ++ behind s.client.reader s.client.inbound s.mailbox

/-- Nothing has been lost so far. -/
def intact (s : Connection) : Bool :=
  s.writing && !s.client.reader.done && s.client.inbound.all Option.isSome

/-- What an event passes through. -/
def lane (s : Connection) : List Event × ReaderTask × List (Option Frame) × List OutFrame × Bool :=
  (s.client.events, s.client.reader, s.client.inbound, s.mailbox, s.writing)

/-- The steps that events take part in. -/
def touchesLane : Action → Bool
  | .client .nextEvent | .client .read | .client .push | .client .clear => true
  | .respond .. | .forward .. | .write | .writeUnreadable | .writeFails | .close => true
  | _ => false

theorem lane_record (s : Connection) (ca : ClientAction) : (s.record ca).lane = s.lane := by
  unfold record
  split <;> try rfl
  · split <;> rfl
  · split <;> rfl
  · split
    · split_ifs <;> rfl
    · rfl

theorem client_lane_of_step {c c' : Client} {ca : ClientAction}
    (hquiet : touchesLane (.client ca) = false) (harrive : ∀ item, ca ≠ .arrive item)
    (hstep : c.step ca = some c') :
    c'.events = c.events ∧ c'.reader = c.reader ∧ c'.inbound = c.inbound := by
  cases ca with
  | nextEvent | read | push | clear => cases hquiet
  | arrive item => exact absurd rfl (harrive item)
  | request | write | writeFails | finish | abandon | sendRequest | sendRequestFails
  | nextResponse =>
    simp only [Client.step] at hstep
    split at hstep <;> cases hstep <;> exact ⟨rfl, rfl, rfl⟩

theorem lane_of_step (hquiet : touchesLane a = false) (hstep : s.step a = some t) :
    t.lane = s.lane := by
  cases a with
  | client ca =>
    have harrive : ∀ item, ca ≠ .arrive item := by
      rintro item rfl
      cases hstep
    have hmap : s.step (.client ca) =
        (s.client.step ca).map fun client => { s.record ca with client } := by
      cases ca <;> first | rfl | exact absurd rfl (harrive _)
    rw [hmap] at hstep
    obtain ⟨c, hc, rfl⟩ := Option.map_eq_some_iff.mp hstep
    obtain ⟨hevents, hreader, hinbound⟩ := client_lane_of_step hquiet harrive hc
    have hrecord := lane_record s ca
    simp only [lane, Prod.mk.injEq] at hrecord ⊢
    exact ⟨hevents, hreader, hinbound, hrecord.2.2.2⟩
  | respond | forward | write | writeUnreadable | writeFails | close => cases hquiet
  | receive =>
    simp only [step] at hstep
    split at hstep
    · split_ifs at hstep
      cases hstep
      rfl
    · cases hstep
  | reap | complete | drain =>
    simp only [step] at hstep
    split_ifs at hstep
    cases hstep
    rfl
  | poll req =>
    simp only [step] at hstep
    split_ifs at hstep
    cases hstep
    unfold pollHandler
    split <;> try rfl
    split <;> rfl
  | interrupt =>
    cases hstep
    rfl
  | cancel task =>
    cases task <;> simp only [step] at hstep <;> split_ifs at hstep <;> cases hstep <;> rfl

theorem none_mem_iff {inbound : List (Option Frame)} :
    none ∈ inbound ↔ inbound.all Option.isSome = false := by
  rw [← Bool.not_eq_true, List.all_eq_true]
  constructor
  · exact fun hmem hall => absurd (hall none hmem) (by decide)
  · intro hnot
    by_contra hmem
    refine hnot fun item hitem => ?_
    cases item with
    | none => exact absurd hitem hmem
    | some frame => rfl

theorem readable_cons_some (frame : Frame) (rest : List (Option Frame)) :
    readable (some frame :: rest) = (eventOf frame).toList ++ readable rest := by
  unfold readable
  cases h : eventOf frame <;> simp [h]

theorem readable_snoc_of_none {inbound : List (Option Frame)} (hnone : none ∈ inbound)
    (item : Option Frame) : readable (inbound ++ [item]) = readable inbound := by
  induction inbound with
  | nil => cases hnone
  | cons first rest ih =>
    cases first with
    | none => rfl
    | some frame =>
      have hrest : none ∈ rest := by simpa using hnone
      rw [List.cons_append, readable_cons_some, readable_cons_some, ih hrest]

theorem readable_snoc {inbound : List (Option Frame)} (hsome : none ∉ inbound)
    (item : Option Frame) :
    readable (inbound ++ [item]) = readable inbound ++ (item.bind eventOf).toList := by
  induction inbound with
  | nil =>
    cases item with
    | none => rfl
    | some frame => rw [List.nil_append, readable_cons_some]; simp [readable]
  | cons first rest ih =>
    cases first with
    | none => exact absurd List.mem_cons_self hsome
    | some frame =>
      have hrest : none ∉ rest := fun hmem => hsome (List.mem_cons_of_mem _ hmem)
      rw [List.cons_append, readable_cons_some, readable_cons_some, ih hrest, List.append_assoc]

theorem mailboxEvents_cons (frame : OutFrame) (rest : List OutFrame) :
    mailboxEvents (frame :: rest) = (eventOf frame.frame).toList ++ mailboxEvents rest := by
  unfold mailboxEvents
  cases h : eventOf frame.frame <;> simp [h]

theorem mailboxEvents_snoc (mailbox : List OutFrame) (frame : OutFrame) :
    mailboxEvents (mailbox ++ [frame]) = mailboxEvents mailbox ++ (eventOf frame.frame).toList := by
  unfold mailboxEvents
  rw [List.filterMap_append]
  cases h : eventOf frame.frame <;> simp [h]

/-- The writer hands over one frame. -/
theorem behind_write (reader : ReaderTask) (inbound : List (Option Frame)) (frame : OutFrame)
    (rest : List OutFrame) :
    behind reader (inbound ++ [some frame.frame]) rest = behind reader inbound (frame :: rest) := by
  unfold behind
  by_cases hnone : none ∈ inbound
  · simp [hnone, readable_snoc_of_none hnone]
  · simp [hnone, readable_snoc hnone, mailboxEvents_cons]

/-- An error goes in behind, and the frame in front of the mailbox is gone. -/
theorem behind_fail (reader : ReaderTask) (inbound : List (Option Frame))
    (mailbox rest : List OutFrame) :
    behind reader (inbound ++ [none]) rest <+: behind reader inbound mailbox := by
  unfold behind
  split_ifs with hdone hnone' hnone
  · exact List.prefix_refl _
  · rw [readable_snoc_of_none hnone]
  · rw [readable_snoc hnone, Option.bind_none, Option.toList_none, List.append_nil, List.append_nil]
    exact List.prefix_append _ _
  · exact absurd (List.mem_append_right _ List.mem_cons_self) hnone'
  · exact absurd (List.mem_append_right _ List.mem_cons_self) hnone'

/-- Fewer frames in the mailbox. -/
theorem behind_drop (reader : ReaderTask) (inbound : List (Option Frame)) (mailbox : List OutFrame) :
    behind reader inbound [] <+: behind reader inbound mailbox := by
  unfold behind
  split_ifs
  · exact List.prefix_refl _
  · exact List.prefix_refl _
  · exact (List.prefix_append_right_inj _).mpr List.nil_prefix

/-- What a step leaves of the events on their way, when none is put in or taken out. -/
structure Keeps (s t : Connection) : Prop where
  kept : t.onTheWay <+: s.onTheWay
  whole : t.intact = true → s.intact = true ∧ t.onTheWay = s.onTheWay

theorem Keeps.of_eq (hevents : t.onTheWay = s.onTheWay) (hintact : t.intact = true → s.intact = true) :
    Keeps s t :=
  ⟨hevents ▸ List.prefix_refl _, fun h => ⟨hintact h, hevents⟩⟩

theorem Keeps.of_lane (h : t.lane = s.lane) : Keeps s t := by
  simp only [lane, Prod.mk.injEq] at h
  obtain ⟨hevents, hreader, hinbound, hmailbox, hwriting⟩ := h
  refine .of_eq ?_ ?_
  · rw [onTheWay, onTheWay, hevents, hreader, hinbound, hmailbox]
  · rw [intact, intact, hreader, hinbound, hwriting]
    exact id

/-- A step that breaks the way. -/
theorem Keeps.of_broken (hpre : t.onTheWay <+: s.onTheWay) (hbroken : t.intact = false) :
    Keeps s t :=
  ⟨hpre, fun h => absurd (h.symm.trans hbroken) (by decide)⟩

theorem keeps_of_read {c : Client} (hstep : s.client.step .read = some c) :
    Keeps s { s.record .read with client := c } := by
  have hrecord := lane_record s .read
  simp only [lane, Prod.mk.injEq] at hrecord
  obtain ⟨-, -, -, hmailbox, hwriting⟩ := hrecord
  simp only [Client.step] at hstep
  split at hstep
  · next item rest hreading hinbound =>
    cases hstep
    cases item with
    | none =>
      refine .of_broken ?_ ?_
      · rw [onTheWay, onTheWay]
        simp [Client.readItem, behind, ReaderTask.done]
      · simp [intact, Client.readItem, ReaderTask.done]
    | some frame =>
      cases frame with
      | request req =>
        refine .of_eq ?_ ?_
        · simp [onTheWay, behind, Client.readItem, hreading, hinbound, readable_cons_some, eventOf,
            hmailbox]
        · simp [intact, Client.readItem, hreading, hinbound, hwriting]
      | response r =>
        by_cases hpending : r.id ∈ s.client.pending
        · refine .of_eq ?_ ?_
          · simp [onTheWay, behind, Client.readItem, hreading, hinbound, readable_cons_some, eventOf,
              hmailbox, hpending]
          · simp [intact, Client.readItem, hreading, hinbound, hwriting, hpending]
        · refine .of_eq ?_ ?_
          · simp [onTheWay, behind, Client.readItem, hreading, hinbound, readable_cons_some, eventOf,
              hmailbox, hpending, ReaderTask.done, ReaderTask.hand]
          · simp [intact, Client.readItem, hreading, hinbound, hwriting, hpending, ReaderTask.done]
      | event e =>
        refine .of_eq ?_ ?_
        · simp [onTheWay, behind, Client.readItem, hreading, hinbound, readable_cons_some, eventOf,
            hmailbox, ReaderTask.done, ReaderTask.hand]
        · simp [intact, Client.readItem, hreading, hinbound, hwriting, ReaderTask.done]
  · cases hstep

theorem keeps_of_push {c : Client} (hstep : s.client.step .push = some c) :
    Keeps s { s with client := c } := by
  simp only [Client.step] at hstep
  split at hstep
  · next hreader =>
    split_ifs at hstep
    cases hstep
    refine .of_eq ?_ ?_
    · simp [onTheWay, behind, hreader, ReaderTask.done, ReaderTask.hand]
    · simp [intact, hreader, ReaderTask.done]
  · next hreader =>
    split_ifs at hstep
    cases hstep
    refine .of_eq ?_ ?_
    · simp [onTheWay, behind, hreader, ReaderTask.done, ReaderTask.hand]
    · simp [intact, hreader, ReaderTask.done]
  · cases hstep

theorem keeps_of_clear {c : Client} (hstep : s.client.step .clear = some c) :
    Keeps s { s with client := c } := by
  simp only [Client.step] at hstep
  split at hstep
  · next hreader =>
    cases hstep
    refine .of_broken ?_ ?_
    · simp [onTheWay, behind, hreader, ReaderTask.done]
    · simp [intact, ReaderTask.done]
  · cases hstep

/-- Every step but `next_event` and that of a forwarder keeps the events on their way, or
breaks the way behind some of them. -/
theorem keeps_of_step (hnext : a ≠ .client .nextEvent)
    (hforward : ∀ sub topic data, a ≠ .forward sub topic data) (hstep : s.step a = some t) :
    Keeps s t := by
  by_cases hquiet : touchesLane a = false
  · exact .of_lane (lane_of_step hquiet hstep)
  cases a with
  | client ca =>
    cases ca with
    | nextEvent => exact absurd rfl hnext
    | read =>
      obtain ⟨c, hc, rfl⟩ := Option.map_eq_some_iff.mp hstep
      exact keeps_of_read hc
    | push =>
      obtain ⟨c, hc, rfl⟩ := Option.map_eq_some_iff.mp hstep
      exact keeps_of_push hc
    | clear =>
      obtain ⟨c, hc, rfl⟩ := Option.map_eq_some_iff.mp hstep
      exact keeps_of_clear hc
    | request | write | writeFails | finish | abandon | sendRequest | sendRequestFails
    | nextResponse | arrive => exact absurd rfl hquiet
  | respond req r =>
    simp only [step] at hstep
    split_ifs at hstep
    · cases hstep
      exact .of_lane rfl
    · cases hstep
      refine .of_eq ?_ id
      simp [onTheWay, behind, mailboxEvents_snoc, OutFrame.frame, eventOf]
  | forward sub topic data => exact absurd rfl (hforward sub topic data)
  | write =>
    simp only [step] at hstep
    split at hstep
    · next frame rest hmailbox =>
      split_ifs at hstep
      cases hstep
      refine .of_eq ?_ ?_
      · rw [onTheWay, onTheWay, hmailbox, behind_write]
      · simp [intact]
    · cases hstep
  | writeUnreadable =>
    simp only [step] at hstep
    split at hstep
    · next frame rest hmailbox =>
      split_ifs at hstep
      cases hstep
      refine .of_broken ?_ ?_
      · exact (List.prefix_append_right_inj _).mpr (behind_fail _ _ _ _)
      · simp [intact]
    · cases hstep
  | writeFails =>
    simp only [step] at hstep
    split_ifs at hstep
    cases hstep
    refine .of_broken ?_ rfl
    exact (List.prefix_append_right_inj _).mpr (behind_drop _ _ _)
  | close =>
    simp only [step] at hstep
    split_ifs at hstep
    cases hstep
    refine .of_broken ?_ rfl
    exact (List.prefix_append_right_inj _).mpr (behind_fail _ _ _ _)
  | receive | reap | poll | complete | interrupt | cancel | drain => exact absurd rfl hquiet

/-- `next_event` takes the first one. -/
theorem onTheWay_of_nextEvent (hstep : s.step (.client .nextEvent) = some t) :
    s.onTheWay = s.client.events.head?.toList ++ t.onTheWay ∧ t.intact = s.intact := by
  obtain ⟨c, hc, rfl⟩ := Option.map_eq_some_iff.mp hstep
  simp only [Client.step] at hc
  split at hc
  · next hevents =>
    cases hc
    refine ⟨?_, rfl⟩
    simp [onTheWay, hevents, record]
  · cases hc

/-- A forwarder puts one in behind the last, as long as the way is there. -/
theorem onTheWay_of_forward {sub : UInt64} {topic : Topic} {data : Data}
    (hstep : s.step (.forward sub topic data) = some t) :
    (s.intact = true → t.onTheWay = s.onTheWay ++ [⟨sub, topic.asStr, data⟩]) ∧
    (s.intact = false → t.onTheWay = s.onTheWay) ∧ t.intact = s.intact ∧ t.nextSub = s.nextSub := by
  simp only [step] at hstep
  split_ifs at hstep with hguard
  cases hstep
  simp only [Bool.and_eq_true, decide_eq_true_eq] at hguard
  have hwriting : s.writing = true := hguard.1.2
  refine ⟨fun hintact => ?_, fun hbroken => ?_, rfl, rfl⟩
  · simp only [intact, Bool.and_eq_true, Bool.not_eq_true'] at hintact
    have hnone : none ∉ s.client.inbound := by
      rw [none_mem_iff, hintact.2]
      decide
    simp [onTheWay, behind, hintact.1.2, hnone, mailboxEvents_snoc, OutFrame.frame, eventOf]
  · simp only [intact, hwriting, Bool.true_and, Bool.and_eq_false_iff, Bool.not_eq_false'] at hbroken
    rcases hbroken with hdone | hsome
    · simp [onTheWay, behind, hdone]
    · simp [onTheWay, behind, none_mem_iff.mpr hsome]

/-! ## The ids of the subscriptions -/

theorem nextSub_record (s : Connection) (ca : ClientAction) : (s.record ca).nextSub = s.nextSub := by
  unfold record
  split <;> try rfl
  · split <;> rfl
  · split <;> rfl
  · split
    · split_ifs <;> rfl
    · rfl

/-- Only a handler counts the subscriptions. -/
theorem nextSub_of_step (hpoll : ∀ req, a ≠ .poll req) (hstep : s.step a = some t) :
    t.nextSub = s.nextSub := by
  cases a with
  | client ca =>
    cases ca <;> first
      | cases hstep
      | (obtain ⟨c, -, rfl⟩ := Option.map_eq_some_iff.mp hstep; exact nextSub_record s _)
  | poll req => exact absurd rfl (hpoll req)
  | receive | write | writeUnreadable =>
    simp only [step] at hstep
    split at hstep
    · split_ifs at hstep
      cases hstep
      rfl
    · cases hstep
  | reap | complete | forward | writeFails | drain | close =>
    simp only [step] at hstep
    split_ifs at hstep
    cases hstep
    rfl
  | respond =>
    simp only [step] at hstep
    split_ifs at hstep <;> cases hstep <;> rfl
  | interrupt =>
    cases hstep
    rfl
  | cancel task =>
    cases task <;> simp only [step] at hstep <;> split_ifs at hstep <;> cases hstep <;> rfl

/-- A request that reaches the hub takes an id, every other none. -/
theorem nextSub_of_poll {req : Request} (hstep : s.step (.poll req) = some t) :
    t.nextSub = if (subscribedTopic req).isSome then s.nextSub + 1 else s.nextSub := by
  simp only [step] at hstep
  split_ifs at hstep
  cases hstep
  unfold pollHandler subscribedTopic
  split
  · next hop =>
    rw [if_pos hop]
    simp only [handleSubscribe]
    cases htext : (req.args.val.get "topic").bind Value.asStr with
    | none => rfl
    | some text =>
      cases htopic : Topic.parse text with
      | none => simp [htopic]
      | some topic =>
        simp only [Option.bind_some, htopic, Option.isSome_some, if_true]
        split_ifs <;> rfl
  · next hop => simp [hop]
  · next hop => simp [hop]
  · next hsubscribe _ _ =>
    rw [if_neg hsubscribe]
    split <;> rfl

end Connection

namespace EventSystem

variable {capacity : Nat} {s t : EventSystem} {a : EventAction} {acts : List EventAction}

/-! ## In order from the mailbox to the client -/

/-- What the client has taken and can still get is what the mailbox took, in order; it ends
early only if the connection broke. -/
structure InOrder (s : EventSystem) : Prop where
  kept : s.taken ++ s.connection.onTheWay <+: s.posted
  whole : s.connection.intact = true → s.taken ++ s.connection.onTheWay = s.posted

theorem posted_follow (s : EventSystem) (a : Action) : (s.follow a).posted = s.posted := by
  unfold follow
  split
  · unfold subscribe
    split
    · rfl
    · dsimp only
      split_ifs <;> rfl
  · rfl
  · rfl

theorem taken_follow (s : EventSystem) {a : Action} (hnext : a ≠ .client .nextEvent) :
    (s.follow a).taken = s.taken := by
  unfold follow
  split
  · unfold subscribe
    split
    · rfl
    · dsimp only
      split_ifs <;> rfl
  · exact absurd rfl hnext
  · rfl

theorem step_connection {ca : Action} (hforward : ∀ sub topic data, ca ≠ .forward sub topic data) :
    step capacity s (.connection ca) =
      (s.connection.step ca).map fun connection => { s.follow ca with connection } := by
  cases ca <;> first | rfl | exact absurd rfl (hforward _ _ _)

/-- The step of the connection behind a step of the system. -/
theorem connection_step {ca : Action} (hstep : step capacity s (.connection ca) = some t) :
    (∀ sub topic data, ca ≠ .forward sub topic data) ∧
      ∃ connection, s.connection.step ca = some connection ∧ t = { s.follow ca with connection } := by
  have hforward : ∀ sub topic data, ca ≠ .forward sub topic data := by
    rintro sub topic data rfl
    cases hstep
  rw [step_connection hforward] at hstep
  obtain ⟨connection, hconnection, rfl⟩ := Option.map_eq_some_iff.mp hstep
  exact ⟨hforward, connection, hconnection, rfl⟩

theorem recv_step {i : Nat} (hstep : step capacity s (.recv i) = some t) :
    ∃ f c r, s.forwarders[i]? = some f ∧ f.held = none ∧ s.hub.channels f.topic = some c ∧
      c.recv f.cursor = some r ∧ t = { s with forwarders := s.forwarders.set i (f.receive r) } := by
  simp only [step] at hstep
  split at hstep
  · cases hstep
  · next f hf =>
    split_ifs at hstep with hlive
    rw [Bool.and_eq_true, Option.isNone_iff_eq_none] at hlive
    obtain ⟨c, hc, hrecv⟩ := Option.bind_eq_some_iff.mp hstep
    obtain ⟨r, hr, rfl⟩ := Option.map_eq_some_iff.mp hrecv
    exact ⟨f, c, r, hf, hlive.2, hc, hr, rfl⟩

theorem forward_step {i : Nat} (hstep : step capacity s (.forward i) = some t) :
    ∃ f data connection, s.forwarders[i]? = some f ∧ f.held = some data ∧
      s.connection.step (.forward f.sub f.topic data) = some connection ∧
      t = { s with
        connection
        forwarders := s.forwarders.set i f.release
        posted := s.posted ++ [f.event data] } := by
  simp only [step] at hstep
  split at hstep
  · cases hstep
  · next f hf =>
    split at hstep
    · cases hstep
    · next data hdata =>
      obtain ⟨connection, hconnection, rfl⟩ := Option.map_eq_some_iff.mp hstep
      exact ⟨f, data, connection, hf, hdata, hconnection, rfl⟩

theorem InOrder.of_step (h : s.InOrder) (hstep : step capacity s a = some t) : t.InOrder := by
  cases a with
  | publish topic data =>
    cases hstep
    exact ⟨h.kept, h.whole⟩
  | recv i =>
    obtain ⟨f, c, r, -, -, -, -, rfl⟩ := recv_step hstep
    exact ⟨h.kept, h.whole⟩
  | forward i =>
    obtain ⟨f, data, connection, -, -, hconnection, rfl⟩ := forward_step hstep
    obtain ⟨hwhole, hbroken, hsame, -⟩ := Connection.onTheWay_of_forward hconnection
    cases hintact : s.connection.intact with
    | true =>
      have hall : s.taken ++ connection.onTheWay = s.posted ++ [f.event data] := by
        rw [hwhole hintact, ← List.append_assoc, h.whole hintact]
        rfl
      exact ⟨hall ▸ List.prefix_refl _, fun _ => hall⟩
    | false =>
      refine ⟨?_, fun hnow => ?_⟩
      · show s.taken ++ connection.onTheWay <+: _
        rw [hbroken hintact]
        exact h.kept.trans (List.prefix_append _ _)
      · exact absurd (hnow.symm.trans (hsame.trans hintact)) (by decide)
  | connection ca =>
    obtain ⟨hforward, connection, hconnection, rfl⟩ := connection_step hstep
    by_cases hnext : ca = .client .nextEvent
    · subst hnext
      obtain ⟨hfirst, hsame⟩ := Connection.onTheWay_of_nextEvent hconnection
      have hshift : s.taken ++ s.connection.client.events.head?.toList ++ connection.onTheWay =
          s.taken ++ s.connection.onTheWay := by
        rw [hfirst, List.append_assoc]
      exact ⟨hshift ▸ h.kept, fun hnow => hshift ▸ h.whole (hsame ▸ hnow)⟩
    · have hkeeps := Connection.keeps_of_step hnext hforward hconnection
      have htaken := taken_follow s hnext
      have hposted := posted_follow s ca
      refine ⟨?_, fun hnow => ?_⟩
      · show (s.follow ca).taken ++ connection.onTheWay <+: (s.follow ca).posted
        rw [htaken, hposted]
        exact ((List.prefix_append_right_inj _).mpr hkeeps.kept).trans h.kept
      · show (s.follow ca).taken ++ connection.onTheWay = (s.follow ca).posted
        obtain ⟨hbefore, hsame⟩ := hkeeps.whole hnow
        rw [htaken, hposted, hsame]
        exact h.whole hbefore

theorem inOrder_of_run (hrun : run (step capacity) start acts = some s) : s.InOrder := by
  refine invariant (step capacity) (I := InOrder) ?_ (fun _ _ _ h hstep => h.of_step hstep) hrun
  exact ⟨List.prefix_refl _, fun _ => rfl⟩

/-- In every run what the client takes is, in order, what the mailbox took from the
forwarders; as long as the connection is intact, the rest is on its way. -/
theorem client_takes_posted_in_order (hrun : run (step capacity) start acts = some s) :
    s.taken ++ s.connection.onTheWay <+: s.posted ∧
      (s.connection.intact = true → s.taken ++ s.connection.onTheWay = s.posted) :=
  ⟨(inOrder_of_run hrun).kept, (inOrder_of_run hrun).whole⟩

/-! One subscription to a channel of two places: a client that keeps up, and one that is
overtaken. -/

def mailTopic : Data := toData (.object [("topic", .string "mail.new")])
def mailArgs : Request := ⟨1, "subscribe", mailTopic⟩
def mailReply : Response :=
  .success 1 (toData (.object [("sub_id", u64 1), ("topic", .string "mail.new")]))

def subscribed : List EventAction :=
  [.connection (.client (.request "subscribe" mailTopic)), .connection (.client .write),
    .connection .receive, .connection (.poll mailArgs), .connection (.respond mailArgs mailReply),
    .connection .write, .connection (.client .read), .connection (.client .finish)]

def number (n : UInt64) : Data := toData (u64 n)

def overtaken : List EventAction :=
  subscribed ++ [.publish .mailNew (number 1), .recv 0, .publish .mailNew (number 2),
    .publish .mailNew (number 3), .publish .mailNew (number 4), .forward 0, .recv 0, .forward 0]

def keepsUp : List EventAction :=
  subscribed ++ [.publish .mailNew (number 1), .publish .mailNew (number 2), .recv 0, .forward 0,
    .connection .write, .connection (.client .read), .connection (.client .push),
    .connection (.client .nextEvent), .recv 0]

theorem client_takes_posted_in_order_two : ∃ s, run (step 2) start keepsUp = some s ∧
    s.connection.intact = true ∧ s.taken.map Event.data = [number 1] ∧
    s.taken ++ s.connection.onTheWay = s.posted := by
  refine ⟨_, rfl, by decide, rfl, ?_⟩
  have hrun : run (step 2) start keepsUp = some _ := rfl
  exact (client_takes_posted_in_order hrun).2 (by decide)

end EventSystem

end Postblox.Ipc
