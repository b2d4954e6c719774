import Postblox.Ipc.ConnectionSteps
import Postblox.Lib.Correlation

/-!
# Every response reaches the call it answers

The steps of a connection are moves of a ledger of ids. While the ids have not come
round, the law of the ledger gives where each response can be, and every response is the
one a handler made for the request of its id.
-/
namespace Postblox.Ipc

open Json (Value Data)
open Daemon (Op)
open Lib (Ledger)
open Lib.Machine

namespace Connection

/-! ## The ledger of a connection -/

def slotIds : Caller → List UInt64
  | .requesting req _ (.answered _) => [req.id]
  | _ => []

def handIds : ReaderTask → List UInt64
  | .sendingResponse r => [r.id]
  | _ => []

/-- The calls of `request` that have returned `Ok`. -/
def okIds (returned : List (Request × Except ClientError Response)) : List UInt64 :=
  returned.filterMap fun
    | (req, .ok _) => some req.id
    | _ => none

/-- Requests and responses on their way to the reader task. -/
def flyingIds (s : Connection) : List UInt64 :=
  s.client.outbound.map Request.id ++ s.spawned.map Request.id ++
    s.dispatching.map (fun t => t.1.id) ++ s.replying.map (fun t => t.2.id) ++
    responseIds (s.mailbox.map OutFrame.frame) ++ responseIds s.client.inbound.reduceOption

def landedIds (s : Connection) : List UInt64 :=
  handIds s.client.reader ++ s.client.responses.map Response.id ++ s.client.obtained.map Response.id

def claimedIds (s : Connection) : List UInt64 :=
  slotIds s.client.caller ++ okIds s.client.returned ++ s.discarded

def ledger (s : Connection) : Ledger UInt64 where
  waited := s.requests.map Request.id
  queued := s.pipelined.map Request.id
  unsent := match s.client.caller with
    | .requesting req false _ => some req.id
    | _ => none
  registered id := id ∈ s.client.pending
  closed := s.client.reader = .ended
  flying := flyingIds s
  landed := landedIds s
  claimed := claimedIds s
  lost := s.lost

theorem responseIds_append (front back : List Frame) :
    responseIds (front ++ back) = responseIds front ++ responseIds back :=
  List.filterMap_append ..

theorem responseIds_front (frame : Frame) (frames : List Frame) :
    responseIds (frame :: frames) = responseIds [frame] ++ responseIds frames :=
  responseIds_append [frame] frames

theorem okIds_append (front back : List (Request × Except ClientError Response)) :
    okIds (front ++ back) = okIds front ++ okIds back :=
  List.filterMap_append ..

/-- Taking an element out of a list, seen through a map. -/
theorem count_map_erase {α β : Type} [BEq α] [LawfulBEq α] [BEq β] [LawfulBEq β] (f : α → β)
    {a : α} {l : List α} (h : a ∈ l) (b : β) :
    (l.map f).count b = ((l.erase a).map f).count b + [f a].count b := by
  have hperm : (l.map f).Perm (((l.erase a).map f) ++ [f a]) := by
    have := ((List.perm_cons_erase h).map f).trans (List.perm_append_singleton _ _).symm
    simpa using this
  rw [hperm.count_eq, List.count_append]

theorem coe_eq_cons {l m : List UInt64} {a : UInt64}
    (h : ∀ i, l.count i = m.count i + [a].count i) : (l : Multiset UInt64) = a ::ₘ m := by
  refine Multiset.coe_eq_coe.mpr (List.perm_iff_count.mpr fun i => ?_)
  rw [h i, List.count_singleton, List.count_cons]

theorem coe_eq {l m : List UInt64} (h : ∀ i, l.count i = m.count i) :
    (l : Multiset UInt64) = m :=
  Multiset.coe_eq_coe.mpr (List.perm_iff_count.mpr h)

/-! ## Fresh ids -/

/-- The ids so far are the numbers from one on. -/
structure Numbered (s : Connection) : Prop where
  next : (s.client.nextId - 1).toNat = s.calls % 2 ^ 64
  requests : ∀ req ∈ s.requests, (req.id - 1).toNat < s.calls
  pipelined : ∀ req ∈ s.pipelined, (req.id - 1).toNat < s.calls
  pending : ∀ id ∈ s.client.pending, (id - 1).toNat < s.calls
  caller : ∀ req written slot, s.client.caller = .requesting req written slot →
    (req.id - 1).toNat < s.calls

variable {s t : Connection}

theorem Numbered.fresh (h : s.Numbered) (hcalls : s.calls < 2 ^ 64) :
    s.ledger.Fresh s.client.nextId := by
  have hnext := h.next
  rw [Nat.mod_eq_of_lt hcalls] at hnext
  refine ⟨?_, ?_, fun hmem => ?_⟩
  · intro hmem
    obtain ⟨req, hreq, hid⟩ := List.mem_map.mp (Multiset.mem_coe.mp hmem)
    have := h.requests req hreq
    rw [hid] at this
    omega
  · intro hmem
    obtain ⟨req, hreq, hid⟩ := List.mem_map.mp (Multiset.mem_coe.mp hmem)
    have := h.pipelined req hreq
    rw [hid] at this
    omega
  · have := h.pending _ hmem
    omega

/-! ## The steps of the client -/

theorem responseIds_cons (r : Response) (frames : List Frame) :
    responseIds (.response r :: frames) = [r.id] ++ responseIds frames := rfl

/-- The response the reader task reads next. -/
theorem flying_of_response {r : Response} {rest : List (Option Frame)}
    (hinbound : s.client.inbound = some (.response r) :: rest) :
    s.ledger.flying = r.id ::ₘ flyingIds { s with client := { s.client with inbound := rest } } := by
  refine coe_eq_cons fun i => ?_
  simp only [flyingIds, hinbound, List.reduceOption_cons_of_some, responseIds_cons,
    List.count_append]
  omega

theorem slotIds_dropSenders (caller : Caller) (ids : List UInt64) :
    slotIds (Client.dropSenders caller ids) = slotIds caller := by
  unfold Client.dropSenders
  split
  · split_ifs <;> rfl
  · rfl

theorem move_of_calls (hnumbered : s.Numbered) (hbalanced : s.ledger.Balanced)
    (hcalls : t.calls ≤ 2 ^ 64) (h : Calls s t) : s.ledger.Move t.ledger := by
  cases h with
  | request op args hidle =>
    refine (Ledger.Move.register (hnumbered.fresh (Nat.lt_of_succ_le hcalls))).congr
      (Ledger.ext rfl rfl rfl (funext fun i => propext ?_) rfl rfl rfl ?_ rfl)
    · simp only [ledger, List.mem_cons, List.mem_filter]
      by_cases hid : i = s.client.nextId <;> simp [hid]
    · simp [ledger, claimedIds, slotIds, hidle]
  | @write req slot hcaller =>
    have hunsent : s.ledger.unsent = some req.id := by simp [ledger, hcaller]
    refine (Ledger.Move.send hunsent).congr (Ledger.ext rfl rfl rfl rfl rfl
      (coe_eq_cons fun i => ?_) rfl (coe_eq fun i => ?_) rfl)
    · simp only [flyingIds, List.map_append, List.map_singleton, List.count_append]
      omega
    · simp only [claimedIds, hcaller]
      cases slot <;> rfl
  | @writeFails req slot e hcaller =>
    have hunsent : s.ledger.unsent = some req.id := by simp [ledger, hcaller]
    -- nothing has been sent that could be answered
    have hslot : slotIds s.client.caller = [] := by
      rw [hcaller]
      cases slot with
      | answered r =>
        refine absurd (hbalanced.claimed req.id ?_) (hbalanced.unsent req.id hunsent).1
        simp [ledger, claimedIds, hcaller, slotIds]
      | _ => rfl
    refine (Ledger.Move.withdraw hunsent).congr (Ledger.ext rfl rfl rfl
      (funext fun i => propext ?_) rfl rfl rfl (coe_eq fun i => ?_) rfl)
    · simp [ledger]
    · simp only [claimedIds, hslot, okIds_append]
      simp [slotIds, okIds]
  | @finish req r hcaller =>
    refine Ledger.Move.stay.congr (Ledger.ext rfl rfl ?_ rfl rfl rfl rfl (coe_eq fun i => ?_) rfl)
    · simp [ledger, hcaller]
    · simp only [claimedIds, hcaller, okIds_append, List.count_append]
      simp [slotIds, okIds]
      omega
  | @finishClosed req hcaller =>
    refine Ledger.Move.stay.congr (Ledger.ext rfl rfl ?_ rfl rfl rfl rfl (coe_eq fun i => ?_) rfl)
    · simp [ledger, hcaller]
    · simp [claimedIds, hcaller, slotIds, okIds]
  | @abandon req slot hcaller hslot =>
    refine Ledger.Move.stay.congr (Ledger.ext rfl rfl ?_ rfl rfl rfl rfl ?_ rfl)
    · simp [ledger, hcaller]
    · cases slot with
      | answered r => exact absurd rfl (hslot r)
      | _ => simp [ledger, claimedIds, hcaller, slotIds]
  | @abandonAnswered req r hcaller =>
    refine Ledger.Move.stay.congr (Ledger.ext rfl rfl ?_ rfl rfl rfl rfl ?_ rfl)
    all_goals simp [ledger, hcaller, claimedIds, slotIds]
  | sendRequest op args hidle =>
    have hunsent : s.ledger.unsent = none := by simp [ledger, hidle]
    refine (Ledger.Move.enqueue (hnumbered.fresh (Nat.lt_of_succ_le hcalls)) hunsent).congr
      (Ledger.ext rfl rfl rfl rfl rfl (coe_eq_cons fun i => ?_) rfl rfl rfl)
    simp only [flyingIds, List.map_append, List.map_singleton, List.count_append]
    omega
  | sendRequestFails | nextEvent events => exact .stay
  | nextResponse hresponses =>
    refine Ledger.Move.stay.congr (Ledger.ext rfl rfl rfl rfl rfl rfl (coe_eq fun i => ?_) rfl rfl)
    simp only [landedIds, hresponses, List.map_append, List.map_cons, List.map_nil,
      List.count_append, List.count_cons, List.count_nil]
    omega
  | @readAnswer req written r rest hreading hinbound hpending hcaller hid =>
    refine (Ledger.Move.claim (by simp [ledger, hreading]) (flying_of_response hinbound)
      hpending).congr (Ledger.ext rfl rfl ?_ (funext fun i => propext ?_) rfl rfl rfl
        (coe_eq_cons fun i => ?_) rfl)
    · simp only [ledger, hcaller]
      cases written <;> rfl
    · simp [ledger]
    · simp only [claimedIds, hcaller, slotIds, hid, List.count_append, List.count_nil]
      omega
  | @readStale r rest hreading hinbound hpending =>
    refine (Ledger.Move.claim (by simp [ledger, hreading]) (flying_of_response hinbound)
      hpending).congr (Ledger.ext rfl rfl rfl (funext fun i => propext ?_) rfl rfl rfl
        (coe_eq_cons fun i => ?_) rfl)
    · simp [ledger]
    · simp only [claimedIds, List.count_append, List.count_cons, List.count_nil]
      omega
  | @readQueued r rest hreading hinbound hpending =>
    refine (Ledger.Move.land (by simp [ledger, hreading]) (flying_of_response hinbound)
      hpending).congr (Ledger.ext rfl rfl rfl rfl ?_ rfl (coe_eq_cons fun i => ?_) rfl rfl)
    · simp [ledger, hreading]
    · simp only [landedIds, hreading, handIds, List.count_append, List.count_nil]
      omega
  | @readOther item rest reader hreading hinbound hitem hreader =>
    have hids : responseIds (item :: rest).reduceOption = responseIds rest.reduceOption := by
      match item with
      | none | some (.event _) | some (.request _) => rfl
      | some (.response r) => exact absurd rfl (hitem r)
    have hhand : handIds reader = [] ∧ reader ≠ .ended := by
      rcases hreader with ⟨rfl, -⟩ | rfl | ⟨e, rfl, -⟩ <;> simp [handIds]
    refine Ledger.Move.stay.congr (Ledger.ext rfl rfl rfl rfl ?_ ?_ ?_ rfl rfl)
    · simp [ledger, hreading, hhand.2]
    · simp [ledger, flyingIds, hinbound, hids]
    · have hreading' : handIds s.client.reader = [] := by rw [hreading]; rfl
      simp [ledger, landedIds, hreading', hhand.1]
  | @pushResponse r hreader =>
    refine Ledger.Move.stay.congr (Ledger.ext rfl rfl rfl rfl ?_ rfl (coe_eq fun i => ?_) rfl rfl)
    · simp [ledger, hreader]
    · simp only [landedIds, hreader, handIds, List.map_append, List.map_cons,
        List.map_nil, List.count_append, List.count_nil]
      omega
  | @pushEvent e hreader =>
    refine Ledger.Move.stay.congr (Ledger.ext rfl rfl rfl rfl ?_ rfl (coe_eq fun i => ?_) rfl rfl)
    · simp [ledger, hreader]
    · simp [landedIds, hreader, handIds]
  | clear hreader =>
    have hcaller := slotIds_dropSenders s.client.caller s.client.pending
    refine Ledger.Move.close.congr (Ledger.ext rfl rfl ?_ ?_ ?_ rfl ?_ ?_ rfl)
    · simp only [ledger, Client.dropSenders]
      cases hc : s.client.caller with
      | idle => rfl
      | requesting req written slot =>
        cases slot <;> cases written <;> simp <;> split_ifs <;> rfl
    · simp [ledger]
    · simp [ledger]
    · simp [ledger, landedIds, handIds, hreader]
    · simp [ledger, claimedIds, hcaller]

/-! ## The steps of the server -/

/-- The calls of the client stand where they stood. -/
structure SameCalls (s t : Connection) : Prop where
  caller : t.client.caller = s.client.caller
  pending : t.client.pending = s.client.pending
  reader : t.client.reader = s.client.reader
  responses : t.client.responses = s.client.responses
  returned : t.client.returned = s.client.returned
  obtained : t.client.obtained = s.client.obtained
  requests : t.requests = s.requests
  pipelined : t.pipelined = s.pipelined
  discarded : t.discarded = s.discarded

/-- Between the two ends of the client responses are only moved or lost. -/
theorem move_of_counts (gone : List UInt64) (h : SameCalls s t) (hlost : t.lost = gone ++ s.lost)
    (hcount : ∀ i, (flyingIds s).count i = (flyingIds t).count i + gone.count i) :
    s.ledger.Move t.ledger := by
  have hflying : s.ledger.flying = gone + t.ledger.flying := by
    refine coe_eq fun i => ?_
    rw [hcount i, List.count_append]
    omega
  refine (Ledger.Move.lose hflying).congr (Ledger.ext ?_ ?_ ?_ ?_ ?_ rfl ?_ ?_ ?_)
  all_goals simp [ledger, landedIds, claimedIds, h.caller, h.pending, h.reader, h.responses,
    h.returned, h.obtained, h.requests, h.pipelined, h.discarded, hlost]

theorem move_of_serves (h : Serves s t) : s.ledger.Move t.ledger := by
  have hsame : SameCalls s t := by
    cases h <;> exact ⟨rfl, rfl, rfl, rfl, rfl, rfl, rfl, rfl, rfl⟩
  cases h with
  | @receive req rest houtbound =>
    refine move_of_counts [] hsame rfl fun i => ?_
    simp only [flyingIds, houtbound, List.map_cons, List.count_append, List.count_cons,
      List.count_nil]
    omega
  | reap | interrupt => exact move_of_counts [] hsame rfl fun i => rfl
  | @dispatch req op hmem hop =>
    refine move_of_counts [] hsame rfl fun i => ?_
    have := count_map_erase Request.id hmem i
    simp only [flyingIds, List.map_cons, List.count_append, List.count_cons, List.count_nil] at this ⊢
    omega
  | @reply req r hmem hreply subs nextSub =>
    refine move_of_counts [] hsame rfl fun i => ?_
    have := count_map_erase Request.id hmem i
    simp only [flyingIds, hreply.id_eq, List.map_cons, List.count_append, List.count_cons,
      List.count_nil] at this ⊢
    omega
  | @complete req op hmem result =>
    refine move_of_counts [] hsame rfl fun i => ?_
    have := count_map_erase (fun t => t.1.id) hmem i
    simp only [flyingIds, ofResult_id, List.map_cons, List.count_append, List.count_cons,
      List.count_nil] at this ⊢
    omega
  | @respond req r hmem =>
    refine move_of_counts [] hsame rfl fun i => ?_
    have := count_map_erase (fun t => t.2.id) hmem i
    simp only [flyingIds, List.map_append, responseIds_append, List.count_append] at this ⊢
    have hnew : responseIds ([OutFrame.response r].map OutFrame.frame) = [r.id] := rfl
    rw [hnew, List.count_nil]
    omega
  | @dismiss req r hmem hwriting =>
    refine move_of_counts [r.id] hsame rfl fun i => ?_
    have := count_map_erase (fun t => t.2.id) hmem i
    simp only [flyingIds, List.count_append] at this ⊢
    omega
  | forward e =>
    refine move_of_counts [] hsame rfl fun i => ?_
    simp [flyingIds, responseIds, OutFrame.frame]
  | @write frame rest hmailbox =>
    refine move_of_counts [] hsame rfl fun i => ?_
    have hfront := responseIds_front frame.frame (rest.map OutFrame.frame)
    simp only [flyingIds, hmailbox, List.map_cons, hfront, List.reduceOption_append,
      List.reduceOption_singleton, Option.toList_some, responseIds_append, List.count_append,
      List.count_nil]
    omega
  | @writeUnreadable frame rest hmailbox =>
    refine move_of_counts _ hsame rfl fun i => ?_
    have hfront := responseIds_front frame.frame (rest.map OutFrame.frame)
    simp only [flyingIds, hmailbox, List.map_cons, hfront, List.reduceOption_append,
      List.reduceOption_singleton, Option.toList_none, List.append_nil, List.count_append]
    omega
  | writeFails =>
    refine move_of_counts _ hsame rfl fun i => ?_
    simp only [flyingIds, List.map_nil, responseIds, List.filterMap_nil, List.count_append,
      List.count_nil]
    omega
  | @cancelSpawned req hinterrupted hmem =>
    refine move_of_counts [req.id] hsame rfl fun i => ?_
    have := count_map_erase Request.id hmem i
    simp only [flyingIds, List.count_append] at this ⊢
    omega
  | @cancelDispatching req op hinterrupted hmem =>
    refine move_of_counts [req.id] hsame rfl fun i => ?_
    have := count_map_erase (fun t => t.1.id) hmem i
    simp only [flyingIds, List.count_append] at this ⊢
    omega
  | drain =>
    refine move_of_counts _ hsame rfl fun i => ?_
    simp only [flyingIds, List.map_nil, List.count_append, List.count_nil]
    omega
  | close =>
    refine move_of_counts [] hsame rfl fun i => ?_
    simp [flyingIds, List.reduceOption_append]

/-! ## Every run -/

theorem calls_mono {a : Action} (hstep : step s a = some t) : s.calls ≤ t.calls := by
  rcases step_cases hstep with h | h <;> cases h <;> simp

theorem serial_succ (id : UInt64) : (id + 1 - 1).toNat = ((id - 1).toNat + 1) % 2 ^ 64 := by
  have hid := id.toNat_lt
  simp only [UInt64.toNat_sub, UInt64.toNat_add, UInt64.toNat_one]
  omega

theorem dropSenders_requesting {caller : Caller} {ids : List UInt64} {req : Request}
    {written : Bool} {slot : Slot}
    (h : Client.dropSenders caller ids = .requesting req written slot) :
    ∃ slot, caller = .requesting req written slot := by
  unfold Client.dropSenders at h
  split at h
  · split_ifs at h
    · cases h
      exact ⟨_, rfl⟩
    · exact ⟨_, h⟩
  · exact ⟨_, h⟩

theorem Numbered.of_calls (hn : s.Numbered) (hcalls : t.calls ≤ 2 ^ 64) (h : Calls s t) :
    t.Numbered := by
  have hnext := hn.next
  have hserial := serial_succ s.client.nextId
  cases h with
  | request op args hidle =>
    have hlt : s.calls < 2 ^ 64 := Nat.lt_of_succ_le hcalls
    refine ⟨?_, fun req hreq => Nat.lt_succ_of_lt (hn.requests req hreq),
      fun req hreq => Nat.lt_succ_of_lt (hn.pipelined req hreq), ?_, ?_⟩
    · change (s.client.nextId + 1 - 1).toNat = (s.calls + 1) % 2 ^ 64
      omega
    · intro id hid
      rcases List.mem_cons.mp hid with rfl | hid
      · change (s.client.nextId - 1).toNat < s.calls + 1
        omega
      · exact Nat.lt_succ_of_lt (hn.pending id (List.mem_of_mem_filter hid))
    · intro req written slot hcaller
      cases hcaller
      change (s.client.nextId - 1).toNat < s.calls + 1
      omega
  | sendRequest op args hidle =>
    have hlt : s.calls < 2 ^ 64 := Nat.lt_of_succ_le hcalls
    refine ⟨?_, fun req hreq => Nat.lt_succ_of_lt (hn.requests req hreq), ?_,
      fun id hid => Nat.lt_succ_of_lt (hn.pending id hid),
      fun req written slot hcaller => Nat.lt_succ_of_lt (hn.caller req written slot hcaller)⟩
    · change (s.client.nextId + 1 - 1).toNat = (s.calls + 1) % 2 ^ 64
      omega
    · intro req hreq
      rcases List.mem_cons.mp hreq with rfl | hreq
      · change (s.client.nextId - 1).toNat < s.calls + 1
        omega
      · exact Nat.lt_succ_of_lt (hn.pipelined req hreq)
  | sendRequestFails =>
    refine ⟨?_, fun req hreq => Nat.lt_succ_of_lt (hn.requests req hreq),
      fun req hreq => Nat.lt_succ_of_lt (hn.pipelined req hreq),
      fun id hid => Nat.lt_succ_of_lt (hn.pending id hid),
      fun req written slot hcaller => Nat.lt_succ_of_lt (hn.caller req written slot hcaller)⟩
    change (s.client.nextId + 1 - 1).toNat = (s.calls + 1) % 2 ^ 64
    omega
  | @write req slot hcaller =>
    refine ⟨hnext, fun req' hreq => ?_, hn.pipelined, hn.pending, fun req' written slot' hreq => ?_⟩
    · rcases List.mem_cons.mp hreq with rfl | hreq
      · exact hn.caller _ _ _ hcaller
      · exact hn.requests req' hreq
    · cases hreq
      exact hn.caller _ _ _ hcaller
  | writeFails =>
    exact ⟨hnext, hn.requests, hn.pipelined,
      fun id hid => hn.pending id (List.mem_of_mem_filter hid), fun _ _ _ hreq => (nomatch hreq)⟩
  | finish | finishClosed | abandon | abandonAnswered =>
    exact ⟨hnext, hn.requests, hn.pipelined, hn.pending, fun _ _ _ hreq => (nomatch hreq)⟩
  | readAnswer _ _ _ hcaller hid =>
    refine ⟨hnext, hn.requests, hn.pipelined,
      fun id hid => hn.pending id (List.mem_of_mem_filter hid), fun req' written' slot' hreq => ?_⟩
    cases hreq
    exact hn.caller _ _ _ hcaller
  | readStale =>
    exact ⟨hnext, hn.requests, hn.pipelined,
      fun id hid => hn.pending id (List.mem_of_mem_filter hid), hn.caller⟩
  | nextResponse | nextEvent | readQueued | readOther | pushResponse | pushEvent =>
    exact ⟨hnext, hn.requests, hn.pipelined, hn.pending, hn.caller⟩
  | clear =>
    refine ⟨hnext, hn.requests, hn.pipelined, fun id hid => (nomatch hid),
      fun req written slot hreq => ?_⟩
    obtain ⟨slot', hcaller⟩ := dropSenders_requesting hreq
    exact hn.caller req written slot' hcaller

theorem Numbered.of_serves (hn : s.Numbered) (h : Serves s t) : t.Numbered := by
  cases h <;> exact ⟨hn.next, hn.requests, hn.pipelined, hn.pending, hn.caller⟩

/-- As long as the ids have not come round. -/
theorem balanced_of_run {acts : List Action} (hrun : run step start acts = some s)
    (hcalls : s.calls ≤ 2 ^ 64) : s.Numbered ∧ s.ledger.Balanced := by
  have hinv : s.calls ≤ 2 ^ 64 → s.Numbered ∧ s.ledger.Balanced := by
    refine invariant step (I := fun s => s.calls ≤ 2 ^ 64 → s.Numbered ∧ s.ledger.Balanced)
      ?_ ?_ hrun
    · intro _
      constructor
      · constructor <;> simp [start, Client.connect]
      · constructor <;> simp [start, Client.connect, ledger, flyingIds, landedIds, claimedIds,
          responseIds, handIds, slotIds, okIds]
    · intro s a t ih hstep hcalls
      obtain ⟨hnumbered, hbalanced⟩ := ih ((calls_mono hstep).trans hcalls)
      rcases step_cases hstep with h | h
      · exact ⟨hnumbered.of_calls hcalls h,
          hbalanced.of_move (move_of_calls hnumbered hbalanced hcalls h)⟩
      · exact ⟨hnumbered.of_serves h, hbalanced.of_move (move_of_serves h)⟩
  exact hinv hcalls

end Connection

end Postblox.Ipc
