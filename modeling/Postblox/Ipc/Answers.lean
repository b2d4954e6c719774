import Postblox.Ipc.Matching

/-!
# Requests and responses are matched end to end

Every response in the system was made by the handler of a request that was sent, every
request that was received is run once or aborted by the drain, and responses are lost only
with the connection. With the ledger this says whose response each call gets.
-/
namespace Postblox.Ipc

open Json (Data)
open Daemon (Op)
open Lib (Ledger)
open Lib.Machine

namespace Connection

variable {s t : Connection}

def Sent (s : Connection) (req : Request) : Prop := req ∈ s.requests ∨ req ∈ s.pipelined

/-- A handler has made the response. -/
def Made (s : Connection) (r : Response) : Prop := ∃ req, (req, r) ∈ s.answers

/-! ## Where the responses come from -/

structure Traced (s : Connection) : Prop where
  outbound : ∀ req ∈ s.client.outbound, s.Sent req
  spawned : ∀ req ∈ s.spawned, s.Sent req
  dispatching : ∀ req op, (req, op) ∈ s.dispatching → s.Sent req ∧ Op.parse req.op = some op
  caller : ∀ req slot, s.client.caller = .requesting req true slot → req ∈ s.requests
  answers : ∀ req r, (req, r) ∈ s.answers → s.Sent req ∧ Replies s.results req r
  replying : ∀ req r, (req, r) ∈ s.replying → s.Made r
  mailbox : ∀ r, .response r ∈ s.mailbox → s.Made r
  inbound : ∀ r, some (.response r) ∈ s.client.inbound → s.Made r
  hand : ∀ r, s.client.reader = .sendingResponse r → s.Made r
  responses : ∀ r ∈ s.client.responses, s.Made r
  obtained : ∀ r ∈ s.client.obtained, s.Made r
  slot : ∀ req written r, s.client.caller = .requesting req written (.answered r) →
    r.id = req.id ∧ s.Made r
  returned : ∀ req r, (req, .ok r) ∈ s.client.returned →
    req ∈ s.requests ∧ r.id = req.id ∧ s.Made r

/-- More history: the new answers need a reason, the rest stays. -/
theorem Traced.extend (h : s.Traced) (requests pipelined : List Request)
    (results : List (Request × Except RpcError Data)) (answers : List (Request × Response))
    (hrequests : s.requests ⊆ requests) (hpipelined : s.pipelined ⊆ pipelined)
    (hresults : s.results ⊆ results) (hanswers : s.answers ⊆ answers)
    (hnew : ∀ req r, (req, r) ∈ answers → (req, r) ∈ s.answers ∨
      s.Sent req ∧ Replies results req r) :
    Traced { s with requests, pipelined, results, answers } := by
  have hsent : ∀ req, s.Sent req → req ∈ requests ∨ req ∈ pipelined :=
    fun req h => h.imp (fun h => hrequests h) (fun h => hpipelined h)
  have hmade : ∀ r, s.Made r → ∃ req, (req, r) ∈ answers := by
    intro r ⟨req, hreq⟩
    exact ⟨req, hanswers hreq⟩
  exact {
    outbound := fun req hreq => hsent req (h.outbound req hreq)
    spawned := fun req hreq => hsent req (h.spawned req hreq)
    dispatching := fun req op hreq =>
      ⟨hsent req (h.dispatching req op hreq).1, (h.dispatching req op hreq).2⟩
    caller := fun req slot hreq => hrequests (h.caller req slot hreq)
    answers := by
      intro req r hreq
      rcases hnew req r hreq with hold | ⟨hreq, hreply⟩
      · obtain ⟨hreq, hreply⟩ := h.answers req r hold
        exact ⟨hsent req hreq, hreply.mono hresults⟩
      · exact ⟨hsent req hreq, hreply⟩
    replying := fun req r hr => hmade r (h.replying req r hr)
    mailbox := fun r hr => hmade r (h.mailbox r hr)
    inbound := fun r hr => hmade r (h.inbound r hr)
    hand := fun r hr => hmade r (h.hand r hr)
    responses := fun r hr => hmade r (h.responses r hr)
    obtained := fun r hr => hmade r (h.obtained r hr)
    slot := fun req written r hr => (h.slot req written r hr).imp_right (hmade r)
    returned := fun req r hr =>
      ⟨hrequests (h.returned req r hr).1, (h.returned req r hr).2.imp_right (hmade r)⟩ }

theorem answered_of_dropSenders {caller : Caller} {ids : List UInt64} {req : Request}
    {written : Bool} {r : Response}
    (h : Client.dropSenders caller ids = .requesting req written (.answered r)) :
    caller = .requesting req written (.answered r) := by
  unfold Client.dropSenders at h
  split at h
  · split_ifs at h
    · cases h
    · exact h
  · exact h

theorem Traced.of_calls (h : s.Traced) (hcalls : Calls s t) : t.Traced := by
  cases hcalls with
  | request op args hidle =>
    exact { h with
      caller := fun _ _ hreq => (nomatch hreq)
      slot := fun _ _ _ hreq => (nomatch hreq) }
  | @write req slot hcaller =>
    have h' := h.extend (req :: s.requests) s.pipelined s.results s.answers
      (List.subset_cons_self _ _) (List.Subset.refl _) (List.Subset.refl _) (List.Subset.refl _)
      (fun _ _ hmem => .inl hmem)
    refine { h' with outbound := ?_, caller := ?_, slot := ?_ }
    · intro req' hreq
      rcases List.mem_append.mp hreq with hreq | hreq
      · exact h'.outbound req' hreq
      · rw [List.mem_singleton] at hreq
        exact .inl (hreq ▸ List.mem_cons_self)
    · intro req' slot' hreq
      cases hreq
      exact List.mem_cons_self
    · intro req' written r hreq
      cases hreq
      exact h.slot req false r hcaller
  | writeFails e hcaller =>
    refine { h with
      caller := fun _ _ hreq => (nomatch hreq)
      slot := fun _ _ _ hreq => (nomatch hreq)
      returned := fun req r hr => ?_ }
    rcases List.mem_append.mp hr with hr | hr
    · exact h.returned req r hr
    · cases List.mem_singleton.mp hr
  | @finish req r hcaller =>
    refine { h with
      caller := fun _ _ hreq => (nomatch hreq)
      slot := fun _ _ _ hreq => (nomatch hreq)
      returned := fun req' r' hr => ?_ }
    rcases List.mem_append.mp hr with hr | hr
    · exact h.returned req' r' hr
    · cases List.mem_singleton.mp hr
      exact ⟨h.caller req _ hcaller, h.slot req true r hcaller⟩
  | finishClosed hcaller =>
    refine { h with
      caller := fun _ _ hreq => (nomatch hreq)
      slot := fun _ _ _ hreq => (nomatch hreq)
      returned := fun req r hr => ?_ }
    rcases List.mem_append.mp hr with hr | hr
    · exact h.returned req r hr
    · cases List.mem_singleton.mp hr
  | abandon | abandonAnswered =>
    exact { h with
      caller := fun _ _ hreq => (nomatch hreq)
      slot := fun _ _ _ hreq => (nomatch hreq) }
  | sendRequest op args hidle =>
    have h' := h.extend s.requests (⟨s.client.nextId, op, args⟩ :: s.pipelined) s.results s.answers
      (List.Subset.refl _) (List.subset_cons_self _ _) (List.Subset.refl _) (List.Subset.refl _)
      (fun _ _ hmem => .inl hmem)
    refine { h' with outbound := ?_ }
    intro req hreq
    rcases List.mem_append.mp hreq with hreq | hreq
    · exact h'.outbound req hreq
    · rw [List.mem_singleton] at hreq
      exact .inr (hreq ▸ List.mem_cons_self)
  | sendRequestFails | nextEvent => exact { h with hand := h.hand }
  | nextResponse hresponses =>
    have hmade := fun r hr => h.responses r (hresponses ▸ hr)
    refine { h with
      responses := fun r hr => hmade r (List.mem_cons_of_mem _ hr)
      obtained := fun r hr => ?_ }
    rcases List.mem_append.mp hr with hr | hr
    · exact h.obtained r hr
    · exact hmade r (List.mem_singleton.mp hr ▸ List.mem_cons_self)
  | @readAnswer req written r rest hreading hinbound hpending hcaller hid =>
    have hmade := fun r hr => h.inbound r (hinbound ▸ hr)
    refine { h with
      inbound := fun r hr => hmade r (List.mem_cons_of_mem _ hr)
      caller := ?_
      slot := ?_ }
    · intro req' slot' hreq
      cases hreq
      exact h.caller req .waiting hcaller
    · intro req' written' r' hreq
      cases hreq
      exact ⟨hid.symm, hmade r List.mem_cons_self⟩
  | readStale hreading hinbound hpending =>
    exact { h with inbound := fun r hr => h.inbound r (hinbound ▸ List.mem_cons_of_mem _ hr) }
  | @readQueued r rest hreading hinbound hpending =>
    have hmade := fun r hr => h.inbound r (hinbound ▸ hr)
    refine { h with
      inbound := fun r hr => hmade r (List.mem_cons_of_mem _ hr)
      hand := ?_ }
    intro r' hr
    cases hr
    exact hmade r List.mem_cons_self
  | readOther hreading hinbound hitem hreader =>
    refine { h with
      inbound := fun r hr => h.inbound r (hinbound ▸ List.mem_cons_of_mem _ hr)
      hand := ?_ }
    rintro r rfl
    rcases hreader with ⟨hreader, -⟩ | hreader | ⟨e, hreader, -⟩ <;> cases hreader
  | @pushResponse r hreader =>
    refine { h with
      hand := fun _ hr => (nomatch hr)
      responses := fun r' hr => ?_ }
    rcases List.mem_append.mp hr with hr | hr
    · exact h.responses r' hr
    · exact List.mem_singleton.mp hr ▸ h.hand r hreader
  | pushEvent => exact { h with hand := fun _ hr => (nomatch hr) }
  | clear hreader =>
    refine { h with
      hand := fun _ hr => (nomatch hr)
      caller := fun req slot hreq => ?_
      slot := fun req written r hreq => h.slot req written r (answered_of_dropSenders hreq) }
    obtain ⟨slot', hcaller⟩ := dropSenders_requesting hreq
    exact h.caller req slot' hcaller

theorem Traced.of_serves (h : s.Traced) (hserves : Serves s t) : t.Traced := by
  cases hserves with
  | @receive req rest houtbound =>
    have hsent := fun req hreq => h.outbound req (houtbound ▸ hreq)
    refine { h with
      outbound := fun req hreq => hsent req (List.mem_cons_of_mem _ hreq)
      spawned := fun req' hreq => ?_ }
    rcases List.mem_cons.mp hreq with rfl | hreq
    · exact hsent req' List.mem_cons_self
    · exact h.spawned req' hreq
  | @dispatch req op hmem hop =>
    refine { h with
      spawned := fun req' hreq => h.spawned req' (List.mem_of_mem_erase hreq)
      dispatching := fun req' op' hreq => ?_ }
    rcases List.mem_cons.mp hreq with hreq | hreq
    · cases hreq
      exact ⟨h.spawned req hmem, hop⟩
    · exact h.dispatching req' op' hreq
  | @reply req r hmem hreply subs nextSub =>
    have h' := h.extend s.requests s.pipelined s.results ((req, r) :: s.answers)
      (List.Subset.refl _) (List.Subset.refl _) (List.Subset.refl _) (List.subset_cons_self _ _)
      fun req' r' hr => by
        rcases List.mem_cons.mp hr with hr | hr
        · cases hr
          exact .inr ⟨h.spawned req hmem, hreply.mono (List.nil_subset _)⟩
        · exact .inl hr
    refine { h' with
      spawned := fun req' hreq => h'.spawned req' (List.mem_of_mem_erase hreq)
      replying := fun req' r' hr => ?_ }
    rcases List.mem_cons.mp hr with hr | hr
    · cases hr
      exact ⟨req, List.mem_cons_self⟩
    · exact h'.replying req' r' hr
  | @complete req op hmem result =>
    obtain ⟨hsent, hop⟩ := h.dispatching req op hmem
    have h' := h.extend s.requests s.pipelined ((req, result) :: s.results)
      ((req, .ofResult req.id result) :: s.answers) (List.Subset.refl _)
      (List.Subset.refl _) (List.subset_cons_self _ _) (List.subset_cons_self _ _)
      fun req' r' hr => by
        rcases List.mem_cons.mp hr with hr | hr
        · cases hr
          exact .inr ⟨hsent, .dispatched hop List.mem_cons_self⟩
        · exact .inl hr
    refine { h' with
      dispatching := fun req' op' hreq => h'.dispatching req' op' (List.mem_of_mem_erase hreq)
      replying := fun req' r' hr => ?_ }
    rcases List.mem_cons.mp hr with hr | hr
    · cases hr
      exact ⟨req, List.mem_cons_self⟩
    · exact h'.replying req' r' hr
  | @respond req r hmem =>
    refine { h with
      replying := fun req' r' hr => h.replying req' r' (List.mem_of_mem_erase hr)
      mailbox := fun r' hr => ?_ }
    rcases List.mem_append.mp hr with hr | hr
    · exact h.mailbox r' hr
    · cases List.mem_singleton.mp hr
      exact h.replying req r hmem
  | dismiss =>
    exact { h with replying := fun req' r' hr => h.replying req' r' (List.mem_of_mem_erase hr) }
  | forward e =>
    refine { h with mailbox := fun r hr => ?_ }
    rcases List.mem_append.mp hr with hr | hr
    · exact h.mailbox r hr
    · cases List.mem_singleton.mp hr
  | @write frame rest hmailbox =>
    have hmade := fun r hr => h.mailbox r (hmailbox ▸ hr)
    refine { h with
      mailbox := fun r hr => hmade r (List.mem_cons_of_mem _ hr)
      inbound := fun r hr => ?_ }
    rcases List.mem_append.mp hr with hr | hr
    · exact h.inbound r hr
    · rw [List.mem_singleton] at hr
      cases frame <;> cases hr
      exact hmade r List.mem_cons_self
  | writeUnreadable hmailbox =>
    refine { h with
      mailbox := fun r hr => h.mailbox r (hmailbox ▸ List.mem_cons_of_mem _ hr)
      inbound := fun r hr => ?_ }
    rcases List.mem_append.mp hr with hr | hr
    · exact h.inbound r hr
    · cases List.mem_singleton.mp hr
  | writeFails => exact { h with mailbox := fun _ hr => (nomatch hr) }
  | reap | interrupt => exact { h with hand := h.hand }
  | cancelSpawned =>
    exact { h with spawned := fun req' hreq => h.spawned req' (List.mem_of_mem_erase hreq) }
  | cancelDispatching =>
    exact { h with
      dispatching := fun req' op' hreq => h.dispatching req' op' (List.mem_of_mem_erase hreq) }
  | drain =>
    exact { h with
      spawned := fun _ hreq => (nomatch hreq)
      dispatching := fun _ _ hreq => (nomatch hreq)
      replying := fun _ _ hr => (nomatch hr) }
  | close =>
    refine { h with inbound := fun r hr => ?_ }
    rcases List.mem_append.mp hr with hr | hr
    · exact h.inbound r hr
    · cases List.mem_singleton.mp hr

/-! ## Every request is run once -/

structure Counted (s : Connection) : Prop where
  sent : ∀ req, s.requests.count req + s.pipelined.count req =
    s.client.outbound.count req + s.received.count req
  received : ∀ req, s.received.count req =
    s.started.count req + s.spawned.count req + s.aborted.count req
  results : ∀ req, (s.dispatching.map Prod.fst).count req + (s.results.map Prod.fst).count req ≤
    s.started.count req

theorem Counted.of_calls (h : s.Counted) (hcalls : Calls s t) : t.Counted := by
  cases hcalls with
  | write =>
    refine { h with sent := fun req => ?_ }
    have := h.sent req
    simp only [List.count_cons, List.count_append, List.count_nil]
    omega
  | sendRequest =>
    refine { h with sent := fun req => ?_ }
    have := h.sent req
    simp only [List.count_cons, List.count_append, List.count_nil]
    omega
  | _ => exact { h with sent := h.sent }

theorem count_erase_add (req : Request) {a : Request} {l : List Request} (h : a ∈ l) :
    l.count req = (l.erase a).count req + [a].count req := by
  simpa using count_map_erase id h req

theorem Counted.of_serves (h : s.Counted) (hserves : Serves s t) : t.Counted := by
  cases hserves with
  | receive houtbound =>
    refine { h with sent := fun req => ?_, received := fun req => ?_ }
    · have := h.sent req
      rw [houtbound] at this
      simp only [List.count_cons] at this ⊢
      omega
    · have := h.received req
      simp only [List.count_cons]
      omega
  | dispatch hmem =>
    refine { h with received := fun req => ?_, results := fun req => ?_ }
    · have := h.received req
      have := count_erase_add req hmem
      simp only [List.count_cons, List.count_nil] at this ⊢
      omega
    · have := h.results req
      simp only [List.map_cons, List.count_cons]
      omega
  | reply hmem =>
    refine { h with received := fun req => ?_, results := fun req => ?_ }
    · have := h.received req
      have := count_erase_add req hmem
      simp only [List.count_cons, List.count_nil] at this ⊢
      omega
    · exact (h.results req).trans (List.count_le_count_cons)
  | complete hmem =>
    refine { h with results := fun req => ?_ }
    have := h.results req
    have := count_map_erase Prod.fst hmem req
    simp only [List.map_cons, List.count_cons, List.count_nil] at this ⊢
    omega
  | cancelSpawned _ hmem =>
    refine { h with received := fun req => ?_ }
    have := h.received req
    have := count_erase_add req hmem
    simp only [List.count_cons, List.count_nil] at this ⊢
    omega
  | cancelDispatching _ hmem =>
    refine { h with results := fun req => ?_ }
    have := h.results req
    have := count_map_erase Prod.fst hmem req
    simp only at this ⊢
    omega
  | drain =>
    refine { h with received := fun req => ?_, results := fun req => ?_ }
    · have := h.received req
      simp only [List.count_append, List.count_nil]
      omega
    · have := h.results req
      simp only [List.map_nil, List.count_nil]
      omega
  | _ => exact { h with sent := h.sent }

/-! ## Responses are lost only with the connection -/

/-- The reader task of the client has ended or will. -/
def Ending (c : Client) : Prop := none ∈ c.inbound ∨ c.reader = .clearing ∨ c.reader = .ended

def Broken (s : Connection) : Prop :=
  s.interrupted = true ∨ s.writing = false ∨ Ending s.client

structure Whole (s : Connection) : Prop where
  aborted : s.aborted ≠ [] → s.interrupted = true
  lost : s.lost ≠ [] → s.Broken

theorem ending_of_calls (h : Ending s.client) (hcalls : Calls s t) : Ending t.client := by
  cases hcalls with
  | readAnswer hreading hinbound | readStale hreading hinbound | readQueued hreading hinbound =>
    simp_all [Ending]
  | readOther hreading hinbound hitem hreader =>
    rcases hreader with ⟨rfl, hsome⟩ | rfl | ⟨e, rfl, rfl⟩
    · obtain ⟨frame, rfl⟩ := Option.isSome_iff_exists.mp hsome
      simp_all [Ending]
    · exact .inr (.inl rfl)
    · simp_all [Ending]
  | pushResponse hreader | pushEvent hreader => simp_all [Ending]
  | clear => exact .inr (.inr rfl)
  | _ => exact h

theorem broken_of_calls (h : s.Broken) (hcalls : Calls s t) : t.Broken := by
  rcases h with hinterrupted | hwriting | hending
  · left
    cases hcalls <;> exact hinterrupted
  · right
    left
    cases hcalls <;> exact hwriting
  · exact .inr (.inr (ending_of_calls hending hcalls))

theorem broken_of_serves (h : s.Broken) (hserves : Serves s t) : t.Broken := by
  rcases h with hinterrupted | hwriting | hending
  · left
    cases hserves <;> first | exact hinterrupted | rfl
  · right
    left
    cases hserves <;> first | exact hwriting | rfl
  · right
    right
    cases hserves with
    | write | writeUnreadable | close => exact hending.imp_left (List.mem_append_left _)
    | _ => exact hending

theorem Whole.of_calls (h : s.Whole) (hcalls : Calls s t) : t.Whole := by
  have hlost : t.lost = s.lost := by cases hcalls <;> rfl
  have haborted : t.aborted = s.aborted ∧ t.interrupted = s.interrupted := by
    cases hcalls <;> exact ⟨rfl, rfl⟩
  refine ⟨fun hne => ?_, fun hne => broken_of_calls (h.lost (hlost ▸ hne)) hcalls⟩
  rw [haborted.2]
  exact h.aborted (haborted.1 ▸ hne)

theorem Whole.of_serves (h : s.Whole) (hserves : Serves s t) : t.Whole := by
  have hold : s.lost ≠ [] → t.Broken := fun hne => broken_of_serves (h.lost hne) hserves
  cases hserves with
  | dismiss hmem hwriting => exact ⟨h.aborted, fun _ => hwriting.elim (.inr ∘ .inl) .inl⟩
  | writeUnreadable => exact ⟨h.aborted, fun _ => .inr (.inr (.inl (by simp)))⟩
  | writeFails => exact ⟨h.aborted, fun _ => .inr (.inl rfl)⟩
  | interrupt => exact ⟨fun _ => rfl, hold⟩
  | cancelSpawned hinterrupted => exact ⟨fun _ => hinterrupted, fun _ => .inl hinterrupted⟩
  | cancelDispatching hinterrupted => exact ⟨h.aborted, fun _ => .inl hinterrupted⟩
  | drain hinterrupted => exact ⟨fun _ => hinterrupted, fun _ => .inl hinterrupted⟩
  | _ => exact ⟨h.aborted, hold⟩

/-! ## The match -/

/-- Whose response each call gets. -/
structure Matched (s : Connection) : Prop where
  own : ∀ req r, (req, .ok r) ∈ s.client.returned → req ∈ s.requests ∧ Replies s.results req r
  received : s.received.Nodup ∧ s.received.Perm (s.started ++ s.spawned ++ s.aborted)
  aborted : s.aborted ≠ [] → s.interrupted = true
  results : (s.results.map Prod.fst).Nodup
  once : (landedIds s ++ claimedIds s).Nodup
  queued : ∀ r ∈ s.client.obtained, ∃ req ∈ s.pipelined, Replies s.results req r
  queue : flyingIds s = [] → s.lost = [] → handIds s.client.reader = [] →
    s.client.responses = [] → (s.client.obtained.map Response.id).Perm (s.pipelined.map Request.id)
  waiters : ∀ req ∈ s.requests, req.id ∈ flyingIds s ∨ req.id ∈ claimedIds s ∨ req.id ∈ s.lost
  lost : s.lost ≠ [] → s.Broken

theorem nodup_of_balanced (h : s.ledger.Balanced) :
    ((s.requests ++ s.pipelined).map Request.id).Nodup := by
  have := h.once
  rw [List.map_append]
  exact Multiset.coe_nodup.mp this

theorem eq_of_id {req req' : Request} (h : s.ledger.Balanced) (hreq : s.Sent req)
    (hreq' : s.Sent req') (hid : req.id = req'.id) : req = req' :=
  List.inj_on_of_nodup_map (nodup_of_balanced h) (List.mem_append.mpr hreq)
    (List.mem_append.mpr hreq') hid

/-- The request behind a response of a given id. -/
theorem replies_of_made {req : Request} {r : Response} (hbalanced : s.ledger.Balanced)
    (htraced : s.Traced) (hreq : s.Sent req) (hid : r.id = req.id) (hmade : s.Made r) :
    Replies s.results req r := by
  obtain ⟨req', hanswer⟩ := hmade
  obtain ⟨hsent, hreply⟩ := htraced.answers req' r hanswer
  have heq := eq_of_id hbalanced hreq hsent (hid.symm.trans hreply.id_eq)
  exact heq ▸ hreply

theorem received_nodup (hbalanced : s.ledger.Balanced) (hcounted : s.Counted) :
    s.received.Nodup := by
  have hnodup := (nodup_of_balanced hbalanced).of_map _
  rw [List.nodup_iff_count_le_one] at hnodup ⊢
  intro req
  have hle := hnodup req
  have hsent := hcounted.sent req
  rw [List.count_append] at hle
  omega

theorem matched_of_invariants (hbalanced : s.ledger.Balanced) (htraced : s.Traced)
    (hcounted : s.Counted) (hwhole : s.Whole) : s.Matched where
  own := by
    intro req r hr
    obtain ⟨hreq, hid, hmade⟩ := htraced.returned req r hr
    exact ⟨hreq, replies_of_made hbalanced htraced (.inl hreq) hid hmade⟩
  received := by
    refine ⟨received_nodup hbalanced hcounted, List.perm_iff_count.mpr fun req => ?_⟩
    rw [hcounted.received req, List.count_append, List.count_append]
  aborted := hwhole.aborted
  results := by
    have hnodup := received_nodup hbalanced hcounted
    rw [List.nodup_iff_count_le_one] at hnodup ⊢
    intro req
    have := hnodup req
    have := hcounted.received req
    have := hcounted.results req
    omega
  once := Multiset.coe_nodup.mp hbalanced.nodup_delivered
  queued := by
    intro r hr
    have hlanded : r.id ∈ s.ledger.landed :=
      Multiset.mem_coe.mpr (List.mem_append_right _ (List.mem_map_of_mem hr))
    obtain ⟨req, hreq, hid⟩ := List.mem_map.mp (Multiset.mem_coe.mp (hbalanced.landed r.id hlanded))
    exact ⟨req, hreq, replies_of_made hbalanced htraced (.inr hreq) hid.symm (htraced.obtained r hr)⟩
  queue := by
    intro hflying hlost hhand hresponses
    have hqueue : (landedIds s : Multiset UInt64) = s.pipelined.map Request.id :=
      hbalanced.landed_eq (by simp [ledger, hflying]) (by simp [ledger, hlost])
    rw [landedIds, hhand, hresponses] at hqueue
    exact Multiset.coe_eq_coe.mp hqueue
  waiters := fun req hreq =>
    hbalanced.of_waited (Multiset.mem_coe.mpr (List.mem_map_of_mem hreq))
  lost := hwhole.lost

/-- After every run in which the client has made at most 2^64 calls, whatever the order of
its steps, of the handlers and of the two tasks that carry the frames. -/
theorem requests_and_responses_match {acts : List Action} {s : Connection}
    (hrun : run step start acts = some s) (hcalls : s.calls ≤ 2 ^ 64) : s.Matched := by
  have htraced : s.Traced := by
    refine invariant step (I := Traced) ?_ (fun s a t h hstep => ?_) hrun
    · constructor <;> simp [start, Client.connect]
    · exact (step_cases hstep).elim h.of_calls h.of_serves
  have hcounted : s.Counted := by
    refine invariant step (I := Counted) ?_ (fun s a t h hstep => ?_) hrun
    · constructor <;> simp [start, Client.connect]
    · exact (step_cases hstep).elim h.of_calls h.of_serves
  have hwhole : s.Whole := by
    refine invariant step (I := Whole) ?_ (fun s a t h hstep => ?_) hrun
    · constructor <;> simp [start]
    · exact (step_cases hstep).elim h.of_calls h.of_serves
  exact matched_of_invariants (balanced_of_run hrun hcalls).2 htraced hcounted hwhole

/-! A pipelined call and a request whose handlers finish the other way round. -/

def listCall : Request := ⟨1, "account.list", .null⟩

def pingCall : Request := ⟨2, "ping", .null⟩

def crossing : List Action :=
  [.client (.sendRequest "account.list" .null), .client (.request "ping" .null), .client .write,
    .receive, .receive, .poll pingCall, .poll listCall,
    .respond pingCall (pong 2), .complete listCall .accountList (.ok .null),
    .respond listCall (.success 1 .null), .write, .write,
    .client .read, .client .read, .client .push, .client .finish, .client .nextResponse]

theorem crossing_responses_match :
    ∃ s, run step start crossing = some s ∧ s.calls ≤ 2 ^ 64 ∧
      s.client.returned = [(pingCall, .ok (pong 2))] ∧
      s.client.obtained = [.success 1 .null] ∧ s.Matched := by
  have hrun : (run step start crossing).any (fun s => s.calls ≤ 2 ^ 64 &&
      s.client.returned = [(pingCall, .ok (pong 2))] &&
      s.client.obtained = [.success 1 .null]) = true := by decide
  rw [Option.any_eq_true] at hrun
  obtain ⟨s, hs, hend⟩ := hrun
  simp only [Bool.and_eq_true, decide_eq_true_iff] at hend
  exact ⟨s, hs, hend.1.1, hend.1.2, hend.2, requests_and_responses_match hs hend.1.1⟩

/-! The connection ends between two turns of the server, and the ids come round. -/

/-- After calls of `send_request` that fail. -/
def afterFailures (s : Connection) (n : Nat) : Connection :=
  { s with client := { s.client with nextId := s.client.nextId + .ofNat n }, calls := s.calls + n }

theorem afterFailures_succ (s : Connection) (n : Nat) :
    (s.afterFailures 1).afterFailures n = s.afterFailures (n + 1) := by
  have hid : s.client.nextId + .ofNat 1 + .ofNat n = s.client.nextId + .ofNat (n + 1) := by
    rw [UInt64.ofNat_add, UInt64.add_comm (.ofNat n), UInt64.add_assoc]
  have hcalls : s.calls + 1 + n = s.calls + (n + 1) := by omega
  simp only [afterFailures, hid, hcalls]

theorem run_sendRequestFails (n : Nat) {s : Connection} (hidle : s.client.caller = .idle) :
    run step s (List.replicate n (.client (.sendRequestFails "ping" .null))) =
      some (s.afterFailures n) := by
  induction n generalizing s with
  | zero => simp [afterFailures]
  | succ n ih =>
    have hstep : step s (.client (.sendRequestFails "ping" .null)) = some (s.afterFailures 1) := by
      simp [step, Client.step, hidle, record, afterFailures]
    have hidle' : (s.afterFailures 1).client.caller = .idle := hidle
    rw [List.replicate_succ, run_cons, hstep, Option.bind_some, ih hidle', afterFailures_succ]

def firstPing : Request := ⟨1, "ping", .null⟩

def laterCall : Request := ⟨1, "bogus", .null⟩

def unreadPong : List Action :=
  [.client (.sendRequest "ping" .null), .receive, .poll firstPing, .respond firstPing (pong 1), .write]

def bogusCall : List Action :=
  [.client (.request "bogus" .null), .client .write, .client .read, .client .finish]

theorem not_replies_bogus (results : List (Request × Except RpcError Data)) :
    ¬ Replies results laterCall (pong 1) := by
  intro h
  have hunknown : Op.parse laterCall.op = none := by decide
  generalize hr : pong 1 = r at h
  cases h with
  | subscribe hop | unsubscribe hop | ping hop => exact absurd hop (by decide)
  | unknown => cases hr
  | dispatched hop => cases hunknown.symm.trans hop

theorem connection_mismatches :
    (∃ s, run step start [.client (.sendRequest "ping" .null), .receive, .interrupt, .drain] =
      some s ∧ s.received = [firstPing] ∧ s.started = [] ∧ s.spawned = [] ∧ s.serving = false) ∧
    (∃ acts s, run step start acts = some s ∧ (laterCall, .ok (pong 1)) ∈ s.client.returned ∧
      ¬ Replies s.results laterCall (pong 1)) := by
  refine ⟨⟨_, rfl, rfl, rfl, rfl, rfl⟩, ?_⟩
  have hrun : (run step start unreadPong).any (fun s => s.client.caller = .idle &&
      (run step (s.afterFailures (2 ^ 64 - 1)) bogusCall).any fun t =>
        (laterCall, .ok (pong 1)) ∈ t.client.returned) = true := by decide
  rw [Option.any_eq_true] at hrun
  obtain ⟨s, hs, hend⟩ := hrun
  rw [Bool.and_eq_true, decide_eq_true_iff, Option.any_eq_true] at hend
  obtain ⟨hidle, t, ht, hmem⟩ := hend
  refine ⟨unreadPong ++ (List.replicate (2 ^ 64 - 1) (.client (.sendRequestFails "ping" .null)) ++
    bogusCall), t, ?_, of_decide_eq_true hmem, not_replies_bogus t.results⟩
  rw [run_append_iff]
  refine ⟨s, hs, ?_⟩
  rw [run_append_iff]
  exact ⟨s.afterFailures (2 ^ 64 - 1), run_sendRequestFails _ hidle, ht⟩

end Connection

end Postblox.Ipc
