import Postblox.Ipc.Client

/-!
# When a request can return

A request holds the client, so nothing drains the channels while it waits, and the
pending map is cleared once. The reader task therefore blocks on a full channel in front
of the response, and a request that is written after the clearing is never answered. In
runs that avoid both, an outstanding request always has a step to make.
-/
namespace Postblox.Ipc

open Lib.Machine

namespace Client

/-! ## How far a request is from its return -/

/-- The steps of the client itself while a request is outstanding. -/
def ownSteps : List ClientAction := [.write, .finish, .read, .push, .clear]

/-- Items that end the wait of a request: its response, or an error. -/
def resolves (id : UInt64) : Option Frame → Bool
  | some (.response r) => r.id = id
  | none => true
  | _ => false

/-- The items in front of the first that ends the wait. -/
def ahead (id : UInt64) (inbound : List (Option Frame)) : Nat :=
  (inbound.takeWhile (!resolves id ·)).length

def readerSteps (c : Client) (id : UInt64) : Nat :=
  match c.reader with
  | .reading => 2 * ahead id c.inbound + 2
  | .sendingResponse _ | .sendingEvent _ => 2 * ahead id c.inbound + 3
  | .clearing => 1
  | .ended => 0

/-- The own steps left until the outstanding request returns. -/
def stepsLeft (c : Client) : Nat :=
  match c.caller with
  | .idle => 0
  | .requesting req written slot =>
    (if written then 1 else 2) + (if slot = .waiting then c.readerSteps req.id else 0)

/-- The server has written the response, or the stream or the reader task has ended. -/
def Due (c : Client) (req : Request) (slot : Slot) : Prop :=
  slot ≠ .waiting ∨ (∃ item ∈ c.inbound, resolves req.id item = true) ∨
    c.reader = .clearing ∨ c.reader = .ended

/-- An outstanding request that is due has an own step that brings it closer. -/
def Progresses (c : Client) : Prop :=
  ∀ req written slot, c.caller = .requesting req written slot → c.Due req slot →
    ∃ a ∈ ownSteps, ∃ t, c.step a = some t ∧ t.stepsLeft < c.stepsLeft

/-! ## The condition -/

/-- The reader task waits for room in a full channel. -/
def IsBlocked (c : Client) : Prop :=
  (∃ r, c.reader = .sendingResponse r ∧ channelCapacity ≤ c.responses.length) ∨
    (∃ e, c.reader = .sendingEvent e ∧ channelCapacity ≤ c.events.length)

/-- The reader task has room for the next frame, or does not need any. -/
def HasRoom (c : Client) : Prop :=
  (∀ e, c.inbound.head? = some (some (.event e)) → c.events.length < channelCapacity) ∧
    (∀ r, c.inbound.head? = some (some (.response r)) → r.id ∉ c.pending →
      c.responses.length < channelCapacity)

/-- What keeps the client going: no request is written while the reader task is blocked or
after it has ended, and nothing is read into a full channel while one waits. -/
def Careful (c : Client) : ClientAction → Prop
  | .write => ∀ req, c.caller = .requesting req false .waiting →
      c.reader ≠ .ended ∧ ¬ c.IsBlocked
  | .read => ∀ req, c.caller = .requesting req true .waiting → c.HasRoom
  | _ => True

/-- The invariant of careful runs. -/
structure Flowing (c : Client) : Prop where
  registered : ∀ req written, c.caller = .requesting req written .waiting → c.reader ≠ .ended →
    req.id ∈ c.pending
  alive : ∀ req, c.caller = .requesting req true .waiting → c.reader ≠ .ended ∧ ¬ c.IsBlocked

variable {c t : Client}

theorem flowing_of_idle (h : c.caller = .idle) : c.Flowing where
  registered := fun req written hcaller => by cases h.symm.trans hcaller
  alive := fun req hcaller => by cases h.symm.trans hcaller

/-! ## The reader task -/

/-- A call that still waits after a delivery waited before, on another id. -/
theorem waiting_of_deliver {caller : Caller} {r : Response} {req : Request} {written : Bool}
    (h : deliver caller r = .requesting req written .waiting) :
    caller = .requesting req written .waiting ∧ req.id ≠ r.id := by
  unfold deliver at h
  split at h
  · split_ifs at h with hid
    · cases h
    · obtain ⟨rfl, rfl, -⟩ := Caller.requesting.inj h
      exact ⟨rfl, hid⟩
  · next hnot =>
    exact absurd h (hnot req written)

theorem readItem_flowing (h : c.Flowing) (hreading : c.reader = .reading) (item : Option Frame)
    (hroom : ∀ req, c.caller = .requesting req true .waiting →
      { c with inbound := item :: c.inbound }.HasRoom) :
    (c.readItem item).Flowing := by
  have hended : c.reader ≠ .ended := by simp [hreading]
  cases item with
  | none =>
    refine ⟨fun req written hcaller _ => h.registered req written hcaller hended, fun req _ => ?_⟩
    simp [IsBlocked, readItem]
  | some frame =>
    cases frame with
    | request r => exact h
    | event e =>
      refine ⟨fun req written hcaller _ => h.registered req written hcaller hended,
        fun req hcaller => ?_⟩
      have hspace : c.events.length < channelCapacity := (hroom req hcaller).1 e rfl
      simp [IsBlocked, readItem]
      omega
    | response r =>
      by_cases hpending : r.id ∈ c.pending
      · simp only [readItem, if_pos hpending]
        refine ⟨fun req written hcaller _ => ?_, fun req _ => ?_⟩
        · obtain ⟨hwaiting, hne⟩ := waiting_of_deliver hcaller
          have hmem := h.registered req written hwaiting hended
          simp [hmem, hne]
        · simp [IsBlocked, hreading]
      · simp only [readItem, if_neg hpending]
        refine ⟨fun req written hcaller _ => h.registered req written hcaller hended,
          fun req hcaller => ?_⟩
        have hspace : c.responses.length < channelCapacity := (hroom req hcaller).2 r rfl hpending
        simp [IsBlocked]
        omega

/-! ## Every careful run -/

theorem flowing_of_step {a : ClientAction} (h : c.Flowing) (hcareful : c.Careful a)
    (hstep : c.step a = some t) : t.Flowing := by
  cases a with
  | request op args =>
    simp only [step] at hstep
    split at hstep
    · cases hstep
      refine ⟨fun req written hcaller _ => ?_, fun req hcaller => by cases hcaller⟩
      cases hcaller
      simp
    · cases hstep
  | write =>
    simp only [step] at hstep
    split at hstep
    · next req slot hcaller =>
      cases hstep
      refine ⟨fun req' written hc hreader => ?_, fun req' hc => ?_⟩
      · obtain ⟨rfl, -, rfl⟩ := Caller.requesting.inj hc
        exact h.registered req false hcaller hreader
      · obtain ⟨rfl, -, rfl⟩ := Caller.requesting.inj hc
        exact hcareful req hcaller
    · cases hstep
  | writeFails e =>
    simp only [step] at hstep
    split at hstep <;> cases hstep
    exact flowing_of_idle rfl
  | finish =>
    simp only [step] at hstep
    split at hstep <;> cases hstep
    · exact flowing_of_idle rfl
    · exact flowing_of_idle rfl
  | abandon =>
    simp only [step] at hstep
    split at hstep <;> cases hstep
    exact flowing_of_idle rfl
  | sendRequest op args =>
    simp only [step] at hstep
    split at hstep <;> cases hstep
    exact flowing_of_idle ‹_›
  | sendRequestFails op args =>
    simp only [step] at hstep
    split at hstep <;> cases hstep
    exact flowing_of_idle ‹_›
  | nextResponse =>
    simp only [step] at hstep
    split at hstep <;> cases hstep
    exact flowing_of_idle ‹_›
  | nextEvent =>
    simp only [step] at hstep
    split at hstep <;> cases hstep
    exact flowing_of_idle ‹_›
  | read =>
    simp only [step] at hstep
    split at hstep
    · next item rest hreading hinbound =>
      cases hstep
      refine readItem_flowing (c := { c with inbound := rest })
        ⟨h.registered, h.alive⟩ hreading item ?_
      intro req hcaller
      have hroom := hcareful req hcaller
      unfold HasRoom at hroom ⊢
      rwa [hinbound] at hroom
    · cases hstep
  | push =>
    have hstill : ∀ u : Client, u.caller = c.caller → u.pending = c.pending →
        c.reader ≠ .ended → u.reader = .reading → u.Flowing := by
      intro u hcaller hpending hreader hreading
      refine ⟨fun req written hc _ => ?_, fun req _ => ?_⟩
      · rw [hpending]
        exact h.registered req written (hcaller ▸ hc) hreader
      · simp [IsBlocked, hreading]
    simp only [step] at hstep
    split at hstep
    · next hreader =>
      split_ifs at hstep
      cases hstep
      exact hstill _ rfl rfl (by simp [hreader]) rfl
    · next hreader =>
      split_ifs at hstep
      cases hstep
      exact hstill _ rfl rfl (by simp [hreader]) rfl
    · cases hstep
  | clear =>
    simp only [step] at hstep
    split at hstep
    · next hclearing =>
      cases hstep
      have hdropped : ∀ req written,
          dropSenders c.caller c.pending ≠ .requesting req written .waiting := by
        intro req written hcaller
        unfold dropSenders at hcaller
        split at hcaller
        · next req' written' hwaiting =>
          have hmem := h.registered req' written' hwaiting (by simp [hclearing])
          rw [if_pos hmem] at hcaller
          cases hcaller
        · next hnot => exact hnot req written hcaller
      exact ⟨fun req written hcaller => absurd hcaller (hdropped req written),
        fun req hcaller => absurd hcaller (hdropped req true)⟩
    · cases hstep
  | arrive item =>
    cases hstep
    exact ⟨h.registered, h.alive⟩

/-! ## The next step -/

theorem ahead_cons {id : UInt64} {item : Option Frame} {rest : List (Option Frame)}
    (h : resolves id item = false) : ahead id (item :: rest) = ahead id rest + 1 := by
  simp [ahead, h]

/-- A read brings the reader task closer to the end of the wait. -/
theorem stepsLeft_readItem {req : Request} {written : Bool} (item : Option Frame)
    (hcaller : c.caller = .requesting req written .waiting) (hpending : req.id ∈ c.pending)
    (hreading : c.reader = .reading) :
    (c.readItem item).stepsLeft < { c with inbound := item :: c.inbound }.stepsLeft := by
  have hbefore : { c with inbound := item :: c.inbound }.stepsLeft =
      (if written then 1 else 2) + (2 * ahead req.id (item :: c.inbound) + 2) := by
    simp [stepsLeft, readerSteps, hcaller, hreading]
  rw [hbefore]
  cases item with
  | none =>
    simp [readItem, stepsLeft, readerSteps, hcaller]
  | some frame =>
    cases frame with
    | request r =>
      rw [ahead_cons (by rfl)]
      simp [readItem, stepsLeft, readerSteps, hcaller, hreading]
    | event e =>
      rw [ahead_cons (by rfl)]
      simp [readItem, stepsLeft, readerSteps, hcaller]
      omega
    | response r =>
      by_cases hid : req.id = r.id
      · have hmem : r.id ∈ c.pending := hid ▸ hpending
        simp [readItem, stepsLeft, deliver, hcaller, hmem, hid]
      · have hresolves : resolves req.id (some (.response r)) = false := by
          simpa [resolves] using Ne.symm hid
        rw [ahead_cons hresolves]
        by_cases hmem : r.id ∈ c.pending
        · simp [readItem, stepsLeft, readerSteps, deliver, hcaller, hreading, hmem, hid]
        · simp [readItem, stepsLeft, readerSteps, hcaller, hmem]
          omega

/-- A flowing client with a request that is due has a step to make. -/
theorem progresses_of_flowing (h : c.Flowing) : c.Progresses := by
  intro req written slot hcaller hdue
  cases written with
  | false =>
    refine ⟨.write, by simp [ownSteps],
      { c with caller := .requesting req true slot, outbound := c.outbound ++ [req] }, ?_, ?_⟩
    · simp [step, hcaller]
    · simp [stepsLeft, readerSteps, hcaller]
  | true =>
    cases slot with
    | answered r =>
      refine ⟨.finish, by simp [ownSteps],
        { c with caller := .idle, returned := c.returned ++ [(req, .ok r)] }, ?_, ?_⟩
      · simp [step, hcaller]
      · simp [stepsLeft, hcaller]
    | dropped =>
      refine ⟨.finish, by simp [ownSteps],
        { c with caller := .idle, returned := c.returned ++ [(req, .error .closed)] }, ?_, ?_⟩
      · simp [step, hcaller]
      · simp [stepsLeft, hcaller]
    | waiting =>
      obtain ⟨halive, hunblocked⟩ := h.alive req hcaller
      have hpending := h.registered req true hcaller halive
      cases hreader : c.reader with
      | ended => exact absurd hreader halive
      | clearing =>
        refine ⟨.clear, by simp [ownSteps], { c with
          reader := .ended, pending := [], caller := dropSenders c.caller c.pending }, ?_, ?_⟩
        · simp [step, hreader]
        · simp [stepsLeft, readerSteps, dropSenders, hcaller, hreader, hpending]
      | sendingResponse r =>
        have hspace : c.responses.length < channelCapacity := by
          simp [IsBlocked, hreader] at hunblocked
          omega
        refine ⟨.push, by simp [ownSteps],
          { c with reader := .reading, responses := c.responses ++ [r] }, ?_, ?_⟩
        · simp [step, hreader, hspace]
        · simp [stepsLeft, readerSteps, hcaller, hreader]
      | sendingEvent e =>
        have hspace : c.events.length < channelCapacity := by
          simp [IsBlocked, hreader] at hunblocked
          omega
        refine ⟨.push, by simp [ownSteps],
          { c with reader := .reading, events := c.events ++ [e] }, ?_, ?_⟩
        · simp [step, hreader, hspace]
        · simp [stepsLeft, readerSteps, hcaller, hreader]
      | reading =>
        have hnext : c.inbound ≠ [] := by
          rcases hdue with hslot | ⟨item, hmem, -⟩ | hclearing | hended
          · exact absurd rfl hslot
          · exact List.ne_nil_of_mem hmem
          · cases hreader.symm.trans hclearing
          · cases hreader.symm.trans hended
        obtain ⟨item, rest, hinbound⟩ := List.exists_cons_of_ne_nil hnext
        have hleft := stepsLeft_readItem (c := { c with inbound := rest }) item hcaller hpending
          hreader
        refine ⟨.read, by simp [ownSteps], { c with inbound := rest }.readItem item, ?_, ?_⟩
        · simp [step, hreader, hinbound]
        · rw [← hinbound] at hleft
          exact hleft

/-- In every run in which no request is written while the reader task is blocked or after
it has ended, and nothing is read into a full channel while a request waits, every
outstanding request that is due can go on. -/
theorem progresses_of_careful_run {acts : List ClientAction} {c : Client}
    (hcareful : Guarded step Careful connect acts) (hrun : run step connect acts = some c) :
    c.Progresses :=
  progresses_of_flowing (guarded_invariant step (I := Flowing) (flowing_of_idle rfl)
    (fun _ _ _ hflowing hok hstep => flowing_of_step hflowing hok hstep) hcareful hrun)

/-! A request whose response has arrived, one behind a full channel and one after the end. -/

def mailNew : Frame := .event ⟨1, "mail.new", .null⟩

def answeredCall : List ClientAction :=
  [.request "ping" .null, .write, .arrive (some (.response pongResponse))]

theorem careful_answeredCall : Guarded step Careful connect answeredCall := by
  refine ⟨trivial, fun c hc => ⟨fun req _ => ?_, fun d hd => ⟨trivial, fun _ _ => trivial⟩⟩⟩
  cases hc
  simp [connect, IsBlocked]

theorem answered_call_progresses :
    Guarded step Careful connect answeredCall ∧
    ∃ c, run step connect answeredCall = some c ∧
      c.caller = .requesting pingRequest true .waiting ∧
      c.inbound = [some (.response pongResponse)] ∧ c.Progresses :=
  ⟨careful_answeredCall, _, rfl, rfl, rfl, progresses_of_careful_run careful_answeredCall rfl⟩

/-- Events fill their channel, then a request is written and answered. -/
def crowdedCall : List ClientAction :=
  (List.replicate 257 [.arrive (some mailNew), .read, .push]).flatten.dropLast ++ answeredCall

/-- The stream breaks, then a request is written. -/
def lateCall : List ClientAction :=
  [.arrive none, .read, .clear, .request "ping" .null, .write]

/-- A written request is due, and the client has no step of its own. -/
def isStuck (c : Client) : Bool :=
  match c.caller with
  | .requesting req true .waiting =>
    (c.inbound.any (resolves req.id) || c.reader = .ended) &&
      ownSteps.all fun a => (c.step a).isNone
  | _ => false

theorem not_progresses_of_isStuck (h : c.isStuck = true) : ¬ c.Progresses := by
  unfold isStuck at h
  split at h
  · next req hcaller =>
    rw [Bool.and_eq_true, Bool.or_eq_true, List.any_eq_true, List.all_eq_true,
      decide_eq_true_iff] at h
    obtain ⟨hdue, hnone⟩ := h
    intro hprogress
    have hdue' : c.Due req .waiting := by
      rcases hdue with hitem | hended
      · exact .inr (.inl hitem)
      · exact .inr (.inr (.inr hended))
    obtain ⟨a, ha, t, hstep, -⟩ := hprogress req true .waiting hcaller hdue'
    have hblocked := hnone a ha
    rw [hstep] at hblocked
    cases hblocked
  · cases h

theorem client_wedges :
    (∃ c, run step connect crowdedCall = some c ∧
      c.inbound = [some (.response pongResponse)] ∧ ¬ c.Progresses) ∧
    (∃ c, run step connect lateCall = some c ∧ c.reader = .ended ∧ ¬ c.Progresses) := by
  have hcrowded : (run step connect crowdedCall).any (fun c => c.isStuck &&
      c.inbound = [some (.response pongResponse)]) = true := by decide +kernel
  have hlate : (run step connect lateCall).any (fun c => c.isStuck && c.reader = .ended) = true := by
    decide +kernel
  rw [Option.any_eq_true] at hcrowded hlate
  obtain ⟨c, hc, hstuck⟩ := hcrowded
  obtain ⟨d, hd, hstuck'⟩ := hlate
  rw [Bool.and_eq_true, decide_eq_true_iff] at hstuck hstuck'
  exact ⟨⟨c, hc, hstuck.2, not_progresses_of_isStuck hstuck.1⟩,
    ⟨d, hd, hstuck'.2, not_progresses_of_isStuck hstuck'.1⟩⟩

end Client

end Postblox.Ipc
