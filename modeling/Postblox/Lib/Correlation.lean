import Mathlib

/-!
# Matching answers to calls by an identifier

Calls of two kinds share one stream. The answer to a call that somebody waits for is
found by its identifier in a table of waiters, every other answer goes into a queue. The
ledger says where the answer to each call is: on its way, in the queue, with its waiter,
or lost. As long as no identifier is used twice, no answer is in two places, the queue has
the answers to the calls nobody waits for and the waiters have the others.
-/
namespace Postblox.Lib

variable {ι : Type}

/-- `waited` and `queued` are the identifiers of the calls sent, by kind; `unsent` is the
identifier of a call that has a waiter and is not sent yet. The table of waiters is
`registered`; once it is `closed` nothing is taken from it. -/
@[ext] structure Ledger (ι : Type) where
  waited : Multiset ι
  queued : Multiset ι
  unsent : Option ι
  registered : ι → Prop
  closed : Prop
  flying : Multiset ι
  landed : Multiset ι
  claimed : Multiset ι
  lost : Multiset ι

namespace Ledger

/-- Not used for a call so far. -/
def Fresh (l : Ledger ι) (id : ι) : Prop :=
  id ∉ l.waited ∧ id ∉ l.queued ∧ ¬ l.registered id

/-- What can happen between two states of a ledger. -/
inductive Move (l : Ledger ι) : Ledger ι → Prop where
  | stay : Move l l
  | register {id : ι} (hfresh : l.Fresh id) :
      Move l { l with unsent := some id, registered := fun i => l.registered i ∨ i = id }
  | send {id : ι} (hunsent : l.unsent = some id) :
      Move l { l with unsent := none, waited := id ::ₘ l.waited, flying := id ::ₘ l.flying }
  | withdraw {id : ι} (hunsent : l.unsent = some id) :
      Move l { l with unsent := none, registered := fun i => l.registered i ∧ i ≠ id }
  | enqueue {id : ι} (hfresh : l.Fresh id) (hunsent : l.unsent = none) :
      Move l { l with queued := id ::ₘ l.queued, flying := id ::ₘ l.flying }
  | claim {id : ι} {rest : Multiset ι} (hopen : ¬ l.closed) (hflying : l.flying = id ::ₘ rest)
      (hregistered : l.registered id) :
      Move l { l with flying := rest, claimed := id ::ₘ l.claimed
                      registered := fun i => l.registered i ∧ i ≠ id }
  | land {id : ι} {rest : Multiset ι} (hopen : ¬ l.closed) (hflying : l.flying = id ::ₘ rest)
      (hregistered : ¬ l.registered id) :
      Move l { l with flying := rest, landed := id ::ₘ l.landed }
  | lose {gone rest : Multiset ι} (hflying : l.flying = gone + rest) :
      Move l { l with flying := rest, lost := gone + l.lost }
  | close : Move l { l with closed := True, registered := fun _ => False }

theorem Move.congr {l m m' : Ledger ι} (h : Move l m) (heq : m' = m) : Move l m' := heq ▸ h

/-- The law of the ledger. -/
structure Balanced (l : Ledger ι) : Prop where
  once : (l.waited + l.queued).Nodup
  whereabouts : l.flying + l.landed + l.claimed + l.lost = l.waited + l.queued
  unsent : ∀ id, l.unsent = some id →
    id ∉ l.waited ∧ id ∉ l.queued ∧ (¬ l.closed → l.registered id)
  waiters : ∀ id, l.registered id → id ∉ l.queued
  findable : ¬ l.closed → ∀ id ∈ l.waited, id ∈ l.flying → l.registered id
  landed : ∀ id ∈ l.landed, id ∈ l.queued
  claimed : ∀ id ∈ l.claimed, id ∈ l.waited

theorem Balanced.mem_of_flying {l : Ledger ι} (h : l.Balanced) {id : ι} (hid : id ∈ l.flying) :
    id ∈ l.waited ∨ id ∈ l.queued := by
  have hmem : id ∈ l.flying + l.landed + l.claimed + l.lost := by simp [hid]
  rw [h.whereabouts] at hmem
  exact Multiset.mem_add.mp hmem

/-- No answer is in two places. -/
theorem Balanced.nodup {l : Ledger ι} (h : l.Balanced) :
    (l.flying + l.landed + l.claimed + l.lost).Nodup := h.whereabouts ▸ h.once

theorem Balanced.nodup_delivered {l : Ledger ι} (h : l.Balanced) : (l.landed + l.claimed).Nodup := by
  refine Multiset.nodup_of_le ?_ h.nodup
  rw [add_assoc l.flying]
  exact (Multiset.le_add_left _ _).trans (Multiset.le_add_right _ _)

theorem Balanced.not_waited {l : Ledger ι} (h : l.Balanced) {id : ι} (hid : id ∈ l.queued) :
    id ∉ l.waited := by
  intro hwaited
  exact Multiset.disjoint_left.mp (Multiset.nodup_add.mp h.once).2.2 hwaited hid

/-- A call that is waited for: its answer is on its way, with its waiter or lost. -/
theorem Balanced.of_waited {l : Ledger ι} (h : l.Balanced) {id : ι} (hid : id ∈ l.waited) :
    id ∈ l.flying ∨ id ∈ l.claimed ∨ id ∈ l.lost := by
  have hmem : id ∈ l.flying + l.landed + l.claimed + l.lost := by
    rw [h.whereabouts]
    exact Multiset.mem_add.mpr (.inl hid)
  simp only [Multiset.mem_add] at hmem
  rcases hmem with ((hflying | hlanded) | hclaimed) | hlost
  · exact .inl hflying
  · exact absurd hid (h.not_waited (h.landed id hlanded))
  · exact .inr (.inl hclaimed)
  · exact .inr (.inr hlost)

/-- With nothing under way and nothing lost, the queue has had every answer of its calls. -/
theorem Balanced.landed_eq {l : Ledger ι} (h : l.Balanced) (hflying : l.flying = 0)
    (hlost : l.lost = 0) : l.landed = l.queued := by
  have hlanded := (Multiset.nodup_add.mp h.nodup_delivered).1
  have hqueued := (Multiset.nodup_add.mp h.once).2.1
  rw [Multiset.Nodup.ext hlanded hqueued]
  intro id
  refine ⟨h.landed id, fun hid => ?_⟩
  have hmem : id ∈ l.flying + l.landed + l.claimed + l.lost := by
    rw [h.whereabouts]
    exact Multiset.mem_add.mpr (.inr hid)
  rw [hflying, hlost, zero_add, add_zero] at hmem
  rcases Multiset.mem_add.mp hmem with hmem | hclaimed
  · exact hmem
  · exact absurd (h.claimed id hclaimed) (h.not_waited hid)

theorem Balanced.not_mem_rest {l : Ledger ι} (h : l.Balanced) {id : ι} {rest : Multiset ι}
    (hflying : l.flying = id ::ₘ rest) : id ∉ rest := by
  have hnodup := h.nodup
  rw [hflying] at hnodup
  simp only [Multiset.cons_add, Multiset.nodup_cons, Multiset.mem_add, not_or] at hnodup
  exact hnodup.1.1.1.1

theorem Balanced.of_move {l m : Ledger ι} (h : l.Balanced) (hmove : Move l m) : m.Balanced := by
  cases hmove with
  | stay => exact h
  | @register id hfresh =>
    obtain ⟨hwaited, hqueued, -⟩ := hfresh
    refine ⟨h.once, h.whereabouts, ?_, ?_, ?_, h.landed, h.claimed⟩
    · intro i hi
      cases hi
      exact ⟨hwaited, hqueued, fun _ => .inr rfl⟩
    · intro i hi
      rcases hi with hi | rfl
      · exact h.waiters i hi
      · exact hqueued
    · intro hopen i hi hflying
      exact .inl (h.findable hopen i hi hflying)
  | @send id hunsent =>
    obtain ⟨hwaited, hqueued, hregistered⟩ := h.unsent id hunsent
    refine ⟨?_, ?_, fun i hi => (nomatch hi), h.waiters, ?_, h.landed, ?_⟩
    · rw [Multiset.cons_add, Multiset.nodup_cons, Multiset.mem_add, not_or]
      exact ⟨⟨hwaited, hqueued⟩, h.once⟩
    · simp only [Multiset.cons_add, h.whereabouts]
    · intro hopen i hi hflying
      by_cases hid : i = id
      · exact hid ▸ hregistered hopen
      · rw [Multiset.mem_cons] at hi hflying
        exact h.findable hopen i (hi.resolve_left hid) (hflying.resolve_left hid)
    · intro i hi
      exact Multiset.mem_cons_of_mem (h.claimed i hi)
  | @withdraw id hunsent =>
    obtain ⟨hwaited, -, -⟩ := h.unsent id hunsent
    refine ⟨h.once, h.whereabouts, fun i hi => (nomatch hi), fun i hi => h.waiters i hi.1, ?_,
      h.landed, h.claimed⟩
    intro hopen i hi hflying
    refine ⟨h.findable hopen i hi hflying, ?_⟩
    rintro rfl
    exact hwaited hi
  | @enqueue id hfresh hunsent =>
    obtain ⟨hwaited, hqueued, hregistered⟩ := hfresh
    refine ⟨?_, ?_, ?_, ?_, ?_, ?_, h.claimed⟩
    · rw [Multiset.add_cons, Multiset.nodup_cons, Multiset.mem_add, not_or]
      exact ⟨⟨hwaited, hqueued⟩, h.once⟩
    · simp only [Multiset.cons_add, Multiset.add_cons, h.whereabouts]
    · intro i hi
      cases hunsent.symm.trans hi
    · intro i hi hmem
      rcases Multiset.mem_cons.mp hmem with rfl | hmem
      · exact hregistered hi
      · exact h.waiters i hi hmem
    · intro hopen i hi hflying
      rcases Multiset.mem_cons.mp hflying with rfl | hflying
      · exact absurd hi hwaited
      · exact h.findable hopen i hi hflying
    · intro i hi
      exact Multiset.mem_cons_of_mem (h.landed i hi)
  | @claim id rest hopen hflying hregistered =>
    have hrest := h.not_mem_rest hflying
    have hwaited : id ∈ l.waited :=
      (h.mem_of_flying (by rw [hflying]; exact Multiset.mem_cons_self id rest)).resolve_right
        (h.waiters id hregistered)
    refine ⟨h.once, ?_, ?_, fun i hi => h.waiters i hi.1, ?_, h.landed, ?_⟩
    · rw [← h.whereabouts, hflying]
      simp only [Multiset.cons_add, Multiset.add_cons]
    · intro i hi
      obtain ⟨hnot, hnot', hreg⟩ := h.unsent i hi
      refine ⟨hnot, hnot', fun hopen => ⟨hreg hopen, ?_⟩⟩
      rintro rfl
      exact hnot hwaited
    · intro _ i hi hmem
      refine ⟨h.findable hopen i hi (by rw [hflying]; exact Multiset.mem_cons_of_mem hmem), ?_⟩
      rintro rfl
      exact hrest hmem
    · intro i hi
      rcases Multiset.mem_cons.mp hi with rfl | hi
      · exact hwaited
      · exact h.claimed i hi
  | @land id rest hopen hflying hregistered =>
    have hmem : id ∈ l.flying := by
      rw [hflying]
      exact Multiset.mem_cons_self id rest
    have hqueued : id ∈ l.queued := by
      rcases h.mem_of_flying hmem with hwaited | hqueued
      · exact absurd (h.findable hopen id hwaited hmem) hregistered
      · exact hqueued
    refine ⟨h.once, ?_, h.unsent, h.waiters, ?_, ?_, h.claimed⟩
    · rw [← h.whereabouts, hflying]
      simp only [Multiset.cons_add, Multiset.add_cons]
    · intro _ i hi hrest
      exact h.findable hopen i hi (by rw [hflying]; exact Multiset.mem_cons_of_mem hrest)
    · intro i hi
      rcases Multiset.mem_cons.mp hi with rfl | hi
      · exact hqueued
      · exact h.landed i hi
  | @lose gone rest hflying =>
    refine ⟨h.once, ?_, h.unsent, h.waiters, ?_, h.landed, h.claimed⟩
    · rw [← h.whereabouts, hflying]
      simp only [add_comm, add_left_comm]
    · intro hopen i hi hrest
      exact h.findable hopen i hi (by rw [hflying]; exact Multiset.mem_add.mpr (.inr hrest))
  | close =>
    refine ⟨h.once, h.whereabouts, ?_, fun i hi => (nomatch hi), fun hopen => absurd trivial hopen,
      h.landed, h.claimed⟩
    intro i hi
    obtain ⟨hnot, hnot', -⟩ := h.unsent i hi
    exact ⟨hnot, hnot', fun hopen => absurd trivial hopen⟩

end Ledger

end Postblox.Lib
