import Postblox.Mcp.BridgeInvariant

/-!
# The invariant of the bridge system

The invariant of the whole system and its preservation by every action, grouped
by the component an action writes.
-/
namespace Postblox.Mcp.Bridge

open Json (Value)
open Tools

/-! ## Tasks, events and winners -/

structure TaskOk (s : State) (task : DecideTask) : Prop where
  terminal : task.request.state ≠ .pending
  fresh : task.phase = .received → task.changed = none
  updated : ∀ b, task.phase = .updated b → task.changed = some b
  fetched : ∀ row, task.phase = .fetched row → task.changed = some true ∧
    ∀ a, row = some a → a.id = task.request.id ∧ a.state ≠ .pending ∧ s.approvals a.id = some a
  answered : ∀ b, task.phase = .answered (.ok b) → task.changed = some b
  won : task.changed = some true → Decided s task.request.id task.request.state

def EventOk (crates : Crates) (s : State) (data : Value) : Prop :=
  ∀ id state, matchDecidedEvent crates id data = some state → Decided s id state

/-- Task `t` is a decide call on `id` whose `UPDATE` changed the row. -/
def Winner (s : State) (id : Uuid) (t : Nat) : Prop :=
  ∃ task, s.tasks t = some task ∧ task.request.id = id ∧ task.changed = some true

variable {crates : Crates} {s s' : State}

theorem TaskOk.mono (h : Extends s s') {task : DecideTask} (ht : TaskOk s task) :
    TaskOk s' task where
  terminal := ht.terminal
  fresh := ht.fresh
  updated := ht.updated
  fetched row hphase := by
    obtain ⟨hchanged, hrow⟩ := ht.fetched row hphase
    refine ⟨hchanged, fun a ha => ?_⟩
    obtain ⟨hid, hne, hlookup⟩ := hrow a ha
    obtain ⟨a', ha', hadv⟩ := h.rows _ _ hlookup
    obtain rfl := hadv.frozen hne
    exact ⟨hid, hne, ha'⟩
  answered := ht.answered
  won hw := (ht.won hw).mono h

theorem EventOk.mono (h : Extends s s') {data : Value} (he : EventOk crates s data) :
    EventOk crates s' data :=
  fun id state hm => (he id state hm).mono h

theorem matchDecidedEvent_decidedEvent (id : Uuid) (row : McpApproval) :
    matchDecidedEvent crates id (decidedEvent row) =
      if row.id ≠ id then none else some row.state := by
  simp only [matchDecidedEvent, decidedEvent, Value.asObject, List.lookup, Value.asStr,
    Option.bind_eq_bind, Option.bind_some, crates.uuid.parse_hyphenated,
    show ("approval_id" == "approval_id") = true from rfl,
    show ("state" == "approval_id") = false from rfl,
    show ("state" == "decided_by") = false from rfl,
    show ("state" == "state") = true from rfl, ApprovalState.fromStr_asStr]

theorem eventOk_decidedEvent {row : McpApproval} (hrow : s.approvals row.id = some row)
    (hne : row.state ≠ .pending) : EventOk crates s (decidedEvent row) := by
  intro id state hm
  rw [matchDecidedEvent_decidedEvent] at hm
  split_ifs at hm with hid
  obtain rfl := not_not.mp hid
  cases hm
  exact ⟨hne, row, hrow, rfl⟩

theorem eventOk_laggedEvent (n : Nat) : EventOk crates s (laggedEvent n) := by
  intro id state hm
  simp [matchDecidedEvent, laggedEvent, Value.asObject, List.lookup] at hm

/-! ## The invariant -/

structure Inv (crates : Crates) (s : State) : Prop where
  rows : ∀ id row, s.approvals id = some row → row.id = id
  creators : ∀ id c, s.creator id = some c → ∃ row, s.approvals id = some row
  calls : ∀ c call, s.calls c = some call → CallOk crates s c call
  uncalled : ∀ c, s.calls c = none → sent s c = 0
  events : ∀ c sub, s.subs c = some sub → ∀ data ∈ sub.events, EventOk crates s data
  tasks : ∀ t task, s.tasks t = some task → TaskOk s task
  undecided : ∀ id row, s.approvals id = some row → row.state = .pending → ∀ t, ¬ Winner s id t
  decided : ∀ id row, s.approvals id = some row → row.state ≠ .pending → ∃ t, Winner s id t
  unique : ∀ id t t', Winner s id t → Winner s id t' → t = t'
  published : ∀ e ∈ s.published, ∃ task row, s.tasks e.1 = some task ∧
    task.phase = .answered (.ok true) ∧ row.id = task.request.id ∧
    s.approvals row.id = some row ∧ row.state ≠ .pending ∧ e.2 = decidedEvent row
  once : (s.published.map Prod.fst).Nodup

theorem Inv.init (gates : List McpGate) : Inv crates (State.init gates) where
  rows _ _ h := by cases h
  creators _ _ h := by cases h
  calls _ _ h := by cases h
  uncalled _ _ := rfl
  events _ _ h := by cases h
  tasks _ _ h := by cases h
  undecided _ _ h := by cases h
  decided _ _ h := by cases h
  unique _ _ _ h := by
    obtain ⟨_, h, _⟩ := h
    cases h
  published _ h := by cases h
  once := List.nodup_nil

theorem Extends.of_eq (ha : s'.approvals = s.approvals) (hc : s'.creator = s.creator)
    (ht : s'.tasks = s.tasks) : Extends s s' where
  rows id row h := ⟨row, by rw [ha]; exact h, .refl row⟩
  creator id c h := by rw [hc]; exact h
  tasks t task h := ⟨task, by rw [ht]; exact h, rfl, fun _ hb => hb,
    fun b _ hb hn => by rw [hn] at hb; cases hb⟩

/-! ## Actions that write one call or one subscription -/

theorem Inv.setCall (h : Inv crates s) {c : Nat} {call : Call} (hok : CallOk crates s c call) :
    Inv crates (s.setCall c call) := by
  have hext : Extends s (s.setCall c call) := .of_eq rfl rfl rfl
  exact
    { rows := h.rows
      creators := h.creators
      calls := fun c' call' hc' => by
        rw [State.setCall_calls] at hc'
        split_ifs at hc' with heq
        · subst heq
          cases hc'
          exact hok.mono hext rfl
        · exact (h.calls c' call' hc').mono hext rfl
      uncalled := fun c' hc' => by
        rw [State.setCall_calls] at hc'
        split_ifs at hc' with heq
        exact h.uncalled c' hc'
      events := fun c' sub hsub data hd => (h.events c' sub hsub data hd).mono hext
      tasks := fun t task ht => (h.tasks t task ht).mono hext
      undecided := h.undecided
      decided := h.decided
      unique := h.unique
      published := h.published
      once := h.once }

theorem Inv.setSub (h : Inv crates s) {c : Nat} {sub : Subscription}
    (hok : ∀ data ∈ sub.events, EventOk crates s data) : Inv crates (s.setSub c sub) := by
  have hext : Extends s (s.setSub c sub) := .of_eq rfl rfl rfl
  exact
    { rows := h.rows
      creators := h.creators
      calls := fun c' call' hc' => (h.calls c' call' hc').mono hext rfl
      uncalled := h.uncalled
      events := fun c' sub' hsub data hd => by
        rw [State.setSub_subs] at hsub
        split_ifs at hsub with heq
        · cases hsub
          exact (hok data hd).mono hext
        · exact (h.events c' sub' hsub data hd).mono hext
      tasks := fun t task ht => (h.tasks t task ht).mono hext
      undecided := h.undecided
      decided := h.decided
      unique := h.unique
      published := h.published
      once := h.once }

/-! ## Actions that write one task -/

/-- What a step may do to a task: it keeps the request and the result of the
`UPDATE`, does not touch an answered task, and learns of a lost `UPDATE` only
where the row of the request, if there is one, is decided. -/
structure Continues (s : State) (old new : DecideTask) : Prop where
  request : new.request = old.request
  changed : ∀ b, old.changed = some b → new.changed = some b
  running : ∀ r, old.phase ≠ .answered r
  learns : ∀ b, new.changed = some b → old.changed = none →
    b = false ∧ ∀ row, s.approvals old.request.id = some row → row.state ≠ .pending

theorem Continues.of_same {old new : DecideTask} (hrequest : new.request = old.request)
    (hchanged : new.changed = old.changed) (hrunning : ∀ r, old.phase ≠ .answered r) :
    Continues s old new where
  request := hrequest
  changed b hb := hchanged.trans hb
  running := hrunning
  learns b hb hn := by
    rw [hchanged, hn] at hb
    cases hb

theorem Extends.setTask {t : Nat} {task : DecideTask}
    (hold : ∀ old, s.tasks t = some old → Continues s old task) :
    Extends s (s.setTask t task) where
  rows _ row h := ⟨row, h, .refl row⟩
  creator _ _ h := h
  tasks t' old h := by
    rw [State.setTask_tasks]
    split_ifs with heq
    · subst heq
      have hc := hold old h
      refine ⟨task, rfl, hc.request, hc.changed, fun b row hb hn hrow => ?_⟩
      exact ⟨row.state, (hc.learns b hb hn).2 row hrow, row, hrow, rfl⟩
    · exact ⟨old, h, rfl, fun _ hb => hb, fun b _ hb hn => by rw [hn] at hb; cases hb⟩

theorem winner_setTask {t : Nat} {task : DecideTask}
    (hold : ∀ old, s.tasks t = some old → Continues s old task)
    (hnew : s.tasks t = none → task.changed = none) (id : Uuid) (t' : Nat) :
    Winner (s.setTask t task) id t' ↔ Winner s id t' := by
  unfold Winner
  rw [State.setTask_tasks]
  split_ifs with heq
  · subst heq
    constructor
    · rintro ⟨_, ⟨⟩, hid, hw⟩
      cases ht : s.tasks t' with
      | none =>
        rw [hnew ht] at hw
        cases hw
      | some old =>
        have hc := hold old ht
        refine ⟨old, rfl, by rw [← hc.request]; exact hid, ?_⟩
        cases hchanged : old.changed with
        | none => cases (hc.learns true hw hchanged).1
        | some b =>
          rw [hc.changed b hchanged] at hw
          exact hw
    · rintro ⟨old, ht, hid, hw⟩
      have hc := hold old ht
      exact ⟨task, rfl, by rw [hc.request]; exact hid, hc.changed true hw⟩
  · rfl

theorem Inv.setTask (h : Inv crates s) {t : Nat} {task : DecideTask}
    (hold : ∀ old, s.tasks t = some old → Continues s old task)
    (hnew : s.tasks t = none → task.changed = none) (hok : TaskOk s task) :
    Inv crates (s.setTask t task) := by
  have hext : Extends s (s.setTask t task) := .setTask hold
  have hwin := winner_setTask hold hnew
  exact
    { rows := h.rows
      creators := h.creators
      calls := fun c call hc => (h.calls c call hc).mono hext rfl
      uncalled := h.uncalled
      events := fun c sub hsub data hd => (h.events c sub hsub data hd).mono hext
      tasks := fun t' task' ht' => by
        rw [State.setTask_tasks] at ht'
        split_ifs at ht' with heq
        · cases ht'
          exact hok.mono hext
        · exact (h.tasks t' task' ht').mono hext
      undecided := fun id row hrow hp t' => by
        rw [hwin]
        exact h.undecided id row hrow hp t'
      decided := fun id row hrow hne => by
        obtain ⟨t', ht'⟩ := h.decided id row hrow hne
        exact ⟨t', (hwin id t').mpr ht'⟩
      unique := fun id t₁ t₂ h₁ h₂ => by
        rw [hwin] at h₁ h₂
        exact h.unique id t₁ t₂ h₁ h₂
      published := fun e he => by
        obtain ⟨task', row, ht', hphase, hrest⟩ := h.published e he
        refine ⟨task', row, ?_, hphase, hrest⟩
        rw [State.setTask_tasks]
        split_ifs with heq
        · rw [heq] at ht'
          exact absurd hphase ((hold task' ht').running _)
        · exact ht'
      once := h.once }

theorem TaskOk.start {request : DecideRequest} (h : request.state ≠ .pending) :
    TaskOk s (.start request) where
  terminal := h
  fresh _ := rfl
  updated _ hp := by cases hp
  fetched _ hp := by cases hp
  answered _ hp := by cases hp
  won hw := by cases hw

/-- A request that decodes never asks for `pending`. -/
theorem decodeDecide_state {args : Value} {request : DecideRequest}
    (h : decodeDecide crates args = .ok request) : request.state ≠ .pending := by
  unfold decodeDecide at h
  simp only [bind, Except.bind] at h
  split at h
  · cases h
  split at h
  · cases h
  split at h
  · cases h
  split_ifs at h with hp
  split at h
  · split_ifs at h
    cases h
    exact hp
  · cases h
    exact hp

theorem decodeDecide_expireArgs (id : Uuid) :
    decodeDecide crates (expireArgs id) = .ok ⟨id, .expired, "mcp:timeout"⟩ := by
  have hid : Daemon.Args.parseId crates (expireArgs id) "id" = .ok id := by
    simp [Daemon.Args.parseId, expireArgs, Value.get, List.lookup, Value.asStr,
      crates.uuid.parse_hyphenated, show ("id" == "decided_by") = false from rfl]
  have hstate : Daemon.Args.parseStr (expireArgs id) "state" = .ok "expired" := rfl
  simp only [decodeDecide, hid, hstate, bind, Except.bind]
  rfl

/-! ## Actions that write the approval table -/

theorem Extends.addApproval (h : Inv crates s) {row : McpApproval} {creator : Option Nat}
    (hfresh : s.approvals row.id = none) : Extends s (s.addApproval row creator) where
  rows id old hold := by
    have hne : id ≠ row.id := fun heq => by
      rw [heq, hfresh] at hold
      cases hold
    exact ⟨old, by rw [State.addApproval_approvals, if_neg hne]; exact hold, .refl old⟩
  creator id c hc := by
    have hne : id ≠ row.id := fun heq => by
      obtain ⟨old, hold⟩ := h.creators id c hc
      rw [heq, hfresh] at hold
      cases hold
    rw [State.addApproval_creator, if_neg hne]
    exact hc
  tasks _ task ht := ⟨task, ht, rfl, fun _ hb => hb, fun b _ hb hn => by rw [hn] at hb; cases hb⟩

theorem no_winner_of_missing (h : Inv crates s) {id : Uuid} (hmissing : s.approvals id = none)
    (t : Nat) : ¬ Winner s id t := by
  rintro ⟨task, ht, rfl, hw⟩
  obtain ⟨-, row, hrow, -⟩ := (h.tasks t task ht).won hw
  rw [hmissing] at hrow
  cases hrow

theorem Inv.addApproval (h : Inv crates s) {row : McpApproval} {creator : Option Nat}
    (hfresh : s.approvals row.id = none) (hp : row.state = .pending) :
    Inv crates (s.addApproval row creator) := by
  have hext : Extends s (s.addApproval row creator) := .addApproval h hfresh
  exact
    { rows := fun id row' hrow => by
        rw [State.addApproval_approvals] at hrow
        split_ifs at hrow with heq
        · cases hrow
          exact heq.symm
        · exact h.rows id row' hrow
      creators := fun id c hc => by
        rw [State.addApproval_creator] at hc
        rw [State.addApproval_approvals]
        split_ifs at hc ⊢ with heq
        · exact ⟨row, rfl⟩
        · exact h.creators id c hc
      calls := fun c call hc => (h.calls c call hc).mono hext rfl
      uncalled := h.uncalled
      events := fun c sub hsub data hd => (h.events c sub hsub data hd).mono hext
      tasks := fun t task ht => (h.tasks t task ht).mono hext
      undecided := fun id row' hrow hp' t hw => by
        rw [State.addApproval_approvals] at hrow
        split_ifs at hrow with heq
        · rw [heq] at hw
          exact no_winner_of_missing h hfresh t hw
        · exact h.undecided id row' hrow hp' t hw
      decided := fun id row' hrow hne => by
        rw [State.addApproval_approvals] at hrow
        split_ifs at hrow with heq
        · cases hrow
          exact absurd hp hne
        · exact h.decided id row' hrow hne
      unique := h.unique
      published := fun e he => by
        obtain ⟨task, row', ht, hphase, hid, hrow, hne, hdata⟩ := h.published e he
        obtain ⟨row'', hrow'', hadv⟩ := hext.rows _ _ hrow
        obtain rfl := hadv.frozen hne
        exact ⟨task, row'', ht, hphase, hid, hrow'', hne, hdata⟩
      once := h.once }

section UpdateWins

variable {t : Nat} {now : Int} {task : DecideTask} {row : McpApproval}

/-- The state after an `UPDATE` that found its row pending. -/
def wins (s : State) (t : Nat) (now : Int) (task : DecideTask) (row : McpApproval) : State :=
  (s.setApproval task.request.id (decidedRow row task.request now)).setTask t
    { task with phase := .updated true, changed := some true }

theorem wins_approvals (id : Uuid) : (wins s t now task row).approvals id =
    if id = task.request.id then some (decidedRow row task.request now) else s.approvals id :=
  Function.update_apply ..

theorem wins_tasks (t' : Nat) : (wins s t now task row).tasks t' =
    if t' = t then some { task with phase := .updated true, changed := some true }
    else s.tasks t' :=
  Function.update_apply ..

theorem decided_wins (h : task.request.state ≠ .pending) :
    Decided (wins s t now task row) task.request.id task.request.state :=
  ⟨h, decidedRow row task.request now, by rw [wins_approvals, if_pos rfl], rfl⟩

theorem Extends.wins (h : Inv crates s) (htask : s.tasks t = some task)
    (hphase : task.phase = .received) (hrow : s.approvals task.request.id = some row)
    (hpending : row.state = .pending) : Extends s (wins s t now task row) where
  rows id old hold := by
    rw [wins_approvals]
    split_ifs with heq
    · subst heq
      cases hrow.symm.trans hold
      exact ⟨_, rfl, rfl, rfl, rfl, fun hne => absurd hpending hne⟩
    · exact ⟨old, hold, .refl old⟩
  creator _ _ hc := hc
  tasks t' old ht' := by
    rw [wins_tasks]
    split_ifs with heq
    · subst heq
      cases htask.symm.trans ht'
      have hnone := (h.tasks t' task htask).fresh hphase
      refine ⟨_, rfl, rfl, fun b hb => ?_, fun b _ _ _ _ => ?_⟩
      · rw [hnone] at hb
        cases hb
      · exact ⟨task.request.state, decided_wins (h.tasks t' task htask).terminal⟩
    · exact ⟨old, ht', rfl, fun _ hb => hb, fun b _ hb hn => by rw [hn] at hb; cases hb⟩

/-- The winning task is the only new winner, and only of its own approval. -/
theorem winner_wins (now : Int) (row : McpApproval) (htask : s.tasks t = some task)
    (hnone : task.changed = none) (id : Uuid) (t' : Nat) :
    Winner (wins s t now task row) id t' ↔
      Winner s id t' ∨ (t' = t ∧ id = task.request.id) := by
  unfold Winner
  rw [wins_tasks]
  split_ifs with heq
  · subst heq
    constructor
    · rintro ⟨_, ⟨⟩, hid, -⟩
      exact .inr ⟨rfl, hid.symm⟩
    · rintro (⟨old, hold, -, hw⟩ | ⟨-, hid⟩)
      · cases htask.symm.trans hold
        rw [hnone] at hw
        cases hw
      · exact ⟨_, rfl, hid.symm, rfl⟩
  · constructor
    · exact .inl
    · rintro (hw | ⟨ht, -⟩)
      · exact hw
      · exact absurd ht heq

theorem Inv.wins (h : Inv crates s) (htask : s.tasks t = some task)
    (hphase : task.phase = .received) (hrow : s.approvals task.request.id = some row)
    (hpending : row.state = .pending) : Inv crates (wins s t now task row) := by
  have hext : Extends s (Bridge.wins s t now task row) :=
    .wins h htask hphase hrow hpending
  have hok := h.tasks t task htask
  have hwin := winner_wins now row htask (hok.fresh hphase)
  exact
    { rows := fun id row' hrow' => by
        rw [wins_approvals] at hrow'
        split_ifs at hrow' with heq
        · cases hrow'
          rw [heq]
          exact h.rows task.request.id row hrow
        · exact h.rows id row' hrow'
      creators := fun id c hc => by
        obtain ⟨old, hold⟩ := h.creators id c hc
        obtain ⟨new, hnew, -⟩ := hext.rows id old hold
        exact ⟨new, hnew⟩
      calls := fun c call hc => (h.calls c call hc).mono hext rfl
      uncalled := h.uncalled
      events := fun c sub hsub data hd => (h.events c sub hsub data hd).mono hext
      tasks := fun t' task' ht' => by
        rw [wins_tasks] at ht'
        split_ifs at ht' with heq
        · cases ht'
          exact
            { terminal := hok.terminal
              fresh := fun hp => by cases hp
              updated := fun b hb => by
                cases hb
                rfl
              fetched := fun _ hp => by cases hp
              answered := fun _ hp => by cases hp
              won := fun _ => decided_wins hok.terminal }
        · exact (h.tasks t' task' ht').mono hext
      undecided := fun id row' hrow' hp t' hw => by
        rw [wins_approvals] at hrow'
        rw [hwin] at hw
        split_ifs at hrow' with heq
        · cases hrow'
          exact hok.terminal hp
        · rcases hw with hw | ⟨-, hid⟩
          · exact h.undecided id row' hrow' hp t' hw
          · exact heq hid
      decided := fun id row' hrow' hne => by
        rw [wins_approvals] at hrow'
        split_ifs at hrow' with heq
        · exact ⟨t, (hwin id t).mpr (.inr ⟨rfl, heq⟩)⟩
        · obtain ⟨t', ht'⟩ := h.decided id row' hrow' hne
          exact ⟨t', (hwin id t').mpr (.inl ht')⟩
      unique := fun id t₁ t₂ h₁ h₂ => by
        rw [hwin] at h₁ h₂
        rcases h₁ with h₁ | ⟨rfl, hid⟩
        · rcases h₂ with h₂ | ⟨-, hid⟩
          · exact h.unique id t₁ t₂ h₁ h₂
          · rw [hid] at h₁
            exact absurd h₁ (h.undecided _ row hrow hpending t₁)
        · rcases h₂ with h₂ | ⟨rfl, -⟩
          · rw [hid] at h₂
            exact absurd h₂ (h.undecided _ row hrow hpending t₂)
          · rfl
      published := fun e he => by
        obtain ⟨task', row', ht', hphase', hid, hrow', hne, hdata⟩ := h.published e he
        obtain ⟨row'', hrow'', hadv⟩ := hext.rows _ _ hrow'
        obtain rfl := hadv.frozen hne
        refine ⟨task', row'', ?_, hphase', hid, hrow'', hne, hdata⟩
        rw [wins_tasks]
        split_ifs with heq
        · rw [heq] at ht'
          cases htask.symm.trans ht'
          rw [hphase] at hphase'
          cases hphase'
        · exact ht'
      once := h.once }

end UpdateWins

/-! ## Publication and forwarding -/

theorem Inv.publish (h : Inv crates s) {t : Nat} {task : DecideTask} {row : McpApproval}
    (htask : s.tasks t = some task) (hphase : task.phase = .answered (.ok true))
    (hid : row.id = task.request.id) (hrow : s.approvals row.id = some row)
    (hne : row.state ≠ .pending) (hfirst : t ∉ s.published.map Prod.fst) :
    Inv crates (s.publish t (decidedEvent row)) := by
  have hext : Extends s (s.publish t (decidedEvent row)) := .of_eq rfl rfl rfl
  exact
    { rows := h.rows
      creators := h.creators
      calls := fun c call hc => (h.calls c call hc).mono hext rfl
      uncalled := h.uncalled
      events := fun c sub hsub data hd => by
        obtain ⟨sub₀, hsub₀, rfl⟩ := Option.map_eq_some_iff.mp hsub
        split_ifs at hd with hlive
        · rcases List.mem_append.mp hd with hd | hd
          · exact (h.events c sub₀ hsub₀ data hd).mono hext
          · rw [List.mem_singleton.mp hd]
            exact (eventOk_decidedEvent hrow hne).mono hext
        · exact (h.events c sub₀ hsub₀ data hd).mono hext
      tasks := fun t task ht => (h.tasks t task ht).mono hext
      undecided := h.undecided
      decided := h.decided
      unique := h.unique
      published := fun e he => by
        rcases List.mem_append.mp he with he | he
        · exact h.published e he
        · rw [List.mem_singleton.mp he]
          exact ⟨task, row, htask, hphase, hid, hrow, hne, rfl⟩
      once := by
        have hmap : (s.publish t (decidedEvent row)).published.map Prod.fst =
            s.published.map Prod.fst ++ [t] := by simp [State.publish]
        rw [hmap]
        exact List.nodup_append.mpr ⟨h.once, by simp, fun a ha b hb => by
          rw [List.mem_singleton.mp hb]
          rintro rfl
          exact hfirst ha⟩ }

theorem sent_append (s : State) (c : Nat) (f : Forward) :
    sent { s with forwards := s.forwards ++ [f] } c = sent s c + if f.call = c then 1 else 0 := by
  simp [sent, List.countP_append, List.countP_singleton]

theorem Inv.send (h : Inv crates s) {c : Nat} {call : Call} (hcall : s.calls c = some call)
    (hstage : call.stage = .forwardReady) :
    Inv crates { s.setCall c (call.goto .forwarding) with
      forwards := s.forwards ++ [⟨c, call.tool.op, call.forwardArgs⟩] } := by
  have hok := h.calls c call hcall
  have hzero := hok.unsent hstage rfl
  have hext : Extends s { s.setCall c (call.goto .forwarding) with
      forwards := s.forwards ++ [⟨c, call.tool.op, call.forwardArgs⟩] } := .of_eq rfl rfl rfl
  have hauth : call.tool.dangerous = true → Authorised crates s c call := by
    simpa [StageOk, hstage] using hok.stage
  have hsent : ∀ c', sent { s.setCall c (call.goto .forwarding) with
      forwards := s.forwards ++ [⟨c, call.tool.op, call.forwardArgs⟩] } c' =
      sent s c' + if c = c' then 1 else 0 :=
    fun c' => sent_append (s.setCall c (call.goto .forwarding)) c' _
  exact
    { rows := h.rows
      creators := h.creators
      calls := fun c' call' hc' => by
        rw [show State.calls _ = (s.setCall c (call.goto .forwarding)).calls from rfl,
          State.setCall_calls] at hc'
        split_ifs at hc' with heq
        · subst heq
          cases hc'
          refine (hok.toLocalsOk.mono hext).goto (fun hd => (hauth hd).mono crates hext) ?_
          show sent _ c' = 1
          rw [hsent, if_pos rfl, hzero]
        · refine (h.calls c' call' hc').mono hext ?_
          rw [hsent, if_neg (fun hc => heq hc.symm), Nat.add_zero]
      uncalled := fun c' hc' => by
        rw [show State.calls _ = (s.setCall c (call.goto .forwarding)).calls from rfl,
          State.setCall_calls] at hc'
        split_ifs at hc' with heq
        rw [hsent, if_neg (fun hc => heq hc.symm), Nat.add_zero]
        exact h.uncalled c' hc'
      events := fun c' sub hsub data hd => (h.events c' sub hsub data hd).mono hext
      tasks := fun t task ht => (h.tasks t task ht).mono hext
      undecided := h.undecided
      decided := h.decided
      unique := h.unique
      published := h.published
      once := h.once }

/-! ## Every step -/

theorem CallOk.start (h : Inv crates s) {c : Nat} (hnew : s.calls c = none) (tool : Tool)
    (args : Value) : CallOk crates s c (Call.start tool args) where
  owned _ hid := by cases hid
  waited _ hw := by cases hw
  stage := by
    unfold StageOk Call.start
    cases hd : tool.dangerous
    · simp
    · simp
  reply _ hr := by cases hr
  sent := by
    unfold SentOk Call.start
    cases tool.dangerous <;> exact h.uncalled c hnew

/-- A row read now is the stored one. -/
theorem read_stored {call : Call} {id : Uuid} {row : McpApproval}
    (hid : call.stage.approvalId = some id)
    (hread : s.read call = some (.approval (some row))) : s.approvals id = some row := by
  unfold State.read at hread
  split at hread
  · cases hread
  · next heq =>
    rw [heq] at hid
    cases hid
    injections
  · next heq =>
    rw [heq] at hid
    cases hid
    injections
  · next heq =>
    rw [heq] at hid
    cases hid
    injections
  · next heq =>
    rw [heq] at hid
    cases hid
    injections
  · cases hread

theorem replyOk_read {c : Nat} {call : Call} {reply : Reply} (hok : CallOk crates s c call)
    (hread : s.read call = some reply) : ReplyOk s c call (.ok reply) where
  refusal _ he := by cases he
  created row hst _ := by simp [State.read, hst] at hread
  current id row hst heq hne := by
    cases heq
    have hid : call.stage.approvalId = some id := by
      rcases hst with h | h | h <;> rw [h] <;> rfl
    exact ⟨hne, row, read_stored hid hread, rfl⟩
  final id row hst heq := by
    cases heq
    have hstored := read_stored (by rw [hst]; rfl) hread
    have hstage := hok.stage
    unfold StageOk at hstage
    rw [hst] at hstage
    obtain ⟨-, state, hne, row', hrow', hstate⟩ := hstage
    cases hstored.symm.trans hrow'
    exact ⟨by rw [hstate]; exact hne, row, hstored, rfl⟩
  expired id t hst _ := by simp [State.read, hst] at hread
  late id t hst _ := by simp [State.read, hst] at hread

theorem replyOk_expireReply (h : Inv crates s) {c t : Nat} {id : Uuid} {call : Call}
    {task : DecideTask} {reply : Except RpcError Bool} (hcall : s.calls c = some call)
    (hstage : call.stage = .expiring id t) (htask : s.tasks t = some task)
    (hphase : task.phase = .answered reply) : ReplyOk s c call (answerWith .decided reply) := by
  have hst := (h.calls c call hcall).stage
  unfold StageOk at hst
  rw [hstage] at hst
  obtain ⟨-, task', htask', hid, hstate, hdecided⟩ := hst
  cases htask.symm.trans htask'
  have hok := h.tasks t task htask
  cases reply with
  | error e => exact .of_error (ofRpc_not_refusal e)
  | ok b =>
    exact
      { refusal := fun _ he => by cases he
        created := fun _ hs _ => by cases hstage.symm.trans hs
        current := fun _ _ hs _ => by
          rcases hs with hs | hs | hs <;> cases hstage.symm.trans hs
        final := fun _ _ hs _ => by cases hstage.symm.trans hs
        expired := fun id' t' hs heq => by
          cases hstage.symm.trans hs
          cases heq
          have hwon := hok.won (hok.answered true hphase)
          rw [hid, hstate] at hwon
          exact hwon
        late := fun id' t' hs _ => by
          cases hstage.symm.trans hs
          exact hdecided b (hok.answered b hphase) }

theorem replyOk_value (c : Nat) (call : Call) (reply : Except RpcError Value) :
    ReplyOk s c call (answerWith .value reply) := by
  cases reply with
  | error e => exact .of_error (ofRpc_not_refusal e)
  | ok v =>
    exact
      { refusal := fun _ he => by cases he
        created := fun _ _ he => by cases he
        current := fun _ _ _ he => by cases he
        final := fun _ _ _ he => by cases he
        expired := fun _ _ _ he => by cases he
        late := fun _ _ _ he => by cases he }

/-- The row a create request inserted answers that request. -/
theorem replyOk_created {c : Nat} {call : Call} {id : Uuid} {summary : String}
    (hstage : call.stage = .createApproval) :
    ReplyOk (s.addApproval (pendingRow id call.tool.name call.args summary) (some c)) c call
      (.ok (.approval (some (pendingRow id call.tool.name call.args summary)))) where
  refusal _ he := by cases he
  created row _ heq := by
    cases heq
    refine ⟨?_, pendingRow id call.tool.name call.args summary, ?_, rfl, rfl⟩
    · rw [State.addApproval_creator, if_pos rfl]
    · rw [State.addApproval_approvals, if_pos rfl]
  current _ _ hs _ := by rcases hs with hs | hs | hs <;> cases hstage.symm.trans hs
  final _ _ hs _ := by cases hstage.symm.trans hs
  expired _ _ hs _ := by cases hstage.symm.trans hs
  late _ _ hs _ := by cases hstage.symm.trans hs

theorem replyOk_subscribed (c : Nat) (call : Call) : ReplyOk s c call (.ok .subscribed) where
  refusal _ he := by cases he
  created _ _ he := by cases he
  current _ _ _ he := by cases he
  final _ _ _ he := by cases he
  expired _ _ _ he := by cases he
  late _ _ _ he := by cases he

theorem not_published_of_running (h : Inv crates s) {t : Nat} {task : DecideTask}
    (htask : s.tasks t = some task) (hphase : ∀ r, task.phase ≠ .answered r) :
    t ∉ s.published.map Prod.fst := by
  intro hmem
  obtain ⟨e, he, rfl⟩ := List.mem_map.mp hmem
  obtain ⟨task', row, htask', hphase', -⟩ := h.published e he
  cases htask.symm.trans htask'
  exact hphase _ hphase'

theorem Inv.startTask (h : Inv crates s) {t : Nat} {request : DecideRequest}
    (hfresh : s.tasks t = none) (hstate : request.state ≠ .pending) :
    Inv crates (s.setTask t (.start request)) :=
  h.setTask (fun old hold => by cases hfresh.symm.trans hold) (fun _ => rfl) (.start hstate)

/-- A task that only moves to its next phase. -/
theorem Inv.nextPhase (h : Inv crates s) {t : Nat} {task : DecideTask} {phase : Phase}
    (htask : s.tasks t = some task) (hrunning : ∀ r, task.phase ≠ .answered r)
    (hok : TaskOk s { task with phase := phase }) :
    Inv crates (s.setTask t { task with phase := phase }) := by
  refine h.setTask (fun old hold => ?_) (fun hnone => ?_) hok
  · cases htask.symm.trans hold
    exact .of_same rfl rfl hrunning
  · cases htask.symm.trans hnone

theorem Inv.lostUpdate (h : Inv crates s) {t : Nat} {task : DecideTask}
    (htask : s.tasks t = some task) (hphase : task.phase = .received)
    (hrow : ∀ row, s.approvals task.request.id = some row → row.state ≠ .pending) :
    Inv crates (s.setTask t { task with phase := .updated false, changed := some false }) := by
  have hok := h.tasks t task htask
  have hnone := hok.fresh hphase
  refine h.setTask (fun old hold => ?_) (fun hn => ?_) ?_
  · cases htask.symm.trans hold
    refine ⟨rfl, fun b hb => ?_, fun r hr => ?_, fun b hb _ => ?_⟩
    · cases hnone.symm.trans hb
    · cases hphase.symm.trans hr
    · cases hb
      exact ⟨rfl, hrow⟩
  · cases htask.symm.trans hn
  · exact
      { terminal := hok.terminal
        fresh := fun hp => by cases hp
        updated := fun b hb => by
          cases hb
          rfl
        fetched := fun _ hp => by cases hp
        answered := fun _ hp => by cases hp
        won := fun hw => by cases hw }

theorem Inv.fetchRow (h : Inv crates s) {t : Nat} {task : DecideTask}
    (htask : s.tasks t = some task) (hphase : task.phase = .updated true) :
    Inv crates (s.setTask t { task with phase := .fetched (s.approvals task.request.id) }) := by
  have hok := h.tasks t task htask
  have hchanged := hok.updated true hphase
  refine h.nextPhase htask (fun r hr => by cases hphase.symm.trans hr) ?_
  exact
    { terminal := hok.terminal
      fresh := fun hp => by cases hp
      updated := fun _ hp => by cases hp
      fetched := fun row hp => by
        cases hp
        refine ⟨hchanged, fun a ha => ?_⟩
        have hid := h.rows _ _ ha
        obtain ⟨hne, row, hrow, hstate⟩ := hok.won hchanged
        cases ha.symm.trans hrow
        exact ⟨hid, by rw [hstate]; exact hne, by rw [hid]; exact ha⟩
      answered := fun _ hp => by cases hp
      won := hok.won }

/-- A phase with which a task ends. -/
theorem TaskOk.ends {task : DecideTask} (hok : TaskOk s task) {reply : Except RpcError Bool}
    (hreply : ∀ b, reply = .ok b → task.changed = some b) :
    TaskOk s { task with phase := .answered reply } where
  terminal := hok.terminal
  fresh hp := by cases hp
  updated _ hp := by cases hp
  fetched _ hp := by cases hp
  answered b hp := by
    cases hp
    exact hreply b rfl
  won := hok.won

theorem Inv.setGates (h : Inv crates s) (gates : List McpGate) :
    Inv crates { s with gates := gates } := by
  have hext : Extends s { s with gates := gates } := .of_eq rfl rfl rfl
  exact
    { rows := h.rows
      creators := h.creators
      calls := fun c call hc => (h.calls c call hc).mono hext rfl
      uncalled := h.uncalled
      events := fun c sub hsub data hd => (h.events c sub hsub data hd).mono hext
      tasks := fun t task ht => (h.tasks t task ht).mono hext
      undecided := h.undecided
      decided := h.decided
      unique := h.unique
      published := h.published
      once := h.once }

theorem Inv.step (h : Inv crates s) {a : Action} (hstep : Step crates s a s') :
    Inv crates s' := by
  cases hstep with
  | callTool hnew _ _ => exact h.setCall (.start h hnew _ _)
  | serve hcall hreply hread =>
    have hok := h.calls _ _ hcall
    exact h.setCall (hok.withReply (replyOk_read hok hread))
  | @createApproval c id call row hcall hstage hfresh hrow =>
    subst hrow
    have hadd : Inv crates (s.addApproval (pendingRow id call.tool.name call.args
        (approvalSummary crates call.tool call.args)) (some c)) := h.addApproval hfresh rfl
    exact hadd.setCall ((hadd.calls c call hcall).withReply (replyOk_created hstage))
  | @subscribe c id call hcall hstage =>
    have hsub : Inv crates (s.setSub c ⟨[], true⟩) := h.setSub (fun _ hd => by cases hd)
    exact hsub.setCall ((hsub.calls c call hcall).withReply (replyOk_subscribed c call))
  | @expireRejected c t id call e hcall hstage =>
    exact h.setCall ((h.calls _ _ hcall).withReply (.of_error (ofRpc_not_refusal e)))
  | @expireArrives c t id call request hcall hstage hfresh hrequest =>
    have hreq := hrequest
    rw [decodeDecide_expireArgs] at hreq
    cases hreq
    have htask := h.startTask hfresh (decodeDecide_state hrequest)
    have hok := htask.calls c call hcall
    refine htask.setCall (hok.goto ⟨hok.approval_eq hstage rfl,
      .start ⟨id, .expired, "mcp:timeout"⟩, ?_, rfl, rfl, ?_⟩ (hok.unsent hstage rfl))
    · rw [State.setTask_tasks, if_pos rfl]
    · intro b hb
      cases hb
  | expireReply hcall hstage htask hphase =>
    exact h.setCall ((h.calls _ _ hcall).withReply
      (replyOk_expireReply h hcall hstage htask hphase))
  | send hcall hstage => exact h.send hcall hstage
  | toolReply hcall hstage =>
    exact h.setCall ((h.calls _ _ hcall).withReply (replyOk_value _ _ _))
  | refuse hcall hstage =>
    exact h.setCall ((h.calls _ _ hcall).withReply (.of_error (ofRpc_not_refusal _)))
  | lose hcall hstage =>
    exact h.setCall ((h.calls _ _ hcall).withReply (.of_error (ipc_not_refusal _)))
  | resume hcall hreply => exact h.setCall ((h.calls _ _ hcall).resume hreply)
  | timeout hcall hstage =>
    have hok := h.calls _ _ hcall
    exact h.setCall (hok.goto (hok.approval_eq hstage rfl) (hok.unsent hstage rfl))
  | @recvEvent c id call sub data rest hcall hsub hstage hevents =>
    have hev := h.events c sub hsub
    rw [hevents] at hev
    have hrest : Inv crates (s.setSub c { sub with events := rest }) :=
      h.setSub (fun d hd => hev d (List.mem_cons_of_mem _ hd))
    refine hrest.setCall ((hrest.calls c call hcall).afterEvent hstage ?_)
    exact hev data List.mem_cons_self id
  | recvNone hcall hstage =>
    have hok := h.calls _ _ hcall
    exact h.setCall (hok.goto (hok.approval_eq hstage rfl) (hok.unsent hstage rfl))
  | decideRejected => exact h
  | decideArrives hfresh hrequest => exact h.startTask hfresh (decodeDecide_state hrequest)
  | updateWins htask hphase hrow hpending => exact h.wins htask hphase hrow hpending
  | updateLoses htask hphase hrow => exact h.lostUpdate htask hphase hrow
  | fetchRow htask hphase => exact h.fetchRow htask hphase
  | @fetchSkipped t task htask hphase =>
    have hok := h.tasks t task htask
    refine h.nextPhase htask (fun r hr => by cases hphase.symm.trans hr) (hok.ends fun b hb => ?_)
    cases hb
    exact hok.updated false hphase
  | @publishRow t task row htask hphase =>
    have hok := h.tasks t task htask
    obtain ⟨hchanged, hrow⟩ := hok.fetched _ hphase
    obtain ⟨hid, hne, hstored⟩ := hrow row rfl
    have hrunning : ∀ r, task.phase ≠ .answered r := fun r hr => by cases hphase.symm.trans hr
    have hends : TaskOk s { task with phase := .answered (.ok true) } :=
      hok.ends fun b hb => by
        cases hb
        exact hchanged
    have hnext := h.nextPhase htask hrunning hends
    have hended : (s.setTask t { task with phase := .answered (.ok true) }).tasks t =
        some { task with phase := .answered (.ok true) } := by
      rw [State.setTask_tasks, if_pos rfl]
    exact Inv.publish hnext hended rfl hid hstored hne (not_published_of_running h htask hrunning)
  | @publishNone t task htask hphase =>
    have hok := h.tasks t task htask
    refine h.nextPhase htask (fun r hr => by cases hphase.symm.trans hr) (hok.ends fun b hb => ?_)
    cases hb
    exact (hok.fetched _ hphase).1
  | @dbFails t message task htask hphase =>
    have hok := h.tasks t task htask
    refine h.nextPhase htask (fun r hr => ?_) (hok.ends fun b hb => by cases hb)
    rcases hphase with hphase | hphase
    · cases hphase.symm.trans hr
    · cases hphase.symm.trans hr
  | @lag c skip missed sub hsub =>
    refine h.setSub (fun d hd => ?_)
    rcases List.mem_append.mp hd with hd | hd
    · exact h.events c sub hsub d (List.mem_of_mem_take hd)
    · rcases List.mem_cons.mp hd with rfl | hd
      · exact eventOk_laggedEvent missed
      · exact h.events c sub hsub d (List.mem_of_mem_drop hd)
  | @dropSubscription c keep sub hsub =>
    exact h.setSub (fun d hd => h.events c sub hsub d (List.mem_of_mem_take hd))
  | otherApproval hfresh => exact h.addApproval hfresh rfl
  | setGates => exact h.setGates _

end Postblox.Mcp.Bridge
