import Mathlib

/-!
# Runs of a partial transition function

A machine is a function `step : σ → α → Option σ`; an action that is not enabled
gives `none`. A run executes a list of actions in order. The three rules below
lift a fact about one step to every run: of a state, of a state together with
the actions that led to it, and between the two ends of a run. `Guarded` runs are
those whose steps all meet a condition on the state before the step.
-/
namespace Postblox.Lib.Machine

variable {σ α : Type} (step : σ → α → Option σ)

def run (s : σ) (acts : List α) : Option σ := acts.foldlM step s

@[simp] theorem run_nil (s : σ) : run step s [] = some s := rfl

theorem run_cons (s : σ) (a : α) (acts : List α) :
    run step s (a :: acts) = (step s a).bind (run step · acts) := rfl

theorem run_append (s : σ) (front back : List α) :
    run step s (front ++ back) = (run step s front).bind (run step · back) :=
  List.foldlM_append

theorem run_append_iff {s t : σ} {front back : List α} :
    run step s (front ++ back) = some t ↔
      ∃ m, run step s front = some m ∧ run step m back = some t := by
  rw [run_append, Option.bind_eq_some_iff]

theorem run_snoc_iff {s t : σ} {acts : List α} {a : α} :
    run step s (acts ++ [a]) = some t ↔ ∃ m, run step s acts = some m ∧ step m a = some t := by
  rw [run_append_iff]
  constructor
  · rintro ⟨m, hm, ha⟩
    refine ⟨m, hm, ?_⟩
    rw [run_cons] at ha
    obtain ⟨t', ht', hnil⟩ := Option.bind_eq_some_iff.mp ha
    cases hnil
    exact ht'
  · rintro ⟨m, hm, ha⟩
    exact ⟨m, hm, by rw [run_cons, ha]; rfl⟩

/-- What holds initially and survives every enabled step holds after every run,
with the actions so far in sight. -/
theorem history_invariant {P : List α → σ → Prop} {s₀ : σ} (h₀ : P [] s₀)
    (hstep : ∀ acts s a t, run step s₀ acts = some s → P acts s → step s a = some t →
      P (acts ++ [a]) t) {acts : List α} {s : σ} (h : run step s₀ acts = some s) : P acts s := by
  induction acts using List.reverseRecOn generalizing s with
  | nil =>
    cases h
    exact h₀
  | append_singleton acts a ih =>
    obtain ⟨m, hm, ha⟩ := (run_snoc_iff step).mp h
    exact hstep acts m a s hm (ih hm) ha

theorem invariant {I : σ → Prop} {s₀ : σ} (h₀ : I s₀)
    (hstep : ∀ s a t, I s → step s a = some t → I t) {acts : List α} {s : σ}
    (h : run step s₀ acts = some s) : I s :=
  history_invariant step (P := fun _ s => I s) h₀ (fun _ s a t _ hi ha => hstep s a t hi ha) h

/-- A reflexive and transitive relation that every step keeps relates the ends
of every run. -/
theorem run_rel {R : σ → σ → Prop} (hrefl : ∀ s, R s s)
    (htrans : ∀ s t u, R s t → R t u → R s u) (hstep : ∀ s a t, step s a = some t → R s t)
    {acts : List α} {s t : σ} (h : run step s acts = some t) : R s t :=
  invariant step (I := R s) (hrefl s) (fun m a u hm ha => htrans s m u hm (hstep m a u ha)) h

/-- Some run leads from one state to the other. -/
def Reaches (s t : σ) : Prop := ∃ acts, run step s acts = some t

theorem Reaches.refl (s : σ) : Reaches step s s := ⟨[], rfl⟩

theorem Reaches.head {s t u : σ} {a : α} (hstep : step s a = some t) (h : Reaches step t u) :
    Reaches step s u := by
  obtain ⟨acts, hrun⟩ := h
  exact ⟨a :: acts, by rw [run_cons, hstep]; exact hrun⟩

theorem Reaches.trans {s t u : σ} (hst : Reaches step s t) (htu : Reaches step t u) :
    Reaches step s u := by
  obtain ⟨front, hfront⟩ := hst
  obtain ⟨back, hback⟩ := htu
  exact ⟨front ++ back, (run_append_iff step).mpr ⟨t, hfront, hback⟩⟩

/-- Every step of the run meets `ok` in the state it starts from. -/
def Guarded (ok : σ → α → Prop) : σ → List α → Prop
  | _, [] => True
  | s, a :: acts => ok s a ∧ ∀ t, step s a = some t → Guarded ok t acts

instance Guarded.instDecidable {ok : σ → α → Prop} [∀ s a, Decidable (ok s a)] :
    ∀ (s : σ) (acts : List α), Decidable (Guarded step ok s acts)
  | _, [] => isTrue trivial
  | s, a :: acts =>
    match hstep : step s a with
    | none => decidable_of_iff (ok s a) (by simp [Guarded, hstep])
    | some t =>
      have : Decidable (Guarded step ok t acts) := Guarded.instDecidable t acts
      decidable_of_iff (ok s a ∧ Guarded step ok t acts) (by simp [Guarded, hstep])

theorem Guarded.mono {ok ok' : σ → α → Prop} (hok : ∀ s a, ok s a → ok' s a) {s : σ}
    {acts : List α} (h : Guarded step ok s acts) : Guarded step ok' s acts := by
  induction acts generalizing s with
  | nil => trivial
  | cons a acts ih => exact ⟨hok s a h.1, fun t hstep => ih (h.2 t hstep)⟩

theorem guarded_and {ok ok' : σ → α → Prop} {s : σ} {acts : List α}
    (h : Guarded step ok s acts) (h' : Guarded step ok' s acts) :
    Guarded step (fun s a => ok s a ∧ ok' s a) s acts := by
  induction acts generalizing s with
  | nil => trivial
  | cons a acts ih =>
    exact ⟨⟨h.1, h'.1⟩, fun t hstep => ih (h.2 t hstep) (h'.2 t hstep)⟩

theorem guarded_append {ok : σ → α → Prop} {s m : σ} {front back : List α}
    (h : Guarded step ok s (front ++ back)) (hfront : run step s front = some m) :
    Guarded step ok s front ∧ Guarded step ok m back := by
  induction front generalizing s with
  | nil =>
    cases hfront
    exact ⟨trivial, h⟩
  | cons a front ih =>
    rw [run_cons] at hfront
    obtain ⟨t, hstep, hrest⟩ := Option.bind_eq_some_iff.mp hfront
    obtain ⟨hok, hlater⟩ := h
    obtain ⟨-, hback⟩ := ih (hlater t hstep) hrest
    refine ⟨⟨hok, fun u hu => ?_⟩, hback⟩
    rw [hstep] at hu
    cases hu
    exact (ih (hlater t hstep) hrest).1

/-- What the guarded steps keep holds after every guarded run. -/
theorem guarded_invariant {ok : σ → α → Prop} {I : σ → Prop} {s₀ : σ} (h₀ : I s₀)
    (hstep : ∀ s a t, I s → ok s a → step s a = some t → I t) {acts : List α}
    (hguard : Guarded step ok s₀ acts) {s : σ} (h : run step s₀ acts = some s) : I s := by
  induction acts generalizing s₀ with
  | nil =>
    cases h
    exact h₀
  | cons a acts ih =>
    rw [run_cons] at h
    obtain ⟨t, ha, hrest⟩ := Option.bind_eq_some_iff.mp h
    exact ih (hstep s₀ a t h₀ hguard.1 ha) (hguard.2 t ha) hrest

/-- The same with the actions so far in sight. -/
theorem guarded_history {ok : σ → α → Prop} {P : List α → σ → Prop} {s₀ : σ} (h₀ : P [] s₀)
    (hstep : ∀ acts s a t, run step s₀ acts = some s → P acts s → ok s a → step s a = some t →
      P (acts ++ [a]) t) {acts : List α} (hguard : Guarded step ok s₀ acts) {s : σ}
    (h : run step s₀ acts = some s) : P acts s := by
  refine history_invariant step (P := fun acts s => Guarded step ok s₀ acts → P acts s)
    (fun _ => h₀) (fun acts s a t hrun ih ha hall => ?_) h hguard
  obtain ⟨hfront, hlast⟩ := guarded_append step hall hrun
  exact hstep acts s a t hrun (ih hfront) hlast.1 ha

/-- The other way round: an invariant of the actions at hand under which they all meet `ok`. -/
theorem guarded_of_invariant {ok : σ → α → Prop} {I : σ → Prop} {s : σ} {acts : List α} (h₀ : I s)
    (hok : ∀ s, ∀ a ∈ acts, I s → ok s a)
    (hstep : ∀ s, ∀ a ∈ acts, ∀ t, I s → step s a = some t → I t) : Guarded step ok s acts := by
  induction acts generalizing s with
  | nil => trivial
  | cons a acts ih =>
    refine ⟨hok s a List.mem_cons_self h₀, fun t ha => ?_⟩
    exact ih (hstep s a List.mem_cons_self t h₀ ha)
      (fun u b hb => hok u b (List.mem_cons_of_mem _ hb))
      (fun u b hb => hstep u b (List.mem_cons_of_mem _ hb))

end Postblox.Lib.Machine
