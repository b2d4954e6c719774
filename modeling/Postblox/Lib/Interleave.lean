import Postblox.Lib.Program

/-!
# Programs on one state

Programs take turns on one state, command by command and in any order (`Crew`).
`Under` is what a program brings about by itself, whatever happens to the state
between its commands, as long as every change is one that `rely` allows; in return
each of its commands makes only such changes. Programs of that kind keep their
promises side by side (`Crew.waiting_after`), and with fair turns each of them ends
(`Crew.ends`).
-/
namespace Postblox.Lib

section Under

variable {C : Type} {R : C → Type} {α β σ ε : Type} (handle : (c : C) → σ → R c × σ)
  (ok : C → σ → Prop) (rely : σ → σ → Prop)

/-- Every command that meets `ok` in the state it finds makes a change that `rely`
allows, and the program ends with `Q`. -/
def Program.Under : Program C R α → σ → (α → σ → Prop) → Prop
  | .pure a, s, Q => Q a s
  | .call c k, s, Q => ∀ t, rely s t → ok c t →
      rely t (handle c t).2 ∧ (k (handle c t).1).Under (handle c t).2 Q

theorem Program.under_bind {p : Program C R α} {f : α → Program C R β} {s : σ} {Q : β → σ → Prop}
    (h : p.Under handle ok rely s fun a t => (f a).Under handle ok rely t Q) :
    (p.bind f).Under handle ok rely s Q := by
  induction p generalizing s with
  | pure a => exact h
  | call c k ih =>
    intro t hrely hok
    obtain ⟨hchange, hrest⟩ := h t hrely hok
    exact ⟨hchange, ih _ hrest⟩

theorem Program.under_mono {p : Program C R α} {s : σ} {Q T : α → σ → Prop}
    (h : p.Under handle ok rely s Q) (himp : ∀ a t, Q a t → T a t) :
    p.Under handle ok rely s T := by
  induction p generalizing s with
  | pure a => exact himp a s h
  | call c k ih =>
    intro t hrely hok
    obtain ⟨hchange, hrest⟩ := h t hrely hok
    exact ⟨hchange, ih _ hrest⟩

namespace Fallible

/-- The same for a program that may stop with an error. -/
def under (p : Fallible ε C R α) (s : σ) (Q : Except ε α → σ → Prop) : Prop :=
  Program.Under handle ok rely p.run s Q

variable {handle ok rely}

theorem under_mono {p : Fallible ε C R α} {s : σ} {Q T : Except ε α → σ → Prop}
    (h : under handle ok rely p s Q) (himp : ∀ r t, Q r t → T r t) : under handle ok rely p s T :=
  Program.under_mono handle ok rely h himp

theorem under_bind {p : Fallible ε C R α} {f : α → Fallible ε C R β} {s : σ}
    {Q : Except ε β → σ → Prop}
    (h : under handle ok rely p s fun r t =>
      (∀ a, r = .ok a → under handle ok rely (f a) t Q) ∧ ∀ e, r = .error e → Q (.error e) t) :
    under handle ok rely (p >>= f) s Q := by
  refine Program.under_bind handle ok rely (Program.under_mono handle ok rely h ?_)
  intro r t ⟨hok, herror⟩
  cases r with
  | ok a => exact hok a rfl
  | error e => exact herror e rfl

theorem under_ask_bind {c : C} {f : R c → Fallible ε C R β} {s : σ} {Q : Except ε β → σ → Prop}
    (h : ∀ t, rely s t → ok c t →
      rely t (handle c t).2 ∧ under handle ok rely (f (handle c t).1) (handle c t).2 Q) :
    under handle ok rely (ask c >>= f) s Q := h

theorem under_attempt {ε' : Type} {p : Fallible ε C R α} {s : σ}
    {Q : Except ε' (Except ε α) → σ → Prop}
    (h : under handle ok rely p s fun r t => Q (.ok r) t) :
    under handle ok rely (attempt p : Fallible ε' C R (Except ε α)) s Q :=
  Program.under_bind handle ok rely h

/-- The program goes on after a part that ends well. -/
theorem under_bind_ok {p : Fallible ε C R α} {f : α → Fallible ε C R β} {s : σ}
    {Q : Except ε β → σ → Prop}
    (h : under handle ok rely p s fun r t => ∃ a, r = .ok a ∧ under handle ok rely (f a) t Q) :
    under handle ok rely (p >>= f) s Q := by
  refine under_bind (under_mono h ?_)
  rintro r t ⟨a, rfl, hrest⟩
  refine ⟨?_, fun _ hr => nomatch hr⟩
  intro b hb
  obtain rfl := Except.ok.inj hb
  exact hrest

theorem under_mapError {ε' : Type} {g : ε → ε'} {p : Fallible ε C R α} {s : σ}
    {Q : Except ε' α → σ → Prop}
    (h : under handle ok rely p s fun r t => ∃ a, r = .ok a ∧ Q (.ok a) t) :
    under handle ok rely (mapError g p) s Q := by
  refine under_bind_ok (under_attempt (under_mono h ?_))
  rintro r t ⟨a, rfl, hrest⟩
  exact ⟨.ok a, rfl, hrest⟩

theorem under_mapError_bind {ε' : Type} {g : ε → ε'} {p : Fallible ε C R α}
    {f : α → Fallible ε' C R β} {s : σ} {Q : Except ε' β → σ → Prop}
    (h : under handle ok rely p s fun r t => ∃ a, r = .ok a ∧ under handle ok rely (f a) t Q) :
    under handle ok rely (mapError g p >>= f) s Q := by
  refine under_bind_ok (under_mapError (under_mono h ?_))
  rintro r t ⟨a, rfl, hrest⟩
  exact ⟨a, rfl, a, rfl, hrest⟩

end Fallible

end Under

/-! ## Turns -/

/-- Programs under way, and the state they share. -/
structure Crew (ι : Type) (C : Type) (R : C → Type) (α σ : Type) where
  programs : ι → Program C R α
  state : σ

namespace Crew

variable {ι C : Type} {R : C → Type} {α σ : Type} [DecidableEq ι]
  (handle : ι → (c : C) → σ → R c × σ)

/-- The next command of one of the programs; one that has ended does nothing. -/
def step (i : ι) (d : Crew ι C R α σ) : Crew ι C R α σ :=
  match d.programs i with
  | .pure _ => d
  | .call c k =>
    { programs := Function.update d.programs i (k (handle i c d.state).1)
      state := (handle i c d.state).2 }

/-- The next command of the program, if any, meets `ok`. -/
def Meets (ok : C → σ → Prop) (i : ι) (d : Crew ι C R α σ) : Prop :=
  match d.programs i with
  | .pure _ => True
  | .call c _ => ok c d.state

instance (ok : C → σ → Prop) [∀ c s, Decidable (ok c s)] (i : ι) (d : Crew ι C R α σ) :
    Decidable (Meets ok i d) :=
  match hprogram : d.programs i with
  | .pure _ => isTrue (by simp only [Meets, hprogram])
  | .call c _ => decidable_of_iff (ok c d.state) (by simp only [Meets, hprogram])

/-- The programs after the first `n` turns. -/
def after (turns : Nat → ι) (d : Crew ι C R α σ) : Nat → Crew ι C R α σ
  | 0 => d
  | n + 1 => (after turns d n).step handle (turns n)

/-- What a program returned, once it has. -/
def result (d : Crew ι C R α σ) (i : ι) : Option α :=
  match d.programs i with
  | .pure a => some a
  | .call _ _ => none

omit [DecidableEq ι] in
theorem meets_of_result {ok : C → σ → Prop} {i : ι} {d : Crew ι C R α σ} {a : α}
    (h : d.result i = some a) : Meets ok i d := by
  unfold result at h
  unfold Meets
  split at h
  · trivial
  · cases h

section Rely

variable (ok : C → σ → Prop) (rely : σ → σ → Prop)

/-- The program is ready to go on: all that happened since its last command is allowed. -/
def Waiting (i : ι) (Q : α → σ → Prop) (d : Crew ι C R α σ) : Prop :=
  ∃ s, rely s d.state ∧ (d.programs i).Under (handle i) ok rely s Q

variable {handle ok rely} {Q : ι → α → σ → Prop} {d : Crew ι C R α σ}

/-- One turn keeps every program ready and makes an allowed change. -/
theorem waiting_step (hrefl : ∀ s, rely s s) (htrans : ∀ s t u, rely s t → rely t u → rely s u)
    (hwait : ∀ i, Waiting handle ok rely i (Q i) d) {i : ι} (hmeets : Meets ok i d) :
    rely d.state (d.step handle i).state ∧
      ∀ j, Waiting handle ok rely j (Q j) (d.step handle i) := by
  obtain ⟨s, hs, hunder⟩ := hwait i
  unfold Meets at hmeets
  unfold step
  cases hprogram : d.programs i with
  | pure a => exact ⟨hrefl _, hwait⟩
  | call c k =>
    rw [hprogram] at hunder hmeets
    obtain ⟨hchange, hrest⟩ := hunder d.state hs hmeets
    refine ⟨hchange, fun j => ?_⟩
    by_cases hj : j = i
    · subst hj
      refine ⟨(handle j c d.state).2, hrefl _, ?_⟩
      show (Function.update d.programs j (k (handle j c d.state).1) j).Under _ _ _ _ _
      rw [Function.update_self]
      exact hrest
    · obtain ⟨s', hs', hunder'⟩ := hwait j
      refine ⟨s', htrans _ _ _ hs' hchange, ?_⟩
      show (Function.update d.programs i (k (handle i c d.state).1) j).Under _ _ _ _ _
      rw [Function.update_of_ne hj]
      exact hunder'

variable {turns : Nat → ι}

/-- All programs stay ready in every order of turns. -/
theorem waiting_after (hrefl : ∀ s, rely s s) (htrans : ∀ s t u, rely s t → rely t u → rely s u)
    (hunder : ∀ i, (d.programs i).Under (handle i) ok rely d.state (Q i))
    (hmeets : ∀ n, Meets ok (turns n) (d.after handle turns n)) (n : Nat) :
    ∀ i, Waiting handle ok rely i (Q i) (d.after handle turns n) := by
  induction n with
  | zero => exact fun i => ⟨d.state, hrefl _, hunder i⟩
  | succ n ih => exact (waiting_step hrefl htrans ih (hmeets n)).2

/-- The state changes only as allowed. -/
theorem rely_after (hrefl : ∀ s, rely s s) (htrans : ∀ s t u, rely s t → rely t u → rely s u)
    (hunder : ∀ i, (d.programs i).Under (handle i) ok rely d.state (Q i))
    (hmeets : ∀ n, Meets ok (turns n) (d.after handle turns n)) (n k : Nat) :
    rely (d.after handle turns n).state (d.after handle turns (n + k)).state := by
  induction k with
  | zero => exact hrefl _
  | succ k ih =>
    refine htrans _ _ _ ih ?_
    exact (waiting_step hrefl htrans (waiting_after hrefl htrans hunder hmeets (n + k))
      (hmeets (n + k))).1

omit [DecidableEq ι] in
/-- A program that has ended did so as promised. -/
theorem Waiting.of_result {i : ι} {P : α → σ → Prop} (h : Waiting handle ok rely i P d) {a : α}
    (hresult : d.result i = some a) : ∃ s, rely s d.state ∧ P a s := by
  obtain ⟨s, hs, hunder⟩ := h
  unfold result at hresult
  split at hresult
  · next b hprogram =>
    obtain rfl := Option.some.inj hresult
    rw [hprogram] at hunder
    exact ⟨s, hs, hunder⟩
  · cases hresult

end Rely

/-! ## Fair turns -/

section Fair

variable {handle} {d : Crew ι C R α σ} {turns : Nat → ι}

theorem programs_step_of_ne {i j : ι} (h : j ≠ i) : (d.step handle i).programs j = d.programs j := by
  unfold step
  split
  · rfl
  · exact Function.update_of_ne h _ _

/-- A program waits for its turn. -/
theorem programs_after_of_ne {i : ι} {n k : Nat} (h : ∀ m, n ≤ m → m < n + k → turns m ≠ i) :
    (d.after handle turns (n + k)).programs i = (d.after handle turns n).programs i := by
  induction k with
  | zero => rfl
  | succ k ih =>
    have hlast : turns (n + k) ≠ i := h (n + k) (by omega) (by omega)
    refine (programs_step_of_ne hlast.symm).trans (ih ?_)
    intro m hle hlt
    exact h m hle (by omega)

/-- What has ended stays so. -/
theorem result_after {i : ι} {n : Nat} {a : α} (h : (d.after handle turns n).result i = some a)
    (k : Nat) : (d.after handle turns (n + k)).result i = some a := by
  induction k with
  | zero => exact h
  | succ k ih =>
    by_cases hi : turns (n + k) = i
    · have hsame : (d.after handle turns (n + k)).step handle (turns (n + k)) =
          d.after handle turns (n + k) := by
        unfold step
        rw [hi]
        unfold result at ih
        split at ih
        · rfl
        · cases ih
      show ((d.after handle turns (n + k)).step handle (turns (n + k))).result i = some a
      rw [hsame]
      exact ih
    · unfold result at ih ⊢
      have hother : (d.after handle turns (n + (k + 1))).programs i =
          (d.after handle turns (n + k)).programs i := programs_step_of_ne (Ne.symm hi)
      rw [hother]
      exact ih

/-- A program whose turn comes again and again ends, by induction on the program. -/
theorem ends {i : ι} (hfair : ∀ n, ∃ m, n ≤ m ∧ turns m = i) (p : Program C R α) (n : Nat)
    (hp : (d.after handle turns n).programs i = p) :
    ∃ m a, n ≤ m ∧ (d.after handle turns m).result i = some a := by
  induction p generalizing n with
  | pure a =>
    refine ⟨n, a, Nat.le_refl n, ?_⟩
    unfold result
    rw [hp]
  | call c k ih =>
    obtain ⟨m, hturn, hfirst⟩ : ∃ m, (n ≤ m ∧ turns m = i) ∧ ∀ j, n ≤ j → j < m → turns j ≠ i := by
      classical
      refine ⟨Nat.find (hfair n), Nat.find_spec (hfair n), fun j hle hlt heq => ?_⟩
      exact Nat.find_min (hfair n) hlt ⟨hle, heq⟩
    obtain ⟨hle, hturn⟩ := hturn
    have hsame : (d.after handle turns m).programs i = .call c k := by
      have hwaits : (d.after handle turns (n + (m - n))).programs i =
          (d.after handle turns n).programs i :=
        programs_after_of_ne fun j hj hlt => hfirst j hj (by omega)
      rw [Nat.add_sub_cancel' hle] at hwaits
      rw [hwaits, hp]
    have hstep : (d.after handle turns (m + 1)).programs i =
        k (handle i c (d.after handle turns m).state).1 := by
      show ((d.after handle turns m).step handle (turns m)).programs i = _
      unfold step
      rw [hturn, hsame]
      exact Function.update_self _ _ _
    obtain ⟨m', a, hle', hresult⟩ := ih _ (m + 1) hstep
    exact ⟨m', a, by omega, hresult⟩

end Fair

end Crew

end Postblox.Lib
