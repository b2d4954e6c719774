import Mathlib

/-!
# Programs over commands

A program issues commands and goes on with their replies; what a command does is
left to a handler. `exec` runs a program that may stop with an error: the state
reached is kept in either case, so effects before the error stay. `wp` says that
a run ends in a given way; its rules take a program apart command by command.
`Only` bounds the commands a program can issue, and `exec_rel` lifts what those
commands keep to the whole run. `Along` is a condition on the commands that one run
does issue, each in the state it meets, and `wpAlong` is `wp` for such runs.
-/
namespace Postblox.Lib

theorem bind_eq_ok {ε α β : Type} {x : Except ε α} {f : α → Except ε β} {b : β} :
    (x >>= f) = .ok b ↔ ∃ a, x = .ok a ∧ f a = .ok b := by
  cases x with
  | error e =>
    constructor
    · intro h
      cases h
    · rintro ⟨a, ha, -⟩
      cases ha
  | ok a =>
    constructor
    · exact fun h => ⟨a, rfl, h⟩
    · rintro ⟨a', ha, h⟩
      cases ha
      exact h

theorem map_eq_ok {ε α β : Type} {x : Except ε α} {f : α → β} {b : β} :
    x.map f = .ok b ↔ ∃ a, x = .ok a ∧ f a = b := by
  cases x with
  | error e => simp [Except.map]
  | ok a => simp [Except.map]

theorem mapError_eq_ok {ε ε' α : Type} {f : ε → ε'} {x : Except ε α} {a : α} :
    x.mapError f = .ok a ↔ x = .ok a := by
  cases x with
  | error e => simp [Except.mapError]
  | ok b => simp [Except.mapError]

inductive Program (C : Type) (R : C → Type) (α : Type) : Type where
  | pure (a : α)
  | call (c : C) (k : R c → Program C R α)

namespace Program

variable {C : Type} {R : C → Type} {α β σ ε : Type}

def bind : Program C R α → (α → Program C R β) → Program C R β
  | .pure a, f => f a
  | .call c k, f => .call c (fun r => (k r).bind f)

instance : Monad (Program C R) where
  pure := .pure
  bind := bind

def perform (c : C) : Program C R (R c) := .call c .pure

/-- Every command the program can issue satisfies `P`. -/
def Only (P : C → Prop) : Program C R α → Prop
  | .pure _ => True
  | .call c k => P c ∧ ∀ r, (k r).Only P

theorem Only.bind {P : C → Prop} {p : Program C R α} {f : α → Program C R β} (hp : p.Only P)
    (hf : ∀ a, (f a).Only P) : (p.bind f).Only P := by
  induction p with
  | pure a => exact hf a
  | call c k ih => exact ⟨hp.1, fun r => ih r (hp.2 r)⟩

def run (handle : (c : C) → σ → R c × σ) : Program C R α → σ → α × σ
  | .pure a, s => (a, s)
  | .call c k, s => (k (handle c s).1).run handle (handle c s).2

/-- Every command that the run from `s` issues meets `ok` in the state it finds. -/
def Along (handle : (c : C) → σ → R c × σ) (ok : C → σ → Prop) : Program C R α → σ → Prop
  | .pure _, _ => True
  | .call c k, s => ok c s ∧ (k (handle c s).1).Along handle ok (handle c s).2

instance instDecidableAlong {handle : (c : C) → σ → R c × σ} {ok : C → σ → Prop} [∀ c s, Decidable (ok c s)] :
    (p : Program C R α) → (s : σ) → Decidable (p.Along handle ok s)
  | .pure _, _ => .isTrue True.intro
  | .call c k, s =>
    @instDecidableAnd _ _ inferInstance (instDecidableAlong (k (handle c s).1) (handle c s).2)

theorem along_bind {handle : (c : C) → σ → R c × σ} {ok : C → σ → Prop} {p : Program C R α}
    {f : α → Program C R β} {s : σ} (h : (p.bind f).Along handle ok s) :
    p.Along handle ok s ∧ (f (p.run handle s).1).Along handle ok (p.run handle s).2 := by
  induction p generalizing s with
  | pure a => exact ⟨True.intro, h⟩
  | call c k ih =>
    obtain ⟨hfirst, hrest⟩ := ih (handle c s).1 h.2
    exact ⟨⟨h.1, hfirst⟩, hrest⟩

theorem run_bind (handle : (c : C) → σ → R c × σ) (p : Program C R α) (f : α → Program C R β)
    (s : σ) : (p >>= f).run handle s = (f (p.run handle s).1).run handle (p.run handle s).2 := by
  induction p generalizing s with
  | pure a => rfl
  | call c k ih => exact ih (handle c s).1 (handle c s).2

end Program

/-- A program that may stop with an error. -/
abbrev Fallible (ε : Type) (C : Type) (R : C → Type) := ExceptT ε (Program C R)

namespace Fallible

variable {C : Type} {R : C → Type} {α β σ ε : Type} (handle : (c : C) → σ → R c × σ)

def ask (c : C) : Fallible ε C R (R c) := ExceptT.lift (Program.perform c)

/-- Run a program to its end and go on with how it ended. -/
def attempt {ε' : Type} (p : Fallible ε C R α) : Fallible ε' C R (Except ε α) := ExceptT.lift p.run

/-- Rename the errors of a program. -/
def mapError {ε' : Type} (f : ε → ε') (p : Fallible ε C R α) : Fallible ε' C R α :=
  attempt p >>= fun r =>
    match r with
    | .ok a => pure a
    | .error e => throw (f e)

def exec (p : Fallible ε C R α) (s : σ) : Except ε α × σ := Program.run handle p.run s

@[simp] theorem exec_pure (a : α) (s : σ) :
    exec handle (pure a : Fallible ε C R α) s = (.ok a, s) := rfl

@[simp] theorem exec_throw (e : ε) (s : σ) :
    exec handle (throw e : Fallible ε C R α) s = (.error e, s) := rfl

@[simp] theorem exec_ask (c : C) (s : σ) :
    exec handle (ask c : Fallible ε C R (R c)) s = (.ok (handle c s).1, (handle c s).2) := rfl

theorem exec_bind (p : Fallible ε C R α) (f : α → Fallible ε C R β) (s : σ) :
    exec handle (p >>= f) s =
      match exec handle p s with
      | (.ok a, t) => exec handle (f a) t
      | (.error e, t) => (.error e, t) := by
  have h : exec handle (p >>= f) s =
      Program.run handle (Program.bind p.run (ExceptT.bindCont f)) s := rfl
  rw [h]
  refine (Program.run_bind handle p.run (ExceptT.bindCont f) s).trans ?_
  unfold exec
  obtain ⟨r, t⟩ := Program.run handle p.run s
  cases r <;> rfl

/-- A program that ended well did so in both halves. -/
theorem exec_bind_ok {p : Fallible ε C R α} {f : α → Fallible ε C R β} {s u : σ} {b : β}
    (h : exec handle (p >>= f) s = (.ok b, u)) :
    ∃ a t, exec handle p s = (.ok a, t) ∧ exec handle (f a) t = (.ok b, u) := by
  rw [exec_bind] at h
  generalize exec handle p s = done at h ⊢
  obtain ⟨r, t⟩ := done
  cases r with
  | ok a => exact ⟨a, t, rfl, h⟩
  | error e => cases h

@[simp] theorem exec_attempt {ε' : Type} (p : Fallible ε C R α) (s : σ) :
    exec handle (attempt p : Fallible ε' C R (Except ε α)) s =
      (.ok (exec handle p s).1, (exec handle p s).2) :=
  Program.run_bind handle p.run (fun a => (pure (Except.ok a) : Program C R (Except ε' _))) s

/-- The run of `p` from `s` ends with a result and a state that satisfy `Q`. -/
def wp (p : Fallible ε C R α) (s : σ) (Q : Except ε α → σ → Prop) : Prop :=
  Q (exec handle p s).1 (exec handle p s).2

theorem wp_mono {p : Fallible ε C R α} {s : σ} {Q Q' : Except ε α → σ → Prop}
    (h : wp handle p s Q) (himp : ∀ r t, Q r t → Q' r t) : wp handle p s Q' :=
  himp _ _ h

/-- What holds of every run from `s` may be used after the run. -/
theorem wp_and {p : Fallible ε C R α} {s : σ} {Q T : Except ε α → σ → Prop}
    (h : wp handle p s Q) (h' : wp handle p s T) : wp handle p s (fun r t => Q r t ∧ T r t) :=
  ⟨h, h'⟩

@[simp] theorem wp_pure (a : α) (s : σ) (Q : Except ε α → σ → Prop) :
    wp handle (pure a : Fallible ε C R α) s Q ↔ Q (.ok a) s := Iff.rfl

@[simp] theorem wp_throw (e : ε) (s : σ) (Q : Except ε α → σ → Prop) :
    wp handle (throw e : Fallible ε C R α) s Q ↔ Q (.error e) s := Iff.rfl

@[simp] theorem wp_ask (c : C) (s : σ) (Q : Except ε (R c) → σ → Prop) :
    wp handle (ask c : Fallible ε C R (R c)) s Q ↔ Q (.ok (handle c s).1) (handle c s).2 := Iff.rfl

/-- A program that goes on only when its first half ends well. -/
theorem wp_bind {p : Fallible ε C R α} {f : α → Fallible ε C R β} {s : σ}
    {Q : Except ε β → σ → Prop}
    (h : wp handle p s (fun r t =>
      (∀ a, r = .ok a → wp handle (f a) t Q) ∧ ∀ e, r = .error e → Q (.error e) t)) :
    wp handle (p >>= f) s Q := by
  unfold wp at h ⊢
  rw [exec_bind]
  rcases hp : exec handle p s with ⟨r, t⟩
  rw [hp] at h
  cases r with
  | error e => exact h.2 e rfl
  | ok a => exact h.1 a rfl

theorem wp_ask_bind {c : C} {f : R c → Fallible ε C R β} {s : σ} {Q : Except ε β → σ → Prop}
    (h : wp handle (f (handle c s).1) (handle c s).2 Q) : wp handle (ask c >>= f) s Q := by
  unfold wp at h ⊢
  rw [exec_bind, exec_ask]
  exact h

theorem wp_attempt {ε' : Type} {p : Fallible ε C R α} {s : σ}
    {Q : Except ε' (Except ε α) → σ → Prop} (h : wp handle p s (fun r t => Q (.ok r) t)) :
    wp handle (attempt p : Fallible ε' C R (Except ε α)) s Q := by
  unfold wp at h ⊢
  rw [exec_attempt]
  exact h

theorem wp_mapError {ε' : Type} {g : ε → ε'} {p : Fallible ε C R α} {s : σ}
    {Q : Except ε' α → σ → Prop} (h : wp handle p s (fun r t => Q (r.mapError g) t)) :
    wp handle (mapError g p) s Q := by
  refine wp_bind handle (wp_attempt handle (wp_mono handle h ?_))
  intro r t hQ
  refine ⟨?_, fun _ hr => nomatch hr⟩
  intro r' hr
  obtain rfl : r = r' := Except.ok.inj hr
  cases r with
  | ok a => exact hQ
  | error e => exact hQ

/-- A program goes on with a renamed one. -/
theorem wp_mapError_bind {ε' : Type} {g : ε → ε'} {p : Fallible ε C R α}
    {f : α → Fallible ε' C R β} {s : σ} {Q : Except ε' β → σ → Prop}
    (h : wp handle p s (fun r t =>
      (∀ a, r = .ok a → wp handle (f a) t Q) ∧ ∀ e, r = .error e → Q (.error (g e)) t)) :
    wp handle (mapError g p >>= f) s Q := by
  refine wp_bind handle (wp_mapError handle (wp_mono handle h ?_))
  intro r t ⟨hok, herror⟩
  cases r with
  | ok a =>
    refine ⟨fun a' ha => ?_, fun _ hr => nomatch hr⟩
    rw [← Except.ok.inj ha]
    exact hok a rfl
  | error e =>
    refine ⟨(fun _ hr => nomatch hr), fun e' he => ?_⟩
    rw [← Except.error.inj he]
    exact herror e rfl

/-- Every command the program can issue satisfies `P`. -/
def Only (P : C → Prop) (p : Fallible ε C R α) : Prop := Program.Only P p.run

section Only

variable {P : C → Prop}

theorem only_pure (a : α) : Only P (pure a : Fallible ε C R α) := True.intro

theorem only_throw (e : ε) : Only P (throw e : Fallible ε C R α) := True.intro

theorem only_ask {c : C} (h : P c) : Only P (ask c : Fallible ε C R (R c)) :=
  ⟨h, fun _ => True.intro⟩

theorem only_bind {p : Fallible ε C R α} {f : α → Fallible ε C R β} (hp : Only P p)
    (hf : ∀ a, Only P (f a)) : Only P (p >>= f) := by
  refine Program.Only.bind hp fun r => ?_
  cases r with
  | ok a => exact hf a
  | error e => exact True.intro

theorem only_attempt {ε' : Type} {p : Fallible ε C R α} (hp : Only P p) :
    Only P (attempt p : Fallible ε' C R (Except ε α)) :=
  Program.Only.bind hp fun _ => True.intro

end Only

/-- A reflexive and transitive relation that the commands of a program keep
relates the state before the program to the state after it, error or not. -/
theorem exec_rel {P : C → Prop} {Q : σ → σ → Prop} (hrefl : ∀ s, Q s s)
    (htrans : ∀ s t u, Q s t → Q t u → Q s u) (hcmd : ∀ c, P c → ∀ s, Q s (handle c s).2)
    {p : Fallible ε C R α} (hp : Only P p) (s : σ) : Q s (exec handle p s).2 := by
  have key : ∀ (q : Program C R (Except ε α)) (s : σ), q.Only P → Q s (q.run handle s).2 := by
    intro q
    induction q with
    | pure a => exact fun s _ => hrefl s
    | call c k ih => exact fun s hq => htrans _ _ _ (hcmd c hq.1 s) (ih _ _ (hq.2 _))
  exact key p.run s hp

/-! ### Runs whose commands meet a condition -/

section Along

variable (ok : C → σ → Prop)

def Along (p : Fallible ε C R α) (s : σ) : Prop := Program.Along handle ok p.run s

instance {p : Fallible ε C R α} {s : σ} [∀ c s, Decidable (ok c s)] :
    Decidable (Along handle ok p s) :=
  inferInstanceAs (Decidable (Program.Along handle ok p.run s))

/-- If the run meets the condition, it ends as `Q` says. -/
def wpAlong (p : Fallible ε C R α) (s : σ) (Q : Except ε α → σ → Prop) : Prop :=
  Along handle ok p s → wp handle p s Q

variable {ok}

theorem wpAlong_of_wp {p : Fallible ε C R α} {s : σ} {Q : Except ε α → σ → Prop}
    (h : wp handle p s Q) : wpAlong handle ok p s Q := fun _ => h

theorem wpAlong_mono {p : Fallible ε C R α} {s : σ} {Q Q' : Except ε α → σ → Prop}
    (h : wpAlong handle ok p s Q) (himp : ∀ r t, Q r t → Q' r t) : wpAlong handle ok p s Q' :=
  fun halong => wp_mono handle (h halong) himp

theorem wpAlong_bind {p : Fallible ε C R α} {f : α → Fallible ε C R β} {s : σ}
    {Q : Except ε β → σ → Prop}
    (h : wpAlong handle ok p s (fun r t =>
      (∀ a, r = .ok a → wpAlong handle ok (f a) t Q) ∧ ∀ e, r = .error e → Q (.error e) t)) :
    wpAlong handle ok (p >>= f) s Q := by
  intro halong
  obtain ⟨hfirst, hrest⟩ := Program.along_bind halong
  have hafter : Program.Along handle ok (ExceptT.bindCont f (exec handle p s).1)
    (exec handle p s).2 := hrest
  obtain ⟨hok, herror⟩ := h hfirst
  refine wp_bind handle ⟨fun a ha => hok a ha ?_, herror⟩
  rw [ha] at hafter
  exact hafter

theorem wpAlong_ask_bind {c : C} {f : R c → Fallible ε C R β} {s : σ}
    {Q : Except ε β → σ → Prop}
    (h : ok c s → wpAlong handle ok (f (handle c s).1) (handle c s).2 Q) :
    wpAlong handle ok (ask c >>= f) s Q := by
  intro halong
  exact wp_ask_bind handle (h halong.1 halong.2)

theorem wpAlong_attempt {ε' : Type} {p : Fallible ε C R α} {s : σ}
    {Q : Except ε' (Except ε α) → σ → Prop} (h : wpAlong handle ok p s (fun r t => Q (.ok r) t)) :
    wpAlong handle ok (attempt p : Fallible ε' C R (Except ε α)) s Q :=
  fun halong => wp_attempt handle (h (Program.along_bind halong).1)

theorem wpAlong_mapError {ε' : Type} {g : ε → ε'} {p : Fallible ε C R α} {s : σ}
    {Q : Except ε' α → σ → Prop} (h : wpAlong handle ok p s (fun r t => Q (r.mapError g) t)) :
    wpAlong handle ok (mapError g p) s Q := by
  refine wpAlong_bind handle (wpAlong_attempt handle (wpAlong_mono handle h ?_))
  intro r t hQ
  refine ⟨?_, fun _ hr => nomatch hr⟩
  intro r' hr
  obtain rfl : r = r' := Except.ok.inj hr
  cases r with
  | ok a => exact wpAlong_of_wp handle hQ
  | error e => exact wpAlong_of_wp handle hQ

end Along

end Fallible

end Postblox.Lib
