import Postblox.Lib.Program

/-!
# Two runs side by side

`Paired` relates the runs of two programs, each under its own handler: both end
well with related results, or both stop with an error, and the states they reach
are related. The rules take both programs apart at once, or only the first of them.
-/
namespace Postblox.Lib.Fallible

variable {C : Type} {R : C → Type} {α β α' β' σ τ ε ε' ε'' : Type}

/-- Both results are good and related by `Q`, or both are errors. -/
inductive Ends (Q : α → α' → Prop) : Except ε α → Except ε' α' → Prop where
  | ok {a : α} {a' : α'} (h : Q a a') : Ends Q (.ok a) (.ok a')
  | error (e : ε) (e' : ε') : Ends Q (.error e) (.error e')

theorem Ends.isOk_iff {Q : α → α' → Prop} {r : Except ε α} {r' : Except ε' α'} (h : Ends Q r r') :
    (∃ a, r = .ok a) ↔ ∃ a', r' = .ok a' := by
  cases h with
  | ok h => exact ⟨fun _ => ⟨_, rfl⟩, fun _ => ⟨_, rfl⟩⟩
  | error e e' => exact ⟨(fun ⟨_, h⟩ => nomatch h), fun ⟨_, h⟩ => nomatch h⟩

variable (handle : (c : C) → σ → R c × σ) (handle' : (c : C) → τ → R c × τ)

/-- The runs end alike, in related states. -/
def Paired (S : σ → τ → Prop) (Q : α → α' → Prop) (p : Fallible ε C R α) (s : σ)
    (p' : Fallible ε' C R α') (s' : τ) : Prop :=
  Ends Q (exec handle p s).1 (exec handle' p' s').1 ∧
    S (exec handle p s).2 (exec handle' p' s').2

variable {S : σ → τ → Prop} {Q : α → α' → Prop} {T : β → β' → Prop} {s : σ} {s' : τ}

theorem paired_pure {a : α} {a' : α'} (hQ : Q a a') (hS : S s s') :
    Paired handle handle' S Q (pure a : Fallible ε C R α) s (pure a' : Fallible ε' C R α') s' :=
  ⟨.ok hQ, hS⟩

/-- Both programs go on only when their first halves end well. The ends of these
are at hand, for what is known of each run by itself. -/
theorem paired_bind {p : Fallible ε C R α} {f : α → Fallible ε C R β}
    {p' : Fallible ε' C R α'} {f' : α' → Fallible ε' C R β'}
    (h : Paired handle handle' S Q p s p' s')
    (hrest : ∀ a a' t t', exec handle p s = (.ok a, t) → exec handle' p' s' = (.ok a', t') →
      Q a a' → S t t' → Paired handle handle' S T (f a) t (f' a') t') :
    Paired handle handle' S T (p >>= f) s (p' >>= f') s' := by
  unfold Paired at h ⊢
  rw [exec_bind, exec_bind]
  rcases hp : exec handle p s with ⟨r, t⟩
  rcases hp' : exec handle' p' s' with ⟨r', t'⟩
  rw [hp, hp'] at h
  obtain ⟨hends, hstates⟩ := h
  cases hends with
  | ok hQ => exact hrest _ _ t t' hp hp' hQ hstates
  | error e e' => exact ⟨.error e e', hstates⟩

/-- The first program takes a step of its own. -/
theorem paired_left {γ : Type} {p : Fallible ε C R γ} {f : γ → Fallible ε C R α}
    {p' : Fallible ε' C R α'}
    (h : wp handle p s (fun r t => ∃ a, r = .ok a ∧ Paired handle handle' S Q (f a) t p' s')) :
    Paired handle handle' S Q (p >>= f) s p' s' := by
  unfold Paired
  unfold wp at h
  rw [exec_bind]
  rcases hp : exec handle p s with ⟨r, t⟩
  rw [hp] at h
  obtain ⟨a, rfl, hrest⟩ := h
  exact hrest

/-- The first program goes on after the second one has ended. -/
theorem paired_after {γ : Type} {p : Fallible ε C R α} {f : α → Fallible ε C R γ}
    {p' : Fallible ε' C R α'} {T : γ → α' → Prop}
    (h : Paired handle handle' S Q p s p' s')
    (hrest : ∀ a a' t t', Q a a' → S t t' →
      wp handle (f a) t (fun r u => ∃ b, r = .ok b ∧ T b a' ∧ S u t')) :
    Paired handle handle' S T (p >>= f) s p' s' := by
  unfold Paired at h ⊢
  rw [exec_bind]
  rcases hp : exec handle p s with ⟨r, t⟩
  rw [hp] at h
  obtain ⟨hends, hstates⟩ := h
  generalize exec handle' p' s' = done at hends hstates ⊢
  obtain ⟨r', t'⟩ := done
  cases hends with
  | ok hQ =>
    obtain ⟨b, hb, hT, hS⟩ := hrest _ _ t t' hQ hstates
    dsimp only
    rw [hb]
    exact ⟨.ok hT, hS⟩
  | error e e' => exact ⟨.error e e', hstates⟩

theorem exec_mapError (g : ε → ε'') (p : Fallible ε C R α) (s : σ) :
    exec handle (mapError g p) s = ((exec handle p s).1.mapError g, (exec handle p s).2) := by
  unfold mapError
  rw [exec_bind, exec_attempt]
  generalize exec handle p s = done
  obtain ⟨r, t⟩ := done
  cases r with
  | ok a => rfl
  | error e => rfl

theorem paired_mapError {g : ε → ε''} {p : Fallible ε C R α} {p' : Fallible ε' C R α'}
    (h : Paired handle handle' S Q p s p' s') :
    Paired handle handle' S Q (mapError g p) s p' s' := by
  unfold Paired at h ⊢
  rw [exec_mapError]
  generalize exec handle p s = done at h ⊢
  generalize exec handle' p' s' = done' at h ⊢
  obtain ⟨r, t⟩ := done
  obtain ⟨r', t'⟩ := done'
  obtain ⟨hends, hstates⟩ := h
  refine ⟨?_, hstates⟩
  cases hends with
  | ok hQ => exact .ok hQ
  | error e e' => exact .error _ e'

/-- One program under two handlers: when its commands get the same replies in
related states and leave these related, so does the whole run. -/
theorem paired_same {P : C → Prop}
    (hcmd : ∀ c, P c → ∀ s s', S s s' →
      (handle c s).1 = (handle' c s').1 ∧ S (handle c s).2 (handle' c s').2)
    {p : Fallible ε C R α} (hp : Only P p) (hS : S s s') :
    Paired handle handle' S Eq p s p s' := by
  have key : ∀ (q : Program C R (Except ε α)) (s : σ) (s' : τ), q.Only P → S s s' →
      (q.run handle s).1 = (q.run handle' s').1 ∧ S (q.run handle s).2 (q.run handle' s').2 := by
    intro q
    induction q with
    | pure a => exact fun s s' _ hS => ⟨rfl, hS⟩
    | call c k ih =>
      intro s s' hq hS
      obtain ⟨hreply, hstates⟩ := hcmd c hq.1 s s' hS
      have hrest := ih (handle c s).1 _ _ (hq.2 _) hstates
      unfold Program.run
      rwa [← hreply]
  obtain ⟨hresult, hstates⟩ := key p.run s s' hp hS
  refine ⟨?_, hstates⟩
  have hsame : (exec handle p s).1 = (exec handle' p s').1 := hresult
  rw [hsame]
  cases (exec handle' p s').1 with
  | ok a => exact .ok rfl
  | error e => exact .error e e

end Postblox.Lib.Fallible
