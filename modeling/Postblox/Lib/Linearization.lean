import Mathlib

/-!
# Linearizability

A history of calls, returns and failures, an object that takes one call at a time, and a
log of the calls in the order in which they take effect. The log is a linearization of the
history when it has every call that has returned, with the result the object gives, no call
that has failed, and keeps the order of calls that do not overlap. The rules say how the
two may grow.
-/
namespace Postblox.Lib

variable {ι ω ρ σ : Type}

inductive HistoryEvent (ι ω ρ : Type) where
  | call (id : ι) (op : ω)
  | ret (id : ι) (res : ρ)
  | abort (id : ι)
  deriving DecidableEq

def HistoryEvent.id : HistoryEvent ι ω ρ → ι
  | .call id _ | .ret id _ | .abort id => id

structure LogEntry (ι ω ρ : Type) where
  id : ι
  op : ω
  res : ρ

/-- The call `a` has returned before `b` was made. -/
def Precedes (history : List (HistoryEvent ι ω ρ)) (a b : ι) : Prop :=
  ∃ (i j : Nat) (res : ρ) (op : ω), i < j ∧ history[i]? = some (.ret a res) ∧
    history[j]? = some (.call b op)

variable (object : σ → ω → σ × ρ)

/-- The state of the object after the calls of the log. -/
def replay (s : σ) (log : List (LogEntry ι ω ρ)) : σ := log.foldl (fun s e => (object s e.op).1) s

/-- Every result is the one the object gives. -/
def Legal : σ → List (LogEntry ι ω ρ) → Prop
  | _, [] => True
  | s, e :: log => e.res = (object s e.op).2 ∧ Legal (object s e.op).1 log

theorem replay_snoc (s : σ) (log : List (LogEntry ι ω ρ)) (e : LogEntry ι ω ρ) :
    replay object s (log ++ [e]) = (object (replay object s log) e.op).1 := by
  simp [replay]

theorem legal_snoc {s : σ} {log : List (LogEntry ι ω ρ)} {e : LogEntry ι ω ρ}
    (h : Legal object s log) (he : e.res = (object (replay object s log) e.op).2) :
    Legal object s (log ++ [e]) := by
  induction log generalizing s with
  | nil => exact ⟨he, trivial⟩
  | cons d log ih => exact ⟨h.1, ih h.2 he⟩

structure Linearization (init : σ) (history : List (HistoryEvent ι ω ρ))
    (log : List (LogEntry ι ω ρ)) : Prop where
  once : (log.map LogEntry.id).Nodup
  called : ∀ e ∈ log, .call e.id e.op ∈ history
  complete : ∀ id res, .ret id res ∈ history → ∃ op, ⟨id, op, res⟩ ∈ log
  aborted : ∀ id, .abort id ∈ history → ∀ e ∈ log, e.id ≠ id
  legal : Legal object init log
  order : log.Pairwise fun x y => ¬ Precedes history y.id x.id

/-- A new event at the end makes a call precede another only if it is that other call. -/
theorem precedes_snoc {history : List (HistoryEvent ι ω ρ)} {e : HistoryEvent ι ω ρ} {a b : ι}
    (h : Precedes (history ++ [e]) a b) : Precedes history a b ∨ ∃ op, e = .call b op := by
  obtain ⟨i, j, res, op, hlt, hret, hcall⟩ := h
  by_cases hj : j < history.length
  · left
    rw [List.getElem?_append_left (by omega)] at hret
    rw [List.getElem?_append_left hj] at hcall
    exact ⟨i, j, res, op, hlt, hret, hcall⟩
  · right
    rw [List.getElem?_append_right (Nat.le_of_not_lt hj), List.getElem?_singleton] at hcall
    split_ifs at hcall
    cases hcall
    exact ⟨op, rfl⟩

namespace Linearization

variable {object} {init : σ} {history : List (HistoryEvent ι ω ρ)} {log : List (LogEntry ι ω ρ)}

/-- The empty history. -/
theorem nil : Linearization (ι := ι) object init [] [] :=
  ⟨List.nodup_nil, fun _ h => (nomatch h), fun _ _ h => (nomatch h), fun _ h => (nomatch h), trivial,
    List.Pairwise.nil⟩

/-- One more event, which the log has to allow. -/
theorem snoc (h : Linearization object init history log) {event : HistoryEvent ι ω ρ}
    (hcall : ∀ id op, event = .call id op → ∀ op', .call id op' ∉ history)
    (hret : ∀ id res, event = .ret id res → ∃ op, ⟨id, op, res⟩ ∈ log)
    (habort : ∀ id, event = .abort id → ∀ e ∈ log, e.id ≠ id) :
    Linearization object init (history ++ [event]) log where
  once := h.once
  called := fun e he => List.mem_append_left _ (h.called e he)
  complete := by
    intro id res hmem
    rcases List.mem_append.mp hmem with hmem | hmem
    · exact h.complete id res hmem
    · exact hret id res (List.mem_singleton.mp hmem).symm
  aborted := by
    intro id hmem
    rcases List.mem_append.mp hmem with hmem | hmem
    · exact h.aborted id hmem
    · exact habort id (List.mem_singleton.mp hmem).symm
  legal := h.legal
  order := by
    refine h.order.imp_of_mem fun {x y} hx hy hxy hprec => ?_
    rcases precedes_snoc hprec with hprec | ⟨op, heq⟩
    · exact hxy hprec
    · exact hcall x.id op heq x.op (h.called x hx)

/-- A call that was not made before. -/
theorem call (h : Linearization object init history log) {id : ι} (op : ω)
    (hfresh : ∀ op, .call id op ∉ history) :
    Linearization object init (history ++ [.call id op]) log := by
  refine h.snoc (fun id' op' heq => ?_) (fun _ _ heq => (nomatch heq)) (fun _ heq => (nomatch heq))
  cases heq
  exact hfresh

/-- A call takes effect while it is open. -/
theorem effect (h : Linearization object init history log) {id : ι} {op : ω}
    (hcall : .call id op ∈ history) (hopen : ∀ res, .ret id res ∉ history)
    (hlive : .abort id ∉ history) (hnew : ∀ e ∈ log, e.id ≠ id) :
    Linearization object init history (log ++ [⟨id, op, (object (replay object init log) op).2⟩]) where
  once := by
    rw [List.map_append, List.map_singleton, List.nodup_append]
    refine ⟨h.once, List.nodup_singleton _, fun a ha b hb => ?_⟩
    obtain ⟨e, he, rfl⟩ := List.mem_map.mp ha
    rw [List.mem_singleton.mp hb]
    exact hnew e he
  called := by
    intro e he
    rcases List.mem_append.mp he with he | he
    · exact h.called e he
    · rw [List.mem_singleton.mp he]
      exact hcall
  complete := by
    intro id' res hmem
    obtain ⟨op', he⟩ := h.complete id' res hmem
    exact ⟨op', List.mem_append_left _ he⟩
  aborted := by
    intro id' hmem e he
    rcases List.mem_append.mp he with he | he
    · exact h.aborted id' hmem e he
    · rw [List.mem_singleton.mp he]
      rintro rfl
      exact hlive hmem
  legal := legal_snoc object h.legal rfl
  order := by
    rw [List.pairwise_append]
    refine ⟨h.order, List.pairwise_singleton _ _, fun x _ y hy => ?_⟩
    rw [List.mem_singleton.mp hy]
    rintro ⟨i, j, res, op', -, hret, -⟩
    exact hopen res (List.mem_of_getElem? hret)

/-- A call that has taken effect returns what the log says. -/
theorem ret (h : Linearization object init history log) {e : LogEntry ι ω ρ} (he : e ∈ log) :
    Linearization object init (history ++ [.ret e.id e.res]) log := by
  refine h.snoc (fun _ _ heq => (nomatch heq)) (fun id res heq => ?_) (fun _ heq => (nomatch heq))
  cases heq
  exact ⟨e.op, he⟩

/-- A call that has taken no effect fails. -/
theorem abort (h : Linearization object init history log) {id : ι} (hnone : ∀ e ∈ log, e.id ≠ id) :
    Linearization object init (history ++ [.abort id]) log := by
  refine h.snoc (fun _ _ heq => (nomatch heq)) (fun _ _ heq => (nomatch heq)) (fun id' heq => ?_)
  cases heq
  exact hnone

end Linearization

end Postblox.Lib
