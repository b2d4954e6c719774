import Mathlib

/-!
# Queues ordered by last use

A log has the keys in the order they were used. A queue is in order of last use if of any
two keys in it the one behind was used after the last use of the one in front; using a key
means taking it out and putting it at the back.
-/
namespace Postblox.Lib

variable {κ : Type*} {log queue queue' : List κ} {x earlier later : κ}

/-- The log has a use of `later` behind every use of `earlier`. -/
def UsedAfter (log : List κ) (earlier later : κ) : Prop :=
  ∃ front back, log = front ++ later :: back ∧ earlier ≠ later ∧ earlier ∉ back

theorem UsedAfter.snoc (h : UsedAfter log earlier later) (hne : earlier ≠ x) :
    UsedAfter (log ++ [x]) earlier later := by
  obtain ⟨front, back, rfl, hother, hback⟩ := h
  refine ⟨front, back ++ [x], by simp, hother, ?_⟩
  rw [List.mem_append, List.mem_singleton, not_or]
  exact ⟨hback, hne⟩

theorem usedAfter_last (log : List κ) (hne : earlier ≠ x) : UsedAfter (log ++ [x]) earlier x :=
  ⟨log, [], rfl, hne, List.not_mem_nil⟩

def InOrderOfUse (log queue : List κ) : Prop := queue.Pairwise (UsedAfter log)

theorem InOrderOfUse.sublist (h : InOrderOfUse log queue) (hsub : queue'.Sublist queue) :
    InOrderOfUse log queue' := List.Pairwise.sublist hsub h

/-- The key that is used goes to the back. -/
theorem InOrderOfUse.touch (h : InOrderOfUse log queue) (hx : x ∉ queue) :
    InOrderOfUse (log ++ [x]) (queue ++ [x]) := by
  have hne : ∀ key ∈ queue, key ≠ x := fun key hkey heq => hx (heq ▸ hkey)
  unfold InOrderOfUse
  rw [List.pairwise_append]
  refine ⟨?_, List.pairwise_singleton _ _, ?_⟩
  · exact List.Pairwise.imp_of_mem (fun hfirst _ hafter => hafter.snoc (hne _ hfirst)) h
  · intro key hkey y hy
    rw [List.mem_singleton.mp hy]
    exact usedAfter_last log (hne key hkey)

end Postblox.Lib
