import Postblox.Db.Tables
import Postblox.Lib.Machine

/-!
# The worker manager

`WorkerManager` as the tasks it has spawned, the map of the handles, the `start` that
holds the lock of the map and the calls of `stop` and `stop_all` that wait for a worker.
A task finishes whenever it likes, with or without a cancellation.
-/
namespace Postblox.Sync

open Db (AccountId)
open Lib.Machine

abbrev WorkerKey := AccountId × String

/-- A task that runs `run_sync_worker`. -/
structure Worker where
  key : WorkerKey
  cancelled : Bool
  aborted : Bool
  finished : Bool
  deriving DecidableEq

def Worker.spawned (key : WorkerKey) : Worker := ⟨key, false, false, false⟩

/-- A call in `await_worker`. `before` is the number of tasks spawned so far when
`stop_all` had the lock. -/
inductive StopCall where
  | stop (key : WorkerKey) (join : Nat)
  | stopAll (before : Nat) (joins : List Nat)
  deriving DecidableEq

inductive ManagerReturn where
  | start (key : WorkerKey) (started : Bool)
  | stop (key : WorkerKey) (stopped : Bool)
  | stopAll (before : Nat)
  deriving DecidableEq

/-- A handle is the position of its task. -/
structure WorkerManager where
  tasks : List Worker
  workers : List (WorkerKey × Nat)
  publishing : Option WorkerKey
  calls : List StopCall
  returns : List ManagerReturn
  deriving DecidableEq

/-- `start` up to the publication of the state and from there on; `stop` and `stop_all` up
to the first join, with the order in which the map is drained. A future may be dropped
where it waits. -/
inductive ManagerAction where
  | start (key : WorkerKey)
  | spawn
  | stop (key : WorkerKey)
  | stopAll (order : List Nat)
  | join (call : StopCall)
  | timeout (call : StopCall)
  | drop (call : StopCall)
  | dropStart
  | finish (task : Nat)

namespace WorkerManager

def new : WorkerManager where
  tasks := []
  workers := []
  publishing := none
  calls := []
  returns := []

/-- `JoinHandle::is_finished`. -/
def isFinished (m : WorkerManager) (i : Nat) : Bool := m.tasks[i]?.any Worker.finished

def cancel (tasks : List Worker) (i : Nat) : List Worker :=
  tasks.modify i fun w => { w with cancelled := true }

def abort (tasks : List Worker) (i : Nat) : List Worker :=
  tasks.modify i fun w => { w with aborted := true }

/-- `stop_all` with these workers left to join. -/
def goOn (m : WorkerManager) (before : Nat) : List Nat → WorkerManager
  | [] => { m with returns := .stopAll before :: m.returns }
  | joins => { m with calls := .stopAll before joins :: m.calls }

/-- `await_worker` has returned. -/
def awaited (m : WorkerManager) : StopCall → WorkerManager
  | .stop key _ => { m with returns := .stop key true :: m.returns }
  | .stopAll before joins => m.goOn before joins.tail

/-- The worker a call waits for. -/
def joining : StopCall → Option Nat
  | .stop _ i => some i
  | .stopAll _ joins => joins.head?

def step (m : WorkerManager) : ManagerAction → Option WorkerManager
  | .start key =>
    if m.publishing.isSome then none
    else if (m.workers.lookup key).any (fun i => !m.isFinished i) then
      some { m with returns := .start key false :: m.returns }
    else
      some { m with workers := m.workers.filter (·.1 ≠ key), publishing := some key }
  | .spawn =>
    m.publishing.map fun key => { m with
      tasks := m.tasks ++ [Worker.spawned key]
      workers := (key, m.tasks.length) :: m.workers
      publishing := none
      returns := .start key true :: m.returns }
  | .stop key =>
    if m.publishing.isSome then none
    else
      match m.workers.lookup key with
      | some i => some { m with
          workers := m.workers.filter (·.1 ≠ key)
          tasks := cancel m.tasks i
          calls := .stop key i :: m.calls }
      | none => some { m with returns := .stop key false :: m.returns }
  | .stopAll order =>
    if m.publishing.isSome || !order.isPerm (m.workers.map Prod.snd) then none
    else
      some ({ m with workers := [], tasks := order.foldl cancel m.tasks }.goOn m.tasks.length order)
  | .join call =>
    if call ∈ m.calls && (joining call).any m.isFinished then
      some ({ m with calls := m.calls.erase call }.awaited call)
    else none
  | .timeout call =>
    match joining call with
    | some i =>
      if call ∈ m.calls then
        some ({ m with calls := m.calls.erase call, tasks := abort m.tasks i }.awaited call)
      else none
    | none => none
  | .drop call => if call ∈ m.calls then some { m with calls := m.calls.erase call } else none
  | .dropStart => m.publishing.map fun _ => { m with publishing := none }
  | .finish i =>
    if i < m.tasks.length then
      some { m with tasks := m.tasks.modify i fun w => { w with finished := true } }
    else none

/-! ## The two properties -/

/-- At most one unfinished task for each key. -/
def OnePerFolder (m : WorkerManager) : Prop :=
  ∀ (i j : Nat) (v w : Worker), m.tasks[i]? = some v → m.tasks[j]? = some w → v.key = w.key →
    v.finished = false → w.finished = false → i = j

/-- What was started before a `stop_all` that has returned is finished. -/
def Swept (m : WorkerManager) : Prop :=
  ∀ before, .stopAll before ∈ m.returns → ∀ i < before, m.isFinished i = true

/-- Every worker of the key that is out of the map has finished. -/
def Settled (m : WorkerManager) (key : WorkerKey) : Prop :=
  ∀ (i : Nat) (w : Worker), m.tasks[i]? = some w → w.key = key → (key, i) ∉ m.workers →
    w.finished = true

/-- Every worker that is out of the map has finished. -/
def AllSettled (m : WorkerManager) : Prop :=
  ∀ (i : Nat) (w : Worker), m.tasks[i]? = some w → (w.key, i) ∉ m.workers → w.finished = true

/-- The steps that keep the properties: no `start` and no `stop_all` while a worker that was
taken out of the map is unfinished, and no timeout in `stop_all`. -/
def Orderly (m : WorkerManager) : ManagerAction → Prop
  | .start key => m.Settled key
  | .stopAll _ => m.AllSettled
  | .timeout (.stopAll _ joins) => ∀ i ∈ joins.head?, m.isFinished i = true
  | _ => True

instance (m : WorkerManager) (key : WorkerKey) : Decidable (m.Settled key) :=
  decidable_of_iff (∀ p ∈ m.tasks.zipIdx, p.1.key = key → (key, p.2) ∉ m.workers →
    p.1.finished = true) (by
      simp only [Settled, List.mem_zipIdx_iff_getElem?, Prod.forall]
      exact forall_comm)

instance (m : WorkerManager) : Decidable m.AllSettled :=
  decidable_of_iff (∀ p ∈ m.tasks.zipIdx, (p.1.key, p.2) ∉ m.workers → p.1.finished = true)
    (by
      simp only [AllSettled, List.mem_zipIdx_iff_getElem?, Prod.forall]
      exact forall_comm)

instance (m : WorkerManager) : (a : ManagerAction) → Decidable (m.Orderly a)
  | .start key => inferInstanceAs (Decidable (m.Settled key))
  | .stopAll _ => inferInstanceAs (Decidable m.AllSettled)
  | .timeout (.stopAll _ joins) =>
    inferInstanceAs (Decidable (∀ i ∈ joins.head?, m.isFinished i = true))
  | .timeout (.stop _ _) | .spawn | .stop _ | .join _ | .drop _ | .dropStart | .finish _ =>
    inferInstanceAs (Decidable True)

/-! ## Tasks only get older -/

/-- The same tasks, some of them further on. -/
structure Older (tasks tasks' : List Worker) : Prop where
  length_eq : tasks'.length = tasks.length
  before : ∀ {i : Nat} {w' : Worker}, tasks'[i]? = some w' →
    ∃ w : Worker, tasks[i]? = some w ∧ w.key = w'.key ∧ (w.finished = true → w'.finished = true)

theorem Older.refl (tasks : List Worker) : Older tasks tasks :=
  ⟨rfl, fun {_ w'} h => ⟨w', h, rfl, id⟩⟩

theorem Older.trans {a b c : List Worker} (h : Older a b) (h' : Older b c) : Older a c := by
  refine ⟨h'.length_eq.trans h.length_eq, fun {i w''} hw'' => ?_⟩
  obtain ⟨w', hw', hkey', hfin'⟩ := h'.before hw''
  obtain ⟨w, hw, hkey, hfin⟩ := h.before hw'
  exact ⟨w, hw, hkey.trans hkey', fun hdone => hfin' (hfin hdone)⟩

theorem older_modify (tasks : List Worker) (i : Nat) (f : Worker → Worker)
    (hkey : ∀ w, (f w).key = w.key) (hfin : ∀ w, w.finished = true → (f w).finished = true) :
    Older tasks (tasks.modify i f) := by
  refine ⟨List.length_modify .., fun {j w'} hw' => ?_⟩
  rw [List.getElem?_modify] at hw'
  obtain ⟨w, hw, rfl⟩ := Option.map_eq_some_iff.mp hw'
  refine ⟨w, hw, ?_⟩
  split_ifs
  · exact ⟨(hkey w).symm, hfin w⟩
  · exact ⟨rfl, id⟩

theorem older_cancel (tasks : List Worker) (i : Nat) : Older tasks (cancel tasks i) :=
  older_modify tasks i _ (fun _ => rfl) (fun _ h => h)

theorem older_cancelAll (order : List Nat) (tasks : List Worker) :
    Older tasks (order.foldl cancel tasks) := by
  induction order generalizing tasks with
  | nil => exact .refl tasks
  | cons i order ih => exact (older_cancel tasks i).trans (ih (cancel tasks i))

/-! ## The invariant -/

/-- `opening`: while a `start` publishes, nothing of its key runs. `sweeping`: what a
`stop_all` has not joined yet is all that is left of what was started before it. -/
structure Managed (m : WorkerManager) : Prop where
  keys : (m.workers.map Prod.fst).Nodup
  entries : ∀ key i, (key, i) ∈ m.workers → ∃ w, m.tasks[i]? = some w ∧ w.key = key
  opening : ∀ key, m.publishing = some key → key ∉ m.workers.map Prod.fst ∧
    ∀ (i : Nat) (w : Worker), m.tasks[i]? = some w → w.key = key → w.finished = true
  one : m.OnePerFolder
  sweeping : ∀ before joins, .stopAll before joins ∈ m.calls →
    before ≤ m.tasks.length ∧ ∀ i < before, m.isFinished i = true ∨ i ∈ joins
  swept : ∀ before, .stopAll before ∈ m.returns →
    before ≤ m.tasks.length ∧ ∀ i < before, m.isFinished i = true

variable {m : WorkerManager}

theorem isFinished_iff {i : Nat} :
    m.isFinished i = true ↔ ∃ w, m.tasks[i]? = some w ∧ w.finished = true := by
  rw [isFinished, Option.any_eq_true]

theorem Older.isFinished {tasks tasks' : List Worker} (h : Older tasks tasks') {i : Nat}
    (hfin : tasks[i]?.any Worker.finished = true) : tasks'[i]?.any Worker.finished = true := by
  obtain ⟨w, hw, hdone⟩ := (Option.any_eq_true _ _).mp hfin
  have hi : i < tasks'.length := h.length_eq ▸ (List.getElem?_eq_some_iff.mp hw).1
  obtain ⟨v, hv, -, hmono⟩ := h.before (List.getElem?_eq_getElem hi)
  rw [hw] at hv
  cases hv
  exact (Option.any_eq_true _ _).mpr ⟨_, List.getElem?_eq_getElem hi, hmono hdone⟩

theorem Managed.of_older (h : m.Managed) {tasks : List Worker} (holder : Older m.tasks tasks) :
    Managed { m with tasks } where
  keys := h.keys
  entries := by
    intro key i hmem
    obtain ⟨w, hw, hkey⟩ := h.entries key i hmem
    have hi : i < tasks.length := holder.length_eq ▸ (List.getElem?_eq_some_iff.mp hw).1
    obtain ⟨v, hv, hsame, -⟩ := holder.before (List.getElem?_eq_getElem hi)
    rw [hw] at hv
    cases hv
    exact ⟨_, List.getElem?_eq_getElem hi, hsame.symm.trans hkey⟩
  opening := by
    intro key hpublishing
    obtain ⟨hnot, hall⟩ := h.opening key hpublishing
    refine ⟨hnot, fun i w hw hkey => ?_⟩
    obtain ⟨v, hv, hsame, hmono⟩ := holder.before hw
    exact hmono (hall i v hv (hsame.trans hkey))
  one := by
    intro i j v w hv hw hkey hfin hfin'
    obtain ⟨v', hv', hsame, hmono⟩ := holder.before hv
    obtain ⟨w', hw', hsame', hmono'⟩ := holder.before hw
    refine h.one i j v' w' hv' hw' (hsame.trans (hkey.trans hsame'.symm)) ?_ ?_
    · exact Bool.eq_false_iff.mpr fun hdone => Bool.eq_false_iff.mp hfin (hmono hdone)
    · exact Bool.eq_false_iff.mpr fun hdone => Bool.eq_false_iff.mp hfin' (hmono' hdone)
  sweeping := by
    intro before joins hmem
    obtain ⟨hle, hrest⟩ := h.sweeping before joins hmem
    exact ⟨hle.trans_eq holder.length_eq.symm, fun i hi => (hrest i hi).imp_left holder.isFinished⟩
  swept := by
    intro before hmem
    obtain ⟨hle, hrest⟩ := h.swept before hmem
    exact ⟨hle.trans_eq holder.length_eq.symm, fun i hi => holder.isFinished (hrest i hi)⟩

/-- Leaving a call. -/
theorem Managed.erase (h : m.Managed) (call : StopCall) :
    Managed { m with calls := m.calls.erase call } :=
  { h with sweeping := fun before joins hmem => h.sweeping before joins (List.mem_of_mem_erase hmem) }

/-- Any return but that of a `stop_all`. -/
theorem Managed.respond (h : m.Managed) {r : ManagerReturn} (hr : ∀ before, r ≠ .stopAll before) :
    Managed { m with returns := r :: m.returns } := by
  refine { h with swept := fun before hmem => ?_ }
  rcases List.mem_cons.mp hmem with hmem | hmem
  · exact absurd hmem.symm (hr before)
  · exact h.swept before hmem

theorem Managed.goOn (h : m.Managed) {before : Nat} {joins : List Nat}
    (hle : before ≤ m.tasks.length) (hjoins : ∀ i < before, m.isFinished i = true ∨ i ∈ joins) :
    (m.goOn before joins).Managed := by
  cases joins with
  | nil =>
    refine { h with swept := fun before' hmem => ?_ }
    rcases List.mem_cons.mp hmem with hmem | hmem
    · cases hmem
      exact ⟨hle, fun i hi => (hjoins i hi).resolve_right (List.not_mem_nil)⟩
    · exact h.swept before' hmem
  | cons i joins =>
    refine { h with sweeping := fun before' joins' hmem => ?_ }
    rcases List.mem_cons.mp hmem with hmem | hmem
    · cases hmem
      exact ⟨hle, hjoins⟩
    · exact h.sweeping before' joins' hmem

/-- The worker a call has waited for is finished, or it is a `stop` that does not care. -/
theorem Managed.awaited (h : m.Managed) {call : StopCall} (hcall : call ∈ m.calls)
    (hhead : ∀ before joins, call = .stopAll before joins → ∀ i, joins.head? = some i →
      m.isFinished i = true) :
    ({ m with calls := m.calls.erase call }.awaited call).Managed := by
  cases call with
  | stop key i => exact (h.erase _).respond fun _ hr => (nomatch hr)
  | stopAll before joins =>
    obtain ⟨hle, hrest⟩ := h.sweeping before joins hcall
    refine (h.erase _).goOn hle fun i hi => ?_
    rcases hrest i hi with hdone | hmem
    · exact .inl hdone
    · cases joins with
      | nil => cases hmem
      | cons j joins =>
        rcases List.mem_cons.mp hmem with rfl | hmem
        · exact .inl (hhead before _ rfl i rfl)
        · exact .inr hmem

theorem lookup_of_mem {workers : List (WorkerKey × Nat)} {key : WorkerKey} {i : Nat}
    (hkeys : (workers.map Prod.fst).Nodup) (hmem : (key, i) ∈ workers) :
    workers.lookup key = some i := by
  obtain ⟨front, back, rfl⟩ := List.append_of_mem hmem
  refine List.lookup_eq_some_iff.mpr ⟨front, back, rfl, fun entry hentry => ?_⟩
  rw [List.map_append, List.map_cons] at hkeys
  have hdisjoint := (List.nodup_append.mp hkeys).2.2
  exact bne_iff_ne.mpr (hdisjoint entry.1 (List.mem_map_of_mem hentry) key List.mem_cons_self).symm

/-- Taking an entry out of the map. -/
theorem Managed.remove (h : m.Managed) (key : WorkerKey) :
    Managed { m with workers := m.workers.filter (·.1 ≠ key) } := by
  have hsub : (m.workers.filter (·.1 ≠ key)).Sublist m.workers := List.filter_sublist
  refine { h with
    keys := (hsub.map Prod.fst).nodup h.keys
    entries := fun key' i hmem => h.entries key' i (hsub.mem hmem)
    opening := fun key' hkey' => ?_ }
  obtain ⟨hnot, hall⟩ := h.opening key' hkey'
  exact ⟨fun hmem => hnot ((hsub.map Prod.fst).mem hmem), hall⟩

theorem Managed.open (h : m.Managed) {key : WorkerKey} (hsettled : m.Settled key)
    (hidle : (m.workers.lookup key).any (fun i => !m.isFinished i) = false) :
    Managed { m with workers := m.workers.filter (·.1 ≠ key), publishing := some key } := by
  refine { h.remove key with opening := fun key' hkey' => ?_ }
  cases hkey'
  refine ⟨by simp, fun i w hw hkey => ?_⟩
  by_cases hmem : (key, i) ∈ m.workers
  · rw [lookup_of_mem h.keys hmem] at hidle
    obtain ⟨v, hv, hdone⟩ := isFinished_iff.mp (by simpa using hidle)
    rw [hw] at hv
    cases hv
    exact hdone
  · exact hsettled i w hw hkey hmem

theorem Managed.spawn (h : m.Managed) {key : WorkerKey} (hpublishing : m.publishing = some key) :
    Managed { m with
      tasks := m.tasks ++ [Worker.spawned key]
      workers := (key, m.tasks.length) :: m.workers
      publishing := none
      returns := .start key true :: m.returns } := by
  obtain ⟨hnot, hall⟩ := h.opening key hpublishing
  -- the old tasks keep their positions
  have hold : ∀ {i : Nat} {w : Worker}, m.tasks[i]? = some w →
      (m.tasks ++ [Worker.spawned key])[i]? = some w := by
    intro i w hw
    rw [List.getElem?_append_left (List.getElem?_eq_some_iff.mp hw).1, hw]
  have hcases : ∀ {i : Nat} {w : Worker},
      (m.tasks ++ [Worker.spawned key])[i]? = some w →
      m.tasks[i]? = some w ∨ i = m.tasks.length ∧ w.key = key := by
    intro i w hw
    by_cases hi : i < m.tasks.length
    · rw [List.getElem?_append_left hi] at hw
      exact .inl hw
    · rw [List.getElem?_append_right (Nat.le_of_not_lt hi), List.getElem?_singleton] at hw
      split_ifs at hw with hzero
      cases hw
      exact .inr ⟨by omega, rfl⟩
  have hfin : ∀ {i : Nat}, m.isFinished i = true →
      (m.tasks ++ [Worker.spawned key])[i]?.any Worker.finished = true := by
    intro i hi
    obtain ⟨w, hw, hdone⟩ := isFinished_iff.mp hi
    exact (Option.any_eq_true _ _).mpr ⟨w, hold hw, hdone⟩
  have hgrow : m.tasks.length ≤ (m.tasks ++ [Worker.spawned key]).length := by simp
  refine ⟨List.nodup_cons.mpr ⟨hnot, h.keys⟩, ?_, fun _ hkey => (nomatch hkey), ?_, ?_, ?_⟩
  · intro key' i hmem
    rcases List.mem_cons.mp hmem with hmem | hmem
    · cases hmem
      exact ⟨_, List.getElem?_concat_length, rfl⟩
    · obtain ⟨w, hw, hkey⟩ := h.entries key' i hmem
      exact ⟨w, hold hw, hkey⟩
  · intro i j v w hv hw hkey hrunning hrunning'
    rcases hcases hv with hv | ⟨hi, hv⟩ <;> rcases hcases hw with hw | ⟨hj, hw⟩
    · exact h.one i j v w hv hw hkey hrunning hrunning'
    · exact absurd (hall i v hv (hkey.trans hw)) (by simp [hrunning])
    · exact absurd (hall j w hw (hkey.symm.trans hv)) (by simp [hrunning'])
    · exact hi.trans hj.symm
  · intro before joins hmem
    obtain ⟨hle, hrest⟩ := h.sweeping before joins hmem
    exact ⟨hle.trans hgrow, fun i hi => (hrest i hi).imp_left hfin⟩
  · intro before hmem
    rcases List.mem_cons.mp hmem with hmem | hmem
    · cases hmem
    · obtain ⟨hle, hrest⟩ := h.swept before hmem
      exact ⟨hle.trans hgrow, fun i hi => hfin (hrest i hi)⟩

theorem Managed.sweep (h : m.Managed) {order : List Nat} (hsettled : m.AllSettled)
    (horder : order.Perm (m.workers.map Prod.snd)) :
    ({ m with workers := [], tasks := order.foldl cancel m.tasks }.goOn m.tasks.length
      order).Managed := by
  have holder := older_cancelAll order m.tasks
  have hempty : Managed { m with workers := [] } :=
    { h with
      keys := List.nodup_nil
      entries := fun _ _ hmem => (nomatch hmem)
      opening := fun key hkey => ⟨List.not_mem_nil, (h.opening key hkey).2⟩ }
  refine (hempty.of_older holder).goOn holder.length_eq.ge fun i hi => ?_
  have hw : m.tasks[i]? = some m.tasks[i] := List.getElem?_eq_getElem hi
  by_cases hmem : (m.tasks[i].key, i) ∈ m.workers
  · exact .inr (horder.mem_iff.mpr (List.mem_map_of_mem (f := Prod.snd) hmem))
  · left
    have hdone := hsettled i _ hw hmem
    exact holder.isFinished ((Option.any_eq_true _ _).mpr ⟨_, hw, hdone⟩)

theorem Managed.of_step {a : ManagerAction} {t : WorkerManager} (h : m.Managed)
    (hok : m.Orderly a) (hstep : m.step a = some t) : t.Managed := by
  cases a with
  | start key =>
    simp only [step] at hstep
    split_ifs at hstep with hlock hrunning
    · cases hstep
      exact h.respond fun _ hr => (nomatch hr)
    · cases hstep
      exact h.open hok (by simpa using hrunning)
  | spawn =>
    obtain ⟨key, hpublishing, rfl⟩ := Option.map_eq_some_iff.mp hstep
    exact h.spawn hpublishing
  | stop key =>
    simp only [step] at hstep
    split_ifs at hstep
    split at hstep
    · next i hlookup =>
      cases hstep
      have h' := (h.remove key).of_older (older_cancel m.tasks i)
      refine { h' with sweeping := fun before joins hmem => h'.sweeping before joins ?_ }
      exact (List.mem_cons.mp hmem).resolve_left (fun heq => nomatch heq)
    · cases hstep
      exact h.respond fun _ hr => (nomatch hr)
  | stopAll order =>
    simp only [step] at hstep
    split_ifs at hstep with hlock
    simp only [Bool.or_eq_true, not_or, Bool.not_eq_true'] at hlock
    cases hstep
    exact h.sweep hok (List.isPerm_iff.mp (by simpa using hlock.2))
  | join call =>
    simp only [step] at hstep
    split_ifs at hstep with hjoin
    rw [Bool.and_eq_true, decide_eq_true_iff] at hjoin
    cases hstep
    refine h.awaited hjoin.1 fun before joins heq i hi => ?_
    obtain ⟨j, hj, hdone⟩ := (Option.any_eq_true _ _).mp hjoin.2
    subst heq
    cases hi.symm.trans hj
    exact hdone
  | timeout call =>
    simp only [step] at hstep
    split at hstep
    · next i hi =>
      split_ifs at hstep with hcall
      cases hstep
      have hold := older_modify m.tasks i (fun w => { w with aborted := true }) (fun _ => rfl)
        (fun _ h => h)
      refine (h.of_older hold).awaited hcall fun before joins heq j hj => ?_
      subst heq
      exact hold.isFinished (hok j hj)
    · cases hstep
  | drop call =>
    simp only [step] at hstep
    split_ifs at hstep
    cases hstep
    exact h.erase call
  | dropStart =>
    obtain ⟨key, hpublishing, rfl⟩ := Option.map_eq_some_iff.mp hstep
    exact { h with opening := fun _ hkey => (nomatch hkey) }
  | finish i =>
    simp only [step] at hstep
    split_ifs at hstep
    cases hstep
    exact h.of_older (older_modify m.tasks i _ (fun _ => rfl) (fun _ _ => rfl))

/-- In every run in which a `start` and a `stop_all` find every worker finished that has been
taken out of the map (of the key, of any key), and no join of a `stop_all` times out. -/
theorem one_worker_of_orderly_run {acts : List ManagerAction} {m : WorkerManager}
    (horderly : Guarded step Orderly new acts) (hrun : run step new acts = some m) :
    m.OnePerFolder ∧ m.Swept := by
  have hmanaged : m.Managed := by
    refine guarded_invariant step (I := Managed) ?_ (fun _ _ _ h hok hstep => h.of_step hok hstep)
      horderly hrun
    constructor <;> simp [new, OnePerFolder]
  exact ⟨hmanaged.one, fun before hmem => (hmanaged.swept before hmem).2⟩

/-! A restart after a stop that was waited for; a restart during a stop, a `stop_all` during
a stop, and a `stop_all` that gives up. -/

def inboxKey : WorkerKey := (1, "INBOX")

def restart : List ManagerAction :=
  [.start inboxKey, .spawn, .stop inboxKey, .finish 0, .join (.stop inboxKey 0), .start inboxKey, .spawn,
    .stopAll [1], .finish 1, .join (.stopAll 2 [1])]

theorem restart_keeps_one_worker :
    Guarded step Orderly new restart ∧
    ∃ m, run step new restart = some m ∧ .stopAll 2 ∈ m.returns ∧ m.OnePerFolder ∧ m.Swept := by
  have horderly : Guarded step Orderly new restart := by decide
  refine ⟨horderly, _, rfl, by decide, ?_⟩
  exact one_worker_of_orderly_run horderly rfl

theorem manager_loses_workers :
    (∃ m, run step new [.start inboxKey, .spawn, .stop inboxKey, .start inboxKey, .spawn] = some m ∧
      ¬ m.OnePerFolder) ∧
    (∃ m, run step new [.start inboxKey, .spawn, .stop inboxKey, .stopAll []] = some m ∧
      ¬ m.Swept) ∧
    (∃ m, run step new [.start inboxKey, .spawn, .stopAll [0], .timeout (.stopAll 1 [0])] = some m ∧
      ¬ m.Swept) := by
  refine ⟨⟨_, rfl, fun h => ?_⟩, ⟨_, rfl, fun h => ?_⟩, ⟨_, rfl, fun h => ?_⟩⟩
  · exact absurd (h 0 1 _ _ rfl rfl rfl rfl rfl) (by decide)
  · exact absurd (h 1 (by decide) 0 (by decide)) (by decide)
  · exact absurd (h 1 (by decide) 0 (by decide)) (by decide)

end WorkerManager

end Postblox.Sync
