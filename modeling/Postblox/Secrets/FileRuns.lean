import Postblox.Secrets.File

/-!
# The secret file is a linearizable map

Between two steps the file decodes to the map that the operations in the log have made.
`put` and `delete` take effect with the rename, `get` and a `delete` of nothing with the
read. Only the holder of the lock has a map to write, so the map it has read is still the
one in the file.
-/
namespace Postblox.Secrets

open Lib (HistoryEvent LogEntry Linearization replay)
open Lib.Machine

/-- The entries of the map. -/
def SecretMap.view (m : SecretMap) : Uuid → Option String := fun id => m.lookup id

/-- What an operation writes back, if it has read `m`. -/
def modified (m : SecretMap) : StoreOp → Option SecretMap
  | .put id secret => some (m.insert id secret)
  | .delete id => some (m.erase id)
  | .get _ => none

theorem view_modified {m map : SecretMap} {op : StoreOp} (h : modified m op = some map) :
    secretsObject m.view op = (map.view, .done) := by
  cases op with
  | put id secret =>
    cases h
    refine Prod.ext (funext fun id' => ?_) rfl
    by_cases hid : id' = id
    · subst hid
      simp [secretsObject, SecretMap.view]
    · simp [secretsObject, SecretMap.view, hid, Finmap.lookup_insert_of_ne]
  | delete id =>
    cases h
    refine Prod.ext (funext fun id' => ?_) rfl
    by_cases hid : id' = id
    · subst hid
      simp [secretsObject, SecretMap.view]
    · simp [secretsObject, SecretMap.view, hid, Finmap.lookup_erase_ne]
  | get => cases h

/-- A `delete` of what is not there. -/
theorem delete_missing {m : SecretMap} {id : Uuid} (h : (m.lookup id).isSome = false) :
    secretsObject m.view (.delete id) = (m.view, .done) := by
  refine Prod.ext (funext fun id' => ?_) rfl
  by_cases hid : id' = id
  · subst hid
    have hnone : m.lookup id' = none := by simpa using h
    simp [secretsObject, SecretMap.view, hnone]
  · simp [secretsObject, hid]

def Phase.op : Phase → StoreOp
  | .called op | .locked op | .writing op _ | .encrypted op _ _ | .staged op _
  | .finished op _ => op

namespace FileStore

variable (crates : StoreCrates) (passphrase : String)

/-! ## The invariant -/

/-- The operation has been called and not returned. -/
structure Open (s : FileStore) (n : Nat) (op : StoreOp) : Prop where
  called : .call n op ∈ s.history
  unreturned : ∀ res, .ret n res ∉ s.history
  live : .abort n ∉ s.history

/-- The operation has taken no effect. -/
def Uncommitted (s : FileStore) (n : Nat) : Prop := ∀ e ∈ s.log, e.id ≠ n

/-- The bytes of a map. -/
def Encodes (payload : List UInt8) (map : SecretMap) : Prop :=
  payload ≠ [] ∧ decrypt crates passphrase payload = .ok map

/-- The map is what the operation makes of the one in the file. -/
def Fresh (s : FileStore) (op : StoreOp) (map : SecretMap) : Prop :=
  ∃ m, readMap crates passphrase s.file = .ok m ∧ modified m op = some map

def Fits (s : FileStore) (n : Nat) : Phase → Prop
  | .called _ => s.Uncommitted n
  | .locked _ => s.Uncommitted n ∧ s.writeLock = some n
  | .writing op map =>
    s.Uncommitted n ∧ s.writeLock = some n ∧ s.Fresh crates passphrase op map
  | .encrypted op map payload =>
    s.Uncommitted n ∧ s.writeLock = some n ∧ s.Fresh crates passphrase op map ∧
      Encodes crates passphrase payload map
  | .staged op map =>
    s.Uncommitted n ∧ s.writeLock = some n ∧ s.Fresh crates passphrase op map ∧
      ∃ payload, s.tmp = some payload ∧ Encodes crates passphrase payload map
  | .finished op res => ⟨n, op, res⟩ ∈ s.log

structure Consistent (init : Uuid → Option String) (s : FileStore) : Prop where
  lin : Linearization secretsObject init s.history s.log
  contents : ∃ m, readMap crates passphrase s.file = .ok m ∧
    m.view = replay secretsObject init s.log
  phases : ∀ n p, s.phase n = some p → s.Open n p.op ∧ s.Fits crates passphrase n p
  unused : ∀ n, s.next ≤ n → s.phase n = none ∧ ∀ e ∈ s.history, e.id ≠ n

variable {crates passphrase} {init : Uuid → Option String} {s t : FileStore} {n : Nat}

/-- A step of the operation `n`: the other operations, what they have done and, if one of
them holds the lock, the files are left alone. -/
structure Apart (s t : FileStore) (n : Nat) : Prop where
  next : s.next ≤ t.next
  phase : ∀ n' ≠ n, t.phase n' = s.phase n'
  history : ∀ e ∈ t.history, e ∈ s.history ∨ e.id = n
  kept : ∀ e ∈ s.history, e ∈ t.history
  log : ∀ e ∈ t.log, e ∈ s.log ∨ e.id = n
  logged : ∀ e ∈ s.log, e ∈ t.log
  held : ∀ n' ≠ n, s.writeLock = some n' →
    t.writeLock = some n' ∧ t.file = s.file ∧ t.tmp = s.tmp

theorem Fits.of_apart {n' : Nat} {p : Phase} (h : s.Fits crates passphrase n' p)
    (happart : Apart s t n) (hne : n' ≠ n) : t.Fits crates passphrase n' p := by
  have huncommitted : s.Uncommitted n' → t.Uncommitted n' := by
    intro hun e he
    rcases happart.log e he with he | hid
    · exact hun e he
    · exact fun h => hne (h.symm.trans hid)
  have hfresh : ∀ {op map}, t.file = s.file → s.Fresh crates passphrase op map →
      t.Fresh crates passphrase op map := by
    intro op map hfile hfresh
    rw [Fresh, hfile]
    exact hfresh
  cases p with
  | called => exact huncommitted h
  | locked => exact ⟨huncommitted h.1, (happart.held n' hne h.2).1⟩
  | writing op map =>
    obtain ⟨hun, hheld, hmap⟩ := h
    obtain ⟨hheld', hfile, -⟩ := happart.held n' hne hheld
    exact ⟨huncommitted hun, hheld', hfresh hfile hmap⟩
  | encrypted op map payload =>
    obtain ⟨hun, hheld, hmap, hbytes⟩ := h
    obtain ⟨hheld', hfile, -⟩ := happart.held n' hne hheld
    exact ⟨huncommitted hun, hheld', hfresh hfile hmap, hbytes⟩
  | staged op map =>
    obtain ⟨hun, hheld, hmap, hbytes⟩ := h
    obtain ⟨hheld', hfile, htmp⟩ := happart.held n' hne hheld
    exact ⟨huncommitted hun, hheld', hfresh hfile hmap, htmp ▸ hbytes⟩
  | finished op res => exact happart.logged _ h

theorem Open.of_apart {n' : Nat} {op : StoreOp} (h : s.Open n' op) (happart : Apart s t n)
    (hne : n' ≠ n) : t.Open n' op where
  called := happart.kept _ h.called
  unreturned := by
    intro res hmem
    rcases happart.history _ hmem with hmem | hid
    · exact h.unreturned res hmem
    · exact hne hid
  live := by
    intro hmem
    rcases happart.history _ hmem with hmem | hid
    · exact h.live hmem
    · exact hne hid

theorem Consistent.of_apart (h : s.Consistent crates passphrase init) (happart : Apart s t n)
    (hn : n < t.next) (hlin : Linearization secretsObject init t.history t.log)
    (hcontents : ∃ m, readMap crates passphrase t.file = .ok m ∧
      m.view = replay secretsObject init t.log)
    (hself : ∀ p, t.phase n = some p → t.Open n p.op ∧ t.Fits crates passphrase n p) :
    t.Consistent crates passphrase init where
  lin := hlin
  contents := hcontents
  phases := by
    intro n' p hp
    by_cases hne : n' = n
    · subst hne
      exact hself p hp
    · rw [happart.phase n' hne] at hp
      obtain ⟨hopen, hfits⟩ := h.phases n' p hp
      exact ⟨hopen.of_apart happart hne, hfits.of_apart happart hne⟩
  unused := by
    intro n' hn'
    have hnext := happart.next
    have hne : n' ≠ n := by omega
    obtain ⟨hphase, hevents⟩ := h.unused n' (by omega)
    refine ⟨(happart.phase n' hne).trans hphase, fun e he => ?_⟩
    rcases happart.history e he with he | hid
    · exact hevents e he
    · exact fun heq => hne (heq.symm.trans hid)

/-! ## The ways to go on -/

theorem Consistent.lt_next (h : s.Consistent crates passphrase init) {p : Phase}
    (hphase : s.phase n = some p) : n < s.next := by
  by_contra hge
  have hnone := (h.unused n (Nat.le_of_not_lt hge)).1
  rw [hphase] at hnone
  cases hnone

/-- The operation goes on to another phase, with the lock or the temporary file changed at
most while it holds the lock or takes it. -/
theorem Consistent.advance (h : s.Consistent crates passphrase init) {p : Phase} (p' : Phase)
    (hphase : s.phase n = some p) (hop : p'.op = p.op) {writeLock : Option Nat}
    {tmp : Option (List UInt8)} {written : List SecretMap}
    (hheld : ∀ n' ≠ n, s.writeLock = some n' → writeLock = some n' ∧ tmp = s.tmp)
    (hfits : ({ s.enter n p' with writeLock, tmp, written } : FileStore).Fits crates passphrase n p') :
    ({ s.enter n p' with writeLock, tmp, written } : FileStore).Consistent crates passphrase init := by
  have happart : Apart s { s.enter n p' with writeLock, tmp, written } n :=
    { next := Nat.le_refl _
      phase := fun n' hne => Function.update_of_ne hne _ _
      history := fun e he => .inl he
      kept := fun e he => he
      log := fun e he => .inl he
      logged := fun e he => he
      held := fun n' hne hlock => ⟨(hheld n' hne hlock).1, rfl, (hheld n' hne hlock).2⟩ }
  refine h.of_apart happart (h.lt_next hphase) h.lin h.contents fun q hq => ?_
  have hq' : p' = q := by simpa [FileStore.enter] using hq
  subst hq'
  obtain ⟨hopen, -⟩ := h.phases n p hphase
  exact ⟨hop ▸ ⟨hopen.called, hopen.unreturned, hopen.live⟩, hfits⟩

/-- The operation is over. -/
theorem Consistent.leave (h : s.Consistent crates passphrase init) {p : Phase}
    {e : HistoryEvent Nat StoreOp StoreResult} {tmp : Option (List UInt8)}
    (hphase : s.phase n = some p) (he : e.id = n) (htmp : s.writeLock = some n ∨ tmp = s.tmp)
    (hlin : Linearization secretsObject init (s.history ++ [e]) s.log) :
    ({ s.leave n e with tmp } : FileStore).Consistent crates passphrase init := by
  have happart : Apart s { s.leave n e with tmp } n :=
    { next := Nat.le_refl _
      phase := fun n' hne => Function.update_of_ne hne _ _
      history := fun e' he' => by
        rcases List.mem_append.mp he' with he' | he'
        · exact .inl he'
        · exact .inr (List.mem_singleton.mp he' ▸ he)
      kept := fun e' he' => List.mem_append_left _ he'
      log := fun e' he' => .inl he'
      logged := fun e' he' => he'
      held := fun n' hne hlock => by
        have hother : s.writeLock ≠ some n := by simp [hlock, hne]
        refine ⟨?_, rfl, htmp.resolve_left hother⟩
        simp [FileStore.leave, hlock, hne] }
  refine h.of_apart happart (h.lt_next hphase) hlin h.contents fun q hq => ?_
  simp [FileStore.leave] at hq

/-- The operation takes effect. -/
theorem Consistent.commit (h : s.Consistent crates passphrase init) {p : Phase} {m m' : SecretMap}
    {res : StoreResult} {file tmp : Option (List UInt8)} (hphase : s.phase n = some p)
    (hun : s.Uncommitted n) (hm : readMap crates passphrase s.file = .ok m)
    (hres : secretsObject m.view p.op = (m'.view, res))
    (hm' : readMap crates passphrase file = .ok m')
    (hfiles : s.writeLock = some n ∨ file = s.file ∧ tmp = s.tmp) :
    ({ s.commit n p.op res with file, tmp } : FileStore).Consistent crates passphrase init := by
  have happart : Apart s { s.commit n p.op res with file, tmp } n :=
    { next := Nat.le_refl _
      phase := fun n' hne => Function.update_of_ne hne _ _
      history := fun e he => .inl he
      kept := fun e he => he
      log := fun e he => by
        rcases List.mem_append.mp he with he | he
        · exact .inl he
        · rw [List.mem_singleton.mp he]
          exact .inr rfl
      logged := fun e he => List.mem_append_left _ he
      held := fun n' hne hlock => by
        have hother : s.writeLock ≠ some n := by simp [hlock, hne]
        exact ⟨hlock, hfiles.resolve_left hother⟩ }
  obtain ⟨hopen, -⟩ := h.phases n p hphase
  obtain ⟨m₁, hm₁, hview⟩ := h.contents
  cases hm.symm.trans hm₁
  rw [hview] at hres
  have hlin := h.lin.effect hopen.called hopen.unreturned hopen.live hun
  rw [hres] at hlin
  refine h.of_apart happart (h.lt_next hphase) hlin ⟨m', hm', ?_⟩ fun q hq => ?_
  · change m'.view = replay secretsObject init (s.log ++ [⟨n, p.op, res⟩])
    rw [Lib.replay_snoc, hres]
  · have hq' : Phase.finished p.op res = q := by simpa [FileStore.commit, FileStore.enter] using hq
    subst hq'
    exact ⟨⟨hopen.called, hopen.unreturned, hopen.live⟩,
      List.mem_append_right _ (List.mem_singleton_self _)⟩

/-- A call is made. -/
theorem Consistent.call (h : s.Consistent crates passphrase init) (op : StoreOp) :
    ({ s.enter s.next (.called op) with
      next := s.next + 1, history := s.history ++ [.call s.next op] } : FileStore).Consistent
      crates passphrase init := by
  obtain ⟨hnone, hevents⟩ := h.unused s.next (Nat.le_refl _)
  have happart : Apart s { s.enter s.next (.called op) with
      next := s.next + 1, history := s.history ++ [.call s.next op] } s.next :=
    { next := Nat.le_succ _
      phase := fun n' hne => Function.update_of_ne hne _ _
      history := fun e he => by
        rcases List.mem_append.mp he with he | he
        · exact .inl he
        · exact .inr (List.mem_singleton.mp he ▸ rfl)
      kept := fun e he => List.mem_append_left _ he
      log := fun e he => .inl he
      logged := fun e he => he
      held := fun n' _ hlock => ⟨hlock, rfl, rfl⟩ }
  have hlin := h.lin.call op fun op' hmem => hevents _ hmem rfl
  refine h.of_apart happart (Nat.lt_succ_self _) hlin h.contents fun q hq => ?_
  have hq' : Phase.called op = q := by simpa [FileStore.enter] using hq
  subst hq'
  refine ⟨⟨List.mem_append_right _ (List.mem_singleton_self _), fun res hmem => ?_, fun hmem => ?_⟩,
    fun e he => hevents _ (h.lin.called e he)⟩
  · rcases List.mem_append.mp hmem with hmem | hmem
    · exact hevents _ hmem rfl
    · cases List.mem_singleton.mp hmem
  · rcases List.mem_append.mp hmem with hmem | hmem
    · exact hevents _ hmem rfl
    · cases List.mem_singleton.mp hmem

/-- The operation fails before it takes effect. -/
theorem Consistent.fail (h : s.Consistent crates passphrase init) {p : Phase}
    (hphase : s.phase n = some p) (hun : s.Uncommitted n) :
    (s.leave n (.abort n)).Consistent crates passphrase init :=
  h.leave hphase rfl (.inr rfl) (h.lin.abort hun)

/-! ## Every step -/

theorem Consistent.of_read (h : s.Consistent crates passphrase init)
    (hstep : s.afterRead crates passphrase n = some t) : t.Consistent crates passphrase init := by
  unfold afterRead at hstep
  split at hstep
  · next id map hphase hmap =>
    cases hstep
    exact h.commit hphase (h.phases n _ hphase).2 hmap rfl hmap (.inr ⟨rfl, rfl⟩)
  · next id secret map hphase hmap =>
    cases hstep
    obtain ⟨hun, hlock⟩ := (h.phases n _ hphase).2
    exact h.advance (.writing (.put id secret) (map.insert id secret)) hphase rfl (fun n' _ hlock' => ⟨hlock', rfl⟩) ⟨hun, hlock, map, hmap, rfl⟩
  · next id map hphase hmap =>
    obtain ⟨hun, hlock⟩ := (h.phases n _ hphase).2
    split_ifs at hstep with hsome
    · cases hstep
      exact h.advance (.writing (.delete id) (map.erase id)) hphase rfl (fun n' _ hlock' => ⟨hlock', rfl⟩) ⟨hun, hlock, map, hmap, rfl⟩
    · cases hstep
      exact h.commit hphase hun hmap (delete_missing (by simpa using hsome)) hmap (.inr ⟨rfl, rfl⟩)
  · next id e hphase hmap =>
    cases hstep
    exact h.fail hphase (h.phases n _ hphase).2
  · next op e hphase hmap =>
    cases hstep
    exact h.fail hphase (h.phases n _ hphase).2.1
  · cases hstep

theorem Consistent.of_step {a : StoreAction} (hsound : crates.Sound)
    (h : s.Consistent crates passphrase init) (hstep : s.step crates passphrase a = some t)
    (hjson : ∀ m ∈ t.written, crates.ReadsBack m) : t.Consistent crates passphrase init := by
  cases a with
  | call op =>
    cases hstep
    exact h.call op
  | lock n =>
    simp only [step] at hstep
    split at hstep
    · next id secret hphase hfree =>
      cases hstep
      exact h.advance (.locked (.put id secret)) hphase rfl (fun n' _ hlock => (by simp [hfree] at hlock))
        ⟨(h.phases n _ hphase).2, rfl⟩
    · next id hphase hfree =>
      cases hstep
      exact h.advance (.locked (.delete id)) hphase rfl (fun n' _ hlock => (by simp [hfree] at hlock))
        ⟨(h.phases n _ hphase).2, rfl⟩
    · cases hstep
  | read n => exact h.of_read hstep
  | encrypt n salt nonce =>
    simp only [step] at hstep
    split at hstep
    · next op map hphase =>
      obtain ⟨hun, hlock, hfresh⟩ := (h.phases n _ hphase).2
      split at hstep
      · next payload hpayload =>
        cases hstep
        have hbytes := decrypt_encrypt hsound (hjson map List.mem_cons_self) hpayload
        exact h.advance (.encrypted op map payload) hphase rfl (fun n' _ hlock' => ⟨hlock', rfl⟩) ⟨hun, hlock, hfresh, hbytes⟩
      · cases hstep
        exact h.fail hphase hun
    · cases hstep
  | writeTmp n =>
    simp only [step] at hstep
    split at hstep
    · next op map payload hphase =>
      cases hstep
      obtain ⟨hun, hlock, hfresh, hbytes⟩ := (h.phases n _ hphase).2
      refine h.advance (.staged op map) hphase rfl (fun n' hne hlock' => ?_)
        ⟨hun, hlock, hfresh, payload, rfl, hbytes⟩
      cases hlock.symm.trans hlock'
      exact absurd rfl hne
    · cases hstep
  | writeTmpFails n left =>
    simp only [step] at hstep
    split at hstep
    · next op map payload hphase =>
      cases hstep
      obtain ⟨hun, hlock, -⟩ := (h.phases n _ hphase).2
      exact h.leave hphase rfl (.inl hlock) (h.lin.abort hun)
    · cases hstep
  | rename n =>
    simp only [step] at hstep
    split at hstep
    · next op map payload hphase htmp =>
      cases hstep
      obtain ⟨hun, hlock, ⟨m, hm, hmap⟩, bytes, hbytes, hne, hdecrypt⟩ := (h.phases n _ hphase).2
      cases htmp.symm.trans hbytes
      have hread : readMap crates passphrase (some payload) = .ok map := by
        simp [readMap, hne, hdecrypt]
      exact h.commit hphase hun hm (view_modified hmap) hread (.inl hlock)
    · next op map hphase htmp =>
      cases hstep
      exact h.fail hphase (h.phases n _ hphase).2.1
    · cases hstep
  | ioFails n =>
    simp only [step] at hstep
    split at hstep
    · next hphase =>
      cases hstep
      exact h.fail hphase (h.phases n _ hphase).2
    · next hphase =>
      cases hstep
      exact h.fail hphase (h.phases n _ hphase).2.1
    · next hphase =>
      cases hstep
      exact h.fail hphase (h.phases n _ hphase).2.1
    · next hphase =>
      cases hstep
      exact h.fail hphase (h.phases n _ hphase).2.1
    · cases hstep
  | ret n =>
    simp only [step] at hstep
    split at hstep
    · next op res hphase =>
      cases hstep
      have hlog : ⟨n, op, res⟩ ∈ s.log := (h.phases n _ hphase).2
      exact h.leave hphase rfl (.inr rfl) (h.lin.ret hlog)
    · cases hstep

/-- A step that takes effect tells nobody, any other step leaves the file alone. -/
theorem step_frame {a : StoreAction} (hstep : s.step crates passphrase a = some t) :
    s.written ⊆ t.written ∧ (t.file = s.file ∧ t.log = s.log ∨ t.history = s.history) := by
  cases a with
  | encrypt n salt nonce =>
    simp only [step] at hstep
    split at hstep
    · split at hstep <;> cases hstep
      · exact ⟨List.subset_cons_self _ _, .inl ⟨rfl, rfl⟩⟩
      · exact ⟨List.Subset.refl _, .inl ⟨rfl, rfl⟩⟩
    · cases hstep
  | read n =>
    simp only [step, afterRead] at hstep
    split at hstep
    · cases hstep
      exact ⟨List.Subset.refl _, .inr rfl⟩
    · cases hstep
      exact ⟨List.Subset.refl _, .inl ⟨rfl, rfl⟩⟩
    · split_ifs at hstep <;> cases hstep
      · exact ⟨List.Subset.refl _, .inl ⟨rfl, rfl⟩⟩
      · exact ⟨List.Subset.refl _, .inr rfl⟩
    · cases hstep
      exact ⟨List.Subset.refl _, .inl ⟨rfl, rfl⟩⟩
    · cases hstep
      exact ⟨List.Subset.refl _, .inl ⟨rfl, rfl⟩⟩
    · cases hstep
  | call op =>
    cases hstep
    exact ⟨List.Subset.refl _, .inl ⟨rfl, rfl⟩⟩
  | rename n =>
    simp only [step] at hstep
    split at hstep <;> cases hstep
    · exact ⟨List.Subset.refl _, .inr rfl⟩
    · exact ⟨List.Subset.refl _, .inl ⟨rfl, rfl⟩⟩
  | lock n | writeTmp n | writeTmpFails n left | ioFails n | ret n =>
    simp only [step] at hstep
    split at hstep <;> cases hstep <;> exact ⟨List.Subset.refl _, .inl ⟨rfl, rfl⟩⟩

/-- The step at which an operation fails. -/
theorem file_of_abort {a : StoreAction} (hstep : s.step crates passphrase a = some t)
    (hbefore : .abort n ∉ s.history) (hafter : .abort n ∈ t.history) :
    t.file = s.file ∧ t.log = s.log := by
  rcases (step_frame hstep).2 with hsame | hhistory
  · exact hsame
  · exact absurd (hhistory ▸ hafter) hbefore

variable (crates passphrase) in
/-- For every interleaving of the operations on one store, whatever its file held before:
the calls that have returned can be put into one order that keeps the order of calls that do
not overlap, in which each has the result a map would give; the file holds what the calls of
that order have left in the map; and an operation that fails has no part in it. -/
theorem secret_file_is_linearizable (hsound : crates.Sound) {file : Option (List UInt8)}
    {m₀ : SecretMap} (hfile : readMap crates passphrase file = .ok m₀) {acts : List StoreAction}
    {s : FileStore} (hrun : run (step crates passphrase) (new file) acts = some s)
    (hjson : ∀ m ∈ s.written, crates.ReadsBack m) :
    Linearization secretsObject m₀.view s.history s.log ∧
    (∃ m, readMap crates passphrase s.file = .ok m ∧
      m.view = replay secretsObject m₀.view s.log) ∧
    ∀ a t n, s.step crates passphrase a = some t → .abort n ∉ s.history → .abort n ∈ t.history →
      t.file = s.file ∧ t.log = s.log := by
  have hinv : (∀ m ∈ s.written, crates.ReadsBack m) → s.Consistent crates passphrase m₀.view := by
    refine invariant (step crates passphrase)
      (I := fun s => (∀ m ∈ s.written, crates.ReadsBack m) → s.Consistent crates passphrase m₀.view)
      (fun _ => ?_) (fun s a t ih hstep hjson => ?_) hrun
    · exact ⟨.nil, ⟨m₀, hfile, rfl⟩, fun n p hp => (nomatch hp), fun n _ => ⟨rfl, fun e he => (nomatch he)⟩⟩
    · exact (ih fun m hm => hjson m ((step_frame hstep).1 hm)).of_step hsound hstep hjson
  have hconsistent := hinv hjson
  exact ⟨hconsistent.lin, hconsistent.contents,
    fun a t n hstep hbefore hafter => file_of_abort hstep hbefore hafter⟩

/-! A `put` with a `get` beside it and one after it, on crates that stand in for the real ones. -/

def owner : Uuid := .filled 1

def ownersMap : SecretMap := (∅ : SecretMap).insert owner "hunter2"

def ownersText : List UInt8 :=
  "\x7b\"11111111-1111-1111-1111-111111111111\":\"hunter2\"\x7d".toUTF8.toList

def plainCrates : StoreCrates where
  deriveKey _ _ := .ok (List.replicate 32 7)
  aeadEncrypt _ _ plaintext := .ok (plaintext ++ List.replicate 16 0)
  aeadDecrypt _ _ ciphertext := some (ciphertext.take (ciphertext.length - 16))
  toVec m := if m = ownersMap then .ok ownersText else .error "not in the sample"
  fromSlice text := if text = ownersText then .ok ownersMap else .error "not in the sample"

theorem plainCrates_sound : plainCrates.Sound := by
  constructor
  · intro key nonce plaintext ciphertext h
    cases h
    simp [plainCrates]
  · intro key nonce plaintext ciphertext h
    cases h
    simp

theorem plainCrates_readsBack : plainCrates.ReadsBack ownersMap := by
  intro text h
  have htext : text = ownersText := by
    simpa [plainCrates] using h.symm
  simp [plainCrates, htext]

def putAndGet : List StoreAction :=
  [.call (.put owner "hunter2"), .call (.get owner), .lock 0, .read 0, .read 1,
    .encrypt 0 ⟨List.replicate 16 3, rfl⟩ ⟨List.replicate 12 4, rfl⟩, .writeTmp 0, .rename 0, .ret 0,
    .ret 1, .call (.get owner), .read 2, .ret 2]

theorem put_and_get_are_linearizable :
    plainCrates.Sound ∧ readMap plainCrates "pass" none = .ok ∅ ∧
    ∃ s, run (step plainCrates "pass") (new none) putAndGet = some s ∧
      (∀ m ∈ s.written, plainCrates.ReadsBack m) ∧
      .ret 1 (.value none) ∈ s.history ∧ .ret 2 (.value (some "hunter2")) ∈ s.history ∧
      Linearization secretsObject (SecretMap.view ∅) s.history s.log := by
  have hrun : (run (step plainCrates "pass") (new none) putAndGet).any (fun s =>
      s.written = [ownersMap] && .ret 1 (.value none) ∈ s.history &&
        .ret 2 (.value (some "hunter2")) ∈ s.history) = true := by decide +kernel
  rw [Option.any_eq_true] at hrun
  obtain ⟨s, hs, hend⟩ := hrun
  simp only [Bool.and_eq_true, decide_eq_true_iff] at hend
  have hjson : ∀ m ∈ s.written, plainCrates.ReadsBack m := by
    rw [hend.1.1]
    intro m hm
    exact List.mem_singleton.mp hm ▸ plainCrates_readsBack
  exact ⟨plainCrates_sound, rfl, s, hs, hjson, hend.1.2, hend.2,
    (secret_file_is_linearizable plainCrates "pass" plainCrates_sound rfl hs hjson).1⟩

end FileStore

end Postblox.Secrets
