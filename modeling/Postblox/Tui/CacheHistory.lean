import Postblox.Lib.Recency
import Postblox.Tui.FolderCache

/-!
# The folder cache against its history

What a lookup finds is told by the operations so far: the last store of the key, if nothing
has invalidated or evicted it and it is not too old. Only a store of another key evicts, and
only when as many keys as the cache has places were stored or found more recently.
-/
namespace Postblox.Tui

open Lib

inductive CacheOp where
  | lookup (accountId folderId : Uuid) (now : Nat)
  | store (accountId folderId : Uuid) (snapshot : FolderSnapshot) (now : Nat)
  | invalidateFolder (accountId folderId : Uuid)
  | invalidateAccount (accountId : Uuid)
  | retainAccounts (accountIds : List Uuid)

namespace CacheOp

/-- When the operation reads the clock. -/
def time : CacheOp → Option Nat
  | lookup _ _ now => some now
  | store _ _ _ now => some now
  | invalidateFolder _ _ => none
  | invalidateAccount _ => none
  | retainAccounts _ => none

def Stores (op : CacheOp) (key : Uuid × Uuid) : Prop :=
  ∃ snapshot now, op = store key.1 key.2 snapshot now

def Invalidates : CacheOp → Uuid × Uuid → Prop
  | lookup _ _ _, _ => False
  | store _ _ _ _, _ => False
  | invalidateFolder accountId folderId, key => key = (accountId, folderId)
  | invalidateAccount accountId, key => key.1 = accountId
  | retainAccounts accountIds, key => key.1 ∉ accountIds

end CacheOp

namespace FolderMessageCache

def step (cache : FolderMessageCache) : CacheOp → FolderMessageCache
  | .lookup accountId folderId now => (cache.lookup accountId folderId now).2
  | .store accountId folderId snapshot now => cache.store accountId folderId snapshot now
  | .invalidateFolder accountId folderId => cache.invalidateFolder accountId folderId
  | .invalidateAccount accountId => cache.invalidateAccount accountId
  | .retainAccounts accountIds => cache.retainAccounts accountIds

/-- The cache after operations on a new one. -/
def after (capacity ttl : Nat) (ops : List CacheOp) : FolderMessageCache :=
  ops.foldl step ⟨capacity, ttl, []⟩

def Has (cache : FolderMessageCache) (key : Uuid × Uuid) : Prop :=
  ∃ entry ∈ cache.entries, entry.key = key

/-- The key an operation uses: the one it stores or finds. -/
def used (cache : FolderMessageCache) : CacheOp → Option (Uuid × Uuid)
  | .lookup accountId folderId now =>
    if (cache.lookup accountId folderId now).1.isSome then some (accountId, folderId) else none
  | .store accountId folderId _ _ => some (accountId, folderId)
  | .invalidateFolder _ _ => none
  | .invalidateAccount _ => none
  | .retainAccounts _ => none

/-- The keys used, oldest use first. -/
def uses (cache : FolderMessageCache) : List CacheOp → List (Uuid × Uuid)
  | [] => []
  | op :: rest => (cache.used op).toList ++ uses (cache.step op) rest

/-- The operation stores another key, and the entry of this one is gone. -/
def Evicts (cache : FolderMessageCache) (op : CacheOp) (key : Uuid × Uuid) : Prop :=
  cache.Has key ∧ ¬ (cache.step op).Has key ∧ ∃ other, other ≠ key ∧ op.Stores other

/-- The operations store the snapshot for the key at the time, and no later one stores,
invalidates or evicts the key. -/
def LastStored (capacity ttl : Nat) (ops : List CacheOp) (key : Uuid × Uuid)
    (snapshot : FolderSnapshot) (time : Nat) : Prop :=
  ∃ front back, ops = front ++ .store key.1 key.2 snapshot time :: back ∧
    ∀ pre op post, back = pre ++ op :: post →
      ¬ op.Stores key ∧ ¬ op.Invalidates key ∧
        ¬ (after capacity ttl (front ++ .store key.1 key.2 snapshot time :: pre)).Evicts op key

/-! ## One operation -/

section Step

variable {cache : FolderMessageCache} {op : CacheOp} {key : Uuid × Uuid}
  {log : List (Uuid × Uuid)}

theorem step_bounds (cache : FolderMessageCache) (op : CacheOp) :
    (cache.step op).capacity = cache.capacity ∧ (cache.step op).ttl = cache.ttl := by
  cases op with
  | lookup accountId folderId now => exact lookup_bounds now
  | store accountId folderId snapshot now => exact store_bounds snapshot now
  | invalidateFolder accountId folderId => exact ⟨rfl, rfl⟩
  | invalidateAccount accountId => exact ⟨rfl, rfl⟩
  | retainAccounts accountIds => exact ⟨rfl, rfl⟩

/-- What holds of the cache after every run: no key twice, no more entries than places, and
the entries in the order of their last use. -/
structure Ordered (cache : FolderMessageCache) (log : List (Uuid × Uuid)) : Prop where
  keyed : cache.Keyed
  bounded : cache.entries.length ≤ cache.capacity
  recent : InOrderOfUse log (cache.entries.map FolderCacheEntry.key)

theorem Ordered.sublist (h : cache.Ordered log) {entries : List FolderCacheEntry}
    (hsub : entries.Sublist cache.entries) : Ordered { cache with entries } log where
  keyed := h.keyed.sublist hsub
  bounded := hsub.length_le.trans h.bounded
  recent := h.recent.sublist (hsub.map _)

/-- The entry of the key is taken out or is not there, and one for the key goes to the back. -/
theorem Ordered.touch (h : cache.Ordered log) {entries : List FolderCacheEntry}
    (hsub : entries.Sublist (cache.others key.1 key.2)) {entry : FolderCacheEntry}
    (hkey : entry.key = key) (hroom : entries.length < cache.capacity) :
    Ordered { cache with entries := entries ++ [entry] } (log ++ [key]) where
  keyed := h.keyed.append_entry hsub hkey
  bounded := by
    show (entries ++ [entry]).length ≤ cache.capacity
    rw [List.length_append, List.length_singleton]
    omega
  recent := by
    show InOrderOfUse (log ++ [key]) ((entries ++ [entry]).map FolderCacheEntry.key)
    rw [List.map_append, List.map_singleton, hkey]
    apply (h.recent.sublist ((hsub.trans others_sublist).map _)).touch
    intro hmem
    obtain ⟨other, hother, heq⟩ := List.mem_map.mp hmem
    exact h.keyed.ne_of_mem_others other (hsub.subset hother) heq

theorem length_others {entry : FolderCacheEntry} (hentry : cache.entry key.1 key.2 = some entry) :
    (cache.others key.1 key.2).length + 1 = cache.entries.length := by
  have hmem := List.mem_of_find?_eq_some hentry
  have hpos := List.length_pos_of_mem hmem
  rw [others, List.length_eraseP_of_mem hmem (List.find?_some hentry)]
  omega

theorem lookup_of_none {now : Nat} (hentry : cache.entry key.1 key.2 = none) :
    cache.lookup key.1 key.2 now = (none, cache) := by
  rw [FolderMessageCache.lookup, hentry]

theorem lookup_of_old {entry : FolderCacheEntry} {now : Nat}
    (hentry : cache.entry key.1 key.2 = some entry) (hold : cache.ttl < now - entry.storedAt) :
    cache.lookup key.1 key.2 now =
      (none, { cache with entries := cache.others key.1 key.2 }) := by
  rw [FolderMessageCache.lookup, hentry]
  exact if_pos hold

theorem lookup_of_fresh {entry : FolderCacheEntry} {now : Nat}
    (hentry : cache.entry key.1 key.2 = some entry)
    (hfresh : ¬ cache.ttl < now - entry.storedAt) :
    cache.lookup key.1 key.2 now = (some entry.snapshot,
      { cache with entries := cache.others key.1 key.2 ++ [entry] }) := by
  rw [FolderMessageCache.lookup, hentry]
  exact if_neg hfresh

theorem key_of_entry {entry : FolderCacheEntry} (hentry : cache.entry key.1 key.2 = some entry) :
    entry.key = key := by
  simpa using List.find?_some hentry

theorem Ordered.lookup (h : cache.Ordered log) (key : Uuid × Uuid) (now : Nat) :
    (cache.lookup key.1 key.2 now).2.Ordered
      (log ++ (if (cache.lookup key.1 key.2 now).1.isSome then some key else none).toList) := by
  cases hentry : cache.entry key.1 key.2 with
  | none =>
    rw [lookup_of_none hentry]
    simpa using h
  | some entry =>
    by_cases hold : cache.ttl < now - entry.storedAt
    · rw [lookup_of_old hentry hold]
      simpa using h.sublist others_sublist
    · have hlength := length_others hentry
      have hbound := h.bounded
      rw [lookup_of_fresh hentry hold]
      exact h.touch (List.Sublist.refl _) (key_of_entry hentry) (by omega)

theorem Ordered.store (h : cache.Ordered log) (key : Uuid × Uuid) (snapshot : FolderSnapshot)
    (now : Nat) : (cache.store key.1 key.2 snapshot now).Ordered (log ++ [key]) := by
  unfold FolderMessageCache.store
  dsimp only
  split_ifs with hcapacity
  · have hbound := h.bounded
    have hnone : cache.entries = [] := List.length_eq_zero_iff.mp (by omega)
    have hothers : cache.others key.1 key.2 = [] := by rw [others, hnone]; rfl
    rw [hothers]
    exact ⟨List.nodup_nil, Nat.zero_le _, List.Pairwise.nil⟩
  · have hnew : FolderCacheEntry.key ⟨key.1, key.2, snapshot, now⟩ = key := rfl
    apply h.touch (List.drop_sublist _ _) hnew
    rw [List.length_drop]
    omega

theorem Ordered.step (h : cache.Ordered log) (op : CacheOp) :
    (cache.step op).Ordered (log ++ (cache.used op).toList) := by
  cases op with
  | lookup accountId folderId now => exact h.lookup (accountId, folderId) now
  | store accountId folderId snapshot now => exact h.store (accountId, folderId) snapshot now
  | invalidateFolder accountId folderId =>
    rw [used, Option.toList_none, List.append_nil]
    exact h.sublist List.filter_sublist
  | invalidateAccount accountId =>
    rw [used, Option.toList_none, List.append_nil]
    exact h.sublist List.filter_sublist
  | retainAccounts accountIds =>
    rw [used, Option.toList_none, List.append_nil]
    exact h.sublist List.filter_sublist

/-- A new entry is stored by the operation; an old one is not invalidated by it. -/
theorem mem_step {entry : FolderCacheEntry} (hkeyed : cache.Keyed)
    (h : entry ∈ (cache.step op).entries) :
    op = .store entry.accountId entry.folderId entry.snapshot entry.storedAt ∨
      entry ∈ cache.entries ∧ ¬ op.Stores entry.key ∧ ¬ op.Invalidates entry.key := by
  cases op with
  | lookup accountId folderId now =>
    refine .inr ⟨mem_lookup h, ?_, id⟩
    rintro ⟨snapshot, time, heq⟩
    cases heq
  | store accountId folderId snapshot now =>
    rcases hkeyed.mem_store h with rfl | ⟨hold, hkey⟩
    · exact .inl rfl
    · refine .inr ⟨hold, ?_, id⟩
      rintro ⟨snapshot', time, heq⟩
      injection heq with haccount hfolder
      exact hkey (by rw [haccount, hfolder])
  | invalidateFolder accountId folderId =>
    obtain ⟨hold, hother⟩ := List.mem_filter.mp h
    refine .inr ⟨hold, ?_, ?_⟩
    · rintro ⟨snapshot, time, heq⟩
      cases heq
    · intro hkey
      injection hkey with haccount hfolder
      simp [haccount, hfolder] at hother
  | invalidateAccount accountId =>
    obtain ⟨hold, hother⟩ := List.mem_filter.mp h
    refine .inr ⟨hold, ?_, ?_⟩
    · rintro ⟨snapshot, time, heq⟩
      cases heq
    · intro haccount
      exact of_decide_eq_true hother haccount
  | retainAccounts accountIds =>
    obtain ⟨hold, hkept⟩ := List.mem_filter.mp h
    refine .inr ⟨hold, ?_, ?_⟩
    · rintro ⟨snapshot, time, heq⟩
      cases heq
    · intro hdropped
      exact hdropped (of_decide_eq_true hkept)

/-- Of two entries with one key there is one. -/
theorem Keyed.eq_of_key (hkeyed : cache.Keyed) {first second : FolderCacheEntry}
    (hfirst : first ∈ cache.entries) (hsecond : second ∈ cache.entries)
    (hkey : first.key = second.key) : first = second :=
  List.inj_on_of_nodup_map hkeyed hfirst hsecond hkey

theorem Keyed.entry_eq (hkeyed : cache.Keyed) {entry : FolderCacheEntry}
    (hentry : entry ∈ cache.entries) (hkey : entry.key = key) :
    cache.entry key.1 key.2 = some entry := by
  cases hfound : cache.entry key.1 key.2 with
  | none =>
    have hnone := List.find?_eq_none.mp hfound entry hentry
    exact absurd hkey (by simpa using hnone)
  | some found =>
    have hsame := (key_of_entry hfound).trans hkey.symm
    rw [hkeyed.eq_of_key (List.mem_of_find?_eq_some hfound) hentry hsame]

theorem mem_others {entry : FolderCacheEntry} (hentry : entry ∈ cache.entries)
    (hkey : entry.key ≠ key) : entry ∈ cache.others key.1 key.2 :=
  (List.mem_eraseP_of_neg (by simpa using hkey)).mpr hentry

/-- An entry stays if nothing is stored for its key, invalidates or evicts it and it is not
looked up too late. -/
theorem step_keeps (hkeyed : cache.Keyed) {entry : FolderCacheEntry}
    (hentry : entry ∈ cache.entries) (hstores : ¬ op.Stores entry.key)
    (hvalid : ¬ op.Invalidates entry.key) (hevict : ¬ cache.Evicts op entry.key)
    (hfresh : ∀ now, op = .lookup entry.key.1 entry.key.2 now →
      now - entry.storedAt ≤ cache.ttl) :
    entry ∈ (cache.step op).entries := by
  cases op with
  | lookup accountId folderId now =>
    show entry ∈ (cache.lookup accountId folderId now).2.entries
    by_cases hkey : entry.key = (accountId, folderId)
    · have hold := hfresh now (by rw [hkey])
      rw [lookup_of_fresh (hkeyed.entry_eq hentry hkey) (by omega)]
      exact List.mem_append_right _ (List.mem_singleton_self entry)
    · have hother := mem_others hentry hkey
      cases hfound : cache.entry accountId folderId with
      | none =>
        rw [@lookup_of_none cache (accountId, folderId) now hfound]
        exact hentry
      | some found =>
        by_cases hold : cache.ttl < now - found.storedAt
        · rw [@lookup_of_old cache (accountId, folderId) found now hfound hold]
          exact hother
        · rw [@lookup_of_fresh cache (accountId, folderId) found now hfound hold]
          exact List.mem_append_left _ hother
  | store accountId folderId snapshot now =>
    have hne : (accountId, folderId) ≠ entry.key := by
      intro heq
      exact hstores ⟨snapshot, now, by rw [← heq]⟩
    -- not evicted, so an entry of the key is left, and it is the old one
    have hleft : (cache.step (.store accountId folderId snapshot now)).Has entry.key := by
      by_contra hgone
      exact hevict ⟨⟨entry, hentry, rfl⟩, hgone, (accountId, folderId), hne, snapshot, now, rfl⟩
    obtain ⟨left, hmem, hkey⟩ := hleft
    rcases hkeyed.mem_store hmem with rfl | ⟨hold, -⟩
    · exact absurd hkey hne
    · rwa [← hkeyed.eq_of_key hold hentry hkey]
  | invalidateFolder accountId folderId =>
    refine List.mem_filter.mpr ⟨hentry, decide_eq_true ?_⟩
    by_contra hboth
    rw [not_or, not_not, not_not] at hboth
    exact hvalid (Prod.ext hboth.1 hboth.2)
  | invalidateAccount accountId =>
    exact List.mem_filter.mpr ⟨hentry, decide_eq_true hvalid⟩
  | retainAccounts accountIds =>
    exact List.mem_filter.mpr ⟨hentry, decide_eq_true (not_not.mp hvalid)⟩

/-- An entry leaves for a store of another key when the cache is full of keys used after the
last use of its own. -/
theorem Ordered.evicted (h : cache.Ordered log) {entry : FolderCacheEntry}
    (hentry : entry ∈ cache.entries) {other : Uuid × Uuid} {snapshot : FolderSnapshot} {now : Nat}
    (hne : other ≠ entry.key)
    (hgone : ¬ (cache.step (.store other.1 other.2 snapshot now)).Has entry.key) :
    ∃ recent : List (Uuid × Uuid), recent.Nodup ∧ recent.length = cache.capacity ∧
      ∀ later ∈ recent, UsedAfter (log ++ [other]) entry.key later := by
  have hbound := h.bounded
  have hpos := List.length_pos_of_mem hentry
  have hothers := mem_others hentry hne.symm
  have horder : InOrderOfUse log ((cache.others other.1 other.2).map FolderCacheEntry.key) :=
    h.recent.sublist (others_sublist.map _)
  have hstored := h.store other snapshot now
  generalize hrest : cache.others other.1 other.2 = rest at hothers horder
  have hentries : (cache.store other.1 other.2 snapshot now).entries =
      rest.drop (rest.length + 1 - cache.capacity) ++ [⟨other.1, other.2, snapshot, now⟩] := by
    rw [FolderMessageCache.store, hrest]
    exact congrArg FolderMessageCache.entries (if_neg (by omega))
  generalize hcut : rest.length + 1 - cache.capacity = cut at hentries
  -- the entry is among those that make room
  have hfront : entry ∈ rest.take cut := by
    rw [← List.take_append_drop cut rest, List.mem_append] at hothers
    refine hothers.resolve_right fun hkept => hgone ⟨entry, ?_, rfl⟩
    show entry ∈ (cache.store other.1 other.2 snapshot now).entries
    rw [hentries]
    exact List.mem_append_left _ hkept
  refine ⟨(cache.store other.1 other.2 snapshot now).entries.map FolderCacheEntry.key,
    hstored.keyed, ?_, ?_⟩
  · have hlength := List.length_pos_of_mem hfront
    rw [List.length_take] at hlength
    rw [hentries, List.length_map, List.length_append, List.length_drop, List.length_singleton]
    omega
  · intro later hlater
    rw [hentries, List.map_append, List.mem_append] at hlater
    rcases hlater with hkept | hnew
    · rw [← List.take_append_drop cut rest, List.map_append, InOrderOfUse,
        List.pairwise_append] at horder
      have hafter := horder.2.2 entry.key (List.mem_map_of_mem hfront) later hkept
      exact hafter.snoc hne.symm
    · rw [List.mem_singleton.mp hnew]
      exact usedAfter_last log hne.symm

/-- Only a store for another key takes an entry out that is neither invalidated nor too old,
and then the cache is full of keys used after the last use of that one. -/
theorem Ordered.dropped (h : cache.Ordered log) (hhas : cache.Has key)
    (hgone : ¬ (cache.step op).Has key) :
    op.Invalidates key ∨
      (∃ entry now, cache.entry key.1 key.2 = some entry ∧ op = .lookup key.1 key.2 now ∧
        cache.ttl < now - entry.storedAt) ∨
      ∃ other, other ≠ key ∧ op.Stores other ∧
        ∃ recent : List (Uuid × Uuid), recent.Nodup ∧ recent.length = cache.capacity ∧
          ∀ later ∈ recent, UsedAfter (log ++ [other]) key later := by
  obtain ⟨entry, hentry, rfl⟩ := hhas
  by_cases hvalid : op.Invalidates entry.key
  · exact .inl hvalid
  by_cases hevict : cache.Evicts op entry.key
  · obtain ⟨-, -, other, hne, snapshot, now, rfl⟩ := hevict
    refine .inr (.inr ⟨other, hne, ⟨snapshot, now, rfl⟩, ?_⟩)
    exact h.evicted hentry hne hgone
  by_cases hstores : op.Stores entry.key
  · obtain ⟨snapshot, now, rfl⟩ := hstores
    have hcapacity : cache.capacity ≠ 0 := by
      have hbound := h.bounded
      have hpos := List.length_pos_of_mem hentry
      omega
    have hfound := @Keyed.entry_store cache entry.accountId entry.folderId h.keyed hcapacity
      snapshot now
    exact absurd ⟨_, List.mem_of_find?_eq_some hfound, rfl⟩ hgone
  · refine .inr (.inl ?_)
    by_contra hlate
    refine hgone ⟨entry, step_keeps h.keyed hentry hstores hvalid hevict ?_, rfl⟩
    intro now hop
    by_contra hold
    exact hlate ⟨entry, now, h.keyed.entry_eq hentry rfl, hop, by omega⟩

end Step

/-! ## Runs -/

section Runs

variable {capacity ttl : Nat} {ops : List CacheOp} {key : Uuid × Uuid}

theorem after_snoc (capacity ttl : Nat) (ops : List CacheOp) (op : CacheOp) :
    after capacity ttl (ops ++ [op]) = (after capacity ttl ops).step op := by
  rw [after, List.foldl_concat]
  rfl

theorem after_bounds (capacity ttl : Nat) (ops : List CacheOp) :
    (after capacity ttl ops).capacity = capacity ∧ (after capacity ttl ops).ttl = ttl := by
  induction ops using List.reverseRecOn with
  | nil => exact ⟨rfl, rfl⟩
  | append_singleton front op ih =>
    rw [after_snoc, (step_bounds _ op).1, (step_bounds _ op).2]
    exact ih

theorem uses_snoc (cache : FolderMessageCache) (ops : List CacheOp) (op : CacheOp) :
    uses cache (ops ++ [op]) = uses cache ops ++ ((ops.foldl step cache).used op).toList := by
  induction ops generalizing cache with
  | nil => simp [uses]
  | cons first rest ih => rw [List.cons_append, uses, uses, ih, List.append_assoc]; rfl

/-- The keys used by a new cache. -/
def history (capacity ttl : Nat) (ops : List CacheOp) : List (Uuid × Uuid) :=
  uses ⟨capacity, ttl, []⟩ ops

theorem ordered_after (capacity ttl : Nat) (ops : List CacheOp) :
    (after capacity ttl ops).Ordered (history capacity ttl ops) := by
  induction ops using List.reverseRecOn with
  | nil => exact ⟨List.nodup_nil, Nat.zero_le _, List.Pairwise.nil⟩
  | append_singleton front op ih =>
    rw [after_snoc, history, uses_snoc]
    exact ih.step op

theorem LastStored.snoc {snapshot : FolderSnapshot} {time : Nat} {op : CacheOp}
    (h : LastStored capacity ttl ops key snapshot time) (hstores : ¬ op.Stores key)
    (hvalid : ¬ op.Invalidates key) (hevict : ¬ (after capacity ttl ops).Evicts op key) :
    LastStored capacity ttl (ops ++ [op]) key snapshot time := by
  obtain ⟨front, back, rfl, hback⟩ := h
  refine ⟨front, back ++ [op], by simp, ?_⟩
  intro pre other post heq
  rcases List.eq_nil_or_concat post with rfl | ⟨post', last, rfl⟩
  · obtain ⟨rfl, hlast⟩ := List.append_inj' heq rfl
    obtain rfl := List.singleton_inj.mp hlast
    exact ⟨hstores, hvalid, hevict⟩
  · rw [List.concat_eq_append, ← List.cons_append, ← List.append_assoc] at heq
    exact hback pre other post' (List.append_inj' heq rfl).1

/-- Every entry is what was last stored for its key. -/
theorem lastStored_of_mem {entry : FolderCacheEntry} (h : entry ∈ (after capacity ttl ops).entries) :
    LastStored capacity ttl ops entry.key entry.snapshot entry.storedAt := by
  induction ops using List.reverseRecOn with
  | nil => cases h
  | append_singleton front op ih =>
    have hhas : ((after capacity ttl front).step op).Has entry.key := by
      rw [after_snoc] at h
      exact ⟨entry, h, rfl⟩
    rw [after_snoc] at h
    rcases mem_step (ordered_after capacity ttl front).keyed h with rfl | ⟨hold, hstores, hvalid⟩
    · refine ⟨front, [], rfl, ?_⟩
      intro pre op post heq
      cases pre <;> cases heq
    · exact (ih hold).snoc hstores hvalid fun hevict => hevict.2.1 hhas

/-- What was last stored is in the cache until it is too old. -/
theorem mem_of_lastStored {snapshot : FolderSnapshot} {time : Nat} (hcapacity : 0 < capacity)
    (h : LastStored capacity ttl ops key snapshot time)
    (hfresh : ∀ op ∈ ops, ∀ now, op.time = some now → now - time ≤ ttl) :
    ⟨key.1, key.2, snapshot, time⟩ ∈ (after capacity ttl ops).entries := by
  obtain ⟨front, back, rfl, hback⟩ := h
  induction back using List.reverseRecOn with
  | nil =>
    rw [after_snoc]
    apply List.mem_of_find?_eq_some (p := fun entry => entry.key = key)
    apply (ordered_after capacity ttl front).keyed.entry_store
    rw [(after_bounds capacity ttl front).1]
    omega
  | append_singleton pre op ih =>
    have hkept := ih (fun pre' other post heq => hback pre' other (post ++ [op]) (by simp [heq]))
      (fun other hother => hfresh other (by
        rw [← List.cons_append, ← List.append_assoc]
        exact List.mem_append_left _ hother))
    obtain ⟨hstores, hvalid, hevict⟩ := hback pre op [] rfl
    rw [← List.cons_append, ← List.append_assoc, after_snoc]
    apply step_keeps (ordered_after capacity ttl _).keyed hkept hstores hvalid hevict
    rintro now rfl
    rw [(after_bounds capacity ttl _).2]
    exact hfresh (.lookup key.1 key.2 now) (by simp [FolderCacheEntry.key]) now rfl

theorem lookup_iff {now : Nat} {snapshot : FolderSnapshot} :
    ((after capacity ttl ops).lookup key.1 key.2 now).1 = some snapshot ↔
      ∃ time, ⟨key.1, key.2, snapshot, time⟩ ∈ (after capacity ttl ops).entries ∧
        now - time ≤ ttl := by
  have hkeyed := (ordered_after capacity ttl ops).keyed
  have httl := (after_bounds capacity ttl ops).2
  constructor
  · intro h
    cases hentry : (after capacity ttl ops).entry key.1 key.2 with
    | none =>
      rw [lookup_of_none hentry] at h
      cases h
    | some entry =>
      by_cases hold : (after capacity ttl ops).ttl < now - entry.storedAt
      · rw [lookup_of_old hentry hold] at h
        cases h
      · rw [lookup_of_fresh hentry hold] at h
        obtain rfl := Option.some.inj h
        obtain rfl := key_of_entry hentry
        exact ⟨entry.storedAt, List.mem_of_find?_eq_some hentry, by omega⟩
  · rintro ⟨time, hmem, hfresh⟩
    have hentry := @Keyed.entry_eq _ key hkeyed _ hmem rfl
    rw [lookup_of_fresh hentry (by rw [httl]; exact Nat.not_lt.mpr hfresh)]

/-- A bounded map whose entries expire. Whatever the operations were, there are at most
`capacity` entries and no key twice. At times that do not go back, a lookup finds the
snapshot last stored for the key if that was at most `ttl` ago and the key was neither
invalidated nor evicted since. An entry that is neither invalidated nor too old when it is
looked up leaves only for a store of another key, when `capacity` keys were used after it. -/
theorem folder_cache_follows_history (capacity ttl : Nat) (ops : List CacheOp) :
    (after capacity ttl ops).entries.length ≤ capacity ∧
    ((after capacity ttl ops).entries.map FolderCacheEntry.key).Nodup ∧
    (∀ (key : Uuid × Uuid) (now : Nat) (snapshot : FolderSnapshot),
      ((ops ++ [CacheOp.lookup key.1 key.2 now]).filterMap CacheOp.time).Pairwise (· ≤ ·) →
      (((after capacity ttl ops).lookup key.1 key.2 now).1 = some snapshot ↔
        0 < capacity ∧
          ∃ time, LastStored capacity ttl ops key snapshot time ∧ now - time ≤ ttl)) ∧
    ∀ (op : CacheOp) (key : Uuid × Uuid), (after capacity ttl ops).Has key →
      ¬ (after capacity ttl (ops ++ [op])).Has key →
      op.Invalidates key ∨
      (∃ now snapshot time, op = .lookup key.1 key.2 now ∧
        LastStored capacity ttl ops key snapshot time ∧ ttl < now - time) ∨
      ∃ other, other ≠ key ∧ op.Stores other ∧
        ∃ recent : List (Uuid × Uuid), recent.Nodup ∧ recent.length = capacity ∧
          ∀ later ∈ recent, UsedAfter (history capacity ttl (ops ++ [op])) key later := by
  have hordered := ordered_after capacity ttl ops
  have hcapacity := (after_bounds capacity ttl ops).1
  have httl := (after_bounds capacity ttl ops).2
  refine ⟨hordered.bounded.trans hcapacity.le, hordered.keyed, ?_, ?_⟩
  · intro key now snapshot htimes
    rw [lookup_iff]
    constructor
    · rintro ⟨time, hmem, hfresh⟩
      have hpos := List.length_pos_of_mem hmem
      have hbound := hordered.bounded
      exact ⟨by omega, time, lastStored_of_mem hmem, hfresh⟩
    · rintro ⟨hpos, time, hstored, hfresh⟩
      refine ⟨time, mem_of_lastStored hpos hstored ?_, hfresh⟩
      intro op hop earlier hearlier
      rw [List.filterMap_append, List.pairwise_append] at htimes
      have hle := htimes.2.2 earlier (List.mem_filterMap.mpr ⟨op, hop, hearlier⟩) now
        (List.mem_singleton_self now)
      omega
  · intro op key hhas hgone
    rw [after_snoc] at hgone
    rcases hordered.dropped hhas hgone with hvalid | hlate | hevict
    · exact .inl hvalid
    · obtain ⟨entry, now, hentry, hop, hold⟩ := hlate
      obtain rfl := key_of_entry hentry
      rw [httl] at hold
      have hstored := lastStored_of_mem (List.mem_of_find?_eq_some hentry)
      exact .inr (.inl ⟨now, entry.snapshot, entry.storedAt, hop, hstored, hold⟩)
    · obtain ⟨other, hne, ⟨snapshot, now, rfl⟩, recent, hnodup, hlength, hafter⟩ := hevict
      refine .inr (.inr ⟨other, hne, ⟨snapshot, now, rfl⟩, recent, hnodup,
        hlength.trans hcapacity, ?_⟩)
      rw [history, uses_snoc]
      exact hafter

/-- A folder of the first account, and two more that push the second one out. -/
def crowdedFolders : List CacheOp :=
  [.store (.filled 1) (.filled 1) ⟨[], none, none⟩ 0,
    .store (.filled 1) (.filled 2) ⟨[], none, none⟩ 10,
    .lookup (.filled 1) (.filled 1) 20,
    .store (.filled 2) (.filled 3) ⟨[], none, none⟩ 30]

theorem crowded_folder_is_found :
    ((after 2 60 crowdedFolders).lookup (.filled 1) (.filled 1) 60).1 =
        some ⟨[], none, none⟩ ↔
      0 < 2 ∧ ∃ time,
        LastStored 2 60 crowdedFolders (.filled 1, .filled 1) ⟨[], none, none⟩ time ∧
          60 - time ≤ 60 :=
  (folder_cache_follows_history 2 60 crowdedFolders).2.2.1 (.filled 1, .filled 1) 60
    ⟨[], none, none⟩ (by decide)

example : ((after 2 60 crowdedFolders).lookup (.filled 1) (.filled 1) 61).1 = none := by decide

end Runs

end FolderMessageCache

end Postblox.Tui
