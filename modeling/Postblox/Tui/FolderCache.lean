import Postblox.Tui.Conversations

/-!
# The cache of folder listings

A bounded queue of listings with the time each was stored. A hit moves the entry to the
back and keeps its time; an entry that is too old is dropped when it is looked up. Times
are nanoseconds of the monotonic clock.
-/
namespace Postblox.Tui

/-- Folder rows and the cursor to restore. -/
structure FolderSnapshot where
  folderMessages : List MessageItem
  selectedThreadKey : Option Uuid
  selectedMessageId : Option Uuid
  deriving DecidableEq

structure FolderCacheEntry where
  accountId : Uuid
  folderId : Uuid
  snapshot : FolderSnapshot
  storedAt : Nat
  deriving DecidableEq

structure FolderMessageCache where
  capacity : Nat
  ttl : Nat
  entries : List FolderCacheEntry
  deriving DecidableEq

def folderCacheCapacity : Nat := 6

/-- Sixty seconds. -/
def folderCacheTtl : Nat := 60000000000

def FolderCacheEntry.key (entry : FolderCacheEntry) : Uuid × Uuid :=
  (entry.accountId, entry.folderId)

namespace FolderMessageCache

/-- `FolderMessageCache::default`. -/
def empty : FolderMessageCache := ⟨folderCacheCapacity, folderCacheTtl, []⟩

variable (cache : FolderMessageCache)

/-- The entry `entry_index` finds. -/
def entry (accountId folderId : Uuid) : Option FolderCacheEntry :=
  cache.entries.find? fun entry => entry.key = (accountId, folderId)

/-- The entries after `remove` at that index. -/
def others (accountId folderId : Uuid) : List FolderCacheEntry :=
  cache.entries.eraseP fun entry => entry.key = (accountId, folderId)

def lookup (accountId folderId : Uuid) (now : Nat) :
    Option FolderSnapshot × FolderMessageCache :=
  match cache.entry accountId folderId with
  | none => (none, cache)
  | some entry =>
    let entries := cache.others accountId folderId
    if cache.ttl < now - entry.storedAt then (none, { cache with entries })
    else (some entry.snapshot, { cache with entries := entries ++ [entry] })

def store (accountId folderId : Uuid) (snapshot : FolderSnapshot) (now : Nat) :
    FolderMessageCache :=
  let entries := cache.others accountId folderId
  if cache.capacity = 0 then { cache with entries }
  else
    -- the oldest entries make room for one
    { cache with entries := entries.drop (entries.length + 1 - cache.capacity) ++
        [⟨accountId, folderId, snapshot, now⟩] }

def invalidateFolder (accountId folderId : Uuid) : FolderMessageCache :=
  { cache with entries :=
      cache.entries.filter fun entry => entry.accountId ≠ accountId ∨ entry.folderId ≠ folderId }

def invalidateAccount (accountId : Uuid) : FolderMessageCache :=
  { cache with entries := cache.entries.filter fun entry => entry.accountId ≠ accountId }

def retainAccounts (accountIds : List Uuid) : FolderMessageCache :=
  { cache with entries := cache.entries.filter fun entry => entry.accountId ∈ accountIds }

/-! ## What is in the cache -/

/-- At most one entry for a folder. -/
def Keyed : Prop := (cache.entries.map FolderCacheEntry.key).Nodup

variable {cache} {accountId folderId : Uuid}

theorem Keyed.ne_of_mem_others (h : cache.Keyed) :
    ∀ entry ∈ cache.others accountId folderId, entry.key ≠ (accountId, folderId) := by
  unfold Keyed at h
  unfold others
  generalize cache.entries = entries at h ⊢
  induction entries with
  | nil => intro entry hentry; cases hentry
  | cons first rest ih =>
    rw [List.map_cons, List.nodup_cons] at h
    intro entry hentry
    by_cases hkey : first.key = (accountId, folderId)
    · rw [List.eraseP_cons_of_pos (by simpa using hkey)] at hentry
      intro heq
      exact h.1 (hkey ▸ heq ▸ List.mem_map_of_mem hentry)
    · rw [List.eraseP_cons_of_neg (by simpa using hkey)] at hentry
      rcases List.mem_cons.mp hentry with rfl | hrest
      · exact hkey
      · exact ih h.2 entry hrest

theorem others_sublist : (cache.others accountId folderId).Sublist cache.entries :=
  List.eraseP_sublist

theorem Keyed.sublist (h : cache.Keyed) {entries : List FolderCacheEntry}
    (hsub : entries.Sublist cache.entries) : Keyed { cache with entries } :=
  List.Nodup.sublist (hsub.map _) h

theorem Keyed.append_entry (h : cache.Keyed) {entries : List FolderCacheEntry}
    (hsub : entries.Sublist (cache.others accountId folderId)) {entry : FolderCacheEntry}
    (hkey : entry.key = (accountId, folderId)) :
    Keyed { cache with entries := entries ++ [entry] } := by
  unfold Keyed
  rw [List.map_append, List.map_singleton]
  apply List.Nodup.append ((h.sublist (hsub.trans others_sublist))) (List.nodup_singleton _)
  rw [List.disjoint_singleton]
  intro hmem
  obtain ⟨other, hother, heq⟩ := List.mem_map.mp hmem
  exact h.ne_of_mem_others other (hsub.subset hother) (heq.trans hkey)

theorem Keyed.lookup (h : cache.Keyed) (now : Nat) : (cache.lookup accountId folderId now).2.Keyed := by
  unfold FolderMessageCache.lookup
  cases hentry : cache.entry accountId folderId with
  | none => exact h
  | some entry =>
    have hkey : entry.key = (accountId, folderId) := by simpa using List.find?_some hentry
    dsimp only
    split_ifs
    · exact h.sublist others_sublist
    · exact h.append_entry (List.Sublist.refl _) hkey

theorem Keyed.store (h : cache.Keyed) (snapshot : FolderSnapshot) (now : Nat) :
    (cache.store accountId folderId snapshot now).Keyed := by
  unfold FolderMessageCache.store
  dsimp only
  split_ifs
  · exact h.sublist others_sublist
  · exact h.append_entry (List.drop_sublist _ _) rfl

theorem Keyed.invalidateFolder (h : cache.Keyed) :
    (cache.invalidateFolder accountId folderId).Keyed := h.sublist List.filter_sublist

theorem Keyed.invalidateAccount (h : cache.Keyed) : (cache.invalidateAccount accountId).Keyed :=
  h.sublist List.filter_sublist

/-- A hit is the snapshot of an entry. -/
theorem lookup_hit {now : Nat} {snapshot : FolderSnapshot}
    (h : (cache.lookup accountId folderId now).1 = some snapshot) :
    ∃ entry ∈ cache.entries, entry.key = (accountId, folderId) ∧ entry.snapshot = snapshot := by
  unfold FolderMessageCache.lookup at h
  cases hentry : cache.entry accountId folderId with
  | none => rw [hentry] at h; cases h
  | some entry =>
    rw [hentry] at h
    dsimp only at h
    split_ifs at h with hold
    exact ⟨entry, List.mem_of_find?_eq_some hentry, by simpa using List.find?_some hentry,
      Option.some.inj h⟩

/-- A lookup adds nothing. -/
theorem mem_lookup {now : Nat} {entry : FolderCacheEntry}
    (h : entry ∈ (cache.lookup accountId folderId now).2.entries) : entry ∈ cache.entries := by
  unfold FolderMessageCache.lookup at h
  cases hentry : cache.entry accountId folderId with
  | none => rwa [hentry] at h
  | some found =>
    rw [hentry] at h
    dsimp only at h
    split_ifs at h with hold
    · exact others_sublist.subset h
    · rcases List.mem_append.mp h with hother | hlast
      · exact others_sublist.subset hother
      · rw [List.mem_singleton.mp hlast]
        exact List.mem_of_find?_eq_some hentry

/-- After a store the key has the new snapshot or none; the other entries are old ones. -/
theorem Keyed.mem_store (hkeyed : cache.Keyed) {snapshot : FolderSnapshot} {now : Nat}
    {entry : FolderCacheEntry} (h : entry ∈ (cache.store accountId folderId snapshot now).entries) :
    entry = ⟨accountId, folderId, snapshot, now⟩ ∨
      entry ∈ cache.entries ∧ entry.key ≠ (accountId, folderId) := by
  unfold FolderMessageCache.store at h
  dsimp only at h
  split_ifs at h
  · exact .inr ⟨others_sublist.subset h, hkeyed.ne_of_mem_others entry h⟩
  · rcases List.mem_append.mp h with hother | hlast
    · have hold := List.drop_subset _ _ hother
      exact .inr ⟨others_sublist.subset hold, hkeyed.ne_of_mem_others entry hold⟩
    · exact .inl (List.mem_singleton.mp hlast)

/-- What is stored is found. -/
theorem Keyed.entry_store (hkeyed : cache.Keyed) (hcapacity : cache.capacity ≠ 0)
    (snapshot : FolderSnapshot) (now : Nat) :
    (cache.store accountId folderId snapshot now).entry accountId folderId =
      some ⟨accountId, folderId, snapshot, now⟩ := by
  have hothers := @Keyed.ne_of_mem_others cache accountId folderId hkeyed
  unfold FolderMessageCache.store FolderMessageCache.entry
  dsimp only
  rw [if_neg hcapacity, List.find?_append, List.find?_eq_none.mpr, Option.none_or]
  · simp [FolderCacheEntry.key]
  · intro entry hentry
    simpa using hothers entry (List.drop_subset _ _ hentry)

/-- An entry that is young enough is served and found again. -/
theorem Keyed.lookup_fresh (hkeyed : cache.Keyed) {entry : FolderCacheEntry} {now : Nat}
    (hentry : cache.entry accountId folderId = some entry)
    (hfresh : now - entry.storedAt ≤ cache.ttl) :
    (cache.lookup accountId folderId now).1 = some entry.snapshot ∧
      (cache.lookup accountId folderId now).2.entry accountId folderId = some entry := by
  have hkey : entry.key = (accountId, folderId) := by simpa using List.find?_some hentry
  have hothers := @Keyed.ne_of_mem_others cache accountId folderId hkeyed
  unfold FolderMessageCache.lookup
  rw [hentry]
  dsimp only
  rw [if_neg (by omega)]
  refine ⟨rfl, ?_⟩
  unfold FolderMessageCache.entry
  rw [List.find?_append, List.find?_eq_none.mpr, Option.none_or]
  · simp [hkey]
  · intro other hother
    simpa using hothers other hother

/-- Without an entry that is young enough there is nothing to serve. -/
theorem lookup_stale {now : Nat} (hstale : ∀ entry, cache.entry accountId folderId = some entry →
    cache.ttl < now - entry.storedAt) : (cache.lookup accountId folderId now).1 = none := by
  unfold FolderMessageCache.lookup
  cases hentry : cache.entry accountId folderId with
  | none => rfl
  | some entry =>
    dsimp only
    rw [if_pos (hstale entry hentry)]

theorem lookup_bounds (now : Nat) :
    (cache.lookup accountId folderId now).2.capacity = cache.capacity ∧
      (cache.lookup accountId folderId now).2.ttl = cache.ttl := by
  unfold FolderMessageCache.lookup
  cases cache.entry accountId folderId with
  | none => exact ⟨rfl, rfl⟩
  | some entry =>
    dsimp only
    split_ifs
    · exact ⟨rfl, rfl⟩
    · exact ⟨rfl, rfl⟩

theorem store_bounds (snapshot : FolderSnapshot) (now : Nat) :
    (cache.store accountId folderId snapshot now).capacity = cache.capacity ∧
      (cache.store accountId folderId snapshot now).ttl = cache.ttl := by
  unfold FolderMessageCache.store
  dsimp only
  split_ifs
  · exact ⟨rfl, rfl⟩
  · exact ⟨rfl, rfl⟩

theorem mem_invalidateFolder {entry : FolderCacheEntry} :
    entry ∈ (cache.invalidateFolder accountId folderId).entries ↔
      entry ∈ cache.entries ∧ (entry.accountId ≠ accountId ∨ entry.folderId ≠ folderId) := by
  rw [invalidateFolder, List.mem_filter, decide_eq_true_eq]

theorem mem_invalidateAccount {entry : FolderCacheEntry} :
    entry ∈ (cache.invalidateAccount accountId).entries ↔
      entry ∈ cache.entries ∧ entry.accountId ≠ accountId := by
  rw [invalidateAccount, List.mem_filter, decide_eq_true_eq]

end FolderMessageCache

end Postblox.Tui
