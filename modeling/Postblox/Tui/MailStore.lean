import Postblox.Tui.Refresh
import Postblox.Lib.Ranking

/-!
# What the daemon lists

The messages of the daemon with the folders they are in, as a client sees them: the listing of
a folder is its newest messages up to a limit. Each write changes the listings of the folders
it touches and of no other.
-/
namespace Postblox.Tui

open Lib

/-- A message with the row a client makes of it. -/
structure StoredMessage where
  item : MessageItem
  folderId : Uuid
  internalDate : Int
  deriving DecidableEq

/-- `id` is the primary key; a folder belongs to an account. -/
structure MailStore where
  owner : Uuid → Uuid
  messages : List StoredMessage
  distinct : (messages.map (·.item.id)).Nodup

/-- What is compared of a row: the id and the flags. -/
def MessageItem.shown (m : MessageItem) : Uuid × List String := (m.id, m.flags)

/-- The limit the client asks for. -/
def listedRows : Nat := 100

def StoredMessage.withFlags (id : Uuid) (flags : List String) (m : StoredMessage) : StoredMessage :=
  if m.item.id = id then { m with item := { m.item with flags } } else m

def StoredMessage.withFolder (id folder : Uuid) (m : StoredMessage) : StoredMessage :=
  if m.item.id = id then { m with folderId := folder } else m

namespace MailStore

variable (store : MailStore)

def get (id : Uuid) : Option StoredMessage := store.messages.find? fun m => m.item.id = id

/-- The folder a message is in. -/
def folderOf (id : Uuid) : Option Uuid := (store.get id).map (·.folderId)

/-- The messages of a folder, newest first. -/
def folderRows (folder : Uuid) : List StoredMessage :=
  sortByKey (fun m : StoredMessage => OrderDual.toDual m.internalDate)
    (store.messages.filter fun m => m.folderId = folder)

/-- `message.list_by_folder`. -/
def listByFolder (folder : Uuid) : List MessageItem :=
  ((store.folderRows folder).take listedRows).map (·.item)

def shows (folder : Uuid) : List (Uuid × List String) :=
  (store.listByFolder folder).map MessageItem.shown

theorem item_withFlags (id : Uuid) (flags : List String) (m : StoredMessage) :
    (m.withFlags id flags).item.id = m.item.id ∧ (m.withFlags id flags).folderId = m.folderId ∧
      (m.withFlags id flags).internalDate = m.internalDate := by
  unfold StoredMessage.withFlags
  split_ifs
  · exact ⟨rfl, rfl, rfl⟩
  · exact ⟨rfl, rfl, rfl⟩

theorem item_withFolder (id folder : Uuid) (m : StoredMessage) :
    (m.withFolder id folder).item = m.item := by
  unfold StoredMessage.withFolder
  split_ifs
  · rfl
  · rfl

/-- `messages::set_flags`. -/
def setFlags (id : Uuid) (flags : List String) : MailStore where
  owner := store.owner
  messages := store.messages.map (StoredMessage.withFlags id flags)
  distinct := by
    have hids : (fun m : StoredMessage => m.item.id) ∘ StoredMessage.withFlags id flags =
        fun m => m.item.id := funext fun m => (item_withFlags id flags m).1
    rw [List.map_map, hids]
    exact store.distinct

/-- `messages::set_folder`. -/
def setFolder (id folder : Uuid) : MailStore where
  owner := store.owner
  messages := store.messages.map (StoredMessage.withFolder id folder)
  distinct := by
    have hids : (fun m : StoredMessage => m.item.id) ∘ StoredMessage.withFolder id folder =
        fun m => m.item.id := funext fun m => congrArg MessageItem.id (item_withFolder id folder m)
    rw [List.map_map, hids]
    exact store.distinct

/-- A folder with these messages in place of its own, if their ids are free. -/
def withRows (folder : Uuid) (rows : List StoredMessage) : Option MailStore :=
  let messages := store.messages.filter (fun m => m.folderId ≠ folder) ++
    rows.map fun m => { m with folderId := folder }
  if distinct : (messages.map (·.item.id)).Nodup then some ⟨store.owner, messages, distinct⟩ else none

/-! ## Where a message is listed -/

variable {store}

theorem get_of_mem {m : StoredMessage} (hm : m ∈ store.messages) :
    store.get m.item.id = some m := by
  have hdistinct := store.distinct
  rw [get]
  cases hfound : store.messages.find? fun other => other.item.id = m.item.id with
  | none =>
    have hnot := List.find?_eq_none.mp hfound m hm
    simp at hnot
  | some other =>
    have hid : other.item.id = m.item.id := by simpa using List.find?_some hfound
    have hother := List.mem_of_find?_eq_some hfound
    rw [List.inj_on_of_nodup_map hdistinct hother hm hid]

theorem mem_folderRows {folder : Uuid} {m : StoredMessage} :
    m ∈ store.folderRows folder ↔ m ∈ store.messages ∧ m.folderId = folder := by
  rw [folderRows, (sortByKey_perm _ _).mem_iff, List.mem_filter, decide_eq_true_eq]

/-- A listed row is that of the message, and the message is in the folder. -/
theorem of_mem_shows {folder : Uuid} {p : Uuid × List String} (h : p ∈ store.shows folder) :
    ∃ m, store.get p.1 = some m ∧ m.folderId = folder ∧ m.item.flags = p.2 := by
  obtain ⟨row, hrow, rfl⟩ := List.mem_map.mp h
  obtain ⟨m, hm, rfl⟩ := List.mem_map.mp hrow
  obtain ⟨hstored, hfolder⟩ := mem_folderRows.mp (List.mem_of_mem_take hm)
  exact ⟨m, get_of_mem hstored, hfolder, rfl⟩

theorem folderOf_of_mem_shows {folder : Uuid} {p : Uuid × List String}
    (h : p ∈ store.shows folder) : store.folderOf p.1 = some folder := by
  obtain ⟨m, hget, hfolder, -⟩ := of_mem_shows h
  rw [folderOf, hget, Option.map_some, hfolder]

theorem distinct_shows (folder : Uuid) : ((store.shows folder).map Prod.fst).Nodup := by
  have hrows : ((store.folderRows folder).map (·.item.id)).Nodup := by
    have hperm := (sortByKey_perm (fun m : StoredMessage => OrderDual.toDual m.internalDate)
      (store.messages.filter fun m => m.folderId = folder)).map (·.item.id)
    exact hperm.nodup_iff.mpr (store.distinct.sublist (List.filter_sublist.map _))
  rw [shows, listByFolder, List.map_map, List.map_map]
  exact hrows.sublist ((List.take_sublist _ _).map _)

/-! ## What a write changes -/

/-- The row of a message gets the flags. -/
def flagRow (id : Uuid) (flags : List String) (p : Uuid × List String) : Uuid × List String :=
  if p.1 = id then (p.1, flags) else p

theorem shown_withFlags (id : Uuid) (flags : List String) (m : StoredMessage) :
    (m.withFlags id flags).item.shown = flagRow id flags m.item.shown := by
  unfold StoredMessage.withFlags flagRow MessageItem.shown
  split_ifs
  · rfl
  · rfl

theorem shows_setFlags (id : Uuid) (flags : List String) (folder : Uuid) :
    (store.setFlags id flags).shows folder = (store.shows folder).map (flagRow id flags) := by
  have hrows : (store.setFlags id flags).folderRows folder =
      (store.folderRows folder).map (StoredMessage.withFlags id flags) := by
    have hfolder : (fun m : StoredMessage => decide (m.folderId = folder)) ∘
        StoredMessage.withFlags id flags = fun m => decide (m.folderId = folder) := by
      funext m
      show decide ((m.withFlags id flags).folderId = folder) = _
      rw [(item_withFlags id flags m).2.1]
    have hdate : (fun m => OrderDual.toDual (StoredMessage.withFlags id flags m).internalDate) =
        fun m : StoredMessage => OrderDual.toDual m.internalDate := by
      funext m
      rw [(item_withFlags id flags m).2.2]
    rw [folderRows, setFlags, List.filter_map, hfolder, sortByKey_map, hdate, folderRows]
  rw [shows, listByFolder, hrows, ← List.map_take, List.map_map, List.map_map, shows, listByFolder,
    List.map_map, List.map_map]
  exact List.map_congr_left fun m _ => shown_withFlags id flags m

/-- A listing without the message stays. -/
theorem map_flagRow_of_not_mem {id : Uuid} {flags : List String}
    {rows : List (Uuid × List String)} (h : ∀ p ∈ rows, p.1 ≠ id) :
    rows.map (flagRow id flags) = rows := by
  conv_rhs => rw [← List.map_id rows]
  exact List.map_congr_left fun p hp => if_neg (h p hp)

theorem shows_setFlags_elsewhere {id folder : Uuid} (flags : List String)
    (h : store.folderOf id ≠ some folder) :
    (store.setFlags id flags).shows folder = store.shows folder := by
  rw [shows_setFlags]
  apply map_flagRow_of_not_mem
  rintro p hp rfl
  exact h (folderOf_of_mem_shows hp)

theorem folderRows_setFolder {id folder target : Uuid} (h : folder ≠ target) :
    (store.setFolder id target).folderRows folder =
      (store.folderRows folder).filter fun m => m.item.id ≠ id := by
  have hfilter : ∀ l : List StoredMessage,
      (l.map (StoredMessage.withFolder id target)).filter (fun m => m.folderId = folder) =
        (l.filter fun m => m.folderId = folder).filter fun m => m.item.id ≠ id := by
    intro l
    induction l with
    | nil => rfl
    | cons m rest ih =>
      rw [List.map_cons, List.filter_cons, ih, List.filter_cons]
      by_cases hid : m.item.id = id
      · have hmoved : m.withFolder id target = { m with folderId := target } := if_pos hid
        rw [hmoved, if_neg (by simpa using h.symm)]
        split_ifs
        · rw [List.filter_cons_of_neg (by simpa using hid)]
        · rfl
      · have hkept : m.withFolder id target = m := if_neg hid
        rw [hkept]
        split_ifs
        · rw [List.filter_cons_of_pos (by simpa using hid)]
        · rfl
  rw [folderRows, setFolder, hfilter, sortByKey_filter, folderRows]

/-- A folder that is not cut off loses the row. -/
theorem shows_setFolder_source {id folder target : Uuid} (h : folder ≠ target)
    (hsmall : (store.folderRows folder).length ≤ listedRows) :
    (store.setFolder id target).shows folder = (store.shows folder).filter fun p => p.1 ≠ id := by
  have hrows := @folderRows_setFolder store id folder target h
  have hless : ((store.folderRows folder).filter fun m => m.item.id ≠ id).length ≤ listedRows :=
    (List.length_filter_le _ _).trans hsmall
  rw [shows, listByFolder, hrows, List.take_of_length_le hless, shows, listByFolder,
    List.take_of_length_le hsmall, List.map_map, List.map_map, List.filter_map]
  rfl

theorem shows_setFolder_elsewhere {id folder target : Uuid} (h : folder ≠ target)
    (hfolder : store.folderOf id ≠ some folder) :
    (store.setFolder id target).shows folder = store.shows folder := by
  have hrows := @folderRows_setFolder store id folder target h
  have hnone : ((store.folderRows folder).filter fun m => m.item.id ≠ id) =
      store.folderRows folder := by
    rw [List.filter_eq_self]
    intro m hm
    obtain ⟨hstored, rfl⟩ := mem_folderRows.mp hm
    have hne : m.item.id ≠ id := by
      rintro rfl
      exact hfolder (by rw [folderOf, get_of_mem hstored, Option.map_some])
    exact decide_eq_true hne
  rw [shows, listByFolder, hrows, hnone, shows, listByFolder]

/-- A message that is in the folder already stays, and so do all if there is no such message. -/
theorem setFolder_self {id target : Uuid}
    (h : ∀ source, store.folderOf id = some source → source = target) :
    store.setFolder id target = store := by
  have hsame : store.messages.map (StoredMessage.withFolder id target) = store.messages := by
    conv_rhs => rw [← List.map_id store.messages]
    refine List.map_congr_left fun m hm => ?_
    unfold StoredMessage.withFolder
    split_ifs with hid
    · have hfolder : store.folderOf id = some m.folderId := by
        rw [folderOf, ← hid, get_of_mem hm, Option.map_some]
      rw [← h m.folderId hfolder]
      rfl
    · rfl
  obtain ⟨owner, messages, distinct⟩ := store
  simp only [setFolder, MailStore.mk.injEq, true_and]
  exact hsame

theorem setFlags_self {id : Uuid} {flags : List String}
    (h : ∀ m, store.get id = some m → m.item.flags = flags) : store.setFlags id flags = store := by
  have hsame : store.messages.map (StoredMessage.withFlags id flags) = store.messages := by
    conv_rhs => rw [← List.map_id store.messages]
    refine List.map_congr_left fun m hm => ?_
    unfold StoredMessage.withFlags
    split_ifs with hid
    · rw [← h m (hid ▸ get_of_mem hm)]
      rfl
    · rfl
  obtain ⟨owner, messages, distinct⟩ := store
  simp only [setFlags, MailStore.mk.injEq, true_and]
  exact hsame

theorem shows_withRows {store' : MailStore} {folder other : Uuid} {rows : List StoredMessage}
    (h : store.withRows folder rows = some store') (hne : other ≠ folder) :
    store'.shows other = store.shows other := by
  unfold withRows at h
  dsimp only at h
  split_ifs at h with hdistinct
  cases h
  have hnone : ((rows.map fun m => { m with folderId := folder }).filter
      fun m => m.folderId = other) = [] := by
    rw [List.filter_eq_nil_iff]
    intro m hm
    obtain ⟨row, -, rfl⟩ := List.mem_map.mp hm
    simpa using hne.symm
  have hsame : ((store.messages.filter fun m => m.folderId ≠ folder).filter
      fun m => m.folderId = other) = store.messages.filter fun m => m.folderId = other := by
    rw [List.filter_filter]
    refine List.filter_congr fun m _ => ?_
    by_cases hm : m.folderId = other
    · simp [hm, hne]
    · simp [hm]
  rw [shows, listByFolder, folderRows, List.filter_append, hnone, hsame, List.append_nil]
  rfl

end MailStore

end Postblox.Tui
