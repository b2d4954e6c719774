import Postblox.Tui.State

/-!
# The rows of a folder

What the actions on the folder rows keep: a folder lists a message once, the open thread
shows rows of the folder, and a selected thread or message stays selected while it is there.
-/
namespace Postblox.Tui

open Lib

/-- Where a search for an index ends. -/
theorem exists_getElem?_findIdx? {α : Type} {p : α → Bool} {l : List α} {a : α} (ha : a ∈ l)
    (hp : p a) : ∃ i b, l.findIdx? p = some i ∧ l[i]? = some b ∧ p b := by
  cases hfound : l.findIdx? p with
  | none => exact absurd hp (by simp [List.findIdx?_eq_none_iff.mp hfound a ha])
  | some i =>
    obtain ⟨hi, hpi, -⟩ := List.findIdx?_eq_some_iff_getElem.mp hfound
    exact ⟨i, l[i], rfl, List.getElem?_eq_getElem hi, hpi⟩

/-- Every listed message has a thread. -/
theorem exists_thread {rows : List MessageItem} {m : MessageItem} (hm : m ∈ rows) :
    ∃ thread ∈ buildThreads rows, thread.key = messageThreadKey m := by
  have hfind := ThreadItem.grouping.find_group (messageThreadKey m) rows
  cases hrow : ThreadItem.grouping.find (messageThreadKey m) (ThreadItem.grouping.group rows) with
  | none =>
    have hmember : m ∈ rows.filter fun n => messageThreadKey n = messageThreadKey m :=
      List.mem_filter.mpr ⟨hm, by simp⟩
    rw [hrow] at hfind
    cases hmembers : rows.filter fun n => messageThreadKey n = messageThreadKey m with
    | nil => rw [hmembers] at hmember; cases hmember
    | cons first rest =>
      have hgroup : rows.filter (fun n => ThreadItem.grouping.keyOf n = messageThreadKey m) =
          first :: rest := hmembers
      rw [hgroup] at hfind
      cases hfind
  | some thread =>
    have hmem := List.mem_of_find?_eq_some hrow
    have hkey := List.find?_some hrow
    exact ⟨thread, (sortByKey_perm _ _).mem_iff.mpr hmem, of_decide_eq_true hkey⟩

/-! ## Rows -/

section Rows

variable {id : Uuid} {flags : List String} {rows : List MessageItem}

theorem map_id_setRowFlags :
    (AppState.setRowFlags id flags rows).map (·.id) = rows.map (·.id) := by
  induction rows with
  | nil => rfl
  | cons m rest ih =>
    rw [AppState.setRowFlags]
    split_ifs
    · rfl
    · rw [List.map_cons, List.map_cons, ih]

/-- Of a folder that lists a message once, the row of the message has the new flags. -/
theorem mem_setRowFlags (hdistinct : (rows.map (·.id)).Nodup) {m : MessageItem} :
    m ∈ AppState.setRowFlags id flags rows ↔
      m ∈ rows ∧ m.id ≠ id ∨ ∃ old ∈ rows, old.id = id ∧ m = { old with flags } := by
  induction rows with
  | nil => simp [AppState.setRowFlags]
  | cons first rest ih =>
    rw [List.map_cons, List.nodup_cons] at hdistinct
    rw [AppState.setRowFlags]
    by_cases hid : first.id = id
    · have hrest : ∀ other ∈ rest, other.id ≠ id := fun other hother heq =>
        hdistinct.1 (hid ▸ heq ▸ List.mem_map_of_mem hother)
      rw [if_pos hid]
      constructor
      · intro hm
        rcases List.mem_cons.mp hm with rfl | hm
        · exact .inr ⟨first, List.mem_cons_self, hid, rfl⟩
        · exact .inl ⟨List.mem_cons_of_mem _ hm, hrest m hm⟩
      · rintro (⟨hm, hne⟩ | ⟨old, hold, hold_id, rfl⟩)
        · rcases List.mem_cons.mp hm with rfl | hm
          · exact absurd hid hne
          · exact List.mem_cons_of_mem _ hm
        · rcases List.mem_cons.mp hold with rfl | hold
          · exact List.mem_cons_self
          · exact absurd hold_id (hrest old hold)
    · rw [if_neg hid, List.mem_cons, ih hdistinct.2]
      constructor
      · rintro (rfl | ⟨hm, hne⟩ | ⟨old, hold, hold_id, rfl⟩)
        · exact .inl ⟨List.mem_cons_self, hid⟩
        · exact .inl ⟨List.mem_cons_of_mem _ hm, hne⟩
        · exact .inr ⟨old, List.mem_cons_of_mem _ hold, hold_id, rfl⟩
      · rintro (⟨hm, hne⟩ | ⟨old, hold, hold_id, rfl⟩)
        · rcases List.mem_cons.mp hm with rfl | hm
          · exact .inl rfl
          · exact .inr (.inl ⟨hm, hne⟩)
        · rcases List.mem_cons.mp hold with rfl | hold
          · exact absurd hold_id hid
          · exact .inr (.inr ⟨old, hold, hold_id, rfl⟩)

/-- A row keeps its id and its thread. -/
theorem exists_mem_setRowFlags (id : Uuid) (flags : List String) {m : MessageItem} (hm : m ∈ rows) :
    ∃ row ∈ AppState.setRowFlags id flags rows,
      row.id = m.id ∧ messageThreadKey row = messageThreadKey m := by
  induction rows with
  | nil => cases hm
  | cons first rest ih =>
    rw [AppState.setRowFlags]
    rcases List.mem_cons.mp hm with rfl | hrest
    · split_ifs
      · exact ⟨_, List.mem_cons_self, rfl, rfl⟩
      · exact ⟨_, List.mem_cons_self, rfl, rfl⟩
    · split_ifs
      · exact ⟨m, List.mem_cons_of_mem _ hrest, rfl, rfl⟩
      · obtain ⟨row, hrow, hsame⟩ := ih hrest
        exact ⟨row, List.mem_cons_of_mem _ hrow, hsame⟩

end Rows

namespace AppState

variable (app : AppState)

/-- The open messages are rows of the selected thread. -/
def ShowsThread : Prop :=
  ∀ m ∈ app.messages, m ∈ app.folderMessages ∧ some (messageThreadKey m) = app.selectedThreadKey

/-- A folder lists a message once, and the open messages are rows of the selected thread. -/
structure ShowsRows : Prop where
  distinct : (app.folderMessages.map (·.id)).Nodup
  shown : app.ShowsThread

/-- What the cache keeps of the rows that are shown. -/
def shownSnapshot : FolderSnapshot :=
  ⟨app.folderMessages, app.selectedThreadKey, app.selectedMessageId⟩

variable {app}

/-! ## What the parts of an action keep -/

theorem showsThread_refreshVisibleMessages : app.refreshVisibleMessages.ShowsThread := by
  intro m hm
  have hvisible : m ∈ app.visibleMessages := hm
  unfold visibleMessages at hvisible
  cases hkey : app.selectedThreadKey with
  | none => simp [hkey] at hvisible
  | some key =>
    rw [hkey] at hvisible
    obtain ⟨hlisted, rfl⟩ := mem_threadMessages.mp hvisible
    exact ⟨hlisted, hkey.symm⟩

theorem showsRows_refreshVisibleMessages (hdistinct : (app.folderMessages.map (·.id)).Nodup) :
    app.refreshVisibleMessages.ShowsRows := ⟨hdistinct, showsThread_refreshVisibleMessages⟩

/-- A store changes nothing but the cache. -/
theorem storeSelectedFolderCache_eq (accountId folderId : Option Uuid) (now : Nat) :
    ∃ folderCache, app.storeSelectedFolderCache accountId folderId now =
      { app with folderCache } := by
  unfold storeSelectedFolderCache folderCacheStore
  split
  · split_ifs
    · exact ⟨_, rfl⟩
    · exact ⟨_, rfl⟩
  · exact ⟨_, rfl⟩

/-- The rows with the flags of a message written, before they are shown anew. -/
def withRowFlags (app : AppState) (id : Uuid) (flags : List String) : AppState :=
  { app with
    folderMessages := setRowFlags id flags app.folderMessages
    messages := setRowFlags id flags app.messages }

theorem setRowFlags_eq_nil {id : Uuid} {flags : List String} {rows : List MessageItem} :
    setRowFlags id flags rows = [] ↔ rows = [] := by
  rw [← List.map_eq_nil_iff (f := MessageItem.id), map_id_setRowFlags, List.map_eq_nil_iff]

theorem setRowFlags_of_unlisted {id : Uuid} {flags : List String} {rows : List MessageItem}
    (h : listsMessage id rows = false) : setRowFlags id flags rows = rows := by
  induction rows with
  | nil => rfl
  | cons m rest ih =>
    rw [listsMessage, List.any_cons, Bool.or_eq_false_iff, decide_eq_false_iff_not] at h
    rw [setRowFlags, if_neg h.1, ih h.2]

theorem writeRowFlags_eq (app : AppState) (id : Uuid) (flags : List String) (now : Nat) :
    ∃ folderCache,
      (app.folderMessages = [] ∧
        app.writeRowFlags id flags now = { app.withRowFlags id flags with folderCache }) ∨
      (app.folderMessages ≠ [] ∧
        app.writeRowFlags id flags now =
          { ((app.withRowFlags id flags).rebuildThreads app.selectedThreadKey).refreshVisibleMessages
            with folderCache }) := by
  have hnil : (app.withRowFlags id flags).folderMessages.isEmpty ↔ app.folderMessages = [] := by
    rw [List.isEmpty_iff]
    exact setRowFlags_eq_nil
  unfold writeRowFlags
  by_cases hempty : app.folderMessages = []
  · have hunlisted : listsMessage id app.folderMessages = false := by rw [hempty]; rfl
    refine ⟨app.folderCache, .inl ⟨hempty, ?_⟩⟩
    simp only [hunlisted, Bool.false_eq_true, if_false]
    exact if_pos (hnil.mpr hempty)
  · have hfull : (setRowFlags id flags app.folderMessages).isEmpty = false :=
      Bool.eq_false_iff.mpr (mt hnil.mp hempty)
    simp only [hfull, Bool.false_eq_true, if_false]
    split_ifs
    · obtain ⟨folderCache, heq⟩ := @storeSelectedFolderCache_eq ((app.withRowFlags id
        flags).rebuildThreads app.selectedThreadKey).refreshVisibleMessages _ _ now
      exact ⟨folderCache, .inr ⟨hempty, heq⟩⟩
    · exact ⟨_, .inr ⟨hempty, rfl⟩⟩

section Written

variable (id : Uuid) (flags : List String) (now : Nat)

theorem writeRowFlags_folderMessages :
    (app.writeRowFlags id flags now).folderMessages = setRowFlags id flags app.folderMessages := by
  obtain ⟨folderCache, ⟨-, heq⟩ | ⟨-, heq⟩⟩ := app.writeRowFlags_eq id flags now
  · rw [heq]
    rfl
  · rw [heq]
    rfl

theorem writeRowFlags_detail : (app.writeRowFlags id flags now).detail = app.detail := by
  obtain ⟨folderCache, ⟨-, heq⟩ | ⟨-, heq⟩⟩ := app.writeRowFlags_eq id flags now
  · rw [heq]
    rfl
  · rw [heq]
    rfl

theorem writeRowFlags_conversationDetail :
    (app.writeRowFlags id flags now).conversationDetail = app.conversationDetail := by
  obtain ⟨folderCache, ⟨-, heq⟩ | ⟨-, heq⟩⟩ := app.writeRowFlags_eq id flags now
  · rw [heq]
    rfl
  · rw [heq]
    rfl

theorem ShowsThread.writeRowFlags (h : app.ShowsThread) :
    (app.writeRowFlags id flags now).ShowsThread := by
  obtain ⟨folderCache, ⟨hempty, heq⟩ | ⟨-, heq⟩⟩ := app.writeRowFlags_eq id flags now
  · have hmessages : app.messages = [] := by
      rw [List.eq_nil_iff_forall_not_mem]
      intro m hm
      have hlisted := (h m hm).1
      rw [hempty] at hlisted
      cases hlisted
    rw [heq]
    show ∀ m ∈ setRowFlags id flags app.messages, _
    rw [hmessages]
    intro m hm
    cases hm
  · rw [heq]
    exact @showsThread_refreshVisibleMessages
      ((app.withRowFlags id flags).rebuildThreads app.selectedThreadKey)

theorem ShowsRows.writeRowFlags (h : app.ShowsRows) :
    (app.writeRowFlags id flags now).ShowsRows := by
  refine ⟨?_, h.shown.writeRowFlags id flags now⟩
  rw [writeRowFlags_folderMessages, map_id_setRowFlags]
  exact h.distinct

end Written

/-! ### What is stored -/

theorem storeSelectedFolderCache_some {account folder : Uuid}
    (hmail : app.approvalsFolderSelected = false) (now : Nat) :
    app.storeSelectedFolderCache (some account) (some folder) now =
      { app with folderCache := app.folderCache.store account folder app.shownSnapshot now } := by
  unfold storeSelectedFolderCache folderCacheStore
  rw [hmail]
  rfl

theorem approvalsFolderSelected_of_folder {folder : Uuid}
    (hfolder : app.selectedFolderId = some folder) : app.approvalsFolderSelected = false := by
  obtain ⟨row, hrow, hkind⟩ := Option.bind_eq_some_iff.mp hfolder
  unfold approvalsFolderSelected FolderItem.isApprovalsVirtual
  rw [hrow, Option.any_some]
  cases hrowkind : row.kind with
  | mail => rfl
  | approvals =>
    rw [hrowkind] at hkind
    cases hkind

/-- The rows are stored when one of them got the flags. -/
theorem folderCache_writeRowFlags_of_listed {account folder id : Uuid} {flags : List String}
    {now : Nat} (haccount : app.selectedAccountId = some account)
    (hfolder : app.selectedFolderId = some folder)
    (hlisted : listsMessage id app.folderMessages = true) :
    (app.writeRowFlags id flags now).folderCache =
      app.folderCache.store account folder (app.writeRowFlags id flags now).shownSnapshot now := by
  have hfull : (setRowFlags id flags app.folderMessages).isEmpty = false := by
    rw [Bool.eq_false_iff, ne_eq, List.isEmpty_iff, setRowFlags_eq_nil]
    rintro heq
    rw [heq] at hlisted
    cases hlisted
  have hstored : app.writeRowFlags id flags now = ((((app.withRowFlags id flags).rebuildThreads
      app.selectedThreadKey).refreshVisibleMessages).storeSelectedFolderCache (some account)
      (some folder) now) := by
    rw [← haccount, ← hfolder]
    unfold writeRowFlags
    simp only [hfull, hlisted, Bool.false_eq_true, if_false, if_true]
    rfl
  have hmail : app.approvalsFolderSelected = false := approvalsFolderSelected_of_folder hfolder
  have hmail' : ((app.withRowFlags id flags).rebuildThreads
      app.selectedThreadKey).refreshVisibleMessages.approvalsFolderSelected = false := hmail
  rw [hstored, storeSelectedFolderCache_some hmail']
  rfl

theorem folderCache_writeRowFlags_of_unlisted {id : Uuid} {flags : List String} {now : Nat}
    (hunlisted : listsMessage id app.folderMessages = false) :
    (app.writeRowFlags id flags now).folderCache = app.folderCache := by
  unfold writeRowFlags
  simp only [hunlisted, Bool.false_eq_true, if_false]
  split_ifs
  · rfl
  · rfl

/-! ### What stays selected -/

theorem selectedThreadKey_rebuildThreads {m : MessageItem} (hm : m ∈ app.folderMessages) :
    (app.rebuildThreads (some (messageThreadKey m))).selectedThreadKey =
      some (messageThreadKey m) := by
  obtain ⟨thread, hthread, hkey⟩ := exists_thread hm
  obtain ⟨i, found, hindex, hfound, hfoundkey⟩ :=
    exists_getElem?_findIdx? (p := fun thread => thread.key = messageThreadKey m) hthread
      (by simpa using hkey)
  have hselected : (app.rebuildThreads (some (messageThreadKey m))).selectedThread = i := by
    show ((some (messageThreadKey m)).bind fun key =>
      (buildThreads app.folderMessages).findIdx? fun thread => thread.key = key).getD _ = i
    rw [Option.bind_some, hindex, Option.getD_some]
  have hrow : (app.rebuildThreads (some (messageThreadKey m))).threadRow = some found := by
    unfold threadRow
    rw [hselected]
    exact hfound
  rw [selectedThreadKey, hrow, Option.map_some, of_decide_eq_true hfoundkey]

theorem selectedMessageId_refreshVisibleMessages {m : MessageItem} (hm : m ∈ app.folderMessages)
    (hkey : app.selectedThreadKey = some (messageThreadKey m))
    (hselected : app.selectedMessageId = some m.id) :
    app.refreshVisibleMessages.selectedMessageId = some m.id := by
  have hvisible : m ∈ app.visibleMessages := by
    unfold visibleMessages
    rw [hkey]
    exact mem_threadMessages.mpr ⟨hm, rfl⟩
  obtain ⟨i, found, hindex, hfound, hfoundid⟩ :=
    exists_getElem?_findIdx? (p := fun n => n.id = m.id) hvisible (by simp)
  have hmail : app.approvalsFolderSelected = false := by
    unfold selectedMessageId messageRow at hselected
    by_contra happrovals
    rw [if_pos (by simpa using happrovals)] at hselected
    cases hselected
  have hcursor : app.refreshVisibleMessages.selectedMessage = i := by
    show (app.selectedMessageId.bind fun id =>
      app.visibleMessages.findIdx? fun n => n.id = id).getD _ = i
    rw [hselected, Option.bind_some, hindex, Option.getD_some]
  have hmail' : app.refreshVisibleMessages.approvalsFolderSelected = false := hmail
  unfold selectedMessageId messageRow
  rw [hmail', hcursor, if_neg Bool.false_ne_true]
  show (app.visibleMessages[i]?).map (·.id) = some m.id
  rw [hfound, Option.map_some, of_decide_eq_true hfoundid]

/-- The rows of the open thread keep their places and ids when flags are written. -/
theorem selectedMessageId_withRowFlags (id : Uuid) (flags : List String) :
    (app.withRowFlags id flags).selectedMessageId = app.selectedMessageId := by
  have hmail : (app.withRowFlags id flags).approvalsFolderSelected = app.approvalsFolderSelected :=
    rfl
  have hrow : ((setRowFlags id flags app.messages)[app.selectedMessage]?).map (·.id) =
      (app.messages[app.selectedMessage]?).map (·.id) := by
    rw [← List.getElem?_map, ← List.getElem?_map, map_id_setRowFlags]
  unfold selectedMessageId messageRow
  rw [hmail]
  split_ifs
  · rfl
  · exact hrow

theorem ShowsThread.selectedMessageId_writeRowFlags (h : app.ShowsThread) {id : Uuid}
    {flags : List String} {now : Nat} {selected : Uuid}
    (hselected : app.selectedMessageId = some selected) :
    (app.writeRowFlags id flags now).selectedMessageId = some selected := by
  obtain ⟨m, hrow, rfl⟩ := Option.map_eq_some_iff.mp hselected
  have hmem : m ∈ app.messages := by
    unfold messageRow at hrow
    split_ifs at hrow
    exact List.mem_of_getElem? hrow
  obtain ⟨hlisted, hkey⟩ := h m hmem
  obtain ⟨row, hrow_mem, hid, hrowkey⟩ := exists_mem_setRowFlags id flags hlisted
  obtain ⟨folderCache, ⟨hempty, -⟩ | ⟨-, heq⟩⟩ := app.writeRowFlags_eq id flags now
  · rw [hempty] at hlisted
    cases hlisted
  · have hthread : ((app.withRowFlags id flags).rebuildThreads
        app.selectedThreadKey).selectedThreadKey = some (messageThreadKey row) := by
      rw [← hkey, ← hrowkey]
      exact selectedThreadKey_rebuildThreads hrow_mem
    have hsame : ((app.withRowFlags id flags).rebuildThreads
        app.selectedThreadKey).selectedMessageId = some row.id := by
      rw [hid, ← hselected]
      exact @selectedMessageId_withRowFlags app id flags
    rw [heq, ← hid]
    exact selectedMessageId_refreshVisibleMessages hrow_mem hthread hsame

end AppState

end Postblox.Tui
