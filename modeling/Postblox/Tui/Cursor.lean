import Postblox.Tui.Refresh

/-!
# The cursor in the rows of a folder

Which thread and which message are selected when rows are shown: the thread with the key
that is kept, or the one at the old place; in it the message that is preferred, or the
newest one. Flags do not move the cursor, and neither does showing the same rows again.
-/
namespace Postblox.Tui

open Lib

/-- The selected thread, with its place in the list, and the selected message. -/
structure Cursor where
  place : Nat
  thread : Uuid
  message : Uuid
  deriving DecidableEq

def messageAt (messages : List MessageItem) (id : Uuid) : Option Nat :=
  messages.findIdx? fun message => message.id = id

/-- The place of the first id, else of the second, else the last. -/
def messagePlace (messages : List MessageItem) (first second : Option Uuid) : Nat :=
  (first.bind (messageAt messages)).getD
    ((second.bind (messageAt messages)).getD (messages.length - 1))

/-- The place of the thread with the key, else the old place if there is such a row. -/
def threadPlace (rows : List MessageItem) (key : Option Uuid) (place : Nat) : Nat :=
  (key.bind fun key => (buildThreads rows).findIdx? fun thread => thread.key = key).getD
    (clampIndex place (buildThreads rows).length)

/-- The cursor when the rows are shown. -/
def openRows (rows : List MessageItem) (key : Option Uuid) (place : Nat)
    (first second : Option Uuid) : Option Cursor :=
  ((buildThreads rows)[threadPlace rows key place]?).bind fun thread =>
    let messages := threadMessages rows thread.key
    (messages[messagePlace messages first second]?).map fun message =>
      ⟨threadPlace rows key place, thread.key, message.id⟩

/-- The cursor is on a thread of the rows and on a message of it. -/
structure Cursor.In (c : Cursor) (rows : List MessageItem) : Prop where
  thread : ((buildThreads rows)[c.place]?).map (·.key) = some c.thread
  message : ∃ m ∈ threadMessages rows c.thread, m.id = c.message

section Rows

variable {rows : List MessageItem} {messages : List MessageItem} {key first second : Option Uuid}
  {place : Nat} {c : Cursor}

theorem messageAt_lt {id : Uuid} {i : Nat} (h : messageAt messages id = some i) :
    i < messages.length := by
  obtain ⟨hlt, -, -⟩ := List.findIdx?_eq_some_iff_getElem.mp h
  exact hlt

theorem messagePlace_lt (hne : messages ≠ []) :
    messagePlace messages first second < messages.length := by
  have hpos := List.length_pos_iff.mpr hne
  unfold messagePlace
  cases hfirst : first.bind (messageAt messages) with
  | some i =>
    obtain ⟨id, -, hi⟩ := Option.bind_eq_some_iff.mp hfirst
    exact messageAt_lt hi
  | none =>
    rw [Option.getD_none]
    cases hsecond : second.bind (messageAt messages) with
    | some i =>
      obtain ⟨id, -, hi⟩ := Option.bind_eq_some_iff.mp hsecond
      exact messageAt_lt hi
    | none =>
      rw [Option.getD_none]
      omega

/-- The message preferred, if it is listed. -/
theorem messagePlace_id {id : Uuid} (hlisted : ∃ m ∈ messages, m.id = id)
    (hprefers : first = some id ∨ first.bind (messageAt messages) = none ∧ second = some id) :
    (messages[messagePlace messages first second]?).map (·.id) = some id := by
  obtain ⟨m, hm, hid⟩ := hlisted
  obtain ⟨i, found, hindex, hfound, hfoundid⟩ :=
    exists_getElem?_findIdx? (p := fun n => n.id = id) hm (by simpa using hid)
  have hat : messageAt messages id = some i := hindex
  have hplace : messagePlace messages first second = i := by
    unfold messagePlace
    rcases hprefers with rfl | ⟨hfirst, rfl⟩
    · rw [Option.bind_some, hat, Option.getD_some]
    · rw [hfirst, Option.getD_none, Option.bind_some, hat, Option.getD_some]
  rw [hplace, hfound, Option.map_some, of_decide_eq_true hfoundid]

theorem threadMessages_ne_nil {thread : ThreadItem} (hthread : thread ∈ buildThreads rows) :
    threadMessages rows thread.key ≠ [] := by
  intro hnil
  have hrow := mem_buildThreads.mp hthread
  have hnone : (rows.filter fun m => messageThreadKey m = thread.key) = [] := by
    rw [List.eq_nil_iff_forall_not_mem]
    intro m hm
    obtain ⟨hmem, hkey⟩ := List.mem_filter.mp hm
    have hlisted : m ∈ threadMessages rows thread.key :=
      mem_threadMessages.mpr ⟨hmem, of_decide_eq_true hkey⟩
    rw [hnil] at hlisted
    cases hlisted
  rw [hnone] at hrow
  cases hrow

theorem buildThreads_eq_nil (h : buildThreads rows = []) : rows = [] := by
  rw [List.eq_nil_iff_forall_not_mem]
  intro m hm
  obtain ⟨thread, hthread, -⟩ := exists_thread hm
  rw [h] at hthread
  cases hthread

theorem nodup_threadKeys (rows : List MessageItem) : ((buildThreads rows).map (·.key)).Nodup :=
  ((sortByKey_perm _ _).map _).nodup_iff.mpr (ThreadItem.grouping.nodup_keys_group rows)

theorem findIdx?_thread {i : Nat} {id : Uuid}
    (h : ((buildThreads rows)[i]?).map (·.key) = some id) :
    (buildThreads rows).findIdx? (fun thread => thread.key = id) = some i := by
  have hnodup := nodup_threadKeys rows
  obtain ⟨thread, hthread, rfl⟩ := Option.map_eq_some_iff.mp h
  obtain ⟨j, found, hindex, hfound, hkey⟩ := exists_getElem?_findIdx?
    (p := fun other => other.key = thread.key) (List.mem_of_getElem? hthread) (by simp)
  have hlt : j < ((buildThreads rows).map (·.key)).length := by
    rw [List.length_map]
    exact (List.getElem?_eq_some_iff.mp hfound).1
  have hsame : ((buildThreads rows).map (·.key))[j]? = ((buildThreads rows).map (·.key))[i]? := by
    rw [List.getElem?_map, List.getElem?_map, hfound, hthread, Option.map_some, Option.map_some,
      of_decide_eq_true hkey]
  rw [hindex, (List.getElem?_inj hlt hnodup).mp hsame]

/-- The cursor of rows that are shown is in them. -/
theorem openRows_in (h : openRows rows key place first second = some c) :
    c.In rows ∧ c.place = threadPlace rows key place := by
  obtain ⟨thread, hthread, h⟩ := Option.bind_eq_some_iff.mp h
  obtain ⟨m, hm, rfl⟩ := Option.map_eq_some_iff.mp h
  exact ⟨⟨by rw [hthread, Option.map_some], m, List.mem_of_getElem? hm, rfl⟩, rfl⟩

/-- Only without rows there is no cursor. -/
theorem openRows_eq_none (h : openRows rows key place first second = none) : rows = [] := by
  by_contra hne
  have hthreads : buildThreads rows ≠ [] := mt buildThreads_eq_nil hne
  have hpos := List.length_pos_iff.mpr hthreads
  have hlt : threadPlace rows key place < (buildThreads rows).length := by
    unfold threadPlace
    cases hfound : key.bind fun key => (buildThreads rows).findIdx? fun thread => thread.key = key with
    | some i =>
      obtain ⟨id, -, hi⟩ := Option.bind_eq_some_iff.mp hfound
      obtain ⟨hlt, -, -⟩ := List.findIdx?_eq_some_iff_getElem.mp hi
      exact hlt
    | none =>
      rw [Option.getD_none, clampIndex, if_neg (by omega)]
      omega
  rw [openRows, List.getElem?_eq_getElem hlt, Option.bind_some, Option.map_eq_none_iff,
    List.getElem?_eq_none_iff] at h
  have hmessages := threadMessages_ne_nil (List.getElem_mem hlt)
  have hin := @messagePlace_lt _ first second hmessages
  omega

theorem threadPlace_nil : threadPlace [] key place = 0 := by
  unfold threadPlace
  have hnil : buildThreads [] = [] := rfl
  rw [hnil]
  cases key with
  | none => rfl
  | some key => rfl

theorem openRows_nil : openRows [] key place first second = none := by
  unfold openRows
  have hnil : buildThreads [] = [] := rfl
  rw [hnil]
  rfl

/-- Shown again, with the place of its thread and its message preferred, the cursor is where
it was. -/
theorem Cursor.In.openRows (h : c.In rows) (hplace : threadPlace rows key place = c.place)
    (hprefers : first = some c.message ∨
      first.bind (messageAt (threadMessages rows c.thread)) = none ∧ second = some c.message) :
    openRows rows key place first second = some c := by
  obtain ⟨thread, hthread, hkey⟩ := Option.map_eq_some_iff.mp h.thread
  have hmessage := messagePlace_id h.message hprefers
  rw [← hkey] at hmessage
  obtain ⟨m, hm, hid⟩ := Option.map_eq_some_iff.mp hmessage
  unfold Postblox.Tui.openRows
  dsimp only
  rw [hplace, hthread, Option.bind_some, hm, Option.map_some, hkey, hid]

theorem Cursor.In.threadPlace (h : c.In rows) (place : Nat) :
    threadPlace rows (some c.thread) place = c.place := by
  unfold Postblox.Tui.threadPlace
  rw [Option.bind_some, findIdx?_thread h.thread, Option.getD_some]

/-- The cursor fits the rows: it is in them, and only without rows there is none. -/
structure FitsRows (rows : List MessageItem) (c : Option Cursor) : Prop where
  on : ∀ x, c = some x → x.In rows
  off : c = none → rows = []

theorem fitsRows_openRows (rows : List MessageItem) (key : Option Uuid) (place : Nat)
    (first second : Option Uuid) : FitsRows rows (openRows rows key place first second) where
  on := fun _ h => (openRows_in h).1
  off := openRows_eq_none

/-- Rows shown again with the cursor they have. -/
theorem FitsRows.openRows {c : Option Cursor} (h : FitsRows rows c) (place : Nat)
    (hfirst : first = none ∨ first = c.map (·.message)) :
    openRows rows (c.map (·.thread)) place first (c.map (·.message)) = c := by
  cases c with
  | none => rw [h.off rfl, openRows_nil]
  | some x =>
    apply (h.on x rfl).openRows ((h.on x rfl).threadPlace place)
    rcases hfirst with rfl | rfl
    · exact .inr ⟨rfl, rfl⟩
    · exact .inl rfl

/-- Rows shown again with the key and the message they were shown with. -/
theorem openRows_again {c : Option Cursor} (h : openRows rows key place first none = c) :
    openRows rows key (c.elim 0 (·.place)) first (c.map (·.message)) = c := by
  cases c with
  | none => rw [openRows_eq_none h, openRows_nil]
  | some x =>
    obtain ⟨hin, hplace⟩ := openRows_in h
    apply hin.openRows
    · show threadPlace rows key x.place = x.place
      unfold threadPlace at hplace ⊢
      cases hfound : key.bind fun key =>
          (buildThreads rows).findIdx? fun thread => thread.key = key with
      | some i =>
        rw [hfound] at hplace
        rw [hplace]
        rfl
      | none =>
        have hlt : x.place < (buildThreads rows).length := by
          obtain ⟨thread, hthread, -⟩ := Option.map_eq_some_iff.mp hin.thread
          exact (List.getElem?_eq_some_iff.mp hthread).1
        rw [Option.getD_none, clampIndex, if_neg (by omega)]
        omega
    · cases hfirst : first.bind (messageAt (threadMessages rows x.thread)) with
      | none => exact .inr ⟨rfl, rfl⟩
      | some i =>
        left
        obtain ⟨id, rfl, hi⟩ := Option.bind_eq_some_iff.mp hfirst
        obtain ⟨thread, -, h⟩ := Option.bind_eq_some_iff.mp h
        obtain ⟨m, hm, rfl⟩ := Option.map_eq_some_iff.mp h
        have hplaced : messagePlace (threadMessages rows thread.key) (some id) none = i := by
          rw [messagePlace, Option.bind_some, hi, Option.getD_some]
        rw [hplaced] at hm
        obtain ⟨hlt, hid, -⟩ := List.findIdx?_eq_some_iff_getElem.mp hi
        rw [List.getElem?_eq_getElem hlt] at hm
        rw [← Option.some.inj hm, of_decide_eq_true hid]

/-! ## Flags -/

/-- What the order of the threads depends on. -/
def SameFace (t t' : ThreadItem) : Prop :=
  t.key = t'.key ∧ t.latestDate = t'.latestDate ∧ t.subject = t'.subject

/-- Two rows of one message, up to its flags. -/
def SameRow (m m' : MessageItem) : Prop := m' = { m with flags := m'.flags }

theorem sameRow_setRowFlags (id : Uuid) (flags : List String) (rows : List MessageItem) :
    List.Forall₂ SameRow rows (AppState.setRowFlags id flags rows) := by
  induction rows with
  | nil => exact .nil
  | cons m rest ih =>
    rw [AppState.setRowFlags]
    split_ifs
    · exact .cons rfl (List.forall₂_same.mpr fun _ _ => rfl)
    · exact .cons rfl ih

theorem sameFace_absorb {t t' : ThreadItem} {m m' : MessageItem} (ht : SameFace t t')
    (hm : SameRow m m') : SameFace (t.absorb m) (t'.absorb m') := by
  obtain ⟨hkey, hdate, hsubject⟩ := ht
  have hmdate : m'.date = m.date := by rw [hm]
  have hmsubject : m'.subject = m.subject := by rw [hm]
  unfold ThreadItem.absorb SameFace
  dsimp only
  rw [hmdate, hmsubject, hdate]
  split_ifs
  · exact ⟨hkey, rfl, rfl⟩
  · exact ⟨hkey, rfl, hsubject⟩

/-- The threads keep their order when flags change. -/
theorem sameFace_buildThreads {rows rows' : List MessageItem}
    (h : List.Forall₂ SameRow rows rows') :
    List.Forall₂ SameFace (buildThreads rows) (buildThreads rows') := by
  apply forall₂_sortByKey
  · rintro t t' ⟨hkey, hdate, hsubject⟩
    rw [ThreadItem.sortKey, ThreadItem.sortKey, hkey, hdate, hsubject]
  · have hrowKey : ∀ m m', SameRow m m' → messageThreadKey m = messageThreadKey m' := by
      intro m m' hm
      rw [hm]
      rfl
    refine ThreadItem.grouping.forall₂_group hrowKey (fun t t' ht => ht.1) ?_
      (fun t t' m m' ht hm => sameFace_absorb ht hm) h
    intro m m' hm
    rw [hm]
    exact ⟨rfl, rfl, rfl⟩

/-- A cursor stays in the rows when flags change. -/
theorem Cursor.In.setRowFlags (h : c.In rows) (id : Uuid) (flags : List String) :
    c.In (AppState.setRowFlags id flags rows) := by
  have hfaces := sameFace_buildThreads (sameRow_setRowFlags id flags rows)
  have hkeys : (buildThreads rows).map (·.key) =
      (buildThreads (AppState.setRowFlags id flags rows)).map (·.key) := by
    rw [← List.forall₂_eq_eq_eq, List.forall₂_map_left_iff, List.forall₂_map_right_iff]
    exact hfaces.imp fun _ _ hface => hface.1
  refine ⟨?_, ?_⟩
  · rw [← List.getElem?_map, ← hkeys, List.getElem?_map]
    exact h.thread
  · obtain ⟨m, hm, hid⟩ := h.message
    obtain ⟨hlisted, hkey⟩ := mem_threadMessages.mp hm
    obtain ⟨row, hrow, hrowid, hrowkey⟩ := exists_mem_setRowFlags id flags hlisted
    exact ⟨row, mem_threadMessages.mpr ⟨hrow, hrowkey.trans hkey⟩, hrowid.trans hid⟩

end Rows

namespace AppState

variable (app : AppState)

def cursor : Option Cursor :=
  app.threadRow.bind fun thread => (app.messages[app.selectedMessage]?).map fun message =>
    ⟨app.selectedThread, thread.key, message.id⟩

/-- The rows are shown: the panes are made of them, with a cursor if there are any. -/
structure Opened : Prop where
  threads : app.threads = buildThreads app.folderMessages
  messages : app.messages = app.visibleMessages
  cursor : app.cursor = none → app.folderMessages = []
  start : app.cursor = none → app.selectedThread = 0

variable {app} {c : Cursor}

theorem Opened.cursor_in (h : app.Opened) (hc : app.cursor = some c) :
    c.In app.folderMessages ∧ app.selectedThread = c.place ∧
      app.selectedThreadKey = some c.thread ∧
      (app.approvalsFolderSelected = false → app.selectedMessageId = some c.message) := by
  obtain ⟨thread, hthread, hc⟩ := Option.bind_eq_some_iff.mp hc
  obtain ⟨m, hm, rfl⟩ := Option.map_eq_some_iff.mp hc
  have hkey : app.selectedThreadKey = some thread.key := by
    rw [selectedThreadKey, hthread, Option.map_some]
  have hvisible : app.messages = threadMessages app.folderMessages thread.key := by
    rw [h.messages, visibleMessages, hkey]
  refine ⟨⟨?_, m, ?_, rfl⟩, rfl, hkey, fun hmail => ?_⟩
  · rw [← h.threads]
    exact hkey
  · rw [← hvisible]
    exact List.mem_of_getElem? hm
  · rw [selectedMessageId, messageRow, if_neg (by rw [hmail]; exact Bool.false_ne_true), hm,
      Option.map_some]

/-- Without rows nothing is selected. -/
theorem Opened.selectedMessageId_none (h : app.Opened) (hc : app.cursor = none) :
    app.selectedMessageId = none := by
  have hrows := h.cursor hc
  have hthreads : app.threads = [] := by rw [h.threads, hrows]; rfl
  have hmessages : app.messages = [] := by
    rw [h.messages, visibleMessages, selectedThreadKey, threadRow, hthreads]
    rfl
  rw [selectedMessageId, messageRow, hmessages]
  split_ifs
  · rfl
  · rfl

theorem Opened.selectedMessageId (h : app.Opened) (hmail : app.approvalsFolderSelected = false) :
    app.selectedMessageId = app.cursor.map (·.message) := by
  cases hc : app.cursor with
  | none => exact h.selectedMessageId_none hc
  | some c => exact (h.cursor_in hc).2.2.2 hmail

theorem Opened.selectedThreadKey (h : app.Opened) :
    app.selectedThreadKey = app.cursor.map (·.thread) := by
  cases hc : app.cursor with
  | none =>
    have hthreads : app.threads = [] := by rw [h.threads, h.cursor hc]; rfl
    rw [AppState.selectedThreadKey, threadRow, hthreads]
    rfl
  | some c => exact (h.cursor_in hc).2.2.1

theorem Opened.selectedThread (h : app.Opened) : app.selectedThread = app.cursor.elim 0 (·.place) := by
  cases hc : app.cursor with
  | none => exact h.start hc
  | some c => exact (h.cursor_in hc).2.1

theorem Opened.fits (h : app.Opened) : FitsRows app.folderMessages app.cursor where
  on := fun _ hc => (h.cursor_in hc).1
  off := h.cursor

theorem Opened.withCache (h : app.Opened) (folderCache : FolderMessageCache) :
    ({ app with folderCache } : AppState).Opened := ⟨h.threads, h.messages, h.cursor, h.start⟩

/-- Rows shown with a key, and a message preferred to the selected one. -/
theorem opened_of_rows {rows : List MessageItem} {key : Option Uuid} {first second : Option Uuid}
    {place : Nat} (hrows : app.folderMessages = rows) (hthreads : app.threads = buildThreads rows)
    (hthread : app.selectedThread = threadPlace rows key place)
    (hmessages : app.messages = app.visibleMessages)
    (hmessage : app.messages ≠ [] →
      app.selectedMessage = messagePlace app.messages first second) :
    app.Opened ∧ app.cursor = openRows rows key place first second := by
  have hcursor : app.cursor = openRows rows key place first second := by
    unfold cursor openRows
    rw [threadRow, hthreads, hthread]
    cases hrow : (buildThreads rows)[threadPlace rows key place]? with
    | none => rfl
    | some thread =>
      have hvisible : app.messages = threadMessages rows thread.key := by
        rw [hmessages, visibleMessages, AppState.selectedThreadKey, threadRow, hthreads, hthread,
          hrow, hrows]
        rfl
      have hne : app.messages ≠ [] := by
        rw [hvisible]
        exact threadMessages_ne_nil (List.mem_of_getElem? hrow)
      rw [Option.bind_some, Option.bind_some, hmessage hne, hvisible]
  refine ⟨⟨?_, hmessages, fun hnone => ?_, fun hnone => ?_⟩, hcursor⟩
  · rw [hthreads, hrows]
  · rw [hrows]
    exact openRows_eq_none (hcursor.symm.trans hnone)
  · have hnil := openRows_eq_none (hcursor.symm.trans hnone)
    rw [hthread, hnil, threadPlace_nil]

theorem opened_refreshVisibleMessages (app : AppState) (rows : List MessageItem)
    (key : Option Uuid) :
    (({ app with folderMessages := rows } : AppState).rebuildThreads key).refreshVisibleMessages.Opened ∧
    (({ app with folderMessages := rows } : AppState).rebuildThreads key).refreshVisibleMessages.cursor =
      openRows rows key app.selectedThread none app.selectedMessageId :=
  opened_of_rows rfl rfl rfl rfl fun _ => rfl

theorem opened_applyFolderMessages (app : AppState) (rows : List MessageItem) (now : Nat) :
    (app.applyFolderMessages rows now).Opened ∧
      (app.applyFolderMessages rows now).cursor =
        openRows rows app.selectedThreadKey app.selectedThread none app.selectedMessageId := by
  obtain ⟨folderCache, heq⟩ := (((({ app with folderMessages := rows } : AppState).rebuildThreads
    app.selectedThreadKey).refreshVisibleMessages.normalizeActivePane.clearDetailState
    ).storeSelectedFolderCache_eq app.selectedAccountId app.selectedFolderId now)
  rw [applyFolderMessages, heq]
  exact opened_of_rows rfl rfl rfl rfl fun _ => rfl

theorem opened_restoreFolderSnapshot (app : AppState) (snapshot : FolderSnapshot) :
    (app.restoreFolderSnapshot snapshot).Opened ∧
      (app.restoreFolderSnapshot snapshot).cursor =
        openRows snapshot.folderMessages snapshot.selectedThreadKey app.selectedThread
          snapshot.selectedMessageId app.selectedMessageId := by
  let shown := (({ app with folderMessages := snapshot.folderMessages } : AppState).rebuildThreads
    snapshot.selectedThreadKey).refreshVisibleMessages
  have hindex : (snapshot.selectedMessageId.bind shown.messageIndex).getD shown.selectedMessage =
      messagePlace shown.messages snapshot.selectedMessageId app.selectedMessageId := rfl
  apply opened_of_rows rfl rfl rfl rfl
  intro hne
  have hlt : messagePlace shown.messages snapshot.selectedMessageId app.selectedMessageId <
      shown.messages.length := messagePlace_lt hne
  have hclamp : clampIndex (messagePlace shown.messages snapshot.selectedMessageId
      app.selectedMessageId) shown.messages.length =
        messagePlace shown.messages snapshot.selectedMessageId app.selectedMessageId := by
    rw [clampIndex, if_neg (by omega)]
    omega
  rw [← hindex] at hclamp
  exact hclamp

/-- Flags written to the rows leave the cursor. -/
theorem Opened.writeRowFlags (h : app.Opened) (hmail : app.approvalsFolderSelected = false)
    (id : Uuid) (flags : List String) (now : Nat) :
    (app.writeRowFlags id flags now).Opened ∧
      (app.writeRowFlags id flags now).cursor = app.cursor := by
  obtain ⟨folderCache, ⟨hempty, heq⟩ | ⟨hrows, heq⟩⟩ := app.writeRowFlags_eq id flags now
  · have hthreads : app.threads = [] := by rw [h.threads, hempty]; rfl
    have hmessages : app.messages = [] := by
      rw [h.messages, visibleMessages, AppState.selectedThreadKey, threadRow, hthreads]
      rfl
    have hsame : app.writeRowFlags id flags now = { app with folderCache } := by
      rw [heq, withRowFlags, hempty, hmessages]
      rfl
    rw [hsame]
    exact ⟨h.withCache folderCache, rfl⟩
  · obtain ⟨c, hc⟩ := Option.ne_none_iff_exists'.mp (mt h.cursor hrows)
    obtain ⟨hin, -, hkey, hselected⟩ := h.cursor_in hc
    have hopened := opened_refreshVisibleMessages (app.withRowFlags id flags)
      (setRowFlags id flags app.folderMessages) app.selectedThreadKey
    have hmessage : (app.withRowFlags id flags).selectedMessageId = some c.message :=
      (selectedMessageId_withRowFlags id flags).trans (hselected hmail)
    have hcursor : openRows (setRowFlags id flags app.folderMessages) (some c.thread)
        app.selectedThread none (app.withRowFlags id flags).selectedMessageId = some c :=
      (hin.setRowFlags id flags).openRows ((hin.setRowFlags id flags).threadPlace _)
        (.inr ⟨rfl, hmessage⟩)
    rw [heq, hc, ← hcursor, ← hkey]
    exact ⟨hopened.1.withCache folderCache, hopened.2⟩

end AppState

end Postblox.Tui
