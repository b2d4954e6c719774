import Postblox.Tui.Rows

/-!
# A removal undone

A message is taken off the list before the daemon has moved it; if the daemon refuses, the
rows and the two selected indices are put back. The threads and the messages that are shown
follow from these three, whatever they were in between.
-/
namespace Postblox.Tui

/-- A selected index points at a row, or there are no rows and it is 0. -/
def InRange (index len : Nat) : Prop := index < len ∨ index = 0

theorem clampIndex_of_inRange {index len : Nat} (h : InRange index len) :
    clampIndex index len = index := by
  unfold clampIndex
  cases h with
  | inl hlt =>
    rw [if_neg (by omega)]
    omega
  | inr hzero =>
    rw [hzero]
    split_ifs
    · rfl
    · exact Nat.zero_min _

namespace AppState

/-- The threads and messages are those of the rows, and the selected indices point at them. -/
structure ShowsFolder (app : AppState) : Prop where
  threads : app.threads = buildThreads app.folderMessages
  messages : app.messages = app.visibleMessages
  thread : InRange app.selectedThread app.threads.length
  message : InRange app.selectedMessage app.messages.length

/-- The part of the state that a removal changes and a restore brings back. -/
structure MessageList where
  folderMessages : List MessageItem
  threads : List ThreadItem
  messages : List MessageItem
  selectedThread : Nat
  selectedMessage : Nat

def messageList (app : AppState) : MessageList :=
  ⟨app.folderMessages, app.threads, app.messages, app.selectedThread, app.selectedMessage⟩

theorem messageList_storeSelectedFolderCache (app : AppState) (accountId folderId : Option Uuid)
    (now : Nat) :
    (app.storeSelectedFolderCache accountId folderId now).messageList = app.messageList := by
  obtain ⟨folderCache, hstored⟩ := @storeSelectedFolderCache_eq app accountId folderId now
  rw [hstored]
  rfl

/-- The messages of the selected thread depend on the rows, the threads and the selection. -/
theorem visibleMessages_congr {app other : AppState}
    (hrows : other.folderMessages = app.folderMessages) (hthreads : other.threads = app.threads)
    (hselected : other.selectedThread = app.selectedThread) :
    other.visibleMessages = app.visibleMessages := by
  have hkey : other.selectedThreadKey = app.selectedThreadKey := by
    unfold selectedThreadKey threadRow
    rw [hthreads, hselected]
  unfold visibleMessages
  rw [hkey, hrows]

/-- What a snapshot is taken of comes back from it, whatever the state has become. -/
theorem messageList_restore {app : AppState} (h : app.ShowsFolder) (other : AppState)
    (now : Nat) :
    (other.restoreMessageListSnapshot app.snapshotMessageList now).messageList =
      app.messageList := by
  let rebuilt := ({ other with folderMessages := app.folderMessages } : AppState).rebuildThreads none
  let selected : AppState := { rebuilt with
    selectedThread := clampIndex app.selectedThread rebuilt.threads.length }
  have hthreads : rebuilt.threads = app.threads := h.threads.symm
  have hthread : selected.selectedThread = app.selectedThread := by
    have hlength : rebuilt.threads.length = app.threads.length := congrArg List.length hthreads
    exact (congrArg (clampIndex app.selectedThread) hlength).trans (clampIndex_of_inRange h.thread)
  have hvisible : selected.visibleMessages = app.visibleMessages :=
    visibleMessages_congr rfl hthreads hthread
  have hmessages : selected.refreshVisibleMessages.messages = app.messages :=
    hvisible.trans h.messages.symm
  have hmessage : clampIndex app.selectedMessage selected.refreshVisibleMessages.messages.length =
      app.selectedMessage := by
    rw [hmessages]
    exact clampIndex_of_inRange h.message
  have hrestored : (other.restoreMessageListSnapshot app.snapshotMessageList now).messageList =
      ⟨app.folderMessages, rebuilt.threads, selected.refreshVisibleMessages.messages,
        selected.selectedThread,
        clampIndex app.selectedMessage selected.refreshVisibleMessages.messages.length⟩ :=
    messageList_storeSelectedFolderCache _ _ _ now
  rw [hrestored, hthreads, hmessage, hmessages, hthread]
  rfl

/-- A snapshot, a removal and a restore leave the list as it was. -/
theorem removal_can_be_undone {app : AppState} (h : app.ShowsFolder) (id : Uuid)
    (now later : Nat) :
    ((app.removeMessageLocally id now).1.restoreMessageListSnapshot app.snapshotMessageList
      later).messageList = app.messageList :=
  messageList_restore h (app.removeMessageLocally id now).1 later

/-- The only message of the first of two threads. -/
def lunchFolder : AppState :=
  let rows : List MessageItem :=
    [⟨.filled 1, none, "Lunch", "ann@example.org", "2026-05-02 09:00", "", []⟩,
      ⟨.filled 2, none, "Dinner", "bob@example.org", "2026-05-01 09:00", "", []⟩]
  { initial with
    folderMessages := rows
    threads := buildThreads rows
    messages := rows.take 1 }

theorem only_message_is_put_back :
    ((lunchFolder.removeMessageLocally (.filled 1) 0).1.restoreMessageListSnapshot
      lunchFolder.snapshotMessageList 1).messageList = lunchFolder.messageList :=
  removal_can_be_undone ⟨rfl, by decide, .inl (by decide), .inl (by decide)⟩ (.filled 1) 0 1

end AppState

end Postblox.Tui
