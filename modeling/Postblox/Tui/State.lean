import Postblox.Tui.Approvals
import Postblox.Tui.Composer
import Postblox.Tui.FolderCache

/-!
# The state of the terminal client

What the panes show and which rows are selected. Texts that are only drawn, the scroll
positions and the preview of an attachment are left out. A function that reads the clock
takes the time.
-/
namespace Postblox.Tui

open Lib

inductive ActivePane where
  | accounts
  | folders
  | conversations
  | details
  | attachments
  | search
  deriving DecidableEq

inductive InputMode where
  | normal
  | command
  | compose
  | composeAttachPath
  | confirmDiscard
  | confirmDelete
  | quickSearch
  deriving DecidableEq

structure AccountItem where
  id : Uuid
  label : String
  email : String
  deriving DecidableEq

inductive FolderKind where
  | mail
  | approvals
  deriving DecidableEq

structure FolderItem where
  kind : FolderKind
  id : Uuid
  name : String
  role : String
  deriving DecidableEq

/-- The predefined folder of pending approvals. -/
def FolderItem.approvalsVirtual : FolderItem :=
  ⟨.approvals, .filled 0, "Approvals", "system"⟩

def FolderItem.isApprovalsVirtual (folder : FolderItem) : Bool := folder.kind = .approvals

structure MessageDetail where
  id : Uuid
  subject : String
  sender : String
  snippet : String
  body : String
  flags : List String
  deriving DecidableEq

structure AttachmentItem where
  id : Uuid
  filename : String
  deriving DecidableEq

structure DraftItem where
  id : Uuid
  accountId : Uuid
  deriving DecidableEq

structure SearchHit where
  messageId : Uuid
  accountId : Uuid
  folderId : Uuid
  deriving DecidableEq

structure SearchState where
  query : String
  scopeAccount : Option Uuid
  hits : List SearchHit
  selected : Nat
  pending : Bool
  previousPane : ActivePane

/-! ## The stack of a conversation -/

structure ConversationDetailState where
  focusedMessageId : Option Uuid
  expandedMessageIds : Finset Uuid
  detailsById : Uuid → Option MessageDetail

namespace ConversationDetailState

def empty : ConversationDetailState := ⟨none, ∅, fun _ => none⟩

/-- `reset`: the selected message is focused and expanded, nothing is loaded. -/
def ofSelection (messages : List MessageItem) (selectedMessage : Nat) : ConversationDetailState :=
  let focused := (messages[min selectedMessage (messages.length - 1)]?).map (·.id)
  ⟨focused, focused.elim ∅ fun id => {id}, fun _ => none⟩

def cacheDetail (c : ConversationDetailState) (detail : MessageDetail) : ConversationDetailState :=
  { c with detailsById := Function.update c.detailsById detail.id (some detail) }

end ConversationDetailState

/-! ## The state -/

structure AppState where
  active : ActivePane
  mode : InputMode
  accounts : List AccountItem
  folders : List FolderItem
  folderMessages : List MessageItem
  folderCache : FolderMessageCache
  threads : List ThreadItem
  messages : List MessageItem
  detail : Option MessageDetail
  conversationDetail : ConversationDetailState
  attachments : List AttachmentItem
  selectedAccount : Nat
  selectedFolder : Nat
  selectedThread : Nat
  selectedMessage : Nat
  selectedAttachment : Nat
  pendingDeleteMessage : Option Uuid
  pendingDeleteDraft : Option Uuid
  commandInput : String
  error : Option String
  composer : Option ComposerState
  search : Option SearchState
  approvals : ApprovalsState
  drafts : List DraftItem
  selectedDraft : Nat

/-- What an optimistic removal keeps to undo it. -/
structure MessageListSnapshot where
  folderMessages : List MessageItem
  selectedThread : Nat
  selectedMessage : Nat
  deriving DecidableEq

/-- The new index, and whether it moved. -/
def moveIndex (index len : Nat) (delta : Int) : Nat × Bool :=
  if len = 0 then (0, false)
  else
    let old := min index (len - 1)
    let next := if delta < 0 then old - delta.natAbs else min (old + delta.toNat) (len - 1)
    (next, next ≠ old)

def foldersWithApprovals (folders : List FolderItem) : List FolderItem :=
  folders.filter (fun folder => !folder.isApprovalsVirtual) ++ [.approvalsVirtual]

def virtualFolders : List FolderItem := [.approvalsVirtual]

namespace AppState

/-- `AppState::default`. -/
def initial : AppState where
  active := .accounts
  mode := .normal
  accounts := []
  folders := []
  folderMessages := []
  folderCache := .empty
  threads := []
  messages := []
  detail := none
  conversationDetail := .empty
  attachments := []
  selectedAccount := 0
  selectedFolder := 0
  selectedThread := 0
  selectedMessage := 0
  selectedAttachment := 0
  pendingDeleteMessage := none
  pendingDeleteDraft := none
  commandInput := ""
  error := none
  composer := none
  search := none
  approvals := ⟨[], 0, false⟩
  drafts := []
  selectedDraft := 0

variable (app : AppState)

/-! ### Selections -/

def selectedAccountId : Option Uuid := (app.accounts[app.selectedAccount]?).map (·.id)

def selectedFolderId : Option Uuid :=
  (app.folders[app.selectedFolder]?).bind fun folder =>
    match folder.kind with
    | .mail => some folder.id
    | .approvals => none

def approvalsFolderSelected : Bool :=
  (app.folders[app.selectedFolder]?).any (·.isApprovalsVirtual)

def draftsPaneActive : Bool :=
  (app.folders[app.selectedFolder]?).any (·.role = "drafts")

def approvalsFolderIndex : Option Nat := app.folders.findIdx? (·.isApprovalsVirtual)

def threadRow : Option ThreadItem := app.threads[app.selectedThread]?

def selectedThreadKey : Option Uuid := app.threadRow.map (·.key)

/-- `selected_message`. -/
def messageRow : Option MessageItem :=
  if app.approvalsFolderSelected then none else app.messages[app.selectedMessage]?

def selectedMessageId : Option Uuid := app.messageRow.map (·.id)

def messageIndex (id : Uuid) : Option Nat := app.messages.findIdx? fun message => message.id = id

def selectedHit : Option SearchHit := app.search.bind fun search => search.hits[search.selected]?

/-- `selected_message_flag_update`. -/
def selectedMessageFlagUpdate (flag : String) (enabled : Bool) : Option (Uuid × List String) :=
  app.messageRow.map fun message => (message.id, setFlagPreserving message.flags flag enabled)

/-! ### Panes -/

def attachmentsPaneVisible : Bool :=
  !app.approvalsFolderSelected && app.detail.isSome && !app.attachments.isEmpty

def detailPaneVisible : Bool := app.approvalsFolderSelected || app.detail.isSome

/-- The pane `normalize_active_pane` leaves active. -/
def visiblePane : ActivePane :=
  match app.active with
  | .details => if app.detailPaneVisible then .details else .conversations
  | .attachments =>
    if app.attachmentsPaneVisible then .attachments
    else if app.detailPaneVisible then .details
    else .conversations
  | .search => if app.search.isSome then .search else .conversations
  | pane => pane

def normalizeActivePane : AppState := { app with active := app.visiblePane }

def clearError : AppState := { app with error := none }

def setError (message : String) : AppState := { app with error := some message }

def clearAttachments : AppState :=
  ({ app with attachments := [], selectedAttachment := 0 } : AppState).normalizeActivePane

def clearDetailState : AppState :=
  let conversationDetail := .ofSelection app.messages app.selectedMessage
  ({ app with detail := none, conversationDetail } : AppState).clearAttachments

def clearDrafts : AppState := { app with drafts := [], selectedDraft := 0 }

/-! ### The rows of a folder -/

/-- The index of the thread with the key, or the clamped one. -/
def threadIndex (threads : List ThreadItem) (key : Option Uuid) : Nat :=
  (key.bind fun key => threads.findIdx? fun thread => thread.key = key).getD
    (clampIndex app.selectedThread threads.length)

def rebuildThreads (key : Option Uuid) : AppState :=
  let threads := buildThreads app.folderMessages
  { app with threads, selectedThread := app.threadIndex threads key }

/-- The messages of the selected thread. -/
def visibleMessages : List MessageItem :=
  match app.selectedThreadKey with
  | some key => threadMessages app.folderMessages key
  | none => []

/-- The selected message stays selected if it is there, else the newest one is. -/
def refreshVisibleMessages : AppState :=
  let messages := app.visibleMessages
  { app with
    messages
    selectedMessage :=
      (app.selectedMessageId.bind fun id => messages.findIdx? fun message => message.id = id).getD
        (messages.length - 1) }

def folderCacheStore (accountId folderId : Uuid) (now : Nat) : AppState :=
  if app.approvalsFolderSelected then app
  else
    { app with
      folderCache := app.folderCache.store accountId folderId
        ⟨app.folderMessages, app.selectedThreadKey, app.selectedMessageId⟩ now }

def storeSelectedFolderCache (accountId folderId : Option Uuid) (now : Nat) : AppState :=
  match accountId, folderId with
  | some accountId, some folderId => app.folderCacheStore accountId folderId now
  | _, _ => app

def folderCacheInvalidateFolder (accountId folderId : Uuid) : AppState :=
  { app with folderCache := app.folderCache.invalidateFolder accountId folderId }

def folderCacheInvalidateAccount (accountId : Uuid) : AppState :=
  { app with folderCache := app.folderCache.invalidateAccount accountId }

/-- `folder_cache_lookup`. -/
def folderCacheLookup (accountId folderId : Uuid) (now : Nat) :
    Option FolderSnapshot × AppState :=
  let (snapshot, folderCache) := app.folderCache.lookup accountId folderId now
  (snapshot, { app with folderCache })

def applyFolderMessages (messages : List MessageItem) (now : Nat) : AppState :=
  let shown := (({ app with folderMessages := messages } : AppState).rebuildThreads
    app.selectedThreadKey).refreshVisibleMessages.normalizeActivePane.clearDetailState
  shown.storeSelectedFolderCache app.selectedAccountId app.selectedFolderId now

def restoreFolderSnapshot (snapshot : FolderSnapshot) : AppState :=
  let shown := (({ app with folderMessages := snapshot.folderMessages } : AppState).rebuildThreads
    snapshot.selectedThreadKey).refreshVisibleMessages
  let index := (snapshot.selectedMessageId.bind shown.messageIndex).getD shown.selectedMessage
  let restored := { shown with selectedMessage := clampIndex index shown.messages.length }
  restored.normalizeActivePane.clearDetailState

/-- What a change of the folder or of the account clears. -/
def clearRows : AppState :=
  ({ app with
    folderMessages := [], threads := [], messages := [] } : AppState).clearDrafts.clearDetailState

def applyAccounts (accounts : List AccountItem) : AppState :=
  let cleared := ({ app with
    accounts
    folderCache := app.folderCache.retainAccounts (accounts.map (·.id))
    selectedAccount := clampIndex app.selectedAccount accounts.length
    folders := virtualFolders } : AppState).clearRows
  ({ cleared with
    selectedFolder := 0
    selectedThread := 0
    selectedMessage := 0
    search := none } : AppState).normalizeActivePane

/-- The folder row `apply_folders` selects: the approvals if they are kept, the inbox on the
first load, else the row at the old index. -/
def appliedFolderIndex (folders : List FolderItem) : Nat :=
  let firstLoad := !app.folders.any (fun folder => !folder.isApprovalsVirtual)
  let keepApprovalsSelected := app.approvalsFolderSelected &&
    (app.active = .folders || app.active = .conversations || app.active = .details)
  if keepApprovalsSelected then (folders.findIdx? (·.isApprovalsVirtual)).getD 0
  else if firstLoad then (folders.findIdx? (·.role = "inbox")).getD 0
  else clampIndex app.selectedFolder folders.length

def applyFolders (folders : List FolderItem) : AppState :=
  let folders := foldersWithApprovals folders
  let selectedFolder := app.appliedFolderIndex folders
  let cleared := ({ app with folders, selectedFolder } : AppState).clearRows
  ({ cleared with selectedThread := 0, selectedMessage := 0 } : AppState).normalizeActivePane

/-! ### Flags and details -/

/-- The first row with the id gets the flags. -/
def setRowFlags (id : Uuid) (flags : List String) : List MessageItem → List MessageItem
  | [] => []
  | message :: rest =>
    if message.id = id then { message with flags } :: rest
    else message :: setRowFlags id flags rest

def listsMessage (id : Uuid) (messages : List MessageItem) : Bool :=
  messages.any fun message => message.id = id

/-- What `apply_message_flags` and `update_message_flags_from_detail` do alike: the rows get the
flags, the threads are built anew and the listing is stored if it has the message. -/
def writeRowFlags (id : Uuid) (flags : List String) (now : Nat) : AppState :=
  let key := app.selectedThreadKey
  let written := { app with
    folderMessages := setRowFlags id flags app.folderMessages
    messages := setRowFlags id flags app.messages }
  let shown :=
    if written.folderMessages.isEmpty then written
    else (written.rebuildThreads key).refreshVisibleMessages
  if listsMessage id app.folderMessages then
    shown.storeSelectedFolderCache shown.selectedAccountId shown.selectedFolderId now
  else shown

def applyMessageFlags (id : Uuid) (flags : List String) (now : Nat) : AppState :=
  let detail := app.detail.map fun detail =>
    if detail.id = id then { detail with flags } else detail
  ({ app with detail } : AppState).writeRowFlags id flags now

def updateMessageFlagsFromDetail (detail : MessageDetail) (now : Nat) : AppState :=
  app.writeRowFlags detail.id detail.flags now

/-- `focused_conversation_message_id`. -/
def focusedMessageId : Option Uuid :=
  app.conversationDetail.focusedMessageId.or app.selectedMessageId

def cacheConversationDetail (detail : MessageDetail) (now : Nat) : AppState :=
  let updated := app.updateMessageFlagsFromDetail detail now
  let cached := { updated with conversationDetail := updated.conversationDetail.cacheDetail detail }
  if cached.focusedMessageId = some detail.id then { cached with detail := some detail } else cached

def applyDetail (detail : Option MessageDetail) (now : Nat) : AppState :=
  let old := if app.detail.map (·.id) = detail.map (·.id) then app else app.clearAttachments
  let updated : AppState :=
    match detail with
    | none => old
    | some detail =>
      let flagged := old.updateMessageFlagsFromDetail detail now
      { flagged with conversationDetail := flagged.conversationDetail.cacheDetail detail }
  let active := if app.active = .details ∧ detail.isSome then .details else updated.active
  let shown : AppState := { updated with detail, active }
  (if detail.isNone then shown.clearAttachments else shown).normalizeActivePane

def applyAttachments (attachments : List AttachmentItem) : AppState :=
  let selectedAttachment := clampIndex app.selectedAttachment attachments.length
  ({ app with attachments, selectedAttachment } : AppState).normalizeActivePane

/-- The second component tells whether the focus moved. -/
def moveConversationDetailFocus (delta : Int) : AppState × Bool :=
  if app.messages.length ≤ 1 then (app, false)
  else
    let current := (app.focusedMessageId.bind app.messageIndex).getD
      (min app.selectedMessage (app.messages.length - 1))
    let next := (min (max (current + delta) 0) ((app.messages.length - 1 : Nat) : Int)).toNat
    if next = current then (app, false)
    else
      match app.messages[next]? with
      | none => (app, false)
      | some message =>
        (({ app with
          selectedMessage := next
          conversationDetail :=
            { app.conversationDetail with focusedMessageId := some message.id }
          detail := (app.conversationDetail.detailsById message.id).or app.detail
          } : AppState).clearAttachments, true)

/-! ### Optimistic removal -/

def snapshotMessageList : MessageListSnapshot :=
  ⟨app.folderMessages, app.selectedThread, app.selectedMessage⟩

def removeMessageLocally (id : Uuid) (now : Nat) : AppState × Bool :=
  if !listsMessage id app.folderMessages then (app, false)
  else
    let kept := app.folderMessages.filter fun message => message.id ≠ id
    let shown := (({ app with folderMessages := kept } : AppState).rebuildThreads
      app.selectedThreadKey).refreshVisibleMessages
    let cleared := if shown.detail.any (·.id = id) then shown.clearDetailState else shown
    let normal := cleared.normalizeActivePane
    (normal.storeSelectedFolderCache normal.selectedAccountId normal.selectedFolderId now, true)

def restoreMessageListSnapshot (snapshot : MessageListSnapshot) (now : Nat) : AppState :=
  let folderMessages := snapshot.folderMessages
  let rebuilt := ({ app with folderMessages } : AppState).rebuildThreads none
  let visible := ({ rebuilt with
    selectedThread := clampIndex snapshot.selectedThread rebuilt.threads.length
    } : AppState).refreshVisibleMessages
  let restored := ({ visible with
    selectedMessage := clampIndex snapshot.selectedMessage visible.messages.length
    } : AppState).normalizeActivePane
  restored.storeSelectedFolderCache restored.selectedAccountId restored.selectedFolderId now

/-! ### Moving through the panes -/

/-- `move_selection` in the accounts pane. -/
def moveAccount (delta : Int) : AppState × Bool :=
  let (selectedAccount, changed) := moveIndex app.selectedAccount app.accounts.length delta
  let moved := { app with selectedAccount }
  if changed then
    ({ ({ moved with folders := virtualFolders } : AppState).clearRows with
      selectedFolder := 0, selectedThread := 0, selectedMessage := 0 }, true)
  else (moved, false)

/-- `move_selection` in the folders pane. -/
def moveFolder (delta : Int) : AppState × Bool :=
  let (selectedFolder, changed) := moveIndex app.selectedFolder app.folders.length delta
  let moved := { app with selectedFolder }
  if changed then ({ moved.clearRows with selectedThread := 0, selectedMessage := 0 }, true)
  else (moved, false)

/-- `move_selection` in the conversations pane, on the threads of a mail folder. -/
def moveThread (delta : Int) : AppState × Bool :=
  let (selectedThread, changed) := moveIndex app.selectedThread app.threads.length delta
  let moved := { app with selectedThread }
  if changed then
    (({ moved with selectedMessage := 0 } : AppState).refreshVisibleMessages.clearDetailState, true)
  else (moved, false)

/-- Select an account if it is another one; its rows are gone. -/
def selectHitAccount (index : Nat) : AppState :=
  if app.selectedAccount = index then app
  else
    let cleared : AppState := { app with
      selectedAccount := index
      folders := []
      folderMessages := []
      threads := []
      messages := [] }
    { cleared.clearDetailState with selectedFolder := 0, selectedThread := 0 }

/-- The second component tells whether the account of the hit is known. -/
def jumpToHit (hit : SearchHit) : AppState × Bool :=
  match app.accounts.findIdx? fun account => account.id = hit.accountId with
  | none => (app, false)
  | some index =>
    let moved := app.selectHitAccount index
    let folderIndex := moved.folders.findIdx? fun folder => folder.id = hit.folderId
    let jumped : AppState := { moved with
      selectedFolder := folderIndex.getD moved.selectedFolder
      selectedMessage := (moved.messageIndex hit.messageId).getD moved.selectedMessage
      search := none
      active := .conversations }
    (jumped.normalizeActivePane, true)

end AppState

end Postblox.Tui
