import Postblox.Tui.Rows

/-!
# Loading what is selected

The panes are filled from the daemon's answers, and the rows of a folder from the cache while
no error is shown. A refresh reads the clock once, and what it loads stays within the places
that are selected: the account and the folder do not change under it.
-/
namespace Postblox.Tui

/-- What the daemon answers to the reads of the client. -/
structure Mailbox where
  listFolders : Uuid → Except String (List FolderItem)
  listMessages : Uuid → Except String (List MessageItem)
  getMessage : Uuid → Except String (Option MessageDetail)
  listAttachments : Uuid → Except String (List AttachmentItem)
  previewAttachment : Uuid → Except String Unit
  listPendingApprovals : Except String (List ApprovalItem)

/-- No call ends in an error. -/
structure Mailbox.Answers (mailbox : Mailbox) : Prop where
  folders : ∀ account, ∃ folders, mailbox.listFolders account = .ok folders
  messages : ∀ folder, ∃ messages, mailbox.listMessages folder = .ok messages
  detail : ∀ message, ∃ detail, mailbox.getMessage message = .ok detail
  attachments : ∀ message, ∃ attachments, mailbox.listAttachments message = .ok attachments
  preview : ∀ attachment, ∃ preview, mailbox.previewAttachment attachment = .ok preview
  approvals : ∃ approvals, mailbox.listPendingApprovals = .ok approvals

namespace AppState

variable (mailbox : Mailbox) (now : Nat) (app : AppState)

def selectedAttachmentId : Option Uuid := (app.attachments[app.selectedAttachment]?).map (·.id)

/-- The preview itself is left out. -/
def refreshAttachmentPreview : AppState :=
  match app.selectedAttachmentId with
  | none => app
  | some attachment =>
    match mailbox.previewAttachment attachment with
    | .ok () => app.clearError
    | .error message => app.setError message

def refreshAttachments : AppState :=
  match app.selectedMessageId with
  | none => app.applyAttachments []
  | some message =>
    match mailbox.listAttachments message with
    | .ok attachments =>
      let shown := app.applyAttachments attachments
      if attachments.length = 0 then shown else shown.refreshAttachmentPreview mailbox
    | .error message => app.setError message

def refreshDetail : AppState :=
  match app.selectedMessageId with
  | none => app.applyDetail none now
  | some message =>
    match mailbox.getMessage message with
    | .ok detail =>
      let shown := app.clearError.applyDetail detail now
      if shown.detail.isSome then shown.refreshAttachments mailbox else shown
    | .error message => app.setError message

def refreshApprovals : AppState :=
  match mailbox.listPendingApprovals with
  | .ok approvals => { app.clearError with approvals := app.approvals.applyApprovals approvals }
  | .error message =>
    ({ app with approvals := { app.approvals with pending := false } } : AppState).setError message

/-- The rows of a folder from the daemon. -/
def loadMessages (folder : Uuid) : AppState :=
  match mailbox.listMessages folder with
  | .ok messages =>
    let shown := app.clearError.applyFolderMessages messages now
    if messages.length = 0 then shown else shown.refreshDetail mailbox now
  | .error message => app.setError message

/-- What the cache has for a folder, if it is asked. -/
def cachedRows (folder : Uuid) : Option FolderSnapshot × AppState :=
  if app.error.isNone then
    match app.selectedAccountId with
    | some account => app.folderCacheLookup account folder now
    | none => (none, app)
  else (none, app)

def refreshMessages : AppState :=
  if app.approvalsFolderSelected then app.refreshApprovals mailbox
  else
    match app.selectedFolderId with
    | none => app.applyFolderMessages [] now
    | some folder =>
      match app.cachedRows now folder with
      | (some snapshot, looked) =>
        let shown := looked.restoreFolderSnapshot snapshot
        if shown.selectedMessageId.isSome then shown.refreshDetail mailbox now else shown
      | (none, looked) => looked.loadMessages mailbox now folder

def refreshFolders : AppState :=
  match app.selectedAccountId with
  | none => app.applyFolders []
  | some account =>
    match mailbox.listFolders account with
    | .ok folders =>
      let shown := app.clearError.applyFolders folders
      if folders.length = 0 then shown
      else if shown.approvalsFolderSelected then shown.refreshApprovals mailbox
      else shown.refreshMessages mailbox now
    | .error message => app.setError message

/-- Enter in the search pane. The times are those of the three refreshes. -/
def enterSearchHit (t₁ t₂ t₃ : Nat) : AppState :=
  match app.selectedHit with
  | none => app
  | some hit =>
    let (jumped, known) := app.jumpToHit hit
    if known then
      ((jumped.refreshFolders mailbox t₁).refreshMessages mailbox t₂).refreshDetail mailbox t₃
    else jumped.setError "Could not jump to result"

/-! ## The places stay selected -/

/-- The selected account and the selected folder, with the rows they are chosen from. -/
def place : List AccountItem × List FolderItem × Nat × Nat :=
  (app.accounts, app.folders, app.selectedAccount, app.selectedFolder)

variable {mailbox now app}

theorem selectedAccountId_of_place {app' : AppState} (h : app'.place = app.place) :
    app'.selectedAccountId = app.selectedAccountId := by
  simp only [place, Prod.mk.injEq] at h
  rw [selectedAccountId, selectedAccountId, h.1, h.2.2.1]

theorem selectedFolderId_of_place {app' : AppState} (h : app'.place = app.place) :
    app'.selectedFolderId = app.selectedFolderId := by
  simp only [place, Prod.mk.injEq] at h
  rw [selectedFolderId, selectedFolderId, h.2.1, h.2.2.2]

@[simp] theorem place_storeSelectedFolderCache (account folder : Option Uuid) :
    (app.storeSelectedFolderCache account folder now).place = app.place := by
  obtain ⟨folderCache, heq⟩ := app.storeSelectedFolderCache_eq account folder now
  rw [heq]
  rfl

@[simp] theorem place_writeRowFlags (id : Uuid) (flags : List String) :
    (app.writeRowFlags id flags now).place = app.place := by
  obtain ⟨folderCache, ⟨-, heq⟩ | ⟨-, heq⟩⟩ := app.writeRowFlags_eq id flags now
  · rw [heq]
    rfl
  · rw [heq]
    rfl

@[simp] theorem place_applyDetail (detail : Option MessageDetail) :
    (app.applyDetail detail now).place = app.place := by
  unfold applyDetail
  generalize hold : (if app.detail.map (·.id) = detail.map (·.id) then app
    else app.clearAttachments) = old
  have hplace : old.place = app.place := by
    rw [← hold]
    split_ifs
    · rfl
    · rfl
  cases detail with
  | none => exact hplace
  | some detail => exact (place_writeRowFlags detail.id detail.flags).trans hplace

@[simp] theorem place_applyFolderMessages (messages : List MessageItem) :
    (app.applyFolderMessages messages now).place = app.place :=
  place_storeSelectedFolderCache _ _

@[simp] theorem place_refreshAttachments :
    (app.refreshAttachments mailbox).place = app.place := by
  unfold refreshAttachments
  split
  · rfl
  · split
    · dsimp only
      split_ifs
      · rfl
      · unfold refreshAttachmentPreview
        split
        · rfl
        · split
          · rfl
          · rfl
    · rfl

@[simp] theorem place_refreshDetail : (app.refreshDetail mailbox now).place = app.place := by
  unfold refreshDetail
  split
  · exact place_applyDetail none
  · split
    · dsimp only
      split_ifs
      · rw [place_refreshAttachments, place_applyDetail]
        rfl
      · rw [place_applyDetail]
        rfl
    · rfl

@[simp] theorem place_refreshApprovals : (app.refreshApprovals mailbox).place = app.place := by
  unfold refreshApprovals
  split
  · rfl
  · rfl

theorem place_loadMessages (folder : Uuid) :
    (app.loadMessages mailbox now folder).place = app.place := by
  unfold loadMessages
  split
  · dsimp only
    split_ifs
    · rw [place_applyFolderMessages]
      rfl
    · rw [place_refreshDetail, place_applyFolderMessages]
      rfl
  · rfl

theorem place_cachedRows (folder : Uuid) : (app.cachedRows now folder).2.place = app.place := by
  unfold cachedRows
  split_ifs
  · split
    · rfl
    · rfl
  · rfl

@[simp] theorem place_refreshMessages : (app.refreshMessages mailbox now).place = app.place := by
  unfold refreshMessages
  split_ifs
  · exact place_refreshApprovals
  · split
    · exact place_applyFolderMessages []
    · rename_i folder _
      have hlooked := @place_cachedRows now app folder
      split
      · rename_i snapshot looked hrows
        rw [hrows] at hlooked
        dsimp only
        split_ifs
        · rw [place_refreshDetail]
          exact hlooked
        · exact hlooked
      · rename_i looked hrows
        rw [hrows] at hlooked
        exact (place_loadMessages folder).trans hlooked

end AppState

end Postblox.Tui
