import Postblox.Daemon.Decoders

/-!
# What the terminal client sends

One constructor per method of the client, with the builder of its arguments. A path is
the text `Path::display` gives. `intended` is the request the daemon should understand;
every builder but one says exactly that.
-/
namespace Postblox.Tui

open Json (Value)
open Daemon.Args
open Mcp.Bridge (DecideRequest decodeDecide)

structure ComposerAttachment where
  path : String
  filename : String
  contentType : String

/-- Snapshot of the composer. -/
structure ComposerDraft where
  accountId : Uuid
  inReplyToMsg : Option Uuid
  toAddrs : List String
  ccAddrs : List String
  bccAddrs : List String
  subject : Option String
  textBody : Option String
  htmlBody : Option String
  attachments : List ComposerAttachment
  inReplyTo : Option String
  referencesHeader : Option String

/-! ## Builders -/

def idValue (id : Uuid) : Value := .string id.hyphenated

def strings (l : List String) : Value := .array (l.map .string)

/-- An `Option` in `json!`. -/
def optional {α : Type} (write : α → Value) : Option α → Value
  | none => .null
  | some a => write a

def int (n : UInt64) : Value := .number (.posInt n)

def accountFolderArgs (accountId : Uuid) (folderName : String) : Value :=
  .object [("account_id", idValue accountId), ("folder_name", .string folderName)]

def setFlagsArgs (messageId : Uuid) (flags : List String) : Value :=
  .object [("flags", strings flags), ("id", idValue messageId)]

def attachmentListArgs (messageId : Uuid) : Value := .object [("message_id", idValue messageId)]

def attachmentPreviewArgs (attachmentId : Uuid) : Value := .object [("id", idValue attachmentId)]

def attachmentExportArgs (attachmentId : Uuid) (destinationPath : String) : Value :=
  .object [("destination_path", .string destinationPath), ("id", idValue attachmentId)]

def draftAttachmentSpecs (draft : ComposerDraft) : Value :=
  .array (draft.attachments.map fun a => .object
    [("content_type", .string a.contentType), ("filename", .string a.filename),
      ("path", .string a.path)])

def draftCreateArgs (draft : ComposerDraft) : Value :=
  .object
    [("account_id", idValue draft.accountId),
      ("attachments", draftAttachmentSpecs draft),
      ("bcc_addrs", strings draft.bccAddrs),
      ("cc_addrs", strings draft.ccAddrs),
      ("html_body", optional .string draft.htmlBody),
      ("in_reply_to", optional .string draft.inReplyTo),
      ("in_reply_to_msg", optional idValue draft.inReplyToMsg),
      ("references_header", optional .string draft.referencesHeader),
      ("subject", optional .string draft.subject),
      ("text_body", optional .string draft.textBody),
      ("to_addrs", strings draft.toAddrs)]

def draftUpdateArgs (draftId : Uuid) (draft : ComposerDraft) : Value :=
  .object
    [("attachments", draftAttachmentSpecs draft),
      ("bcc_addrs", strings draft.bccAddrs),
      ("cc_addrs", strings draft.ccAddrs),
      ("html_body", optional .string draft.htmlBody),
      ("id", idValue draftId),
      ("subject", optional .string draft.subject),
      ("text_body", optional .string draft.textBody),
      ("to_addrs", strings draft.toAddrs)]

def messageSendArgs (accountId draftId : Uuid) : Value :=
  .object [("account_id", idValue accountId), ("draft_id", idValue draftId)]

def searchArgs (query : String) : Option Uuid → Value
  | some accountId =>
    .object [("account_id", idValue accountId), ("limit", int 50), ("q", .string query)]
  | none => .object [("limit", int 50), ("q", .string query)]

def approvalDecideArgs (approvalId : Uuid) (state : ApprovalState) : Value :=
  .object [("decided_by", .string "tui"), ("id", idValue approvalId),
    ("state", .string state.asStr)]

/-! ## Forwarded attachments are fetched in batches -/

def usizeMax : Nat := 2 ^ 64 - 1

def forwardAttachmentBatchMaxIds : Nat := 32

def forwardAttachmentBatchWireBudget : Nat := 4 * 1024 * 1024 - 64 * 1024

/-- Base64 text and framing of an attachment; additions and products saturate. -/
def estimatedForwardAttachmentWireBytes (sizeBytes : Int) : Nat :=
  let raw := (max sizeBytes 0).toNat
  min usizeMax (min usizeMax (min usizeMax (raw + 2) / 3 * 4) + 512)

/-- The loop of `forward_attachment_batches`: the finished batches follow the open one. -/
def batchesFrom (batch : List Uuid) (estimated : Nat) : List (Uuid × Int) → List (List Uuid)
  | [] => if batch.isEmpty then [] else [batch]
  | (id, sizeBytes) :: rest =>
    let next := estimatedForwardAttachmentWireBytes sizeBytes
    if forwardAttachmentBatchMaxIds ≤ batch.length ∨
        (!batch.isEmpty) = true ∧
          forwardAttachmentBatchWireBudget < min usizeMax (estimated + next) then
      batch :: batchesFrom [id] (min usizeMax (0 + next)) rest
    else batchesFrom (batch ++ [id]) (min usizeMax (estimated + next)) rest

/-- An id and the stored size of each attachment of the forwarded message. -/
def forwardAttachmentBatches (metas : List (Uuid × Int)) : List (List Uuid) :=
  batchesFrom [] 0 metas

theorem batchesFrom_size (batch : List Uuid) (estimated : Nat) (metas : List (Uuid × Int))
    (hsize : batch.length ≤ forwardAttachmentBatchMaxIds) :
    ∀ ids ∈ batchesFrom batch estimated metas,
      ids ≠ [] ∧ ids.length ≤ forwardAttachmentBatchMaxIds := by
  induction metas generalizing batch estimated with
  | nil =>
    intro ids hids
    unfold batchesFrom at hids
    split_ifs at hids with hempty
    · exact absurd hids List.not_mem_nil
    · rw [List.mem_singleton.mp hids]
      exact ⟨fun h => hempty (List.isEmpty_iff.mpr h), hsize⟩
  | cons meta' rest ih =>
    obtain ⟨id, sizeBytes⟩ := meta'
    intro ids hids
    unfold batchesFrom at hids
    dsimp only at hids
    split_ifs at hids with hfull
    · rcases List.mem_cons.mp hids with rfl | hlater
      · refine ⟨fun hnil => ?_, hsize⟩
        rw [hnil] at hfull
        rcases hfull with hcount | ⟨hopen, -⟩
        · exact absurd hcount (by decide)
        · exact absurd hopen (by decide)
      · exact ih [id] _ (show 1 ≤ forwardAttachmentBatchMaxIds by decide) ids hlater
    · refine ih (batch ++ [id]) _ ?_ ids hids
      rw [List.length_append, List.length_singleton]
      have hroom : ¬ forwardAttachmentBatchMaxIds ≤ batch.length := fun h => hfull (.inl h)
      omega

/-- Every batch fits the daemon's limit and none is empty. -/
theorem forwardAttachmentBatches_size (metas : List (Uuid × Int)) :
    ∀ ids ∈ forwardAttachmentBatches metas,
      ids ≠ [] ∧ ids.length ≤ maxForwardAttachmentBatch :=
  batchesFrom_size [] 0 metas (Nat.zero_le _)

/-! ## Requests -/

/-- The methods of `MailboxClient` that send a request. -/
inductive Request where
  | listAccounts
  | listFolders (accountId : Uuid)
  | listMessages (folderId : Uuid)
  | getMessage (messageId : Uuid)
  | syncFolder (accountId : Uuid) (folderName : String)
  | startSync (accountId : Uuid) (folderName : String)
  | stopSync (accountId : Uuid) (folderName : String)
  | setFlags (messageId : Uuid) (flags : List String)
  | archiveMessage (messageId : Uuid)
  | deleteMessage (messageId : Uuid)
  | moveMessage (messageId : Uuid) (folderName : String)
  | listAttachments (messageId : Uuid)
  | previewAttachment (attachmentId : Uuid)
  | exportAttachment (attachmentId : Uuid) (destinationPath : String)
  | createDraft (draft : ComposerDraft)
  | updateDraft (draftId : Uuid) (draft : ComposerDraft)
  | sendDraft (accountId draftId : Uuid)
  | listDrafts (accountId : Uuid)
  | getDraft (draftId : Uuid)
  | deleteDraft (draftId : Uuid)
  | search (query : String) (accountId : Option Uuid)
  | listPendingApprovals
  | decideApproval (approvalId : Uuid) (state : ApprovalState)
  | prepareReply (messageId : Uuid) (replyAll : Bool)
  | prepareForward (messageId : Uuid)
  | fetchAttachmentForForward (attachmentId : Uuid)
  | fetchAttachmentsForForward (messageId : Uuid) (attachmentIds : List Uuid)

namespace Request

def op : Request → String
  | listAccounts => "account.list"
  | listFolders _ => "folder.list"
  | listMessages _ => "message.list_by_folder"
  | getMessage _ => "message.get"
  | syncFolder _ _ => "account.sync_folder"
  | startSync _ _ => "account.start_sync"
  | stopSync _ _ => "account.stop_sync"
  | setFlags _ _ => "message.set_flags"
  | archiveMessage _ => "message.archive"
  | deleteMessage _ => "message.delete"
  | moveMessage _ _ => "message.move"
  | listAttachments _ => "attachment.list"
  | previewAttachment _ => "attachment.preview"
  | exportAttachment _ _ => "attachment.export"
  | createDraft _ => "draft.create"
  | updateDraft _ _ => "draft.update"
  | sendDraft _ _ => "message.send"
  | listDrafts _ => "draft.list"
  | getDraft _ => "draft.get"
  | deleteDraft _ => "draft.delete"
  | search _ _ => "search"
  | listPendingApprovals => "mcp.approval.list"
  | decideApproval _ _ => "mcp.approval.decide"
  | prepareReply _ _ => "message.prepare_reply"
  | prepareForward _ => "message.prepare_forward"
  | fetchAttachmentForForward _ => "attachment.fetch_for_forward"
  | fetchAttachmentsForForward _ _ => "attachment.fetch_for_forward_batch"

def args : Request → Value
  | listAccounts => .object []
  | listFolders accountId => .object [("account_id", idValue accountId)]
  | listMessages folderId =>
    .object [("folder_id", idValue folderId), ("limit", int 100), ("offset", int 0)]
  | getMessage messageId => .object [("id", idValue messageId)]
  | syncFolder accountId folderName => accountFolderArgs accountId folderName
  | startSync accountId folderName => accountFolderArgs accountId folderName
  | stopSync accountId folderName => accountFolderArgs accountId folderName
  | setFlags messageId flags => setFlagsArgs messageId flags
  | archiveMessage messageId => .object [("id", idValue messageId)]
  | deleteMessage messageId => .object [("id", idValue messageId)]
  | moveMessage messageId folderName =>
    .object [("folder_name", .string folderName), ("id", idValue messageId)]
  | listAttachments messageId => attachmentListArgs messageId
  | previewAttachment attachmentId => attachmentPreviewArgs attachmentId
  | exportAttachment attachmentId destinationPath =>
    attachmentExportArgs attachmentId destinationPath
  | createDraft draft => draftCreateArgs draft
  | updateDraft draftId draft => draftUpdateArgs draftId draft
  | sendDraft accountId draftId => messageSendArgs accountId draftId
  | listDrafts accountId => .object [("account_id", idValue accountId)]
  | getDraft draftId => .object [("id", idValue draftId)]
  | deleteDraft draftId => .object [("id", idValue draftId)]
  | search query accountId => searchArgs query accountId
  | listPendingApprovals =>
    .object [("limit", int 100), ("offset", int 0), ("state", .string "pending")]
  | decideApproval approvalId state => approvalDecideArgs approvalId state
  | prepareReply messageId replyAll =>
    .object [("message_id", idValue messageId), ("reply_all", .bool replyAll)]
  | prepareForward messageId => .object [("message_id", idValue messageId)]
  | fetchAttachmentForForward attachmentId => .object [("attachment_id", idValue attachmentId)]
  | fetchAttachmentsForForward messageId attachmentIds =>
    .object [("attachment_ids", .array (attachmentIds.map idValue)),
      ("message_id", idValue messageId)]

end Request

/-- The attachments of the composer as the daemon should read them. -/
def ComposerDraft.specs (draft : ComposerDraft) : List DraftAttachmentSpec :=
  draft.attachments.map fun a => ⟨a.path, some a.contentType, some a.filename⟩

def noFilters (accountId : Option Uuid) : SearchFilters :=
  ⟨accountId, none, none, none, none, none, none, none, none⟩

/-- What the client means. -/
def Request.intended : Request → Decoded
  | listAccounts => .accountList
  | listFolders accountId => .folderList accountId
  | listMessages folderId => .messageListByFolder folderId 100 0
  | getMessage messageId => .messageGet messageId
  | syncFolder accountId folderName => .accountSyncFolder accountId folderName
  | startSync accountId folderName => .accountStartSync accountId folderName
  | stopSync accountId folderName => .accountStopSync accountId folderName
  | setFlags messageId flags => .operation (.messageSetFlags messageId flags)
  | archiveMessage messageId => .messageArchive messageId
  | deleteMessage messageId => .messageDelete messageId
  | moveMessage messageId folderName => .messageMove messageId folderName
  | listAttachments messageId => .attachmentList messageId
  | previewAttachment attachmentId => .attachmentPreview attachmentId
  | exportAttachment attachmentId destinationPath =>
    .attachmentExport attachmentId destinationPath
  | createDraft draft => .operation (.draftCreate
      ⟨draft.accountId, draft.inReplyToMsg, draft.toAddrs, draft.ccAddrs, draft.bccAddrs,
        draft.subject, draft.textBody, draft.htmlBody, draft.inReplyTo, draft.referencesHeader⟩
      (some draft.specs))
  | updateDraft draftId draft => .operation (.draftUpdate
      ⟨draftId, draft.toAddrs, draft.ccAddrs, draft.bccAddrs, draft.subject, draft.textBody,
        draft.htmlBody⟩
      (some draft.specs))
  | sendDraft accountId draftId => .operation (.messageSend accountId draftId)
  | listDrafts accountId => .draftList accountId
  | getDraft draftId => .draftGet draftId
  | deleteDraft draftId => .operation (.draftDelete draftId)
  | search query accountId => .search query (noFilters accountId) 50 0
  | listPendingApprovals => .mcpApprovalList (some .pending) 100 0
  | decideApproval approvalId state => .mcpApprovalDecide ⟨approvalId, state, "tui"⟩
  | prepareReply messageId replyAll => .messagePrepareReply messageId replyAll
  | prepareForward messageId => .messagePrepareForward messageId
  | fetchAttachmentForForward attachmentId => .attachmentFetchForForward attachmentId
  | fetchAttachmentsForForward messageId attachmentIds =>
    .attachmentFetchForForwardBatch messageId attachmentIds

end Postblox.Tui
