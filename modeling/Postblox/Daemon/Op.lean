import Mathlib

/-!
# The vocabulary of the dispatcher

Every op the daemon dispatches, with its wire string.
-/
namespace Postblox.Daemon

inductive Op where
  | accountList
  | folderList
  | threadList
  | messageListByFolder
  | messageListByThread
  | messageGet
  | attachmentList
  | attachmentPreview
  | search
  | sqlQuery
  | sqlSchema
  | auditListRecent
  | mcpGateList
  | mcpGateCreate
  | mcpGateDelete
  | mcpApprovalCreate
  | mcpApprovalList
  | mcpApprovalGet
  | mcpApprovalDecide
  | accountCreate
  | accountDelete
  | folderUpsert
  | messageSetFlags
  | messageArchive
  | messageDelete
  | messageMove
  | draftCreate
  | draftUpdate
  | draftDelete
  | draftList
  | draftGet
  | attachmentExport
  | messagePrepareReply
  | messagePrepareForward
  | attachmentFetchForForward
  | attachmentFetchForForwardBatch
  | messageSend
  | accountTestLogin
  | accountSyncFolder
  | accountStartSync
  | accountStopSync
  | accountSetSecret
  | accountDeleteSecret
  | oauthGoogleAuthUrl
  | oauthGoogleComplete
  deriving DecidableEq

namespace Op

def asStr : Op → String
  | .accountList => "account.list"
  | .folderList => "folder.list"
  | .threadList => "thread.list"
  | .messageListByFolder => "message.list_by_folder"
  | .messageListByThread => "message.list_by_thread"
  | .messageGet => "message.get"
  | .attachmentList => "attachment.list"
  | .attachmentPreview => "attachment.preview"
  | .search => "search"
  | .sqlQuery => "sql.query"
  | .sqlSchema => "sql.schema"
  | .auditListRecent => "audit.list_recent"
  | .mcpGateList => "mcp.gate.list"
  | .mcpGateCreate => "mcp.gate.create"
  | .mcpGateDelete => "mcp.gate.delete"
  | .mcpApprovalCreate => "mcp.approval.create"
  | .mcpApprovalList => "mcp.approval.list"
  | .mcpApprovalGet => "mcp.approval.get"
  | .mcpApprovalDecide => "mcp.approval.decide"
  | .accountCreate => "account.create"
  | .accountDelete => "account.delete"
  | .folderUpsert => "folder.upsert"
  | .messageSetFlags => "message.set_flags"
  | .messageArchive => "message.archive"
  | .messageDelete => "message.delete"
  | .messageMove => "message.move"
  | .draftCreate => "draft.create"
  | .draftUpdate => "draft.update"
  | .draftDelete => "draft.delete"
  | .draftList => "draft.list"
  | .draftGet => "draft.get"
  | .attachmentExport => "attachment.export"
  | .messagePrepareReply => "message.prepare_reply"
  | .messagePrepareForward => "message.prepare_forward"
  | .attachmentFetchForForward => "attachment.fetch_for_forward"
  | .attachmentFetchForForwardBatch => "attachment.fetch_for_forward_batch"
  | .messageSend => "message.send"
  | .accountTestLogin => "account.test_login"
  | .accountSyncFolder => "account.sync_folder"
  | .accountStartSync => "account.start_sync"
  | .accountStopSync => "account.stop_sync"
  | .accountSetSecret => "account.set_secret"
  | .accountDeleteSecret => "account.delete_secret"
  | .oauthGoogleAuthUrl => "oauth.google.auth_url"
  | .oauthGoogleComplete => "oauth.google.complete"

def all : List Op :=
  [.accountList, .folderList, .threadList, .messageListByFolder, .messageListByThread,
    .messageGet, .attachmentList, .attachmentPreview, .search, .sqlQuery, .sqlSchema,
    .auditListRecent, .mcpGateList, .mcpGateCreate, .mcpGateDelete, .mcpApprovalCreate,
    .mcpApprovalList, .mcpApprovalGet, .mcpApprovalDecide, .accountCreate, .accountDelete,
    .folderUpsert, .messageSetFlags, .messageArchive, .messageDelete, .messageMove, .draftCreate,
    .draftUpdate, .draftDelete, .draftList, .draftGet, .attachmentExport, .messagePrepareReply,
    .messagePrepareForward, .attachmentFetchForForward, .attachmentFetchForForwardBatch,
    .messageSend, .accountTestLogin, .accountSyncFolder, .accountStartSync, .accountStopSync,
    .accountSetSecret, .accountDeleteSecret, .oauthGoogleAuthUrl, .oauthGoogleComplete]

/-- `from_str`. -/
def parse (s : String) : Option Op := all.find? fun op => op.asStr = s

/-- Every op is read back from its wire string. -/
theorem parse_asStr (op : Op) : parse op.asStr = some op := by
  cases op <;> decide

end Op

end Postblox.Daemon
