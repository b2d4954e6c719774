import Postblox.Mail.Threading
import Postblox.Mcp.Bridge

/-!
# The decoding head of each handler

Every handler reads its arguments before it touches the database or the file
system. `decode` is that head for the operations the terminal client sends; what it
returns is what the handler goes on with.
-/
namespace Postblox.Daemon.Args

open Json (Value)
open Mcp.Bridge (DecideRequest decodeDecide)

inductive Op where
  | accountList
  | folderList
  | messageListByFolder
  | messageGet
  | accountSyncFolder
  | accountStartSync
  | accountStopSync
  | messageSetFlags
  | messageArchive
  | messageDelete
  | messageMove
  | attachmentList
  | attachmentPreview
  | attachmentExport
  | draftCreate
  | draftUpdate
  | messageSend
  | draftList
  | draftGet
  | draftDelete
  | search
  | mcpApprovalList
  | mcpApprovalDecide
  | messagePrepareReply
  | messagePrepareForward
  | attachmentFetchForForward
  | attachmentFetchForForwardBatch
  deriving DecidableEq

namespace Op

def asStr : Op → String
  | .accountList => "account.list"
  | .folderList => "folder.list"
  | .messageListByFolder => "message.list_by_folder"
  | .messageGet => "message.get"
  | .accountSyncFolder => "account.sync_folder"
  | .accountStartSync => "account.start_sync"
  | .accountStopSync => "account.stop_sync"
  | .messageSetFlags => "message.set_flags"
  | .messageArchive => "message.archive"
  | .messageDelete => "message.delete"
  | .messageMove => "message.move"
  | .attachmentList => "attachment.list"
  | .attachmentPreview => "attachment.preview"
  | .attachmentExport => "attachment.export"
  | .draftCreate => "draft.create"
  | .draftUpdate => "draft.update"
  | .messageSend => "message.send"
  | .draftList => "draft.list"
  | .draftGet => "draft.get"
  | .draftDelete => "draft.delete"
  | .search => "search"
  | .mcpApprovalList => "mcp.approval.list"
  | .mcpApprovalDecide => "mcp.approval.decide"
  | .messagePrepareReply => "message.prepare_reply"
  | .messagePrepareForward => "message.prepare_forward"
  | .attachmentFetchForForward => "attachment.fetch_for_forward"
  | .attachmentFetchForForwardBatch => "attachment.fetch_for_forward_batch"

def all : List Op :=
  [.accountList, .folderList, .messageListByFolder, .messageGet, .accountSyncFolder,
    .accountStartSync, .accountStopSync, .messageSetFlags, .messageArchive, .messageDelete,
    .messageMove, .attachmentList, .attachmentPreview, .attachmentExport, .draftCreate,
    .draftUpdate, .messageSend, .draftList, .draftGet, .draftDelete, .search, .mcpApprovalList,
    .mcpApprovalDecide, .messagePrepareReply, .messagePrepareForward, .attachmentFetchForForward,
    .attachmentFetchForForwardBatch]

def fromStr (s : String) : Option Op := all.find? (fun op => op.asStr = s)

end Op

variable (crates : Crates)

/-! ## Dispatcher helpers -/

def optionalStr (args : Value) (key : String) : Except RpcError (Option String) :=
  match args.get key with
  | some .null | none => .ok none
  | some (.string s) => .ok (some s)
  | some _ => .error (.badArgs s!"'{key}' must be a string")

def optionalId (args : Value) (key : String) : Except RpcError (Option Uuid) :=
  match args.get key with
  | some .null | none => .ok none
  | some _ => (parseId crates args key).map some

def optionalBool (args : Value) (key : String) : Except RpcError (Option Bool) :=
  match args.get key with
  | some .null | none => .ok none
  | some (.bool b) => .ok (some b)
  | some _ => .error (.badArgs s!"'{key}' must be a boolean")

/-- The parser's own message follows the colon. -/
def optionalRfc3339 (args : Value) (key : String) : Except RpcError (Option Int) := do
  match ← optionalStr args key with
  | none => return none
  | some s =>
    match crates.parseRfc3339 s with
    | none => throw (.badArgs s!"'{key}' must be rfc3339: {crates.serdeError (.string s)}")
    | some t => return some t

def optionalNonemptyString (args : Value) (key : String) : Except RpcError (Option String) := do
  match ← optionalStr args key with
  | none => return none
  | some s => if s = "" then throw (.badArgs s!"'{key}' must not be empty") else return some s

/-- An id that `parse_id_array` reads at `index`. -/
def parseIdAt (key : String) (index : Nat) (value : Value) : Except RpcError Uuid :=
  match value.asStr with
  | none => .error (.badArgs s!"'{key}[{index}]' must be a string")
  | some s =>
    match crates.uuid.parseStr s with
    | none => .error (.badArgs s!"bad '{key}[{index}]': {crates.uuidError s}")
    | some u => .ok u

/-- The ids in order; the first bad one decides the error. -/
def parseIdsFrom (key : String) : Nat → List Value → Except RpcError (List Uuid)
  | _, [] => .ok []
  | index, value :: rest => do
    let u ← parseIdAt crates key index value
    return u :: (← parseIdsFrom key (index + 1) rest)

def parseIdArray (args : Value) (key : String) (maxLen : Nat) : Except RpcError (List Uuid) :=
  match (args.get key).bind Value.asArray with
  | none => .error (.badArgs s!"missing '{key}'")
  | some values =>
    if values.isEmpty then .error (.badArgs s!"'{key}' cannot be empty")
    else if maxLen < values.length then
      .error (.badArgs s!"'{key}' cannot contain more than {maxLen} ids")
    else parseIdsFrom crates key 0 values

def i64Or (args : Value) (key : String) (default : Int) : Int :=
  ((args.get key).bind Value.asI64).getD default

/-- `account.sync_folder` and its siblings take any string, the empty one included. -/
def folderName (args : Value) : Except RpcError String :=
  match (args.get "folder_name").bind Value.asStr with
  | none => .error (.badArgs "missing 'folder_name'")
  | some name => .ok name

structure SearchFilters where
  accountId : Option Uuid
  folderId : Option Uuid
  threadId : Option Uuid
  dateFrom : Option Int
  dateTo : Option Int
  fromAddr : Option String
  toAddr : Option String
  hasAttachments : Option Bool
  unread : Option Bool
  deriving DecidableEq

def searchFilters (args : Value) : Except RpcError SearchFilters := do
  return {
    accountId := ← optionalId crates args "account_id"
    folderId := ← optionalId crates args "folder_id"
    threadId := ← optionalId crates args "thread_id"
    dateFrom := ← optionalRfc3339 crates args "date_from"
    dateTo := ← optionalRfc3339 crates args "date_to"
    fromAddr := ← optionalNonemptyString args "from_addr"
    toAddr := ← optionalNonemptyString args "to_addr"
    hasAttachments := ← optionalBool args "has_attachments"
    unread := ← optionalBool args "unread" }

/-! ## Handlers -/

/-- What a handler goes on with. -/
inductive Decoded where
  | accountList
  | folderList (accountId : Uuid)
  | messageListByFolder (folderId : Uuid) (limit offset : Int)
  | messageGet (id : Uuid)
  | accountSyncFolder (accountId : Uuid) (folderName : String)
  | accountStartSync (accountId : Uuid) (folderName : String)
  | accountStopSync (accountId : Uuid) (folderName : String)
  | messageArchive (id : Uuid)
  | messageDelete (id : Uuid)
  | messageMove (id : Uuid) (folderName : String)
  | attachmentList (messageId : Uuid)
  | attachmentPreview (id : Uuid)
  | attachmentExport (id : Uuid) (destinationPath : String)
  /-- The operations that a tool can also ask for. -/
  | operation (operation : Operation)
  | draftList (accountId : Uuid)
  | draftGet (id : Uuid)
  | search (q : String) (filters : SearchFilters) (limit offset : Int)
  | mcpApprovalList (state : Option ApprovalState) (limit offset : Int)
  | mcpApprovalDecide (request : DecideRequest)
  | messagePrepareReply (messageId : Uuid) (replyAll : Bool)
  | messagePrepareForward (messageId : Uuid)
  | attachmentFetchForForward (attachmentId : Uuid)
  | attachmentFetchForForwardBatch (messageId : Uuid) (attachmentIds : List Uuid)

/-- `MAX_FORWARD_ATTACHMENT_BATCH`. -/
def maxForwardAttachmentBatch : Nat := 32

def searchArgs (args : Value) : Except RpcError Decoded :=
  match (args.get "q").bind Value.asStr with
  | none => .error (.badArgs "missing 'q'")
  | some q =>
    if Mail.trim q.toList = [] then .error (.badArgs "'q' must not be empty")
    else do
      let filters ← searchFilters crates args
      return .search q filters (max 1 (min (i64Or args "limit" 50) 200)) (i64Or args "offset" 0)

def mcpApprovalListArgs (args : Value) : Except RpcError Decoded :=
  let limit := i64Or args "limit" 50
  let offset := i64Or args "offset" 0
  match (args.get "state").bind Value.asStr with
  | none => .ok (.mcpApprovalList none limit offset)
  | some text =>
    match ApprovalState.fromStr text with
    | none => .error (.badArgs s!"invalid ApprovalState: {text}")
    | some state => .ok (.mcpApprovalList (some state) limit offset)

def decodeArgs (op : Op) (args : Value) : Except RpcError Decoded :=
  match op with
  | .accountList => .ok .accountList
  | .folderList => (parseId crates args "account_id").map .folderList
  | .messageListByFolder => do
    let folderId ← parseId crates args "folder_id"
    return .messageListByFolder folderId (i64Or args "limit" 50) (i64Or args "offset" 0)
  | .messageGet => (parseId crates args "id").map .messageGet
  | .accountSyncFolder => do
    return .accountSyncFolder (← parseId crates args "account_id") (← folderName args)
  | .accountStartSync => do
    return .accountStartSync (← parseId crates args "account_id") (← folderName args)
  | .accountStopSync => do
    return .accountStopSync (← parseId crates args "account_id") (← folderName args)
  | .messageSetFlags => (messageSetFlagsArgs crates args).map .operation
  | .messageArchive => (parseId crates args "id").map .messageArchive
  | .messageDelete => (parseId crates args "id").map .messageDelete
  | .messageMove => do
    return .messageMove (← parseId crates args "id") (← parseStr args "folder_name")
  | .attachmentList => (parseId crates args "message_id").map .attachmentList
  | .attachmentPreview => (parseId crates args "id").map .attachmentPreview
  | .attachmentExport => do
    return .attachmentExport (← parseId crates args "id") (← parseStr args "destination_path")
  | .draftCreate => (draftCreateArgs crates args).map .operation
  | .draftUpdate => (draftUpdateArgs crates args).map .operation
  | .messageSend => do
    let accountId ← parseId crates args "account_id"
    return .operation (.messageSend accountId (← parseId crates args "draft_id"))
  | .draftList => (parseId crates args "account_id").map .draftList
  | .draftGet => (parseId crates args "id").map .draftGet
  | .draftDelete => (parseId crates args "id").map fun id => .operation (.draftDelete id)
  | .search => searchArgs crates args
  | .mcpApprovalList => mcpApprovalListArgs args
  | .mcpApprovalDecide => (decodeDecide crates args).map .mcpApprovalDecide
  | .messagePrepareReply => do
    let messageId ← parseId crates args "message_id"
    return .messagePrepareReply messageId (((args.get "reply_all").bind Value.asBool).getD false)
  | .messagePrepareForward => (parseId crates args "message_id").map .messagePrepareForward
  | .attachmentFetchForForward =>
    (parseId crates args "attachment_id").map .attachmentFetchForForward
  | .attachmentFetchForForwardBatch => do
    let messageId ← parseId crates args "message_id"
    return .attachmentFetchForForwardBatch messageId
      (← parseIdArray crates args "attachment_ids" maxForwardAttachmentBatch)

/-- A request frame: the op's name is read first. -/
def decode (op : String) (args : Value) : Except RpcError Decoded :=
  match Op.fromStr op with
  | none => .error ⟨.unknownOp, s!"unknown op '{op}'"⟩
  | some op => decodeArgs crates op args

end Postblox.Daemon.Args
