import Postblox.Daemon.Decoders
import Postblox.Daemon.Drafts
import Postblox.Daemon.Op
import Postblox.Ipc.JsonText

/-!
# The ops that answer with stored bytes

`draft.get` sends every attachment of a draft along, `attachment.fetch_for_forward` and
its batch the attachments of a message. Each op first gathers what it answers with and
then writes it as JSON; the listing ops write the rows they select. A backend is what
the awaited calls of one op return, whatever other ops do meanwhile.
-/
namespace Postblox.Daemon.Fetch

open Json (Value Data)
open Ipc (toData i64)
open Daemon.Args (parseId parseIdArray maxForwardAttachmentBatch)
open Imap (MailCredential)
open Mail (ParsedAttachment)

/-! ## Rows -/

/-- A row of `drafts`; the timestamps are their RFC 3339 text. -/
structure Draft extends Drafts.Draft where
  remoteFolderId : Option Uuid
  remoteUid : Option Int64
  createdAt : String
  updatedAt : String

/-- The metadata of an attachment of a draft. -/
structure DraftAttachment where
  id : Uuid
  draftId : Uuid
  filename : String
  contentType : String
  sizeBytes : Int64

structure Attachment where
  id : Uuid
  messageId : Uuid
  filename : String
  contentType : String
  contentId : Option String
  storagePath : String

structure Message where
  folderId : Uuid
  accountId : Uuid
  uid : Int

structure Folder where
  name : String

structure Account where
  imapHost : String
  imapPort : Int
  email : String

/-- What the awaited calls return while one op runs: the text of an error, or a result. -/
structure Backend where
  getDraft : Uuid → Except String (Option Draft)
  listForDraft : Uuid → Except String (List DraftAttachment)
  loadContent : Uuid → Except String (Option (List UInt8))
  getAttachment : Uuid → Except String (Option Attachment)
  listForMessage : Uuid → Except String (List Attachment)
  getMessage : Uuid → Except String (Option Message)
  getFolderAndAccount : Uuid → Uuid → Except String (Option Folder × Option Account)
  readFile : String → Option (List UInt8)
  credentialFor : Account → Option MailCredential
  syncFolder : Account → MailCredential → Folder → Nat → Option (List (Nat × List UInt8))
  parseMail : List UInt8 → Option (List ParsedAttachment)
  /-- The rows a listing op selects with its arguments. -/
  select : Op → Value → Except RpcError (List Data)
  /-- The row `message.get` or `mcp.approval.get` finds. -/
  find : Op → Value → Except RpcError (Option Data)
  /-- What the remaining ops answer. -/
  perform : Op → Value → Except RpcError Data

def internalCtx (context err : String) : RpcError := ⟨.internal, s!"{context}: {err}"⟩

/-- `map_err(|e| RpcError::internal_ctx(context, e))`. -/
def ctx {α : Type} (context : String) : Except String α → Except RpcError α
  | .ok a => .ok a
  | .error err => .error (internalCtx context err)

def okOr {α : Type} (e : RpcError) : Option α → Except RpcError α
  | some a => .ok a
  | none => .error e

section Ops

variable (crates : Crates) (b : Backend)

/-! ## Drafts -/

def requireDraftAttachmentContent (id : Uuid) (content : Option (List UInt8)) :
    Except RpcError (List UInt8) :=
  okOr ⟨.internal, s!"draft attachment content missing for {id.hyphenated}"⟩ content

/-- What `draft.get` reads: the draft, if there is one, and its attachments in order. -/
def draftGetParts (args : Value) :
    Except RpcError (Option (Draft × List (DraftAttachment × List UInt8))) := do
  let id ← parseId crates args "id"
  match ← ctx "drafts::get" (b.getDraft id) with
  | none => return none
  | some draft =>
    let rows ← ctx "draft_attachments::list_for_draft" (b.listForDraft id)
    let attachments ← rows.mapM fun row => do
      let content ← ctx "draft_attachments::load_content" (b.loadContent row.id)
      return (row, ← requireDraftAttachmentContent row.id content)
    return some (draft, attachments)

/-! ## Forwarded attachments -/

/-- An attachment with its bytes and where they come from. -/
structure Forwarded where
  attachment : Attachment
  bytes : List UInt8
  source : String

structure ForwardFailure where
  attachmentId : Uuid
  filename : String
  code : String
  message : String

/-- `RpcError::new("unavailable_offline", ..)`. -/
def offline (detail : String) : RpcError :=
  ⟨.unavailableOffline, "attachment unavailable offline" ++ detail⟩

def forwardParentMessage (id : Uuid) : Except RpcError Message := do
  okOr (offline " (parent message missing)") (← ctx "messages::get" (b.getMessage id))

def requireMessage (id : Uuid) : Except RpcError Message := do
  okOr (.badArgs "unknown message id") (← ctx "messages::get" (b.getMessage id))

def refetchForwardAttachments (message : Message) : Except RpcError (List ParsedAttachment) := do
  let (folder, account) ← ctx "folders/accounts::get"
    (b.getFolderAndAccount message.folderId message.accountId)
  let folder ← okOr (offline " (folder missing)") folder
  let account ← okOr (offline " (account missing)") account
  let credential ← okOr (offline "") (b.credentialFor account)
  -- `u32::try_from` and `port_u16`
  if message.uid < 0 ∨ 2 ^ 32 ≤ message.uid then throw (offline "")
  if account.imapPort < 0 ∨ 2 ^ 16 ≤ account.imapPort then throw (offline "")
  let targetUid := message.uid.toNat
  let messages ← okOr (offline "") (b.syncFolder account credential folder targetUid)
  let (_, raw) ← okOr (offline "") (messages.find? fun m => m.1 = targetUid)
  okOr (offline "") (b.parseMail raw)

/-- `Vec::swap_remove`: the last element takes the place of the removed one. -/
def swapRemove {α : Type} (items : List α) (index : Nat) : List α :=
  match items.getLast? with
  | none => []
  | some last => (items.set index last).dropLast

/-- The bytes of the part that matches, and the parts left. -/
def pickAttachmentBytes (parsed : List ParsedAttachment) (attachment : Attachment) :
    Option (List UInt8 × List ParsedAttachment) :=
  let cid := attachment.contentId.filter (· ≠ "")
  let byCid := cid.bind fun cid => parsed.findIdx? fun p => p.contentId = some cid
  let byBoth := parsed.findIdx? fun p =>
    p.filename = attachment.filename && p.contentType = attachment.contentType
  let byName := parsed.findIdx? fun p => p.filename = attachment.filename
  (byCid <|> byBoth <|> byName).bind fun index =>
    parsed[index]?.map fun p => (p.data, swapRemove parsed index)

/-- What `attachment.fetch_for_forward` answers with. -/
def forwardParts (args : Value) : Except RpcError Forwarded := do
  let attachmentId ← parseId crates args "attachment_id"
  let attachment ← okOr (.badArgs "unknown attachment id")
    (← ctx "attachments::get" (b.getAttachment attachmentId))
  match b.readFile attachment.storagePath with
  | some bytes => return ⟨attachment, bytes, "cache"⟩
  | none =>
    let message ← forwardParentMessage b attachment.messageId
    let parsed ← refetchForwardAttachments b message
    let (bytes, _) ← okOr (offline "") (pickAttachmentBytes parsed attachment)
    return ⟨attachment, bytes, "imap"⟩

/-- The state of the batch: the attachments of the message not asked for yet, a slot for
each id, the failures and the attachments without a cached copy. -/
structure Batch where
  messageAttachments : List Attachment
  attachments : List (Option Forwarded)
  failed : List ForwardFailure
  cacheMisses : List (Nat × Attachment)

/-- The rows in a map by id: a later row replaces an earlier one. -/
def byId (rows : List Attachment) : List Attachment :=
  rows.foldl (fun map row => map.filter (·.id ≠ row.id) ++ [row]) []

def Batch.start (rows : List Attachment) (ids : List Uuid) : Batch where
  messageAttachments := byId rows
  attachments := List.replicate ids.length none
  failed := []
  cacheMisses := []

def forwardAttachmentFailure (attachment : Attachment) (error : RpcError) : ForwardFailure :=
  ⟨attachment.id, attachment.filename, error.code.asStr, error.message⟩

/-- One id of the request. -/
def Batch.lookUp (batch : Batch) (index : Nat) (attachmentId : Uuid) : Batch :=
  match batch.messageAttachments.find? fun a => a.id = attachmentId with
  | none =>
    { batch with
      failed := batch.failed ++
        [⟨attachmentId, "", "bad_args", "unknown attachment id for message"⟩] }
  | some attachment =>
    let batch := { batch with
      messageAttachments := batch.messageAttachments.filter fun a => a.id ≠ attachmentId }
    match b.readFile attachment.storagePath with
    | some bytes =>
      { batch with attachments := batch.attachments.set index (some ⟨attachment, bytes, "cache"⟩) }
    | none => { batch with cacheMisses := batch.cacheMisses ++ [(index, attachment)] }

/-- One attachment without a cached copy, from the parts of the message fetched again. -/
def Batch.refill (batch : Batch) (parsed : List ParsedAttachment) (index : Nat)
    (attachment : Attachment) : Batch × List ParsedAttachment :=
  match pickAttachmentBytes parsed attachment with
  | some (bytes, parsed) =>
    ({ batch with attachments := batch.attachments.set index (some ⟨attachment, bytes, "imap"⟩) },
      parsed)
  | none =>
    ({ batch with failed := batch.failed ++ [forwardAttachmentFailure attachment (offline "")] },
      parsed)

/-- What `attachment.fetch_for_forward_batch` answers with. -/
def forwardBatchParts (args : Value) : Except RpcError (List Forwarded × List ForwardFailure) := do
  let messageId ← parseId crates args "message_id"
  let attachmentIds ← parseIdArray crates args "attachment_ids" maxForwardAttachmentBatch
  let message ← requireMessage b messageId
  let rows ← ctx "attachments::list_for_message" (b.listForMessage messageId)
  let batch := attachmentIds.zipIdx.foldl (fun batch id => batch.lookUp b id.2 id.1)
    (Batch.start rows attachmentIds)
  let batch :=
    if batch.cacheMisses.isEmpty then batch
    else
      match refetchForwardAttachments b message with
      | .ok parsed =>
        (batch.cacheMisses.foldl (fun (batch, parsed) miss => batch.refill parsed miss.1 miss.2)
          (batch, parsed)).1
      | .error error =>
        { batch with
          failed := batch.failed ++
            batch.cacheMisses.map fun miss => forwardAttachmentFailure miss.2 error }
  return (batch.attachments.filterMap id, batch.failed)

end Ops

/-! ## Answers -/

/-- `general_purpose::STANDARD.encode`. -/
abbrev Base64 := List UInt8 → String

def uuidJson (id : Uuid) : Value := .string id.hyphenated

def optionJson {α : Type} (toJson : α → Value) : Option α → Value
  | none => .null
  | some a => toJson a

def stringsJson (strings : List String) : Value := .array (strings.map .string)

def Draft.toJson (d : Draft) : Value :=
  .object [("account_id", uuidJson d.accountId), ("bcc_addrs", stringsJson d.bccAddrs),
    ("cc_addrs", stringsJson d.ccAddrs), ("created_at", .string d.createdAt),
    ("html_body", optionJson .string d.htmlBody), ("id", uuidJson d.id),
    ("in_reply_to", optionJson .string d.inReplyTo),
    ("in_reply_to_msg", optionJson uuidJson d.inReplyToMsg),
    ("references_header", optionJson .string d.referencesHeader),
    ("remote_folder_id", optionJson uuidJson d.remoteFolderId),
    ("remote_uid", optionJson i64 d.remoteUid), ("subject", optionJson .string d.subject),
    ("text_body", optionJson .string d.textBody), ("to_addrs", stringsJson d.toAddrs),
    ("updated_at", .string d.updatedAt)]

section Json

variable (base64 : Base64)

/-- An attachment in the answer of `draft.get`. -/
def draftAttachmentJson (row : DraftAttachment) (bytes : List UInt8) : Value :=
  .object [("content_base64", .string (base64 bytes)), ("content_type", .string row.contentType),
    ("draft_id", uuidJson row.draftId), ("filename", .string row.filename),
    ("id", uuidJson row.id), ("size_bytes", i64 row.sizeBytes)]

def forwardAttachmentPayload (f : Forwarded) : Value :=
  .object [("attachment_id", uuidJson f.attachment.id),
    ("content_base64", .string (base64 f.bytes)),
    ("content_type", .string f.attachment.contentType),
    ("filename", .string f.attachment.filename),
    ("size_bytes", i64 (.ofNat f.bytes.length)), ("source", .string f.source)]

def forwardFailureJson (f : ForwardFailure) : Value :=
  .object [("attachment_id", uuidJson f.attachmentId), ("code", .string f.code),
    ("filename", .string f.filename), ("message", .string f.message)]

/-- What an op answers with, before it is written. -/
inductive Answer where
  | null
  | draft (draft : Draft) (attachments : List (DraftAttachment × List UInt8))
  | forwarded (f : Forwarded)
  | batch (attachments : List Forwarded) (failed : List ForwardFailure)
  | rows (rows : List Data)
  | record (data : Data)

def Answer.toJson : Answer → Value
  | .null => .null
  | .draft d attachments =>
    .object [("attachments", .array (attachments.map fun a => draftAttachmentJson base64 a.1 a.2)),
      ("draft", d.toJson)]
  | .forwarded f => forwardAttachmentPayload base64 f
  | .batch attachments failed =>
    .object [("attachments", .array (attachments.map (forwardAttachmentPayload base64))),
      ("failed", .array (failed.map forwardFailureJson))]
  | .rows selected => .array (selected.map Subtype.val)
  | .record data => data.val

/-- The ops that answer with the rows of one query. -/
def isListing : Op → Bool
  | .accountList | .folderList | .threadList | .messageListByFolder | .messageListByThread
  | .attachmentList | .search | .sqlQuery | .sqlSchema | .auditListRecent | .mcpGateList
  | .mcpApprovalList | .draftList => true
  | _ => false

def answer (crates : Crates) (b : Backend) (op : Op) (args : Value) : Except RpcError Answer :=
  match op with
  | .draftGet =>
    (draftGetParts crates b args).map fun
      | none => .null
      | some (draft, attachments) => .draft draft attachments
  | .attachmentFetchForForward => (forwardParts crates b args).map .forwarded
  | .attachmentFetchForForwardBatch =>
    (forwardBatchParts crates b args).map fun (attachments, failed) => .batch attachments failed
  | .messageGet | .mcpApprovalGet =>
    (b.find op args).map fun
      | none => .null
      | some row => .record row
  | op =>
    if isListing op then (b.select op args).map .rows else (b.perform op args).map .record

/-- `DaemonDispatcher::dispatch`. -/
def dispatch (crates : Crates) (b : Backend) (op : Op) (args : Value) :
    Except Ipc.RpcError Data :=
  match answer crates b op args with
  | .ok a => .ok (toData (a.toJson base64))
  | .error e => .error ⟨e.code.asStr, e.message⟩

end Json

end Postblox.Daemon.Fetch
