import Postblox.Daemon.Args
import Postblox.Imap.Client
import Postblox.Lib.Machine
import Postblox.Lib.Ranking
import Postblox.Lib.UniqueIndex
import Postblox.Mail.Threading

/-!
# Draft requests that run side by side

Each request is a task of its own; its `.await` points are its stages, and a task is
resumed with what the awaited call returned. A statement takes effect at once, the
transaction of `draft.update` when it commits. A task can be cancelled at every stage:
the connection's cancel token and the drain of its handlers drop the future there.
-/
namespace Postblox.Daemon.Drafts

open Daemon.Args (NewDraft DraftUpdate DraftAttachmentSpec Operation)
open Imap (MailCredential)

/-! ## Rows -/

structure Account where
  id : Uuid
  email : String
  smtpHost : String
  smtpPort : Int
  smtpUseTls : Bool
  smtpStarttls : Bool
  deriving DecidableEq

structure Draft where
  id : Uuid
  accountId : Uuid
  inReplyToMsg : Option Uuid
  toAddrs : List String
  ccAddrs : List String
  bccAddrs : List String
  subject : Option String
  textBody : Option String
  htmlBody : Option String
  inReplyTo : Option String
  referencesHeader : Option String
  deriving DecidableEq

structure DraftAttachment where
  id : Uuid
  draftId : Uuid
  filename : String
  contentType : String
  content : List UInt8
  createdAt : Int
  deriving DecidableEq

/-- The three tables; `id` is the primary key of the attachments. -/
structure Db where
  accounts : List Account
  drafts : List Draft
  attachments : List DraftAttachment
  unique : Lib.Unique (fun a : DraftAttachment => some a.id) attachments

namespace Db

def getAccount (db : Db) (id : Uuid) : Option Account := db.accounts.find? (fun a => a.id = id)

def getDraft (db : Db) (id : Uuid) : Option Draft := db.drafts.find? (fun d => d.id = id)

/-- `ORDER BY created_at, id`. -/
def listForDraft (db : Db) (draftId : Uuid) : List DraftAttachment :=
  Lib.sortByKey (fun a : DraftAttachment => toLex (a.createdAt, a.id.hyphenated))
    (db.attachments.filter fun a => a.draftId = draftId)

def loadContent (db : Db) (id : Uuid) : Option (List UInt8) :=
  (db.attachments.find? fun a => a.id = id).map (·.content)

end Db

/-- The columns `draft.update` writes. -/
def Draft.patch (draft : Draft) (upd : DraftUpdate) : Draft :=
  { draft with
    toAddrs := upd.toAddrs
    ccAddrs := upd.ccAddrs
    bccAddrs := upd.bccAddrs
    subject := upd.subject
    textBody := upd.textBody
    htmlBody := upd.htmlBody }

def Draft.new (id : Uuid) (new : NewDraft) : Draft :=
  ⟨id, new.accountId, new.inReplyToMsg, new.toAddrs, new.ccAddrs, new.bccAddrs, new.subject,
    new.textBody, new.htmlBody, new.inReplyTo, new.referencesHeader⟩

/-- An attachment whose file has been read. -/
structure PreparedDraftAttachment where
  filename : String
  contentType : String
  content : List UInt8
  deriving DecidableEq

/-- The row of a new attachment, with the id and the timestamp it gets. -/
def newAttachment (draftId : Uuid) (new : PreparedDraftAttachment × (Uuid × Int)) :
    DraftAttachment :=
  ⟨new.2.1, draftId, new.1.filename, new.1.contentType, new.1.content, new.2.2⟩

/-- What a task does to the shared state when it is resumed. -/
inductive Change where
  | quiet
  | deleteDraft (id : Uuid)
  /-- The committed transaction of an update: the row, and the attachments if given. -/
  | updateDraft (upd : DraftUpdate)
      (attachments : Option (List (PreparedDraftAttachment × (Uuid × Int))))
  | insertDraft (draft : Draft)
  | clearAttachments (draftId : Uuid)
  | insertAttachment (row : DraftAttachment)

/-- The rows with other attachments, refused when two of them share an id. -/
def Db.withAttachments (db : Db) (rows : List DraftAttachment) : Option Db :=
  if h : Lib.Unique (fun a : DraftAttachment => some a.id) rows then
    some { db with attachments := rows, unique := h }
  else none

def Db.apply (db : Db) : Change → Option Db
  | .quiet => some db
  -- the attachments go by `ON DELETE CASCADE`
  | .deleteDraft id =>
    { db with drafts := db.drafts.filter fun d => d.id ≠ id }.withAttachments
      (db.attachments.filter fun a => a.draftId ≠ id)
  | .updateDraft upd attachments =>
    let db' := { db with
      drafts := Lib.updateWhere (fun d => d.id = upd.id) (fun d => d.patch upd) db.drafts }
    match attachments with
    | none => some db'
    | some new =>
      db'.withAttachments
        ((db.attachments.filter fun a => a.draftId ≠ upd.id) ++ new.map (newAttachment upd.id))
  | .insertDraft draft => some { db with drafts := db.drafts ++ [draft] }
  | .clearAttachments draftId =>
    db.withAttachments (db.attachments.filter fun a => a.draftId ≠ draftId)
  -- `draft_id` references a row of `drafts`
  | .insertAttachment row =>
    if (db.getDraft row.draftId).isSome then db.withAttachments (db.attachments ++ [row]) else none

/-! ## Rendering -/

structure MimeAttachment where
  filename : String
  contentType : String
  data : List UInt8
  deriving DecidableEq

/-- What `build_mime_full` renders. -/
structure MimeBuildOptions where
  sender : String
  toAddrs : List String
  ccAddrs : List String
  subject : String
  textBody : Option String
  htmlBody : Option String
  messageId : String
  attachments : List MimeAttachment
  inReplyTo : Option String
  references : Option String
  deriving DecidableEq

structure SmtpSubmitRequest where
  host : String
  port : Nat
  useTls : Bool
  starttls : Bool
  username : String
  credential : MailCredential
  sender : String
  recipients : List String
  mime : MimeBuildOptions
  deriving DecidableEq

inductive SmtpError where
  | auth (message : String)
  | invalidRequest (message : String)
  | invalidConfig (message : String)
  | transient (message : String)
  | internal (message : String)
  deriving DecidableEq

def mapSmtpError : SmtpError → RpcError
  | .auth message => ⟨.authFailed, message⟩
  | .invalidRequest message => .badArgs message
  | .transient message => ⟨.smtpTransient, message⟩
  | .invalidConfig message | .internal message => ⟨.internal, message⟩

def parseAddrArray (field : String) : List String → Except RpcError (List String)
  | [] => .ok []
  | addr :: rest =>
    let addr := String.ofList (Mail.trim addr.toList)
    if addr = "" then .error (.badArgs s!"{field} must not contain empty addresses")
    else do
      let out ← parseAddrArray field rest
      return addr :: out

def allRecipients (toAddrs ccAddrs bccAddrs : List String) : Except RpcError (List String) :=
  let recipients := toAddrs ++ ccAddrs ++ bccAddrs
  if recipients.isEmpty then .error (.badArgs "at least one recipient is required")
  else .ok recipients

/-- The locals of `op_message_send` once the draft is read. -/
structure Prepared where
  account : Account
  draft : Draft
  toAddrs : List String
  ccAddrs : List String
  recipients : List String
  smtpPort : Nat
  deriving DecidableEq

/-- The checks between `drafts::get` and the credential. -/
def prepare (accountId : Uuid) (account : Account) (draft : Draft) : Except RpcError Prepared := do
  if draft.accountId ≠ accountId then throw (.badArgs "draft does not belong to account")
  let toAddrs ← parseAddrArray "to_addrs" draft.toAddrs
  let ccAddrs ← parseAddrArray "cc_addrs" draft.ccAddrs
  let bccAddrs ← parseAddrArray "bcc_addrs" draft.bccAddrs
  let recipients ← allRecipients toAddrs ccAddrs bccAddrs
  if account.smtpPort < 0 ∨ 65535 < account.smtpPort then throw (.badArgs "bad smtp_port")
  return ⟨account, draft, toAddrs, ccAddrs, recipients, account.smtpPort.toNat⟩

theorem prepare_draft {accountId : Uuid} {account : Account} {draft : Draft} {p : Prepared}
    (h : prepare accountId account draft = .ok p) : p.draft = draft := by
  simp only [prepare, bind, Except.bind] at h
  -- every check that fails is an error
  repeat' split at h
  all_goals cases h <;> rfl

def Prepared.request (p : Prepared) (credential : MailCredential) (messageId : String)
    (attachments : List MimeAttachment) : SmtpSubmitRequest where
  host := p.account.smtpHost
  port := p.smtpPort
  useTls := p.account.smtpUseTls
  starttls := p.account.smtpStarttls
  username := p.account.email
  credential := credential
  sender := p.account.email
  recipients := p.recipients
  mime := {
    sender := p.account.email
    toAddrs := p.toAddrs
    ccAddrs := p.ccAddrs
    subject := p.draft.subject.getD ""
    textBody := p.draft.textBody
    htmlBody := p.draft.htmlBody
    messageId := messageId
    attachments := attachments
    inReplyTo := p.draft.inReplyTo
    references := p.draft.referencesHeader }

/-! ## Tasks -/

/-- What `list_for_draft` returns of a row. -/
structure AttachmentRow where
  id : Uuid
  filename : String
  contentType : String
  deriving DecidableEq

def DraftAttachment.row (a : DraftAttachment) : AttachmentRow := ⟨a.id, a.filename, a.contentType⟩

def AttachmentRow.mime (row : AttachmentRow) (data : List UInt8) : MimeAttachment :=
  ⟨row.filename, row.contentType, data⟩

/-- What `message.send` waits for. -/
inductive SendStage where
  | account
  | draft (account : Account)
  | credential (p : Prepared)
  | attachments (p : Prepared) (credential : MailCredential) (messageId : String)
  | content (p : Prepared) (credential : MailCredential) (messageId : String)
      (loaded : List MimeAttachment) (row : AttachmentRow) (rows : List AttachmentRow)
  | smtp (request : SmtpSubmitRequest)
  /-- The server has accepted the message; `drafts::delete` comes next. -/
  | accepted (request : SmtpSubmitRequest)
  | finished (result : Except RpcError String)

inductive UpdateStage where
  | files
  | transaction (attachments : Option (List PreparedDraftAttachment))
  | finished (result : Except RpcError (Option Draft))

inductive CreateStage where
  | files
  | insert (attachments : Option (List PreparedDraftAttachment))
  | clear (draft : Draft) (attachments : List PreparedDraftAttachment)
  | attach (draft : Draft) (next : PreparedDraftAttachment) (rest : List PreparedDraftAttachment)
  /-- The best-effort deletion after a failed insertion. -/
  | rollback (draft : Draft) (e : RpcError)
  | finished (result : Except RpcError Draft)

inductive Task where
  | send (accountId draftId : Uuid) (stage : SendStage)
  | update (upd : DraftUpdate) (specs : Option (List DraftAttachmentSpec)) (stage : UpdateStage)
  | create (new : NewDraft) (specs : Option (List DraftAttachmentSpec)) (stage : CreateStage)
  | delete (id : Uuid) (result : Option (Except RpcError Bool))
  | cancelled

/-- The draft requests among the operations. -/
def Task.start : Operation → Option Task
  | .messageSend accountId draftId => some (.send accountId draftId .account)
  | .draftUpdate upd specs => some (.update upd specs .files)
  | .draftCreate new specs => some (.create new specs .files)
  | .draftDelete id => some (.delete id none)
  | _ => none

/-- What an awaited call returns. Ids and timestamps the database or the `uuid` crate
make up come with it. -/
inductive Outcome where
  | done
  | failed (e : RpcError)
  | credential (credential : MailCredential) (messageId : String)
  | rejected (e : SmtpError)
  | files (attachments : Option (List PreparedDraftAttachment))
  | minted (ids : List (Uuid × Int))
  /-- An `INSERT` took effect and the `SELECT` after it failed. -/
  | unread (id : Uuid × Int) (e : RpcError)

/-- The next stage once the rows to load are known. -/
def SendStage.next (p : Prepared) (credential : MailCredential) (messageId : String)
    (loaded : List MimeAttachment) : List AttachmentRow → SendStage
  | [] => .smtp (p.request credential messageId loaded)
  | row :: rows => .content p credential messageId loaded row rows

def CreateStage.next (draft : Draft) : List PreparedDraftAttachment → CreateStage
  | [] => .finished (.ok draft)
  | a :: rest => .attach draft a rest

/-- `op_message_send`, one `.await` at a time. -/
def resumeSend (db : Db) (accountId draftId : Uuid) :
    SendStage → Outcome → Option (SendStage × Change)
  | .account, .done =>
    match db.getAccount accountId with
    | none => some (.finished (.error (.badArgs "unknown account_id")), .quiet)
    | some account => some (.draft account, .quiet)
  | .draft account, .done =>
    match db.getDraft draftId with
    | none => some (.finished (.error (.badArgs "unknown draft_id")), .quiet)
    | some draft =>
      match prepare accountId account draft with
      | .error e => some (.finished (.error e), .quiet)
      | .ok p => some (.credential p, .quiet)
  | .credential p, .credential credential messageId =>
    some (.attachments p credential messageId, .quiet)
  | .attachments p credential messageId, .done =>
    some (.next p credential messageId [] ((db.listForDraft draftId).map (·.row)), .quiet)
  | .content p credential messageId loaded row rows, .done =>
    match db.loadContent row.id with
    | none =>
      some (.finished (.error ⟨.internal,
        s!"draft attachment {row.id.hyphenated} disappeared mid-send"⟩), .quiet)
    | some data => some (.next p credential messageId (loaded ++ [row.mime data]) rows, .quiet)
  | .smtp request, .done => some (.accepted request, .quiet)
  | .smtp _, .rejected e => some (.finished (.error (mapSmtpError e)), .quiet)
  | .accepted request, .done =>
    some (.finished (.ok request.mime.messageId), .deleteDraft draftId)
  -- a failed deletion is only logged
  | .accepted request, .failed _ => some (.finished (.ok request.mime.messageId), .quiet)
  | .account, .failed e | .draft _, .failed e | .credential _, .failed e
  | .attachments _ _ _, .failed e | .content _ _ _ _ _ _, .failed e =>
    some (.finished (.error e), .quiet)
  | _, _ => none

/-- `op_draft_update`: the transaction commits as a whole. -/
def resumeUpdate (db : Db) (upd : DraftUpdate) (specs : Option (List DraftAttachmentSpec)) :
    UpdateStage → Outcome → Option (UpdateStage × Change)
  | .files, .files attachments =>
    if attachments.isSome = specs.isSome then some (.transaction attachments, .quiet) else none
  | .transaction attachments, .minted ids =>
    match db.getDraft upd.id with
    | none => some (.finished (.ok none), .quiet)
    | some draft =>
      if ids.length = (attachments.getD []).length then
        some (.finished (.ok (some (draft.patch upd))), .updateDraft upd
          (attachments.map fun new => new.zip ids))
      else none
  | .files, .failed e | .transaction _, .failed e => some (.finished (.error e), .quiet)
  | _, _ => none

/-- `op_draft_create`: the row and its attachments are statements of their own. -/
def resumeCreate (new : NewDraft) (specs : Option (List DraftAttachmentSpec)) :
    CreateStage → Outcome → Option (CreateStage × Change)
  | .files, .files attachments =>
    if attachments.isSome = specs.isSome then some (.insert attachments, .quiet) else none
  | .insert attachments, .minted [(id, _)] =>
    match attachments with
    | none => some (.finished (.ok (.new id new)), .insertDraft (.new id new))
    | some rows => some (.clear (.new id new) rows, .insertDraft (.new id new))
  | .clear draft rows, .done => some (.next draft rows, .clearAttachments draft.id)
  | .attach draft next rest, .minted [id] =>
    some (.next draft rest, .insertAttachment (newAttachment draft.id (next, id)))
  | .attach draft next _, .unread id e =>
    some (.rollback draft e, .insertAttachment (newAttachment draft.id (next, id)))
  | .clear draft _, .failed e | .attach draft _ _, .failed e => some (.rollback draft e, .quiet)
  | .rollback draft e, .done => some (.finished (.error e), .deleteDraft draft.id)
  | .rollback _ e, .failed _ => some (.finished (.error e), .quiet)
  | .files, .failed e | .insert _, .failed e => some (.finished (.error e), .quiet)
  | _, _ => none

def resumeDelete (db : Db) (id : Uuid) : Outcome → Option (Except RpcError Bool × Change)
  | .done => some (.ok (db.getDraft id).isSome, .deleteDraft id)
  | .failed e => some (.error e, .quiet)
  | _ => none

def Task.resume (db : Db) : Task → Outcome → Option (Task × Change)
  | .send accountId draftId stage, outcome =>
    (resumeSend db accountId draftId stage outcome).map fun (stage, change) =>
      (.send accountId draftId stage, change)
  | .update upd specs stage, outcome =>
    (resumeUpdate db upd specs stage outcome).map fun (stage, change) =>
      (.update upd specs stage, change)
  | .create new specs stage, outcome =>
    (resumeCreate new specs stage outcome).map fun (stage, change) =>
      (.create new specs stage, change)
  | .delete id none, outcome =>
    (resumeDelete db id outcome).map fun (result, change) => (.delete id (some result), change)
  | _, _ => none

/-! ## The daemon -/

/-- A message that a server has accepted. -/
structure Submission where
  task : Nat
  draftId : Uuid
  request : SmtpSubmitRequest
  deriving DecidableEq

/-- `minted` remembers the draft ids in use so far: `uuid` makes no id twice. -/
structure State where
  db : Db
  tasks : Nat → Option Task
  submissions : List Submission
  minted : List Uuid

def State.init (db : Db) : State where
  db := db
  tasks _ := none
  submissions := []
  minted := db.drafts.map (·.id)

inductive Action where
  | arrive (t : Nat) (operation : Operation)
  | resume (t : Nat) (outcome : Outcome)
  | cancel (t : Nat)

def State.setTask (s : State) (t : Nat) (task : Task) : State :=
  { s with tasks := Function.update s.tasks t (some task) }

theorem State.setTask_tasks (s : State) (t t' : Nat) (task : Task) :
    (s.setTask t task).tasks t' = if t' = t then some task else s.tasks t' :=
  Function.update_apply ..

/-- The message that this step hands over: the server accepts. -/
def submitted (t : Nat) : Task → Outcome → List Submission
  | .send _ draftId (.smtp request), .done => [⟨t, draftId, request⟩]
  | _, _ => []

/-- The draft id that this step puts into use. -/
def Change.minted : Change → List Uuid
  | .insertDraft draft => [draft.id]
  | _ => []

def step (s : State) : Action → Option State
  | .arrive t operation => do
    if (s.tasks t).isSome then none
    else
      let task ← Task.start operation
      some (s.setTask t task)
  | .resume t outcome => do
    let task ← s.tasks t
    let (task', change) ← task.resume s.db outcome
    if change.minted.any s.minted.contains then none
    else
      let db ← s.db.apply change
      some ({ s with
        db := db
        submissions := s.submissions ++ submitted t task outcome
        minted := s.minted ++ change.minted }.setTask t task')
  | .cancel t => do
    let _ ← s.tasks t
    some (s.setTask t .cancelled)

end Postblox.Daemon.Drafts
