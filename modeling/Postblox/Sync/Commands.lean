import Postblox.Db.Tables
import Postblox.Imap.Client
import Postblox.Lib.Program
import Postblox.Mail.Threading

/-!
# What the reconciler asks of its surroundings

Every database statement, file write, IMAP call, clock reading and published
event of the sync and of the message operations is a `Cmd`. `Env` decides what the surroundings do during one
call: which statements fail, how the server behaves on each connection and what
the clock reads. `World` is the state that commands act on; its last two fields
only record what happened and no command reads them.
-/
namespace Postblox.Sync

open Lib Db Imap Mail

/-- The places of the source that read the clock. Each is passed at most once in
a call: the first counts recent threads, the others inserted messages. -/
inductive ClockSite where
  | recentThread (index : Nat)
  | assignThread (inserted : Nat)
  | threadRef (inserted : Nat)
  | messageRow (inserted : Nat)
  | touch (inserted : Nat)
  | synced
  deriving DecidableEq

/-- How a statement or a file write fails: with no effect, or after it took
effect (an error while its reply is read). -/
inductive Fault where
  | before
  | after
  deriving DecidableEq

/-- What the sync takes from the mail parser and from Unicode's case tables. -/
structure MailCrate where
  parse : List UInt8 → Option ParsedEmail
  caseMap : CaseMap

structure Env where
  attachmentRoot : String
  clock : ClockSite → Int
  /-- The clock of the database, for the row with the given id. -/
  dbClock : Nat → Int
  /-- What goes wrong with the `n`-th statement or file write. -/
  fault : Nat → Option Fault
  /-- The server's behaviour on the `n`-th connection. -/
  session : Nat → Session

inductive Event where
  | mailNew (account : AccountId) (folder : FolderId) (thread : ThreadId) (message : MessageId)
      (uid : Int)
  | accountSynced (account : AccountId) (folder : FolderId) (inserted wiped : Nat)
  | mailUpdated (message : MessageId) (folder fromFolder : FolderId)
  deriving DecidableEq

/-- One `sync_folder` call. -/
structure SyncRecord where
  account : AccountId
  folder : String
  fromUid : UInt32
  session : Session

def SyncRecord.answer (r : SyncRecord) : Except ImapError FolderSync :=
  syncFolder r.session r.fromUid

def SyncRecord.range (r : SyncRecord) : Option (UInt32 × UInt32) :=
  requestedRange r.session r.fromUid

structure World where
  db : Database
  files : List StoredPath
  events : List Event
  /-- Statements and file writes issued so far. -/
  ops : Nat
  /-- Every `sync_folder` call so far, the latest last. -/
  syncs : List SyncRecord
  /-- For every message row inserted, the latest `sync_folder` call at that time. -/
  origins : List (MessageId × Option SyncRecord)

inductive Cmd where
  | now (site : ClockSite)
  | getAccount (id : AccountId)
  | getFolderByName (account : AccountId) (name : String)
  | syncFolder (account : AccountId) (host : String) (port : UInt16) (username : String)
      (credential : MailCredential) (folder : String) (fromUid : UInt32)
  | deleteAllInFolder (folder : FolderId)
  | listRecent (account : AccountId) (limit offset : Int)
  | messageIdsByThreads (threads : List ThreadId)
  | existingUids (folder : FolderId) (uids : List Int)
  | createThread (account : AccountId) (externalId subject : Option String)
  | createMessage (new : NewMessage)
  | deleteMessage (id : MessageId)
  | attachmentRoot
  | writeNewFile (path : StoredPath)
  | createAttachment (new : NewAttachment)
  | getAttachment (id : AttachmentId)
  | touchLastMessageAt (thread : ThreadId) (time : Int)
  | refreshAggregates (thread : ThreadId)
  | updateUidState (folder : FolderId) (uidValidity uidNext lastSeenUid : Option Int)
  | updateSync (account : AccountId) (status : SyncStatus) (error : Option String)
      (lastSyncedAt : Option Int)
  | publish (event : Event)
  | getMessage (id : MessageId)
  | listFolders (account : AccountId)
  | setFolder (id : MessageId) (folder : FolderId)
  | recordAudit (actor action : String) (target : MessageId) (folder : FolderId)
      (folderName : Option String)

/-- Why a file could not be written. -/
inductive IoError where
  | alreadyExists
  | failed
  deriving DecidableEq

def Reply : Cmd → Type
  | .now _ => Int
  | .getAccount _ => Except DbError (Option Account)
  | .getFolderByName _ _ => Except DbError (Option Folder)
  | .syncFolder .. => Except ImapError FolderSync
  | .deleteAllInFolder _ => Except DbError Nat
  | .listRecent .. => Except DbError (List Thread)
  | .messageIdsByThreads _ => Except DbError (List (ThreadId × String))
  | .existingUids .. => Except DbError (List Int)
  | .createThread .. => Except DbError Thread
  | .createMessage _ => Except DbError Message
  | .deleteMessage _ => Except DbError Bool
  | .attachmentRoot => Except DbError String
  | .writeNewFile _ => Except IoError Unit
  | .createAttachment _ => Except DbError Attachment
  | .getAttachment _ => Except DbError Unit
  | .touchLastMessageAt .. => Except DbError Unit
  | .refreshAggregates _ => Except DbError Unit
  | .updateUidState .. => Except DbError Unit
  | .updateSync .. => Except DbError Unit
  | .publish _ => Unit
  | .getMessage _ => Except DbError (Option Message)
  | .listFolders _ => Except DbError (List Folder)
  | .setFolder .. => Except DbError Bool
  | .recordAudit .. => Except DbError Unit

abbrev perform {ε : Type} (c : Cmd) : Fallible ε Cmd Reply (Reply c) := Fallible.ask c

variable (env : Env)

/-- One statement: `effect` is what it does when nothing goes wrong. -/
def statement {ε α : Type} (failed : ε) (effect : World → Except ε (α × World)) (w : World) :
    Except ε α × World :=
  let w' := { w with ops := w.ops + 1 }
  match env.fault w.ops with
  | some .before => (.error failed, w')
  | some .after =>
    match effect w' with
    | .ok (_, w'') => (.error failed, w'')
    | .error e => (.error e, w')
  | none =>
    match effect w' with
    | .ok (a, w'') => (.ok a, w'')
    | .error e => (.error e, w')

def query {α : Type} (read : Database → α) : World → Except DbError α × World :=
  statement env DbError.failed fun w => .ok (read w.db, w)

def update {α : Type} (write : Database → Except DbError (α × Database)) :
    World → Except DbError α × World :=
  statement env DbError.failed fun w =>
    (write w.db).map fun (a, db) => (a, { w with db })

def insertMessage (new : NewMessage) : World → Except DbError Message × World :=
  statement env DbError.failed fun w =>
    (Messages.create w.db new).map fun (row, db) =>
      (row, { w with db, origins := w.origins ++ [(row.id, w.syncs.getLast?)] })

/-- `create_new` refuses a path that exists. -/
def writeFile (path : StoredPath) : World → Except IoError Unit × World :=
  statement env IoError.failed fun w =>
    if path ∈ w.files then .error .alreadyExists
    else .ok ((), { w with files := w.files ++ [path] })

def handle : (c : Cmd) → World → Reply c × World
  | .now site, w => (env.clock site, w)
  | .getAccount id, w => query env (Accounts.get · id) w
  | .getFolderByName account name, w => query env (Folders.getByName · account name) w
  | .syncFolder account _ _ _ _ folder fromUid, w =>
    let r : SyncRecord := { account, folder, fromUid, session := env.session w.syncs.length }
    (r.answer, { w with syncs := w.syncs ++ [r] })
  | .deleteAllInFolder folder, w =>
    update env (fun db => .ok (Messages.deleteAllInFolder db folder)) w
  | .listRecent account limit offset, w =>
    query env (Threads.listRecent · account limit offset) w
  | .messageIdsByThreads threads, w => query env (Messages.messageIdsByThreads · threads) w
  | .existingUids folder uids, w => query env (Messages.existingUids · folder uids) w
  | .createThread account externalId subject, w =>
    update env (fun db => Threads.create db (env.dbClock db.nextId) account externalId subject) w
  | .createMessage new, w => insertMessage env new w
  | .deleteMessage id, w => update env (fun db => .ok (Messages.delete db id)) w
  | .attachmentRoot, w => query env (fun _ => env.attachmentRoot) w
  | .writeNewFile path, w => writeFile env path w
  | .createAttachment new, w => update env (Attachments.create · new) w
  | .getAttachment _, w => query env (fun _ => ()) w
  | .touchLastMessageAt thread time, w =>
    update env (fun db => .ok ((), Threads.touchLastMessageAt db thread time)) w
  | .refreshAggregates thread, w =>
    update env (fun db => .ok ((), Threads.refreshAggregates db thread)) w
  | .updateUidState folder uidValidity uidNext lastSeenUid, w =>
    update env (fun db =>
      .ok ((), Folders.updateUidState db folder uidValidity uidNext lastSeenUid)) w
  | .updateSync account status error lastSyncedAt, w =>
    update env (fun db => .ok ((), Accounts.updateSync db account status error lastSyncedAt)) w
  | .publish event, w => ((), { w with events := w.events ++ [event] })
  | .getMessage id, w => query env (Messages.get · id) w
  | .listFolders account, w => query env (Folders.listByAccount · account) w
  | .setFolder id folder, w => update env (Messages.setFolder · id folder) w
  -- nothing modelled reads the audit log
  | .recordAudit .., w => query env (fun _ => ()) w

end Postblox.Sync
