import Postblox.Attachments

/-!
# Reconcile one IMAP folder with the local store

`reconcileFolder` follows the source statement by statement: look up the rows,
fetch from `last_seen_uid + 1`, wipe and refetch when `UIDVALIDITY` changed, then
drain the folder window by window, ingesting every message that is not there yet,
and store the new UID state. The drain loop has no bound in the source; here it
runs on fuel and stops with `fuel` should that ever be used up.
-/
namespace Postblox.Sync

open Lib Db Imap Mail Attachments

inductive SyncError where
  | imap (error : ImapError)
  | db (error : DbError)
  | attachment (error : AttachmentError)
  | unknownAccount
  | unknownFolder (name : String)
  | missingCredentials
  deriving DecidableEq

inductive Stop where
  | error (e : SyncError)
  | fuel
  deriving DecidableEq

abbrev SyncM := Fallible SyncError Cmd Reply

def SyncM.fail {α : Type} (e : SyncError) : SyncM α := throw e

def SyncM.ofDb {α : Type} : Except DbError α → SyncM α
  | .ok a => pure a
  | .error e => .fail (.db e)

def SyncM.ofImap {α : Type} : Except ImapError α → SyncM α
  | .ok a => pure a
  | .error e => .fail (.imap e)

structure Request where
  account : AccountId
  folderName : String
  credential : MailCredential
  deriving DecidableEq

structure ReconcileReport where
  folder : FolderId
  inserted : Nat
  wiped : Nat
  uidValidity : Option Int
  uidNext : Option Int
  lastSeenUid : Option Int
  deriving DecidableEq

/-- `unwrap_or_else(Utc::now)`. -/
def orNow (date : Option Int) (site : ClockSite) : SyncM Int :=
  match date with
  | some d => pure d
  | none => perform (.now site)

def uidOf (m : FetchedMessage) : Int := m.uid.toNat

def widen (v : Option UInt32) : Option Int := v.map fun x => x.toNat

/-- The first 200 characters with line breaks turned into blanks. -/
def snippet (text : String) : String :=
  String.ofList ((text.toList.take 200).map fun c => if c = '\n' ∨ c = '\r' then ' ' else c)

def buildMessageRow (account : AccountId) (folder : FolderId) (thread : ThreadId)
    (fetched : FetchedMessage) (parsed : ParsedEmail) (internalDate : Int) : NewMessage where
  accountId := account
  folderId := folder
  threadId := some thread
  uid := uidOf fetched
  messageIdHeader := parsed.messageId
  inReplyTo := parsed.inReplyTo
  referencesHeader :=
    if parsed.references = [] then none else some (" ".intercalate parsed.references)
  fromAddr := parsed.fromAddr
  toAddrs := parsed.toAddrs
  ccAddrs := parsed.ccAddrs
  bccAddrs := []
  replyTo := none
  subject := parsed.subject
  snippet := parsed.textBody.map snippet
  textBody := parsed.textBody
  htmlBody := parsed.htmlBody
  rawSize := fetched.raw.length
  flags := fetched.flags
  internalDate := internalDate
  sentAt := none

/-! ## Threads known to the matcher -/

def idsOfThread (pairs : List (ThreadId × String)) (thread : ThreadId) : List String :=
  (pairs.filter fun p => p.1 = thread).map (·.2)

def threadRef (pairs : List (ThreadId × String)) (thread : Thread) (lastMessageAt : Int) :
    ThreadRef where
  threadId := thread.id
  messageIds := idsOfThread pairs thread.id
  subject := thread.subject.getD ""
  lastMessageAt := lastMessageAt

def threadRefs (pairs : List (ThreadId × String)) : Nat → List Thread → SyncM (List ThreadRef)
  | _, [] => pure []
  | index, thread :: rest => do
    let lastMessageAt ← orNow thread.lastMessageAt (.recentThread index)
    let refs ← threadRefs pairs (index + 1) rest
    return threadRef pairs thread lastMessageAt :: refs

/-- An empty list of threads does not reach the database. -/
def messageIdsByThreads (threads : List ThreadId) : SyncM (List (ThreadId × String)) := do
  if threads.isEmpty then return []
  else SyncM.ofDb (← perform (.messageIdsByThreads threads))

def knownThreads (account : AccountId) : SyncM (List ThreadRef) := do
  let recent ← SyncM.ofDb (← perform (.listRecent account 200 0))
  let pairs ← messageIdsByThreads (recent.map (·.id))
  threadRefs pairs 0 recent

/-! ## One message -/

/-- The loop's variables: the threads known so far and the messages inserted. -/
structure Progress where
  refs : List ThreadRef
  inserted : Nat
  deriving DecidableEq

/-- The view pushed for a thread that a message started. -/
def startedRef (thread : ThreadId) (parsed : ParsedEmail) (lastMessageAt : Int) : ThreadRef where
  threadId := thread
  messageIds := parsed.messageId.toList
  subject := parsed.subject.getD ""
  lastMessageAt := lastMessageAt

/-- Pick the thread of a message, creating its row when it starts a new one. -/
def threadFor (mail : MailCrate) (account : AccountId) (p : Progress) (fetched : FetchedMessage)
    (parsed : ParsedEmail) : SyncM (ThreadId × List ThreadRef) := do
  let now ← perform (.now (.assignThread p.inserted))
  match assignThread mail.caseMap now parsed p.refs with
  | .existing id => return (id, p.refs)
  | .new =>
    let thread ← SyncM.ofDb (← perform (.createThread account parsed.messageId parsed.subject))
    let lastMessageAt ← orNow fetched.internalDate (.threadRef p.inserted)
    return (thread.id, p.refs ++ [startedRef thread.id parsed lastMessageAt])

/-- Insert the row and its attachments; a failure of the latter takes the row
back, as far as that works. -/
def storeMessage (new : NewMessage) (attachments : List ParsedAttachment) : SyncM Message := do
  let row ← SyncM.ofDb (← perform (.createMessage new))
  match ← Fallible.attempt (persistParsedForMessage row.id attachments) with
  | .ok _ => return row
  | .error e =>
    let _ ← perform (.deleteMessage row.id)
    SyncM.fail (.attachment e)

def ingestParsed (mail : MailCrate) (account : AccountId) (folder : FolderId) (p : Progress)
    (fetched : FetchedMessage) (parsed : ParsedEmail) : SyncM Progress := do
  let (thread, refs) ← threadFor mail account p fetched parsed
  let internalDate ← orNow fetched.internalDate (.messageRow p.inserted)
  let row ← storeMessage (buildMessageRow account folder thread fetched parsed internalDate)
    parsed.attachments
  let time ← orNow fetched.internalDate (.touch p.inserted)
  SyncM.ofDb (← perform (.touchLastMessageAt thread time))
  SyncM.ofDb (← perform (.refreshAggregates thread))
  perform (.publish (.mailNew account folder thread row.id (uidOf fetched)))
  return { refs, inserted := p.inserted + 1 }

/-- The body of the source's inner loop. -/
def ingest (mail : MailCrate) (account : AccountId) (folder : FolderId) (already : List Int)
    (p : Progress) (fetched : FetchedMessage) : SyncM Progress :=
  if already.contains (uidOf fetched) then pure p
  else if fetched.raw = [] then pure p
  else
    match mail.parse fetched.raw with
    | none => pure p
    | some parsed => ingestParsed mail account folder p fetched parsed

def ingestAll (mail : MailCrate) (account : AccountId) (folder : FolderId) (already : List Int) :
    List FetchedMessage → Progress → SyncM Progress
  | [], p => pure p
  | fetched :: rest, p => do
    let p ← ingest mail account folder already p fetched
    ingestAll mail account folder already rest p

/-! ## The drain loop -/

/-- An empty list of UIDs does not reach the database. -/
def existingUids (folder : FolderId) (uids : List Int) : SyncM (List Int) := do
  if uids.isEmpty then return []
  else SyncM.ofDb (← perform (.existingUids folder uids))

/-- The running maximum of the mark, the batch and the window. -/
def highWater (lastSeen : Option Int) (server : FolderSync) : Option Int :=
  ([lastSeen, (server.messages.map uidOf).max?, some (server.windowHi.toNat : Int)].filterMap
    id).max?

/-- What stays the same during a call. -/
structure Target where
  account : Account
  folder : Folder
  port : UInt16
  credential : MailCredential

def fetchFrom (t : Target) (fromUid : UInt32) : SyncM FolderSync := do
  SyncM.ofImap (← perform (.syncFolder t.account.id t.account.imapHost t.port t.account.email
    t.credential t.folder.name fromUid))

structure Drained where
  server : FolderSync
  progress : Progress
  lastSeen : Option Int

/-- A program that may also run out of fuel. -/
abbrev LoopM := Fallible Stop Cmd Reply

abbrev SyncM.lift {α : Type} (p : SyncM α) : LoopM α := Fallible.mapError Stop.error p

/-- One round of the loop: ingest what is new in an answer. -/
def ingestAnswer (mail : MailCrate) (t : Target) (server : FolderSync) (p : Progress) :
    SyncM Progress := do
  let already ← existingUids t.folder.id (server.messages.map uidOf)
  ingestAll mail t.account.id t.folder.id already server.messages p

def drain (mail : MailCrate) (t : Target) :
    Nat → FolderSync → Progress → Option Int → LoopM Drained
  | 0, _, _, _ => throw .fuel
  | fuel + 1, server, p, lastSeen => do
    let p ← (ingestAnswer mail t server p).lift
    if server.hasMore then
      let next ← (fetchFrom t (saturatingAdd server.windowHi 1)).lift
      drain mail t fuel next p (highWater lastSeen server)
    else return { server, progress := p, lastSeen := highWater lastSeen server }

/-- As many rounds as there are UIDs. -/
def drainFuel : Nat := u32Max + 1

/-! ## The whole call -/

/-- The stored validity and the server's are both known and differ. -/
def needsFullResync (folder : Folder) (server : FolderSync) : Bool :=
  match folder.uidValidity, server.uidValidity with
  | some stored, some reported => stored ≠ (reported.toNat : Int)
  | _, _ => false

def startUid (folder : Folder) : UInt32 :=
  saturatingAdd (clampU32 (folder.lastSeenUid.getD 0)) 1

def lookup (req : Request) : SyncM Target := do
  if req.credential.isEmpty then SyncM.fail .missingCredentials
  else
    let some account ← SyncM.ofDb (← perform (.getAccount req.account))
      | SyncM.fail .unknownAccount
    let some folder ← SyncM.ofDb (← perform (.getFolderByName req.account req.folderName))
      | SyncM.fail (.unknownFolder req.folderName)
    let port ← SyncM.ofImap (portU16 account.imapPort)
    return { account, folder, port, credential := req.credential }

/-- What the loop starts from: an answer, whether the folder was wiped and how
many rows that took, and the mark. -/
structure Opened where
  server : FolderSync
  resync : Bool
  wiped : Nat
  lastSeen : Option Int

/-- The first answer, or the one refetched from UID 1 after a wipe when the
validity changed. -/
def openFolder (t : Target) : SyncM Opened := do
  let server ← fetchFrom t (startUid t.folder)
  if needsFullResync t.folder server then
    let wiped ← SyncM.ofDb (← perform (.deleteAllInFolder t.folder.id))
    let server ← fetchFrom t 1
    return { server, resync := true, wiped, lastSeen := none }
  else return { server, resync := false, wiped := 0, lastSeen := t.folder.lastSeenUid }

/-- Record the successful sync on the account row and announce it. -/
def recordSync (t : Target) (o : Opened) (d : Drained) : SyncM ReconcileReport := do
  let now ← perform (.now .synced)
  SyncM.ofDb (← perform (.updateSync t.account.id .idle none (some now)))
  if 0 < d.progress.inserted ∨ 0 < o.wiped ∨ o.resync then
    perform (.publish (.accountSynced t.account.id t.folder.id d.progress.inserted o.wiped))
  return { folder := t.folder.id, inserted := d.progress.inserted, wiped := o.wiped
           uidValidity := widen d.server.uidValidity, uidNext := widen d.server.uidNext
           lastSeenUid := d.lastSeen }

def finish (t : Target) (o : Opened) (d : Drained) : SyncM ReconcileReport := do
  SyncM.ofDb (← perform (.updateUidState t.folder.id (widen d.server.uidValidity)
    (widen d.server.uidNext) d.lastSeen))
  recordSync t o d

def reconcileFolder (mail : MailCrate) (req : Request) : LoopM ReconcileReport := do
  let t ← (lookup req).lift
  let o ← (openFolder t).lift
  let refs ← (knownThreads t.account.id).lift
  let d ← drain mail t drainFuel o.server { refs, inserted := 0 } o.lastSeen
  (finish t o d).lift

/-- Run one call of `reconcile_folder` to its end. -/
def reconcile (mail : MailCrate) (env : Env) (req : Request) (w : World) :
    Except Stop ReconcileReport × World :=
  Fallible.exec (handle env) (reconcileFolder mail req) w

end Postblox.Sync
