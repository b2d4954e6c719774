import Postblox.Lib.UniqueIndex

/-!
# The mail tables

Rows of `accounts`, `folders`, `threads`, `messages` and `attachments`, and the
statements the sync and the message operations run on them. `Db` carries the
schema's `PRIMARY KEY` and `UNIQUE` constraints, so no statement can break them.
Ids are minted from a counter: a fresh UUID never meets an old one. Columns that
no modelled statement reads are left out.
-/
namespace Postblox.Db

open Lib

abbrev AccountId := Nat
abbrev FolderId := Nat
abbrev ThreadId := Nat
abbrev MessageId := Nat
abbrev AttachmentId := Nat

inductive SyncStatus where
  | idle
  | syncing
  | error
  deriving DecidableEq

structure Account where
  id : AccountId
  email : String
  imapHost : String
  imapPort : Int
  syncStatus : SyncStatus
  syncError : Option String
  lastSyncedAt : Option Int
  deriving DecidableEq

inductive FolderRole where
  | inbox
  | sent
  | drafts
  | archive
  | trash
  | spam
  | all
  | starred
  | custom
  deriving DecidableEq

def FolderRole.asStr : FolderRole → String
  | .inbox => "inbox"
  | .sent => "sent"
  | .drafts => "drafts"
  | .archive => "archive"
  | .trash => "trash"
  | .spam => "spam"
  | .all => "all"
  | .starred => "starred"
  | .custom => "custom"

structure Folder where
  id : FolderId
  accountId : AccountId
  name : String
  role : FolderRole
  uidValidity : Option Int
  uidNext : Option Int
  lastSeenUid : Option Int
  deriving DecidableEq

structure Thread where
  id : ThreadId
  accountId : AccountId
  externalId : Option String
  subject : Option String
  lastMessageAt : Option Int
  messageCount : Nat
  createdAt : Int
  deriving DecidableEq

structure NewMessage where
  accountId : AccountId
  folderId : FolderId
  threadId : Option ThreadId
  uid : Int
  messageIdHeader : Option String
  inReplyTo : Option String
  referencesHeader : Option String
  fromAddr : String
  toAddrs : List String
  ccAddrs : List String
  bccAddrs : List String
  replyTo : Option String
  subject : Option String
  snippet : Option String
  textBody : Option String
  htmlBody : Option String
  rawSize : Nat
  flags : List String
  internalDate : Int
  sentAt : Option Int
  deriving DecidableEq

structure Message extends NewMessage where
  id : MessageId
  deriving DecidableEq

inductive AttachmentDisposition where
  | inlined
  | attachment
  deriving DecidableEq

/-- `root/<message id>/<leaf>`. -/
structure StoredPath where
  root : String
  messageId : MessageId
  leaf : String
  deriving DecidableEq

structure NewAttachment where
  messageId : MessageId
  filename : String
  contentType : String
  contentId : Option String
  sizeBytes : Nat
  disposition : AttachmentDisposition
  storagePath : StoredPath
  deriving DecidableEq

structure Attachment extends NewAttachment where
  id : AttachmentId
  deriving DecidableEq

inductive DbError where
  /-- A `UNIQUE` constraint refused the write. -/
  | unique (index : String)
  /-- A row named by a foreign key is missing. -/
  | foreignKey
  /-- Anything that has nothing to do with the rows: I/O, locking, decoding. -/
  | failed
  deriving DecidableEq

structure Tables where
  accounts : List Account
  folders : List Folder
  threads : List Thread
  messages : List Message
  attachments : List Attachment
  nextId : Nat
  deriving DecidableEq

/-- The key of `UNIQUE (account_id, external_id)`; a `NULL` id is no key. -/
def Thread.externalKey (t : Thread) : Option (AccountId × String) :=
  t.externalId.map (t.accountId, ·)

/-- The key of `UNIQUE (folder_id, uid)`. -/
def NewMessage.uidKey (m : NewMessage) : Option (FolderId × Int) := some (m.folderId, m.uid)

/-- The constraints of the schema, and that minted ids are below the counter. -/
structure Tables.Wf (t : Tables) : Prop where
  folderIds : Unique (fun f : Folder => some f.id) t.folders
  folderNames : Unique (fun f : Folder => some (f.accountId, f.name)) t.folders
  threadIds : Unique (fun th : Thread => some th.id) t.threads
  threadExternals : Unique Thread.externalKey t.threads
  messageIds : Unique (fun m : Message => some m.id) t.messages
  messageUids : Unique (fun m : Message => m.uidKey) t.messages
  threadsMinted : ∀ th ∈ t.threads, th.id < t.nextId
  messagesMinted : ∀ m ∈ t.messages, m.id < t.nextId

/-- A database state: tables that satisfy the schema. -/
structure Database extends Tables where
  wf : toTables.Wf

/-- Accounts and folders before any mail arrived. -/
def Database.unsynced (accounts : List Account) (folders : List Folder) (nextId : Nat)
    (hids : Unique (fun f : Folder => some f.id) folders)
    (hnames : Unique (fun f : Folder => some (f.accountId, f.name)) folders) : Database where
  accounts := accounts
  folders := folders
  threads := []
  messages := []
  attachments := []
  nextId := nextId
  wf := {
    folderIds := hids
    folderNames := hnames
    threadIds := Unique.nil
    threadExternals := Unique.nil
    messageIds := Unique.nil
    messageUids := Unique.nil
    threadsMinted := fun _ h => nomatch h
    messagesMinted := fun _ h => nomatch h }

namespace Tables.Wf

variable {t : Tables}

theorem withAccounts (h : t.Wf) (accounts : List Account) : { t with accounts }.Wf :=
  { h with }

theorem withFolders (h : t.Wf) {folders : List Folder}
    (hids : Unique (fun f : Folder => some f.id) folders)
    (hnames : Unique (fun f : Folder => some (f.accountId, f.name)) folders) :
    { t with folders }.Wf :=
  { h with folderIds := hids, folderNames := hnames }

theorem withThreads (h : t.Wf) {threads : List Thread} {nextId : Nat}
    (hids : Unique (fun th : Thread => some th.id) threads)
    (hexternals : Unique Thread.externalKey threads)
    (hminted : ∀ th ∈ threads, th.id < nextId) (hle : t.nextId ≤ nextId) :
    { t with threads, nextId }.Wf :=
  { h with
    threadIds := hids
    threadExternals := hexternals
    threadsMinted := hminted
    messagesMinted := fun m hm => (h.messagesMinted m hm).trans_le hle }

theorem withMessages (h : t.Wf) {messages : List Message} {attachments : List Attachment}
    {nextId : Nat} (hids : Unique (fun m : Message => some m.id) messages)
    (huids : Unique (fun m : Message => m.uidKey) messages)
    (hminted : ∀ m ∈ messages, m.id < nextId) (hle : t.nextId ≤ nextId) :
    { t with messages, attachments, nextId }.Wf :=
  { h with
    messageIds := hids
    messageUids := huids
    threadsMinted := fun th hth => (h.threadsMinted th hth).trans_le hle
    messagesMinted := hminted }

/-- Dropping rows of `messages` and `attachments` breaks nothing. -/
theorem filterMessages (h : t.Wf) (p : Message → Bool) (attachments : List Attachment) :
    { t with messages := t.messages.filter p, attachments }.Wf :=
  h.withMessages (h.messageIds.filter p) (h.messageUids.filter p)
    (fun m hm => h.messagesMinted m (List.mem_filter.mp hm).1) (le_refl t.nextId)

end Tables.Wf

/-! ## accounts -/

namespace Accounts

def get (db : Database) (id : AccountId) : Option Account :=
  db.accounts.find? (fun a => a.id = id)

def updateSync (db : Database) (id : AccountId) (status : SyncStatus) (error : Option String)
    (lastSyncedAt : Option Int) : Database where
  toTables := { db.toTables with
    accounts := updateWhere (fun a => a.id = id)
      (fun a => { a with syncStatus := status, syncError := error,
                         lastSyncedAt := lastSyncedAt.orElse fun _ => a.lastSyncedAt })
      db.accounts }
  wf := db.wf.withAccounts _

end Accounts

/-! ## folders -/

namespace Folders

def getByName (db : Database) (account : AccountId) (name : String) : Option Folder :=
  db.folders.find? (fun f => f.accountId = account ∧ f.name = name)

/-- Alphabetical by name. -/
def listByAccount (db : Database) (account : AccountId) : List Folder :=
  (db.folders.filter (fun f => f.accountId = account)).insertionSort (fun f g => f.name ≤ g.name)

/-- Each argument writes only when it is present (`COALESCE`). -/
def updateUidState (db : Database) (id : FolderId) (uidValidity uidNext lastSeenUid : Option Int) :
    Database where
  toTables := { db.toTables with
    folders := updateWhere (fun f => f.id = id)
      (fun f => { f with uidValidity := uidValidity.orElse fun _ => f.uidValidity
                         uidNext := uidNext.orElse fun _ => f.uidNext
                         lastSeenUid := lastSeenUid.orElse fun _ => f.lastSeenUid })
      db.folders }
  wf := db.wf.withFolders (db.wf.folderIds.update fun _ => rfl)
    (db.wf.folderNames.update fun _ => rfl)

end Folders

/-! ## threads -/

namespace Threads

/-- Some thread of the account has the external id. -/
def ExternalTaken (db : Database) (account : AccountId) (externalId : Option String) : Prop :=
  ∃ th ∈ db.threads, ∃ x, externalId = some x ∧ th.externalKey = some (account, x)

instance (db : Database) (account : AccountId) (externalId : Option String) :
    Decidable (ExternalTaken db account externalId) :=
  decidable_of_iff
    (∃ th ∈ db.threads, externalId.any fun x => th.externalKey = some (account, x))
    (by simp [ExternalTaken, Option.any_eq_true])

/-- The row that `create` inserts. -/
def newRow (db : Database) (createdAt : Int) (account : AccountId)
    (externalId subject : Option String) : Thread where
  id := db.nextId
  accountId := account
  externalId := externalId
  subject := subject
  lastMessageAt := none
  messageCount := 0
  createdAt := createdAt

def create (db : Database) (createdAt : Int) (account : AccountId)
    (externalId subject : Option String) : Except DbError (Thread × Database) :=
  if htaken : ExternalTaken db account externalId then .error (.unique "threads.external_id")
  else if (Accounts.get db account).isNone then .error .foreignKey
  else
    .ok (newRow db createdAt account externalId subject,
      { toTables := { db.toTables with
          threads := db.threads ++ [newRow db createdAt account externalId subject]
          nextId := db.nextId + 1 }
        wf := by
          refine db.wf.withThreads (db.wf.threadIds.append_single ?_)
            (db.wf.threadExternals.append_single ?_) ?_ (Nat.le_succ _)
          · intro th hth k hk heq
            have hlt := db.wf.threadsMinted th hth
            exact hlt.ne (Option.some.inj (heq.trans hk.symm))
          · intro th hth k hk heq
            cases hx : externalId with
            | none => simp [newRow, Thread.externalKey, hx] at hk
            | some x =>
              have hkey : k = (account, x) := by
                simpa [newRow, Thread.externalKey, hx, eq_comm] using hk
              exact htaken ⟨th, hth, x, hx, hkey ▸ heq⟩
          · intro th hth
            rcases List.mem_append.mp hth with hold | hnew
            · exact Nat.lt_succ_of_lt (db.wf.threadsMinted th hold)
            · rw [List.mem_singleton.mp hnew]
              exact Nat.lt_succ_self db.nextId })

/-- `ORDER BY last_message_at DESC NULLS LAST, created_at DESC`. -/
def recentFirst (a b : Thread) : Bool :=
  match a.lastMessageAt, b.lastMessageAt with
  | some x, some y => y < x || (x == y && b.createdAt ≤ a.createdAt)
  | some _, none => true
  | none, some _ => false
  | none, none => b.createdAt ≤ a.createdAt

def listRecent (db : Database) (account : AccountId) (limit offset : Int) : List Thread :=
  (((db.threads.filter (fun th => th.accountId = account)).insertionSort
    (fun a b => recentFirst a b)).drop (max offset 0).toNat).take (max 1 (min limit 500)).toNat

private theorem wf_update (db : Database) (p : Thread → Bool) (f : Thread → Thread)
    (hid : ∀ th, (f th).id = th.id) (hkey : ∀ th, (f th).externalKey = th.externalKey) :
    ({ db.toTables with threads := updateWhere p f db.threads } : Tables).Wf := by
  refine db.wf.withThreads (db.wf.threadIds.update fun th => congrArg some (hid th))
    (db.wf.threadExternals.update hkey) ?_ (le_refl _)
  intro th hth
  obtain ⟨old, hold, heq⟩ := mem_updateWhere.mp hth
  have hsame : th.id = old.id := by
    rw [heq]
    split_ifs
    · exact hid old
    · rfl
  rw [hsame]
  exact db.wf.threadsMinted old hold

/-- Only a strictly newer instant is written. -/
def touchLastMessageAt (db : Database) (id : ThreadId) (time : Int) : Database where
  toTables := { db.toTables with
    threads := updateWhere (fun th => th.id = id ∧ th.lastMessageAt.all (· < time))
      (fun th => { th with lastMessageAt := some time }) db.threads }
  wf := wf_update db _ _ (fun _ => rfl) (fun _ => rfl)

/-- Recompute the count and the latest date from the messages of the thread. -/
def refreshAggregates (db : Database) (id : ThreadId) : Database where
  toTables := { db.toTables with
    threads := updateWhere (fun th => th.id = id)
      (fun th => { th with
        messageCount := (db.messages.filter fun m => m.threadId = some id).length
        lastMessageAt := ((db.messages.filter fun m => m.threadId = some id).map
          (·.internalDate)).max? })
      db.threads }
  wf := wf_update db _ _ (fun _ => rfl) (fun _ => rfl)

end Threads

/-! ## messages and attachments -/

namespace Messages

def get (db : Database) (id : MessageId) : Option Message :=
  db.messages.find? (fun m => m.id = id)

/-- The row of a folder with a given UID is there. -/
def UidTaken (db : Database) (folder : FolderId) (uid : Int) : Prop :=
  ∃ m ∈ db.messages, m.folderId = folder ∧ m.uid = uid

instance (db : Database) (folder : FolderId) (uid : Int) : Decidable (UidTaken db folder uid) :=
  inferInstanceAs (Decidable (∃ m ∈ db.messages, m.folderId = folder ∧ m.uid = uid))

def create (db : Database) (new : NewMessage) : Except DbError (Message × Database) :=
  if htaken : UidTaken db new.folderId new.uid then .error (.unique "messages.uid")
  else if (Accounts.get db new.accountId).isNone ∨ (∀ f ∈ db.folders, f.id ≠ new.folderId) ∨
      new.threadId.any (fun id => ∀ th ∈ db.threads, th.id ≠ id) then .error .foreignKey
  else
    .ok ({ new with id := db.nextId },
      { toTables := { db.toTables with
          messages := db.messages ++ [{ new with id := db.nextId }]
          nextId := db.nextId + 1 }
        wf := by
          refine db.wf.withMessages (db.wf.messageIds.append_single ?_)
            (db.wf.messageUids.append_single ?_) ?_ (Nat.le_succ _)
          · intro m hm k hk heq
            have hlt := db.wf.messagesMinted m hm
            exact hlt.ne (Option.some.inj (heq.trans hk.symm))
          · intro m hm k hk heq
            have hkey : (m.folderId, m.uid) = (new.folderId, new.uid) :=
              Option.some.inj (heq.trans hk.symm)
            exact htaken ⟨m, hm, (Prod.mk.inj hkey).1, (Prod.mk.inj hkey).2⟩
          · intro m hm
            rcases List.mem_append.mp hm with hold | hnew
            · exact Nat.lt_succ_of_lt (db.wf.messagesMinted m hold)
            · rw [List.mem_singleton.mp hnew]
              exact Nat.lt_succ_self db.nextId })

/-- The non-null Message-IDs of the given threads, each thread's by date. -/
def messageIdsByThreads (db : Database) (threads : List ThreadId) : List (ThreadId × String) :=
  ((db.messages.filter fun m => m.threadId.any threads.contains).insertionSort
      (fun m n => m.threadId.getD 0 < n.threadId.getD 0 ∨
        (m.threadId.getD 0 = n.threadId.getD 0 ∧ m.internalDate ≤ n.internalDate))).filterMap
    fun m => m.threadId.bind fun th => m.messageIdHeader.map (th, ·)

def existingUids (db : Database) (folder : FolderId) (uids : List Int) : List Int :=
  (db.messages.filter fun m => m.folderId = folder ∧ uids.contains m.uid).map (·.uid)

/-- Remove rows; `ON DELETE CASCADE` takes their attachment rows along. -/
def deleteWhere (db : Database) (p : Message → Bool) : Database where
  toTables := { db.toTables with
    messages := db.messages.filter fun m => !p m
    attachments := db.attachments.filter fun a =>
      !db.messages.any fun m => p m && m.id == a.messageId }
  wf := db.wf.filterMessages _ _

def delete (db : Database) (id : MessageId) : Bool × Database :=
  (db.messages.any fun m => m.id = id, deleteWhere db fun m => m.id = id)

def deleteAllInFolder (db : Database) (folder : FolderId) : Nat × Database :=
  (db.messages.countP fun m => m.folderId = folder, deleteWhere db fun m => m.folderId = folder)

/-- Another row has the UID of this one in the given folder. -/
def MoveClashes (db : Database) (row : Message) (folder : FolderId) : Prop :=
  ∃ m ∈ db.messages, m.id ≠ row.id ∧ m.folderId = folder ∧ m.uid = row.uid

instance (db : Database) (row : Message) (folder : FolderId) :
    Decidable (MoveClashes db row folder) :=
  inferInstanceAs
    (Decidable (∃ m ∈ db.messages, m.id ≠ row.id ∧ m.folderId = folder ∧ m.uid = row.uid))

theorem get_eq_some {db : Database} {id : MessageId} {row : Message} (h : get db id = some row) :
    row ∈ db.messages ∧ row.id = id := by
  have hid := List.find?_some h
  exact ⟨List.mem_of_find?_eq_some h, of_decide_eq_true hid⟩

/-- The rows after one of them was put into another folder. -/
def moved (id : MessageId) (folder : FolderId) (messages : List Message) : List Message :=
  updateWhere (fun m => m.id = id) (fun m => { m with folderId := folder }) messages

private theorem wf_moved (db : Database) {id : MessageId} {row : Message} {folder : FolderId}
    (hget : get db id = some row) (hclash : ¬ MoveClashes db row folder) :
    ({ db.toTables with messages := moved id folder db.messages } : Tables).Wf := by
  obtain ⟨hmem, hrow⟩ := get_eq_some hget
  refine db.wf.withMessages (db.wf.messageIds.update fun _ => rfl) ?_ ?_ (le_refl _)
  · refine db.wf.messageUids.update_one (i := id) db.wf.messageIds ?_ ?_
    · exact fun a ha => congrArg some (of_decide_eq_true ha)
    · intro a ha hid b hb hne k hk hbk
      have hid' : a.id = id := of_decide_eq_true hid
      have hsame : a = row := db.wf.messageIds.eq_of_key ha hmem rfl
        (congrArg some (hrow.trans hid'.symm))
      have hkey : (b.folderId, b.uid) = (folder, row.uid) := by
        rw [← hsame]
        exact Option.some.inj (hbk.trans hk.symm)
      obtain ⟨hfolder, huid⟩ := Prod.mk.inj hkey
      refine hclash ⟨b, hb, fun heq => hne ?_, hfolder, huid⟩
      exact decide_eq_true (heq.trans hrow)
  · intro m hm
    obtain ⟨old, hold, heq⟩ := mem_updateWhere.mp hm
    have hid : m.id = old.id := by
      rw [heq]
      split_ifs
      · rfl
      · rfl
    rw [hid]
    exact db.wf.messagesMinted old hold

/-- Only `folder_id` is written; the row keeps its UID. -/
def setFolder (db : Database) (id : MessageId) (folder : FolderId) :
    Except DbError (Bool × Database) :=
  match hget : get db id with
  | none => .ok (false, db)
  | some row =>
    if hclash : MoveClashes db row folder then .error (.unique "messages.uid")
    else if ∀ f ∈ db.folders, f.id ≠ folder then .error .foreignKey
    else
      .ok (true,
        { toTables := { db.toTables with messages := moved id folder db.messages }
          wf := wf_moved db hget hclash })

end Messages

namespace Attachments

def create (db : Database) (new : NewAttachment) : Except DbError (Attachment × Database) :=
  if db.messages.all (fun m => m.id ≠ new.messageId) then .error .foreignKey
  else
    .ok ({ new with id := db.nextId },
      { toTables := { db.toTables with
          attachments := db.attachments ++ [{ new with id := db.nextId }]
          nextId := db.nextId + 1 }
        wf := db.wf.withMessages db.wf.messageIds db.wf.messageUids
          (fun m hm => Nat.lt_succ_of_lt (db.wf.messagesMinted m hm)) (Nat.le_succ _) })

end Attachments

end Postblox.Db
