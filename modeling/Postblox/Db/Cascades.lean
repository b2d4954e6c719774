import Postblox.Db.Tables

/-!
# Accounts, folders and threads come and go

The statements that create accounts and folders, and the deletions whose foreign keys
reach the mail: `ON DELETE CASCADE` takes the messages of a folder and of an account
along, `ON DELETE SET NULL` lets the messages of a thread stay.
-/
namespace Postblox.Db

open Lib

namespace Tables.Wf

variable {t : Tables}

/-- Rewriting message rows without touching their ids and UIDs. -/
theorem updateMessages (h : t.Wf) {p : Message → Bool} {f : Message → Message}
    (hid : ∀ m, (f m).id = m.id) (huid : ∀ m, (f m).uidKey = m.uidKey) :
    { t with messages := updateWhere p f t.messages }.Wf := by
  refine h.withMessages (h.messageIds.update fun m => congrArg some (hid m))
    (h.messageUids.update huid) ?_ (le_refl _)
  intro m hm
  obtain ⟨old, hold, heq⟩ := mem_updateWhere.mp hm
  have hsame : m.id = old.id := by
    rw [heq]
    split_ifs
    · exact hid old
    · rfl
  rw [hsame]
  exact h.messagesMinted old hold

theorem filterFolders (h : t.Wf) (p : Folder → Bool) :
    { t with folders := t.folders.filter p }.Wf :=
  h.withFolders (h.folderIds.filter p) (h.folderNames.filter p)

theorem filterThreads (h : t.Wf) (p : Thread → Bool) :
    { t with threads := t.threads.filter p }.Wf :=
  h.withThreads (h.threadIds.filter p) (h.threadExternals.filter p)
    (fun th hth => h.threadsMinted th (List.mem_filter.mp hth).1) (le_refl t.nextId)

end Tables.Wf

/-! ## messages -/

namespace Messages

/-- Whether the row is there, and whether its flags changed. -/
structure SetFlagsOutcome where
  found : Bool
  changed : Bool
  deriving DecidableEq

/-- `WHERE id = ? AND flags <> ?`. -/
def flagsDiffer (id : MessageId) (flags : List String) (m : Message) : Bool :=
  m.id = id ∧ m.flags ≠ flags

def withFlags (flags : List String) (m : Message) : Message := { m with flags := flags }

def setFlags (db : Database) (id : MessageId) (flags : List String) :
    SetFlagsOutcome × Database :=
  ({ found := db.messages.any fun m => m.id = id
     changed := db.messages.any (flagsDiffer id flags) },
    { toTables := { db.toTables with
        messages := updateWhere (flagsDiffer id flags) (withFlags flags) db.messages }
      wf := db.wf.updateMessages (fun _ => rfl) (fun _ => rfl) })

/-- The message belongs to a thread of the set. -/
def inThread (db : Database) (p : Thread → Bool) (m : Message) : Bool :=
  m.threadId.any fun id => db.threads.any fun th => p th && th.id == id

def withoutThread (m : Message) : Message := { m with threadId := none }

/-- What `ON DELETE SET NULL` does before the threads go. -/
def clearThreads (db : Database) (p : Thread → Bool) : Database where
  toTables := { db.toTables with
    messages := updateWhere (inThread db p) withoutThread db.messages }
  wf := db.wf.updateMessages (fun _ => rfl) (fun _ => rfl)

/-- The message lies in a folder of the set. -/
def inFolder (db : Database) (p : Folder → Bool) (m : Message) : Bool :=
  db.folders.any fun f => p f && f.id == m.folderId

end Messages

/-! ## folders -/

structure NewFolder where
  accountId : AccountId
  name : String
  role : FolderRole

namespace Folders

def get (db : Database) (id : FolderId) : Option Folder := db.folders.find? (fun f => f.id = id)

def newRow (db : Database) (new : NewFolder) : Folder where
  id := db.nextId
  accountId := new.accountId
  name := new.name
  role := new.role
  uidValidity := none
  uidNext := none
  lastSeenUid := none

def create (db : Database) (new : NewFolder) : Except DbError (Folder × Database) :=
  if hname : ∃ f ∈ db.folders, f.accountId = new.accountId ∧ f.name = new.name then
    .error (.unique "folders.name")
  else if hid : ∃ f ∈ db.folders, f.id = db.nextId then .error (.unique "folders.id")
  else if (Accounts.get db new.accountId).isNone then .error .foreignKey
  else
    .ok (newRow db new,
      { toTables := { db.toTables with
          folders := db.folders ++ [newRow db new]
          nextId := db.nextId + 1 }
        wf := by
          have hfolders : ({ db.toTables with folders := db.folders ++ [newRow db new] } :
              Tables).Wf := by
            refine db.wf.withFolders (db.wf.folderIds.append_single ?_)
              (db.wf.folderNames.append_single ?_)
            · intro f hf k hk heq
              exact hid ⟨f, hf, Option.some.inj (heq.trans hk.symm)⟩
            · intro f hf k hk heq
              have hkey : (f.accountId, f.name) = (new.accountId, new.name) :=
                Option.some.inj (heq.trans hk.symm)
              exact hname ⟨f, hf, (Prod.mk.inj hkey).1, (Prod.mk.inj hkey).2⟩
          exact hfolders.withThreads hfolders.threadIds hfolders.threadExternals
            (fun th hth => Nat.lt_succ_of_lt (hfolders.threadsMinted th hth)) (Nat.le_succ _) })

/-- The columns that `upsert` rewrites on an existing row. -/
def describe (db : Database) (id : FolderId) (role : FolderRole) : Database where
  toTables := { db.toTables with
    folders := updateWhere (fun f => f.id = id) (fun f => { f with role := role }) db.folders }
  wf := db.wf.withFolders (db.wf.folderIds.update fun _ => rfl)
    (db.wf.folderNames.update fun _ => rfl)

/-- Remove folders with their messages. -/
def deleteWhere (db : Database) (p : Folder → Bool) : Database where
  toTables := { (Messages.deleteWhere db (Messages.inFolder db p)).toTables with
    folders := db.folders.filter fun f => !p f }
  wf := (Messages.deleteWhere db (Messages.inFolder db p)).wf.filterFolders _

def delete (db : Database) (id : FolderId) : Database := deleteWhere db fun f => f.id = id

end Folders

/-! ## threads -/

namespace Threads

/-- Remove threads; their messages stay. -/
def deleteWhere (db : Database) (p : Thread → Bool) : Database where
  toTables := { (Messages.clearThreads db p).toTables with
    threads := db.threads.filter fun th => !p th }
  wf := (Messages.clearThreads db p).wf.filterThreads _

def delete (db : Database) (id : ThreadId) : Database := deleteWhere db fun th => th.id = id

end Threads

/-! ## accounts -/

structure NewAccount where
  email : String
  imapHost : String
  imapPort : Int

namespace Accounts

def newRow (db : Database) (new : NewAccount) : Account where
  id := db.nextId
  email := new.email
  imapHost := new.imapHost
  imapPort := new.imapPort
  syncStatus := .idle
  syncError := none
  lastSyncedAt := none

def create (db : Database) (new : NewAccount) : Except DbError (Account × Database) :=
  if ∃ a ∈ db.accounts, a.email = new.email then .error (.unique "accounts.email")
  else if ∃ a ∈ db.accounts, a.id = db.nextId then .error (.unique "accounts.id")
  else
    .ok (newRow db new,
      { toTables := { db.toTables with
          accounts := db.accounts ++ [newRow db new]
          nextId := db.nextId + 1 }
        wf := by
          have haccounts := db.wf.withAccounts (db.accounts ++ [newRow db new])
          exact haccounts.withThreads haccounts.threadIds haccounts.threadExternals
            (fun th hth => Nat.lt_succ_of_lt (haccounts.threadsMinted th hth)) (Nat.le_succ _) })

/-- What the foreign keys of `folders`, `threads` and `messages` do for an account that
goes: its folders with their messages, its threads, and its messages elsewhere. -/
def cascade (db : Database) (id : AccountId) : Database :=
  Messages.deleteWhere
    (Threads.deleteWhere (Folders.deleteWhere db fun f => f.accountId = id) fun th =>
      th.accountId = id)
    fun m => m.accountId = id

def withoutAccount (db : Database) (id : AccountId) : Database where
  toTables := { (cascade db id).toTables with
    accounts := db.accounts.filter fun a => a.id ≠ id }
  wf := (cascade db id).wf.withAccounts _

def delete (db : Database) (id : AccountId) : Bool × Database :=
  if db.accounts.any fun a => a.id = id then (true, withoutAccount db id) else (false, db)

end Accounts

end Postblox.Db
