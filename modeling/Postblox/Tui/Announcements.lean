import Postblox.Tui.Agreement
import Postblox.Tui.CacheTrust

/-!
# Events and the cache

The daemon announces what changes in a folder, and the client drops the entries the event
names. Only an event with the account drops anything: new mail and a finished sync have it, the
events of the operations on one message do not.
-/
namespace Postblox.Tui

open Daemon.Args (uuidValue)
open Json (Value)

/-- An event as the client gets it. -/
structure Notice where
  topic : String
  data : Value

section Handler

variable (crates : Crates)

/-- `parse_account_id_value` and `parse_folder_id_value`. -/
def Notice.uuid (notice : Notice) (key : String) : Option Uuid :=
  (notice.data.get key).bind (uuidValue crates)

def invalidateEventFolderCache (app : AppState) (account : Uuid) : Option Uuid → AppState
  | some folder => app.folderCacheInvalidateFolder account folder
  | none => app.folderCacheInvalidateAccount account

/-- What the handler does to the cache; toasts, sync states and approvals leave it alone. -/
def onDaemonEvent (app : AppState) (notice : Notice) : AppState :=
  match notice.uuid crates "account_id" with
  | none => app
  | some account =>
    if notice.topic = "mail.new" ∨ notice.topic = "mail.updated" then
      invalidateEventFolderCache app account (notice.uuid crates "folder_id")
    else if notice.topic = "account.synced" then app.folderCacheInvalidateAccount account
    else app

end Handler

/-! ## What the daemon publishes -/

/-- The reconciler, for a message that came in. -/
def mailNew (account folder thread message : Uuid) (uid : UInt64) : Notice where
  topic := "mail.new"
  data := .object [("account_id", idValue account), ("folder_id", idValue folder),
    ("message_id", idValue message), ("thread_id", idValue thread), ("uid", .number (.posInt uid))]

/-- The reconciler, at the end of a sync that changed something. -/
def accountSynced (account folder : Uuid) (inserted wiped : UInt64) : Notice where
  topic := "account.synced"
  data := .object [("account_id", idValue account), ("folder_id", idValue folder),
    ("inserted", .number (.posInt inserted)), ("wiped", .number (.posInt wiped))]

/-- `op_message_set_flags`. -/
def flagsUpdated (message : Uuid) (flags : List String) : Notice where
  topic := "mail.updated"
  data := .object [("flags", strings flags), ("message_id", idValue message)]

/-- `op_message_archive`, `op_message_delete` and `op_message_move`. -/
def folderUpdated (message folder fromFolder : Uuid) : Notice where
  topic := "mail.updated"
  data := .object [("folder_id", idValue folder), ("from_folder_id", idValue fromFolder),
    ("message_id", idValue message)]

/-! ## What is dropped -/

section Drops

variable (crates : Crates)

/-- The event names the account of the key, and its folder or none. -/
def Notice.Drops (notice : Notice) (key : Uuid × Uuid) : Prop :=
  notice.uuid crates "account_id" = some key.1 ∧
    ((notice.topic = "mail.new" ∨ notice.topic = "mail.updated") ∧
        (notice.uuid crates "folder_id" = none ∨ notice.uuid crates "folder_id" = some key.2) ∨
      notice.topic = "account.synced")

instance Notice.Drops.instDecidable (notice : Notice) (key : Uuid × Uuid) :
    Decidable (notice.Drops crates key) := inferInstanceAs (Decidable (_ ∧ (_ ∧ (_ ∨ _) ∨ _)))

/-- The entries of the keys the event drops go, and nothing else. -/
theorem mem_onDaemonEvent {app : AppState} {notice : Notice} {entry : FolderCacheEntry} :
    entry ∈ (onDaemonEvent crates app notice).folderCache.entries ↔
      entry ∈ app.folderCache.entries ∧ ¬ notice.Drops crates entry.key := by
  unfold onDaemonEvent Notice.Drops
  cases notice.uuid crates "account_id" with
  | none => simp
  | some account =>
    have hkey : some account = some entry.key.1 ↔ entry.accountId = account := by
      rw [Option.some_inj, eq_comm]
      rfl
    dsimp only
    rw [hkey]
    split_ifs with hmail hsynced
    · cases hfolder : notice.uuid crates "folder_id" with
      | none =>
        simp only [invalidateEventFolderCache, AppState.folderCacheInvalidateAccount,
          FolderMessageCache.mem_invalidateAccount, hmail, true_or, and_true]
      | some folder =>
        have hnot : notice.topic ≠ "account.synced" := by
          rcases hmail with h | h
          · rw [h]
            decide
          · rw [h]
            decide
        have hname : some folder = some entry.key.2 ↔ entry.folderId = folder := by
          rw [Option.some_inj, eq_comm]
          rfl
        simp only [invalidateEventFolderCache, AppState.folderCacheInvalidateFolder,
          FolderMessageCache.mem_invalidateFolder, hmail, hnot, hname, true_and, or_false,
          reduceCtorEq, false_or, ne_eq, not_and_or]
    · simp only [AppState.folderCacheInvalidateAccount, FolderMessageCache.mem_invalidateAccount,
        hsynced, or_true, and_true]
    · simp [hmail, hsynced]

/-- The rest of the client stays. -/
theorem onDaemonEvent_eq (app : AppState) (notice : Notice) :
    ∃ folderCache, onDaemonEvent crates app notice = { app with folderCache } ∧
      (app.folderCache.Keyed → folderCache.Keyed) := by
  unfold onDaemonEvent
  split
  · exact ⟨_, rfl, id⟩
  · split_ifs
    · unfold invalidateEventFolderCache
      split
      · exact ⟨_, rfl, fun h => h.invalidateFolder⟩
      · exact ⟨_, rfl, fun h => h.invalidateAccount⟩
    · exact ⟨_, rfl, fun h => h.invalidateAccount⟩
    · exact ⟨_, rfl, id⟩

variable {crates} {key : Uuid × Uuid}

/-- New mail drops the folder it is in. -/
theorem drops_mailNew {account folder thread message : Uuid} {uid : UInt64} :
    (mailNew account folder thread message uid).Drops crates key ↔ key = (account, folder) := by
  have haccount : (mailNew account folder thread message uid).uuid crates "account_id" =
      some account := uuidValue_idValue crates account
  have hfolder : (mailNew account folder thread message uid).uuid crates "folder_id" =
      some folder := uuidValue_idValue crates folder
  rw [Notice.Drops, haccount, hfolder]
  simp only [mailNew, String.reduceEq, or_false, reduceCtorEq, false_or, true_and, Option.some_inj]
  rw [Prod.ext_iff, eq_comm, @eq_comm _ folder]

/-- A finished sync drops all folders of the account. -/
theorem drops_accountSynced {account folder : Uuid} {inserted wiped : UInt64} :
    (accountSynced account folder inserted wiped).Drops crates key ↔ key.1 = account := by
  have haccount : (accountSynced account folder inserted wiped).uuid crates "account_id" =
      some account := uuidValue_idValue crates account
  rw [Notice.Drops, haccount]
  simp [accountSynced, eq_comm]

/-- The events of the operations on a message drop nothing. -/
theorem not_drops_flagsUpdated {message : Uuid} {flags : List String} :
    ¬ (flagsUpdated message flags).Drops crates key := by
  rintro ⟨haccount, -⟩
  cases haccount

theorem not_drops_folderUpdated {message folder fromFolder : Uuid} :
    ¬ (folderUpdated message folder fromFolder).Drops crates key := by
  rintro ⟨haccount, -⟩
  cases haccount

end Drops

end Postblox.Tui
