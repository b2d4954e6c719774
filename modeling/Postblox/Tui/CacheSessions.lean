import Postblox.Lib.Machine
import Postblox.Tui.Announcements

/-!
# The client, the daemon and the events between them

A session is the client, the messages the daemon has, and the events that are on their way. The
client's own commands change both ends, by a call that the daemon does or refuses or whose reply
is lost. Everything else that changes a folder comes with the event the daemon publishes for it.
-/
namespace Postblox.Tui

open Lib

/-- How a call ends: it is done, refused, or done and the reply is lost. -/
inductive Outcome where
  | accepted
  | refused (error : String)
  | lost (error : String)
  deriving DecidableEq

def Outcome.Answered : Outcome → Prop
  | .accepted => True
  | .refused _ => True
  | .lost _ => False

instance Outcome.Answered.instDecidable : ∀ outcome : Outcome, Decidable outcome.Answered
  | .accepted => isTrue trivial
  | .refused _ => isTrue trivial
  | .lost _ => isFalse id

/-- How the reconciler announces that it changed a folder. -/
inductive Announcement where
  | newMail (thread message : Uuid) (uid : UInt64)
  | synced (inserted wiped : UInt64)

def Announcement.notice (account folder : Uuid) : Announcement → Notice
  | .newMail thread message uid => mailNew account folder thread message uid
  | .synced inserted wiped => accountSynced account folder inserted wiped

/-- What the reconciler announces names the folder. -/
theorem Announcement.drops {crates : Crates} (account folder : Uuid) (announced : Announcement) :
    (announced.notice account folder).Drops crates (account, folder) := by
  cases announced with
  | newMail thread message uid => exact drops_mailNew.mpr rfl
  | synced inserted wiped => exact drops_accountSynced.mpr rfl

/-! ## What else the client does -/

namespace AppState

variable (app : AppState)

/-- `invalidate_selected_folder_cache`. -/
def invalidateSelectedFolderCache : AppState :=
  match app.selectedAccountId, app.selectedFolderId with
  | some account, some folder => app.folderCacheInvalidateFolder account folder
  | _, _ => app

/-- `select_account_by_name`, with the index of the name. -/
def selectAccountAt (index : Nat) : AppState :=
  if app.selectedAccount = index then app
  else
    let cleared := ({ app with
      selectedAccount := index
      active := .accounts
      folders := virtualFolders } : AppState).clearRows
    ({ cleared with
      selectedFolder := 0, selectedThread := 0, selectedMessage := 0 } : AppState).normalizeActivePane

/-- `select_folder_by_name`, with the index of the name. -/
def selectFolderAt (index : Nat) : AppState :=
  if app.selectedFolder = index then app
  else
    let cleared := ({ app with selectedFolder := index, active := .folders } : AppState).clearRows
    ({ cleared with selectedThread := 0, selectedMessage := 0 } : AppState).normalizeActivePane

end AppState

instance AppState.SameRows.instDecidable (app app' : AppState) : Decidable (app.SameRows app') :=
  decidable_of_iff (app'.place = app.place ∧ app'.messages = app.messages ∧
      app'.folderMessages = app.folderMessages ∧ app'.folderCache = app.folderCache)
    ⟨fun ⟨hplace, hmessages, hrows, hcache⟩ => ⟨hplace, hmessages, hrows, hcache⟩,
      fun ⟨hplace, hmessages, hrows, hcache⟩ => ⟨hplace, hmessages, hrows, hcache⟩⟩

/-! ## Sessions -/

structure Session where
  app : AppState
  store : MailStore
  pending : List Notice

inductive SessionAction where
  | refresh (rest : Mailbox) (now : Nat)
  | refreshDetail (rest : Mailbox) (now : Nat)
  | fetchDetail (id : Uuid) (rest : Mailbox) (now : Nat)
  | invalidateSelected
  | applyAccounts (accounts : List AccountItem)
  | applyFolders (folders : List FolderItem)
  | moveAccount (delta : Int)
  | moveFolder (delta : Int)
  | moveThread (delta : Int)
  | selectAccount (index : Nat)
  | selectFolder (index : Nat)
  | jumpToHit (hit : SearchHit)
  /-- What leaves the rows, the selected folder and the cache alone. -/
  | elsewhere (after : AppState)
  | flagWrite (flag : String) (enabled : Bool) (outcome : Outcome) (now later : Nat)
  /-- Archive, delete and move, with the folder the daemon finds. -/
  | messageRemove (id target : Uuid) (outcome : Outcome) (now later : Nat)
  | folderSync (rows : List StoredMessage) (announced : List Announcement) (outcome : Outcome)
  /-- Another sync, and an operation of another client. -/
  | synced (folder : Uuid) (rows : List StoredMessage) (announced : Announcement)
  | flagged (id : Uuid) (flags : List String)
  | moved (id target : Uuid)
  /-- An event about something else. -/
  | notified (notice : Notice)
  /-- The first event is handled. -/
  | handled

namespace Session

/-- Before the first account is loaded. -/
def start (store : MailStore) : Session := ⟨.initial, store, []⟩

section Writes

variable (s : Session)

/-- `message.set_flags`. -/
def storeFlags (id : Uuid) (flags : List String) : Session :=
  if (s.store.get id).any fun m => m.item.flags ≠ flags then
    { s with
      store := s.store.setFlags id flags
      pending := s.pending ++ [flagsUpdated id flags] }
  else s

/-- `message.archive`, `message.delete` and `message.move`. -/
def storeFolder (id target : Uuid) : Session :=
  match s.store.folderOf id with
  | none => s
  | some source =>
    if source = target then s
    else
      { s with
        store := s.store.setFolder id target
        pending := s.pending ++ [folderUpdated id target source] }

/-- A sync of a folder. -/
def storeRows (folder : Uuid) (rows : List StoredMessage) (announced : List Announcement) :
    Option Session :=
  (s.store.withRows folder rows).map fun store =>
    { s with store, pending := s.pending ++ announced.map (·.notice (s.store.owner folder) folder) }

/-- `run_flag_write`, up to the refresh. -/
def flagWrite (flag : String) (enabled : Bool) (outcome : Outcome) (now later : Nat) :
    Option Session :=
  match s.app.selectedMessageFlagUpdate flag enabled with
  | none => none
  | some (id, flags) =>
    let previous := (s.app.messageRow.map (·.flags)).getD []
    let flagged := s.app.clearError.applyMessageFlags id flags now
    let reverted := fun error => (flagged.applyMessageFlags id previous later).setError error
    match outcome with
    | .accepted => some { s.storeFlags id flags with app := flagged }
    | .refused error => some { s with app := reverted error }
    | .lost error => some { s.storeFlags id flags with app := reverted error }

/-- `run_message_remove_for` and `run_message_move`, up to the refresh. -/
def messageRemove (id target : Uuid) (outcome : Outcome) (now later : Nat) : Session :=
  let cleared := s.app.clearError
  let removed := (cleared.removeMessageLocally id now).1
  let restored := fun error =>
    (removed.restoreMessageListSnapshot cleared.snapshotMessageList later).setError error
  match outcome with
  | .accepted => { s.storeFolder id target with app := removed }
  | .refused error => { s with app := restored error }
  | .lost error => { s.storeFolder id target with app := restored error }

/-- `run_folder_write` for a sync, up to the refresh. -/
def folderSync (rows : List StoredMessage) (announced : List Announcement) (outcome : Outcome) :
    Option Session :=
  match s.app.selectedAccountId, s.app.selectedFolderId with
  | some _, some folder =>
    match outcome with
    | .accepted => (s.storeRows folder rows announced).map fun synced =>
        { synced with app := s.app.clearError.invalidateSelectedFolderCache }
    | .refused error => some { s with app := s.app.setError error }
    | .lost error => (s.storeRows folder rows announced).map fun synced =>
        { synced with app := s.app.setError error }
  | _, _ => none

/-- The folders are those of the account. -/
def Owns (owner : Option Uuid) (folders : List FolderItem) : Prop :=
  ∀ account ∈ owner, ∀ folder ∈ folders, folder.kind = .mail → s.store.owner folder.id = account

instance Owns.instDecidable (owner : Option Uuid) (folders : List FolderItem) :
    Decidable (s.Owns owner folders) :=
  inferInstanceAs (Decidable (∀ account ∈ owner, ∀ folder ∈ folders, _ → _))

end Writes

section Step

variable (crates : Crates) (s : Session)

def step : SessionAction → Option Session
  | .refresh rest now =>
    some { s with app := s.app.refreshMessages (s.store.mailbox rest) now }
  | .refreshDetail rest now =>
    some { s with app := s.app.refreshDetail (s.store.mailbox rest) now }
  | .fetchDetail id rest now =>
    match (s.store.mailbox rest).getMessage id with
    | .ok (some detail) =>
      some { s with app := s.app.clearError.cacheConversationDetail detail now }
    | .ok none => some s
    | .error error => some { s with app := s.app.setError error }
  | .invalidateSelected => some { s with app := s.app.invalidateSelectedFolderCache }
  | .applyAccounts accounts => some { s with app := s.app.applyAccounts accounts }
  | .applyFolders folders =>
    if s.Owns s.app.selectedAccountId folders then
      some { s with app := s.app.applyFolders folders }
    else none
  | .moveAccount delta => some { s with app := (s.app.moveAccount delta).1 }
  | .moveFolder delta => some { s with app := (s.app.moveFolder delta).1 }
  | .moveThread delta => some { s with app := (s.app.moveThread delta).1 }
  | .selectAccount index =>
    if index < s.app.accounts.length then some { s with app := s.app.selectAccountAt index }
    else none
  | .selectFolder index =>
    if index < s.app.folders.length then some { s with app := s.app.selectFolderAt index }
    else none
  | .jumpToHit hit => some { s with app := (s.app.jumpToHit hit).1 }
  | .elsewhere after => if s.app.SameRows after then some { s with app := after } else none
  | .flagWrite flag enabled outcome now later => s.flagWrite flag enabled outcome now later
  | .messageRemove id target outcome now later => some (s.messageRemove id target outcome now later)
  | .folderSync rows announced outcome => s.folderSync rows announced outcome
  | .synced folder rows announced => s.storeRows folder rows [announced]
  | .flagged id flags => some (s.storeFlags id flags)
  | .moved id target => some (s.storeFolder id target)
  | .notified notice => some { s with pending := s.pending ++ [notice] }
  | .handled =>
    match s.pending with
    | [] => none
    | notice :: pending => some { s with app := onDaemonEvent crates s.app notice, pending }

/-! ## When the cache keeps up -/

/-- An event that drops the entry of the key is on its way. -/
def Owed (key : Uuid × Uuid) : Prop := ∃ notice ∈ s.pending, notice.Drops crates key

instance Owed.instDecidable (key : Uuid × Uuid) : Decidable (s.Owed crates key) :=
  inferInstanceAs (Decidable (∃ notice ∈ s.pending, _))

/-- The rows that are shown are those of the selected folder, or an event for it is on its way. -/
def Shows : Prop := ShowsListing s.store (s.Owed crates) s.app

instance Shows.instDecidable : Decidable (s.Shows crates) :=
  inferInstanceAs (Decidable (∀ key ∈ s.app.selectedKey, _ ∨ _ = _))

/-- No cached folder is touched, except the selected one and those an event is on its way for. -/
def Spares (touches : Uuid → Prop) (except : Option (Uuid × Uuid)) : Prop :=
  ∀ entry ∈ s.app.folderCache.entries, some entry.key ≠ except → ¬ s.Owed crates entry.key →
    ¬ touches entry.folderId

instance Spares.instDecidable (touches : Uuid → Prop) [∀ folder, Decidable (touches folder)]
    (except : Option (Uuid × Uuid)) : Decidable (s.Spares crates touches except) :=
  inferInstanceAs (Decidable (∀ entry ∈ s.app.folderCache.entries, _ → _ → _))

end Step

end Session

namespace MailStore

variable (store : MailStore)

/-- The message is in the folder and gets other flags. -/
def FlagsTouch (id : Uuid) (flags : List String) (folder : Uuid) : Prop :=
  ∃ m ∈ store.get id, m.folderId = folder ∧ m.item.flags ≠ flags

instance FlagsTouch.instDecidable (id : Uuid) (flags : List String) (folder : Uuid) :
    Decidable (store.FlagsTouch id flags folder) :=
  inferInstanceAs (Decidable (∃ m ∈ store.get id, _ ∧ _))

/-- The message moves, from the folder or into it. -/
def MoveTouches (id target folder : Uuid) : Prop :=
  store.folderOf id ≠ some target ∧ (store.folderOf id = some folder ∨ target = folder)

instance MoveTouches.instDecidable (id target folder : Uuid) :
    Decidable (store.MoveTouches id target folder) :=
  inferInstanceAs (Decidable (_ ∧ (_ ∨ _)))

end MailStore

namespace Session

variable (crates : Crates) (s : Session)

/-- The selected folder loses the row that the client takes out, and no other one comes in. -/
def Loses (id target : Uuid) : Prop :=
  ∀ key ∈ s.app.selectedKey, ¬ s.Owed crates key →
    if AppState.listsMessage id s.app.folderMessages = true then
      target ≠ key.2 ∧ (s.store.folderRows key.2).length ≤ listedRows
    else ¬ s.store.MoveTouches id target key.2

instance Loses.instDecidable (id target : Uuid) : Decidable (s.Loses crates id target) :=
  inferInstanceAs (Decidable (∀ key ∈ s.app.selectedKey, ¬ s.Owed crates key →
    if AppState.listsMessage id s.app.folderMessages = true then _ ∧ _ ≤ _ else ¬ _))

/-- A write goes through rows that are current, is answered, and touches no other folder that is
cached; a change that comes with no account in its event touches none. -/
def Careful : SessionAction → Prop
  | .refreshDetail _ _ => s.Shows crates
  | .fetchDetail _ _ _ => s.Shows crates
  | .flagWrite flag enabled outcome _ _ => s.Shows crates ∧ outcome.Answered ∧
      ∀ update ∈ s.app.selectedMessageFlagUpdate flag enabled,
        s.Spares crates (s.store.FlagsTouch update.1 update.2) s.app.selectedKey
  | .messageRemove id target outcome _ _ => s.Shows crates ∧ outcome.Answered ∧
      (outcome = .accepted → s.Loses crates id target ∧
        s.Spares crates (s.store.MoveTouches id target) s.app.selectedKey)
  | .folderSync _ announced outcome => outcome.Answered ∨ announced ≠ []
  | .flagged id flags => s.Spares crates (s.store.FlagsTouch id flags) none
  | .moved id target => s.Spares crates (s.store.MoveTouches id target) none
  | _ => True

instance Careful.instDecidable : ∀ action : SessionAction, Decidable (Careful crates s action)
  | .refreshDetail _ _ => Shows.instDecidable crates s
  | .fetchDetail _ _ _ => Shows.instDecidable crates s
  | .flagWrite flag enabled _ _ _ => inferInstanceAs (Decidable (_ ∧ _ ∧
      ∀ update ∈ s.app.selectedMessageFlagUpdate flag enabled, s.Spares crates _ _))
  | .messageRemove _ _ _ _ _ => inferInstanceAs (Decidable (_ ∧ _ ∧ (_ → _ ∧ _)))
  | .folderSync _ _ _ => inferInstanceAs (Decidable (_ ∨ _ ≠ []))
  | .flagged id flags => Spares.instDecidable crates s (s.store.FlagsTouch id flags) none
  | .moved id target => Spares.instDecidable crates s (s.store.MoveTouches id target) none
  | .refresh _ _ => isTrue trivial
  | .invalidateSelected => isTrue trivial
  | .applyAccounts _ => isTrue trivial
  | .applyFolders _ => isTrue trivial
  | .moveAccount _ => isTrue trivial
  | .moveFolder _ => isTrue trivial
  | .moveThread _ => isTrue trivial
  | .selectAccount _ => isTrue trivial
  | .selectFolder _ => isTrue trivial
  | .jumpToHit _ => isTrue trivial
  | .elsewhere _ => isTrue trivial
  | .synced _ _ _ => isTrue trivial
  | .notified _ => isTrue trivial
  | .handled => isTrue trivial

end Session

end Postblox.Tui
