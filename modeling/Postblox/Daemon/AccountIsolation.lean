import Postblox.Daemon.ThreadAggregates
import Postblox.Sync.OwnMail

/-!
# Accounts do not share mail

Accounts and folders come and go, folders are synced and messages are archived, deleted
and moved, in any order and whatever fails. `messages`, `folders` and `threads` each name
an account, and in every state the three agree.
-/
namespace Postblox.Daemon

open Lib Db Sync
open Fallible

/-! ## Operations on folders and accounts -/

inductive UpsertError where
  | db (error : DbError)
  /-- The `expect` on the row that was updated before. -/
  | bug
  deriving DecidableEq

def foldersGet (env : Env) (id : FolderId) (w : World) : Except UpsertError Folder × World :=
  let (found, w) := query env (Folders.get · id) w
  (match found with
    | .ok (some folder) => .ok folder
    | .ok none => .error .bug
    | .error e => .error (.db e), w)

/-- Update the row with the name, or create it. -/
def opFolderUpsert (env : Env) (new : NewFolder) (w : World) : Except UpsertError Folder × World :=
  match query env (Folders.getByName · new.accountId new.name) w with
  | (.error e, w) => (.error (.db e), w)
  | (.ok (some existing), w) =>
    match update env (fun db => .ok ((), Folders.describe db existing.id new.role)) w with
    | (.error e, w) => (.error (.db e), w)
    | (.ok _, w) => foldersGet env existing.id w
  | (.ok none, w) =>
    let (created, w) := update env (Folders.create · new) w
    (created.mapError .db, w)

def opAccountCreate (env : Env) (new : NewAccount) : World → Except DbError Account × World :=
  update env (Accounts.create · new)

def opAccountDelete (env : Env) (id : AccountId) : World → Except DbError Bool × World :=
  update env fun db => .ok (Accounts.delete db id)

variable {env : Env}

theorem keeps_opFolderUpsert (new : NewFolder) (w : World) :
    Keeps w.db (opFolderUpsert env new w).2.db := by
  have hquery : Keeps w.db (query env (Folders.getByName · new.accountId new.name) w).2.db :=
    keeps_query _ w
  unfold opFolderUpsert
  split
  · next e t heq =>
    rw [heq] at hquery
    exact hquery
  · next existing t heq =>
    rw [heq] at hquery
    have hdescribe : Keeps t.db (update env
        (fun db => .ok ((), Folders.describe db existing.id new.role)) t).2.db := by
      refine keeps_update fun _ _ h => ?_
      cases h
      exact keeps_describe t.db existing.id new.role
    split
    · next e u hupdate =>
      rw [hupdate] at hdescribe
      exact hquery.trans hdescribe
    · next u hupdate =>
      rw [hupdate] at hdescribe
      exact (hquery.trans hdescribe).trans (keeps_query (Folders.get · existing.id) u)
  · next t heq =>
    rw [heq] at hquery
    exact hquery.trans (keeps_update fun _ _ hcreate => keeps_createFolder hcreate)

theorem keeps_opAccountCreate (new : NewAccount) (w : World) :
    Keeps w.db (opAccountCreate env new w).2.db :=
  keeps_update fun _ _ hcreate => keeps_createAccount hcreate

theorem confined_opAccountDelete (id : AccountId) (w : World) :
    Confined w.db (opAccountDelete env id w).2.db := by
  have hdelete := confined_deleteAccount w.db id
  unfold opAccountDelete
  rcases update_cases env (fun db => .ok (Accounts.delete db id)) w with
    ⟨e, heq, -⟩ | ⟨a, db, hdb, heq | heq⟩
  · rw [heq]
    exact .refl _
  · rw [heq]
    rw [Except.ok.inj hdb] at hdelete
    exact hdelete
  · rw [heq]
    rw [Except.ok.inj hdb] at hdelete
    exact hdelete

/-! ## Message operations -/

/-- The folder that an operation goes to may take the message. -/
theorem MessageOp.Targets.fits {db : Database} {op : MessageOp} {message : Message} {target : Folder}
    (h : op.Targets db message target) : (Cmd.setFolder message.id target.id).Fits db := by
  intro m hm hid
  obtain ⟨hmessage, -⟩ := Messages.get_eq_some h.found
  obtain rfl : m = message :=
    db.wf.messageIds.eq_of_key hm hmessage (congrArg some hid) rfl
  exact ⟨target, h.mem.1, rfl, h.mem.2⟩

theorem keeps_moveMessage {op : MessageOp} {w : World} {message : Message} {target : Folder}
    (htargets : op.Targets w.db message target) (actor action : String)
    (folderName : Option String) :
    Keeps w.db (exec (handle env) (moveMessage actor action message target folderName) w).2.db := by
  unfold moveMessage
  split_ifs
  · exact .refl _
  · have hset : Keeps w.db (handle env (.setFolder message.id target.id) w).2.db :=
      handle_keeps (.setFolder message.id target.id) w htargets.fits
    have hrest : ∀ x : Except DbError Bool, Only (fun c => c.unbound = true) (do
        let _ ← OpM.ofDb "messages::set_folder" x
        let _ ← perform (.recordAudit actor action message.id target.id folderName)
        perform (.publish (.mailUpdated message.id target.id message.folderId))
        return target.id : OpM FolderId) := fun x =>
      only_bind (only_opDb _ x) fun _ => only_bind (only_ask rfl) fun _ =>
        only_bind (only_ask rfl) fun _ => only_pure _
    exact hset.trans (keeps_of_only env (hrest _) _)

/-- A handler: look up the message, then the folder, then move. -/
theorem keeps_handler (op : MessageOp) {action : String} {folderName : Option String}
    {lookUp : Message → OpM Folder}
    (hlookUp : ∀ message w, wp (handle env) (lookUp message) w
      (LookedUp (op.folder w.db message) w)) (actor : String) (w : World) :
    wp (handle env) (do
        let message ← requireMessage op.id
        let target ← lookUp message
        moveMessage actor action message target folderName) w
      fun _ u => Keeps w.db u.db := by
  refine wp_bind _ (wp_mono _ (wp_requireMessage op.id w) ?_)
  intro r t ⟨ht, hfound, _⟩
  rw [ht]
  refine ⟨fun message hr => ?_, fun _ _ => .refl w.db⟩
  refine wp_bind _ (wp_mono _ (hlookUp message w.tick) ?_)
  intro r' u ⟨hu, hfound', _⟩
  rw [hu]
  refine ⟨fun target hr' => ?_, fun _ _ => .refl w.db⟩
  exact keeps_moveMessage (w := w.tick.tick) ⟨hfound message hr, hfound' target hr'⟩ actor action
    folderName

theorem keeps_program (op : MessageOp) (actor : String) (w : World) :
    Keeps w.db (exec (handle env) (op.program actor) w).2.db := by
  cases op with
  | archive id =>
    exact keeps_handler (.archive id) (fun _ w => wp_requireRoleFolder _ .archive w) actor w
  | delete id =>
    exact keeps_handler (.delete id) (fun _ w => wp_requireRoleFolder _ .trash w) actor w
  | move id folderName =>
    exact keeps_handler (.move id folderName)
      (fun _ w => wp_requireNamedFolder _ folderName w) actor w

/-! ## Runs -/

/-- One operation, with what goes wrong during it. -/
inductive MailStep where
  | createAccount (env : Env) (new : NewAccount)
  | deleteAccount (env : Env) (id : AccountId)
  | upsertFolder (env : Env) (new : NewFolder)
  | sync (c : Call)
  | message (env : Env) (actor : String) (op : MessageOp)

def MailStep.apply (mail : MailCrate) (w : World) : MailStep → World
  | .createAccount env new => (opAccountCreate env new w).2
  | .deleteAccount env id => (opAccountDelete env id w).2
  | .upsertFolder env new => (opFolderUpsert env new w).2
  | .sync c => c.apply mail w
  | .message env actor op => (exec (handle env) (op.program actor) w).2

def afterMailSteps (mail : MailCrate) (w : World) (steps : List MailStep) : World :=
  steps.foldl (MailStep.apply mail) w

/-- The tables after the migrations. -/
def migrated : Database := .unsynced [] [] 0 Unique.nil Unique.nil

variable {mail : MailCrate}

theorem confined_step (w : World) (s : MailStep) : Confined w.db (s.apply mail w).db := by
  cases s with
  | createAccount env new => exact (keeps_opAccountCreate new w).toConfined
  | deleteAccount env id => exact confined_opAccountDelete id w
  | upsertFolder env new => exact (keeps_opFolderUpsert new w).toConfined
  | sync c => exact (respects_reconcile mail c.req w trivial).1.toConfined
  | message env actor op => exact (keeps_program op actor w).toConfined

theorem confined_run (w : World) (steps : List MailStep) :
    Confined w.db (afterMailSteps mail w steps).db := by
  induction steps generalizing w with
  | nil => exact .refl _
  | cons s rest ih => exact (confined_step w s).trans (ih (s.apply mail w))

theorem isolated_migrated : Isolated migrated :=
  ⟨fun _ hm => absurd hm List.not_mem_nil, fun _ hm => absurd hm List.not_mem_nil⟩

/-- Whatever operations ran since the tables were created, each message is in a folder and
a thread of its account; and whatever runs afterwards, it stays in that account. -/
theorem accounts_do_not_share_mail (mail : MailCrate) (w : World) (before after : List MailStep) :
    let now := afterMailSteps mail { w with db := migrated } before
    let later := afterMailSteps mail now after
    (∀ m ∈ now.db.messages,
      (∃ f ∈ now.db.folders, f.id = m.folderId ∧ f.accountId = m.accountId) ∧
      ∀ thread, m.threadId = some thread →
        ∃ th ∈ now.db.threads, th.id = thread ∧ th.accountId = m.accountId) ∧
    ∀ m ∈ now.db.messages, ∀ m' ∈ later.db.messages, m'.id = m.id → m'.accountId = m.accountId := by
  intro now later
  have hnow : Isolated now.db :=
    (confined_run { w with db := migrated } before).isolated isolated_migrated
  refine ⟨fun m hm => ⟨hnow.folder m hm, hnow.thread m hm⟩, fun m hm m' hm' hid => ?_⟩
  have hold : m'.id < now.db.nextId := by
    rw [hid]
    exact now.db.wf.messagesMinted m hm
  obtain ⟨row, hrow, hrowid, howner⟩ := (confined_run now after).owners m' hm' hold
  obtain rfl : row = m := now.db.wf.messageIds.eq_of_key hrow hm
    (congrArg some (hrowid.trans hid)) rfl
  exact howner.symm

end Postblox.Daemon
