import Postblox.Sync.Drain

/-!
# Archive, delete and move

The three operations that put a message into another folder. Each looks up the
row and the folder to go to, does nothing when the row is there already, and
otherwise rewrites `folder_id`; the audit record and the event come after that.
-/
namespace Postblox.Daemon

open Lib Db Sync

inductive OpError where
  | badArgs (message : String)
  /-- `"<context>: <error>"`. -/
  | internal (context : String) (error : DbError)
  deriving DecidableEq

abbrev OpM := Fallible OpError Cmd Reply

def OpM.ofDb {α : Type} (context : String) : Except DbError α → OpM α
  | .ok a => pure a
  | .error e => throw (.internal context e)

def OpM.orBadArgs {α : Type} (message : String) : Option α → OpM α
  | some a => pure a
  | none => throw (.badArgs message)

def requireMessage (id : MessageId) : OpM Message := do
  let found ← OpM.ofDb "messages::get" (← perform (.getMessage id))
  OpM.orBadArgs "unknown message id" found

/-- The first folder of the account, by name, that has the role. -/
def requireRoleFolder (account : AccountId) (role : FolderRole) : OpM Folder := do
  let folders ← OpM.ofDb "folders::list_by_account" (← perform (.listFolders account))
  OpM.orBadArgs s!"no '{role.asStr}' folder for account" (folders.find? fun f => f.role = role)

def requireNamedFolder (account : AccountId) (folderName : String) : OpM Folder := do
  let found ← OpM.ofDb "folders::get_by_name" (← perform (.getFolderByName account folderName))
  OpM.orBadArgs s!"unknown folder '{folderName}'" found

/-- What the three handlers share once the folder is known. -/
def moveMessage (actor action : String) (message : Message) (target : Folder)
    (folderName : Option String) : OpM FolderId := do
  if message.folderId = target.id then return target.id
  else
    let _ ← OpM.ofDb "messages::set_folder" (← perform (.setFolder message.id target.id))
    let _ ← perform (.recordAudit actor action message.id target.id folderName)
    perform (.publish (.mailUpdated message.id target.id message.folderId))
    return target.id

/-- `message.archive` and `message.delete` go to the folder with a role. -/
def moveToRole (actor action : String) (id : MessageId) (role : FolderRole) : OpM FolderId := do
  let message ← requireMessage id
  let target ← requireRoleFolder message.accountId role
  moveMessage actor action message target none

def opMessageArchive (actor : String) (id : MessageId) : OpM FolderId :=
  moveToRole actor "message.archive" id .archive

def opMessageDelete (actor : String) (id : MessageId) : OpM FolderId :=
  moveToRole actor "message.delete" id .trash

def opMessageMove (actor : String) (id : MessageId) (folderName : String) : OpM FolderId := do
  let message ← requireMessage id
  let target ← requireNamedFolder message.accountId folderName
  moveMessage actor "message.move" message target (some folderName)

inductive MessageOp where
  | archive (id : MessageId)
  | delete (id : MessageId)
  | move (id : MessageId) (folderName : String)
  deriving DecidableEq

namespace MessageOp

def id : MessageOp → MessageId
  | .archive id => id
  | .delete id => id
  | .move id _ => id

def program (actor : String) : MessageOp → OpM FolderId
  | .archive id => opMessageArchive actor id
  | .delete id => opMessageDelete actor id
  | .move id folderName => opMessageMove actor id folderName

/-- The folder that the operation puts a message into. -/
def folder (db : Database) (message : Message) : MessageOp → Option Folder
  | .archive _ => (Folders.listByAccount db message.accountId).find? fun f => f.role = .archive
  | .delete _ => (Folders.listByAccount db message.accountId).find? fun f => f.role = .trash
  | .move _ folderName => Folders.getByName db message.accountId folderName

/-- The operation is about this message and puts it into this folder. -/
structure Targets (db : Database) (op : MessageOp) (message : Message) (target : Folder) : Prop where
  found : Messages.get db op.id = some message
  goesTo : op.folder db message = some target

end MessageOp

variable {env : Env}

/-! ## What an operation does -/

/-- The two ways an operation leaves the tables. -/
inductive OpOutcome (op : MessageOp) (w : World) : Except OpError FolderId → World → Prop
  /-- Nothing was written; if `set_folder` refused to, another row has the UID. -/
  | stays {r : Except OpError FolderId} {u : World} (quiet : Quiet w u)
      (clash : ∀ index, r = .error (.internal "messages::set_folder" (.unique index)) →
        ∃ message target, op.Targets w.db message target ∧
          Messages.MoveClashes w.db message target.id) : OpOutcome op w r u
  /-- One row changed its folder. -/
  | moves {r : Except OpError FolderId} {u : World} {message : Message} {target : Folder}
      (targets : op.Targets w.db message target) (elsewhere : message.folderId ≠ target.id)
      (free : ¬ Messages.MoveClashes w.db message target.id)
      (messages : u.db.messages = Messages.moved message.id target.id w.db.messages)
      (folders : u.db.folders = w.db.folders) (syncs : u.syncs = w.syncs)
      (origins : u.origins = w.origins)
      (clash : ∀ index, r ≠ .error (.internal "messages::set_folder" (.unique index))) :
      OpOutcome op w r u

theorem setFolder_unique {db : Database} {id : MessageId} {row : Message} {folder : FolderId}
    {index : String} (hget : Messages.get db id = some row)
    (h : Messages.setFolder db id folder = .error (.unique index)) :
    Messages.MoveClashes db row folder := by
  unfold Messages.setFolder at h
  split at h
  · cases h
  · next row' hrow' =>
    obtain rfl : row = row' := Option.some.inj (hget.symm.trans hrow')
    split_ifs at h with hclash hfolder
    · exact hclash
    · cases h

theorem setFolder_ok {db db' : Database} {id : MessageId} {row : Message} {folder : FolderId}
    {found : Bool} (hget : Messages.get db id = some row)
    (h : Messages.setFolder db id folder = .ok (found, db')) :
    ¬ Messages.MoveClashes db row folder ∧
      db'.messages = Messages.moved id folder db.messages ∧ db'.folders = db.folders := by
  unfold Messages.setFolder at h
  split at h
  · next hnone => exact absurd (hget.symm.trans hnone) (Option.some_ne_none _)
  · next row' hrow' =>
    obtain rfl : row = row' := Option.some.inj (hget.symm.trans hrow')
    split_ifs at h with hclash hfolder
    cases h
    exact ⟨hclash, rfl, rfl⟩

/-- A lookup: it changes nothing and fails with an error of its own, or finds what
the tables hold. -/
structure LookedUp {α : Type} (found : Option α) (w : World) (r : Except OpError α) (u : World) :
    Prop where
  quiet : u = w.tick
  result : ∀ a, r = .ok a → found = some a
  error : ∀ e, r = .error e → ∀ index, e ≠ .internal "messages::set_folder" (.unique index)

theorem wp_lookUp {α β : Type} {context message : String} {read : Database → β}
    (pick : β → Option α) (hcontext : context ≠ "messages::set_folder") (w : World) :
    Fallible.wp (handle env)
      (OpM.ofDb context (query env read w).1 >>= fun x => OpM.orBadArgs message (pick x))
      (query env read w).2 (LookedUp (pick (read w.db)) w) := by
  rcases query_cases env read w with ⟨e, heq⟩ | heq
  · rw [heq]
    refine ⟨rfl, (fun a h => nomatch h), fun e' he index h => ?_⟩
    rw [← Except.error.inj he] at h
    exact hcontext (OpError.internal.inj h).1
  · rw [heq]
    cases hpick : pick (read w.db) with
    | none =>
      have hthrow : OpM.orBadArgs message (pick (read w.db)) = throw (.badArgs message) := by
        rw [hpick]
        rfl
      show Fallible.wp (handle env) (OpM.orBadArgs message (pick (read w.db))) w.tick _
      rw [hthrow]
      refine ⟨rfl, (fun a h => nomatch h), fun e he index h => ?_⟩
      rw [← Except.error.inj he] at h
      cases h
    | some a =>
      have hpure : OpM.orBadArgs message (pick (read w.db)) = pure a := by
        rw [hpick]
        rfl
      show Fallible.wp (handle env) (OpM.orBadArgs message (pick (read w.db))) w.tick _
      rw [hpure]
      refine ⟨rfl, fun a' h => ?_, fun e h => nomatch h⟩
      rw [Except.ok.inj h]

theorem wp_requireMessage (id : MessageId) (w : World) :
    Fallible.wp (handle env) (requireMessage id) w (LookedUp (Messages.get w.db id) w) :=
  Fallible.wp_ask_bind _ (wp_lookUp (fun x => x) (by decide) w)

theorem wp_requireRoleFolder (account : AccountId) (role : FolderRole) (w : World) :
    Fallible.wp (handle env) (requireRoleFolder account role) w
      (LookedUp ((Folders.listByAccount w.db account).find? fun f => f.role = role) w) :=
  Fallible.wp_ask_bind _
    (wp_lookUp (fun x : List Folder => x.find? fun f => f.role = role) (by decide) w)

theorem wp_requireNamedFolder (account : AccountId) (folderName : String) (w : World) :
    Fallible.wp (handle env) (requireNamedFolder account folderName) w
      (LookedUp (Folders.getByName w.db account folderName) w) :=
  Fallible.wp_ask_bind _ (wp_lookUp (fun x => x) (by decide) w)

theorem OpOutcome.of_tick {op : MessageOp} {w u : World} {r : Except OpError FolderId}
    (h : OpOutcome op w.tick r u) : OpOutcome op w r u := by
  cases h with
  | stays quiet clash => exact .stays ((Quiet.tick w).trans quiet) clash
  | moves targets elsewhere free messages folders syncs origins clash =>
    exact .moves targets elsewhere free messages folders syncs origins clash

theorem OpOutcome.failed {op : MessageOp} {w u : World} {e : OpError} (hquiet : Quiet w u)
    (hne : ∀ index, e ≠ .internal "messages::set_folder" (.unique index)) :
    OpOutcome op w (.error e) u :=
  .stays hquiet fun index h => absurd (Except.error.inj h) (hne index)

/-- The shared part of the handlers. -/
theorem wp_moveMessage {op : MessageOp} {w : World} {message : Message} {target : Folder}
    (htargets : op.Targets w.db message target) (actor action : String)
    (folderName : Option String) :
    Fallible.wp (handle env) (moveMessage actor action message target folderName) w
      (OpOutcome op w) := by
  have hid := (Messages.get_eq_some htargets.found).2
  have hget : Messages.get w.db message.id = some message := by
    rw [hid]
    exact htargets.found
  unfold moveMessage
  split_ifs with helsewhere
  · exact .stays (Quiet.refl w) fun index h => nomatch h
  · refine Fallible.wp_ask_bind _ ?_
    show Fallible.wp (handle env)
      (OpM.ofDb _ (update env (Messages.setFolder · message.id target.id) w).1 >>= _)
      (update env (Messages.setFolder · message.id target.id) w).2 _
    rcases update_cases env (Messages.setFolder · message.id target.id) w with
      ⟨e, heq, hcause⟩ | ⟨a, db, hwrite, hdone⟩
    · rw [heq]
      refine .stays (Quiet.tick w) fun index h => ?_
      obtain rfl : e = .unique index := (OpError.internal.inj (Except.error.inj h)).2
      refine ⟨message, target, htargets, ?_⟩
      rcases hcause with hfailed | herror
      · cases hfailed
      · exact setFolder_unique hget herror
    · obtain ⟨hfree, hmessages, hfolders⟩ := setFolder_ok hget hwrite
      rcases hdone with heq | heq
      · rw [heq]
        -- what is left of the handler is quiet
        have hrest : OnlyQuiet (do
            let _ ← perform (.recordAudit actor action message.id target.id folderName)
            perform (.publish (.mailUpdated message.id target.id message.folderId))
            return target.id : OpM FolderId) := by
          open Fallible in
          exact only_bind (only_ask rfl) fun _ => only_bind (only_ask rfl) fun _ => only_pure _
        have hquiet := exec_quiet env hrest (w.wrote db)
        exact .moves htargets helsewhere hfree (hquiet.messages.trans hmessages)
          (hquiet.folders.trans hfolders) hquiet.syncs hquiet.origins (fun index h => nomatch h)
      · rw [heq]
        exact .moves htargets helsewhere hfree hmessages hfolders rfl rfl (fun index h => nomatch h)

/-- A handler: look up the message, then the folder, then move. -/
theorem wp_handler {op : MessageOp} {action : String} {folderName : Option String}
    {lookUp : Message → OpM Folder}
    (hlookUp : ∀ message w, Fallible.wp (handle env) (lookUp message) w
      (LookedUp (op.folder w.db message) w)) (actor : String) (w : World) :
    Fallible.wp (handle env) (do
        let message ← requireMessage op.id
        let target ← lookUp message
        moveMessage actor action message target folderName) w (OpOutcome op w) := by
  refine Fallible.wp_bind _ (Fallible.wp_mono _ (wp_requireMessage op.id w) ?_)
  intro r u ⟨hu, hfound, herror⟩
  rw [hu]
  constructor
  · intro message hr
    refine Fallible.wp_bind _ (Fallible.wp_mono _ (hlookUp message w.tick) ?_)
    intro r' u' ⟨hu', hfound', herror'⟩
    rw [hu']
    constructor
    · intro target hr'
      have htargets : op.Targets w.db message target := ⟨hfound message hr, hfound' target hr'⟩
      refine Fallible.wp_mono _
        (wp_moveMessage (w := w.tick.tick) htargets actor action folderName) ?_
      intro r'' u'' houtcome
      exact houtcome.of_tick.of_tick
    · intro e he
      exact .failed ((Quiet.tick w).trans (Quiet.tick _)) (herror' e he)
  · intro e he
    exact .failed (Quiet.tick w) (herror e he)

/-- What every operation does, whatever fails. -/
theorem wp_program (op : MessageOp) (actor : String) (w : World) :
    Fallible.wp (handle env) (op.program actor) w (OpOutcome op w) := by
  cases op with
  | archive id => exact wp_handler (fun message w => wp_requireRoleFolder _ .archive w) actor w
  | delete id => exact wp_handler (fun message w => wp_requireRoleFolder _ .trash w) actor w
  | move id folderName =>
    exact wp_handler (fun message w => wp_requireNamedFolder _ folderName w) actor w

/-- The folder an operation goes to is a folder of the message's account. -/
theorem MessageOp.Targets.mem {db : Database} {op : MessageOp} {message : Message} {target : Folder}
    (h : op.Targets db message target) :
    target ∈ db.folders ∧ target.accountId = message.accountId := by
  have hlist : ∀ p : Folder → Bool,
      (Folders.listByAccount db message.accountId).find? p = some target →
      target ∈ db.folders ∧ target.accountId = message.accountId := by
    intro p hp
    have hmem := List.mem_of_find?_eq_some hp
    unfold Folders.listByAccount at hmem
    rw [List.mem_insertionSort, List.mem_filter, decide_eq_true_eq] at hmem
    exact hmem
  have hfolder := h.goesTo
  cases op with
  | archive id => exact hlist _ hfolder
  | delete id => exact hlist _ hfolder
  | move id folderName =>
    have hkey := List.find?_some hfolder
    simp only [decide_eq_true_eq] at hkey
    exact ⟨List.mem_of_find?_eq_some hfolder, hkey.1⟩

end Postblox.Daemon
