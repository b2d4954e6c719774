import Postblox.Daemon.UidIdentity
import Postblox.Sync.Aggregates

/-!
# Thread aggregates over runs

Calls of `reconcile_folder` and message operations in any order. In the states between
them every thread row has the numbers of its messages, as long as no wipe takes a message
that belongs to a thread and the statements around an insertion do not fail.
-/
namespace Postblox.Daemon

open Lib Db Imap Mail Sync
open Fallible

/-! ## Message operations -/

section Programs

variable {P : Cmd → Prop}

theorem only_opDb {α : Type} (context : String) (x : Except DbError α) :
    Only P (OpM.ofDb context x) := by
  cases x with
  | ok a => exact only_pure a
  | error e => exact only_throw _

theorem only_orBadArgs {α : Type} (message : String) (x : Option α) :
    Only P (OpM.orBadArgs message x) := by
  cases x with
  | some a => exact only_pure a
  | none => exact only_throw _

theorem only_requireMessage (hget : ∀ id, P (.getMessage id)) (id : MessageId) :
    Only P (requireMessage id) :=
  only_bind (only_ask (hget id)) fun x => only_bind (only_opDb _ x) fun _ => only_orBadArgs _ _

theorem only_requireRoleFolder (hlist : ∀ account, P (.listFolders account)) (account : AccountId)
    (role : FolderRole) : Only P (requireRoleFolder account role) :=
  only_bind (only_ask (hlist account)) fun x => only_bind (only_opDb _ x) fun _ =>
    only_orBadArgs _ _

theorem only_requireNamedFolder (hfolder : ∀ account name, P (.getFolderByName account name))
    (account : AccountId) (name : String) : Only P (requireNamedFolder account name) :=
  only_bind (only_ask (hfolder account name)) fun x => only_bind (only_opDb _ x) fun _ =>
    only_orBadArgs _ _

theorem only_moveMessage (hset : ∀ id folder, P (.setFolder id folder))
    (haudit : ∀ actor action target folder name, P (.recordAudit actor action target folder name))
    (hpublish : ∀ event, P (.publish event)) (actor action : String) (message : Message)
    (target : Folder) (folderName : Option String) :
    Only P (moveMessage actor action message target folderName) := by
  unfold moveMessage
  split_ifs
  · exact only_pure _
  · exact only_bind (only_ask (hset _ _)) fun x => only_bind (only_opDb _ x) fun _ =>
      only_bind (only_ask (haudit _ _ _ _ _)) fun _ => only_bind (only_ask (hpublish _)) fun _ =>
        only_pure _

end Programs

/-- A message operation changes no number, whatever fails. -/
theorem only_program (op : MessageOp) (actor : String) :
    Only (fun c => c.keepsAggregates = true) (op.program actor) := by
  have hrole : ∀ action id role, Only (fun c => c.keepsAggregates = true)
      (moveToRole actor action id role) := fun action id role =>
    only_bind (only_requireMessage (fun _ => rfl) id) fun message =>
      only_bind (only_requireRoleFolder (fun _ => rfl) _ role) fun target =>
        only_moveMessage (fun _ _ => rfl) (fun _ _ _ _ _ => rfl) (fun _ => rfl) _ _ _ _ _
  cases op with
  | archive id => exact hrole _ id .archive
  | delete id => exact hrole _ id .trash
  | move id folderName =>
    exact only_bind (only_requireMessage (fun _ => rfl) id) fun message =>
      only_bind (only_requireNamedFolder (fun _ _ => rfl) _ folderName) fun target =>
        only_moveMessage (fun _ _ => rfl) (fun _ _ _ _ _ => rfl) (fun _ => rfl) _ _ _ _ _

/-! ## Runs -/

/-- The statements of the step are spared; of a message operation nothing is asked. -/
def Step.Spared (mail : MailCrate) (w : World) : Step → Prop
  | .sync c => Along (handle c.env) (Sync.Spared c.env) (reconcileFolder mail c.req) w
  | .message .. => True

def SparedRun (mail : MailCrate) : World → List Step → Prop
  | _, [] => True
  | w, s :: rest => s.Spared mail w ∧ SparedRun mail (s.apply mail w) rest

variable {mail : MailCrate} {w : World}

theorem aggregated_step {s : Step} (h : Aggregated w.db) (hspared : s.Spared mail w) :
    Aggregated (s.apply mail w).db := by
  cases s with
  | sync c => exact keepsAggregates_reconcile mail c.req w h hspared
  | message env actor op => exact aggregated_of_only env (only_program op actor) h

/-- In every state between the steps of a spared run each thread repeats the number and
the latest date of its messages. -/
theorem aggregates_are_never_stale {steps : List Step} (hstart : Aggregated w.db)
    (hrun : SparedRun mail w steps) {front back : List Step} (hsteps : steps = front ++ back) :
    ∀ th ∈ (afterSteps mail w front).db.threads,
      th.messageCount =
        ((afterSteps mail w front).db.messages.filter fun m => m.threadId = some th.id).length ∧
      th.lastMessageAt =
        (((afterSteps mail w front).db.messages.filter fun m => m.threadId = some th.id).map
          (·.internalDate)).max? := by
  have hend : Aggregated (afterSteps mail w front).db := by
    subst hsteps
    induction front generalizing w with
    | nil => exact hstart
    | cons s rest ih => exact ih (aggregated_step hstart hrun.1) hrun.2
  intro th hth
  obtain ⟨hcount, hlast⟩ := hend.right th hth (Option.some_ne_none _)
  refine ⟨?_, hlast⟩
  rw [hcount, datesOf, List.length_map]

/-! ## One message -/

theorem aggregated_small : Aggregated World.small.db :=
  ⟨(fun _ h => nomatch h), fun _ h => nomatch h⟩

/-- The message is fetched and archived. -/
theorem archived_message_is_counted :
    SparedRun .idOnly .small [syncInbox (some "a"), archiveMessage 4] ∧
      ∀ th ∈ (afterSteps .idOnly .small [syncInbox (some "a"), archiveMessage 4]).db.threads,
        th.messageCount = ((afterSteps .idOnly .small [syncInbox (some "a"),
          archiveMessage 4]).db.messages.filter fun m => m.threadId = some th.id).length := by
  have hrun : SparedRun .idOnly .small [syncInbox (some "a"), archiveMessage 4] := by
    refine ⟨?_, trivial, trivial⟩
    show Along (handle (Env.calm _)) (Sync.Spared (Env.calm _)) (reconcileFolder .idOnly _) .small
    decide
  refine ⟨hrun, fun th hth => ?_⟩
  exact (aggregates_are_never_stale aggregated_small hrun (List.append_nil _).symm th hth).1

/-- The mailbox is created anew and empty: the wipe takes the message, and the thread still
counts it. -/
theorem wiped_message_is_still_counted :
    let w := afterSteps .idOnly .small
      [syncInbox (some "a"), .sync (.calm "INBOX" fun _ => (mailbox 8 none).session)]
    w.db.messages = [] ∧ w.db.threads.map (fun th => (th.messageCount, th.lastMessageAt)) =
      [(1, some 0)] := by
  decide

end Postblox.Daemon
