import Postblox.Sync.LaterMail
import Postblox.Sync.SideBySide

/-!
# The worker and a request for one folder

Any order of the statements of two `reconcile_folder` calls. As long as no statement
finds that the other call has overtaken its own, both end well, the mark only moves up,
and every message that is due has one row. Nothing in the code sees to that: between the
`existing_uids` query and the inserts the other call may insert the same messages, and
the mark is stored whatever it has become meanwhile.
-/
namespace Postblox.Sync

open Lib Db Imap Mail Attachments

/-- Who may be in `reconcile_folder` for the same folder. -/
inductive Caller where
  | worker
  | request
  deriving DecidableEq

/-- Both calls after the first `n` statements, taken in the order of `turns`. -/
def callsAfter (mail : MailCrate) (calls : Caller → Call) (turns : Nat → Caller) (w : World) :
    Nat → Crew Caller Cmd Reply (Except Stop ReconcileReport) World :=
  Crew.after (fun i => handle (calls i).env) turns
    { programs := fun i => (reconcileFolder mail (calls i).req).run, state := w }

namespace Scene

/-- The calls begin in `w`. -/
structure Begins (sc : Scene) (w : World) : Prop where
  since : sc.since = w.syncs.length
  mark : sc.mark = w.markOf sc.folder
  validity : ∀ f ∈ w.db.folders, f.id = sc.folder → sc.Fits f

variable {sc : Scene} {w : World}

theorem Begins.sound (h : sc.Begins w) : sc.Sound w where
  since := h.since.le
  reached := by
    rw [← h.mark]
    exact ⟨.refl _, fun _ m hm => .inr ⟨m, hm, Int.le_refl m⟩⟩
  validity := h.validity
  covered := by
    rintro sm hdue ⟨m, hm, hle⟩
    rw [← h.mark] at hm
    have hlt := hdue.above m hm
    omega

variable {calls : Caller → Call} {turns : Nat → Caller}

/-- Each call keeps its promise, whatever the other does. -/
theorem under_calls (hregular : sc.Regular) (hserves : ∀ i, sc.Serves (calls i).env)
    (hopens : ∀ i, sc.Opens (calls i).req w) (hbegins : sc.Begins w) (i : Caller) :
    Program.Under (handle (calls i).env) sc.Undisturbed (Allowed sc)
      (reconcileFolder sc.mail (calls i).req).run w
      (fun r u => (∃ rep, r = .ok rep) ∧ ∀ sm, sc.Due sm → sc.Stored u sm) :=
  runs_reconcileFolder hregular (hserves i) ⟨hopens i, hbegins.sound⟩

end Scene

/-! ## Orders of turns -/

/-- The turns in the list, and then each in turn. -/
def turnsOf (order : List Caller) (n : Nat) : Caller :=
  order.getD n (if n % 2 = 0 then .worker else .request)

theorem fair_turnsOf (order : List Caller) (i : Caller) (n : Nat) :
    ∃ m, n ≤ m ∧ turnsOf order m = i := by
  have hlater : ∀ m, order.length ≤ m →
      turnsOf order m = if m % 2 = 0 then .worker else .request := by
    intro m hm
    unfold turnsOf
    rw [List.getD_eq_getElem?_getD, List.getElem?_eq_none hm, Option.getD_none]
  cases i with
  | worker =>
    refine ⟨2 * (n + order.length), by omega, ?_⟩
    rw [hlater _ (by omega), if_pos (by omega)]
  | request =>
    refine ⟨2 * (n + order.length) + 1, by omega, ?_⟩
    rw [hlater _ (by omega), if_neg (by omega)]

/-- The worker and a request sync the inbox of the growing mailbox. -/
def inboxCalls (_ : Caller) : Call := growingCall true

def inboxScene : Scene where
  mail := .idOnly
  account := 0
  folder := 1
  mailbox := growing true
  validity := some 7
  since := 0
  mark := none

instance : Decidable inboxScene.Still :=
  isFalse fun h => by
    have hnext := h 1 (Nat.zero_le 1)
    revert hnext
    decide

theorem regular_inbox : inboxScene.Regular where
  validity := fun _ => rfl
  next := fun _ => rfl
  limit := by
    intro n sm _ parsed hparsed
    unfold parsedOf at hparsed
    split_ifs at hparsed
    obtain ⟨rest, -, rfl⟩ := Option.map_eq_some_iff.mp hparsed
    exact fun _ h => nomatch h

theorem serves_inbox (i : Caller) : inboxScene.Serves (inboxCalls i).env where
  clean := fun _ => rfl
  shown := fun _ => ServerMailbox.shown_session _

theorem opens_inbox (i : Caller) : inboxScene.Opens (inboxCalls i).req .small where
  account := rfl
  credential := rfl
  login := ⟨_, rfl, 993, rfl⟩
  place := ⟨_, rfl, rfl⟩

theorem begins_inbox : inboxScene.Begins .small where
  since := rfl
  mark := rfl
  validity := by
    have hnone : ∀ f ∈ World.small.db.folders, f.uidValidity = none := by decide
    intro f hf _ v hv
    rw [hnone f hf] at hv
    cases hv

theorem due_first : inboxScene.Due ⟨1, [], some 0, idMessage "a"⟩ where
  stays := by
    intro n _
    show _ ∈ growingMessages n
    unfold growingMessages
    split_ifs <;> exact List.mem_cons_self
  readable := by
    show Ingestible .idOnly _
    decide
  above := fun _ h => nomatch h

/-- Both look at the folder before anything is stored; the worker goes on to its end, and
only then the request. -/
def inTurn : List Caller :=
  [.worker, .request, .worker, .request, .worker, .request, .worker, .request] ++
    List.replicate 12 .worker ++ List.replicate 16 .request

theorem undisturbed_inTurn (n : Nat) : Crew.Meets inboxScene.Undisturbed (turnsOf inTurn n)
    (callsAfter .idOnly inboxCalls (turnsOf inTurn) .small n) := by
  have hbegin : ∀ n < 36, Crew.Meets inboxScene.Undisturbed (turnsOf inTurn n)
      (callsAfter .idOnly inboxCalls (turnsOf inTurn) .small n) := by decide
  have hworker : (callsAfter .idOnly inboxCalls (turnsOf inTurn) .small 36).result .worker =
      some (.ok ⟨1, 1, 0, some 7, some 2, some 1⟩) := by decide
  have hrequest : (callsAfter .idOnly inboxCalls (turnsOf inTurn) .small 36).result .request =
      some (.ok ⟨1, 1, 0, some 7, some 3, some 2⟩) := by decide
  by_cases hn : n < 36
  · exact hbegin n hn
  · obtain ⟨k, rfl⟩ := Nat.exists_eq_add_of_le (Nat.le_of_not_lt hn)
    cases turnsOf inTurn (36 + k) with
    | worker => exact Crew.meets_of_result (Crew.result_after hworker k)
    | request => exact Crew.meets_of_result (Crew.result_after hrequest k)

/-- Both ask for the existing UIDs before anything is stored, and the worker ends first. -/
def overtaken : List Caller :=
  [.worker, .request, .worker, .request, .worker, .request, .worker, .request, .worker, .request] ++
    List.replicate 12 .worker

/-- The worker has its answer before the second message arrives and goes on when the
request has ended. -/
def fallenBehind : List Caller := List.replicate 3 .worker ++ List.replicate 22 .request

end Postblox.Sync
