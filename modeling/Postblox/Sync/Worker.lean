import Postblox.Lib.Machine
import Postblox.Sync.Reconciler

/-!
# The sync worker

`run_sync_worker` and the `run_polling_worker` it falls back to as one machine. A place is
what the worker waits for, and an action is the answer it gets there. The token may be
cancelled at any time; where the source selects between the token and an answer, either
branch may be taken once the token is cancelled.
-/
namespace Postblox.Sync

open Db (AccountId Account DbError SyncStatus StoredPath)
open Imap (ImapError MailCredential portU16)
open Attachments (AttachmentError)
open Lib Lib.Machine

/-! ## Durations -/

/-- `Duration::MAX` in nanoseconds. -/
def durationMax : Nat := 2 ^ 64 * 1000000000 - 1

/-- A `Duration` in nanoseconds. -/
abbrev Duration := { nanos : Nat // nanos ≤ durationMax }

def nextBackoff (max current : Duration) : Duration :=
  ⟨doubleUpTo durationMax max.1 current.1, (Nat.min_le_right _ _).trans max.2⟩

structure WorkerConfig where
  pollInterval : Duration
  idleTimeout : Duration
  initialBackoff : Duration
  maxBackoff : Duration
  deriving DecidableEq

def WorkerConfig.default : WorkerConfig where
  pollInterval := ⟨60 * 1000000000, by decide⟩
  idleTimeout := ⟨29 * 60 * 1000000000, by decide⟩
  initialBackoff := ⟨5 * 1000000000, by decide⟩
  maxBackoff := ⟨60 * 1000000000, by decide⟩

/-- The backoff after `n` failures in a row. -/
def WorkerConfig.backoffAfter (config : WorkerConfig) (n : Nat) : Duration :=
  (nextBackoff config.maxBackoff)^[n] config.initialBackoff

theorem iterate_nextBackoff (max start : Duration) (n : Nat) :
    ((nextBackoff max)^[n] start).1 = (doubleUpTo durationMax max.1)^[n] start.1 := by
  induction n with
  | zero => rfl
  | succ n ih =>
    rw [Function.iterate_succ_apply', Function.iterate_succ_apply', ← ih]
    rfl

/-- The first delay is the initial one, even above the bound. -/
theorem backoffAfter_eq (config : WorkerConfig) (n : Nat) :
    (config.backoffAfter n).1 =
      if n = 0 then config.initialBackoff.1
      else min (config.initialBackoff.1 * 2 ^ n) config.maxBackoff.1 := by
  unfold WorkerConfig.backoffAfter
  rw [iterate_nextBackoff]
  cases n with
  | zero => rfl
  | succ n =>
    rw [iterate_doubleUpTo config.maxBackoff.2, if_neg (Nat.succ_ne_zero n)]

/-! ## Errors -/

/-- A `SyncError`; the variant `Credential` comes from a resolver only. -/
inductive CycleError where
  | sync (error : SyncError)
  | credential (message : String)
  deriving DecidableEq

def isAuthError : CycleError → Bool
  | .sync (.imap (.auth _)) => true
  | .sync .missingCredentials => true
  | _ => false

/-- What SQLx and the standard library print. -/
structure ErrorTexts where
  sqlx : DbError → String
  io : IoError → String
  path : StoredPath → String

def ImapError.text : ImapError → String
  | .io error => "io: " ++ error
  | .tls error => "tls: " ++ error
  | .protocol error => "imap protocol: " ++ error
  | .auth error => "auth failed: " ++ error
  | .unsupported what => "unsupported: " ++ what
  | .invalidName host => "invalid server name: " ++ host
  | .invalidPort raw => "invalid port: " ++ toString raw
  | .timeout phase => "timed out: " ++ phase

namespace ErrorTexts

variable (texts : ErrorTexts)

def db (e : DbError) : String := "sqlite error: " ++ texts.sqlx e

def attachment : AttachmentError → String
  | .tooLarge filename limit =>
    "attachment '" ++ filename ++ "' exceeds " ++ toString limit ++ " byte limit"
  | .badPath path => "invalid attachment path: " ++ texts.path path
  | .db e => "db: " ++ texts.db e
  | .io e => "io: " ++ texts.io e

def sync : SyncError → String
  | .imap e => "imap: " ++ ImapError.text e
  | .db e => "db: " ++ texts.db e
  | .attachment e => "attachment: " ++ texts.attachment e
  | .unknownAccount => "unknown account"
  | .unknownFolder name => "unknown folder '" ++ name ++ "'"
  | .missingCredentials => "missing credentials for account"

def cycle : CycleError → String
  | .sync e => texts.sync e
  | .credential message => "credential resolution failed: " ++ message

end ErrorTexts

/-! ## What a worker reports -/

inductive SyncState where
  | idle
  | polling
  | syncing
  | error
  deriving DecidableEq

structure SyncStateEvent where
  accountId : AccountId
  state : SyncState
  lastError : Option String
  deriving DecidableEq

/-- The status columns a transition writes. -/
structure StatusWrite where
  accountId : AccountId
  status : SyncStatus
  error : Option String
  deriving DecidableEq

inductive IdleOutcome where
  | newData
  | timeout
  | interrupted
  deriving DecidableEq

structure IdleRequest where
  host : String
  port : UInt16
  username : String
  credential : MailCredential
  folder : String
  timeout : Duration
  deriving DecidableEq

/-! ## The machine -/

/-- What the worker waits for. -/
inductive Place where
  | spawned
  | resolving
  | reconciling (credential : MailCredential)
  | lookingUp (credential : MailCredential)
  | idling (request : IdleRequest)
  | pausing (delay : Duration)
  | backingOff (delay : Duration)
  | stopped
  deriving DecidableEq

/-- The waits that are inside a `select!` with the token. -/
def Place.selects : Place → Bool
  | .resolving | .reconciling _ | .pausing _ | .backingOff _ => true
  | .spawned | .lookingUp _ | .idling _ | .stopped => false

/-- The credential of the call that the worker waits for. -/
def Place.credential : Place → Option MailCredential
  | .reconciling credential | .lookingUp credential => some credential
  | .idling request => some request.credential
  | .spawned | .resolving | .pausing _ | .backingOff _ | .stopped => none

def Place.syncing : Place → Nat
  | .reconciling _ => 1
  | _ => 0

/-- The answers that a cancelled worker still takes, at most. -/
def Place.stepsLeft : Place → Nat
  | .stopped => 0
  | .spawned | .pausing _ | .backingOff _ => 1
  | .idling _ => 2
  | .lookingUp _ => 3
  | .reconciling _ => 4
  | .resolving => 5

/-- What a worker is spawned with. -/
structure WorkerSetup where
  accountId : AccountId
  folderName : String
  /-- An `ImapIdle` is there. -/
  idle : Bool
  config : WorkerConfig
  texts : ErrorTexts

structure SyncWorker where
  /-- The worker is in `run_polling_worker`. -/
  polling : Bool
  backoff : Duration
  place : Place
  cancelled : Bool
  /-- The events published so far. -/
  reports : List SyncStateEvent
  /-- The status writes issued so far; whether one succeeds is ignored. -/
  writes : List StatusWrite

inductive WorkerAction where
  /-- The task is polled for the first time. -/
  | start
  | cancel
  /-- The `cancelled` branch of a `select!`. -/
  | observe
  | resolved (result : Except CycleError MailCredential)
  | reconciled (result : Except SyncError ReconcileReport)
  | lookedUp (result : Except DbError (Option Account))
  | idled (result : Except ImapError IdleOutcome)
  | woke

namespace WorkerSetup

variable (setup : WorkerSetup)

def spawned : SyncWorker where
  polling := false
  backoff := setup.config.initialBackoff
  place := .spawned
  cancelled := false
  reports := []
  writes := []

/-- `StateReporter::transition`. -/
def transition (w : SyncWorker) (state : SyncState) (lastError : Option String) : SyncWorker :=
  { w with
    writes :=
      if state = .error then w.writes ++ [⟨setup.accountId, .error, lastError⟩] else w.writes
    reports := w.reports ++ [⟨setup.accountId, state, lastError⟩] }

/-- The head of both loops. -/
def loopTop (w : SyncWorker) : SyncWorker :=
  { w with place := if w.cancelled then .stopped else .resolving }

def runPollingWorker (w : SyncWorker) : SyncWorker :=
  loopTop { setup.transition w .polling none with
    polling := true
    backoff := setup.config.initialBackoff }

def runSyncWorker (w : SyncWorker) : SyncWorker :=
  if setup.idle then
    loopTop { setup.transition w .idle none with backoff := setup.config.initialBackoff }
  else setup.runPollingWorker w

/-- A failure that is tried again. -/
def retry (w : SyncWorker) (error : String) : SyncWorker :=
  { setup.transition w .error (some error) with place := .backingOff w.backoff }

/-- A failure that ends the worker. -/
def giveUp (w : SyncWorker) (error : String) : SyncWorker :=
  { setup.transition w .error (some error) with place := .stopped }

/-- `credential_for_cycle`, and from there to `reconcile_folder`. -/
def afterResolve (w : SyncWorker) : Except CycleError MailCredential → SyncWorker
  | .ok credential => { setup.transition w .syncing none with place := .reconciling credential }
  | .error e =>
    if isAuthError e then setup.giveUp w (setup.texts.cycle e)
    else setup.retry w (setup.texts.cycle e)

def afterReconcile (w : SyncWorker) (credential : MailCredential) :
    Except SyncError ReconcileReport → SyncWorker
  | .ok _ =>
    if w.polling then
      { setup.transition w .polling none with
        backoff := setup.config.initialBackoff
        place := .pausing setup.config.pollInterval }
    else { w with backoff := setup.config.initialBackoff, place := .lookingUp credential }
  | .error e =>
    if isAuthError (.sync e) then setup.giveUp w (setup.texts.sync e)
    else setup.retry w (setup.texts.sync e)

def idleRequest (account : Account) (port : UInt16) (credential : MailCredential) :
    IdleRequest where
  host := account.imapHost
  port := port
  username := account.email
  credential := credential
  folder := setup.folderName
  timeout := setup.config.idleTimeout

def afterLookup (w : SyncWorker) (credential : MailCredential) :
    Except DbError (Option Account) → SyncWorker
  | .ok (some account) =>
    match portU16 account.imapPort with
    | .ok port =>
      { setup.transition w .idle none with
        place := .idling (setup.idleRequest account port credential) }
    | .error e => setup.giveUp w (ImapError.text e)
  -- The row is gone: the worker ends without a word.
  | .ok none => { w with place := .stopped }
  | .error e => setup.retry w (setup.texts.db e)

def afterIdle (w : SyncWorker) : Except ImapError IdleOutcome → SyncWorker
  | .ok .newData | .ok .timeout => loopTop { w with backoff := setup.config.initialBackoff }
  | .ok .interrupted =>
    if w.cancelled then { w with place := .stopped }
    else loopTop { w with backoff := setup.config.initialBackoff }
  | .error (.unsupported _) => setup.runPollingWorker w
  | .error (.auth text) => setup.giveUp w (ImapError.text (.auth text))
  | .error e => setup.retry w (ImapError.text e)

def step (w : SyncWorker) : WorkerAction → Option SyncWorker
  | .start => if w.place = .spawned then some (setup.runSyncWorker w) else none
  | .cancel => if w.cancelled then none else some { w with cancelled := true }
  | .observe => if w.cancelled && w.place.selects then some { w with place := .stopped } else none
  | .resolved result =>
    match w.place with
    | .resolving => some (setup.afterResolve w result)
    | _ => none
  | .reconciled result =>
    match w.place with
    | .reconciling credential => some (setup.afterReconcile w credential result)
    | _ => none
  | .lookedUp result =>
    match w.place with
    | .lookingUp credential => some (setup.afterLookup w credential result)
    | _ => none
  | .idled result =>
    match w.place with
    | .idling _ => some (setup.afterIdle w result)
    | _ => none
  | .woke =>
    match w.place with
    | .pausing _ => some (loopTop w)
    | .backingOff _ => some (loopTop { w with
        backoff := nextBackoff setup.config.maxBackoff w.backoff })
    | _ => none

end WorkerSetup

/-! ## The steps, one by one -/

/-- One step, told apart by the answer. -/
inductive WorkerStep (setup : WorkerSetup) (w : SyncWorker) :
    WorkerAction → SyncWorker → Prop where
  | start (hplace : w.place = .spawned) : WorkerStep setup w .start (setup.runSyncWorker w)
  | cancel (hrunning : w.cancelled = false) :
      WorkerStep setup w .cancel { w with cancelled := true }
  | observe (hcancelled : w.cancelled = true) (hselects : w.place.selects = true) :
      WorkerStep setup w .observe { w with place := .stopped }
  | resolved (credential : MailCredential) (hplace : w.place = .resolving) :
      WorkerStep setup w (.resolved (.ok credential))
        { setup.transition w .syncing none with place := .reconciling credential }
  | resolveRefused (e : CycleError) (hplace : w.place = .resolving) (hauth : isAuthError e = true) :
      WorkerStep setup w (.resolved (.error e)) (setup.giveUp w (setup.texts.cycle e))
  | resolveFailed (e : CycleError) (hplace : w.place = .resolving) (hauth : isAuthError e = false) :
      WorkerStep setup w (.resolved (.error e)) (setup.retry w (setup.texts.cycle e))
  | polled (credential : MailCredential) (report : ReconcileReport)
      (hplace : w.place = .reconciling credential) (hpolling : w.polling = true) :
      WorkerStep setup w (.reconciled (.ok report))
        { setup.transition w .polling none with
          backoff := setup.config.initialBackoff
          place := .pausing setup.config.pollInterval }
  | reconciled (credential : MailCredential) (report : ReconcileReport)
      (hplace : w.place = .reconciling credential) (hpolling : w.polling = false) :
      WorkerStep setup w (.reconciled (.ok report))
        { w with backoff := setup.config.initialBackoff, place := .lookingUp credential }
  | reconcileRefused (credential : MailCredential) (e : SyncError)
      (hplace : w.place = .reconciling credential) (hauth : isAuthError (.sync e) = true) :
      WorkerStep setup w (.reconciled (.error e)) (setup.giveUp w (setup.texts.sync e))
  | reconcileFailed (credential : MailCredential) (e : SyncError)
      (hplace : w.place = .reconciling credential) (hauth : isAuthError (.sync e) = false) :
      WorkerStep setup w (.reconciled (.error e)) (setup.retry w (setup.texts.sync e))
  | found (credential : MailCredential) (account : Account) (port : UInt16)
      (hplace : w.place = .lookingUp credential) (hport : portU16 account.imapPort = .ok port) :
      WorkerStep setup w (.lookedUp (.ok (some account)))
        { setup.transition w .idle none with
          place := .idling (setup.idleRequest account port credential) }
  | badPort (credential : MailCredential) (account : Account) (e : ImapError)
      (hplace : w.place = .lookingUp credential) (hport : portU16 account.imapPort = .error e) :
      WorkerStep setup w (.lookedUp (.ok (some account))) (setup.giveUp w (ImapError.text e))
  | gone (credential : MailCredential) (hplace : w.place = .lookingUp credential) :
      WorkerStep setup w (.lookedUp (.ok none)) { w with place := .stopped }
  | lookupFailed (credential : MailCredential) (e : DbError)
      (hplace : w.place = .lookingUp credential) :
      WorkerStep setup w (.lookedUp (.error e)) (setup.retry w (setup.texts.db e))
  | interrupted (request : IdleRequest) (hplace : w.place = .idling request)
      (hcancelled : w.cancelled = true) :
      WorkerStep setup w (.idled (.ok .interrupted)) { w with place := .stopped }
  | idled (request : IdleRequest) (outcome : IdleOutcome) (hplace : w.place = .idling request) :
      WorkerStep setup w (.idled (.ok outcome))
        (WorkerSetup.loopTop { w with backoff := setup.config.initialBackoff })
  | unsupported (request : IdleRequest) (what : String) (hplace : w.place = .idling request) :
      WorkerStep setup w (.idled (.error (.unsupported what))) (setup.runPollingWorker w)
  | idleRefused (request : IdleRequest) (text : String) (hplace : w.place = .idling request) :
      WorkerStep setup w (.idled (.error (.auth text)))
        (setup.giveUp w (ImapError.text (.auth text)))
  | idleFailed (request : IdleRequest) (e : ImapError) (hplace : w.place = .idling request)
      (hauth : ∀ text, e ≠ .auth text) (hsupported : ∀ what, e ≠ .unsupported what) :
      WorkerStep setup w (.idled (.error e)) (setup.retry w (ImapError.text e))
  | wokePause (delay : Duration) (hplace : w.place = .pausing delay) :
      WorkerStep setup w .woke (WorkerSetup.loopTop w)
  | wokeBackoff (delay : Duration) (hplace : w.place = .backingOff delay) :
      WorkerStep setup w .woke (WorkerSetup.loopTop
        { w with backoff := nextBackoff setup.config.maxBackoff w.backoff })

namespace WorkerSetup

variable {setup : WorkerSetup} {w t : SyncWorker} {a : WorkerAction}

theorem WorkerStep.of_resolved {result : Except CycleError MailCredential}
    (hplace : w.place = .resolving) :
    WorkerStep setup w (.resolved result) (setup.afterResolve w result) := by
  cases result with
  | ok credential => exact .resolved credential hplace
  | error e =>
    cases hauth : isAuthError e
    · simp only [afterResolve, hauth, Bool.false_eq_true, if_false]
      exact .resolveFailed e hplace hauth
    · simp only [afterResolve, hauth, if_true]
      exact .resolveRefused e hplace hauth

theorem WorkerStep.of_reconciled {credential : MailCredential}
    {result : Except SyncError ReconcileReport} (hplace : w.place = .reconciling credential) :
    WorkerStep setup w (.reconciled result) (setup.afterReconcile w credential result) := by
  cases result with
  | ok report =>
    cases hpolling : w.polling
    · simp only [afterReconcile, hpolling, Bool.false_eq_true, if_false]
      have h : WorkerStep setup w (.reconciled (.ok report)) _ :=
        .reconciled credential report hplace hpolling
      rwa [hpolling] at h
    · simp only [afterReconcile, hpolling, if_true]
      exact .polled credential report hplace hpolling
  | error e =>
    cases hauth : isAuthError (.sync e)
    · simp only [afterReconcile, hauth, Bool.false_eq_true, if_false]
      exact .reconcileFailed credential e hplace hauth
    · simp only [afterReconcile, hauth, if_true]
      exact .reconcileRefused credential e hplace hauth

theorem WorkerStep.of_lookedUp {credential : MailCredential}
    {result : Except DbError (Option Account)} (hplace : w.place = .lookingUp credential) :
    WorkerStep setup w (.lookedUp result) (setup.afterLookup w credential result) := by
  match result with
  | .ok none => exact .gone credential hplace
  | .error e => exact .lookupFailed credential e hplace
  | .ok (some account) =>
    cases hport : portU16 account.imapPort with
    | ok port =>
      simp only [afterLookup, hport]
      exact .found credential account port hplace hport
    | error e =>
      simp only [afterLookup, hport]
      exact .badPort credential account e hplace hport

theorem WorkerStep.of_idled {request : IdleRequest} {result : Except ImapError IdleOutcome}
    (hplace : w.place = .idling request) :
    WorkerStep setup w (.idled result) (setup.afterIdle w result) := by
  cases result with
  | ok outcome =>
    cases outcome with
    | newData => exact .idled request .newData hplace
    | timeout => exact .idled request .timeout hplace
    | interrupted =>
      simp only [afterIdle]
      split_ifs with hcancelled
      · exact .interrupted request hplace hcancelled
      · exact .idled request .interrupted hplace
  | error e =>
    cases e with
    | unsupported what => exact .unsupported request what hplace
    | auth text => exact .idleRefused request text hplace
    | io | tls | protocol | invalidName | invalidPort | timeout =>
      exact .idleFailed request _ hplace (by simp) (by simp)

theorem step_cases (h : setup.step w a = some t) : WorkerStep setup w a t := by
  cases a with
  | start =>
    simp only [step] at h
    split_ifs at h with hplace
    cases h
    exact .start hplace
  | cancel =>
    simp only [step] at h
    split_ifs at h with hcancelled
    cases h
    exact .cancel (Bool.eq_false_iff.mpr hcancelled)
  | observe =>
    simp only [step] at h
    split_ifs at h with hselects
    cases h
    rw [Bool.and_eq_true] at hselects
    exact .observe hselects.1 hselects.2
  | resolved result =>
    simp only [step] at h
    split at h
    · cases h
      exact WorkerStep.of_resolved ‹_›
    · cases h
  | reconciled result =>
    simp only [step] at h
    split at h
    · cases h
      exact WorkerStep.of_reconciled ‹_›
    · cases h
  | lookedUp result =>
    simp only [step] at h
    split at h
    · cases h
      exact WorkerStep.of_lookedUp ‹_›
    · cases h
  | idled result =>
    simp only [step] at h
    split at h
    · cases h
      exact WorkerStep.of_idled ‹_›
    · cases h
  | woke =>
    simp only [step] at h
    split at h
    · cases h
      exact .wokePause _ ‹_›
    · cases h
      exact .wokeBackoff _ ‹_›
    · cases h

end WorkerSetup

end Postblox.Sync
