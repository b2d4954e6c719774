import Postblox.Sync.Worker

/-!
# Runs of the sync worker

What holds after every run of a worker, whatever the server, the database and the resolver
answer and whenever the token is cancelled: how long it waits after a failure, which
credential a call uses, when the worker ends, and what it has announced.
-/
namespace Postblox.Sync

open Db (AccountId Account DbError SyncStatus)
open Imap (ImapError MailCredential portU16)
open Lib Lib.Machine

namespace WorkerSetup

variable {setup : WorkerSetup} {w t : SyncWorker} {a : WorkerAction} {acts : List WorkerAction}

/-! ## Delays -/

/-- The failures in a row: the answers that are tried again, since a cycle went well or a
loop was entered. -/
def countFailure (n : Nat) : WorkerAction → Nat
  | .start => 0
  | .resolved (.error _) | .reconciled (.error _) | .lookedUp (.error _) => n + 1
  | .reconciled (.ok _) | .idled (.ok _) | .idled (.error (.unsupported _)) => 0
  | .idled (.error _) => n + 1
  | .cancel | .observe | .resolved (.ok _) | .lookedUp (.ok _) | .woke => n

def failures (acts : List WorkerAction) : Nat := acts.foldl countFailure 0

theorem failures_snoc (acts : List WorkerAction) (a : WorkerAction) :
    failures (acts ++ [a]) = countFailure (failures acts) a := by
  unfold failures
  rw [List.foldl_append]
  rfl

/-- The backoff in hand after `n` failures in a row; while it is slept the last of them is
not counted yet. -/
structure Paced (config : WorkerConfig) (n : Nat) (w : SyncWorker) : Prop where
  ahead : w.place ≠ .stopped → (∀ delay, w.place ≠ .backingOff delay) →
    w.backoff = config.backoffAfter n
  asleep : ∀ delay, w.place = .backingOff delay →
    delay = w.backoff ∧ ∃ k, n = k + 1 ∧ delay = config.backoffAfter k
  between : ∀ delay, w.place = .pausing delay → delay = config.pollInterval

theorem paced_stopped {config : WorkerConfig} {n : Nat} (hplace : w.place = .stopped) :
    Paced config n w where
  ahead := fun hrunning => absurd hplace hrunning
  asleep := fun delay hdelay => by simp [hplace] at hdelay
  between := fun delay hdelay => by simp [hplace] at hdelay

/-- At a wait that is no sleep. -/
theorem paced_awake {config : WorkerConfig} {n : Nat} (hasleep : ∀ delay, w.place ≠ .backingOff delay)
    (hbetween : ∀ delay, w.place ≠ .pausing delay) (hbackoff : w.backoff = config.backoffAfter n) :
    Paced config n w where
  ahead := fun _ _ => hbackoff
  asleep := fun delay hdelay => absurd hdelay (hasleep delay)
  between := fun delay hdelay => absurd hdelay (hbetween delay)

theorem paced_loopTop {config : WorkerConfig} {n : Nat}
    (hbackoff : w.backoff = config.backoffAfter n) :
    Paced config n (loopTop w) := by
  cases hcancelled : w.cancelled
  · refine paced_awake ?_ ?_ hbackoff <;> simp [loopTop, hcancelled]
  · exact paced_stopped (by simp [loopTop, hcancelled])

theorem paced_runPollingWorker (w : SyncWorker) : Paced setup.config 0 (setup.runPollingWorker w) :=
  paced_loopTop rfl

theorem paced_retry {n : Nat} (error : String) (hbackoff : w.backoff = setup.config.backoffAfter n) :
    Paced setup.config (n + 1) (setup.retry w error) where
  ahead := fun _ hawake => absurd rfl (hawake w.backoff)
  asleep := fun delay hdelay => by
    obtain rfl : w.backoff = delay := by simpa [retry] using hdelay
    exact ⟨rfl, n, rfl, hbackoff⟩
  between := fun delay hdelay => by simp [retry] at hdelay

theorem Paced.of_step {n : Nat} (h : Paced setup.config n w) (hstep : WorkerStep setup w a t) :
    Paced setup.config (countFailure n a) t := by
  have hawake : w.place ≠ .stopped → (∀ delay, w.place ≠ .backingOff delay) →
      w.backoff = setup.config.backoffAfter n := h.ahead
  cases hstep with
  | start hplace =>
    simp only [countFailure, runSyncWorker]
    split_ifs
    · exact paced_loopTop rfl
    · exact paced_runPollingWorker w
  | cancel => exact ⟨h.ahead, h.asleep, h.between⟩
  | observe => exact paced_stopped rfl
  | resolved credential hplace =>
    exact paced_awake (by simp) (by simp) (hawake (by simp [hplace]) (by simp [hplace]))
  | resolveRefused e => exact paced_stopped rfl
  | resolveFailed e hplace =>
    exact paced_retry _ (hawake (by simp [hplace]) (by simp [hplace]))
  | polled credential report hplace hpolling =>
    refine ⟨fun _ _ => rfl, fun delay hdelay => by simp at hdelay, fun delay hdelay => ?_⟩
    exact (Place.pausing.inj hdelay).symm
  | reconciled => exact paced_awake (by simp) (by simp) rfl
  | reconcileRefused => exact paced_stopped rfl
  | reconcileFailed credential e hplace =>
    exact paced_retry _ (hawake (by simp [hplace]) (by simp [hplace]))
  | found credential account port hplace =>
    exact paced_awake (by simp) (by simp) (hawake (by simp [hplace]) (by simp [hplace]))
  | badPort => exact paced_stopped rfl
  | gone => exact paced_stopped rfl
  | lookupFailed credential e hplace =>
    exact paced_retry _ (hawake (by simp [hplace]) (by simp [hplace]))
  | interrupted => exact paced_stopped rfl
  | idled => exact paced_loopTop rfl
  | unsupported => exact paced_runPollingWorker w
  | idleRefused => exact paced_stopped rfl
  | idleFailed request e hplace hauth hsupported =>
    have hcount : countFailure n (.idled (.error e)) = n + 1 := by
      cases e with
      | unsupported what => exact absurd rfl (hsupported what)
      | io | tls | protocol | auth | invalidName | invalidPort | timeout => rfl
    rw [hcount]
    exact paced_retry _ (hawake (by simp [hplace]) (by simp [hplace]))
  | wokePause delay hplace =>
    exact paced_loopTop (hawake (by simp [hplace]) (by simp [hplace]))
  | wokeBackoff delay hplace =>
    obtain ⟨hdelay, k, rfl, hk⟩ := h.asleep delay hplace
    refine paced_loopTop ?_
    show nextBackoff setup.config.maxBackoff w.backoff = _
    rw [← hdelay, hk]
    exact (Function.iterate_succ_apply' _ k _).symm

theorem paced_of_run (hrun : run setup.step setup.spawned acts = some w) :
    Paced setup.config (failures acts) w := by
  refine history_invariant setup.step (P := fun acts w => Paced setup.config (failures acts) w)
    (paced_awake (by simp [spawned]) (by simp [spawned]) rfl) ?_ hrun
  intro acts s a t _ hpaced hstep
  rw [failures_snoc]
  exact hpaced.of_step (step_cases hstep)

/-- A worker that sleeps after a failure has failed some times in a row, and the delay is the
initial one doubled for every failure before this one, up to the bound; between two polls it
sleeps the interval. -/
theorem retry_delay_doubles (hrun : run setup.step setup.spawned acts = some w) :
    (∀ delay, w.place = .backingOff delay → ∃ k, failures acts = k + 1 ∧
      delay.1 = if k = 0 then setup.config.initialBackoff.1
        else min (setup.config.initialBackoff.1 * 2 ^ k) setup.config.maxBackoff.1) ∧
    ∀ delay, w.place = .pausing delay → delay = setup.config.pollInterval := by
  have hpaced := paced_of_run hrun
  refine ⟨fun delay hplace => ?_, hpaced.between⟩
  obtain ⟨-, k, hk, hdelay⟩ := hpaced.asleep delay hplace
  exact ⟨k, hk, hdelay ▸ backoffAfter_eq setup.config k⟩

/-! ## Credentials -/

def resolvedWith : WorkerAction → Option MailCredential
  | .resolved (.ok credential) => some credential
  | _ => none

def rowRead : WorkerAction → Option Account
  | .lookedUp (.ok row) => row
  | _ => none

def syncEnded : WorkerAction → Bool
  | .reconciled _ => true
  | _ => false

/-- The credentials resolved so far. -/
def resolutions (acts : List WorkerAction) : List MailCredential := acts.filterMap resolvedWith

/-- The account rows read so far. -/
def rowsRead (acts : List WorkerAction) : List Account := acts.filterMap rowRead

/-- Every call uses what was resolved last, a wait for changes the row that was read last,
and no credential serves two syncs. -/
structure Credentialed (setup : WorkerSetup) (acts : List WorkerAction) (w : SyncWorker) : Prop where
  current : ∀ credential, w.place.credential = some credential →
    (resolutions acts).getLast? = some credential
  row : ∀ request, w.place = .idling request → ∃ account port,
    (rowsRead acts).getLast? = some account ∧ portU16 account.imapPort = .ok port ∧
      request = setup.idleRequest account port request.credential
  fresh : acts.countP syncEnded + w.place.syncing ≤ (resolutions acts).length

theorem resolutions_snoc (acts : List WorkerAction) (a : WorkerAction) :
    resolutions (acts ++ [a]) = resolutions acts ++ (resolvedWith a).toList := by
  unfold resolutions
  rw [List.filterMap_append]
  cases h : resolvedWith a <;> simp [h]

theorem rowsRead_snoc (acts : List WorkerAction) (a : WorkerAction) :
    rowsRead (acts ++ [a]) = rowsRead acts ++ (rowRead a).toList := by
  unfold rowsRead
  rw [List.filterMap_append]
  cases h : rowRead a <;> simp [h]

theorem syncEnded_snoc (acts : List WorkerAction) (a : WorkerAction) :
    (acts ++ [a]).countP syncEnded = acts.countP syncEnded + if syncEnded a then 1 else 0 := by
  rw [List.countP_append, List.countP_singleton]

theorem credential_loopTop (w : SyncWorker) : (loopTop w).place.credential = none := by
  unfold loopTop
  split_ifs <;> rfl

theorem credential_runSyncWorker (w : SyncWorker) :
    (setup.runSyncWorker w).place.credential = none := by
  unfold runSyncWorker
  split_ifs
  · exact credential_loopTop _
  · exact credential_loopTop _

/-- A step to a place with no call under way. -/
theorem Credentialed.rest (h : Credentialed setup acts w) (hnone : t.place.credential = none)
    (hended : syncEnded a = true → w.place.syncing = 1) : Credentialed setup (acts ++ [a]) t where
  current := fun credential hcredential => by simp [hnone] at hcredential
  row := fun request hplace => by simp [hplace, Place.credential] at hnone
  fresh := by
    have hquiet : t.place.syncing = 0 := by
      cases hplace : t.place <;> simp_all [Place.credential, Place.syncing]
    have hfresh := h.fresh
    rw [syncEnded_snoc, resolutions_snoc, List.length_append, hquiet]
    split_ifs with hend
    · have hone := hended hend
      omega
    · omega

theorem Credentialed.of_step (h : Credentialed setup acts w) (hstep : WorkerStep setup w a t) :
    Credentialed setup (acts ++ [a]) t := by
  cases hstep with
  | start => exact h.rest (credential_runSyncWorker w) (fun hended => nomatch hended)
  | cancel =>
    refine ⟨?_, ?_, ?_⟩
    · rw [resolutions_snoc]
      simpa [resolvedWith] using h.current
    · rw [rowsRead_snoc]
      simpa [rowRead] using h.row
    · rw [syncEnded_snoc, resolutions_snoc]
      simpa [resolvedWith, syncEnded] using h.fresh
  | observe => exact h.rest rfl (fun hended => nomatch hended)
  | resolved credential hplace =>
    refine ⟨fun credential' hcredential => ?_, fun request hidling => by simp at hidling, ?_⟩
    · obtain rfl : credential = credential' := by simpa [Place.credential] using hcredential
      simp [resolutions_snoc, resolvedWith]
    · have hfresh := h.fresh
      rw [syncEnded_snoc, resolutions_snoc]
      simp only [hplace, Place.syncing, resolvedWith, syncEnded, Option.toList_some,
        List.length_append, List.length_singleton, Bool.false_eq_true, if_false] at hfresh ⊢
      omega
  | resolveRefused => exact h.rest rfl (fun hended => nomatch hended)
  | resolveFailed => exact h.rest rfl (fun hended => nomatch hended)
  | polled credential report hplace => exact h.rest rfl (fun _ => by rw [hplace]; rfl)
  | reconciled credential report hplace =>
    refine ⟨fun credential' hcredential => ?_, fun request hidling => by simp at hidling, ?_⟩
    · have hsame : w.place.credential = some credential' := by
        rw [hplace]
        exact hcredential
      rw [resolutions_snoc]
      simpa [resolvedWith] using h.current credential' hsame
    · have hfresh := h.fresh
      rw [syncEnded_snoc, resolutions_snoc]
      simpa [hplace, Place.syncing, resolvedWith, syncEnded] using hfresh
  | reconcileRefused credential e hplace => exact h.rest rfl (fun _ => by rw [hplace]; rfl)
  | reconcileFailed credential e hplace => exact h.rest rfl (fun _ => by rw [hplace]; rfl)
  | found credential account port hplace hport =>
    refine ⟨fun credential' hcredential => ?_, fun request hidling => ?_, ?_⟩
    · have hsame : w.place.credential = some credential' := by
        rw [hplace]
        exact hcredential
      rw [resolutions_snoc]
      simpa [resolvedWith] using h.current credential' hsame
    · obtain rfl := Place.idling.inj hidling
      exact ⟨account, port, by simp [rowsRead_snoc, rowRead], hport, rfl⟩
    · have hfresh := h.fresh
      rw [syncEnded_snoc, resolutions_snoc]
      simpa [hplace, Place.syncing, resolvedWith, syncEnded] using hfresh
  | badPort => exact h.rest rfl (fun hended => nomatch hended)
  | gone => exact h.rest rfl (fun hended => nomatch hended)
  | lookupFailed => exact h.rest rfl (fun hended => nomatch hended)
  | interrupted => exact h.rest rfl (fun hended => nomatch hended)
  | idled => exact h.rest (credential_loopTop _) (fun hended => nomatch hended)
  | unsupported => exact h.rest (credential_loopTop _) (fun hended => nomatch hended)
  | idleRefused => exact h.rest rfl (fun hended => nomatch hended)
  | idleFailed => exact h.rest rfl (fun hended => nomatch hended)
  | wokePause => exact h.rest (credential_loopTop _) (fun hended => nomatch hended)
  | wokeBackoff => exact h.rest (credential_loopTop _) (fun hended => nomatch hended)

/-- In every run each sync and each wait for changes uses the credential that was resolved
last and, to wait, the account row that was read last; there are never more syncs than
credentials resolved, so none is used for a second sync. -/
theorem credential_serves_one_cycle (hrun : run setup.step setup.spawned acts = some w) :
    Credentialed setup acts w := by
  refine history_invariant setup.step (P := fun acts w => Credentialed setup acts w) ?_ ?_ hrun
  · refine ⟨fun credential hcredential => ?_, fun request hplace => ?_, Nat.le_refl _⟩
    · simp [spawned, Place.credential] at hcredential
    · simp [spawned] at hplace
  · exact fun acts s a t _ h hstep => h.of_step (step_cases hstep)

/-! ## What it announces -/

/-- What may be announced next. -/
def follows : SyncState → SyncState → Bool
  | .idle, next => next ≠ .idle
  | .polling, next => next = .syncing || next = .error
  | .syncing, next => next ≠ .syncing
  | .error, next => next = .syncing || next = .error

/-- The events of a worker: of its account, a text with the errors and only with them, in an
order of `follows`, and never `idle` after `polling`. -/
structure Reported (setup : WorkerSetup) (polling : Bool) (reports : List SyncStateEvent) :
    Prop where
  own : ∀ event ∈ reports, event.accountId = setup.accountId
  texts : ∀ event ∈ reports, event.state = .error →
    ∃ text, event.lastError = some text ∧ text ≠ ""
  silent : ∀ event ∈ reports, event.state ≠ .error → event.lastError = none
  order : (reports.map SyncStateEvent.state).IsChain (fun s next => follows s next = true)
  settled : (reports.map SyncStateEvent.state).Pairwise
    (fun s later => s = .polling → later ≠ .idle)
  mode : polling = false → ∀ event ∈ reports, event.state ≠ .polling

/-- The state announced last. -/
def lastState (w : SyncWorker) : Option SyncState := w.reports.getLast?.map SyncStateEvent.state

/-- What was announced last, at each place, and in which of the two loops. -/
def AnnouncedAt (polling : Bool) : Place → Option SyncState → Prop
  | .spawned, last => polling = false ∧ last = none
  | .resolving, last => last = some .error ∨ last = some (if polling then .polling else .idle)
  | .reconciling _, last => last = some .syncing
  | .lookingUp _, last => polling = false ∧ last = some .syncing
  | .idling _, last => polling = false ∧ last = some .idle
  | .pausing _, last => polling = true ∧ last = some .polling
  | .backingOff _, last => last = some .error
  | .stopped, last => last ≠ none

/-- The events, the state announced last, and a status write for every error. -/
structure Announced (setup : WorkerSetup) (w : SyncWorker) : Prop where
  reported : Reported setup w.polling w.reports
  now : AnnouncedAt w.polling w.place (lastState w)
  written : w.writes = (w.reports.filter (·.state = .error)).map
    fun event => ⟨event.accountId, .error, event.lastError⟩

theorem follows_error (s : SyncState) : follows s .error = true := by
  cases s <;> rfl

theorem lastState_transition (w : SyncWorker) (state : SyncState) (lastError : Option String) :
    lastState (setup.transition w state lastError) = some state := by
  simp [lastState, transition]

theorem Reported.snoc {polling polling' : Bool} {reports : List SyncStateEvent} {state : SyncState}
    {lastError : Option String} (h : Reported setup polling reports)
    (htext : state = .error → ∃ text, lastError = some text ∧ text ≠ "")
    (hsilent : state ≠ .error → lastError = none)
    (hfollows : ∀ last ∈ reports.getLast?.map SyncStateEvent.state, follows last state = true)
    (hidle : state = .idle → polling = false)
    (hmode : polling' = false → polling = false ∧ state ≠ .polling) :
    Reported setup polling' (reports ++ [⟨setup.accountId, state, lastError⟩]) where
  own := by
    intro event hevent
    rcases List.mem_append.mp hevent with hmem | hmem
    · exact h.own event hmem
    · rw [List.mem_singleton.mp hmem]
  texts := by
    intro event hevent
    rcases List.mem_append.mp hevent with hmem | hmem
    · exact h.texts event hmem
    · rw [List.mem_singleton.mp hmem]
      exact htext
  silent := by
    intro event hevent
    rcases List.mem_append.mp hevent with hmem | hmem
    · exact h.silent event hmem
    · rw [List.mem_singleton.mp hmem]
      exact hsilent
  order := by
    rw [List.map_append, List.map_singleton, List.isChain_append]
    refine ⟨h.order, List.isChain_singleton _, fun last hlast next hnext => ?_⟩
    obtain rfl : state = next := by simpa using hnext
    exact hfollows last (by simpa using hlast)
  settled := by
    rw [List.map_append, List.map_singleton, List.pairwise_append]
    refine ⟨h.settled, List.pairwise_singleton _ _, ?_⟩
    intro earlier hearlier later hlater hpolling hstate
    obtain rfl : later = state := by simpa using hlater
    obtain ⟨event, hmem, rfl⟩ := List.mem_map.mp hearlier
    exact h.mode (hidle hstate) event hmem hpolling
  mode := by
    intro hnot event hevent
    rcases List.mem_append.mp hevent with hmem | hmem
    · exact h.mode (hmode hnot).1 event hmem
    · rw [List.mem_singleton.mp hmem]
      exact (hmode hnot).2

/-- One transition, and a place that fits it. -/
theorem Announced.transition (h : Announced setup w) {state : SyncState} {lastError : Option String}
    (hreports : t.reports = (setup.transition w state lastError).reports)
    (hwrites : t.writes = (setup.transition w state lastError).writes)
    (htext : state = .error → ∃ text, lastError = some text ∧ text ≠ "")
    (hsilent : state ≠ .error → lastError = none)
    (hfollows : ∀ last ∈ lastState w, follows last state = true)
    (hidle : state = .idle → w.polling = false)
    (hmode : t.polling = false → w.polling = false ∧ state ≠ .polling)
    (hplace : AnnouncedAt t.polling t.place (some state)) : Announced setup t where
  reported := by
    rw [hreports]
    exact h.reported.snoc htext hsilent hfollows hidle hmode
  now := by
    have hlast : lastState t = some state := by
      unfold lastState
      rw [hreports]
      exact lastState_transition w state lastError
    rw [hlast]
    exact hplace
  written := by
    rw [hreports, hwrites]
    simp only [WorkerSetup.transition, List.filter_append, List.map_append, ← h.written]
    split_ifs with herror
    · simp [herror]
    · simp [herror]

/-- The head of a loop, after the home state or an error was announced. -/
theorem announcedAt_loopTop {polling cancelled : Bool} {last : Option SyncState}
    (hlast : last = some .error ∨ last = some (if polling then .polling else .idle)) :
    AnnouncedAt polling (if cancelled then .stopped else .resolving) last := by
  cases cancelled
  · exact hlast
  · rcases hlast with rfl | rfl <;> simp [AnnouncedAt]

theorem Announced.retry (h : Announced setup w) {error : String} (herror : error ≠ "") :
    Announced setup (setup.retry w error) :=
  h.transition rfl rfl (fun _ => ⟨error, rfl, herror⟩) (fun hne => absurd rfl hne)
    (fun last _ => follows_error last) (fun hidle => nomatch hidle)
    (fun hpolling => ⟨hpolling, by simp⟩) rfl

theorem Announced.giveUp (h : Announced setup w) {error : String} (herror : error ≠ "") :
    Announced setup (setup.giveUp w error) :=
  h.transition rfl rfl (fun _ => ⟨error, rfl, herror⟩) (fun hne => absurd rfl hne)
    (fun last _ => follows_error last) (fun hidle => nomatch hidle)
    (fun hpolling => ⟨hpolling, by simp⟩) (fun hnone => nomatch hnone)

theorem Announced.runPollingWorker (h : Announced setup w)
    (hfollows : ∀ last ∈ lastState w, follows last .polling = true) :
    Announced setup (setup.runPollingWorker w) :=
  h.transition rfl rfl (fun herror => nomatch herror) (fun _ => rfl) hfollows
    (fun hidle => nomatch hidle) (fun hpolling => nomatch hpolling) (announcedAt_loopTop (.inr rfl))

/-- Back to the head of the loop without a word. -/
theorem Announced.loopTop (h : Announced setup w) (backoff : Duration)
    (hlast : lastState w = some .error ∨
      lastState w = some (if w.polling then .polling else .idle)) :
    Announced setup (WorkerSetup.loopTop { w with backoff }) where
  reported := h.reported
  now := announcedAt_loopTop hlast
  written := h.written

/-- On to another place without a word. -/
theorem Announced.move (h : Announced setup w) {place : Place} {backoff : Duration}
    (hplace : AnnouncedAt w.polling place (lastState w)) :
    Announced setup { w with place, backoff } where
  reported := h.reported
  now := hplace
  written := h.written

theorem append_ne_empty {s : String} (hs : s ≠ "") (rest : String) : s ++ rest ≠ "" :=
  fun h => hs (String.append_eq_empty_iff.mp h).1

theorem imap_text_ne_empty (e : ImapError) : ImapError.text e ≠ "" := by
  cases e <;> exact append_ne_empty (by decide) _

theorem sync_text_ne_empty (texts : ErrorTexts) (e : SyncError) : texts.sync e ≠ "" := by
  cases e with
  | unknownAccount => exact (by decide : "unknown account" ≠ "")
  | missingCredentials => exact (by decide : "missing credentials for account" ≠ "")
  | imap | db | attachment => exact append_ne_empty (by decide) _
  | unknownFolder name => exact append_ne_empty (append_ne_empty (by decide) name) _

theorem cycle_text_ne_empty (texts : ErrorTexts) (e : CycleError) : texts.cycle e ≠ "" := by
  cases e with
  | sync e => exact sync_text_ne_empty texts e
  | credential message => exact append_ne_empty (by decide) message

theorem db_text_ne_empty (texts : ErrorTexts) (e : DbError) : texts.db e ≠ "" :=
  append_ne_empty (by decide) _

/-- A worker that waits has announced something. -/
theorem last_ne_none {polling : Bool} {place : Place} {last : Option SyncState}
    (h : AnnouncedAt polling place last) (hplace : place ≠ .spawned) : last ≠ none := by
  cases place with
  | spawned => exact absurd rfl hplace
  | resolving => rcases h with rfl | rfl <;> simp
  | reconciling _ | backingOff _ =>
    rw [show last = _ from h]
    simp
  | lookingUp _ | idling _ | pausing _ =>
    rw [h.2]
    simp
  | stopped => exact h

theorem Announced.of_step (h : Announced setup w) (hstep : WorkerStep setup w a t) :
    Announced setup t := by
  have hnow := h.now
  cases hstep with
  | start hplace =>
    rw [hplace] at hnow
    have hnone : ∀ next, ∀ last ∈ lastState w, follows last next = true := by
      intro next last hlast
      rw [hnow.2] at hlast
      cases hlast
    unfold runSyncWorker
    split_ifs
    · refine h.transition rfl rfl (fun herror => nomatch herror) (fun _ => rfl) (hnone _)
        (fun _ => hnow.1) (fun _ => ⟨hnow.1, by simp⟩) (announcedAt_loopTop (.inr ?_))
      show some SyncState.idle = some (if w.polling then .polling else .idle)
      rw [hnow.1]
      rfl
    · exact h.runPollingWorker (hnone _)
  | cancel => exact ⟨h.reported, h.now, h.written⟩
  | observe hcancelled hselects =>
    refine h.move (last_ne_none hnow fun hspawned => ?_)
    simp [hspawned, Place.selects] at hselects
  | resolved credential hplace =>
    rw [hplace] at hnow
    refine h.transition rfl rfl (fun herror => nomatch herror) (fun _ => rfl) (fun last hlast => ?_)
      (fun hidle => nomatch hidle) (fun hpolling => ⟨hpolling, by simp⟩) rfl
    rcases hnow with hlast' | hlast'
    · rw [hlast'] at hlast
      cases hlast
      rfl
    · rw [hlast'] at hlast
      cases hlast
      cases w.polling <;> rfl
  | resolveRefused e => exact h.giveUp (cycle_text_ne_empty _ e)
  | resolveFailed e => exact h.retry (cycle_text_ne_empty _ e)
  | polled credential report hplace hpolling =>
    rw [hplace] at hnow
    refine h.transition rfl rfl (fun herror => nomatch herror) (fun _ => rfl) (fun last hlast => ?_)
      (fun hidle => nomatch hidle) (fun hnot => ?_) ⟨hpolling, rfl⟩
    · rw [show lastState w = _ from hnow] at hlast
      cases hlast
      rfl
    · exact absurd (hpolling.symm.trans hnot) (by decide)
  | reconciled credential report hplace hpolling =>
    rw [hplace] at hnow
    exact h.move ⟨hpolling, hnow⟩
  | reconcileRefused credential e => exact h.giveUp (sync_text_ne_empty _ e)
  | reconcileFailed credential e => exact h.retry (sync_text_ne_empty _ e)
  | found credential account port hplace =>
    rw [hplace] at hnow
    refine h.transition rfl rfl (fun herror => nomatch herror) (fun _ => rfl) (fun last hlast => ?_)
      (fun _ => hnow.1) (fun _ => ⟨hnow.1, by simp⟩) ⟨hnow.1, rfl⟩
    rw [hnow.2] at hlast
    cases hlast
    rfl
  | badPort credential account e => exact h.giveUp (imap_text_ne_empty e)
  | gone credential hplace => exact h.move (last_ne_none hnow (by simp [hplace]))
  | lookupFailed credential e => exact h.retry (db_text_ne_empty _ e)
  | interrupted request hplace => exact h.move (last_ne_none hnow (by simp [hplace]))
  | idled request outcome hplace =>
    rw [hplace] at hnow
    exact h.loopTop _ (.inr (by rw [hnow.1]; exact hnow.2))
  | unsupported request what hplace =>
    rw [hplace] at hnow
    refine h.runPollingWorker fun last hlast => ?_
    rw [hnow.2] at hlast
    cases hlast
    rfl
  | idleRefused request text => exact h.giveUp (imap_text_ne_empty _)
  | idleFailed request e => exact h.retry (imap_text_ne_empty e)
  | wokePause delay hplace =>
    rw [hplace] at hnow
    exact h.loopTop _ (.inr (by rw [hnow.1]; exact hnow.2))
  | wokeBackoff delay hplace =>
    rw [hplace] at hnow
    exact h.loopTop _ (.inl hnow)

/-- In every run the place of a worker and its loop decide what it has announced last; the
announcements follow each other as `follows` says, a worker that polls is never announced
as idle again, and every error comes with a text that is written to the account as well. -/
theorem announcements_tell_place (hrun : run setup.step setup.spawned acts = some w) :
    Announced setup w := by
  refine invariant setup.step (I := Announced setup) ?_ (fun s a t h hstep =>
    h.of_step (step_cases hstep)) hrun
  refine ⟨⟨?_, ?_, ?_, ?_, ?_, ?_⟩, ⟨rfl, rfl⟩, rfl⟩ <;> simp [spawned]

/-! ## How it ends -/

/-- The answers that end a worker. -/
def Fatal : WorkerAction → Prop
  | .resolved (.error e) => isAuthError e = true
  | .reconciled (.error e) => isAuthError (.sync e) = true
  | .lookedUp (.ok none) => True
  | .lookedUp (.ok (some account)) => ∃ e, portU16 account.imapPort = .error e
  | .idled (.error (.auth _)) => True
  | _ => False

theorem cancelled_of_step (hstep : WorkerStep setup w a t) :
    t.cancelled = true ↔ w.cancelled = true ∨ a = .cancel := by
  cases hstep with
  | start =>
    unfold runSyncWorker
    split_ifs <;> simp [loopTop, runPollingWorker, transition]
  | cancel => simp
  | observe | resolved | resolveRefused | resolveFailed | polled | reconciled | reconcileRefused
  | reconcileFailed | found | badPort | gone | lookupFailed | interrupted | idled | unsupported
  | idleRefused | idleFailed | wokePause | wokeBackoff =>
    simp [loopTop, runPollingWorker, transition, retry, giveUp]

theorem cancelled_of_run (hrun : run setup.step setup.spawned acts = some w) :
    w.cancelled = true ↔ .cancel ∈ acts := by
  refine history_invariant setup.step (P := fun acts w => w.cancelled = true ↔ .cancel ∈ acts)
    (by simp [spawned]) ?_ hrun
  intro acts s a t _ ih hstep
  rw [cancelled_of_step (step_cases hstep), ih, List.mem_append, List.mem_singleton, eq_comm]

theorem place_loopTop (hrunning : w.cancelled = false) : (loopTop w).place = .resolving := by
  simp [loopTop, hrunning]

theorem place_runSyncWorker (hrunning : w.cancelled = false) :
    (setup.runSyncWorker w).place = .resolving := by
  unfold runSyncWorker
  split_ifs <;> exact place_loopTop hrunning

theorem running_of_step (hstep : WorkerStep setup w a t) (hrunning : t.cancelled = false) :
    w.cancelled = false := by
  refine Bool.eq_false_iff.mpr fun hcancelled => ?_
  exact Bool.eq_false_iff.mp hrunning ((cancelled_of_step hstep).mpr (.inl hcancelled))

/-- Unless it is cancelled, a worker stops at a fatal answer and at no other. -/
theorem stopped_of_step (hstep : WorkerStep setup w a t) (hrunning : t.cancelled = false) :
    w.place ≠ .stopped ∧ (t.place = .stopped ↔ Fatal a) := by
  have hw := running_of_step hstep hrunning
  cases hstep with
  | start hplace => simp [hplace, place_runSyncWorker hw, Fatal]
  | cancel => simp at hrunning
  | observe hcancelled => exact absurd (hcancelled.symm.trans hw) (by decide)
  | resolved credential hplace => simp [hplace, Fatal]
  | resolveRefused e hplace hauth => simp [hplace, giveUp, Fatal, hauth]
  | resolveFailed e hplace hauth => simp [hplace, retry, Fatal, hauth]
  | polled credential report hplace => simp [hplace, Fatal]
  | reconciled credential report hplace => simp [hplace, Fatal]
  | reconcileRefused credential e hplace hauth => simp [hplace, giveUp, Fatal, hauth]
  | reconcileFailed credential e hplace hauth => simp [hplace, retry, Fatal, hauth]
  | found credential account port hplace hport => simp [hplace, Fatal, hport]
  | badPort credential account e hplace hport => simp [hplace, giveUp, Fatal, hport]
  | gone credential hplace => simp [hplace, Fatal]
  | lookupFailed credential e hplace => simp [hplace, retry, Fatal]
  | interrupted request hplace hcancelled =>
    exact absurd (hcancelled.symm.trans hw) (by decide)
  | idled request outcome hplace =>
    simp [hplace, loopTop, hw, Fatal]
  | unsupported request what hplace =>
    simp [hplace, runPollingWorker, loopTop, transition, hw, Fatal]
  | idleRefused request text hplace => simp [hplace, giveUp, Fatal]
  | idleFailed request e hplace hauth =>
    have hnot : ¬ Fatal (.idled (.error e)) := by
      cases e with
      | auth text => exact absurd rfl (hauth text)
      | io | tls | protocol | unsupported | invalidName | invalidPort | timeout => exact id
    simp [hplace, retry, hnot]
  | wokePause delay hplace =>
    simp [hplace, loopTop, hw, Fatal]
  | wokeBackoff delay hplace =>
    simp [hplace, loopTop, hw, Fatal]

/-- What a fatal answer announces: an error, unless the account row is gone. -/
theorem last_of_fatal (hstep : WorkerStep setup w a t) (hfatal : Fatal a)
    (hgone : a ≠ .lookedUp (.ok none)) : lastState t = some .error := by
  cases hstep with
  | resolveRefused | reconcileRefused | badPort | idleRefused => exact lastState_transition _ _ _
  | resolveFailed e hplace hauth => exact absurd hfatal (by simp [Fatal, hauth])
  | reconcileFailed credential e hplace hauth => exact absurd hfatal (by simp [Fatal, hauth])
  | found credential account port hplace hport => exact absurd hfatal (by simp [Fatal, hport])
  | gone => exact absurd rfl hgone
  | idleFailed request e => exact lastState_transition _ _ _
  | start | cancel | observe | resolved | polled | reconciled | lookupFailed | interrupted
  | idled | unsupported | wokePause | wokeBackoff => exact hfatal.elim

/-- A worker that nobody cancels stops exactly with a rejected login, a missing credential, a
port that is none or an account row that is gone; it announces an error then, except for the
missing row. Every other failure is tried again, however often. -/
theorem worker_stops_iff (hrun : run setup.step setup.spawned acts = some w)
    (hcancel : .cancel ∉ acts) :
    (w.place = .stopped ↔ ∃ a ∈ acts, Fatal a) ∧
    (w.place = .stopped → lastState w = some .error ∨ .lookedUp (.ok none) ∈ acts) := by
  revert hcancel
  refine history_invariant setup.step (P := fun acts w => .cancel ∉ acts →
    (w.place = .stopped ↔ ∃ a ∈ acts, Fatal a) ∧
    (w.place = .stopped → lastState w = some .error ∨ .lookedUp (.ok none) ∈ acts)) ?_ ?_ hrun
  · simp [spawned]
  · intro acts s a t hreach ih hstep hcancel
    have hnone : .cancel ∉ acts := fun hmem => hcancel (List.mem_append_left _ hmem)
    have hrunning : t.cancelled = false := by
      cases hcancelled : t.cancelled with
      | false => rfl
      | true =>
        have hall : run setup.step setup.spawned (acts ++ [a]) = some t :=
          (run_snoc_iff setup.step).mpr ⟨s, hreach, hstep⟩
        exact absurd ((cancelled_of_run hall).mp hcancelled) hcancel
    obtain ⟨halive, hstop⟩ := stopped_of_step (step_cases hstep) hrunning
    have hbefore : ¬ ∃ a ∈ acts, Fatal a := fun hfatal => halive ((ih hnone).1.mpr hfatal)
    refine ⟨?_, fun hplace => ?_⟩
    · rw [hstop]
      constructor
      · exact fun hfatal => ⟨a, List.mem_append_right _ List.mem_cons_self, hfatal⟩
      · rintro ⟨b, hmem, hfatal⟩
        rcases List.mem_append.mp hmem with hmem | hmem
        · exact absurd ⟨b, hmem, hfatal⟩ hbefore
        · rwa [← List.mem_singleton.mp hmem]
    · by_cases hgone : a = .lookedUp (.ok none)
      · exact .inr (hgone ▸ List.mem_append_right _ List.mem_cons_self)
      · exact .inl (last_of_fatal (step_cases hstep) (hstop.mp hplace) hgone)

/-! ## After the token is cancelled -/

theorem place_loopTop_cancelled (hcancelled : w.cancelled = true) :
    (loopTop w).place = .stopped := by
  simp [loopTop, hcancelled]

theorem place_runSyncWorker_cancelled (hcancelled : w.cancelled = true) :
    (setup.runSyncWorker w).place = .stopped := by
  unfold runSyncWorker
  split_ifs <;> exact place_loopTop_cancelled hcancelled

theorem stepsLeft_of_step (hstep : WorkerStep setup w a t) (hcancelled : w.cancelled = true) :
    t.cancelled = true ∧ t.place.stepsLeft < w.place.stepsLeft := by
  refine ⟨(cancelled_of_step hstep).mpr (.inl hcancelled), ?_⟩
  cases hstep with
  | start hplace =>
    rw [place_runSyncWorker_cancelled hcancelled, hplace]
    decide
  | cancel hrunning => exact absurd (hcancelled.symm.trans hrunning) (by decide)
  | observe _ hselects =>
    cases hplace : w.place <;> simp_all [Place.selects, Place.stepsLeft]
  | resolved _ hplace | resolveRefused _ hplace | resolveFailed _ hplace | polled _ _ hplace
  | reconciled _ _ hplace | reconcileRefused _ _ hplace | reconcileFailed _ _ hplace
  | found _ _ _ hplace | badPort _ _ _ hplace | gone _ hplace | lookupFailed _ _ hplace
  | interrupted _ hplace | idleRefused _ _ hplace | idleFailed _ _ hplace =>
    simp [hplace, giveUp, retry, Place.stepsLeft]
  | idled _ _ hplace | unsupported _ _ hplace | wokePause _ hplace | wokeBackoff _ hplace =>
    simp [hplace, loopTop, runPollingWorker, transition, hcancelled, Place.stepsLeft]

theorem length_of_cancelled (hcancelled : w.cancelled = true)
    (hrun : run setup.step w acts = some t) :
    t.cancelled = true ∧ acts.length + t.place.stepsLeft ≤ w.place.stepsLeft := by
  refine history_invariant setup.step (P := fun acts t =>
    t.cancelled = true ∧ acts.length + t.place.stepsLeft ≤ w.place.stepsLeft) ?_ ?_ hrun
  · exact ⟨hcancelled, by simp⟩
  · intro acts s a t _ ih hstep
    obtain ⟨hkept, hless⟩ := stepsLeft_of_step (step_cases hstep) ih.1
    refine ⟨hkept, ?_⟩
    have hle := ih.2
    rw [List.length_append, List.length_singleton]
    omega

theorem stepsLeft_le (place : Place) : place.stepsLeft ≤ 5 := by
  cases place <;> simp [Place.stepsLeft]

/-- A credential is resolved at the fifth step from the end only. -/
theorem resolutions_of_cancelled (hcancelled : w.cancelled = true)
    (hrun : run setup.step w acts = some t) :
    (resolutions acts).length + (if t.place.stepsLeft = 5 then 1 else 0) ≤ 1 := by
  refine history_invariant setup.step (P := fun acts t =>
    (resolutions acts).length + (if t.place.stepsLeft = 5 then 1 else 0) ≤ 1) ?_ ?_ hrun
  · show 0 + _ ≤ 1
    split_ifs <;> omega
  · intro acts s a t hreach ih hstep
    have hs := (length_of_cancelled hcancelled hreach).1
    have hless := (stepsLeft_of_step (step_cases hstep) hs).2
    have hle := stepsLeft_le s.place
    rw [resolutions_snoc, List.length_append, if_neg (by omega)]
    cases ha : resolvedWith a with
    | none =>
      show _ + 0 + 0 ≤ 1
      omega
    | some credential =>
      have hplace : s.place = .resolving := by
        cases step_cases hstep with
        | resolved _ hplace => exact hplace
        | _ => cases ha
      have hfive : s.place.stepsLeft = 5 := by rw [hplace]; rfl
      rw [if_pos hfive] at ih
      show _ + 1 + 0 ≤ 1
      omega

/-- A worker that has not stopped takes the answer it waits for. -/
theorem not_stuck (halive : w.place ≠ .stopped) : ∃ a t, setup.step w a = some t := by
  cases hplace : w.place with
  | stopped => exact absurd hplace halive
  | spawned => exact ⟨.start, _, by rw [step, if_pos hplace]⟩
  | resolving => exact ⟨.resolved (.error (.credential "")), _, by rw [step, hplace]⟩
  | reconciling => exact ⟨.reconciled (.error .missingCredentials), _, by rw [step, hplace]⟩
  | lookingUp => exact ⟨.lookedUp (.ok none), _, by rw [step, hplace]⟩
  | idling => exact ⟨.idled (.ok .timeout), _, by rw [step, hplace]⟩
  | pausing | backingOff => exact ⟨.woke, _, by rw [step, hplace]⟩

/-- Once its token is cancelled a worker takes at most five more answers, whatever they are;
it begins at most one more sync, and it is never stuck before it has stopped. -/
theorem cancelled_worker_stops (hrun : run setup.step setup.spawned acts = some w)
    (hcancel : .cancel ∈ acts) {later : List WorkerAction} {v : SyncWorker}
    (hlater : run setup.step w later = some v) :
    later.length ≤ 5 ∧ (resolutions later).length ≤ 1 ∧
      (later.length = 5 → v.place = .stopped) ∧
      (v.place ≠ .stopped → ∃ a t, setup.step v a = some t) := by
  have hcancelled := (cancelled_of_run hrun).mpr hcancel
  have hlength := (length_of_cancelled hcancelled hlater).2
  have hle := stepsLeft_le w.place
  have hone := resolutions_of_cancelled hcancelled hlater
  refine ⟨by omega, by omega, fun hfive => ?_, not_stuck⟩
  have hzero : v.place.stepsLeft = 0 := by omega
  cases hplace : v.place <;> simp_all [Place.stepsLeft]

/-! A worker that fails twice in a row, falls back to polling and is refused; one that is
cancelled while it syncs. -/

def inboxSetup : WorkerSetup where
  accountId := 1
  folderName := "INBOX"
  idle := true
  config := .default
  texts := ⟨fun _ => "locked", fun _ => "disk full", fun _ => "/a"⟩

def inboxReport : ReconcileReport := ⟨1, 2, 0, some 7, some 3, some 2⟩

def inboxAccount : Account := ⟨1, "u@x.com", "imap.x.com", 993, .idle, none, none⟩

def twoFailures : List WorkerAction :=
  [.start, .resolved (.ok (.password "right")), .reconciled (.error (.imap (.timeout "login"))),
    .woke, .resolved (.error (.credential "no route"))]

def fallsBack : List WorkerAction :=
  [.start, .resolved (.ok (.password "right")), .reconciled (.ok inboxReport),
    .lookedUp (.ok (some inboxAccount)), .idled (.error (.unsupported "IDLE")),
    .resolved (.ok (.password "right")), .reconciled (.error (.imap (.auth "expired")))]

theorem retry_delay_doubles_second : ∃ w,
    run inboxSetup.step inboxSetup.spawned twoFailures = some w ∧
    ∃ delay, w.place = .backingOff delay ∧ delay.1 = 10000000000 ∧ ∃ k, failures twoFailures = k + 1 ∧
      delay.1 = if k = 0 then inboxSetup.config.initialBackoff.1
        else min (inboxSetup.config.initialBackoff.1 * 2 ^ k) inboxSetup.config.maxBackoff.1 := by
  have hrun : run inboxSetup.step inboxSetup.spawned twoFailures = some _ := rfl
  exact ⟨_, hrun, _, rfl, by decide, (retry_delay_doubles hrun).1 _ rfl⟩

theorem credential_serves_one_cycle_inbox : ∃ w,
    run inboxSetup.step inboxSetup.spawned (fallsBack.take 4) = some w ∧
    w.place.credential = some (.password "right") ∧
    Credentialed inboxSetup (fallsBack.take 4) w := by
  refine ⟨_, rfl, rfl, ?_⟩
  exact credential_serves_one_cycle rfl

theorem announcements_tell_place_inbox : ∃ w,
    run inboxSetup.step inboxSetup.spawned fallsBack = some w ∧
    w.reports.map SyncStateEvent.state = [.idle, .syncing, .idle, .polling, .syncing, .error] ∧
    Announced inboxSetup w := by
  refine ⟨_, rfl, rfl, ?_⟩
  have hrun : run inboxSetup.step inboxSetup.spawned fallsBack = some _ := rfl
  exact announcements_tell_place hrun

theorem worker_stops_iff_inbox : ∃ w,
    run inboxSetup.step inboxSetup.spawned fallsBack = some w ∧ w.place = .stopped ∧
    ∃ a ∈ fallsBack, Fatal a := by
  refine ⟨_, rfl, rfl, ?_⟩
  have hrun : run inboxSetup.step inboxSetup.spawned fallsBack = some _ := rfl
  exact (worker_stops_iff hrun (by simp [fallsBack])).1.mp rfl

theorem cancelled_worker_stops_inbox : ∃ w,
    run inboxSetup.step inboxSetup.spawned (twoFailures.take 2 ++ [.cancel]) = some w ∧
    ∃ v, run inboxSetup.step w [.reconciled (.ok inboxReport), .lookedUp (.ok none)] = some v ∧
      v.place = .stopped ∧
      (resolutions [.reconciled (.ok inboxReport), .lookedUp (.ok none)]).length ≤ 1 := by
  refine ⟨_, rfl, _, rfl, rfl, ?_⟩
  have hrun : run inboxSetup.step inboxSetup.spawned (twoFailures.take 2 ++ [.cancel]) = some _ :=
    rfl
  exact (cancelled_worker_stops hrun (by simp) rfl).2.1

end WorkerSetup

end Postblox.Sync
