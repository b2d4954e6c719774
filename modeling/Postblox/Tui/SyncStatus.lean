import Postblox.Ipc.EventDelivery
import Postblox.Sync.WorkerRuns
import Postblox.Tui.Toasts

/-!
# The sync states that are shown

The parts of the program together: the workers report to the hub, a connection carries the
events and the client applies them one by one. What the client shows of an account is what a
worker of the account reported and, when nothing is lost or under way, where it stands.
-/
namespace Postblox.Tui

open Json (Value Data)
open Lib Lib.Machine
open Ipc (Event EventAction EventSystem Forwarder Hub Topic toData)
open Sync (ErrorTexts ReconcileReport SyncError SyncState SyncStateEvent SyncWorker WorkerAction
  WorkerSetup)
open Db (AccountId)

def syncStateText : SyncState → String
  | .idle => "idle"
  | .polling => "polling"
  | .syncing => "syncing"
  | .error => "error"

/-- The payload of a report; the ids of the accounts are numbers in the database of the model. -/
def reportJson (names : AccountId → Uuid) (event : SyncStateEvent) : Value :=
  .object (("account_id", idValue (names event.accountId)) ::
    event.lastError.toList.map (fun error => ("last_error", Value.string error)) ++
    [("state", .string (syncStateText event.state))])

def reportNotice (names : AccountId → Uuid) (event : SyncStateEvent) : Notice where
  topic := "sync.state"
  data := reportJson names event

def uiState : SyncState → SyncStateUi
  | .idle => .idle
  | .polling => .polling
  | .syncing => .syncing
  | .error => .error

/-- What the client enters for a report. -/
def reportStatus (event : SyncStateEvent) : AccountStatus :=
  .entered (uiState event.state) event.lastError

section Reports

variable {crates : Crates} {names : AccountId → Uuid} {event : SyncStateEvent}

theorem isOrdered_reportJson (names : AccountId → Uuid) (event : SyncStateEvent) :
    (reportJson names event).isOrdered = true := by
  have hplain : ["account_id", "state"].Pairwise (· < ·) := by decide
  have herror : ["account_id", "last_error", "state"].Pairwise (· < ·) := by decide
  rw [reportJson, Value.isOrdered, Bool.and_eq_true, decide_eq_true_iff]
  cases event.lastError with
  | none => exact ⟨hplain, rfl⟩
  | some error => exact ⟨herror, rfl⟩

theorem account_reportNotice :
    (reportNotice names event).uuid crates "account_id" = some (names event.accountId) :=
  uuidValue_idValue crates _

theorem state_reportJson :
    (((reportJson names event).get "state").bind Value.asStr).bind parseSyncStateStr =
      some (uiState event.state) := by
  have htext : (reportJson names event).get "state" =
      some (.string (syncStateText event.state)) := by
    unfold reportJson
    cases event.lastError with
    | none => rfl
    | some error => rfl
  rw [htext]
  cases event.state <;> rfl

theorem error_reportJson :
    ((reportJson names event).get "last_error").bind Value.asStr = event.lastError := by
  unfold reportJson
  cases event.lastError with
  | none => rfl
  | some error => rfl

/-- The client reads a report as it was meant. -/
theorem announce_reportNotice (pane : StatusPane) (now : Nat) :
    pane.announce crates (reportNotice names event) now =
      pane.applySyncState (names event.accountId) (uiState event.state) event.lastError now := by
  have hstate : (((reportNotice names event).data.get "state").bind Value.asStr).bind
      parseSyncStateStr = some (uiState event.state) := state_reportJson
  have herror : ((reportNotice names event).data.get "last_error").bind Value.asStr =
      event.lastError := error_reportJson
  unfold StatusPane.announce
  rw [account_reportNotice]
  dsimp only
  rw [hstate, herror]
  rfl

end Reports

namespace StatusPane

variable {crates : Crates}

/-- What a reported failure does to the toasts. -/
theorem queue_of_failure {names : AccountId → Uuid} {event : SyncStateEvent}
    (herror : event.state = .error) (pane : StatusPane) (now : Nat) :
    (pane.onDaemonEvent crates (reportNotice names event) now).queue =
      pane.queue.coalesceOrPush .error (pane.failureText (names event.accountId) event.lastError)
        now coalesceSyncError := by
  show (pane.announce crates (reportNotice names event) now).queue = _
  rw [announce_reportNotice, herror]
  rfl

def noRoute : SyncStateEvent := ⟨1, .error, some "no route"⟩

end StatusPane

/-! ## The reporters, the hub and the client -/

/-- What `WorkerManager::start` publishes before it spawns the worker. -/
def startReport (setup : WorkerSetup) : SyncStateEvent :=
  ⟨setup.accountId, if setup.idle then .idle else .polling, none⟩

/-- A call of `op_account_sync_folder` from its first report on; a call that is dropped never
gets a result. -/
structure SyncCall where
  accountId : AccountId
  result : Option (Except SyncError ReconcileReport)

/-- What the call publishes at its end. -/
def finishReport (texts : ErrorTexts) (accountId : AccountId) :
    Except SyncError ReconcileReport → SyncStateEvent
  | .ok _ => ⟨accountId, .idle, none⟩
  | .error e => ⟨accountId, .error, some (texts.sync e)⟩

inductive Reporter where
  | worker (setup : WorkerSetup) (w : SyncWorker)
  | call (sync : SyncCall)

namespace Reporter

def account : Reporter → AccountId
  | .worker setup _ => setup.accountId
  | .call sync => sync.accountId

/-- What was published for it so far. -/
def reports (texts : ErrorTexts) : Reporter → List SyncStateEvent
  | .worker setup w => startReport setup :: w.reports
  | .call sync =>
    ⟨sync.accountId, .syncing, none⟩ :: (sync.result.map (finishReport texts sync.accountId)).toList

end Reporter

def reportData (names : AccountId → Uuid) (event : SyncStateEvent) : Data :=
  toData (reportJson names event)

def noticeOf (event : Event) : Notice := ⟨event.topic, event.data.val⟩

/-- All workers and calls that were started, and one client. The history has every report with
the position of its reporter. -/
structure StatusSystem where
  reporters : List Reporter
  reported : List (Nat × SyncStateEvent)
  events : EventSystem
  pane : StatusPane

/-- Whether a worker may be started is up to the manager, when a call may be made to its
client. -/
inductive SystemAction where
  | start (setup : WorkerSetup)
  | worker (i : Nat) (a : WorkerAction)
  | syncFolder (accountId : AccountId)
  | synced (i : Nat) (result : Except SyncError ReconcileReport)
  /-- What else happens at the hub and on the connection. -/
  | events (a : EventAction)
  /-- The client takes its next event. -/
  | next (now : Nat)
  | pane (a : PaneAction)

/-- Neither a report nor the next event of the client. -/
def isAside : EventAction → Bool
  | .publish topic _ => topic ≠ .syncState
  | .connection (.client .nextEvent) => false
  | .recv _ | .forward _ | .connection _ => true

def PaneAction.isEvent : PaneAction → Bool
  | .event .. => true
  | _ => false

namespace StatusSystem

variable (capacity : Nat) (crates : Crates) (texts : ErrorTexts) (names : AccountId → Uuid)

def start : StatusSystem := ⟨[], [], .start, .initial⟩

/-- `publish_sync_state`. -/
def report (i : Nat) (s : StatusSystem) (event : SyncStateEvent) : StatusSystem :=
  { s with
    reported := s.reported ++ [(i, event)]
    events := { s.events with
      hub := s.events.hub.publish capacity .syncState (reportData names event) } }

def step (s : StatusSystem) : SystemAction → Option StatusSystem
  | .start setup =>
    let started := { s with reporters := s.reporters ++ [.worker setup setup.spawned] }
    some (report capacity names s.reporters.length started (startReport setup))
  | .worker i a =>
    match s.reporters[i]? with
    | some (.worker setup w) => (setup.step w a).map fun t =>
      (t.reports.drop w.reports.length).foldl (report capacity names i)
        { s with reporters := s.reporters.set i (.worker setup t) }
    | some (.call _) | none => none
  | .syncFolder accountId =>
    let called := { s with reporters := s.reporters ++ [.call ⟨accountId, none⟩] }
    some (report capacity names s.reporters.length called ⟨accountId, .syncing, none⟩)
  | .synced i result =>
    match s.reporters[i]? with
    | some (.call ⟨accountId, none⟩) =>
      let finished := { s with reporters := s.reporters.set i (.call ⟨accountId, some result⟩) }
      some (report capacity names i finished (finishReport texts accountId result))
    | some (.call ⟨_, some _⟩) | some (.worker ..) | none => none
  | .events a =>
    if isAside a then (s.events.step capacity a).map fun events => { s with events } else none
  | .next now =>
    match s.events.connection.client.events.head? with
    | none => none
    | some event => (s.events.step capacity (.connection (.client .nextEvent))).map fun events =>
      { s with events, pane := s.pane.onDaemonEvent crates (noticeOf event) now }
  | .pane a =>
    if a.isEvent then none else (s.pane.step crates a).map fun pane => { s with pane }

end StatusSystem

/-! ### What a reporter reports -/

/-- The announcements of a worker go with its places. -/
def Reporter.Sound : Reporter → Prop
  | .worker setup w => setup.Announced w
  | .call _ => True

theorem announced_spawned (setup : WorkerSetup) : setup.Announced setup.spawned := by
  refine ⟨⟨?_, ?_, ?_, ?_, ?_, ?_⟩, ⟨rfl, rfl⟩, rfl⟩ <;> simp [WorkerSetup.spawned]

theorem reports_of_step {setup : WorkerSetup} {w t : SyncWorker} {a : WorkerAction}
    (hstep : setup.step w a = some t) :
    t.reports = w.reports ∨ ∃ event, t.reports = w.reports ++ [event] := by
  cases WorkerSetup.step_cases hstep with
  | start =>
    unfold WorkerSetup.runSyncWorker
    split_ifs <;> exact .inr ⟨_, rfl⟩
  | cancel | observe | reconciled | gone | interrupted | idled | wokePause | wokeBackoff =>
    exact .inl rfl
  | resolved | resolveRefused | resolveFailed | polled | reconcileRefused | reconcileFailed | found
  | badPort | lookupFailed | unsupported | idleRefused | idleFailed => exact .inr ⟨_, rfl⟩

namespace Reporter

variable {texts : ErrorTexts} {r : Reporter} {event : SyncStateEvent}

/-- A report is about the account of its reporter. It has a text exactly if it is an error, so
the client never puts in its own. -/
theorem Sound.plain (h : r.Sound) (hevent : event ∈ r.reports texts) :
    event.accountId = r.account ∧ reportStatus event = ⟨uiState event.state, event.lastError⟩ ∧
      (event.state = .error → ∃ text, event.lastError = some text ∧ text ≠ "") := by
  cases r with
  | worker setup w =>
    have hreported := WorkerSetup.Announced.reported h
    rcases List.mem_cons.mp hevent with rfl | hmem
    · cases hidle : setup.idle <;>
        simp [startReport, hidle, account, reportStatus, AccountStatus.entered, uiState]
    · refine ⟨hreported.own event hmem, ?_, hreported.texts event hmem⟩
      by_cases herror : event.state = .error
      · obtain ⟨text, htext, -⟩ := hreported.texts event hmem herror
        simp [reportStatus, AccountStatus.entered, herror, htext, uiState]
      · have hnone := hreported.silent event hmem herror
        cases hstate : event.state <;> simp_all [reportStatus, AccountStatus.entered, uiState]
  | call sync =>
    obtain ⟨accountId, result⟩ := sync
    rcases List.mem_cons.mp hevent with rfl | hmem
    · simp [account, reportStatus, AccountStatus.entered, uiState]
    · cases result with
      | none => cases hmem
      | some result =>
        obtain rfl := List.mem_singleton.mp hmem
        cases result with
        | ok => simp [finishReport, account, reportStatus, AccountStatus.entered, uiState]
        | error e =>
          simp [finishReport, account, reportStatus, AccountStatus.entered, uiState,
            WorkerSetup.sync_text_ne_empty]

/-- Where the reporter is when this was its last report. -/
def StandsAt (texts : ErrorTexts) (event : SyncStateEvent) : Reporter → Prop
  | .worker setup w => w.place = .spawned ∧ event = startReport setup ∨
      WorkerSetup.AnnouncedAt w.polling w.place (some event.state)
  | .call ⟨_, none⟩ => event.state = .syncing
  | .call ⟨accountId, some result⟩ => event = finishReport texts accountId result

theorem Sound.standsAt (h : r.Sound) (hlast : (r.reports texts).getLast? = some event) :
    r.StandsAt texts event := by
  cases r with
  | worker setup w =>
    have hnow := WorkerSetup.Announced.now h
    cases hreports : w.reports with
    | nil =>
      rw [reports, hreports] at hlast
      have hnone : WorkerSetup.lastState w = none := by simp [WorkerSetup.lastState, hreports]
      rw [hnone] at hnow
      refine .inl ⟨?_, (Option.some.inj hlast).symm⟩
      by_contra hplace
      exact WorkerSetup.last_ne_none hnow hplace rfl
    | cons first rest =>
      have hstate : WorkerSetup.lastState w = some event.state := by
        rw [reports, hreports, List.getLast?_cons_cons] at hlast
        rw [WorkerSetup.lastState, hreports, hlast]
        rfl
      exact .inr (hstate ▸ hnow)
  | call sync =>
    obtain ⟨accountId, result⟩ := sync
    cases result with
    | none =>
      obtain rfl := Option.some.inj hlast
      rfl
    | some result => exact (Option.some.inj hlast).symm

end Reporter

/-! ### What a step does -/

namespace StatusSystem

variable (capacity : Nat) (crates : Crates) (texts : ErrorTexts) (names : AccountId → Uuid)

/-- A step of the system; it makes at most one report. -/
inductive SystemStep (s : StatusSystem) : SystemAction → StatusSystem → Prop
  | joins {a : SystemAction} (r : Reporter) (event : SyncStateEvent) (hsound : r.Sound)
      (hreports : r.reports texts = [event]) : SystemStep s a
        (report capacity names s.reporters.length
          { s with reporters := s.reporters ++ [r] } event)
  | silent {a : SystemAction} {i : Nat} {r r' : Reporter} (hr : s.reporters[i]? = some r)
      (hsound : r.Sound → r'.Sound) (hreports : r'.reports texts = r.reports texts) :
      SystemStep s a { s with reporters := s.reporters.set i r' }
  | reports {a : SystemAction} {i : Nat} {r r' : Reporter} (event : SyncStateEvent)
      (hr : s.reporters[i]? = some r) (hsound : r.Sound → r'.Sound)
      (hreports : r'.reports texts = r.reports texts ++ [event]) : SystemStep s a
        (report capacity names i { s with reporters := s.reporters.set i r' } event)
  | events {a : EventAction} {events : EventSystem} (haside : isAside a = true)
      (hstep : s.events.step capacity a = some events) : SystemStep s (.events a) { s with events }
  | next {now : Nat} {event : Event} {events : EventSystem}
      (hfirst : s.events.connection.client.events.head? = some event)
      (hstep : s.events.step capacity (.connection (.client .nextEvent)) = some events) :
      SystemStep s (.next now)
        { s with events, pane := s.pane.onDaemonEvent crates (noticeOf event) now }
  | pane {a : PaneAction} {pane : StatusPane} (hevent : a.isEvent = false)
      (hstep : s.pane.step crates a = some pane) : SystemStep s (.pane a) { s with pane }

variable {capacity : Nat} {crates : Crates} {texts : ErrorTexts} {names : AccountId → Uuid}
variable {s t : StatusSystem} {a : SystemAction} {acts : List SystemAction}

theorem step_cases (hstep : step capacity crates texts names s a = some t) :
    SystemStep capacity crates texts names s a t := by
  cases a with
  | start setup =>
    cases hstep
    exact .joins (.worker setup setup.spawned) _ (announced_spawned setup) rfl
  | worker i a =>
    simp only [step] at hstep
    split at hstep
    · next setup w hw =>
      obtain ⟨t, ht, rfl⟩ := Option.map_eq_some_iff.mp hstep
      have hsound : (Reporter.worker setup w).Sound → (Reporter.worker setup t).Sound :=
        fun h => WorkerSetup.Announced.of_step h (WorkerSetup.step_cases ht)
      rcases reports_of_step ht with hsame | ⟨event, hmore⟩
      · rw [hsame, List.drop_length]
        refine .silent hw hsound ?_
        rw [Reporter.reports, Reporter.reports, hsame]
      · rw [hmore, List.drop_left]
        refine .reports event hw hsound ?_
        rw [Reporter.reports, Reporter.reports, hmore]
        rfl
    · cases hstep
    · cases hstep
  | syncFolder accountId =>
    cases hstep
    exact .joins (.call ⟨accountId, none⟩) _ trivial rfl
  | synced i result =>
    simp only [step] at hstep
    split at hstep
    · next accountId hcall =>
      cases hstep
      exact .reports _ hcall (fun _ => trivial) rfl
    · cases hstep
    · cases hstep
    · cases hstep
  | events a =>
    simp only [step] at hstep
    split_ifs at hstep with haside
    obtain ⟨events, hevents, rfl⟩ := Option.map_eq_some_iff.mp hstep
    exact .events haside hevents
  | next now =>
    simp only [step] at hstep
    split at hstep
    · cases hstep
    · next event hfirst =>
      obtain ⟨events, hevents, rfl⟩ := Option.map_eq_some_iff.mp hstep
      exact .next hfirst hevents
  | pane a =>
    simp only [step] at hstep
    split_ifs at hstep with hevent
    obtain ⟨pane, hpane, rfl⟩ := Option.map_eq_some_iff.mp hstep
    exact .pane (by simpa using hevent) hpane

/-! ### The hub and the connection -/

theorem events_of_step (h : SystemStep capacity crates texts names s a t) :
    t.events = s.events ∨ ∃ ev, s.events.step capacity ev = some t.events := by
  cases h with
  | joins => exact .inr ⟨.publish .syncState _, rfl⟩
  | silent | pane => exact .inl rfl
  | reports => exact .inr ⟨.publish .syncState _, rfl⟩
  | events haside hstep => exact .inr ⟨_, hstep⟩
  | next hfirst hstep => exact .inr ⟨_, hstep⟩

/-- The events see a run of their own, not longer than that of the system. -/
theorem events_run (hrun : run (step capacity crates texts names) start acts = some s) :
    ∃ evs, run (EventSystem.step capacity) .start evs = some s.events ∧
      evs.length ≤ acts.length := by
  refine history_invariant (step capacity crates texts names) (P := fun acts s =>
    ∃ evs, run (EventSystem.step capacity) .start evs = some s.events ∧
      evs.length ≤ acts.length) ⟨[], rfl, le_rfl⟩ ?_ hrun
  intro acts s a t _ ih hstep
  obtain ⟨evs, hevs, hlength⟩ := ih
  rw [List.length_append, List.length_singleton]
  rcases events_of_step (step_cases hstep) with hsame | ⟨ev, hev⟩
  · exact ⟨evs, hsame ▸ hevs, by omega⟩
  · refine ⟨evs ++ [ev], (run_snoc_iff _).mpr ⟨s.events, hevs, hev⟩, ?_⟩
    rw [List.length_append, List.length_singleton]
    omega

theorem delivering_of_run (hcapacity : 0 < capacity) (hroom : acts.length < 2 ^ 64 - 1)
    (hrun : run (step capacity crates texts names) start acts = some s) :
    (∃ n, s.events.Delivering capacity n) ∧ s.events.InOrder := by
  obtain ⟨evs, hevs, hlength⟩ := events_run hrun
  exact ⟨⟨_, EventSystem.delivering_of_run hcapacity (by omega) hevs⟩,
    EventSystem.inOrder_of_run hevs⟩

end StatusSystem

section Events

variable {capacity : Nat} {s t : EventSystem} {a : EventAction}

theorem log_follow (s : EventSystem) (a : Ipc.Action) : (s.follow a).hub.log = s.hub.log := by
  unfold EventSystem.follow
  split
  · unfold EventSystem.subscribe
    split
    · rfl
    · dsimp only
      split_ifs <;> exact Hub.log_openTopic _ _
  · rfl
  · rfl

/-- Only a report is put into the log of the reports. -/
theorem log_of_aside (haside : isAside a = true ∨ a = .connection (.client .nextEvent))
    (hstep : s.step capacity a = some t) : t.hub.log .syncState = s.hub.log .syncState := by
  cases a with
  | publish topic data =>
    cases hstep
    have hne : topic ≠ .syncState := by simpa [isAside] using haside
    rcases Hub.publish_cases capacity s.hub topic data with ⟨-, heq⟩ | ⟨c, -, heq⟩
    · exact congrArg (fun hub => hub.log .syncState) heq
    · rw [heq]
      exact Function.update_of_ne hne.symm _ _
  | recv i =>
    obtain ⟨f, c, r, -, -, -, -, rfl⟩ := EventSystem.recv_step hstep
    rfl
  | forward i =>
    obtain ⟨f, data, connection, -, -, -, rfl⟩ := EventSystem.forward_step hstep
    rfl
  | connection ca =>
    obtain ⟨-, connection, -, rfl⟩ := EventSystem.connection_step hstep
    exact congrFun (log_follow s ca) .syncState

/-- Every event in the mailbox was put there by a forwarder. -/
def Sourced (s : EventSystem) : Prop :=
  ∀ e ∈ s.posted, ∃ f ∈ s.forwarders, f.sub = e.sub ∧ f.topic.asStr = e.topic

theorem mem_set_like {forwarders : List Forwarder} {i : Nat} {f f' g : Forwarder}
    (hf : forwarders[i]? = some f) (hsub : f'.sub = f.sub) (htopic : f'.topic = f.topic)
    (hg : g ∈ forwarders) : ∃ g' ∈ forwarders.set i f', g'.sub = g.sub ∧ g'.topic = g.topic := by
  obtain ⟨j, hj⟩ := List.getElem?_of_mem hg
  obtain ⟨hlt, -⟩ := List.getElem?_eq_some_iff.mp hf
  by_cases hij : i = j
  · subst hij
    rw [hf] at hj
    cases hj
    exact ⟨f', List.mem_of_getElem? (List.getElem?_set_self hlt), hsub, htopic⟩
  · exact ⟨g, List.mem_of_getElem? ((List.getElem?_set_ne hij).trans hj), rfl, rfl⟩

theorem Sourced.set (h : Sourced s) {i : Nat} {f : Forwarder} (f' : Forwarder)
    (hf : s.forwarders[i]? = some f) (hsub : f'.sub = f.sub) (htopic : f'.topic = f.topic) :
    ∀ e ∈ s.posted, ∃ g ∈ s.forwarders.set i f', g.sub = e.sub ∧ g.topic.asStr = e.topic := by
  intro e he
  obtain ⟨g, hg, hgsub, hgtopic⟩ := h e he
  obtain ⟨g', hg', hsub', htopic'⟩ := mem_set_like hf hsub htopic hg
  exact ⟨g', hg', hsub'.trans hgsub, htopic' ▸ hgtopic⟩

theorem Sourced.of_step (h : Sourced s) (hstep : s.step capacity a = some t) : Sourced t := by
  cases a with
  | publish topic data =>
    cases hstep
    exact h
  | recv i =>
    obtain ⟨f, c, r, hf, -, -, -, rfl⟩ := EventSystem.recv_step hstep
    exact h.set _ hf rfl rfl
  | forward i =>
    obtain ⟨f, data, connection, hf, -, -, rfl⟩ := EventSystem.forward_step hstep
    intro e he
    rcases List.mem_append.mp he with he | he
    · exact h.set (f.release) hf rfl rfl e he
    · rw [List.mem_singleton.mp he]
      obtain ⟨hlt, -⟩ := List.getElem?_eq_some_iff.mp hf
      exact ⟨f.release, List.mem_of_getElem? (List.getElem?_set_self hlt), rfl, rfl⟩
  | connection ca =>
    obtain ⟨-, connection, -, rfl⟩ := EventSystem.connection_step hstep
    intro e he
    have he' : e ∈ s.posted := EventSystem.posted_follow s ca ▸ he
    obtain ⟨g, hg, hsub, htopic⟩ := h e he'
    refine ⟨g, ?_, hsub, htopic⟩
    show g ∈ (s.follow ca).forwarders
    rcases EventSystem.forwarders_follow s ca with hsame | ⟨f, -, hmore⟩
    · exact hsame ▸ hg
    · exact hmore ▸ List.mem_append_left _ hg

theorem sourced_of_run {evs : List EventAction}
    (hrun : run (EventSystem.step capacity) .start evs = some s) : Sourced s := by
  refine invariant (EventSystem.step capacity) (I := Sourced) ?_
    (fun _ _ _ h hstep => h.of_step hstep) hrun
  exact fun e he => nomatch he

end Events

namespace StatusSystem

variable {capacity : Nat} {crates : Crates} {texts : ErrorTexts} {names : AccountId → Uuid}
variable {s t : StatusSystem} {a : SystemAction} {acts : List SystemAction}

/-! ### The reports -/

/-- What was reported about one worker. -/
def reportsAbout (reported : List (Nat × SyncStateEvent)) (i : Nat) : List SyncStateEvent :=
  (reported.filter fun p => p.1 = i).map Prod.snd

theorem reportsAbout_snoc (reported : List (Nat × SyncStateEvent)) (i j : Nat)
    (event : SyncStateEvent) : reportsAbout (reported ++ [(i, event)]) j =
      reportsAbout reported j ++ if i = j then [event] else [] := by
  unfold reportsAbout
  rw [List.filter_append, List.map_append]
  by_cases hij : i = j <;> simp [hij]

/-- What was reported about a reporter is its reports. The log of the topic is the end of all
reports, from where the topic was opened. -/
structure Told (texts : ErrorTexts) (names : AccountId → Uuid) (s : StatusSystem) : Prop where
  sound : ∀ (i : Nat) r, s.reporters[i]? = some r → r.Sound
  told : ∀ (i : Nat) r, s.reporters[i]? = some r → reportsAbout s.reported i = r.reports texts
  known : ∀ p ∈ s.reported, p.1 < s.reporters.length
  logged : ∃ early late, s.reported = early ++ late ∧
    s.events.hub.log .syncState = late.map fun p => reportData names p.2

/-- One more report. -/
theorem logged_report (hlogged : ∃ early late, s.reported = early ++ late ∧
      s.events.hub.log .syncState = late.map fun p => reportData names p.2)
    (hclosed : s.events.hub.channels .syncState = none → s.events.hub.log .syncState = [])
    (i : Nat) (event : SyncStateEvent) :
    ∃ early late, s.reported ++ [(i, event)] = early ++ late ∧
      (s.events.hub.publish capacity .syncState (reportData names event)).log .syncState =
        late.map fun p => reportData names p.2 := by
  obtain ⟨early, late, hsplit, hlog⟩ := hlogged
  rcases Hub.publish_cases capacity s.events.hub .syncState (reportData names event) with
    ⟨hnone, heq⟩ | ⟨c, -, heq⟩
  · refine ⟨s.reported ++ [(i, event)], [], (List.append_nil _).symm, ?_⟩
    rw [heq, hclosed hnone]
    rfl
  · refine ⟨early, late ++ [(i, event)], by rw [hsplit, List.append_assoc], ?_⟩
    rw [heq, List.map_append, ← hlog]
    simp only [Function.update_self, List.map_singleton]

theorem Told.joins (h : s.Told texts names)
    (hclosed : s.events.hub.channels .syncState = none → s.events.hub.log .syncState = [])
    {r : Reporter} {event : SyncStateEvent} (hsound : r.Sound)
    (hreports : r.reports texts = [event]) : Told texts names
      (report capacity names s.reporters.length
        { s with reporters := s.reporters ++ [r] } event) := by
  have hrow : ∀ (i : Nat) r', (s.reporters ++ [r])[i]? = some r' →
      s.reporters[i]? = some r' ∧ i ≠ s.reporters.length ∨ i = s.reporters.length ∧ r' = r := by
    intro i r' hi
    by_cases hlt : i < s.reporters.length
    · rw [List.getElem?_append_left hlt] at hi
      exact .inl ⟨hi, hlt.ne⟩
    · rw [List.getElem?_append_right (Nat.le_of_not_lt hlt)] at hi
      rw [List.getElem?_singleton] at hi
      split_ifs at hi with hzero
      exact .inr ⟨by omega, (Option.some.inj hi).symm⟩
  have hempty : reportsAbout s.reported s.reporters.length = [] := by
    rw [reportsAbout, List.map_eq_nil_iff, List.filter_eq_nil_iff]
    intro p hp
    have hlt := h.known p hp
    simp only [decide_eq_true_eq]
    omega
  refine ⟨fun i r' hi => ?_, fun i r' hi => ?_, fun p hp => ?_,
    logged_report (s := { s with reporters := s.reporters ++ [r] }) h.logged hclosed _ _⟩
  · rcases hrow i r' hi with ⟨hold, -⟩ | ⟨-, rfl⟩
    · exact h.sound i r' hold
    · exact hsound
  · show reportsAbout (s.reported ++ [(s.reporters.length, event)]) i = _
    rw [reportsAbout_snoc]
    rcases hrow i r' hi with ⟨hold, hne⟩ | ⟨rfl, rfl⟩
    · rw [if_neg hne.symm, List.append_nil]
      exact h.told i r' hold
    · rw [hempty, if_pos rfl, hreports]
      rfl
  · have hp' : p ∈ s.reported ++ [(s.reporters.length, event)] := hp
    show p.1 < (s.reporters ++ [r]).length
    rw [List.length_append, List.length_singleton]
    rcases List.mem_append.mp hp' with hp' | hp'
    · exact (h.known p hp').trans (Nat.lt_succ_self _)
    · rw [List.mem_singleton.mp hp']
      exact Nat.lt_succ_self _

/-- A reporter after one of them has gone on. -/
theorem row_of_set {reporters : List Reporter} {i j : Nat} {r r' : Reporter}
    (hj : (reporters.set i r')[j]? = some r) :
    i = j ∧ r = r' ∨ i ≠ j ∧ reporters[j]? = some r := by
  rw [List.getElem?_set] at hj
  split_ifs at hj with hij hlt
  · exact .inl ⟨hij, (Option.some.inj hj).symm⟩
  · exact .inr ⟨hij, hj⟩

theorem Told.silent (h : s.Told texts names) {i : Nat} {r r' : Reporter}
    (hr : s.reporters[i]? = some r) (hsound : r.Sound → r'.Sound)
    (hreports : r'.reports texts = r.reports texts) :
    Told texts names { s with reporters := s.reporters.set i r' } where
  sound := fun j q hj => by
    rcases row_of_set hj with ⟨rfl, rfl⟩ | ⟨-, hj⟩
    · exact hsound (h.sound i r hr)
    · exact h.sound j q hj
  told := fun j q hj => by
    rcases row_of_set hj with ⟨rfl, rfl⟩ | ⟨-, hj⟩
    · rw [hreports]
      exact h.told i r hr
    · exact h.told j q hj
  known := fun p hp => by
    rw [List.length_set]
    exact h.known p hp
  logged := h.logged

theorem Told.reports (h : s.Told texts names)
    (hclosed : s.events.hub.channels .syncState = none → s.events.hub.log .syncState = [])
    {i : Nat} {r r' : Reporter} {event : SyncStateEvent} (hr : s.reporters[i]? = some r)
    (hsound : r.Sound → r'.Sound) (hreports : r'.reports texts = r.reports texts ++ [event]) :
    Told texts names
      (report capacity names i { s with reporters := s.reporters.set i r' } event) := by
  refine ⟨fun j q hj => ?_, fun j q hj => ?_, fun p hp => ?_,
    logged_report (s := { s with reporters := s.reporters.set i r' }) h.logged hclosed _ _⟩
  · rcases row_of_set hj with ⟨rfl, rfl⟩ | ⟨-, hj⟩
    · exact hsound (h.sound i r hr)
    · exact h.sound j q hj
  · show reportsAbout (s.reported ++ [(i, event)]) j = _
    rw [reportsAbout_snoc]
    rcases row_of_set hj with ⟨rfl, rfl⟩ | ⟨hij, hj⟩
    · rw [if_pos rfl, h.told i r hr, hreports]
    · rw [if_neg hij, List.append_nil]
      exact h.told j q hj
  · have hp' : p ∈ s.reported ++ [(i, event)] := hp
    show p.1 < (s.reporters.set i r').length
    rw [List.length_set]
    rcases List.mem_append.mp hp' with hp' | hp'
    · exact h.known p hp'
    · rw [List.mem_singleton.mp hp']
      exact (List.getElem?_eq_some_iff.mp hr).1

/-- Nothing is reported. -/
theorem Told.quiet (h : s.Told texts names) {events : EventSystem}
    (hlog : events.hub.log .syncState = s.events.hub.log .syncState) (pane : StatusPane) :
    Told texts names { s with events, pane } where
  sound := h.sound
  told := h.told
  known := h.known
  logged := by
    obtain ⟨early, late, hsplit, hlate⟩ := h.logged
    exact ⟨early, late, hsplit, hlog.trans hlate⟩

theorem Told.of_step (h : s.Told texts names)
    (hclosed : s.events.hub.channels .syncState = none → s.events.hub.log .syncState = [])
    (hstep : SystemStep capacity crates texts names s a t) : t.Told texts names := by
  cases hstep with
  | joins r event hsound hreports => exact h.joins hclosed hsound hreports
  | silent hr hsound hreports => exact h.silent hr hsound hreports
  | reports event hr hsound hreports => exact h.reports hclosed hr hsound hreports
  | events haside hstep => exact h.quiet (log_of_aside (.inl haside) hstep) s.pane
  | next hfirst hstep => exact h.quiet (log_of_aside (.inr rfl) hstep) _
  | pane hevent hstep => exact h.quiet rfl _

theorem told_of_run (hcapacity : 0 < capacity) (hroom : acts.length < 2 ^ 64 - 1)
    (hrun : run (step capacity crates texts names) start acts = some s) : s.Told texts names := by
  revert hroom
  refine history_invariant (step capacity crates texts names) (P := fun acts s =>
    acts.length < 2 ^ 64 - 1 → s.Told texts names) ?_ ?_ hrun
  · intro _
    refine ⟨fun i r hi => ?_, fun i r hi => ?_, fun p hp => ?_, ⟨[], [], rfl, rfl⟩⟩
    · cases hi
    · cases hi
    · cases hp
  · intro acts s a t hreach ih hstep hroom
    rw [List.length_append, List.length_singleton] at hroom
    obtain ⟨⟨n, hdelivering⟩, -⟩ := delivering_of_run hcapacity (by omega) hreach
    exact (ih (by omega)).of_step (hdelivering.sound.closed .syncState) (step_cases hstep)

end StatusSystem

/-! ### What the client enters -/

/-- What a notice says about an account. -/
def noticeStatus (crates : Crates) (account : Uuid) (notice : Notice) : Option AccountStatus :=
  if notice.topic = "sync.state" ∧ notice.uuid crates "account_id" = some account then
    (((notice.data.get "state").bind Value.asStr).bind parseSyncStateStr).map fun state =>
      .entered state ((notice.data.get "last_error").bind Value.asStr)
  else none

section Entered

variable {capacity : Nat} {crates : Crates} {names : AccountId → Uuid} {account : Uuid}

theorem accountStates_onDaemonEvent (pane : StatusPane) (notice : Notice) (now : Nat) :
    (pane.onDaemonEvent crates notice now).accountStates account =
      (noticeStatus crates account notice).or (pane.accountStates account) := by
  show (pane.announce crates notice now).accountStates account = _
  unfold StatusPane.announce noticeStatus
  cases hid : notice.uuid crates "account_id" with
  | none => simp
  | some id =>
    dsimp only
    split_ifs with hmail hcase hsynced hcase hsync hcase hcase
    · rw [hmail] at hcase
      exact absurd hcase.1 (by decide)
    · rfl
    · rw [hsynced] at hcase
      exact absurd hcase.1 (by decide)
    · rfl
    · obtain rfl : id = account := by simpa using hcase.2
      cases ((notice.data.get "state").bind Value.asStr).bind parseSyncStateStr with
      | none => rfl
      | some state => simp [StatusPane.applySyncState]
    · have hne : account ≠ id := fun heq => hcase ⟨hsync, by rw [heq]⟩
      cases ((notice.data.get "state").bind Value.asStr).bind parseSyncStateStr with
      | none => rfl
      | some state => simp [StatusPane.applySyncState, Function.update_of_ne hne]
    · exact absurd hcase.1 hsync
    · rfl

/-- Apart from events only a new list of the accounts changes a state, and it only takes one
away. -/
theorem accountStates_of_step (account : Uuid) {pane pane' : StatusPane} {a : PaneAction}
    (hevent : a.isEvent = false) (hstep : pane.step crates a = some pane') :
    pane'.accountStates account = pane.accountStates account ∨
      pane'.accountStates account = none ∧
        ∃ accounts, a = .accounts accounts ∧ account ∉ accounts.map (·.id) := by
  cases a with
  | event => cases hevent
  | accounts accounts =>
    cases hstep
    by_cases hmem : account ∈ accounts.map (·.id)
    · exact .inl (if_pos hmem)
    · exact .inr ⟨if_neg hmem, accounts, rfl, hmem⟩
  | panes app =>
    simp only [StatusPane.step] at hstep
    split_ifs at hstep
    cases hstep
    exact .inl rfl
  | tick | dismiss | clear | toast | refuse =>
    cases hstep
    exact .inl rfl

theorem noticeStatus_report (names : AccountId → Uuid) (event : SyncStateEvent) :
    noticeStatus crates account ⟨"sync.state", (reportData names event).val⟩ =
      if names event.accountId = account then some (reportStatus event) else none := by
  have hdata : (reportData names event).val = reportJson names event :=
    Json.Value.ofContent_of_isOrdered _ (isOrdered_reportJson names event)
  have hid : Notice.uuid crates ⟨"sync.state", reportJson names event⟩ "account_id" =
      some (names event.accountId) := account_reportNotice
  unfold noticeStatus
  rw [hdata, hid, state_reportJson, error_reportJson]
  by_cases hname : names event.accountId = account
  · simp [hname, reportStatus]
  · simp [hname]

/-- A count of lost values says nothing about an account. -/
theorem noticeStatus_lagged (missed : Nat) :
    noticeStatus crates account ⟨"sync.state", (Ipc.eventData (.lagged missed)).val⟩ = none := by
  unfold noticeStatus
  rw [if_neg]
  rintro ⟨-, hid⟩
  cases hid

/-- What the events say about an account, in order. -/
def statusesIn (crates : Crates) (account : Uuid) (taken : List Event) : List AccountStatus :=
  taken.filterMap fun event => noticeStatus crates account (noticeOf event)

theorem taken_of_aside {s t : EventSystem} {a : EventAction} (haside : isAside a = true)
    (hstep : s.step capacity a = some t) : t.taken = s.taken := by
  cases a with
  | publish topic data =>
    cases hstep
    rfl
  | recv i =>
    obtain ⟨f, c, r, -, -, -, -, rfl⟩ := EventSystem.recv_step hstep
    rfl
  | forward i =>
    obtain ⟨f, data, connection, -, -, -, rfl⟩ := EventSystem.forward_step hstep
    rfl
  | connection ca =>
    obtain ⟨-, connection, -, rfl⟩ := EventSystem.connection_step hstep
    refine EventSystem.taken_follow s ?_
    rintro rfl
    cases haside

theorem taken_of_next {s t : EventSystem} {event : Event}
    (hfirst : s.connection.client.events.head? = some event)
    (hstep : s.step capacity (.connection (.client .nextEvent)) = some t) :
    t.taken = s.taken ++ [event] := by
  obtain ⟨-, connection, -, rfl⟩ := EventSystem.connection_step hstep
  show s.taken ++ s.connection.client.events.head?.toList = _
  rw [hfirst]
  rfl

end Entered

namespace StatusSystem

variable {capacity : Nat} {crates : Crates} {names : AccountId → Uuid} {s t : StatusSystem}
variable {a : SystemAction} {acts : List SystemAction} {account : Uuid}

/-- Every list of the accounts has the account. -/
def Listed (account : Uuid) (acts : List SystemAction) : Prop :=
  ∀ accounts, .pane (.accounts accounts) ∈ acts → account ∈ accounts.map (·.id)

/-- What is shown of an account is from an event, and from the last one about it if no list of
the accounts took it away. -/
structure Tells (crates : Crates) (account : Uuid) (acts : List SystemAction) (s : StatusSystem) :
    Prop where
  sound : ∀ status, s.pane.accountStates account = some status →
    status ∈ statusesIn crates account s.events.taken
  last : Listed account acts →
    s.pane.accountStates account = (statusesIn crates account s.events.taken).getLast?

theorem Listed.before (h : Listed account (acts ++ [a])) : Listed account acts :=
  fun accounts hmem => h accounts (List.mem_append_left _ hmem)

theorem Tells.congr (h : s.Tells crates account acts)
    (hpane : t.pane.accountStates account = s.pane.accountStates account)
    (htaken : t.events.taken = s.events.taken) : t.Tells crates account (acts ++ [a]) where
  sound := fun status hstatus => by
    rw [htaken]
    exact h.sound status (hpane ▸ hstatus)
  last := fun hlisted => by
    rw [htaken, hpane]
    exact h.last hlisted.before

theorem Tells.of_step (h : s.Tells crates account acts)
    (hstep : SystemStep capacity crates texts names s a t) : t.Tells crates account (acts ++ [a]) := by
  cases hstep with
  | joins | silent | reports => exact h.congr rfl rfl
  | events haside hstep => exact h.congr rfl (taken_of_aside haside hstep)
  | @next now event events hfirst hstep =>
    have htaken := taken_of_next hfirst hstep
    have hall : statusesIn crates account events.taken =
        statusesIn crates account s.events.taken ++
          (noticeStatus crates account (noticeOf event)).toList := by
      rw [htaken, statusesIn, List.filterMap_append]
      cases hnotice : noticeStatus crates account (noticeOf event) <;> simp [hnotice, statusesIn]
    refine ⟨fun status hstatus => ?_, fun hlisted => ?_⟩
    · show status ∈ statusesIn crates account events.taken
      rw [hall]
      have hstatus' := (accountStates_onDaemonEvent s.pane (noticeOf event) now).symm.trans hstatus
      rcases Option.or_eq_some_iff.mp hstatus' with hnew | ⟨-, hold⟩
      · exact List.mem_append_right _ (by simp [hnew])
      · exact List.mem_append_left _ (h.sound status hold)
    · show (s.pane.onDaemonEvent crates (noticeOf event) now).accountStates account =
        (statusesIn crates account events.taken).getLast?
      rw [hall, accountStates_onDaemonEvent, h.last hlisted.before]
      cases noticeStatus crates account (noticeOf event) <;> simp
  | pane hevent hstep =>
    rcases accountStates_of_step account hevent hstep with
      hsame | ⟨hnone, accounts, rfl, hmem⟩
    · exact h.congr hsame rfl
    · refine ⟨fun status hstatus => ?_, fun hlisted => ?_⟩
      · cases hnone.symm.trans hstatus
      · exact absurd (hlisted accounts (by simp)) hmem

theorem tells_of_run (account : Uuid)
    (hrun : run (step capacity crates texts names) start acts = some s) :
    s.Tells crates account acts := by
  refine history_invariant (step capacity crates texts names)
    (P := fun acts s => s.Tells crates account acts) ⟨?_, fun _ => rfl⟩
    (fun acts s a t _ h hstep => h.of_step (step_cases hstep)) hrun
  exact fun status hstatus => nomatch hstatus

/-! ### What is shown was reported -/

/-- An entry of the history is a report of its reporter. -/
theorem Told.row (h : s.Told texts names) {p : Nat × SyncStateEvent} (hp : p ∈ s.reported) :
    ∃ r, s.reporters[p.1]? = some r ∧ p.2 ∈ r.reports texts := by
  obtain ⟨r, hr⟩ : ∃ r, s.reporters[p.1]? = some r :=
    ⟨_, List.getElem?_eq_getElem (h.known p hp)⟩
  have hmem : p.2 ∈ reportsAbout s.reported p.1 :=
    List.mem_map_of_mem (List.mem_filter.mpr ⟨hp, by simp⟩)
  exact ⟨r, hr, h.told p.1 r hr ▸ hmem⟩

theorem topic_of_asStr {topic : Topic} (h : topic.asStr = "sync.state") : topic = .syncState := by
  cases topic <;> first | rfl | exact absurd h (by decide)

theorem topic_of_noticeStatus {notice : Notice} {status : AccountStatus}
    (h : noticeStatus crates account notice = some status) : notice.topic = "sync.state" := by
  unfold noticeStatus at h
  split_ifs at h with hcase
  exact hcase.1

/-- In every run, whatever is lost on the way, the state that is shown of an account was
reported by a worker of this account or by a sync of one of its folders, with the text that
was reported and no other. -/
theorem shown_was_reported (hcapacity : 0 < capacity) (hroom : acts.length < 2 ^ 64 - 1)
    (hrun : run (step capacity crates texts names) start acts = some s) {status : AccountStatus}
    (hshown : s.pane.accountStates account = some status) :
    ∃ (i : Nat) (r : Reporter) (event : SyncStateEvent), s.reporters[i]? = some r ∧
      names r.account = account ∧ event ∈ r.reports texts ∧
      status = ⟨uiState event.state, event.lastError⟩ ∧
      (event.state = .error → ∃ text, event.lastError = some text ∧ text ≠ "") := by
  obtain ⟨⟨n, hdelivering⟩, horder⟩ := delivering_of_run hcapacity hroom hrun
  obtain ⟨evs, hevs, -⟩ := events_run hrun
  have htold : s.Told texts names := told_of_run hcapacity hroom hrun
  obtain ⟨e, htaken, hstatus⟩ :=
    List.mem_filterMap.mp ((tells_of_run account hrun).sound status hshown)
  have hposted : e ∈ s.events.posted := horder.kept.subset (List.mem_append_left _ htaken)
  have htopic : e.topic = "sync.state" := topic_of_noticeStatus hstatus
  obtain ⟨f, hf, hsub, hftopic⟩ := sourced_of_run hevs e hposted
  obtain ⟨i, hi⟩ := List.getElem?_of_mem hf
  have hdelivers := hdelivering.delivers i f hi
  have hsync : f.topic = .syncState := topic_of_asStr (hftopic.trans htopic)
  -- The payload is what the forwarder of the topic got from the hub.
  have hgot : e.data ∈ f.got.map Ipc.eventData := by
    rw [hdelivers.posts]
    refine List.mem_append_left _ (List.mem_map_of_mem (List.mem_filter.mpr ⟨hposted, ?_⟩))
    simp [hsub]
  obtain ⟨r, hr, hdata⟩ := List.mem_map.mp hgot
  have hnotice : noticeStatus crates account ⟨"sync.state", e.data.val⟩ = some status :=
    htopic ▸ hstatus
  cases r with
  | lagged missed =>
    rw [← hdata, noticeStatus_lagged] at hnotice
    cases hnotice
  | value data =>
    have hvalue : data ∈ Accounts.values f.got := List.mem_filterMap.mpr ⟨_, hr, rfl⟩
    have hstretch := hdelivers.accounts.values_sublist.subset hvalue
    have hlog : data ∈ s.events.hub.log .syncState := by
      rw [← hsync]
      exact List.mem_of_mem_take (List.mem_of_mem_drop hstretch)
    obtain ⟨early, late, hsplit, hlate⟩ := htold.logged
    rw [hlate] at hlog
    obtain ⟨p, hp, rfl⟩ := List.mem_map.mp hlog
    have hreport : noticeStatus crates account ⟨"sync.state", (reportData names p.2).val⟩ =
        some status := by
      rw [← hdata] at hnotice
      exact hnotice
    rw [noticeStatus_report] at hreport
    split_ifs at hreport with hname
    have hreported : p ∈ s.reported := hsplit ▸ List.mem_append_right _ hp
    obtain ⟨r, hr, hmem⟩ := htold.row hreported
    obtain ⟨hown, hplain, htext⟩ := (htold.sound p.1 r hr).plain hmem
    refine ⟨p.1, r, p.2, hr, hown ▸ hname, hmem, ?_, htext⟩
    rw [← hplain]
    exact (Option.some.inj hreport).symm

/-! ### What is shown is where the worker stands -/

/-- What was reported since a subscription to the topic. -/
def heard (s : StatusSystem) (f : Forwarder) : List (Nat × SyncStateEvent) :=
  s.reported.drop (s.reported.length - (s.events.hub.log .syncState).length + f.start)

theorem Told.heard_eq (h : s.Told texts names) (f : Forwarder) :
    (s.events.hub.log .syncState).drop f.start =
      (s.heard f).map fun p => reportData names p.2 := by
  obtain ⟨early, late, hsplit, hlog⟩ := h.logged
  have hstart : s.reported.length - (s.events.hub.log .syncState).length + f.start =
      early.length + f.start := by
    rw [hsplit, hlog, List.length_append, List.length_map]
    omega
  have hfront : early.drop (early.length + f.start) = [] := List.drop_eq_nil_of_le (by omega)
  rw [heard, hstart, hsplit, List.drop_append, hfront, hlog, ← List.map_drop, List.nil_append,
    Nat.add_sub_cancel_left]

/-- The reports about an account, in order. -/
def aboutAccount (names : AccountId → Uuid) (account : Uuid)
    (reported : List (Nat × SyncStateEvent)) : List (Nat × SyncStateEvent) :=
  reported.filter fun p => names p.2.accountId = account

theorem filterMap_reports (reported : List (Nat × SyncStateEvent)) :
    (reported.map fun p => reportData names p.2).filterMap (fun data =>
        noticeStatus crates account ⟨"sync.state", data.val⟩) =
      (aboutAccount names account reported).map fun p => reportStatus p.2 := by
  induction reported with
  | nil => rfl
  | cons p rest ih =>
    rw [List.map_cons, List.filterMap_cons, noticeStatus_report]
    unfold aboutAccount at ih ⊢
    by_cases hname : names p.2.accountId = account <;> simp [hname, ih]

/-- The last report about an account is the last of its reporter. -/
theorem Told.last_stands (h : s.Told texts names) {front : List (Nat × SyncStateEvent)}
    {p : Nat × SyncStateEvent} (hlast : aboutAccount names account s.reported = front ++ [p]) :
    ∃ r, s.reporters[p.1]? = some r ∧ names r.account = account ∧ r.StandsAt texts p.2 := by
  have hp : p ∈ aboutAccount names account s.reported := by simp [hlast]
  obtain ⟨hreported, hname⟩ := List.mem_filter.mp hp
  obtain ⟨r, hr, hmem⟩ := h.row hreported
  have hsound := h.sound p.1 r hr
  have hnames : names r.account = account := by
    rw [← (hsound.plain hmem).1]
    exact of_decide_eq_true hname
  refine ⟨r, hr, hnames, hsound.standsAt ?_⟩
  -- Every report of the reporter is about the account.
  have hsub : s.reported.filter (fun q => q.1 = p.1) =
      (aboutAccount names account s.reported).filter fun q => q.1 = p.1 := by
    unfold aboutAccount
    rw [List.filter_filter]
    refine List.filter_congr fun q hq => ?_
    obtain ⟨r', hr', hmem'⟩ := h.row hq
    by_cases hsame : q.1 = p.1
    · rw [hsame, hr] at hr'
      cases hr'
      simp [hsame, (hsound.plain hmem').1, hnames]
    · simp [hsame]
  have hall := h.told p.1 r hr
  rw [reportsAbout, hsub, hlast, List.filter_append, List.map_append] at hall
  rw [← hall]
  simp

/-- The events that say something about the accounts come from the one subscription. -/
theorem sub_of_noticeStatus {f : Forwarder} (hsourced : Sourced s.events)
    (honly : ∀ g ∈ s.events.forwarders, g.topic = .syncState → g.sub = f.sub) {e : Event}
    (he : e ∈ s.events.posted) {status : AccountStatus}
    (hstatus : noticeStatus crates account (noticeOf e) = some status) : e.sub = f.sub := by
  obtain ⟨g, hg, hsub, htopic⟩ := hsourced e he
  rw [← hsub]
  exact honly g hg (topic_of_asStr (htopic.trans (topic_of_noticeStatus hstatus)))

/-- Once a client with one subscription to the topic has taken all there is, and no gap was
reported to it, it shows for every account what was reported last since it subscribed, and
that is where the reporter stands: the worker at the place that goes with it, the call of a
sync before or at its end. -/
theorem status_shows_place (hcapacity : 0 < capacity) (hroom : acts.length < 2 ^ 64 - 1)
    (hrun : run (step capacity crates texts names) start acts = some s) (hlisted : Listed account acts)
    {i : Nat} {f : Forwarder} (hf : s.events.forwarders[i]? = some f) (htopic : f.topic = .syncState)
    (honly : ∀ g ∈ s.events.forwarders, g.topic = .syncState → g.sub = f.sub)
    (hgapless : ∀ missed, .lagged missed ∉ f.got) (hheld : f.held = none)
    (hcursor : f.cursor = (s.events.hub.log .syncState).length)
    (hintact : s.events.connection.intact = true)
    (hway : s.events.connection.onTheWay.filter (·.sub = f.sub) = []) :
    s.pane.accountStates account =
      (aboutAccount names account (s.heard f)).getLast?.map (fun p => reportStatus p.2) ∧
    ∀ p ∈ (aboutAccount names account (s.heard f)).getLast?, ∃ r,
      s.reporters[p.1]? = some r ∧ names r.account = account ∧ r.StandsAt texts p.2 := by
  obtain ⟨⟨n, hdelivering⟩, horder⟩ := delivering_of_run hcapacity hroom hrun
  obtain ⟨evs, hevs, -⟩ := events_run hrun
  have htold : s.Told texts names := told_of_run hcapacity hroom hrun
  have hdelivers := hdelivering.delivers i f hf
  -- What was taken from the subscription is the log from its start.
  have hposted : s.events.postedFor f.sub = s.events.taken.filter (·.sub = f.sub) := by
    rw [EventSystem.postedFor, ← horder.whole hintact, List.filter_append, hway, List.append_nil]
  have hdata : (s.events.taken.filter (·.sub = f.sub)).map Event.data =
      (s.heard f).map fun p => reportData names p.2 := by
    have hposts := hdelivers.posts
    rw [hheld, Option.toList_none, List.append_nil, hposted,
      hdelivers.accounts.eq_of_no_lag hgapless, List.map_map, hcursor, htopic] at hposts
    rw [← hposts, ← htold.heard_eq, stretch, List.take_length]
    exact List.map_id _
  have hstatuses : statusesIn crates account s.events.taken =
      (aboutAccount names account (s.heard f)).map fun p => reportStatus p.2 := by
    have hown : statusesIn crates account s.events.taken =
        statusesIn crates account (s.events.taken.filter (·.sub = f.sub)) := by
      unfold statusesIn
      rw [List.filterMap_filter]
      refine List.filterMap_congr fun e he => ?_
      cases hstatus : noticeStatus crates account (noticeOf e) with
      | none => simp
      | some status =>
        have he' := horder.kept.subset (List.mem_append_left _ he)
        simp [sub_of_noticeStatus (sourced_of_run hevs) honly he' hstatus]
    have hsame : statusesIn crates account (s.events.taken.filter (·.sub = f.sub)) =
        ((s.events.taken.filter (·.sub = f.sub)).map Event.data).filterMap fun data =>
          noticeStatus crates account ⟨"sync.state", data.val⟩ := by
      rw [List.filterMap_map]
      refine List.filterMap_congr fun e he => ?_
      have htopic' := hdelivers.topics e (hposted ▸ he)
      rw [htopic] at htopic'
      show noticeStatus crates account ⟨e.topic, e.data.val⟩ = _
      rw [htopic']
      rfl
    rw [hown, hsame, hdata, filterMap_reports]
  refine ⟨?_, fun p hp => ?_⟩
  · rw [(tells_of_run account hrun).last hlisted, hstatuses, List.getLast?_map]
  · obtain ⟨front, hfront⟩ := List.getLast?_eq_some_iff.mp (Option.mem_def.mp hp)
    obtain ⟨earlier, hsplit⟩ : ∃ earlier, s.reported = earlier ++ s.heard f :=
      ⟨_, (List.take_append_drop _ _).symm⟩
    have hlast : aboutAccount names account s.reported =
        (aboutAccount names account earlier ++ front) ++ [p] := by
      rw [List.append_assoc, ← hfront, hsplit]
      exact List.filter_append _ _
    exact htold.last_stands hlast

/-! One account whose first sync times out, and a client that was there before. -/

def syncTopic : Data := toData (.object [("topic", .string "sync.state")])
def syncArgs : Ipc.Request := ⟨1, "subscribe", syncTopic⟩
def syncReply : Ipc.Response :=
  .success 1 (toData (.object [("sub_id", Ipc.u64 1), ("topic", .string "sync.state")]))

def watching : List SystemAction :=
  [.events (.connection (.client (.request "subscribe" syncTopic))),
    .events (.connection (.client .write)), .events (.connection .receive),
    .events (.connection (.poll syncArgs)), .events (.connection (.respond syncArgs syncReply)),
    .events (.connection .write), .events (.connection (.client .read)),
    .events (.connection (.client .finish)), .start WorkerSetup.inboxSetup]

/-- The way of one report. -/
def delivery (now : Nat) : List SystemAction :=
  [.events (.recv 0), .events (.forward 0), .events (.connection .write),
    .events (.connection (.client .read)), .events (.connection (.client .push)), .next now]

def timesOut : List SystemAction :=
  watching ++ [.worker 0 .start, .worker 0 (.resolved (.ok (.password "right"))),
      .worker 0 (.reconciled (.error (.imap (.timeout "login"))))] ++
    delivery 1 ++ delivery 2 ++ delivery 3 ++ delivery 4

def oneName : AccountId → Uuid := fun _ => .filled 1

theorem shown_was_reported_start : ∃ s,
    run (step Ipc.defaultTopicCapacity .plain WorkerSetup.inboxSetup.texts oneName) start
      (watching ++ delivery 1) = some s ∧
    s.pane.accountStates (.filled 1) = some ⟨.idle, none⟩ ∧
    ∃ (i : Nat) (r : Reporter) (event : SyncStateEvent), s.reporters[i]? = some r ∧
      oneName r.account = .filled 1 ∧ event ∈ r.reports WorkerSetup.inboxSetup.texts ∧
      (⟨.idle, none⟩ : AccountStatus) = ⟨uiState event.state, event.lastError⟩ := by
  obtain ⟨s, hrun, htaken⟩ : ∃ s,
      run (step Ipc.defaultTopicCapacity .plain WorkerSetup.inboxSetup.texts oneName) start
        (watching ++ delivery 1) = some s ∧
      s.events.taken =
        [⟨1, "sync.state", reportData oneName (startReport WorkerSetup.inboxSetup)⟩] :=
    ⟨_, rfl, rfl⟩
  have hlisted : Listed (.filled 1) (watching ++ delivery 1) := by
    intro accounts hmem
    simp [watching, delivery] at hmem
  have hshown : s.pane.accountStates (.filled 1) = some ⟨.idle, none⟩ := by
    rw [(tells_of_run (.filled 1) hrun).last hlisted, htaken, statusesIn, List.filterMap_cons,
      List.filterMap_nil, noticeOf, noticeStatus_report]
    rfl
  obtain ⟨i, r, event, hr, hname, hmem, hstatus, -⟩ :=
    shown_was_reported (by decide) (by decide) hrun hshown
  exact ⟨s, hrun, hshown, i, r, event, hr, hname, hmem, hstatus⟩

theorem status_shows_place_timeout : ∃ s,
    run (step Ipc.defaultTopicCapacity .plain WorkerSetup.inboxSetup.texts oneName) start
      timesOut = some s ∧
    s.pane.accountStates (.filled 1) = some ⟨.error, some "imap: timed out: login"⟩ := by
  refine ⟨_, rfl, ?_⟩
  have hrun : run (step Ipc.defaultTopicCapacity .plain WorkerSetup.inboxSetup.texts oneName)
      start timesOut = some _ := rfl
  have hlisted : Listed (.filled 1) timesOut := by
    intro accounts hmem
    simp [timesOut, watching, delivery] at hmem
  have hshown := @status_shows_place _ _ _ _ _ _ _ (by decide) (by decide) hrun hlisted 0 _ rfl rfl
    ?_ ?_ rfl ?_ ?_ ?_
  · exact hshown.1.trans rfl
  · intro g hg _
    have hg' : g ∈ [_] := hg
    rw [List.mem_singleton.mp hg']
  · intro missed hmem
    have hmem' : Received.lagged missed ∈ [Received.value _, Received.value _, Received.value _,
      Received.value _] := hmem
    simp at hmem'
  · rfl
  · rfl
  · rfl

end StatusSystem

end Postblox.Tui
