import Postblox.Lib.Machine
import Postblox.Mcp.JsonRpc
import Postblox.Mcp.LineFraming

/-!
# A session on stdin and stdout

`serve_stdio_io_with_limit` is the loop over the lines, the task that writes to stdout
and, once the peer has said `initialized`, one task per topic that announces the
daemon's events. They share a bounded mailbox. Each `.await` ends a step; what
`call_tool` and `subscribe` return, and when the other tasks run, is up to the run.
-/
namespace Postblox.Mcp.Stdio

open Json (Value)
open Bridge (BridgeError)
open Ipc (Topic)
open Protocol (Texts handleLine isInitializedNotification)
open Lib (Chunk joined segments firstSegment afterSegment)

/-- `OUTPUT_MAILBOX`. -/
def outputMailbox : Nat := 128

def notificationTopics : List Topic :=
  [.mailNew, .mailUpdated, .accountSynced, .mcpApprovalRequested, .mcpApprovalDecided]

def oversizedInputResponse (maxLineBytes : Nat) : Value :=
  Protocol.errorResponse .null (.invalidRequest s!"input line exceeds {maxLineBytes} bytes")

/-- Approval requests are announced without their arguments. -/
def forwardEventData (event : Ipc.Event) : Value :=
  if event.topic ≠ Topic.mcpApprovalRequested.asStr then event.data.val
  else match event.data.val with
    | .object payload => .object (["approval_id", "state", "summary", "tool"].filterMap
        fun key => (payload.lookup key).map fun value => (key, value))
    | _ => .object []

def eventMessage (event : Ipc.Event) : Value :=
  Protocol.notification "notifications/postblox/event"
    (.object [("data", forwardEventData event), ("topic", .string event.topic)])

def errorMessage (topic : Topic) (error : String) : Value :=
  Protocol.notification "notifications/postblox/error"
    (.object [("error", .string error), ("topic", .string topic.asStr)])

/-- The `Display` of a `BridgeError`. -/
def displayError : BridgeError → String
  | .ipc message => s!"ipc: {message}"
  | .daemon code message => s!"daemon returned error: {code}: {message}"
  | .badDaemonResponse message => s!"bad daemon response: {message}"

/-! ## The state -/

/-- How `serve_stdio_io_with_limit` returned. -/
inductive Outcome (ε : Type) where
  | endOfInput
  | readFailed (e : ReadError ε)
  | writeFailed (e : ε)
  deriving DecidableEq

/-- Where the loop stands: `sending` and `announcing` wait for room in the mailbox,
`starting` for the daemon's answer to the first subscription of the list, and `draining`
for the writer, after the loop. -/
inductive Phase (ε : Type) where
  | reading
  | handling (line : String)
  | sending (response : Value) (starts : Bool)
  | starting (topics : List Topic)
  | announcing (message : Value) (topics : List Topic)
  | draining
  | returned (outcome : Outcome ε)
  deriving DecidableEq

/-- `failed` is the error the writer task ended with, `handles` whether
`notification_handles` has any, and `notifiers` the tasks of these that still run. -/
structure Session (ε : Type) where
  reader : Reader ε
  phase : Phase ε
  handles : Bool
  notifiers : List Topic
  mailbox : List Value
  written : List Value
  failed : Option ε

def Session.start {ε : Type} (reader : Reader ε) : Session ε where
  reader := reader
  phase := .reading
  handles := false
  notifiers := []
  mailbox := []
  written := []
  failed := none

inductive Action (ε : Type) where
  | read
  | handle (outcome : Except BridgeError Value)
  | send
  | subscribe (result : Except BridgeError Unit)
  | announce
  | finish
  | write
  | writeFails (e : ε)
  | stop (topic : Topic)
  | notify (topic : Topic) (event : Ipc.Event)
  | lose (topic : Topic)

/-- The steps of the session itself; the others are events of the daemon. -/
def Action.isOwn {ε : Type} : Action ε → Bool
  | .notify _ _ | .lose _ => false
  | _ => true

section Steps

variable {ε : Type} (crates : Crates) (texts : Texts) (maxLineBytes : Nat)

namespace Session

def goto (s : Session ε) (phase : Phase ε) : Session ε := { s with phase }

def post (s : Session ε) (message : Value) : Session ε :=
  { s with mailbox := s.mailbox ++ [message] }

def hasRoom (s : Session ε) : Bool := s.mailbox.length < outputMailbox

/-- The end of a turn of the loop. -/
def next (s : Session ε) (starts : Bool) : Session ε :=
  if starts && !s.handles then s.goto (.starting notificationTopics) else s.goto .reading

def nextTopic (s : Session ε) (topics : List Topic) : Session ε :=
  if topics.isEmpty then s.goto .reading else s.goto (.starting topics)

/-- One step of the loop, the writer or a notification task. -/
def step (s : Session ε) : Action ε → Option (Session ε)
  | .read =>
    match s.phase with
    | .reading =>
      let (frame, reader) := readBoundedLine maxLineBytes s.reader
      let s := { s with reader }
      match frame with
      | .ok (some (.line text)) => some (s.goto (.handling text))
      | .ok (some .oversized) => some (s.goto (.sending (oversizedInputResponse maxLineBytes) false))
      | .ok none => some (s.goto .draining)
      -- the tasks are left running
      | .error e => some (s.goto (.returned (.readFailed e)))
    | _ => none
  | .handle outcome =>
    match s.phase with
    | .handling line =>
      let starts := isInitializedNotification crates texts line
      match handleLine crates texts outcome line with
      | some response => some (s.goto (.sending response starts))
      | none => some (s.next starts)
    | _ => none
  | .send =>
    match s.phase with
    | .sending response starts =>
      if s.failed.isSome then some (s.goto .draining)
      else if s.hasRoom then some ((s.post response).next starts)
      else none
    | _ => none
  | .subscribe result =>
    match s.phase with
    | .starting (topic :: topics) =>
      match result with
      | .ok () =>
        some ({ s with handles := true, notifiers := topic :: s.notifiers }.nextTopic topics)
      | .error e => some (s.goto (.announcing (errorMessage topic (displayError e)) topics))
    | _ => none
  | .announce =>
    match s.phase with
    | .announcing message topics =>
      if s.failed.isSome then some (s.nextTopic topics)
      else if s.hasRoom then some ((s.post message).nextTopic topics)
      else none
    | _ => none
  | .finish =>
    match s.phase with
    | .draining =>
      match s.failed with
      | some e => some (s.goto (.returned (.writeFailed e)))
      | none =>
        if s.mailbox.isEmpty && s.notifiers.isEmpty then some (s.goto (.returned .endOfInput))
        else none
    | _ => none
  | .write =>
    match s.failed, s.mailbox with
    | none, message :: rest => some { s with mailbox := rest, written := s.written ++ [message] }
    | _, _ => none
  | .writeFails e =>
    match s.failed, s.mailbox with
    | none, _ :: _ => some { s with mailbox := [], failed := some e }
    | _, _ => none
  | .stop topic =>
    match s.phase with
    | .draining =>
      if topic ∈ s.notifiers then some { s with notifiers := s.notifiers.erase topic } else none
    | _ => none
  | .notify topic event =>
    if topic ∈ s.notifiers then
      if s.failed.isSome then some { s with notifiers := s.notifiers.erase topic }
      else if s.hasRoom then some (s.post (eventMessage event))
      else none
    else none
  | .lose topic =>
    if topic ∈ s.notifiers then
      if s.failed.isSome then some { s with notifiers := s.notifiers.erase topic }
      else if s.hasRoom then
        some ({ s with notifiers := s.notifiers.erase topic }.post
          (errorMessage topic "subscription dropped"))
      else none
    else none

/-! ## What a step does -/

/-- The steps, one constructor for each way one can go. -/
inductive Moves (s : Session ε) : Action ε → Session ε → Prop where
  | readLine {text : String} {reader : Reader ε} (hphase : s.phase = .reading)
      (hread : readBoundedLine maxLineBytes s.reader = (.ok (some (.line text)), reader)) :
      Moves s .read ({ s with reader }.goto (.handling text))
  | readOversized {reader : Reader ε} (hphase : s.phase = .reading)
      (hread : readBoundedLine maxLineBytes s.reader = (.ok (some .oversized), reader)) :
      Moves s .read ({ s with reader }.goto (.sending (oversizedInputResponse maxLineBytes) false))
  | readEnd {reader : Reader ε} (hphase : s.phase = .reading)
      (hread : readBoundedLine maxLineBytes s.reader = (.ok none, reader)) :
      Moves s .read ({ s with reader }.goto .draining)
  | readFails {reader : Reader ε} {e : ReadError ε} (hphase : s.phase = .reading)
      (hread : readBoundedLine maxLineBytes s.reader = (.error e, reader)) :
      Moves s .read ({ s with reader }.goto (.returned (.readFailed e)))
  | answer {line : String} {outcome : Except BridgeError Value} {response : Value}
      (hphase : s.phase = .handling line)
      (hanswer : handleLine crates texts outcome line = some response) :
      Moves s (.handle outcome)
        (s.goto (.sending response (isInitializedNotification crates texts line)))
  | silence {line : String} {outcome : Except BridgeError Value}
      (hphase : s.phase = .handling line)
      (hanswer : handleLine crates texts outcome line = none) :
      Moves s (.handle outcome) (s.next (isInitializedNotification crates texts line))
  | send {response : Value} {starts : Bool} (hphase : s.phase = .sending response starts)
      (hfailed : s.failed = none) (hroom : s.hasRoom = true) :
      Moves s .send ((s.post response).next starts)
  | sendFails {response : Value} {starts : Bool} {e : ε}
      (hphase : s.phase = .sending response starts) (hfailed : s.failed = some e) :
      Moves s .send (s.goto .draining)
  | subscribe {topic : Topic} {topics : List Topic}
      (hphase : s.phase = .starting (topic :: topics)) :
      Moves s (.subscribe (.ok ()))
        ({ s with handles := true, notifiers := topic :: s.notifiers }.nextTopic topics)
  | subscribeFails {topic : Topic} {topics : List Topic} {e : BridgeError}
      (hphase : s.phase = .starting (topic :: topics)) :
      Moves s (.subscribe (.error e))
        (s.goto (.announcing (errorMessage topic (displayError e)) topics))
  | announce {message : Value} {topics : List Topic} (hphase : s.phase = .announcing message topics)
      (hfailed : s.failed = none) (hroom : s.hasRoom = true) :
      Moves s .announce ((s.post message).nextTopic topics)
  | announceFails {message : Value} {topics : List Topic} {e : ε}
      (hphase : s.phase = .announcing message topics) (hfailed : s.failed = some e) :
      Moves s .announce (s.nextTopic topics)
  | finish (hphase : s.phase = .draining) (hfailed : s.failed = none) (hmailbox : s.mailbox = [])
      (hnotifiers : s.notifiers = []) : Moves s .finish (s.goto (.returned .endOfInput))
  | finishFails {e : ε} (hphase : s.phase = .draining) (hfailed : s.failed = some e) :
      Moves s .finish (s.goto (.returned (.writeFailed e)))
  | write {message : Value} {rest : List Value} (hfailed : s.failed = none)
      (hmailbox : s.mailbox = message :: rest) :
      Moves s .write { s with mailbox := rest, written := s.written ++ [message] }
  | writeFails {message : Value} {rest : List Value} {e : ε} (hfailed : s.failed = none)
      (hmailbox : s.mailbox = message :: rest) :
      Moves s (.writeFails e) { s with mailbox := [], failed := some e }
  | stop {topic : Topic} (hphase : s.phase = .draining) (htopic : topic ∈ s.notifiers) :
      Moves s (.stop topic) { s with notifiers := s.notifiers.erase topic }
  | notify {topic : Topic} {event : Ipc.Event} (htopic : topic ∈ s.notifiers)
      (hfailed : s.failed = none) (hroom : s.hasRoom = true) :
      Moves s (.notify topic event) (s.post (eventMessage event))
  | notifyFails {topic : Topic} {event : Ipc.Event} {e : ε} (htopic : topic ∈ s.notifiers)
      (hfailed : s.failed = some e) :
      Moves s (.notify topic event) { s with notifiers := s.notifiers.erase topic }
  | lose {topic : Topic} (htopic : topic ∈ s.notifiers) (hfailed : s.failed = none)
      (hroom : s.hasRoom = true) :
      Moves s (.lose topic) ({ s with notifiers := s.notifiers.erase topic }.post
        (errorMessage topic "subscription dropped"))
  | loseFails {topic : Topic} {e : ε} (htopic : topic ∈ s.notifiers) (hfailed : s.failed = some e) :
      Moves s (.lose topic) { s with notifiers := s.notifiers.erase topic }

variable {crates texts maxLineBytes}

theorem moves_of_step {s t : Session ε} {a : Action ε}
    (h : s.step crates texts maxLineBytes a = some t) : Moves crates texts maxLineBytes s a t := by
  cases a with
  | read =>
    simp only [step] at h
    split at h
    · next hphase =>
      rcases hread : readBoundedLine maxLineBytes s.reader with ⟨(e | (_ | (text | _))), reader⟩ <;>
        simp only [hread, Option.some.injEq] at h <;> subst h
      · exact .readFails hphase hread
      · exact .readEnd hphase hread
      · exact .readLine hphase hread
      · exact .readOversized hphase hread
    · cases h
  | handle outcome =>
    simp only [step] at h
    split at h
    · next hphase =>
      split at h <;> cases h
      · exact .answer hphase ‹_›
      · exact .silence hphase ‹_›
    · cases h
  | send =>
    simp only [step] at h
    split at h
    · next hphase =>
      split_ifs at h with hfailed hroom <;> cases h
      · obtain ⟨e, he⟩ := Option.isSome_iff_exists.mp hfailed
        exact .sendFails hphase he
      · exact .send hphase (by simpa using hfailed) hroom
    · cases h
  | subscribe result =>
    simp only [step] at h
    split at h
    · next hphase =>
      split at h <;> cases h
      · exact .subscribe hphase
      · exact .subscribeFails hphase
    · cases h
  | announce =>
    simp only [step] at h
    split at h
    · next hphase =>
      split_ifs at h with hfailed hroom <;> cases h
      · obtain ⟨e, he⟩ := Option.isSome_iff_exists.mp hfailed
        exact .announceFails hphase he
      · exact .announce hphase (by simpa using hfailed) hroom
    · cases h
  | finish =>
    simp only [step] at h
    split at h
    · next hphase =>
      split at h
      · next hfailed =>
        cases h
        exact .finishFails hphase hfailed
      · next hfailed =>
        split_ifs at h with hempty
        cases h
        rw [Bool.and_eq_true, List.isEmpty_iff, List.isEmpty_iff] at hempty
        exact .finish hphase hfailed hempty.1 hempty.2
    · cases h
  | write =>
    simp only [step] at h
    split at h <;> cases h
    exact .write ‹_› ‹_›
  | writeFails e =>
    simp only [step] at h
    split at h <;> cases h
    exact .writeFails ‹_› ‹_›
  | stop topic =>
    simp only [step] at h
    split at h
    · split_ifs at h with htopic
      cases h
      exact .stop ‹_› htopic
    · cases h
  | notify topic event =>
    simp only [step] at h
    split_ifs at h with htopic hfailed hroom <;> cases h
    · obtain ⟨e, he⟩ := Option.isSome_iff_exists.mp hfailed
      exact .notifyFails htopic he
    · exact .notify htopic (by simpa using hfailed) hroom
  | lose topic =>
    simp only [step] at h
    split_ifs at h with htopic hfailed hroom <;> cases h
    · obtain ⟨e, he⟩ := Option.isSome_iff_exists.mp hfailed
      exact .loseFails htopic he
    · exact .lose htopic (by simpa using hfailed) hroom

theorem step_of_moves {s t : Session ε} {a : Action ε}
    (h : Moves crates texts maxLineBytes s a t) : s.step crates texts maxLineBytes a = some t := by
  cases h <;> simp_all [step]

end Session

end Steps

end Postblox.Mcp.Stdio
