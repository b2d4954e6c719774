import Postblox.Ipc.Wire
import Postblox.Lib.Machine

/-!
# The client of a connection

`Client` as its caller, its reader task, the pending map and the two channels. A method
takes `&mut self`, so the caller is in one of them at a time; the reader task runs beside
it. Each `.await` ends a step.
-/
namespace Postblox.Ipc

open Json (Value Data)

/-- The capacity of `events` and of `responses`. -/
def channelCapacity : Nat := 256

/-- The `oneshot` a request waits on. -/
inductive Slot where
  | waiting
  | answered (r : Response)
  | dropped
  deriving DecidableEq

/-- `requesting` from the insertion into the pending map on; `written` once `write_frame`
has returned. -/
inductive Caller where
  | idle
  | requesting (req : Request) (written : Bool) (slot : Slot)
  deriving DecidableEq

inductive ReaderTask where
  | reading
  | sendingResponse (r : Response)
  | sendingEvent (e : Event)
  | clearing
  | ended
  deriving DecidableEq

/-- `inbound` is what the socket will yield to `read_frame`, `none` for an error. The last
two fields remember what `request` and `next_response` have returned. -/
structure Client where
  nextId : UInt64
  caller : Caller
  pending : List UInt64
  reader : ReaderTask
  responses : List Response
  events : List Event
  outbound : List Request
  inbound : List (Option Frame)
  returned : List (Request × Except ClientError Response)
  obtained : List Response

def Client.connect : Client where
  nextId := 1
  caller := .idle
  pending := []
  reader := .reading
  responses := []
  events := []
  outbound := []
  inbound := []
  returned := []
  obtained := []

/-- `abandon` is the caller dropping the future of a request that has been written. -/
inductive ClientAction where
  | request (op : String) (args : Data)
  | write
  | writeFails (e : ClientError)
  | finish
  | abandon
  | sendRequest (op : String) (args : Data)
  | sendRequestFails (op : String) (args : Data)
  | nextResponse
  | nextEvent
  | read
  | push
  | clear
  | arrive (item : Option Frame)

namespace Client

/-- A sender of the pending map is used: only a call that still waits on it notices. -/
def deliver (caller : Caller) (r : Response) : Caller :=
  match caller with
  | .requesting req written .waiting =>
    if req.id = r.id then .requesting req written (.answered r) else caller
  | _ => caller

/-- The senders of these ids are dropped. -/
def dropSenders (caller : Caller) (ids : List UInt64) : Caller :=
  match caller with
  | .requesting req written .waiting =>
    if req.id ∈ ids then .requesting req written .dropped else caller
  | _ => caller

/-- One frame, or the end of the stream, in the reader task. -/
def readItem (c : Client) : Option Frame → Client
  | some (.response r) =>
    if r.id ∈ c.pending then
      { c with pending := c.pending.filter (· ≠ r.id), caller := deliver c.caller r }
    else { c with reader := .sendingResponse r }
  | some (.event e) => { c with reader := .sendingEvent e }
  | some (.request _) => c
  | none => { c with reader := .clearing }

def step (c : Client) : ClientAction → Option Client
  | .request op args =>
    match c.caller with
    | .idle => some { c with
        nextId := c.nextId + 1
        pending := c.nextId :: c.pending.filter (· ≠ c.nextId)
        caller := .requesting ⟨c.nextId, op, args⟩ false .waiting }
    | _ => none
  | .write =>
    match c.caller with
    | .requesting req false slot => some { c with
        caller := .requesting req true slot, outbound := c.outbound ++ [req] }
    | _ => none
  | .writeFails e =>
    match c.caller with
    | .requesting req false _ => some { c with
        pending := c.pending.filter (· ≠ req.id), caller := .idle
        returned := c.returned ++ [(req, .error e)] }
    | _ => none
  | .finish =>
    match c.caller with
    | .requesting req true (.answered r) =>
      some { c with caller := .idle, returned := c.returned ++ [(req, .ok r)] }
    | .requesting req true .dropped =>
      some { c with caller := .idle, returned := c.returned ++ [(req, .error .closed)] }
    | _ => none
  | .abandon =>
    match c.caller with
    | .requesting _ true _ => some { c with caller := .idle }
    | _ => none
  | .sendRequest op args =>
    match c.caller with
    | .idle => some { c with
        nextId := c.nextId + 1, outbound := c.outbound ++ [⟨c.nextId, op, args⟩] }
    | _ => none
  | .sendRequestFails _ _ =>
    match c.caller with
    | .idle => some { c with nextId := c.nextId + 1 }
    | _ => none
  | .nextResponse =>
    match c.caller, c.responses with
    | .idle, r :: rest => some { c with responses := rest, obtained := c.obtained ++ [r] }
    | _, _ => none
  | .nextEvent =>
    match c.caller, c.events with
    | .idle, _ :: rest => some { c with events := rest }
    | _, _ => none
  | .read =>
    match c.reader, c.inbound with
    | .reading, item :: rest => some ({ c with inbound := rest }.readItem item)
    | _, _ => none
  | .push =>
    match c.reader with
    | .sendingResponse r =>
      if c.responses.length < channelCapacity then
        some { c with reader := .reading, responses := c.responses ++ [r] }
      else none
    | .sendingEvent e =>
      if c.events.length < channelCapacity then
        some { c with reader := .reading, events := c.events ++ [e] }
      else none
    | _ => none
  | .clear =>
    match c.reader with
    | .clearing => some { c with
        reader := .ended, pending := [], caller := dropSenders c.caller c.pending }
    | _ => none
  | .arrive item => some { c with inbound := c.inbound ++ [item] }

end Client

end Postblox.Ipc
