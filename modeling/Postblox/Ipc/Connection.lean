import Postblox.Daemon.Op
import Postblox.Ipc.Client

/-!
# A client and its connection on the server

The server reads requests in order, runs a handler task for each, and writes what the
handlers and the subscriptions put into one mailbox. Handlers run and finish in any
order. When the loop ends, what is still in flight is aborted. The fields behind
`nextSub` are the history of the connection.
-/
namespace Postblox.Ipc

open Json (Value Data)
open Daemon (Op)

/-- `MAX_INFLIGHT_REQUESTS`. -/
def maxInflightRequests : Nat := 128

/-- `WRITER_MAILBOX`. -/
def writerMailbox : Nat := 128

/-- `MAX_SUBS_PER_CONN`. -/
def maxSubsPerConn : Nat := 32

/-- Handler tasks that have not run yet, that wait for the dispatcher and that wait for
room in the mailbox; `joinable` have finished and still count against the bound. -/
structure Connection where
  client : Client
  spawned : List Request
  dispatching : List (Request × Op)
  replying : List (Request × Response)
  joinable : Nat
  serving : Bool
  interrupted : Bool
  writing : Bool
  mailbox : List OutFrame
  subs : List (UInt64 × Topic)
  nextSub : UInt64
  calls : Nat
  requests : List Request
  pipelined : List Request
  received : List Request
  started : List Request
  results : List (Request × Except RpcError Data)
  answers : List (Request × Response)
  aborted : List Request
  lost : List UInt64
  discarded : List UInt64

def Connection.start : Connection where
  client := .connect
  spawned := []
  dispatching := []
  replying := []
  joinable := 0
  serving := true
  interrupted := false
  writing := true
  mailbox := []
  subs := []
  nextSub := 1
  calls := 0
  requests := []
  pipelined := []
  received := []
  started := []
  results := []
  answers := []
  aborted := []
  lost := []
  discarded := []

/-! ## The handlers -/

def Response.ofResult (id : UInt64) : Except RpcError Data → Response
  | .ok data => .success id data
  | .error e => .failure id e

/-- `handle_subscribe`: the response, and the subscriptions and the next id after it. -/
def handleSubscribe (req : Request) (subs : List (UInt64 × Topic)) (nextSub : UInt64) :
    Response × List (UInt64 × Topic) × UInt64 :=
  match (req.args.val.get "topic").bind Value.asStr with
  | none => (.failure req.id ⟨"bad_args", "missing 'topic'"⟩, subs, nextSub)
  | some topicStr =>
    match Topic.parse topicStr with
    | none => (.failure req.id ⟨"bad_args", s!"unknown topic '{topicStr}'"⟩, subs, nextSub)
    | some topic =>
      if maxSubsPerConn ≤ subs.length then
        (.failure req.id ⟨"too_many_subs", s!"subscription limit ({maxSubsPerConn}) reached"⟩,
          subs, nextSub + 1)
      else
        (.success req.id (toData (.object [("sub_id", u64 nextSub), ("topic", .string topicStr)])),
          (nextSub, topic) :: subs, nextSub + 1)

/-- `handle_unsubscribe`. -/
def handleUnsubscribe (req : Request) (subs : List (UInt64 × Topic)) :
    Response × List (UInt64 × Topic) :=
  match (req.args.val.get "sub_id").bind asId with
  | none => (.failure req.id ⟨"bad_args", "missing 'sub_id'"⟩, subs)
  | some subId =>
    if subs.any fun s => s.1 = subId then
      (.success req.id (toData (.object [("unsubscribed", .bool true)])),
        subs.filter fun s => s.1 ≠ subId)
    else (.failure req.id ⟨"unknown_sub", s!"no subscription with id {subId.toNat}"⟩, subs)

def pong (id : UInt64) : Response := .success id (toData (.object [("pong", .bool true)]))

def unknownOp (id : UInt64) (op : String) : Response :=
  .failure id ⟨"unknown_op", s!"unknown op '{op}'"⟩

/-- The ids of the responses among the frames. -/
def responseIds (frames : List Frame) : List UInt64 :=
  frames.filterMap fun
    | .response r => some r.id
    | _ => none

/-- A handler task by where it stands. -/
inductive Handler where
  | spawned (req : Request)
  | dispatching (req : Request) (op : Op)
  | replying (req : Request) (r : Response)

inductive Action where
  | client (a : ClientAction)
  | receive
  | reap
  | poll (req : Request)
  | complete (req : Request) (op : Op) (result : Except RpcError Data)
  | respond (req : Request) (r : Response)
  | forward (sub : UInt64) (topic : Topic) (data : Data)
  | write
  | writeUnreadable
  | writeFails
  | interrupt
  | cancel (task : Handler)
  | drain
  | close

namespace Connection

/-- `handlers.len()`. -/
def inflight (s : Connection) : Nat :=
  s.spawned.length + s.dispatching.length + s.replying.length + s.joinable

/-- The first turn of a handler task. -/
def pollHandler (s : Connection) (req : Request) : Connection :=
  match req.op with
  | "subscribe" =>
    let (r, subs, nextSub) := handleSubscribe req s.subs s.nextSub
    { s with subs, nextSub, replying := (req, r) :: s.replying, answers := (req, r) :: s.answers }
  | "unsubscribe" =>
    let (r, subs) := handleUnsubscribe req s.subs
    { s with subs, replying := (req, r) :: s.replying, answers := (req, r) :: s.answers }
  | "ping" =>
    { s with
      replying := (req, pong req.id) :: s.replying
      answers := (req, pong req.id) :: s.answers }
  | other =>
    match Op.parse other with
    | some op => { s with dispatching := (req, op) :: s.dispatching }
    | none =>
      { s with
        replying := (req, unknownOp req.id other) :: s.replying
        answers := (req, unknownOp req.id other) :: s.answers }

/-- The history a client step adds. -/
def record (s : Connection) : ClientAction → Connection
  | .request _ _ | .sendRequestFails _ _ => { s with calls := s.calls + 1 }
  | .sendRequest op args =>
    { s with calls := s.calls + 1, pipelined := ⟨s.client.nextId, op, args⟩ :: s.pipelined }
  | .write =>
    match s.client.caller with
    | .requesting req _ _ => { s with requests := req :: s.requests }
    | .idle => s
  | .abandon =>
    match s.client.caller with
    | .requesting req _ (.answered _) => { s with discarded := req.id :: s.discarded }
    | _ => s
  | .read =>
    match s.client.inbound with
    | some (.response r) :: _ =>
      if r.id ∈ s.client.pending ∧ Client.deliver s.client.caller r = s.client.caller then
        { s with discarded := r.id :: s.discarded }
      else s
    | _ => s
  | _ => s

/-- The bytes of the client are the requests of the server, and the other way round. -/
def step (s : Connection) : Action → Option Connection
  | .client (.arrive _) => none
  | .client a => (s.client.step a).map fun client => { s.record a with client }
  | .receive =>
    match s.client.outbound with
    | req :: rest =>
      if s.serving && s.inflight < maxInflightRequests then
        some { s with
          client := { s.client with outbound := rest }
          spawned := req :: s.spawned
          received := req :: s.received }
      else none
    | [] => none
  | .reap =>
    if maxInflightRequests ≤ s.inflight && 0 < s.joinable then
      some { s with joinable := s.joinable - 1 }
    else none
  | .poll req =>
    if req ∈ s.spawned then
      some ({ s with spawned := s.spawned.erase req, started := req :: s.started }.pollHandler req)
    else none
  | .complete req op result =>
    if (req, op) ∈ s.dispatching then
      some { s with
        dispatching := s.dispatching.erase (req, op)
        replying := (req, .ofResult req.id result) :: s.replying
        results := (req, result) :: s.results
        answers := (req, .ofResult req.id result) :: s.answers }
    else none
  | .respond req r =>
    if (req, r) ∈ s.replying then
      -- a response for a connection that is closed is dropped
      if !s.writing then
        some { s with
          replying := s.replying.erase (req, r), joinable := s.joinable + 1
          lost := r.id :: s.lost }
      else if s.mailbox.length < writerMailbox then
        some { s with
          replying := s.replying.erase (req, r), joinable := s.joinable + 1
          mailbox := s.mailbox ++ [.response r] }
      else none
    else none
  | .forward sub topic data =>
    if (sub, topic) ∈ s.subs && s.writing && s.mailbox.length < writerMailbox then
      some { s with mailbox := s.mailbox ++ [.event ⟨sub, topic, data⟩] }
    else none
  | .write =>
    match s.mailbox with
    | frame :: rest =>
      if s.writing then
        some { s with
          mailbox := rest
          client := { s.client with inbound := s.client.inbound ++ [some frame.frame] } }
      else none
    | [] => none
  | .writeUnreadable =>
    -- a frame over the limits of `read_frame` ends the reader task of the client
    match s.mailbox with
    | frame :: rest =>
      if s.writing then
        some { s with
          mailbox := rest
          client := { s.client with inbound := s.client.inbound ++ [none] }
          lost := responseIds [frame.frame] ++ s.lost }
      else none
    | [] => none
  | .writeFails =>
    if s.writing then
      some { s with
        writing := false, mailbox := []
        lost := responseIds (s.mailbox.map OutFrame.frame) ++ s.lost }
    else none
  | .interrupt => some { s with interrupted := true }
  | .cancel (.spawned req) =>
    if s.interrupted && req ∈ s.spawned then
      some { s with
        spawned := s.spawned.erase req, joinable := s.joinable + 1
        aborted := req :: s.aborted, lost := req.id :: s.lost }
    else none
  | .cancel (.dispatching req op) =>
    if s.interrupted && (req, op) ∈ s.dispatching then
      some { s with
        dispatching := s.dispatching.erase (req, op), joinable := s.joinable + 1
        lost := req.id :: s.lost }
    else none
  | .cancel (.replying req r) =>
    if s.interrupted && (req, r) ∈ s.replying then
      some { s with
        replying := s.replying.erase (req, r), joinable := s.joinable + 1
        lost := r.id :: s.lost }
    else none
  | .drain =>
    if s.serving && s.interrupted then
      some { s with
        serving := false, spawned := [], dispatching := [], replying := [], joinable := 0
        subs := []
        aborted := s.spawned ++ s.aborted
        lost := (s.spawned.map Request.id ++ s.dispatching.map (fun t => t.1.id) ++
          s.replying.map fun t => t.2.id) ++ s.lost }
    else none
  | .close =>
    if !s.serving && s.mailbox.isEmpty && s.writing then
      some { s with
        writing := false
        client := { s.client with inbound := s.client.inbound ++ [none] } }
    else none

end Connection

end Postblox.Ipc
