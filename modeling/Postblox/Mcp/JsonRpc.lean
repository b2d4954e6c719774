import Postblox.Ipc.Protocol
import Postblox.Mcp.Confinement
import Postblox.Mcp.ToolList

/-!
# JSON-RPC lines and their responses

A line is a request, a notification or a response of the peer, or it is refused with an
error response. Every request has one response, and it carries the id of the request
whatever becomes of it: an unknown method, bad parameters and a failed tool call are
error responses.
-/
namespace Postblox.Mcp.Protocol

open Json (Value)
open Bridge (BridgeError objectParams handleToolCall)
open Tools (int listTools)

/-- Texts that `serde_json` makes: of its parse errors, and pretty-printed values. -/
structure Texts where
  parseError : String → String
  toStringPretty : Value → String

inductive Incoming where
  | request (id : Value) (method : String) (params : Value)
  | notification (method : String) (params : Value)
  | response
  deriving DecidableEq

structure JsonRpcError where
  code : Int
  message : String
  data : Option Value

namespace JsonRpcError

def parseError (message : String) : JsonRpcError := ⟨-32700, message, none⟩

def invalidRequest (message : String) : JsonRpcError := ⟨-32600, message, none⟩

def methodNotFound (method : String) : JsonRpcError :=
  ⟨-32601, s!"method not found: {method}", none⟩

def invalidParams (message : String) : JsonRpcError := ⟨-32602, message, none⟩

def internal (message : String) : JsonRpcError := ⟨-32603, message, none⟩

def server (code message : String) : JsonRpcError :=
  ⟨-32000, message, some (.object [("code", .string code)])⟩

def toJson (e : JsonRpcError) : Value :=
  .object ([("code", int e.code)] ++ (e.data.toList.map fun d => ("data", d)) ++
    [("message", .string e.message)])

end JsonRpcError

def successResponse (id result : Value) : Value :=
  .object [("id", id), ("jsonrpc", .string "2.0"), ("result", result)]

def errorResponse (id : Value) (error : JsonRpcError) : Value :=
  .object [("error", error.toJson), ("id", id), ("jsonrpc", .string "2.0")]

def notification (method : String) (params : Value) : Value :=
  .object [("jsonrpc", .string "2.0"), ("method", .string method), ("params", params)]

def initializeResult (clientProtocol : Option String) : Value :=
  .object
    [("capabilities", .object [("tools", .object [("listChanged", .bool false)])]),
      ("protocolVersion", .string (clientProtocol.getD "2025-06-18")),
      ("serverInfo", .object [("name", .string "postblox-mcp"), ("version", .string "0.1.0")])]

def isValidId : Value → Bool
  | .string _ | .number _ | .null => true
  | _ => false

def parseValue : Value → Except (Option Value × JsonRpcError) Incoming
  | .object object =>
    let id := object.lookup "id"
    let params := (object.lookup "params").getD .null
    if (object.lookup "jsonrpc").bind Value.asStr ≠ some "2.0" then
      .error (id, .invalidRequest "jsonrpc must be \"2.0\"")
    else match ((object.lookup "method").bind Value.asStr).filter (· ≠ "") with
      | some method =>
        match id with
        | some id =>
          if isValidId id then .ok (.request id method params)
          else .error (some id, .invalidRequest "id must be a string, number, or null")
        | none => .ok (.notification method params)
      | none =>
        if (object.lookup "result").isSome || (object.lookup "error").isSome then .ok .response
        else .error (id, .invalidRequest "method must be a non-empty string")
  | _ => .error (none, .invalidRequest "message must be an object")

section Lines

variable (crates : Crates) (texts : Texts)

def parseLine (line : String) : Except Value Incoming :=
  match crates.fromStr line with
  | none => .error (errorResponse .null (.parseError (texts.parseError line)))
  | some value =>
    match parseValue value with
    | .ok incoming => .ok incoming
    | .error (id, e) => .error (errorResponse (id.getD .null) e)

/-! ## The bridge's answers -/

/-- `BridgeError::to_json_rpc`. -/
def toJsonRpc : BridgeError → JsonRpcError
  | .daemon code message => .server code message
  | .badDaemonResponse message => .internal message
  | .ipc message => .server "ipc_error" message

def toolResult (value : Value) : Value :=
  .object
    [("content", .array [.object [("text", .string (texts.toStringPretty value)),
        ("type", .string "text")]]),
      ("structuredContent", value)]

def handleInitialize (params : Value) : Except JsonRpcError Value :=
  match objectParams params with
  | .error message => .error (.invalidParams message)
  | .ok object => .ok (initializeResult ((object.lookup "protocolVersion").bind Value.asStr))

/-- `outcome` is what `call_tool` returns, if the parameters get as far. -/
def handleToolsCall (outcome : Except BridgeError Value) (params : Value) :
    Except JsonRpcError Value :=
  match handleToolCall crates params with
  | .error message => .error (.invalidParams message)
  | .ok _ =>
    match outcome with
    | .error e => .error (toJsonRpc e)
    | .ok result => .ok (toolResult texts result)

def handleRequest (outcome : Except BridgeError Value) (id : Value) (method : String)
    (params : Value) : Value :=
  let result := match method with
    | "initialize" => handleInitialize params
    | "tools/list" => .ok listTools
    | "tools/call" => handleToolsCall crates texts outcome params
    | "ping" => .ok (.object [])
    | other => .error (.methodNotFound other)
  match result with
  | .ok result => successResponse id result
  | .error e => errorResponse id e

def handleLine (outcome : Except BridgeError Value) (line : String) : Option Value :=
  match parseLine crates texts line with
  | .ok (.request id method params) => some (handleRequest crates texts outcome id method params)
  | .ok (.notification _ _) | .ok .response => none
  | .error response => some response

def isInitializedMethod (method : String) : Bool :=
  method = "initialized" || method = "notifications/initialized"

def isInitializedNotification (line : String) : Bool :=
  match parseLine crates texts line with
  | .ok (.notification method _) => isInitializedMethod method
  | _ => false

end Lines

/-! ## What a request is, and its response -/

/-- A well-formed request with an id. -/
structure IsRequest (value id : Value) : Prop where
  version : value.get "jsonrpc" = some (.string "2.0")
  method : ∃ method, value.get "method" = some (.string method) ∧ method ≠ ""
  carried : value.get "id" = some id
  valid : isValidId id = true

theorem parseValue_of_isRequest {value id : Value} (h : IsRequest value id) :
    ∃ method params, parseValue value = .ok (.request id method params) := by
  obtain ⟨hversion, ⟨method, hmethod, hne⟩, hid, hvalid⟩ := h
  cases value with
  | object object =>
    refine ⟨method, (object.lookup "params").getD .null, ?_⟩
    have hversion' : object.lookup "jsonrpc" = some (.string "2.0") := hversion
    have hmethod' : object.lookup "method" = some (.string method) := hmethod
    have hid' : object.lookup "id" = some id := hid
    simp [parseValue, hversion', hmethod', hid', hvalid, Value.asStr, Option.filter, hne]
  | _ => cases hid

theorem get_id_successResponse (id result : Value) :
    (successResponse id result).get "id" = some id := by
  simp [successResponse, Value.get, List.lookup]

theorem get_id_errorResponse (id : Value) (e : JsonRpcError) :
    (errorResponse id e).get "id" = some id := by
  simp [errorResponse, Value.get, List.lookup]

theorem get_id_notification (method : String) (params : Value) :
    (notification method params).get "id" = none := by
  simp [notification, Value.get, List.lookup]

variable {crates : Crates} {texts : Texts}

theorem get_id_handleRequest (outcome : Except BridgeError Value) (id : Value) (method : String)
    (params : Value) :
    (handleRequest crates texts outcome id method params).get "id" = some id := by
  unfold handleRequest
  dsimp only
  split
  · exact get_id_successResponse id _
  · exact get_id_errorResponse id _

/-- A request is answered under its own id. -/
theorem handleLine_of_isRequest {line : String} {value id : Value}
    (hline : crates.fromStr line = some value) (h : IsRequest value id)
    (outcome : Except BridgeError Value) :
    ∃ response, handleLine crates texts outcome line = some response ∧
      response.get "id" = some id := by
  obtain ⟨method, params, hparse⟩ := parseValue_of_isRequest h
  have hincoming : parseLine crates texts line = .ok (.request id method params) := by
    simp only [parseLine, hline, hparse]
  refine ⟨handleRequest crates texts outcome id method params, ?_,
    get_id_handleRequest outcome id method params⟩
  rw [handleLine, hincoming]

/-- Whatever is answered to a line has an id. -/
theorem get_id_handleLine {outcome : Except BridgeError Value} {line : String} {response : Value}
    (h : handleLine crates texts outcome line = some response) :
    (response.get "id").isSome = true := by
  unfold handleLine at h
  split at h
  · cases h
    rw [get_id_handleRequest]
    rfl
  · cases h
  · cases h
  · next hparse =>
    cases h
    unfold parseLine at hparse
    split at hparse
    · cases hparse
      rw [get_id_errorResponse]
      rfl
    · split at hparse
      · cases hparse
      · cases hparse
        rw [get_id_errorResponse]
        rfl

end Postblox.Mcp.Protocol
