import Postblox.Json
import Postblox.Uuid

/-!
# Domain types of the MCP tables and the RPC error

Text enums carry the wire string of every variant. A row keeps the columns that
the modelled functions read; `created_at` only orders listings and `note` is
free text, so neither is a field here.
-/
namespace Postblox

open Json (Value)

/-- Policy action a configured gate applies to a tool call. -/
inductive GateAction where
  | autoAllow
  | require
  | deny
  deriving DecidableEq

/-- Lifecycle of an approval request. -/
inductive ApprovalState where
  | pending
  | allowed
  | denied
  | expired
  deriving DecidableEq

namespace ApprovalState

def asStr : ApprovalState → String
  | .pending => "pending"
  | .allowed => "allowed"
  | .denied => "denied"
  | .expired => "expired"

def fromStr (s : String) : Option ApprovalState :=
  if s = "pending" then some .pending
  else if s = "allowed" then some .allowed
  else if s = "denied" then some .denied
  else if s = "expired" then some .expired
  else none

@[simp] theorem fromStr_asStr (a : ApprovalState) : fromStr a.asStr = some a := by
  cases a <;> decide

end ApprovalState

structure McpGate where
  id : Uuid
  tool : String
  argPattern : Option String
  action : GateAction
  deriving DecidableEq

structure McpApproval where
  id : Uuid
  tool : String
  args : Value
  summary : String
  state : ApprovalState
  decidedAt : Option Int
  decidedBy : Option String
  deriving DecidableEq

/-- Every code the daemon puts into an `RpcError`. -/
inductive RpcCode where
  | unknownOp
  | badArgs
  | internal
  | attachmentTooLarge
  | unavailableOffline
  | authFailed
  | smtpTransient
  | missingSecret
  | oauthReauthRequired
  | oauthFailed
  | tooManySubs
  | unknownSub
  deriving DecidableEq

def RpcCode.asStr : RpcCode → String
  | .unknownOp => "unknown_op"
  | .badArgs => "bad_args"
  | .internal => "internal"
  | .attachmentTooLarge => "attachment_too_large"
  | .unavailableOffline => "unavailable_offline"
  | .authFailed => "auth_failed"
  | .smtpTransient => "smtp_transient"
  | .missingSecret => "missing_secret"
  | .oauthReauthRequired => "oauth_reauth_required"
  | .oauthFailed => "oauth_failed"
  | .tooManySubs => "too_many_subs"
  | .unknownSub => "unknown_sub"

structure RpcError where
  code : RpcCode
  message : String
  deriving DecidableEq

def RpcError.badArgs (message : String) : RpcError := ⟨.badArgs, message⟩

/-- What the bridge and the daemon take from third-party crates: the UUID
parser, JSON text, RFC 3339 dates and the texts of their errors. -/
structure Crates where
  uuid : UuidCrate
  fromStr : String → Option Value
  toText : Value → String
  parseRfc3339 : String → Option Int
  uuidError : String → String
  serdeError : Value → String

/-- The documented UUID parser, for inputs on which no other crate is called. -/
def Crates.plain : Crates where
  uuid := .documented
  fromStr _ := none
  toText _ := ""
  parseRfc3339 _ := none
  uuidError _ := ""
  serdeError _ := ""

end Postblox
