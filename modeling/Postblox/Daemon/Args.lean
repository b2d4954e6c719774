import Postblox.Mcp.Gates
import Postblox.Mcp.Tools

/-!
# How the daemon reads the arguments of a dangerous tool

Two decoders meet here: the hand-written `parse_id`, `parse_str` and friends of
the dispatcher, and the derived `Deserialize` of `NewDraft` and `DraftUpdate`,
where a missing key of an `Option` field reads as `None` and unknown keys are
ignored. The result is the operation a handler goes on to perform.
-/
namespace Postblox.Daemon.Args

open Json (Value)
open Mcp.Tools (Tool maxRows defaultRows)

variable (crates : Crates)

/-! ## Dispatcher helpers -/

def actorIsAllowed (actor : String) : Bool :=
  actor = "user" ||
    match actor.toList with
    | 'm' :: 'c' :: 'p' :: ':' :: name =>
      !name.isEmpty && decide (Mcp.Gates.byteLen name ≤ 128)
    | _ => false

def actorFromArgs (args : Value) : String :=
  (((args.get "_actor").bind Value.asStr).filter (actorIsAllowed ·)).getD "user"

def parseId (args : Value) (key : String) : Except RpcError Uuid :=
  match (args.get key).bind Value.asStr with
  | none => .error (.badArgs s!"missing '{key}'")
  | some s =>
    match crates.uuid.parseStr s with
    | none => .error (.badArgs s!"bad '{key}': {crates.uuidError s}")
    | some u => .ok u

def parseStr (args : Value) (key : String) : Except RpcError String :=
  match ((args.get key).bind Value.asStr).filter (fun s => s ≠ "") with
  | none => .error (.badArgs s!"missing '{key}'")
  | some s => .ok s

/-- `serde_json::from_value::<Vec<String>>`. -/
def stringVec (value : Value) : Option (List String) := value.asArray.bind (·.mapM Value.asStr)

def parseMessageFlags (value : Value) : Except RpcError (List String) :=
  match stringVec value with
  | none => .error (.badArgs "flags must be an array of strings")
  | some flags => .ok flags

/-! ## Derived decoders -/

/-- An `Option` field: a missing key and `null` are both `None`. -/
def optionField {α : Type} (read : Value → Option α) (args : Value) (key : String) :
    Option (Option α) :=
  match args.get key with
  | none | some .null => some none
  | some value => (read value).map some

def requiredField {α : Type} (read : Value → Option α) (args : Value) (key : String) : Option α :=
  (args.get key).bind read

/-- A `#[serde(default)]` field of list type. -/
def defaultedField {α : Type} (read : Value → Option (List α)) (args : Value) (key : String) :
    Option (List α) :=
  match args.get key with
  | none => some []
  | some value => read value

def uuidValue (value : Value) : Option Uuid := value.asStr.bind crates.uuid.parseStr

structure NewDraft where
  accountId : Uuid
  inReplyToMsg : Option Uuid
  toAddrs : List String
  ccAddrs : List String
  bccAddrs : List String
  subject : Option String
  textBody : Option String
  htmlBody : Option String
  inReplyTo : Option String
  referencesHeader : Option String
  deriving DecidableEq

structure DraftUpdate where
  id : Uuid
  toAddrs : List String
  ccAddrs : List String
  bccAddrs : List String
  subject : Option String
  textBody : Option String
  htmlBody : Option String
  deriving DecidableEq

structure DraftAttachmentSpec where
  path : String
  contentType : Option String
  filename : Option String
  deriving DecidableEq

def newDraft (args : Value) : Option NewDraft := do
  return {
    accountId := ← requiredField (uuidValue crates) args "account_id"
    inReplyToMsg := ← optionField (uuidValue crates) args "in_reply_to_msg"
    toAddrs := ← requiredField stringVec args "to_addrs"
    ccAddrs := ← requiredField stringVec args "cc_addrs"
    bccAddrs := ← requiredField stringVec args "bcc_addrs"
    subject := ← optionField Value.asStr args "subject"
    textBody := ← optionField Value.asStr args "text_body"
    htmlBody := ← optionField Value.asStr args "html_body"
    inReplyTo := ← optionField Value.asStr args "in_reply_to"
    referencesHeader := ← optionField Value.asStr args "references_header" }

def draftUpdate (args : Value) : Option DraftUpdate := do
  return {
    id := ← requiredField (uuidValue crates) args "id"
    toAddrs := ← defaultedField stringVec args "to_addrs"
    ccAddrs := ← defaultedField stringVec args "cc_addrs"
    bccAddrs := ← defaultedField stringVec args "bcc_addrs"
    subject := ← optionField Value.asStr args "subject"
    textBody := ← optionField Value.asStr args "text_body"
    htmlBody := ← optionField Value.asStr args "html_body" }

def draftAttachmentSpec (value : Value) : Option DraftAttachmentSpec := do
  return {
    path := ← requiredField Value.asStr value "path"
    contentType := ← optionField Value.asStr value "content_type"
    filename := ← optionField Value.asStr value "filename" }

def takeAttachmentSpecs (args : Value) : Except RpcError (Option (List DraftAttachmentSpec)) :=
  match args.get "attachments" with
  | none | some .null => .ok none
  | some value =>
    match value.asArray.bind (·.mapM draftAttachmentSpec) with
    | none => .error (.badArgs s!"bad 'attachments': {crates.serdeError value}")
    | some specs => .ok (some specs)

/-! ## Operations -/

/-- What a handler does once its arguments are decoded. -/
inductive Operation where
  | draftCreate (new : NewDraft) (attachments : Option (List DraftAttachmentSpec))
  | draftUpdate (upd : DraftUpdate) (attachments : Option (List DraftAttachmentSpec))
  | draftDelete (id : Uuid)
  | messageSetFlags (id : Uuid) (flags : List String)
  | messageSend (accountId draftId : Uuid)
  | sqlQuery (sql : String) (limit : Nat)
  deriving DecidableEq

def draftCreateArgs (args : Value) : Except RpcError Operation := do
  let specs ← takeAttachmentSpecs crates args
  match newDraft crates args with
  | none => throw (.badArgs (crates.serdeError args))
  | some new => return .draftCreate new specs

def draftUpdateArgs (args : Value) : Except RpcError Operation := do
  let specs ← takeAttachmentSpecs crates args
  match draftUpdate crates args with
  | none => throw (.badArgs (crates.serdeError args))
  | some upd => return .draftUpdate upd specs

def messageSetFlagsArgs (args : Value) : Except RpcError Operation := do
  let id ← parseId crates args "id"
  match args.get "flags" with
  | none => throw (.badArgs "missing 'flags'")
  | some value => return .messageSetFlags id (← parseMessageFlags value)

def sqlLimit (args : Value) : Except RpcError Nat :=
  match args.get "limit" with
  | none => .ok defaultRows
  | some value =>
    match value.asU64.filter (fun limit => 0 < limit) with
    | none => .error (.badArgs "'limit' must be a positive integer")
    | some limit => .ok (min limit maxRows)

def sqlQueryArgs (args : Value) : Except RpcError Operation := do
  match (args.get "sql").bind Value.asStr with
  | none => throw (.badArgs "missing 'sql'")
  | some sql => return .sqlQuery sql (← sqlLimit args)

/-- The decoding of the six dangerous tools; the other tools have no operation
that a gate guards. -/
def operation (tool : Tool) (args : Value) : Option (Except RpcError Operation) :=
  match tool with
  | .draftCreate => some (draftCreateArgs crates args)
  | .draftUpdate => some (draftUpdateArgs crates args)
  | .draftDelete => some (do return .draftDelete (← parseId crates args "id"))
  | .messageSetFlags => some (messageSetFlagsArgs crates args)
  | .messageSend => some (do
      let accountId ← parseId crates args "account_id"
      return .messageSend accountId (← parseId crates args "draft_id"))
  | .sqlQuery => some (sqlQueryArgs args)
  | _ => none

end Postblox.Daemon.Args
