import Postblox.Json

/-!
# Requests, responses and events on the wire

The JSON shape of each frame and the untagged `Frame` that reads it back. A parsed
document is a `Value` whose objects list their entries in document order, repeated keys
included, as serde's buffered content does; a payload becomes a map only when it is
read as a `serde_json::Value`.
-/
namespace Postblox.Json

/-! ## Payloads -/

mutual

/-- `Value::deserialize` on buffered content: the last of equal keys wins. -/
def Value.ofContent : Value → Value
  | .array items => .array (itemsOfContent items)
  | .object entries => .object (entriesOfContent [] entries)
  | v => v

def itemsOfContent : List Value → List Value
  | [] => []
  | v :: rest => v.ofContent :: itemsOfContent rest

def entriesOfContent (map : List (String × Value)) :
    List (String × Value) → List (String × Value)
  | [] => map
  | (key, v) :: rest => entriesOfContent (insertEntry key v.ofContent map) rest

end

mutual

/-- Every object in the value is a map. -/
def Value.isOrdered : Value → Bool
  | .array items => itemsOrdered items
  | .object entries =>
    decide ((entries.map Prod.fst).Pairwise (· < ·)) && entriesOrdered entries
  | _ => true

def itemsOrdered : List Value → Bool
  | [] => true
  | v :: rest => v.isOrdered && itemsOrdered rest

def entriesOrdered : List (String × Value) → Bool
  | [] => true
  | (_, v) :: rest => v.isOrdered && entriesOrdered rest

end

mutual

def Value.isFloatFree : Value → Bool
  | .number (.float _) => false
  | .array items => itemsFloatFree items
  | .object entries => entriesFloatFree entries
  | _ => true

def itemsFloatFree : List Value → Bool
  | [] => true
  | v :: rest => v.isFloatFree && itemsFloatFree rest

def entriesFloatFree : List (String × Value) → Bool
  | [] => true
  | (_, v) :: rest => v.isFloatFree && entriesFloatFree rest

end

mutual

/-- How deep arrays and objects are nested. -/
def Value.depth : Value → Nat
  | .array items => itemsDepth items + 1
  | .object entries => entriesDepth entries + 1
  | _ => 0

def itemsDepth : List Value → Nat
  | [] => 0
  | v :: rest => max v.depth (itemsDepth rest)

def entriesDepth : List (String × Value) → Nat
  | [] => 0
  | (_, v) :: rest => max v.depth (entriesDepth rest)

end

/-- What a `serde_json::Value` of the program can be. -/
abbrev Data := { v : Value // v.isOrdered = true }

def Data.null : Data := ⟨.null, rfl⟩

theorem insertEntry_last {key : String} {v : Value} {map : List (String × Value)}
    (h : ∀ k ∈ map.map Prod.fst, k < key) : insertEntry key v map = map ++ [(key, v)] := by
  induction map with
  | nil => rfl
  | cons e rest ih =>
    obtain ⟨k, w⟩ := e
    rw [List.map_cons, List.forall_mem_cons] at h
    have hne : key ≠ k := (ne_of_lt h.1).symm
    have hnlt : ¬ key < k := not_lt_of_gt h.1
    rw [insertEntry, if_neg hne, if_neg hnlt, ih h.2, List.cons_append]

mutual

/-- A map is read back as itself. -/
theorem Value.ofContent_of_isOrdered (v : Value) (h : v.isOrdered = true) : v.ofContent = v := by
  cases v with
  | array items =>
    rw [Value.isOrdered] at h
    rw [Value.ofContent, itemsOfContent_of_ordered items h]
  | object entries =>
    rw [Value.isOrdered, Bool.and_eq_true, decide_eq_true_iff] at h
    rw [Value.ofContent, entriesOfContent_of_ordered [] entries h.1 h.2]
    rfl
  | _ => rfl

theorem itemsOfContent_of_ordered (items : List Value) (h : itemsOrdered items = true) :
    itemsOfContent items = items := by
  cases items with
  | nil => rfl
  | cons v rest =>
    rw [itemsOrdered, Bool.and_eq_true] at h
    rw [itemsOfContent, Value.ofContent_of_isOrdered v h.1, itemsOfContent_of_ordered rest h.2]

theorem entriesOfContent_of_ordered (map entries : List (String × Value))
    (hkeys : ((map ++ entries).map Prod.fst).Pairwise (· < ·))
    (h : entriesOrdered entries = true) : entriesOfContent map entries = map ++ entries := by
  cases entries with
  | nil => rw [entriesOfContent, List.append_nil]
  | cons e rest =>
    obtain ⟨key, v⟩ := e
    rw [entriesOrdered, Bool.and_eq_true] at h
    have hlast : ∀ k ∈ map.map Prod.fst, k < key := by
      rw [List.map_append, List.pairwise_append] at hkeys
      exact fun k hk => hkeys.2.2 k hk key (by simp)
    have hsplit : map ++ (key, v) :: rest = map ++ [(key, v)] ++ rest := by simp
    rw [entriesOfContent, Value.ofContent_of_isOrdered v h.1, insertEntry_last hlast, hsplit]
    exact entriesOfContent_of_ordered _ rest (by rw [← hsplit]; exact hkeys) h.2

end

theorem entriesOrdered_insertEntry {key : String} {v : Value} {map : List (String × Value)}
    (hv : v.isOrdered = true) (h : entriesOrdered map = true) :
    entriesOrdered (insertEntry key v map) = true := by
  induction map with
  | nil => simp [insertEntry, entriesOrdered, hv]
  | cons e rest ih =>
    obtain ⟨k, w⟩ := e
    rw [entriesOrdered, Bool.and_eq_true] at h
    rw [insertEntry]
    split_ifs <;> simp [entriesOrdered, hv, h, ih h.2]

mutual

/-- What is read as a value is a map. -/
theorem Value.isOrdered_ofContent (v : Value) : v.ofContent.isOrdered = true := by
  cases v with
  | array items =>
    rw [Value.ofContent, Value.isOrdered]
    exact itemsOrdered_ofContent items
  | object entries =>
    rw [Value.ofContent, Value.isOrdered, Bool.and_eq_true, decide_eq_true_iff]
    exact entriesOrdered_ofContent [] entries List.Pairwise.nil rfl
  | _ => rfl

theorem itemsOrdered_ofContent (items : List Value) :
    itemsOrdered (itemsOfContent items) = true := by
  cases items with
  | nil => rfl
  | cons v rest =>
    rw [itemsOfContent, itemsOrdered, v.isOrdered_ofContent, itemsOrdered_ofContent rest]
    rfl

theorem entriesOrdered_ofContent (map entries : List (String × Value))
    (hkeys : (map.map Prod.fst).Pairwise (· < ·)) (h : entriesOrdered map = true) :
    ((entriesOfContent map entries).map Prod.fst).Pairwise (· < ·) ∧
      entriesOrdered (entriesOfContent map entries) = true := by
  cases entries with
  | nil =>
    rw [entriesOfContent]
    exact ⟨hkeys, h⟩
  | cons e rest =>
    obtain ⟨key, v⟩ := e
    rw [entriesOfContent]
    exact entriesOrdered_ofContent _ rest (sorted_insertEntry key _ hkeys)
      (entriesOrdered_insertEntry v.isOrdered_ofContent h)

end

end Postblox.Json

namespace Postblox.Ipc

open Json (Value Data Number)

/-! ## Topics -/

inductive Topic where
  | mailNew
  | mailUpdated
  | accountSynced
  | syncState
  | mcpApprovalRequested
  | mcpApprovalDecided
  deriving DecidableEq

def Topic.asStr : Topic → String
  | .mailNew => "mail.new"
  | .mailUpdated => "mail.updated"
  | .accountSynced => "account.synced"
  | .syncState => "sync.state"
  | .mcpApprovalRequested => "mcp.approval_requested"
  | .mcpApprovalDecided => "mcp.approval_decided"

def Topic.parse : String → Option Topic
  | "mail.new" => some .mailNew
  | "mail.updated" => some .mailUpdated
  | "account.synced" => some .accountSynced
  | "sync.state" => some .syncState
  | "mcp.approval_requested" => some .mcpApprovalRequested
  | "mcp.approval_decided" => some .mcpApprovalDecided
  | _ => none

/-! ## Frames -/

structure RpcError where
  code : String
  message : String
  deriving DecidableEq

structure Request where
  id : UInt64
  op : String
  args : Data
  deriving DecidableEq

structure Response where
  id : UInt64
  ok : Bool
  data : Data
  error : Option RpcError
  deriving DecidableEq

structure Event where
  sub : UInt64
  topic : String
  data : Data
  deriving DecidableEq

inductive Frame where
  | request (r : Request)
  | response (r : Response)
  | event (e : Event)
  deriving DecidableEq

def Response.success (id : UInt64) (data : Data) : Response := ⟨id, true, data, none⟩

def Response.failure (id : UInt64) (error : RpcError) : Response := ⟨id, false, .null, some error⟩

/-! ## Serialization -/

/-- A `u64` field. -/
def u64 (n : UInt64) : Value := .number (.posInt n)

def RpcError.toJson (e : RpcError) : Value :=
  .object [("code", .string e.code), ("message", .string e.message)]

def Request.toJson (r : Request) : Value :=
  .object [("id", u64 r.id), ("op", .string r.op), ("args", r.args.val)]

/-- `data` is left out when it is null, `error` when there is none. -/
def Response.entries (r : Response) : List (String × Value) :=
  [("id", u64 r.id), ("ok", .bool r.ok)] ++
    (if r.data.val = .null then [] else [("data", r.data.val)]) ++
    r.error.toList.map fun e => ("error", e.toJson)

def Response.toJson (r : Response) : Value := .object r.entries

def Event.toJson (e : Event) : Value :=
  .object [("sub", u64 e.sub), ("topic", .string e.topic), ("data", e.data.val)]

def Frame.toJson : Frame → Value
  | .request r => r.toJson
  | .response r => r.toJson
  | .event e => e.toJson

/-! ## Deserialization -/

def asId : Value → Option UInt64
  | .number (.posInt n) => some n
  | _ => none

@[simp] theorem asId_u64 (n : UInt64) : asId (u64 n) = some n := rfl

/-- A payload as the program keeps it. -/
def toData (v : Value) : Data := ⟨v.ofContent, v.isOrdered_ofContent⟩

/-- The value of a field, unless the object has it twice. -/
def field (key : String) (entries : List (String × Value)) : Option (Option Value) :=
  match entries.filter fun e => e.1 = key with
  | [] => some none
  | [e] => some (some e.2)
  | _ => none

/-- A field without a default. -/
def required (key : String) (entries : List (String × Value)) : Option Value :=
  (field key entries).join

/-- A `#[serde(default)]` payload. -/
def payload (key : String) (entries : List (String × Value)) : Option Data :=
  (field key entries).map fun v => (v.map toData).getD .null

/-- Structs are read from objects, and from arrays in the order of their fields; keys
that are no field are ignored. -/
def RpcError.ofJson : Value → Option RpcError
  | .object entries => do
    let code ← (← required "code" entries).asStr
    let message ← (← required "message" entries).asStr
    return ⟨code, message⟩
  | .array [code, message] => do return ⟨← code.asStr, ← message.asStr⟩
  | _ => none

/-- `Option<RpcError>`: null is `None`. -/
def optionalError : Value → Option (Option RpcError)
  | .null => some none
  | v => (RpcError.ofJson v).map some

def Request.ofJson : Value → Option Request
  | .object entries => do
    let id ← asId (← required "id" entries)
    let op ← (← required "op" entries).asStr
    return ⟨id, op, ← payload "args" entries⟩
  | .array (id :: op :: rest) => do
    let args ← match rest with
      | [] => some Data.null
      | [args] => some (toData args)
      | _ => none
    return ⟨← asId id, ← op.asStr, args⟩
  | _ => none

def Response.ofJson : Value → Option Response
  | .object entries => do
    let id ← asId (← required "id" entries)
    let ok ← (← required "ok" entries).asBool
    let data ← payload "data" entries
    let error ← match ← field "error" entries with
      | none => some none
      | some v => optionalError v
    return ⟨id, ok, data, error⟩
  | .array (id :: ok :: rest) => do
    let (data, error) ← match rest with
      | [] => some (Data.null, none)
      | [data] => some (toData data, none)
      | [data, error] => (optionalError error).map fun e => (toData data, e)
      | _ => none
    return ⟨← asId id, ← ok.asBool, data, error⟩
  | _ => none

def Event.ofJson : Value → Option Event
  | .object entries => do
    let sub ← asId (← required "sub" entries)
    let topic ← (← required "topic" entries).asStr
    return ⟨sub, topic, ← payload "data" entries⟩
  | .array (sub :: topic :: rest) => do
    let data ← match rest with
      | [] => some Data.null
      | [data] => some (toData data)
      | _ => none
    return ⟨← asId sub, ← topic.asStr, data⟩
  | _ => none

/-- `#[serde(untagged)]`: the first variant that can be read. -/
def Frame.ofJson (v : Value) : Option Frame :=
  ((Request.ofJson v).map .request).or
    (((Response.ofJson v).map .response).or ((Event.ofJson v).map .event))

/-! ## Every frame is read back as itself -/

theorem toData_eq (d : Data) : toData d.val = d :=
  Subtype.ext (Value.ofContent_of_isOrdered d.val d.property)

theorem RpcError.ofJson_toJson (e : RpcError) : RpcError.ofJson e.toJson = some e := rfl

theorem payload_data {key : String} {entries : List (String × Value)} {d : Data}
    (h : field key entries = some (some d.val)) : payload key entries = some d := by
  rw [payload, h, Option.map_some, Option.map_some, toData_eq, Option.getD_some]

theorem Request.ofJson_toJson (r : Request) : Request.ofJson r.toJson = some r := by
  have hargs : payload "args"
      [("id", u64 r.id), ("op", .string r.op), ("args", r.args.val)] = some r.args :=
    payload_data (by simp [field])
  simp [Request.toJson, Request.ofJson, required, field, Value.asStr, hargs]

/-- A response has no `op`. -/
theorem Request.ofJson_response (r : Response) : Request.ofJson r.toJson = none := by
  have hop : field "op" r.entries = some none := by
    unfold Response.entries
    cases r.error <;> split_ifs <;> simp [field]
  rw [Response.toJson, Request.ofJson, required, required, hop]
  cases h : field "id" r.entries <;> simp

theorem Request.ofJson_event (e : Event) : Request.ofJson e.toJson = none := by
  simp [Event.toJson, Request.ofJson, required, field]

theorem Response.ofJson_event (e : Event) : Response.ofJson e.toJson = none := by
  simp [Event.toJson, Response.ofJson, required, field]

theorem Response.data_entries (r : Response) : payload "data" r.entries = some r.data := by
  unfold Response.entries
  by_cases hnull : r.data.val = .null
  · have hd : r.data = .null := Subtype.ext hnull
    rw [if_pos hnull, hd]
    cases r.error <;> simp [payload, field]
  · apply payload_data
    rw [if_neg hnull]
    cases r.error <;> simp [field]

theorem Response.error_entries (r : Response) :
    field "error" r.entries = some (r.error.map RpcError.toJson) := by
  unfold Response.entries
  cases r.error <;> split_ifs <;> simp [field]

theorem Response.ofJson_toJson (r : Response) : Response.ofJson r.toJson = some r := by
  have hid : field "id" r.entries = some (some (u64 r.id)) := by
    unfold Response.entries
    cases r.error <;> split_ifs <;> simp [field]
  have hok : field "ok" r.entries = some (some (.bool r.ok)) := by
    unfold Response.entries
    cases r.error <;> split_ifs <;> simp [field]
  obtain ⟨id, ok, data, error⟩ := r
  rw [Response.toJson, Response.ofJson, required, required, hid, hok, Response.data_entries,
    Response.error_entries]
  cases error <;> rfl

theorem Event.ofJson_toJson (e : Event) : Event.ofJson e.toJson = some e := by
  have hdata : payload "data"
      [("sub", u64 e.sub), ("topic", .string e.topic), ("data", e.data.val)] = some e.data :=
    payload_data (by simp [field])
  simp [Event.toJson, Event.ofJson, required, field, Value.asStr, hdata]

theorem Frame.ofJson_toJson (f : Frame) : Frame.ofJson f.toJson = some f := by
  cases f with
  | request r => simp [Frame.toJson, Frame.ofJson, Request.ofJson_toJson]
  | response r =>
    simp [Frame.toJson, Frame.ofJson, Request.ofJson_response, Response.ofJson_toJson]
  | event e =>
    simp [Frame.toJson, Frame.ofJson, Request.ofJson_event, Response.ofJson_event,
      Event.ofJson_toJson]

end Postblox.Ipc
