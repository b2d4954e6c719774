import Postblox.Models

/-!
# The tool catalogue and argument validation

The fourteen entries of `TOOLS` are the constructors of `Tool`; descriptions and
the `tools/list` schema are in `ToolList`. Validation checks the required keys first
and then every entry in key order, and returns the arguments unchanged.
-/
namespace Postblox.Mcp.Tools

open Json (Value)

/-- The daemon ops the tools map to. -/
inductive Op where
  | accountList
  | folderList
  | threadList
  | messageListByFolder
  | messageListByThread
  | messageGet
  | search
  | draftCreate
  | draftUpdate
  | draftDelete
  | messageSetFlags
  | messageSend
  | sqlQuery
  | sqlSchema
  deriving DecidableEq

def Op.asStr : Op → String
  | .accountList => "account.list"
  | .folderList => "folder.list"
  | .threadList => "thread.list"
  | .messageListByFolder => "message.list_by_folder"
  | .messageListByThread => "message.list_by_thread"
  | .messageGet => "message.get"
  | .search => "search"
  | .draftCreate => "draft.create"
  | .draftUpdate => "draft.update"
  | .draftDelete => "draft.delete"
  | .messageSetFlags => "message.set_flags"
  | .messageSend => "message.send"
  | .sqlQuery => "sql.query"
  | .sqlSchema => "sql.schema"

inductive Tool where
  | accountList
  | folderList
  | threadList
  | messageListByFolder
  | messageListByThread
  | messageGet
  | search
  | draftCreate
  | draftUpdate
  | draftDelete
  | messageSetFlags
  | messageSend
  | sqlQuery
  | sqlSchema
  deriving DecidableEq

inductive FieldKind where
  | string
  | nullableString
  | uuidString
  | nullableUuidString
  | nullableRfc3339
  | stringArray
  | boolean
  | integer (minimum maximum : Int)
  deriving DecidableEq

/-- `db::sql_query::MAX_ROWS`. -/
def maxRows : Nat := 1000

/-- `db::sql_query::DEFAULT_ROWS`. -/
def defaultRows : Nat := 200

def searchMaxRows : Int := 200

namespace Tool

def all : List Tool :=
  [.accountList, .folderList, .threadList, .messageListByFolder, .messageListByThread,
    .messageGet, .search, .draftCreate, .draftUpdate, .draftDelete, .messageSetFlags,
    .messageSend, .sqlQuery, .sqlSchema]

def name : Tool → String
  | .accountList => "postblox_account_list"
  | .folderList => "postblox_folder_list"
  | .threadList => "postblox_thread_list"
  | .messageListByFolder => "postblox_message_list_by_folder"
  | .messageListByThread => "postblox_message_list_by_thread"
  | .messageGet => "postblox_message_get"
  | .search => "postblox_search"
  | .draftCreate => "postblox_draft_create"
  | .draftUpdate => "postblox_draft_update"
  | .draftDelete => "postblox_draft_delete"
  | .messageSetFlags => "postblox_message_set_flags"
  | .messageSend => "postblox_message_send"
  | .sqlQuery => "postblox_sql_query"
  | .sqlSchema => "postblox_sql_schema"

def op : Tool → Op
  | .accountList => .accountList
  | .folderList => .folderList
  | .threadList => .threadList
  | .messageListByFolder => .messageListByFolder
  | .messageListByThread => .messageListByThread
  | .messageGet => .messageGet
  | .search => .search
  | .draftCreate => .draftCreate
  | .draftUpdate => .draftUpdate
  | .draftDelete => .draftDelete
  | .messageSetFlags => .messageSetFlags
  | .messageSend => .messageSend
  | .sqlQuery => .sqlQuery
  | .sqlSchema => .sqlSchema

def dangerous : Tool → Bool
  | .draftCreate | .draftUpdate | .draftDelete | .messageSetFlags | .messageSend
  | .sqlQuery => true
  | _ => false

def required : Tool → List String
  | .accountList | .sqlSchema => []
  | .folderList | .threadList => ["account_id"]
  | .messageListByFolder => ["folder_id"]
  | .messageListByThread => ["thread_id"]
  | .messageGet | .draftDelete => ["id"]
  | .search => ["q"]
  | .draftCreate => ["account_id", "to_addrs", "cc_addrs", "bcc_addrs"]
  | .draftUpdate =>
    ["id", "to_addrs", "cc_addrs", "bcc_addrs", "subject", "text_body", "html_body"]
  | .messageSetFlags => ["id", "flags"]
  | .messageSend => ["account_id", "draft_id"]
  | .sqlQuery => ["sql"]

/-- The `(field, kind)` pairs `field_kind` accepts for a tool. -/
def fields : Tool → List (String × FieldKind)
  | .accountList | .sqlSchema => []
  | .folderList => [("account_id", .uuidString)]
  | .threadList =>
    [("account_id", .uuidString), ("limit", .integer 1 500), ("offset", .integer 0 Value.i64Max)]
  | .messageListByFolder =>
    [("folder_id", .uuidString), ("limit", .integer 1 500), ("offset", .integer 0 Value.i64Max)]
  | .messageListByThread => [("thread_id", .uuidString)]
  | .messageGet => [("id", .uuidString)]
  | .search =>
    [("q", .string), ("account_id", .nullableUuidString), ("folder_id", .nullableUuidString),
      ("thread_id", .nullableUuidString), ("date_from", .nullableRfc3339),
      ("date_to", .nullableRfc3339), ("from_addr", .nullableString),
      ("to_addr", .nullableString), ("has_attachments", .boolean), ("unread", .boolean),
      ("limit", .integer 1 searchMaxRows), ("offset", .integer 0 Value.i64Max)]
  | .draftCreate =>
    [("account_id", .uuidString), ("in_reply_to_msg", .nullableUuidString),
      ("to_addrs", .stringArray), ("cc_addrs", .stringArray), ("bcc_addrs", .stringArray),
      ("subject", .nullableString), ("text_body", .nullableString),
      ("html_body", .nullableString)]
  | .draftUpdate =>
    [("id", .uuidString), ("to_addrs", .stringArray), ("cc_addrs", .stringArray),
      ("bcc_addrs", .stringArray), ("subject", .nullableString),
      ("text_body", .nullableString), ("html_body", .nullableString)]
  | .draftDelete => [("id", .uuidString)]
  | .messageSetFlags => [("id", .uuidString), ("flags", .stringArray)]
  | .messageSend => [("account_id", .uuidString), ("draft_id", .uuidString)]
  | .sqlQuery => [("sql", .string), ("limit", .integer 1 maxRows)]

end Tool

def findTool (name : String) : Option Tool := Tool.all.find? (fun t => t.name = name)

def fieldKind (tool : Tool) (field : String) : Option FieldKind := tool.fields.lookup field

variable (crates : Crates)

def validateField (field : String) (value : Value) : FieldKind → Except String Unit
  | .string => if value.asStr.isSome then .ok () else .error s!"{field} must be a string"
  | .nullableString =>
    if value.asStr.isSome ∨ value = .null then .ok ()
    else .error s!"{field} must be a string or null"
  | .uuidString =>
    match value.asStr with
    | none => .error s!"{field} must be a string"
    | some s =>
      if (crates.uuid.parseStr s).isSome then .ok ()
      else .error s!"{field} must be a uuid string"
  | .nullableUuidString =>
    if value = .null then .ok ()
    else match value.asStr with
      | none => .error s!"{field} must be a string or null"
      | some s =>
        if (crates.uuid.parseStr s).isSome then .ok ()
        else .error s!"{field} must be a uuid string or null"
  | .nullableRfc3339 =>
    if value = .null then .ok ()
    else match value.asStr with
      | none => .error s!"{field} must be an rfc3339 string or null"
      | some s =>
        if (crates.parseRfc3339 s).isSome then .ok ()
        else .error s!"{field} must be an rfc3339 string or null"
  | .stringArray =>
    match value.asArray with
    | none => .error s!"{field} must be an array of strings"
    | some items =>
      if items.all (fun v => v.asStr.isSome) then .ok ()
      else .error s!"{field} must be an array of strings"
  | .boolean =>
    if value.asBool.isSome then .ok () else .error s!"{field} must be a boolean"
  | .integer minimum maximum =>
    match value.asI64 with
    | none => .error s!"{field} must be an integer"
    | some n =>
      if n < minimum ∨ n > maximum then
        .error s!"{field} must be between {minimum} and {maximum}"
      else .ok ()

def checkRequired (entries : List (String × Value)) : List String → Except String Unit
  | [] => .ok ()
  | field :: rest =>
    if (entries.lookup field).isSome then checkRequired entries rest
    else .error s!"missing required argument '{field}'"

def checkEntries (tool : Tool) : List (String × Value) → Except String Unit
  | [] => .ok ()
  | (field, value) :: rest =>
    match fieldKind tool field with
    | none => .error s!"unexpected argument '{field}'"
    | some kind =>
      match validateField crates field value kind with
      | .error message => .error message
      | .ok () => checkEntries tool rest

def validateArguments (tool : Tool) (arguments : Value) : Except String Value :=
  let object :=
    match arguments with
    | .null => some []
    | .object entries => some entries
    | _ => none
  match object with
  | none => .error "arguments must be an object"
  | some entries =>
    match checkRequired entries tool.required with
    | .error message => .error message
    | .ok () =>
      match checkEntries crates tool entries with
      | .error message => .error message
      | .ok () => .ok (.object entries)

/-- `forward_dangerous_tool`: the daemon sees the validated arguments with the
tool's name as the actor. -/
def withActor (tool : Tool) : Value → Value
  | .object entries =>
    .object (Json.insertEntry "_actor" (.string ("mcp:" ++ tool.name)) entries)
  | args => args

/-! ## What acceptance means -/

/-- A value of the kind a field asks for. -/
def HasKind (kind : FieldKind) (field : String) (value : Value) : Prop :=
  validateField crates field value kind = .ok ()

/-- Every required key is present and every entry has the kind of its field. -/
structure Accepted (tool : Tool) (entries : List (String × Value)) : Prop where
  complete : ∀ field ∈ tool.required, (entries.lookup field).isSome
  typed : ∀ entry ∈ entries, ∃ kind,
    fieldKind tool entry.1 = some kind ∧ HasKind crates kind entry.1 entry.2

theorem checkRequired_ok_iff (entries : List (String × Value)) (fields : List String) :
    checkRequired entries fields = .ok () ↔ ∀ field ∈ fields, (entries.lookup field).isSome := by
  induction fields with
  | nil => simp [checkRequired]
  | cons field rest ih =>
    rw [List.forall_mem_cons, ← ih, checkRequired]
    by_cases h : (entries.lookup field).isSome
    · rw [if_pos h]
      exact ⟨fun hr => ⟨h, hr⟩, fun hr => hr.2⟩
    · rw [if_neg h]
      constructor
      · intro hr
        cases hr
      · intro hr
        exact absurd hr.1 h

theorem checkEntries_ok_iff (tool : Tool) (entries : List (String × Value)) :
    checkEntries crates tool entries = .ok () ↔ ∀ entry ∈ entries, ∃ kind,
      fieldKind tool entry.1 = some kind ∧ HasKind crates kind entry.1 entry.2 := by
  induction entries with
  | nil => simp [checkEntries]
  | cons entry rest ih =>
    obtain ⟨field, value⟩ := entry
    cases hk : fieldKind tool field with
    | none => simp [checkEntries, hk]
    | some kind =>
      cases hv : validateField crates field value kind with
      | error message => simp [checkEntries, hk, hv, HasKind]
      | ok u => simp [checkEntries, hk, hv, HasKind, ih]

/-- Validation accepts exactly the well-typed objects and changes nothing; a
missing object is accepted only where nothing is required. -/
theorem validateArguments_ok_iff (tool : Tool) (arguments result : Value) :
    validateArguments crates tool arguments = .ok result ↔
      ∃ entries, result = .object entries ∧ Accepted crates tool entries ∧
        (arguments = .object entries ∨ (arguments = .null ∧ entries = [])) := by
  have key : ∀ entries, (match checkRequired entries tool.required with
      | .error message => Except.error message
      | .ok () => match checkEntries crates tool entries with
        | .error message => Except.error message
        | .ok () => Except.ok (Value.object entries)) = .ok result ↔
      result = .object entries ∧ Accepted crates tool entries := by
    intro entries
    have h1 := checkRequired_ok_iff entries tool.required
    have h2 := checkEntries_ok_iff crates tool entries
    cases hr : checkRequired entries tool.required with
    | error m =>
      simp only [hr] at h1
      simp only [false_iff, reduceCtorEq] at h1 ⊢
      rintro ⟨-, ha⟩
      exact h1 ha.complete
    | ok u =>
      cases he : checkEntries crates tool entries with
      | error m =>
        simp only [he] at h2
        simp only [false_iff, reduceCtorEq] at h2 ⊢
        rintro ⟨-, ha⟩
        exact h2 ha.typed
      | ok v =>
        simp only [Except.ok.injEq]
        constructor
        · rintro rfl
          exact ⟨rfl, h1.mp hr, h2.mp he⟩
        · rintro ⟨rfl, -⟩
          rfl
  cases arguments with
  | object entries => simpa [validateArguments] using key entries
  | null => simpa [validateArguments] using key []
  | _ => simp [validateArguments]

/-! ## Values of a kind -/

section Fields

variable {crates} {tool : Tool} {entries : List (String × Value)}

theorem Accepted.hasKind (h : Accepted crates tool entries) {field : String} {value : Value}
    {kind : FieldKind} (hl : entries.lookup field = some value)
    (hk : fieldKind tool field = some kind) : HasKind crates kind field value := by
  obtain ⟨l₁, l₂, rfl, -⟩ := List.lookup_eq_some_iff.mp hl
  obtain ⟨kind', hk', hv⟩ := h.typed (field, value) (by simp)
  rw [hk] at hk'
  cases hk'
  exact hv

theorem Accepted.absent (h : Accepted crates tool entries) {field : String}
    (hk : fieldKind tool field = none) : entries.lookup field = none := by
  cases hl : entries.lookup field with
  | none => rfl
  | some value =>
    obtain ⟨l₁, l₂, rfl, -⟩ := List.lookup_eq_some_iff.mp hl
    obtain ⟨kind, hk', -⟩ := h.typed (field, value) (by simp)
    rw [hk] at hk'
    cases hk'

theorem Accepted.present (h : Accepted crates tool entries) (field : String)
    (hr : field ∈ tool.required) : ∃ value, entries.lookup field = some value :=
  Option.isSome_iff_exists.mp (h.complete field hr)

theorem hasKind_uuid {field : String} {value : Value}
    (h : HasKind crates .uuidString field value) :
    ∃ s u, value = .string s ∧ crates.uuid.parseStr s = some u := by
  cases value with
  | string s =>
    cases hp : crates.uuid.parseStr s with
    | none => simp [HasKind, validateField, Value.asStr, hp] at h
    | some u => exact ⟨s, u, rfl, hp⟩
  | _ => simp [HasKind, validateField, Value.asStr] at h

theorem hasKind_nullableUuid {field : String} {value : Value}
    (h : HasKind crates .nullableUuidString field value) :
    value = .null ∨ ∃ s u, value = .string s ∧ crates.uuid.parseStr s = some u := by
  cases value with
  | null => exact .inl rfl
  | string s =>
    cases hp : crates.uuid.parseStr s with
    | none => simp [HasKind, validateField, Value.asStr, hp] at h
    | some u => exact .inr ⟨s, u, rfl, hp⟩
  | _ => simp [HasKind, validateField, Value.asStr] at h

theorem hasKind_nullableString {field : String} {value : Value}
    (h : HasKind crates .nullableString field value) :
    value = .null ∨ ∃ s, value = .string s := by
  cases value with
  | null => exact .inl rfl
  | string s => exact .inr ⟨s, rfl⟩
  | _ => simp [HasKind, validateField, Value.asStr] at h

theorem hasKind_string {field : String} {value : Value}
    (h : HasKind crates .string field value) : ∃ s, value = .string s := by
  cases value with
  | string s => exact ⟨s, rfl⟩
  | _ => simp [HasKind, validateField, Value.asStr] at h

theorem strings_of_all {items : List Value} (h : items.all (fun v => v.asStr.isSome) = true) :
    ∃ l : List String, items = l.map .string := by
  induction items with
  | nil => exact ⟨[], rfl⟩
  | cons v items ih =>
    rw [List.all_cons, Bool.and_eq_true] at h
    obtain ⟨l, rfl⟩ := ih h.2
    cases v with
    | string s => exact ⟨s :: l, rfl⟩
    | _ => simp [Value.asStr] at h

theorem hasKind_stringArray {field : String} {value : Value}
    (h : HasKind crates .stringArray field value) :
    ∃ l : List String, value = .array (l.map .string) := by
  cases value with
  | array items =>
    by_cases ha : items.all (fun v => v.asStr.isSome) = true
    · obtain ⟨l, rfl⟩ := strings_of_all ha
      exact ⟨l, rfl⟩
    · simp [HasKind, validateField, Value.asArray, ha] at h
  | _ => simp [HasKind, validateField, Value.asArray] at h

theorem hasKind_limit {field : String} {value : Value} {maximum : Nat}
    (h : HasKind crates (.integer 1 maximum) field value) :
    ∃ n : UInt64, value = .number (.posInt n) ∧ 0 < n.toNat ∧ n.toNat ≤ maximum := by
  unfold HasKind validateField at h
  cases hv : value.asI64 with
  | none => simp [hv] at h
  | some i =>
    simp only [hv] at h
    split_ifs at h with hb
    cases value with
    | number n =>
      cases n with
      | posInt n =>
        simp only [Value.asI64, Option.ite_none_right_eq_some, Option.some.injEq] at hv
        exact ⟨n, rfl, by omega, by omega⟩
      | negInt m =>
        simp only [Value.asI64, Option.some.injEq] at hv
        omega
      | float x => simp [Value.asI64] at hv
    | _ => simp [Value.asI64] at hv

end Fields

end Postblox.Mcp.Tools
