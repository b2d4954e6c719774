import Postblox.Mcp.Tools

/-!
# The answer to `tools/list`

The name, the description and the input schema of every tool. The schema has a table of
its own in the source; its fields are those that validation accepts.
-/
namespace Postblox.Mcp.Tools

open Json (Value)

/-- An `i64` as a JSON number. -/
def int (n : Int) : Value :=
  if 0 ≤ n then .number (.posInt (.ofNat n.toNat))
  else .number (.negInt (Fin.ofNat _ (-n - 1).toNat))

namespace Schema

def string (name description : String) : String × Value :=
  (name, .object [("description", .string description), ("type", .string "string")])

def nullableString (name description : String) : String × Value :=
  (name, .object [("description", .string description),
    ("type", .array [.string "string", .string "null"])])

def uuid (name description : String) : String × Value :=
  (name, .object [("description", .string description), ("format", .string "uuid"),
    ("type", .string "string")])

def nullableUuid (name description : String) : String × Value :=
  (name, .object [("description", .string description), ("format", .string "uuid"),
    ("type", .array [.string "string", .string "null"])])

def nullableRfc3339 (name description : String) : String × Value :=
  (name, .object [("description", .string description), ("format", .string "date-time"),
    ("type", .array [.string "string", .string "null"])])

def boolean (name description : String) : String × Value :=
  (name, .object [("description", .string description), ("type", .string "boolean")])

def stringArray (name description : String) : String × Value :=
  (name, .object [("description", .string description),
    ("items", .object [("type", .string "string")]), ("type", .string "array")])

def integer (name : String) (minimum maximum : Int) (description : String) : String × Value :=
  (name, .object [("description", .string description), ("maximum", int maximum),
    ("minimum", int minimum), ("type", .string "integer")])

/-- The fields of a tool in the order of the source. -/
def properties : Tool → List (String × Value)
  | .accountList | .sqlSchema => []
  | .folderList => [uuid "account_id" "Account id."]
  | .threadList =>
    [uuid "account_id" "Account id.", integer "limit" 1 500 "Maximum rows to return.",
      integer "offset" 0 Value.i64Max "Rows to skip."]
  | .messageListByFolder =>
    [uuid "folder_id" "Folder id.", integer "limit" 1 500 "Maximum rows to return.",
      integer "offset" 0 Value.i64Max "Rows to skip."]
  | .messageListByThread => [uuid "thread_id" "Thread id."]
  | .messageGet => [uuid "id" "Message id."]
  | .search =>
    [string "q" "Search query.", nullableUuid "account_id" "Restrict to one account.",
      nullableUuid "folder_id" "Restrict to one folder.",
      nullableUuid "thread_id" "Restrict to one thread.",
      nullableRfc3339 "date_from" "Earliest internal date (inclusive).",
      nullableRfc3339 "date_to" "Latest internal date (inclusive).",
      nullableString "from_addr" "Substring match against the sender.",
      nullableString "to_addr" "Substring match against the recipients.",
      boolean "has_attachments" "Filter by presence of attachments.",
      boolean "unread" "Filter by read state (true = unread).",
      integer "limit" 1 searchMaxRows "Maximum rows to return.",
      integer "offset" 0 Value.i64Max "Rows to skip."]
  | .draftCreate =>
    [uuid "account_id" "Account id.",
      nullableUuid "in_reply_to_msg" "Message id this draft replies to.",
      stringArray "to_addrs" "To recipients.", stringArray "cc_addrs" "Cc recipients.",
      stringArray "bcc_addrs" "Bcc recipients.", nullableString "subject" "Draft subject.",
      nullableString "text_body" "Plain text body.", nullableString "html_body" "HTML body."]
  | .draftUpdate =>
    [uuid "id" "Draft id.", stringArray "to_addrs" "To recipients.",
      stringArray "cc_addrs" "Cc recipients.", stringArray "bcc_addrs" "Bcc recipients.",
      nullableString "subject" "Draft subject.", nullableString "text_body" "Plain text body.",
      nullableString "html_body" "HTML body."]
  | .draftDelete => [uuid "id" "Draft id."]
  | .messageSetFlags =>
    [uuid "id" "Message id.", stringArray "flags" "Complete replacement flag list."]
  | .messageSend => [uuid "account_id" "Account id.", uuid "draft_id" "Draft id."]
  | .sqlQuery =>
    [string "sql" "Read-only SQL statement to execute.",
      integer "limit" 1 maxRows "Maximum rows to return; omitted limits use the daemon default."]

/-- The schema lists the fields that validation accepts, in the same order. -/
theorem properties_names (tool : Tool) :
    (properties tool).map Prod.fst = tool.fields.map Prod.fst := by
  cases tool <;> rfl

end Schema

def Tool.description : Tool → String
  | .accountList => "List configured postblox email accounts."
  | .folderList => "List folders for one account."
  | .threadList => "List recent threads for one account."
  | .messageListByFolder =>
    "List message summary rows in a folder (no text_body/html_body)."
  | .messageListByThread =>
    "List message summary rows in a thread (no text_body/html_body)."
  | .messageGet => "Fetch one full message by id, including text_body/html_body."
  | .search =>
    "Search local indexed email and return summary rows (no text_body/html_body) with " ++
      "optional account/folder/thread/date/sender/flag filters."
  | .draftCreate => "Create an email draft."
  | .draftUpdate => "Update an email draft."
  | .draftDelete => "Delete an email draft."
  | .messageSetFlags => "Replace flags on one message."
  | .messageSend => "Send an existing draft through the account SMTP settings."
  | .sqlQuery =>
    "Run a read-only SQL query against the local postblox database. " ++
      "Only SELECT statements are accepted; DDL and DML are rejected. " ++
      "Returns up to `limit` rows as JSON objects."
  | .sqlSchema =>
    "Return CREATE statements for every table, view, index, and " ++
      "trigger in the postblox database. Use this before issuing " ++
      "ad-hoc queries via postblox_sql_query."

def inputSchema (tool : Tool) : Value :=
  .object
    [("additionalProperties", .bool false),
      ("properties", .object ((Schema.properties tool).foldl
        (fun map e => Json.insertEntry e.1 e.2 map) [])),
      ("required", .array (tool.required.map .string)),
      ("type", .string "object")]

def toolJson (tool : Tool) : Value :=
  .object
    [("description", .string tool.description), ("inputSchema", inputSchema tool),
      ("name", .string tool.name)]

def listTools : Value := .object [("tools", .array (Tool.all.map toolJson))]

end Postblox.Mcp.Tools
