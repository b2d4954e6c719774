import Postblox.Daemon.Fetch
import Postblox.Mcp.Session

/-!
# What other sessions learn of an approval

An approval request goes from the bridge to the daemon with all its arguments, and the
daemon announces it with all of them. A bridge hands on the id of the approval, the tool,
the state and a summary; the summary names four fields of the arguments. So two requests
that agree on those four cannot be told apart by their announcements.
-/
namespace Postblox.Mcp.Notices

open Json (Value insertEntry entriesOfContent)
open Tools
open Ipc (Topic toData)
open Bridge (approvalSummary pendingRow)
open Daemon.Args (parseStr)

/-! ## From the bridge to the other sessions -/

/-- The arguments of `mcp.approval.create`, its keys in map order. -/
def createApprovalArgs (crates : Crates) (tool : Tool) (arguments : Value) : Value :=
  .object
    [("_actor", .string ("mcp:" ++ tool.name)),
      ("args", arguments),
      ("summary", .string (approvalSummary crates tool arguments)),
      ("tool", .string tool.name)]

/-- The payload of `mcp.approval_requested`, its keys in map order. -/
def requestedEvent (approval : McpApproval) : Value :=
  .object
    [("approval_id", .string approval.id.hyphenated),
      ("args", approval.args),
      ("state", .string approval.state.asStr),
      ("summary", .string approval.summary),
      ("tool", .string approval.tool)]

/-- The row and the event of `op_mcp_approval_create`; `inserted` is what the `INSERT`
returns, a fresh id or the text of an error. -/
def opMcpApprovalCreate (inserted : Except String Uuid) (args : Value) :
    Except RpcError (McpApproval × Value) := do
  let tool ← parseStr args "tool"
  let approvalArgs := (args.get "args").getD (.object [])
  let summary ← parseStr args "summary"
  let id ← Daemon.Fetch.ctx "mcp::create_approval" inserted
  let approval := pendingRow id tool approvalArgs summary
  return (approval, requestedEvent approval)

/-- What a session with subscription `sub` writes to its client when the approval of a call
is announced; both payloads cross the wire. -/
def announced (crates : Crates) (tool : Tool) (arguments : Value) (inserted : Except String Uuid)
    (sub : UInt64) : Except RpcError Value := do
  let request := (toData (createApprovalArgs crates tool arguments)).val
  let (_, data) ← opMcpApprovalCreate inserted request
  return Stdio.eventMessage ⟨sub, Topic.mcpApprovalRequested.asStr, toData data⟩

/-! ## What the announcement depends on -/

/-- An announcement with an approval id and other fields. -/
def notice (id : Uuid) (rest : List (String × Value)) : Value :=
  Protocol.notification "notifications/postblox/event"
    (.object
      [("data", .object (("approval_id", .string id.hyphenated) :: rest)),
        ("topic", .string Topic.mcpApprovalRequested.asStr)])

/-- The fields of the arguments that the summary names. -/
def summaryKeys : List String := ["id", "account_id", "draft_id", "subject"]

theorem entriesOfContent_sorted (map entries : List (String × Value))
    (h : ((map ++ entries).map Prod.fst).Pairwise (· < ·)) :
    entriesOfContent map entries = map ++ entries.map fun e => (e.1, e.2.ofContent) := by
  induction entries generalizing map with
  | nil => rw [entriesOfContent, List.map_nil, List.append_nil]
  | cons e rest ih =>
    obtain ⟨key, v⟩ := e
    have hbefore : ∀ k ∈ map.map Prod.fst, k < key := by
      rw [List.map_append, List.pairwise_append] at h
      exact fun k hk => h.2.2 k hk key (by simp)
    rw [entriesOfContent, Json.insertEntry_last hbefore, ih]
    · simp only [List.append_assoc, List.singleton_append, List.map_cons]
    · simpa using h

/-- The summary is made of four fields of the arguments. -/
theorem approvalSummary_congr {crates : Crates} {tool : Tool} {a b : Value}
    (h : ∀ key ∈ summaryKeys, a.get key = b.get key) :
    approvalSummary crates tool a = approvalSummary crates tool b := by
  have hfields : (["account_id", "draft_id", "id", "subject"].filterMap
      fun key => (a.get key).map fun value => (key, value)) =
      ["account_id", "draft_id", "id", "subject"].filterMap
        fun key => (b.get key).map fun value => (key, value) := by
    apply List.filterMap_congr
    intro key hkey
    have hmem : ∀ k ∈ ["account_id", "draft_id", "id", "subject"], k ∈ summaryKeys := by decide
    rw [h key (hmem key hkey)]
  unfold approvalSummary
  rw [hfields]

theorem approvalSummary_ne_empty (crates : Crates) (tool : Tool) (arguments : Value) :
    approvalSummary crates tool arguments ≠ "" := by
  have hstart : ∀ s : String, "MCP tool " ++ tool.name ++ s ≠ "" := by
    intro s h
    rw [String.append_assoc] at h
    exact absurd (String.append_eq_empty_iff.mp h).1 (by decide)
  unfold approvalSummary
  dsimp only
  split
  · exact hstart _
  · intro h
    exact hstart _ (String.append_eq_empty_iff.mp h).1

theorem Tool.name_ne_empty (tool : Tool) : tool.name ≠ "" := by
  cases tool <;> decide

/-- The request that reaches the daemon. -/
theorem toData_createApprovalArgs (crates : Crates) (tool : Tool) (arguments : Value) :
    (toData (createApprovalArgs crates tool arguments)).val =
      .object
        [("_actor", .string ("mcp:" ++ tool.name)),
          ("args", arguments.ofContent),
          ("summary", .string (approvalSummary crates tool arguments)),
          ("tool", .string tool.name)] := by
  have hkeys : (["_actor", "args", "summary", "tool"] : List String).Pairwise (· < ·) := by decide
  show Value.object (entriesOfContent [] _) = _
  rw [entriesOfContent_sorted [] [("_actor", _), ("args", _), ("summary", _), ("tool", _)] hkeys]
  rfl

/-- The daemon keeps the request and announces it. -/
theorem opMcpApprovalCreate_request (crates : Crates) (tool : Tool) (arguments : Value) (id : Uuid) :
    opMcpApprovalCreate (.ok id) (toData (createApprovalArgs crates tool arguments)).val =
      .ok (pendingRow id tool.name arguments.ofContent (approvalSummary crates tool arguments),
        requestedEvent (pendingRow id tool.name arguments.ofContent
          (approvalSummary crates tool arguments))) := by
  have htool : ∀ entries, (Value.object entries).get "tool" = some (.string tool.name) →
      parseStr (.object entries) "tool" = .ok tool.name := by
    intro entries h
    rw [parseStr, h, Option.bind_some, Value.asStr, Option.filter_some,
      if_pos (by simpa using Tool.name_ne_empty tool)]
  have hsummary : ∀ entries, (Value.object entries).get "summary" =
        some (.string (approvalSummary crates tool arguments)) →
      parseStr (.object entries) "summary" = .ok (approvalSummary crates tool arguments) := by
    intro entries h
    rw [parseStr, h, Option.bind_some, Value.asStr, Option.filter_some,
      if_pos (by simpa using approvalSummary_ne_empty crates tool arguments)]
  rw [toData_createApprovalArgs, opMcpApprovalCreate, htool _ rfl, hsummary _ rfl]
  rfl

/-- What is handed on of an announcement. -/
theorem eventMessage_requestedEvent (sub : UInt64) (approval : McpApproval) :
    Stdio.eventMessage ⟨sub, Topic.mcpApprovalRequested.asStr, toData (requestedEvent approval)⟩ =
      notice approval.id [("state", .string approval.state.asStr),
        ("summary", .string approval.summary), ("tool", .string approval.tool)] := by
  have hkeys : (["approval_id", "args", "state", "summary", "tool"] : List String).Pairwise
      (· < ·) := by decide
  have hdata : (toData (requestedEvent approval)).val = .object
      [("approval_id", .string approval.id.hyphenated), ("args", approval.args.ofContent),
        ("state", .string approval.state.asStr), ("summary", .string approval.summary),
        ("tool", .string approval.tool)] := by
    show Value.object (entriesOfContent [] _) = _
    rw [entriesOfContent_sorted []
      [("approval_id", _), ("args", _), ("state", _), ("summary", _), ("tool", _)] hkeys]
    rfl
  rw [Stdio.eventMessage, Stdio.forwardEventData, if_neg (by simp), hdata]
  rfl

theorem announced_ok (crates : Crates) (tool : Tool) (arguments : Value) (id : Uuid)
    (sub : UInt64) :
    announced crates tool arguments (.ok id) sub =
      .ok (notice id [("state", .string ApprovalState.pending.asStr),
        ("summary", .string (approvalSummary crates tool arguments)),
        ("tool", .string tool.name)]) := by
  rw [announced, opMcpApprovalCreate_request]
  show Except.ok (Stdio.eventMessage _) = _
  rw [eventMessage_requestedEvent]
  rfl

/-- Two requests for one tool that agree on the fields of the summary are announced alike,
up to the id of the approval, whatever else their arguments hold. -/
theorem approval_notices_do_not_leak {crates : Crates} {tool : Tool} {a b a' b' : Value}
    (_ha : validateArguments crates tool a = .ok a') (_hb : validateArguments crates tool b = .ok b')
    (hagree : ∀ key ∈ summaryKeys, a'.get key = b'.get key) (id₁ id₂ : Uuid) (sub₁ sub₂ : UInt64) :
    ∃ rest, announced crates tool a' (.ok id₁) sub₁ = .ok (notice id₁ rest) ∧
      announced crates tool b' (.ok id₂) sub₂ = .ok (notice id₂ rest) := by
  refine ⟨_, announced_ok crates tool a' id₁ sub₁, ?_⟩
  rw [approvalSummary_congr hagree]
  exact announced_ok crates tool b' id₂ sub₂

/-- A draft to one recipient. -/
def draftTo (recipient body : String) : Value :=
  .object [("account_id", .string (Uuid.hyphenated (.filled 1))), ("bcc_addrs", .array []),
    ("cc_addrs", .array []), ("subject", .string "Hi"), ("text_body", .string body),
    ("to_addrs", .array [.string recipient])]

theorem draft_notices_do_not_leak :
    ∃ rest,
      announced Crates.plain .draftCreate (draftTo "ada@example.com" "Yes.") (.ok (.filled 2)) 1 =
        .ok (notice (.filled 2) rest) ∧
      announced Crates.plain .draftCreate (draftTo "bob@example.com" "No.") (.ok (.filled 3)) 1 =
        .ok (notice (.filled 3) rest) :=
  approval_notices_do_not_leak (a := draftTo "ada@example.com" "Yes.")
    (b := draftTo "bob@example.com" "No.") (by decide) (by decide +kernel)
    (by decide) (.filled 2) (.filled 3) 1 1

end Postblox.Mcp.Notices
