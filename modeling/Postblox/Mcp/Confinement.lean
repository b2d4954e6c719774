import Postblox.Mcp.BridgeRuns

/-!
# What an agent's arguments can reach

The forwarded object holds the fields of the tool's table and the actor the bridge
writes, and nothing else. The daemon reads the same object again: it finds no
attachment specs, and the actor of its audit row is the bridge's.
-/
namespace Postblox.Mcp.Bridge

open Json (Value)
open Tools
open Lib.Machine
open Daemon.Args (actorFromArgs actorIsAllowed takeAttachmentSpecs)

/-! ## The values of a kind -/

/-- The values a field kind stands for. -/
def OfKind (crates : Crates) : FieldKind → Value → Prop
  | .string, v => ∃ s, v = .string s
  | .nullableString, v => v = .null ∨ ∃ s, v = .string s
  | .uuidString, v => ∃ s u, v = .string s ∧ crates.uuid.parseStr s = some u
  | .nullableUuidString, v => v = .null ∨ ∃ s u, v = .string s ∧ crates.uuid.parseStr s = some u
  | .nullableRfc3339, v => v = .null ∨ ∃ s t, v = .string s ∧ crates.parseRfc3339 s = some t
  | .stringArray, v => ∃ l : List String, v = .array (l.map .string)
  | .boolean, v => ∃ b, v = .bool b
  | .integer minimum maximum, v => ∃ n, v.asI64 = some n ∧ minimum ≤ n ∧ n ≤ maximum

theorem ofKind_of_hasKind {crates : Crates} {kind : FieldKind} {field : String} {value : Value}
    (h : HasKind crates kind field value) : OfKind crates kind value := by
  cases kind with
  | string => exact hasKind_string h
  | nullableString => exact hasKind_nullableString h
  | uuidString => exact hasKind_uuid h
  | nullableUuidString => exact hasKind_nullableUuid h
  | nullableRfc3339 =>
    cases value with
    | null => exact .inl rfl
    | string s =>
      cases hp : crates.parseRfc3339 s with
      | none => simp [HasKind, validateField, Value.asStr, hp] at h
      | some t => exact .inr ⟨s, t, rfl, hp⟩
    | _ => simp [HasKind, validateField, Value.asStr] at h
  | stringArray => exact hasKind_stringArray h
  | boolean =>
    cases value with
    | bool b => exact ⟨b, rfl⟩
    | _ => simp [HasKind, validateField, Value.asBool] at h
  | integer minimum maximum =>
    unfold HasKind validateField at h
    cases hv : value.asI64 with
    | none => simp [hv] at h
    | some n =>
      simp only [hv] at h
      split_ifs at h with hb
      exact ⟨n, hv, by omega, by omega⟩

/-! ## The request and its audit row -/

/-- `protocol::object_params`. -/
def objectParams : Value → Except String (List (String × Value))
  | .null => .ok []
  | .object entries => .ok entries
  | _ => .error "params must be an object"

/-- `handle_tool_call` up to `call_tool`: the tool and the validated arguments. -/
def handleToolCall (crates : Crates) (params : Value) : Except String (Tool × Value) := do
  let params ← objectParams params
  match (params.lookup "name").bind Value.asStr with
  | none => throw "tools/call missing 'name'"
  | some name =>
    match findTool name with
    | none => throw s!"unknown tool '{name}'"
    | some tool =>
      let arguments := (params.lookup "arguments").getD (.object [])
      return (tool, ← validateArguments crates tool arguments)

/-- The actor of the audit row an op writes; the ops that only read write none. -/
def auditActor (op : Op) (args : Value) : Option String :=
  match op with
  | .draftCreate | .draftUpdate | .draftDelete | .messageSetFlags | .messageSend =>
    some (actorFromArgs args)
  | _ => none

/-- What the bridge sends for a tool. -/
structure Confined (crates : Crates) (tool : Tool) (args : Value) : Prop where
  entries : ∃ entries, args = .object entries ∧ ∀ e ∈ entries,
    (∃ kind, fieldKind tool e.1 = some kind ∧ OfKind crates kind e.2) ∨
      tool.dangerous = true ∧ e = ("_actor", .string ("mcp:" ++ tool.name))
  actor : args.get "_actor" =
    if tool.dangerous then some (.string ("mcp:" ++ tool.name)) else none
  attachments : takeAttachmentSpecs crates args = .ok none
  audit : ∀ actor, auditActor tool.op args = some actor → actor = "mcp:" ++ tool.name

theorem fieldKind_actor (tool : Tool) : fieldKind tool "_actor" = none := by
  cases tool <;> decide

theorem fieldKind_attachments (tool : Tool) : fieldKind tool "attachments" = none := by
  cases tool <;> decide

theorem actorIsAllowed_tool (tool : Tool) : actorIsAllowed ("mcp:" ++ tool.name) = true := by
  cases tool <;> decide

/-- Every op that writes an audit row belongs to a dangerous tool. -/
theorem dangerous_of_audited {tool : Tool} {args : Value} {actor : String}
    (h : auditActor tool.op args = some actor) :
    tool.dangerous = true ∧ actor = actorFromArgs args := by
  cases tool <;> first | exact ⟨rfl, (Option.some.inj h).symm⟩ | cases h

theorem confined_of_accepted {crates : Crates} {tool : Tool} {entries : List (String × Value)}
    (h : Accepted crates tool entries) :
    Confined crates tool (Call.start tool (.object entries)).forwardArgs := by
  have htyped : ∀ e ∈ entries, ∃ kind, fieldKind tool e.1 = some kind ∧
      OfKind crates kind e.2 := by
    intro e he
    obtain ⟨kind, hkind, hvalue⟩ := h.typed e he
    exact ⟨kind, hkind, ofKind_of_hasKind hvalue⟩
  have hactor : entries.lookup "_actor" = none := h.absent (fieldKind_actor tool)
  have hfiles : entries.lookup "attachments" = none := h.absent (fieldKind_attachments tool)
  by_cases hd : tool.dangerous = true
  · have hargs : (Call.start tool (.object entries)).forwardArgs =
        .object (Json.insertEntry "_actor" (.string ("mcp:" ++ tool.name)) entries) :=
      if_pos hd
    have hget : ∀ key, (Call.start tool (.object entries)).forwardArgs.get key =
        if key = "_actor" then some (.string ("mcp:" ++ tool.name)) else entries.lookup key := by
      intro key
      rw [hargs]
      exact Json.lookup_insertEntry "_actor" key _ entries
    refine ⟨⟨_, hargs, fun e he => ?_⟩, ?_, ?_, fun actor hact => ?_⟩
    · rcases Json.mem_insertEntry he with heq | hold
      · exact .inr ⟨hd, heq⟩
      · exact .inl (htyped e hold)
    · rw [hget, if_pos rfl, if_pos hd]
    · have hnone : (Call.start tool (.object entries)).forwardArgs.get "attachments" = none := by
        rw [hget, if_neg (by decide)]
        exact hfiles
      unfold takeAttachmentSpecs
      rw [hnone]
    · rw [(dangerous_of_audited hact).2]
      unfold actorFromArgs
      rw [hget, if_pos rfl]
      show ((some ("mcp:" ++ tool.name)).filter (actorIsAllowed ·)).getD "user" = _
      rw [Option.filter_some, if_pos (actorIsAllowed_tool tool)]
      rfl
  · have hargs : (Call.start tool (.object entries)).forwardArgs = .object entries := if_neg hd
    rw [hargs]
    refine ⟨⟨_, rfl, fun e he => .inl (htyped e he)⟩, ?_, ?_, fun actor hact => ?_⟩
    · rw [if_neg hd]
      exact hactor
    · unfold takeAttachmentSpecs
      rw [show (Value.object entries).get "attachments" = none from hfiles]
    · exact absurd (dangerous_of_audited hact).1 hd

theorem confined_of_validated {crates : Crates} {tool : Tool} {arguments args : Value}
    (h : validateArguments crates tool arguments = .ok args) :
    Confined crates tool (Call.start tool args).forwardArgs := by
  obtain ⟨entries, rfl, haccepted, -⟩ := (validateArguments_ok_iff crates tool arguments args).mp h
  exact confined_of_accepted haccepted

theorem validated_of_handleToolCall {crates : Crates} {params args : Value} {tool : Tool}
    (h : handleToolCall crates params = .ok (tool, args)) :
    ∃ arguments, validateArguments crates tool arguments = .ok args := by
  unfold handleToolCall at h
  cases hobject : objectParams params with
  | error message =>
    rw [hobject] at h
    cases h
  | ok entries =>
    rw [hobject] at h
    change (match (entries.lookup "name").bind Value.asStr with
      | none => throw "tools/call missing 'name'"
      | some name => _) = Except.ok (tool, args) at h
    split at h
    · cases h
    · split at h
      · cases h
      · next tool' _ =>
        dsimp only at h
        cases hvalid : validateArguments crates tool'
            ((entries.lookup "arguments").getD (.object [])) with
        | error message =>
          rw [hvalid] at h
          cases h
        | ok args' =>
          rw [hvalid] at h
          obtain ⟨rfl, rfl⟩ := Prod.mk.inj (Except.ok.inj h)
          exact ⟨_, hvalid⟩

theorem name_of_findTool {name : String} {tool : Tool} (h : findTool name = some tool) :
    tool.name = name := by
  have hp := List.find?_some h
  exact of_decide_eq_true hp

/-! ## Every forward of every run -/

theorem forwards_of_step {crates : Crates} {s s' : State} {a : Action}
    (hstep : Step crates s a s') {f : Forward} (hf : f ∈ s'.forwards) :
    f ∈ s.forwards ∨
      ∃ call, s.calls f.call = some call ∧ f.op = call.tool.op ∧ f.args = call.forwardArgs := by
  cases hstep with
  | @send c call hcall hstage =>
    rcases List.mem_append.mp hf with hold | hnew
    · exact .inl hold
    · rw [List.mem_singleton.mp hnew]
      exact .inr ⟨call, hcall, rfl, rfl⟩
  | _ => exact .inl hf

/-- A forward is the op of the tool its call was started for, on arguments that
validation returned. -/
theorem forwards_of_run {crates : Crates} {s : State} {gates : List McpGate} {acts : List Action}
    (hrun : run (step crates) (State.init gates) acts = some s) {f : Forward}
    (hf : f ∈ s.forwards) :
    ∃ tool arguments args, .callTool f.call tool.name arguments ∈ acts ∧
      validateArguments crates tool arguments = .ok args ∧
      f.op = tool.op ∧ f.args = (Call.start tool args).forwardArgs := by
  refine history_invariant (step crates) (P := fun acts s => ∀ f ∈ s.forwards,
    ∃ tool arguments args, .callTool f.call tool.name arguments ∈ acts ∧
      validateArguments crates tool arguments = .ok args ∧
      f.op = tool.op ∧ f.args = (Call.start tool args).forwardArgs)
    (fun _ hf => absurd hf List.not_mem_nil) (fun acts s a t hacts ih hstep f hf => ?_) hrun f hf
  rcases forwards_of_step (step_cases crates hstep) hf with hold | ⟨call, hcall, hop, hargs⟩
  · obtain ⟨tool, arguments, args, hmem, hrest⟩ := ih f hold
    exact ⟨tool, arguments, args, List.mem_append_left _ hmem, hrest⟩
  · obtain ⟨before, name, arguments, after, hsplit, hfind, hvalid⟩ :=
      (provenance (fun _ => rfl) hacts f.call call hcall).started
    refine ⟨call.tool, arguments, call.args, ?_, hvalid, hop, hargs⟩
    rw [hsplit, name_of_findTool hfind]
    exact List.mem_append_left _ (List.mem_append_right _ List.mem_cons_self)

/-- For every `tools/call` the forwarded arguments are confined to the tool's fields and
the bridge's actor, and so is every request for a tool in every run. -/
theorem arguments_are_confined (crates : Crates) :
    (∀ params tool args, handleToolCall crates params = .ok (tool, args) →
      Confined crates tool (Call.start tool args).forwardArgs) ∧
    ∀ gates acts s, run (step crates) (State.init gates) acts = some s → ∀ f ∈ s.forwards,
      ∃ tool arguments, .callTool f.call tool.name arguments ∈ acts ∧ f.op = tool.op ∧
        Confined crates tool f.args := by
  constructor
  · intro params tool args h
    obtain ⟨arguments, hvalid⟩ := validated_of_handleToolCall h
    exact confined_of_validated hvalid
  · intro gates acts s hrun f hf
    obtain ⟨tool, arguments, args, hmem, hvalid, hop, hargs⟩ := forwards_of_run hrun hf
    refine ⟨tool, arguments, hmem, hop, ?_⟩
    rw [hargs]
    exact confined_of_validated hvalid

/-- The allowed deletion is forwarded with its id and the bridge's actor. -/
theorem arguments_are_confined_allowedRun :
    ∃ s f, run (step Crates.plain) (State.init []) (allowedRun ++ [.send 0]) = some s ∧
      s.forwards = [f] ∧ ∃ tool, f.op = tool.op ∧ Confined Crates.plain tool f.args := by
  obtain ⟨s, hs⟩ : ∃ s, run (step Crates.plain) (State.init []) (allowedRun ++ [.send 0]) = some s :=
    Option.isSome_iff_exists.mp (by decide)
  have hone : (run (step Crates.plain) (State.init []) (allowedRun ++ [.send 0])).map
      (fun s => s.forwards.length) = some 1 := by decide
  rw [hs] at hone
  obtain ⟨f, hf⟩ := List.length_eq_one_iff.mp (Option.some.inj hone)
  have hmem : f ∈ s.forwards := by
    rw [hf]
    exact List.mem_cons_self
  obtain ⟨tool, _, _, hop, hconfined⟩ :=
    (arguments_are_confined Crates.plain).2 [] _ s hs f hmem
  exact ⟨s, f, hs, hf, tool, hop, hconfined⟩

end Postblox.Mcp.Bridge
