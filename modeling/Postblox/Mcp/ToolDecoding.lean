import Postblox.Daemon.Decoders
import Postblox.Mcp.Confinement
import Postblox.Mcp.Spelling

/-!
# What the daemon makes of validated arguments

The bridge checks the arguments of a tool against its table, the daemon decodes them
again with rules of its own. `decodeTool` is the head of the handler of each tool's op,
and `uses` is what the handler then works with, the bounds of its query included. The
two agree but for `search`, whose handler wants a query that is not blank and address
filters that are not empty.
-/
namespace Postblox.Mcp.Decoding

open Json (Value)
open Tools
open Daemon.Args
open Bridge (OfKind ofKind_of_hasKind confined_of_validated fieldKind_actor)

/-- What the handler of a tool's op goes on with. -/
inductive ToolDecoded where
  /-- The ops that the terminal client sends too. -/
  | client (decoded : Decoded)
  | threadList (accountId : Uuid) (limit offset : Int)
  | messageListByThread (threadId : Uuid)
  | sqlSchema

section Decoders

variable (crates : Crates)

def threadListArgs (args : Value) : Except RpcError ToolDecoded := do
  let accountId ← parseId crates args "account_id"
  return .threadList accountId (i64Or args "limit" 50) (i64Or args "offset" 0)

def decodeTool (tool : Tool) (args : Value) : Except RpcError ToolDecoded :=
  match tool with
  | .accountList => (decodeArgs crates .accountList args).map .client
  | .folderList => (decodeArgs crates .folderList args).map .client
  | .threadList => threadListArgs crates args
  | .messageListByFolder => (decodeArgs crates .messageListByFolder args).map .client
  | .messageListByThread => (parseId crates args "thread_id").map .messageListByThread
  | .messageGet => (decodeArgs crates .messageGet args).map .client
  | .search => (decodeArgs crates .search args).map .client
  | .draftCreate => (decodeArgs crates .draftCreate args).map .client
  | .draftUpdate => (decodeArgs crates .draftUpdate args).map .client
  | .draftDelete => (decodeArgs crates .draftDelete args).map .client
  | .messageSetFlags => (decodeArgs crates .messageSetFlags args).map .client
  | .messageSend => (decodeArgs crates .messageSend args).map .client
  | .sqlQuery => (sqlQueryArgs args).map fun operation => .client (.operation operation)
  | .sqlSchema => .ok .sqlSchema

end Decoders

/-! ## What a field is worth -/

/-- A decoded field. -/
inductive Setting where
  | id (u : Uuid)
  | text (s : String)
  | texts (l : List String)
  | instant (t : Int)
  | flag (b : Bool)
  | number (n : Int)
  deriving DecidableEq

/-- What a value of a kind says; `null` says nothing. -/
def reads (crates : Crates) : FieldKind → Value → Option Setting
  | .string, v | .nullableString, v => v.asStr.map .text
  | .uuidString, v | .nullableUuidString, v => (uuidValue crates v).map .id
  | .nullableRfc3339, v => (v.asStr.bind crates.parseRfc3339).map .instant
  | .stringArray, v => (stringVec v).map .texts
  | .boolean, v => v.asBool.map .flag
  | .integer _ _, v => v.asI64.map .number

/-- `limit.clamp(1, 500)` in the listing queries. -/
def rowLimit (limit : Int) : Int := max 1 (min limit 500)

/-- `offset.max(0)` there. -/
def rowOffset (offset : Int) : Int := max offset 0

/-- `limit.clamp(1, MAX_ROWS)` in `sql_query::query`. -/
def sqlCap (limit : Nat) : Nat := max 1 (min limit maxRows)

/-- The fields of an op with the values that its queries are made with. -/
def settings : ToolDecoded → List (String × Option Setting)
  | .client (.folderList accountId) => [("account_id", some (.id accountId))]
  | .client (.messageListByFolder folderId limit offset) =>
    [("folder_id", some (.id folderId)), ("limit", some (.number (rowLimit limit))),
      ("offset", some (.number (rowOffset offset)))]
  | .client (.messageGet id) => [("id", some (.id id))]
  | .client (.search q filters limit offset) =>
    [("q", some (.text q)), ("account_id", filters.accountId.map .id),
      ("folder_id", filters.folderId.map .id), ("thread_id", filters.threadId.map .id),
      ("date_from", filters.dateFrom.map .instant), ("date_to", filters.dateTo.map .instant),
      ("from_addr", filters.fromAddr.map .text), ("to_addr", filters.toAddr.map .text),
      ("has_attachments", filters.hasAttachments.map .flag),
      ("unread", filters.unread.map .flag), ("limit", some (.number (rowLimit limit))),
      ("offset", some (.number (rowOffset offset)))]
  | .client (.operation (.draftCreate new _)) =>
    [("account_id", some (.id new.accountId)), ("in_reply_to_msg", new.inReplyToMsg.map .id),
      ("to_addrs", some (.texts new.toAddrs)), ("cc_addrs", some (.texts new.ccAddrs)),
      ("bcc_addrs", some (.texts new.bccAddrs)), ("subject", new.subject.map .text),
      ("text_body", new.textBody.map .text), ("html_body", new.htmlBody.map .text)]
  | .client (.operation (.draftUpdate upd _)) =>
    [("id", some (.id upd.id)), ("to_addrs", some (.texts upd.toAddrs)),
      ("cc_addrs", some (.texts upd.ccAddrs)), ("bcc_addrs", some (.texts upd.bccAddrs)),
      ("subject", upd.subject.map .text), ("text_body", upd.textBody.map .text),
      ("html_body", upd.htmlBody.map .text)]
  | .client (.operation (.draftDelete id)) => [("id", some (.id id))]
  | .client (.operation (.messageSetFlags id flags)) =>
    [("id", some (.id id)), ("flags", some (.texts flags))]
  | .client (.operation (.messageSend accountId draftId)) =>
    [("account_id", some (.id accountId)), ("draft_id", some (.id draftId))]
  | .client (.operation (.sqlQuery sql limit)) =>
    [("sql", some (.text sql)), ("limit", some (.number (sqlCap limit)))]
  | .threadList accountId limit offset =>
    [("account_id", some (.id accountId)), ("limit", some (.number (rowLimit limit))),
      ("offset", some (.number (rowOffset offset)))]
  | .messageListByThread threadId => [("thread_id", some (.id threadId))]
  | _ => []

def ToolDecoded.uses (d : ToolDecoded) (field : String) : Option Setting :=
  ((settings d).lookup field).join

/-- Every field that was given is the one that is used. -/
def Honours (crates : Crates) (tool : Tool) (args : Value) (d : ToolDecoded) : Prop :=
  ∀ field kind value, fieldKind tool field = some kind → args.get field = some value →
    d.uses field = reads crates kind value

/-- The search that its handler does not take. -/
def BlankSearch (tool : Tool) (args : Value) : Prop :=
  tool = .search ∧ ((∃ q, args.get "q" = some (.string q) ∧ Mail.trim q.toList = []) ∨
    args.get "from_addr" = some (.string "") ∨ args.get "to_addr" = some (.string ""))

/-! ## One field -/

section Fields

variable {crates : Crates} {args : Value} {field : String}

/-- A field that has its kind when it is there. -/
def Typed (crates : Crates) (args : Value) (field : String) (kind : FieldKind) : Prop :=
  ∀ value, args.get field = some value → OfKind crates kind value

/-- What was given for a field. -/
def given (crates : Crates) (args : Value) (kind : FieldKind) (field : String) : Option Setting :=
  (args.get field).bind (reads crates kind)

theorem parseId_typed (h : Typed crates args field .uuidString)
    (hthere : (args.get field).isSome) :
    ∃ u, parseId crates args field = .ok u ∧ requiredField (uuidValue crates) args field = some u ∧
      given crates args .uuidString field = some (.id u) := by
  obtain ⟨value, hvalue⟩ := Option.isSome_iff_exists.mp hthere
  obtain ⟨s, u, rfl, hparse⟩ := h value hvalue
  refine ⟨u, ?_, ?_, ?_⟩
  · simp [parseId, hvalue, Value.asStr, hparse]
  · simp [requiredField, hvalue, uuidValue, Value.asStr, hparse]
  · simp [given, hvalue, reads, uuidValue, Value.asStr, hparse]

theorem optionalId_typed (h : Typed crates args field .nullableUuidString) :
    ∃ o, optionalId crates args field = .ok o ∧ optionField (uuidValue crates) args field = some o ∧
      given crates args .nullableUuidString field = o.map .id := by
  cases hvalue : args.get field with
  | none => exact ⟨none, by simp [optionalId, hvalue], by simp [optionField, hvalue],
      by simp [given, hvalue]⟩
  | some value =>
    rcases h value hvalue with rfl | ⟨s, u, rfl, hparse⟩
    · exact ⟨none, by simp [optionalId, hvalue], by simp [optionField, hvalue],
        by simp [given, hvalue, reads, uuidValue, Value.asStr]⟩
    · refine ⟨some u, ?_, ?_, ?_⟩
      · simp [optionalId, parseId, hvalue, Value.asStr, hparse, Except.map]
      · simp [optionField, hvalue, uuidValue, Value.asStr, hparse]
      · simp [given, hvalue, reads, uuidValue, Value.asStr, hparse]

theorem optionalStr_typed (h : Typed crates args field .nullableString) :
    ∃ o, optionalStr args field = .ok o ∧ optionField Value.asStr args field = some o ∧
      given crates args .nullableString field = o.map .text ∧
      (o = some "" ↔ args.get field = some (.string "")) := by
  cases hvalue : args.get field with
  | none => exact ⟨none, by simp [optionalStr, hvalue], by simp [optionField, hvalue],
      by simp [given, hvalue], by simp⟩
  | some value =>
    rcases h value hvalue with rfl | ⟨s, rfl⟩
    · exact ⟨none, by simp [optionalStr, hvalue], by simp [optionField, hvalue],
        by simp [given, hvalue, reads, Value.asStr], by simp⟩
    · refine ⟨some s, ?_, ?_, ?_, by simp⟩
      · simp [optionalStr, hvalue]
      · simp [optionField, hvalue, Value.asStr]
      · simp [given, hvalue, reads, Value.asStr]

theorem optionalNonemptyString_typed (h : Typed crates args field .nullableString) :
    (args.get field = some (.string "") ∧ ∃ e, optionalNonemptyString args field = .error e ∧
      e.code = .badArgs) ∨
    (args.get field ≠ some (.string "") ∧ ∃ o, optionalNonemptyString args field = .ok o ∧
      given crates args .nullableString field = o.map .text) := by
  obtain ⟨o, hread, -, hgiven, hempty⟩ := optionalStr_typed h
  unfold optionalNonemptyString
  rw [hread]
  cases o with
  | none => exact .inr ⟨(fun heq => nomatch hempty.mpr heq), none, rfl, hgiven⟩
  | some s =>
    by_cases hs : s = ""
    · subst hs
      exact .inl ⟨hempty.mp rfl, _, rfl, rfl⟩
    · refine .inr ⟨fun heq => hs (Option.some.inj (hempty.mpr heq)), some s, ?_, hgiven⟩
      show (if s = "" then _ else _) = _
      rw [if_neg hs]
      rfl

theorem optionalRfc3339_typed (h : Typed crates args field .nullableRfc3339) :
    ∃ o, optionalRfc3339 crates args field = .ok o ∧
      given crates args .nullableRfc3339 field = o.map .instant := by
  cases hvalue : args.get field with
  | none => exact ⟨none, by simp [optionalRfc3339, optionalStr, hvalue]; rfl, by simp [given, hvalue]⟩
  | some value =>
    rcases h value hvalue with rfl | ⟨s, t, rfl, hparse⟩
    · exact ⟨none, by simp [optionalRfc3339, optionalStr, hvalue]; rfl,
        by simp [given, hvalue, reads, Value.asStr]⟩
    · refine ⟨some t, ?_, ?_⟩
      · simp [optionalRfc3339, optionalStr, hvalue, bind, Except.bind, hparse]
        rfl
      · simp [given, hvalue, reads, Value.asStr, hparse]

theorem optionalBool_typed (h : Typed crates args field .boolean) :
    ∃ o, optionalBool args field = .ok o ∧ given crates args .boolean field = o.map .flag := by
  cases hvalue : args.get field with
  | none => exact ⟨none, by simp [optionalBool, hvalue], by simp [given, hvalue]⟩
  | some value =>
    obtain ⟨b, rfl⟩ := h value hvalue
    exact ⟨some b, by simp [optionalBool, hvalue], by simp [given, hvalue, reads, Value.asBool]⟩

theorem strings_typed (h : Typed crates args field .stringArray)
    (hthere : (args.get field).isSome) :
    ∃ l, requiredField stringVec args field = some l ∧ defaultedField stringVec args field = some l ∧
      (∃ value, args.get field = some value ∧ parseMessageFlags value = .ok l) ∧
      given crates args .stringArray field = some (.texts l) := by
  obtain ⟨value, hvalue⟩ := Option.isSome_iff_exists.mp hthere
  obtain ⟨l, rfl⟩ := h value hvalue
  have hread := Spelling.stringVec_map l
  refine ⟨l, ?_, ?_, ⟨_, hvalue, ?_⟩, ?_⟩
  · simp [requiredField, hvalue, hread]
  · simp [defaultedField, hvalue, hread]
  · simp [parseMessageFlags, hread]
  · simp [given, hvalue, reads, hread]

theorem text_typed (h : Typed crates args field .string) (hthere : (args.get field).isSome) :
    ∃ s, args.get field = some (.string s) ∧
      given crates args .string field = some (.text s) := by
  obtain ⟨value, hvalue⟩ := Option.isSome_iff_exists.mp hthere
  obtain ⟨s, rfl⟩ := h value hvalue
  exact ⟨s, hvalue, by simp [given, hvalue, reads, Value.asStr]⟩

/-- An integer within the bounds of its kind is what a handler with a default works with. -/
theorem i64Or_typed {minimum maximum : Int} (h : Typed crates args field (.integer minimum maximum))
    {value : Value} (hvalue : args.get field = some value) (default : Int) :
    reads crates (.integer minimum maximum) value = some (.number (i64Or args field default)) ∧
      minimum ≤ i64Or args field default ∧ i64Or args field default ≤ maximum := by
  obtain ⟨n, hn, hge, hle⟩ := h value hvalue
  have hor : i64Or args field default = n := by
    simp [i64Or, hvalue, hn]
  rw [hor]
  exact ⟨by simp [reads, hn], hge, hle⟩

end Fields

/-! ## The tools -/

section Tools

variable {crates : Crates} {tool : Tool} {args : Value}

/-- The arguments as the daemon gets them: every field of its kind, none missing. -/
structure Ready (crates : Crates) (tool : Tool) (args : Value) : Prop where
  typed : ∀ field kind, fieldKind tool field = some kind → Typed crates args field kind
  there : ∀ field ∈ tool.required, (args.get field).isSome
  attachments : takeAttachmentSpecs crates args = .ok none
  extra : ∀ field, fieldKind tool field = none → field ≠ "_actor" → args.get field = none

/-- The bridge adds nothing but the actor. -/
theorem get_forwardArgs (tool : Tool) (entries : List (String × Value)) {field : String}
    (hactor : field ≠ "_actor") :
    (Bridge.Call.start tool (.object entries)).forwardArgs.get field = entries.lookup field := by
  unfold Bridge.Call.forwardArgs
  split_ifs
  · exact Spelling.forwarded_get tool entries hactor
  · rfl

theorem ready_of_validated {arguments : Value}
    (h : validateArguments crates tool arguments = .ok args) :
    Ready crates tool (Bridge.Call.start tool args).forwardArgs := by
  have hconfined := confined_of_validated h
  obtain ⟨entries, rfl, haccepted, -⟩ := (validateArguments_ok_iff crates tool arguments args).mp h
  have hget : ∀ field, field ≠ "_actor" →
      (Bridge.Call.start tool (.object entries)).forwardArgs.get field = entries.lookup field :=
    fun _ => get_forwardArgs tool entries
  have hother : ∀ field kind, fieldKind tool field = some kind → field ≠ "_actor" := by
    rintro field kind hkind rfl
    rw [fieldKind_actor] at hkind
    cases hkind
  refine ⟨?_, ?_, hconfined.attachments, ?_⟩
  · intro field kind hkind value hvalue
    rw [hget field (hother field kind hkind)] at hvalue
    exact ofKind_of_hasKind (haccepted.hasKind hvalue hkind)
  · intro field hfield
    have hactor : field ≠ "_actor" := by
      rintro rfl
      revert hfield
      cases tool <;> decide
    rw [hget field hactor]
    exact haccepted.complete field hfield
  · intro field hkind hactor
    rw [hget field hactor]
    exact haccepted.absent hkind

/-- The fields may be looked at one after the other. -/
theorem honours_of_fields {d : ToolDecoded}
    (h : ∀ e ∈ tool.fields, ∀ value, args.get e.1 = some value →
      d.uses e.1 = reads crates e.2 value) : Honours crates tool args d := by
  intro field kind value hkind hvalue
  obtain ⟨l₁, l₂, heq, -⟩ := List.lookup_eq_some_iff.mp hkind
  exact h (field, kind) (by rw [heq]; simp) value hvalue

theorem used_of_given {d : ToolDecoded} {kind : FieldKind} {field : String}
    (h : given crates args kind field = d.uses field) {value : Value}
    (hvalue : args.get field = some value) : d.uses field = reads crates kind value := by
  rw [← h, given, hvalue]
  rfl

theorem rowLimit_eq {limit : Int} (hge : 1 ≤ limit) (hle : limit ≤ 500) : rowLimit limit = limit := by
  unfold rowLimit
  omega

theorem rowOffset_eq {offset : Int} (h : 0 ≤ offset) : rowOffset offset = offset := by
  unfold rowOffset
  omega

/-- The limit and offset of a listing are used as given. -/
theorem page_used (hready : Ready crates tool args) {maximum : Int} (hmax : maximum ≤ 500)
    (hlimit : fieldKind tool "limit" = some (.integer 1 maximum))
    (hoffset : fieldKind tool "offset" = some (.integer 0 Value.i64Max)) :
    (∀ value, args.get "limit" = some value →
      some (.number (rowLimit (i64Or args "limit" 50))) =
        reads crates (.integer 1 maximum) value) ∧
    ∀ value, args.get "offset" = some value →
      some (.number (rowOffset (i64Or args "offset" 0))) =
        reads crates (.integer 0 Value.i64Max) value := by
  constructor
  · intro value hvalue
    obtain ⟨hread, hge, hle⟩ := i64Or_typed (hready.typed _ _ hlimit) hvalue 50
    rw [hread, rowLimit_eq hge (by omega)]
  · intro value hvalue
    obtain ⟨hread, hge, -⟩ := i64Or_typed (hready.typed _ _ hoffset) hvalue 0
    rw [hread, rowOffset_eq hge]

/-- The op takes the arguments and uses what they say. -/
def Taken (crates : Crates) (tool : Tool) (args : Value) : Prop :=
  ∃ d, decodeTool crates tool args = .ok d ∧ Honours crates tool args d

/-- The tools whose only field is an id. -/
theorem taken_of_id {field : String} (hready : Ready crates tool args)
    (hfields : tool.fields = [(field, .uuidString)]) (hrequired : field ∈ tool.required)
    (make : Uuid → ToolDecoded)
    (hdecode : decodeTool crates tool args = (parseId crates args field).map make)
    (huses : ∀ u, (make u).uses field = some (.id u)) : Taken crates tool args := by
  have hkind : fieldKind tool field = some .uuidString := by
    unfold fieldKind
    rw [hfields, List.lookup_cons, BEq.rfl]
  obtain ⟨u, hparse, -, hgiven⟩ :=
    parseId_typed (hready.typed _ _ hkind) (hready.there field hrequired)
  refine ⟨make u, ?_, honours_of_fields ?_⟩
  · rw [hdecode, hparse]
    rfl
  · rw [hfields, List.forall_mem_singleton]
    exact fun value hvalue => used_of_given (hgiven.trans (huses u).symm) hvalue

theorem taken_threadList (hready : Ready crates .threadList args) :
    Taken crates .threadList args := by
  obtain ⟨u, hparse, -, hgiven⟩ :=
    parseId_typed (hready.typed "account_id" _ rfl) (hready.there _ (by decide))
  obtain ⟨hlimit, hoffset⟩ := page_used hready (by decide) rfl rfl
  refine ⟨.threadList u (i64Or args "limit" 50) (i64Or args "offset" 0), ?_, honours_of_fields ?_⟩
  · show threadListArgs crates args = _
    unfold threadListArgs
    rw [hparse]
    rfl
  · simp only [Tool.fields, List.forall_mem_cons]
    exact ⟨fun value hvalue => used_of_given hgiven hvalue, hlimit, hoffset, by simp⟩

theorem taken_messageListByFolder (hready : Ready crates .messageListByFolder args) :
    Taken crates .messageListByFolder args := by
  obtain ⟨u, hparse, -, hgiven⟩ :=
    parseId_typed (hready.typed "folder_id" _ rfl) (hready.there _ (by decide))
  obtain ⟨hlimit, hoffset⟩ := page_used hready (by decide) rfl rfl
  refine ⟨.client (.messageListByFolder u (i64Or args "limit" 50) (i64Or args "offset" 0)), ?_,
    honours_of_fields ?_⟩
  · show (decodeArgs crates .messageListByFolder args).map ToolDecoded.client = _
    simp only [decodeArgs, hparse]
    rfl
  · simp only [Tool.fields, List.forall_mem_cons]
    exact ⟨fun value hvalue => used_of_given hgiven hvalue, hlimit, hoffset, by simp⟩

theorem taken_messageSend (hready : Ready crates .messageSend args) :
    Taken crates .messageSend args := by
  obtain ⟨account, haccount, -, hgivenAccount⟩ :=
    parseId_typed (hready.typed "account_id" _ rfl) (hready.there _ (by decide))
  obtain ⟨draft, hdraft, -, hgivenDraft⟩ :=
    parseId_typed (hready.typed "draft_id" _ rfl) (hready.there _ (by decide))
  refine ⟨.client (.operation (.messageSend account draft)), ?_, honours_of_fields ?_⟩
  · show (decodeArgs crates .messageSend args).map ToolDecoded.client = _
    simp only [decodeArgs, haccount, hdraft]
    rfl
  · simp only [Tool.fields, List.forall_mem_cons]
    exact ⟨fun value hvalue => used_of_given hgivenAccount hvalue,
      fun value hvalue => used_of_given hgivenDraft hvalue, by simp⟩

theorem taken_messageSetFlags (hready : Ready crates .messageSetFlags args) :
    Taken crates .messageSetFlags args := by
  obtain ⟨u, hparse, -, hgiven⟩ :=
    parseId_typed (hready.typed "id" _ rfl) (hready.there _ (by decide))
  obtain ⟨flags, -, -, ⟨value, hvalue, hflags⟩, hgivenFlags⟩ :=
    strings_typed (hready.typed "flags" _ rfl) (hready.there _ (by decide))
  refine ⟨.client (.operation (.messageSetFlags u flags)), ?_, honours_of_fields ?_⟩
  · show (decodeArgs crates .messageSetFlags args).map ToolDecoded.client = _
    simp only [decodeArgs, messageSetFlagsArgs, hparse, hvalue, hflags]
    rfl
  · simp only [Tool.fields, List.forall_mem_cons]
    exact ⟨fun value hvalue => used_of_given hgiven hvalue,
      fun value hvalue => used_of_given hgivenFlags hvalue, by simp⟩

theorem taken_sqlQuery (hready : Ready crates .sqlQuery args) : Taken crates .sqlQuery args := by
  obtain ⟨sql, hsql, hgiven⟩ :=
    text_typed (hready.typed "sql" _ rfl) (hready.there _ (by decide))
  have hlimit : ∃ limit, sqlLimit args = .ok limit ∧ ∀ value, args.get "limit" = some value →
      some (.number (sqlCap limit)) = reads crates (.integer 1 maxRows) value := by
    cases hvalue : args.get "limit" with
    | none => exact ⟨defaultRows, by simp [sqlLimit, hvalue], fun _ h => nomatch h⟩
    | some value =>
      obtain ⟨n, hn, hge, hle⟩ := hready.typed "limit" _ rfl value hvalue
      obtain ⟨k, rfl, hk⟩ : ∃ k : UInt64, value = .number (.posInt k) ∧ (k.toNat : Int) = n := by
        cases value with
        | number number =>
          cases number with
          | posInt k =>
            simp only [Value.asI64, Option.ite_none_right_eq_some, Option.some.injEq] at hn
            exact ⟨k, rfl, hn.2⟩
          | negInt m =>
            simp only [Value.asI64, Option.some.injEq] at hn
            omega
          | float x => cases hn
        | _ => cases hn
      have hrows : maxRows = 1000 := rfl
      refine ⟨k.toNat, ?_, ?_⟩
      · have hpos : (some k.toNat).filter (fun limit => decide (0 < limit)) = some k.toNat := by
          rw [Option.filter_some, if_pos (decide_eq_true (by omega))]
        simp only [sqlLimit, hvalue, Value.asU64, hpos]
        rw [Nat.min_eq_left (by omega)]
      · intro value' hvalue'
        obtain rfl := Option.some.inj hvalue'
        have hcap : sqlCap k.toNat = k.toNat := by
          unfold sqlCap
          omega
        rw [hcap, hk]
        simp [reads, hn]
  obtain ⟨limit, hdecode, hused⟩ := hlimit
  refine ⟨.client (.operation (.sqlQuery sql limit)), ?_, honours_of_fields ?_⟩
  · show (sqlQueryArgs args).map _ = _
    simp only [sqlQueryArgs, hsql, hdecode, Option.bind_some, Value.asStr]
    rfl
  · simp only [Tool.fields, List.forall_mem_cons]
    exact ⟨fun value hvalue => used_of_given hgiven hvalue, hused, by simp⟩

theorem taken_draftCreate (hready : Ready crates .draftCreate args) :
    Taken crates .draftCreate args := by
  have hnone : ∀ field, fieldKind .draftCreate field = none → field ≠ "_actor" →
      optionField Value.asStr args field = some none := by
    intro field hkind hactor
    unfold optionField
    rw [hready.extra field hkind hactor]
  obtain ⟨account, -, haccount, hgivenAccount⟩ :=
    parseId_typed (hready.typed "account_id" _ rfl) (hready.there _ (by decide))
  obtain ⟨reply, -, hreply, hgivenReply⟩ := optionalId_typed (hready.typed "in_reply_to_msg" _ rfl)
  obtain ⟨toAddrs, hto, -, -, hgivenTo⟩ :=
    strings_typed (hready.typed "to_addrs" _ rfl) (hready.there _ (by decide))
  obtain ⟨ccAddrs, hcc, -, -, hgivenCc⟩ :=
    strings_typed (hready.typed "cc_addrs" _ rfl) (hready.there _ (by decide))
  obtain ⟨bccAddrs, hbcc, -, -, hgivenBcc⟩ :=
    strings_typed (hready.typed "bcc_addrs" _ rfl) (hready.there _ (by decide))
  obtain ⟨subject, -, hsubject, hgivenSubject, -⟩ :=
    optionalStr_typed (hready.typed "subject" _ rfl)
  obtain ⟨textBody, -, htext, hgivenText, -⟩ := optionalStr_typed (hready.typed "text_body" _ rfl)
  obtain ⟨htmlBody, -, hhtml, hgivenHtml, -⟩ := optionalStr_typed (hready.typed "html_body" _ rfl)
  have hnew : newDraft crates args = some ⟨account, reply, toAddrs, ccAddrs, bccAddrs, subject,
      textBody, htmlBody, none, none⟩ := by
    simp only [newDraft, haccount, hreply, hto, hcc, hbcc, hsubject, htext, hhtml,
      hnone "in_reply_to" rfl (by decide), hnone "references_header" rfl (by decide)]
    rfl
  refine ⟨.client (.operation (.draftCreate ⟨account, reply, toAddrs, ccAddrs, bccAddrs, subject,
    textBody, htmlBody, none, none⟩ none)), ?_, honours_of_fields ?_⟩
  · show (decodeArgs crates .draftCreate args).map ToolDecoded.client = _
    simp only [decodeArgs, draftCreateArgs, hready.attachments, hnew]
    rfl
  · simp only [Tool.fields, List.forall_mem_cons]
    exact ⟨fun value hvalue => used_of_given hgivenAccount hvalue,
      fun value hvalue => used_of_given hgivenReply hvalue,
      fun value hvalue => used_of_given hgivenTo hvalue,
      fun value hvalue => used_of_given hgivenCc hvalue,
      fun value hvalue => used_of_given hgivenBcc hvalue,
      fun value hvalue => used_of_given hgivenSubject hvalue,
      fun value hvalue => used_of_given hgivenText hvalue,
      fun value hvalue => used_of_given hgivenHtml hvalue, by simp⟩

theorem taken_draftUpdate (hready : Ready crates .draftUpdate args) :
    Taken crates .draftUpdate args := by
  obtain ⟨id, -, hid, hgivenId⟩ :=
    parseId_typed (hready.typed "id" _ rfl) (hready.there _ (by decide))
  obtain ⟨toAddrs, -, hto, -, hgivenTo⟩ :=
    strings_typed (hready.typed "to_addrs" _ rfl) (hready.there _ (by decide))
  obtain ⟨ccAddrs, -, hcc, -, hgivenCc⟩ :=
    strings_typed (hready.typed "cc_addrs" _ rfl) (hready.there _ (by decide))
  obtain ⟨bccAddrs, -, hbcc, -, hgivenBcc⟩ :=
    strings_typed (hready.typed "bcc_addrs" _ rfl) (hready.there _ (by decide))
  obtain ⟨subject, -, hsubject, hgivenSubject, -⟩ :=
    optionalStr_typed (hready.typed "subject" _ rfl)
  obtain ⟨textBody, -, htext, hgivenText, -⟩ := optionalStr_typed (hready.typed "text_body" _ rfl)
  obtain ⟨htmlBody, -, hhtml, hgivenHtml, -⟩ := optionalStr_typed (hready.typed "html_body" _ rfl)
  have hupd : draftUpdate crates args = some ⟨id, toAddrs, ccAddrs, bccAddrs, subject, textBody,
      htmlBody⟩ := by
    simp only [draftUpdate, hid, hto, hcc, hbcc, hsubject, htext, hhtml]
    rfl
  refine ⟨.client (.operation (.draftUpdate ⟨id, toAddrs, ccAddrs, bccAddrs, subject, textBody,
    htmlBody⟩ none)), ?_, honours_of_fields ?_⟩
  · show (decodeArgs crates .draftUpdate args).map ToolDecoded.client = _
    simp only [decodeArgs, draftUpdateArgs, hready.attachments, hupd]
    rfl
  · simp only [Tool.fields, List.forall_mem_cons]
    exact ⟨fun value hvalue => used_of_given hgivenId hvalue,
      fun value hvalue => used_of_given hgivenTo hvalue,
      fun value hvalue => used_of_given hgivenCc hvalue,
      fun value hvalue => used_of_given hgivenBcc hvalue,
      fun value hvalue => used_of_given hgivenSubject hvalue,
      fun value hvalue => used_of_given hgivenText hvalue,
      fun value hvalue => used_of_given hgivenHtml hvalue, by simp⟩

/-- The search handler wants a query that is not blank and addresses that are not empty. -/
theorem taken_search (hready : Ready crates .search args) :
    (BlankSearch .search args ∧
        ∃ e, decodeTool crates .search args = .error e ∧ e.code = .badArgs) ∨
      (¬ BlankSearch .search args ∧ Taken crates .search args) := by
  obtain ⟨q, hq, hgivenQ⟩ := text_typed (hready.typed "q" _ rfl) (hready.there _ (by decide))
  obtain ⟨account, haccount, -, hgivenAccount⟩ :=
    optionalId_typed (hready.typed "account_id" _ rfl)
  obtain ⟨folder, hfolder, -, hgivenFolder⟩ := optionalId_typed (hready.typed "folder_id" _ rfl)
  obtain ⟨thread, hthread, -, hgivenThread⟩ := optionalId_typed (hready.typed "thread_id" _ rfl)
  obtain ⟨dateFrom, hdateFrom, hgivenFrom⟩ :=
    optionalRfc3339_typed (hready.typed "date_from" _ rfl)
  obtain ⟨dateTo, hdateTo, hgivenTo⟩ := optionalRfc3339_typed (hready.typed "date_to" _ rfl)
  obtain ⟨files, hfiles, hgivenFiles⟩ := optionalBool_typed (hready.typed "has_attachments" _ rfl)
  obtain ⟨unread, hunread, hgivenUnread⟩ := optionalBool_typed (hready.typed "unread" _ rfl)
  have hmax : searchMaxRows ≤ 500 := by decide
  obtain ⟨hlimit, hoffset⟩ := page_used hready hmax rfl rfl
  have hdecode : decodeTool crates .search args = (searchArgs crates args).map ToolDecoded.client :=
    rfl
  have hargs : searchArgs crates args = if Mail.trim q.toList = [] then
        .error (.badArgs "'q' must not be empty")
      else (do
        let filters ← searchFilters crates args
        return .search q filters (max 1 (min (i64Or args "limit" 50) 200))
          (i64Or args "offset" 0)) := by
    unfold searchArgs
    rw [hq]
    rfl
  rw [hdecode, hargs]
  by_cases hblank : Mail.trim q.toList = []
  · rw [if_pos hblank]
    exact .inl ⟨⟨rfl, .inl ⟨q, hq, hblank⟩⟩, _, rfl, rfl⟩
  rw [if_neg hblank]
  rcases optionalNonemptyString_typed (hready.typed "from_addr" _ rfl) with
    ⟨hempty, e, hfrom, hcode⟩ | ⟨hfromAddr, fromAddr, hfrom, hgivenFromAddr⟩
  · refine .inl ⟨⟨rfl, .inr (.inl hempty)⟩, e, ?_, hcode⟩
    simp only [searchFilters, haccount, hfolder, hthread, hdateFrom, hdateTo, hfrom]
    rfl
  rcases optionalNonemptyString_typed (hready.typed "to_addr" _ rfl) with
    ⟨hempty, e, hto, hcode⟩ | ⟨htoAddr, toAddr, hto, hgivenToAddr⟩
  · refine .inl ⟨⟨rfl, .inr (.inr hempty)⟩, e, ?_, hcode⟩
    simp only [searchFilters, haccount, hfolder, hthread, hdateFrom, hdateTo, hfrom, hto]
    rfl
  refine .inr ⟨?_, .client (.search q ⟨account, folder, thread, dateFrom, dateTo, fromAddr, toAddr,
    files, unread⟩ (max 1 (min (i64Or args "limit" 50) 200)) (i64Or args "offset" 0)), ?_,
    honours_of_fields ?_⟩
  · rintro ⟨-, ⟨q', hq', hblank'⟩ | hempty | hempty⟩
    · rw [hq] at hq'
      cases hq'
      exact hblank hblank'
    · exact hfromAddr hempty
    · exact htoAddr hempty
  · rw [hdecode, hargs, if_neg hblank]
    simp only [searchFilters, haccount, hfolder, hthread, hdateFrom, hdateTo, hfrom, hto, hfiles,
      hunread]
    rfl
  · simp only [Tool.fields, List.forall_mem_cons]
    refine ⟨fun value hvalue => used_of_given hgivenQ hvalue,
      fun value hvalue => used_of_given hgivenAccount hvalue,
      fun value hvalue => used_of_given hgivenFolder hvalue,
      fun value hvalue => used_of_given hgivenThread hvalue,
      fun value hvalue => used_of_given hgivenFrom hvalue,
      fun value hvalue => used_of_given hgivenTo hvalue,
      fun value hvalue => used_of_given hgivenFromAddr hvalue,
      fun value hvalue => used_of_given hgivenToAddr hvalue,
      fun value hvalue => used_of_given hgivenFiles hvalue,
      fun value hvalue => used_of_given hgivenUnread hvalue, ?_, hoffset, by simp⟩
    -- the cap of the handler is the maximum of the table
    intro value hvalue
    obtain ⟨-, hge, hle⟩ := i64Or_typed (hready.typed "limit" _ rfl) hvalue 50
    have hsame : max 1 (min (i64Or args "limit" 50) 200) = i64Or args "limit" 50 := by
      have hrows : searchMaxRows = 200 := rfl
      omega
    show some (Setting.number (rowLimit (max 1 (min (i64Or args "limit" 50) 200)))) = _
    rw [hsame]
    exact hlimit value hvalue

theorem taken_of_ready (hready : Ready crates tool args) (hsearch : tool ≠ .search) :
    Taken crates tool args := by
  cases tool with
  | search => exact absurd rfl hsearch
  | accountList => exact ⟨_, rfl, honours_of_fields (by simp [Tool.fields])⟩
  | sqlSchema => exact ⟨_, rfl, honours_of_fields (by simp [Tool.fields])⟩
  | folderList =>
    refine taken_of_id hready rfl (by decide) (fun u => .client (.folderList u)) ?_ fun _ => rfl
    show ((parseId crates args "account_id").map Decoded.folderList).map ToolDecoded.client = _
    cases parseId crates args "account_id" <;> rfl
  | messageListByThread =>
    exact taken_of_id hready rfl (by decide) .messageListByThread rfl fun _ => rfl
  | messageGet =>
    refine taken_of_id hready rfl (by decide) (fun u => .client (.messageGet u)) ?_ fun _ => rfl
    show ((parseId crates args "id").map Decoded.messageGet).map ToolDecoded.client = _
    cases parseId crates args "id" <;> rfl
  | draftDelete =>
    refine taken_of_id hready rfl (by decide) (fun u => .client (.operation (.draftDelete u))) ?_
      fun _ => rfl
    show ((parseId crates args "id").map fun id => Decoded.operation (.draftDelete id)).map
      ToolDecoded.client = _
    cases parseId crates args "id" <;> rfl
  | threadList => exact taken_threadList hready
  | messageListByFolder => exact taken_messageListByFolder hready
  | draftCreate => exact taken_draftCreate hready
  | draftUpdate => exact taken_draftUpdate hready
  | messageSetFlags => exact taken_messageSetFlags hready
  | messageSend => exact taken_messageSend hready
  | sqlQuery => exact taken_sqlQuery hready

/-- Every tool's op takes what the bridge let through and uses every field as given, but
for a blank query or an empty address of a search. -/
theorem validated_arguments_are_taken {arguments : Value}
    (h : validateArguments crates tool arguments = .ok args) :
    (BlankSearch tool args →
      ∃ e, decodeTool crates tool (Bridge.Call.start tool args).forwardArgs = .error e ∧
        e.code = .badArgs) ∧
    (¬ BlankSearch tool args →
      ∃ d, decodeTool crates tool (Bridge.Call.start tool args).forwardArgs = .ok d ∧
        Honours crates tool args d) := by
  have hready := ready_of_validated h
  obtain ⟨entries, rfl, -, -⟩ := (validateArguments_ok_iff crates tool arguments args).mp h
  have hhonours : ∀ d, Honours crates tool (Bridge.Call.start tool (.object entries)).forwardArgs d →
      Honours crates tool (.object entries) d := by
    intro d hd field kind value hkind hvalue
    refine hd field kind value hkind ?_
    rw [get_forwardArgs]
    · exact hvalue
    · rintro rfl
      rw [fieldKind_actor] at hkind
      cases hkind
  by_cases hsearch : tool = .search
  · subst hsearch
    rcases taken_search hready with ⟨hblank, herror⟩ | ⟨hblank, d, hdecode, hd⟩
    · exact ⟨fun _ => herror, fun hnot => absurd hblank hnot⟩
    · exact ⟨fun hyes => absurd hyes hblank, fun _ => ⟨d, hdecode, hhonours d hd⟩⟩
  · obtain ⟨d, hdecode, hd⟩ := taken_of_ready hready hsearch
    exact ⟨fun hblank => absurd hblank.1 hsearch, fun _ => ⟨d, hdecode, hhonours d hd⟩⟩

end Tools

/-- A search with all kinds of filters. -/
def someSearch : Value :=
  .object [("folder_id", .string (Uuid.hyphenated (.filled 1))),
    ("from_addr", .string "ann"), ("limit", .number (.posInt 200)), ("q", .string "x"),
    ("unread", .bool true)]

theorem someSearch_is_taken :
    validateArguments .plain .search someSearch = .ok someSearch ∧
      ∃ d, decodeTool .plain .search (Bridge.Call.start .search someSearch).forwardArgs = .ok d ∧
        Honours .plain .search someSearch d := by
  have hvalid : validateArguments .plain .search someSearch = .ok someSearch := by decide
  refine ⟨hvalid, (validated_arguments_are_taken hvalid).2 ?_⟩
  rintro ⟨-, ⟨q, hq, hblank⟩ | hempty | hempty⟩
  · cases hq
    revert hblank
    decide
  · revert hempty
    decide
  · revert hempty
    decide

/-- A query of blanks passes validation and is refused by the daemon. -/
theorem blank_search_is_refused :
    validateArguments .plain .search (.object [("q", .string " ")]) =
        .ok (.object [("q", .string " ")]) ∧
      decodeTool .plain .search
          (Bridge.Call.start .search (.object [("q", .string " ")])).forwardArgs =
        .error (.badArgs "'q' must not be empty") := by
  refine ⟨by decide, ?_⟩
  have htrim : Mail.trim " ".toList = [] := by decide
  have hargs : searchArgs .plain (.object [("q", .string " ")]) =
      .error (.badArgs "'q' must not be empty") := by
    unfold searchArgs
    show (if Mail.trim " ".toList = [] then _ else _) = _
    rw [if_pos htrim]
  show (searchArgs .plain (.object [("q", .string " ")])).map ToolDecoded.client = _
  rw [hargs]
  rfl

end Postblox.Mcp.Decoding
