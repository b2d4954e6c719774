import Postblox.Daemon.Args

/-!
# Two spellings of one operation

For arguments that validation accepts, `canon` is what the daemon reads in one
field: a missing optional key counts as its default and an identifier counts as
the UUID it names. Two accepted calls of a dangerous tool decode to the same
operation exactly when they agree on every field up to `canon`.
-/
namespace Postblox.Mcp.Spelling

open Json (Value insertEntry)
open Tools
open Daemon.Args

variable (crates : Crates)

/-- What a missing key stands for; a required key has no default. -/
def defaultOf (tool : Tool) (field : String) : Option Value :=
  if field ∈ tool.required then none
  else if tool = .sqlQuery then some (.number (.posInt (UInt64.ofNat defaultRows)))
  else some .null

def isId (tool : Tool) (field : String) : Prop :=
  fieldKind tool field = some .uuidString ∨ fieldKind tool field = some .nullableUuidString

instance (tool : Tool) (field : String) : Decidable (isId tool field) :=
  inferInstanceAs (Decidable (_ ∨ _))

def canonId (value : Value) : Value :=
  match value.asStr.bind crates.uuid.parseStr with
  | some u => .string u.hyphenated
  | none => value

def canon (tool : Tool) (entries : List (String × Value)) (field : String) : Option Value :=
  let read := (entries.lookup field).or (defaultOf tool field)
  if isId tool field then read.map (canonId crates) else read

/-- The entries a daemon handler sees for a forwarded call. -/
def forwarded (tool : Tool) (entries : List (String × Value)) : Value :=
  withActor tool (.object entries)

theorem forwarded_get (tool : Tool) (entries : List (String × Value)) {field : String}
    (hf : field ≠ "_actor") : (forwarded tool entries).get field = entries.lookup field := by
  simp [forwarded, withActor, Value.get, Json.lookup_insertEntry, hf]

def textOrNull : Option String → Value
  | none => .null
  | some s => .string s

def idOrNull (o : Option Uuid) : Value := textOrNull (o.map Uuid.hyphenated)

/-! ## What the daemon reads in a field -/

section Fields

variable {crates} {tool : Tool} {entries : List (String × Value)}

theorem read_id (h : Accepted crates tool entries) (field : String) (ha : field ≠ "_actor")
    (hr : field ∈ tool.required) (hk : fieldKind tool field = some .uuidString) :
    ∃ u, requiredField (uuidValue crates) (forwarded tool entries) field = some u ∧
      parseId crates (forwarded tool entries) field = .ok u ∧
      canon crates tool entries field = some (.string u.hyphenated) := by
  obtain ⟨value, hl⟩ := h.present field hr
  obtain ⟨s, u, rfl, hp⟩ := hasKind_uuid (h.hasKind hl hk)
  refine ⟨u, ?_, ?_, ?_⟩
  · simp [requiredField, forwarded_get _ _ ha, hl, uuidValue, Value.asStr, hp]
  · simp [parseId, forwarded_get _ _ ha, hl, Value.asStr, hp]
  · simp [canon, isId, hk, hl, canonId, Value.asStr, hp]

theorem read_optionalId (h : Accepted crates tool entries) (field : String)
    (ha : field ≠ "_actor") (hd : defaultOf tool field = some .null)
    (hk : fieldKind tool field = some .nullableUuidString) :
    ∃ o, optionField (uuidValue crates) (forwarded tool entries) field = some o ∧
      canon crates tool entries field = some (idOrNull o) := by
  cases hl : entries.lookup field with
  | none =>
    refine ⟨none, ?_, ?_⟩
    · simp [optionField, forwarded_get _ _ ha, hl]
    · simp [canon, isId, hk, hl, hd, canonId, Value.asStr, idOrNull, textOrNull]
  | some value =>
    rcases hasKind_nullableUuid (h.hasKind hl hk) with rfl | ⟨s, u, rfl, hp⟩
    · refine ⟨none, ?_, ?_⟩
      · simp [optionField, forwarded_get _ _ ha, hl]
      · simp [canon, isId, hk, hl, canonId, Value.asStr, idOrNull, textOrNull]
    · refine ⟨some u, ?_, ?_⟩
      · simp [optionField, forwarded_get _ _ ha, hl, uuidValue, Value.asStr, hp]
      · simp [canon, isId, hk, hl, canonId, Value.asStr, hp, idOrNull, textOrNull]

theorem read_text (h : Accepted crates tool entries) (field : String) (ha : field ≠ "_actor")
    (hd : field ∈ tool.required ∨ defaultOf tool field = some .null)
    (hk : fieldKind tool field = some .nullableString) :
    ∃ o, optionField Value.asStr (forwarded tool entries) field = some o ∧
      canon crates tool entries field = some (textOrNull o) := by
  cases hl : entries.lookup field with
  | none =>
    have hd' : defaultOf tool field = some .null := by
      rcases hd with hr | hd
      · obtain ⟨value, hv⟩ := h.present field hr
        rw [hl] at hv
        cases hv
      · exact hd
    refine ⟨none, ?_, ?_⟩
    · simp [optionField, forwarded_get _ _ ha, hl]
    · simp [canon, isId, hk, hl, hd', textOrNull]
  | some value =>
    rcases hasKind_nullableString (h.hasKind hl hk) with rfl | ⟨s, rfl⟩
    · refine ⟨none, ?_, ?_⟩
      · simp [optionField, forwarded_get _ _ ha, hl]
      · simp [canon, isId, hk, hl, textOrNull]
    · refine ⟨some s, ?_, ?_⟩
      · simp [optionField, forwarded_get _ _ ha, hl, Value.asStr]
      · simp [canon, isId, hk, hl, textOrNull]

theorem stringVec_map (l : List String) : stringVec (.array (l.map .string)) = some l := by
  unfold stringVec Value.asArray
  induction l with
  | nil => rfl
  | cons s l ih => simp_all [List.mapM_cons, Value.asStr]

theorem read_strings (h : Accepted crates tool entries) (field : String) (ha : field ≠ "_actor")
    (hr : field ∈ tool.required) (hk : fieldKind tool field = some .stringArray) :
    ∃ l : List String, (forwarded tool entries).get field = some (.array (l.map .string)) ∧
      requiredField stringVec (forwarded tool entries) field = some l ∧
      defaultedField stringVec (forwarded tool entries) field = some l ∧
      canon crates tool entries field = some (.array (l.map .string)) := by
  obtain ⟨value, hl⟩ := h.present field hr
  obtain ⟨l, rfl⟩ := hasKind_stringArray (h.hasKind hl hk)
  have hg := forwarded_get tool entries ha
  rw [hl] at hg
  refine ⟨l, hg, ?_, ?_, ?_⟩
  · rw [requiredField, hg]
    exact stringVec_map l
  · rw [defaultedField, hg]
    exact stringVec_map l
  · simp [canon, isId, hk, hl]

theorem read_sql (h : Accepted crates .sqlQuery entries) :
    ∃ s, ((forwarded .sqlQuery entries).get "sql").bind Value.asStr = some s ∧
      canon crates .sqlQuery entries "sql" = some (.string s) := by
  obtain ⟨value, hl⟩ := h.present "sql" (by decide)
  have hk : fieldKind .sqlQuery "sql" = some .string := by decide
  obtain ⟨s, rfl⟩ := hasKind_string (h.hasKind hl hk)
  refine ⟨s, ?_, ?_⟩
  · simp [forwarded_get, hl, Value.asStr]
  · simp [canon, isId, hk, hl]

theorem read_limit (h : Accepted crates .sqlQuery entries) :
    ∃ n : UInt64, sqlLimit (forwarded .sqlQuery entries) = .ok n.toNat ∧
      canon crates .sqlQuery entries "limit" = some (.number (.posInt n)) := by
  have hk : fieldKind .sqlQuery "limit" = some (.integer 1 maxRows) := by decide
  have hg : (forwarded .sqlQuery entries).get "limit" = entries.lookup "limit" :=
    forwarded_get _ _ (by decide)
  cases hl : entries.lookup "limit" with
  | none =>
    have hd : defaultOf .sqlQuery "limit" = some (.number (.posInt (UInt64.ofNat defaultRows))) := by
      decide
    refine ⟨UInt64.ofNat defaultRows, ?_, ?_⟩
    · rw [sqlLimit, hg, hl]
      rfl
    · simp [canon, isId, hk, hl, hd]
  | some value =>
    obtain ⟨n, rfl, hpos, hmax⟩ := hasKind_limit (h.hasKind hl hk)
    refine ⟨n, ?_, ?_⟩
    · have hf : (some n.toNat).filter (fun limit => decide (0 < limit)) = some n.toNat := by
        rw [Option.filter_some, if_pos (decide_eq_true hpos)]
      simp [sqlLimit, hg, hl, Value.asU64, hf, Nat.min_eq_left hmax]
    · simp [canon, isId, hk, hl]

end Fields

/-! ## Same operation, same canonical fields -/

theorem hyphenated_injective {u v : Uuid} (h : u.hyphenated = v.hyphenated) : u = v := by
  have hu := Uuid.parseStr_hyphenated u
  rw [h, Uuid.parseStr_hyphenated v] at hu
  exact (Option.some.inj hu).symm

theorem textOrNull_injective {o p : Option String} (h : textOrNull o = textOrNull p) : o = p := by
  cases o <;> cases p <;> simp_all [textOrNull]

theorem idOrNull_injective {o p : Option Uuid} (h : idOrNull o = idOrNull p) : o = p := by
  have h' := textOrNull_injective h
  cases o with
  | none => cases p <;> simp_all
  | some u =>
    cases p with
    | none => simp at h'
    | some v => rw [hyphenated_injective (Option.some.inj h')]

theorem strings_injective {l m : List String}
    (h : Value.array (l.map .string) = Value.array (m.map .string)) : l = m := by
  have h' := congrArg stringVec h
  rw [stringVec_map, stringVec_map] at h'
  exact Option.some.inj h'

/-- The fields of a tool read alike in both calls. -/
def SameFields (tool : Tool) (a b : List (String × Value)) : Prop :=
  ∀ field ∈ tool.fields.map Prod.fst, canon crates tool a field = canon crates tool b field

/-- Both calls decode, and to one operation. -/
def SameOperation (tool : Tool) (a b : List (String × Value)) : Prop :=
  ∃ o, operation crates tool (forwarded tool a) = some (.ok o) ∧
    operation crates tool (forwarded tool b) = some (.ok o)

theorem sameOperation_draftDelete {a b : List (String × Value)}
    (ha : Accepted crates .draftDelete a) (hb : Accepted crates .draftDelete b) :
    SameOperation crates .draftDelete a b ↔ SameFields crates .draftDelete a b := by
  obtain ⟨u, -, hu, hcu⟩ := read_id ha "id" (by decide) (by decide) (by decide)
  obtain ⟨v, -, hv, hcv⟩ := read_id hb "id" (by decide) (by decide) (by decide)
  simp only [SameOperation, SameFields, operation, hu, hv, Tool.fields, List.map_cons,
    List.map_nil, List.forall_mem_cons, hcu, hcv]
  constructor
  · rintro ⟨o, ho, ho'⟩
    cases ho
    cases ho'
    simp
  · rintro ⟨h, -⟩
    obtain rfl := hyphenated_injective (Value.string.inj (Option.some.inj h))
    exact ⟨_, rfl, rfl⟩

theorem sameOperation_messageSend {a b : List (String × Value)}
    (ha : Accepted crates .messageSend a) (hb : Accepted crates .messageSend b) :
    SameOperation crates .messageSend a b ↔ SameFields crates .messageSend a b := by
  obtain ⟨u, -, hu, hcu⟩ := read_id ha "account_id" (by decide) (by decide) (by decide)
  obtain ⟨v, -, hv, hcv⟩ := read_id hb "account_id" (by decide) (by decide) (by decide)
  obtain ⟨u', -, hu', hcu'⟩ := read_id ha "draft_id" (by decide) (by decide) (by decide)
  obtain ⟨v', -, hv', hcv'⟩ := read_id hb "draft_id" (by decide) (by decide) (by decide)
  simp only [SameOperation, SameFields, operation, hu, hv, hu', hv', Tool.fields, List.map_cons,
    List.map_nil, List.forall_mem_cons, hcu, hcv, hcu', hcv']
  constructor
  · rintro ⟨o, ho, ho'⟩
    cases ho
    cases ho'
    simp
  · rintro ⟨h, h', -⟩
    obtain rfl := hyphenated_injective (Value.string.inj (Option.some.inj h))
    obtain rfl := hyphenated_injective (Value.string.inj (Option.some.inj h'))
    exact ⟨_, rfl, rfl⟩

theorem sameOperation_messageSetFlags {a b : List (String × Value)}
    (ha : Accepted crates .messageSetFlags a) (hb : Accepted crates .messageSetFlags b) :
    SameOperation crates .messageSetFlags a b ↔ SameFields crates .messageSetFlags a b := by
  obtain ⟨u, -, hu, hcu⟩ := read_id ha "id" (by decide) (by decide) (by decide)
  obtain ⟨v, -, hv, hcv⟩ := read_id hb "id" (by decide) (by decide) (by decide)
  obtain ⟨l, hl, -, -, hcl⟩ := read_strings ha "flags" (by decide) (by decide) (by decide)
  obtain ⟨m, hm, -, -, hcm⟩ := read_strings hb "flags" (by decide) (by decide) (by decide)
  simp only [SameOperation, SameFields, operation, messageSetFlagsArgs, parseMessageFlags, hu, hv,
    hl, hm, stringVec_map, Tool.fields, List.map_cons, List.map_nil, List.forall_mem_cons, hcu,
    hcv, hcl, hcm]
  constructor
  · rintro ⟨o, ho, ho'⟩
    cases ho
    cases ho'
    simp
  · rintro ⟨h, h', -⟩
    obtain rfl := hyphenated_injective (Value.string.inj (Option.some.inj h))
    obtain rfl := strings_injective (Option.some.inj h')
    exact ⟨_, rfl, rfl⟩

theorem sameOperation_sqlQuery {a b : List (String × Value)}
    (ha : Accepted crates .sqlQuery a) (hb : Accepted crates .sqlQuery b) :
    SameOperation crates .sqlQuery a b ↔ SameFields crates .sqlQuery a b := by
  obtain ⟨s, hs, hcs⟩ := read_sql ha
  obtain ⟨t, ht, hct⟩ := read_sql hb
  obtain ⟨n, hn, hcn⟩ := read_limit ha
  obtain ⟨m, hm, hcm⟩ := read_limit hb
  simp only [SameOperation, SameFields, operation, sqlQueryArgs, hs, ht, hn, hm, Tool.fields,
    List.map_cons, List.map_nil, List.forall_mem_cons, hcs, hct, hcn, hcm]
  constructor
  · rintro ⟨o, ho, ho'⟩
    cases ho
    have h := Option.some.inj ho'
    simp only [bind, Except.bind, pure, Except.pure, Except.ok.injEq, Operation.sqlQuery.injEq] at h
    obtain ⟨rfl, hlimit⟩ := h
    rw [UInt64.toNat_inj.mp hlimit]
    simp
  · rintro ⟨h, h', -⟩
    cases h
    cases h'
    exact ⟨_, rfl, rfl⟩

theorem sameOperation_draftUpdate {a b : List (String × Value)}
    (ha : Accepted crates .draftUpdate a) (hb : Accepted crates .draftUpdate b) :
    SameOperation crates .draftUpdate a b ↔ SameFields crates .draftUpdate a b := by
  have reads : ∀ {e : List (String × Value)}, Accepted crates .draftUpdate e →
      ∃ upd : DraftUpdate,
        operation crates .draftUpdate (forwarded .draftUpdate e) =
          some (.ok (.draftUpdate upd none)) ∧
        canon crates .draftUpdate e "id" = some (.string upd.id.hyphenated) ∧
        canon crates .draftUpdate e "to_addrs" = some (.array (upd.toAddrs.map .string)) ∧
        canon crates .draftUpdate e "cc_addrs" = some (.array (upd.ccAddrs.map .string)) ∧
        canon crates .draftUpdate e "bcc_addrs" = some (.array (upd.bccAddrs.map .string)) ∧
        canon crates .draftUpdate e "subject" = some (textOrNull upd.subject) ∧
        canon crates .draftUpdate e "text_body" = some (textOrNull upd.textBody) ∧
        canon crates .draftUpdate e "html_body" = some (textOrNull upd.htmlBody) := by
    intro e he
    obtain ⟨u, hu, -, hcu⟩ := read_id he "id" (by decide) (by decide) (by decide)
    obtain ⟨l, -, -, hl, hcl⟩ :=
      read_strings he "to_addrs" (by decide) (by decide) (by decide)
    obtain ⟨m, -, -, hm, hcm⟩ :=
      read_strings he "cc_addrs" (by decide) (by decide) (by decide)
    obtain ⟨n, -, -, hn, hcn⟩ :=
      read_strings he "bcc_addrs" (by decide) (by decide) (by decide)
    obtain ⟨s, hs, hcs⟩ := read_text he "subject" (by decide) (by decide) (by decide)
    obtain ⟨t, ht, hct⟩ := read_text he "text_body" (by decide) (by decide) (by decide)
    obtain ⟨w, hw, hcw⟩ := read_text he "html_body" (by decide) (by decide) (by decide)
    have hat : (forwarded .draftUpdate e).get "attachments" = none := by
      rw [forwarded_get _ _ (by decide)]
      exact he.absent (by decide)
    refine ⟨⟨u, l, m, n, s, t, w⟩, ?_, hcu, hcl, hcm, hcn, hcs, hct, hcw⟩
    simp only [operation, draftUpdateArgs, takeAttachmentSpecs, hat, draftUpdate, hu, hl, hm, hn,
      hs, ht, hw]
    rfl
  obtain ⟨x, hx, x1, x2, x3, x4, x5, x6, x7⟩ := reads ha
  obtain ⟨y, hy, y1, y2, y3, y4, y5, y6, y7⟩ := reads hb
  simp only [SameOperation, SameFields, hx, hy, Tool.fields, List.map_cons, List.map_nil,
    List.forall_mem_cons, x1, x2, x3, x4, x5, x6, x7, y1, y2, y3, y4, y5, y6, y7]
  constructor
  · rintro ⟨o, ho, ho'⟩
    cases ho
    cases ho'
    simp
  · rintro ⟨h1, h2, h3, h4, h5, h6, h7, -⟩
    have hxy : x = y := by
      cases x
      cases y
      congr
      · exact hyphenated_injective (Value.string.inj (Option.some.inj h1))
      · exact strings_injective (Option.some.inj h2)
      · exact strings_injective (Option.some.inj h3)
      · exact strings_injective (Option.some.inj h4)
      · exact textOrNull_injective (Option.some.inj h5)
      · exact textOrNull_injective (Option.some.inj h6)
      · exact textOrNull_injective (Option.some.inj h7)
    rw [hxy]
    exact ⟨_, rfl, rfl⟩

theorem sameOperation_draftCreate {a b : List (String × Value)}
    (ha : Accepted crates .draftCreate a) (hb : Accepted crates .draftCreate b) :
    SameOperation crates .draftCreate a b ↔ SameFields crates .draftCreate a b := by
  have reads : ∀ {e : List (String × Value)}, Accepted crates .draftCreate e →
      ∃ new : NewDraft, new.inReplyTo = none ∧ new.referencesHeader = none ∧
        operation crates .draftCreate (forwarded .draftCreate e) =
          some (.ok (.draftCreate new none)) ∧
        canon crates .draftCreate e "account_id" = some (.string new.accountId.hyphenated) ∧
        canon crates .draftCreate e "in_reply_to_msg" = some (idOrNull new.inReplyToMsg) ∧
        canon crates .draftCreate e "to_addrs" = some (.array (new.toAddrs.map .string)) ∧
        canon crates .draftCreate e "cc_addrs" = some (.array (new.ccAddrs.map .string)) ∧
        canon crates .draftCreate e "bcc_addrs" = some (.array (new.bccAddrs.map .string)) ∧
        canon crates .draftCreate e "subject" = some (textOrNull new.subject) ∧
        canon crates .draftCreate e "text_body" = some (textOrNull new.textBody) ∧
        canon crates .draftCreate e "html_body" = some (textOrNull new.htmlBody) := by
    intro e he
    obtain ⟨u, hu, -, hcu⟩ := read_id he "account_id" (by decide) (by decide) (by decide)
    obtain ⟨r, hr, hcr⟩ := read_optionalId he "in_reply_to_msg" (by decide) (by decide) (by decide)
    obtain ⟨l, -, hl, -, hcl⟩ := read_strings he "to_addrs" (by decide) (by decide) (by decide)
    obtain ⟨m, -, hm, -, hcm⟩ := read_strings he "cc_addrs" (by decide) (by decide) (by decide)
    obtain ⟨n, -, hn, -, hcn⟩ := read_strings he "bcc_addrs" (by decide) (by decide) (by decide)
    obtain ⟨s, hs, hcs⟩ := read_text he "subject" (by decide) (by decide) (by decide)
    obtain ⟨t, ht, hct⟩ := read_text he "text_body" (by decide) (by decide) (by decide)
    obtain ⟨w, hw, hcw⟩ := read_text he "html_body" (by decide) (by decide) (by decide)
    have absent : ∀ field, field ≠ "_actor" → fieldKind .draftCreate field = none →
        (forwarded .draftCreate e).get field = none := by
      intro field hne hk
      rw [forwarded_get _ _ hne]
      exact he.absent hk
    have hat := absent "attachments" (by decide) (by decide)
    have hir : optionField Value.asStr (forwarded .draftCreate e) "in_reply_to" = some none := by
      rw [optionField, absent "in_reply_to" (by decide) (by decide)]
    have hrf : optionField Value.asStr (forwarded .draftCreate e) "references_header" =
        some none := by
      rw [optionField, absent "references_header" (by decide) (by decide)]
    refine ⟨⟨u, r, l, m, n, s, t, w, none, none⟩, rfl, rfl, ?_, hcu, hcr, hcl, hcm, hcn, hcs,
      hct, hcw⟩
    simp only [operation, draftCreateArgs, takeAttachmentSpecs, hat, newDraft, hu, hr, hl, hm, hn,
      hs, ht, hw, hir, hrf]
    rfl
  obtain ⟨x, xi, xr, hx, x1, x2, x3, x4, x5, x6, x7, x8⟩ := reads ha
  obtain ⟨y, yi, yr, hy, y1, y2, y3, y4, y5, y6, y7, y8⟩ := reads hb
  simp only [SameOperation, SameFields, hx, hy, Tool.fields, List.map_cons, List.map_nil,
    List.forall_mem_cons, x1, x2, x3, x4, x5, x6, x7, x8, y1, y2, y3, y4, y5, y6, y7, y8]
  constructor
  · rintro ⟨o, ho, ho'⟩
    cases ho
    cases ho'
    simp
  · rintro ⟨h1, h2, h3, h4, h5, h6, h7, h8, -⟩
    have hxy : x = y := by
      cases x
      cases y
      congr
      · exact hyphenated_injective (Value.string.inj (Option.some.inj h1))
      · exact idOrNull_injective (Option.some.inj h2)
      · exact strings_injective (Option.some.inj h3)
      · exact strings_injective (Option.some.inj h4)
      · exact strings_injective (Option.some.inj h5)
      · exact textOrNull_injective (Option.some.inj h6)
      · exact textOrNull_injective (Option.some.inj h7)
      · exact textOrNull_injective (Option.some.inj h8)
      · exact xi.trans yi.symm
      · exact xr.trans yr.symm
    rw [hxy]
    exact ⟨_, rfl, rfl⟩

/-- Two accepted calls of a dangerous tool are one operation exactly when the
daemon reads the same in every field. -/
theorem sameOperation_iff {tool : Tool} (ht : tool.dangerous = true) {a b : List (String × Value)}
    (ha : Accepted crates tool a) (hb : Accepted crates tool b) :
    SameOperation crates tool a b ↔ SameFields crates tool a b := by
  cases tool with
  | draftCreate => exact sameOperation_draftCreate crates ha hb
  | draftUpdate => exact sameOperation_draftUpdate crates ha hb
  | draftDelete => exact sameOperation_draftDelete crates ha hb
  | messageSetFlags => exact sameOperation_messageSetFlags crates ha hb
  | messageSend => exact sameOperation_messageSend crates ha hb
  | sqlQuery => exact sameOperation_sqlQuery crates ha hb
  | _ => simp [Tool.dangerous] at ht

end Postblox.Mcp.Spelling
