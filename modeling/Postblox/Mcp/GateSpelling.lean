import Postblox.Mcp.Spelling

/-!
# Gates and the spelling of arguments

A gate pattern is compared with the text of an argument, while the daemon acts
on what it decodes. A gate decides every spelling of an operation alike when its
pattern asks nothing of an identifier beyond being present and never names the
default of an optional key. This is exact: any other gate that some accepted
call reaches lets another spelling of that call through to the gates below it.
-/
namespace Postblox.Mcp.GateSpelling

open Json (Value insertEntry removeEntry)
open Tools
open Gates
open Spelling

variable (crates : Crates)

/-! ## Matching one value -/

theorem valueMatches_star (s : String) : valueMatches (.string "*") (.string s) = true := by
  simp [valueMatches, Value.asStr, wildcardMatches]

theorem valueMatches_star_string {value : Value}
    (h : valueMatches (.string "*") value = true) : ∃ s, value = .string s := by
  cases value with
  | string s => exact ⟨s, rfl⟩
  | _ => simp [valueMatches, Value.asStr] at h

private theorem prefix_of_both {front as bs : List Char} (h : as.head? ≠ bs.head?)
    (ha : front <+: as) (hb : front <+: bs) : front = [] := by
  cases front with
  | nil => rfl
  | cons c front =>
    obtain ⟨ta, rfl⟩ := ha
    obtain ⟨tb, rfl⟩ := hb
    simp at h

private theorem suffix_of_both {back as bs : List Char} (h : as.getLast? ≠ bs.getLast?)
    (ha : back <:+ as) (hb : back <:+ bs) : back = [] := by
  have h' : as.reverse.head? ≠ bs.reverse.head? := by
    rwa [List.head?_reverse, List.head?_reverse]
  have hr := prefix_of_both h' (List.reverse_prefix.mpr ha) (List.reverse_prefix.mpr hb)
  exact List.reverse_eq_nil_iff.mp hr

/-- Only the lone star matches both the hyphenated and the braced form of a UUID. -/
theorem wildcard_of_both {pattern : List Char} (u : Uuid)
    (hp : wildcardMatches pattern u.hyphenated.toList = true)
    (hb : wildcardMatches pattern u.braced.toList = true) : pattern = ['*'] := by
  by_contra hne
  rw [Uuid.hyphenated, String.toList_ofList] at hp
  rw [Uuid.braced, String.toList_ofList] at hb
  unfold wildcardMatches at hp hb
  rw [if_neg hne] at hp hb
  split_ifs at hp hb with hc
  simp only [Bool.and_eq_true, List.isPrefixOf_iff_prefix, List.isSuffixOf_iff_suffix] at hp hb
  have hfront : pattern.takeWhile (· ≠ '*') = [] :=
    prefix_of_both (by simpa using Uuid.head_hyphenatedChars u) hp.1.1 hb.1.1
  have hback : (pattern.dropWhile (· ≠ '*')).drop 1 = [] :=
    suffix_of_both (by simpa [List.getLast?_cons] using Uuid.getLast_hyphenatedChars u)
      hp.1.2 hb.1.2
  cases pattern with
  | nil => simp at hc
  | cons c rest =>
    by_cases hstar : c = '*'
    · subst hstar
      rw [List.dropWhile_cons_of_neg (by simp)] at hback
      exact hne (by simpa using hback)
    · rw [List.takeWhile_cons_of_pos (by simpa using hstar)] at hfront
      cases hfront

theorem expected_of_both {expected : Value} (u : Uuid)
    (hp : valueMatches expected (.string u.hyphenated) = true)
    (hb : valueMatches expected (.string u.braced) = true) : expected = .string "*" := by
  cases he : expected.asStr with
  | none =>
    rw [nonString_expected he] at hp
    subst hp
    cases he
  | some pattern =>
    have hs : expected = .string pattern := by
      cases expected with
      | string s => exact congrArg _ (Option.some.inj he)
      | _ => cases he
    subst hs
    unfold valueMatches at hp hb
    simp only [Value.asStr] at hp hb
    split_ifs at hp hb with hstar
    · have h := wildcard_of_both u hp hb
      rw [String.toList_inj.mp (h.trans (by decide : ['*'] = "*".toList))]
    · have h := (of_decide_eq_true hp).symm.trans (of_decide_eq_true hb)
      have hl := congrArg (fun t => t.toList.length) (Value.string.inj h)
      simp only [Uuid.hyphenated, Uuid.braced, String.toList_ofList, List.length_append,
        List.length_cons, List.length_nil] at hl
      omega

/-! ## Blind patterns -/

/-- What a pattern may expect of a field without seeing its spelling. -/
def BlindField (tool : Tool) (field : String) (expected : Value) : Prop :=
  (isId tool field → expected = .string "*") ∧ defaultOf tool field ≠ some expected

/-- Every field a gate's pattern names is compared blindly. -/
def Blind (tool : Tool) (gate : McpGate) : Prop :=
  ∀ text fields, gate.argPattern = some text → crates.fromStr text = some (.object fields) →
    ∀ field expected, (field, expected) ∈ fields → BlindField tool field expected

theorem defaultOf_nonString {tool : Tool} {field : String} {value : Value}
    (h : defaultOf tool field = some value) : value.asStr = none := by
  unfold defaultOf at h
  split_ifs at h
  · cases h
    rfl
  · cases h
    rfl

theorem canonId_string_iff (value : Value) :
    (∃ s, canonId crates value = .string s) ↔ ∃ s, value = .string s := by
  unfold canonId
  cases value with
  | string s => cases h : crates.uuid.parseStr s <;> simp [Value.asStr, h]
  | _ => simp [Value.asStr]

/-- A blindly compared field matches in every call that reads alike there. -/
theorem BlindField.transfer {tool : Tool} {field : String} {expected value : Value}
    {a b : List (String × Value)} (h : BlindField tool field expected)
    (hc : canon crates tool a field = canon crates tool b field)
    (ha : a.lookup field = some value) (hm : valueMatches expected value = true) :
    ∃ value', b.lookup field = some value' ∧ valueMatches expected value' = true := by
  unfold canon at hc
  rw [ha, Option.some_or] at hc
  by_cases hid : isId tool field
  · have hstar := h.1 hid
    subst hstar
    obtain ⟨s, rfl⟩ := valueMatches_star_string hm
    simp only [if_pos hid, Option.map_some] at hc
    obtain ⟨s', hs'⟩ := (canonId_string_iff crates (.string s)).mpr ⟨s, rfl⟩
    obtain ⟨read, hread, hcanon⟩ := Option.map_eq_some_iff.mp (hc.symm.trans (congrArg some hs'))
    obtain ⟨t, rfl⟩ := (canonId_string_iff crates read).mp ⟨s', hcanon⟩
    cases hb : b.lookup field with
    | none =>
      rw [hb, Option.none_or] at hread
      cases defaultOf_nonString hread
    | some value' =>
      rw [hb, Option.some_or] at hread
      cases hread
      exact ⟨_, rfl, valueMatches_star t⟩
  · simp only [if_neg hid] at hc
    cases hb : b.lookup field with
    | none =>
      rw [hb, Option.none_or] at hc
      have he := (valueMatches_nonString (defaultOf_nonString hc.symm)).mp hm
      subst he
      exact absurd hc.symm h.2
    | some value' =>
      rw [hb, Option.some_or] at hc
      cases hc
      exact ⟨_, rfl, hm⟩

theorem Accepted.field_mem {tool : Tool} {entries : List (String × Value)} {field : String}
    {value : Value} (h : Accepted crates tool entries) (hl : entries.lookup field = some value) :
    field ∈ tool.fields.map Prod.fst := by
  cases hk : fieldKind tool field with
  | none =>
    rw [h.absent hk] at hl
    cases hl
  | some kind =>
    obtain ⟨l₁, l₂, hfields, -⟩ := List.lookup_eq_some_iff.mp hk
    rw [hfields]
    simp

theorem Blind.transfer {tool : Tool} {gate : McpGate} {a b : List (String × Value)}
    (h : Blind crates tool gate) (ha : Accepted crates tool a) (hs : SameFields crates tool a b)
    (hm : gateMatches crates gate (.object a) = true) :
    gateMatches crates gate (.object b) = true := by
  rw [gateMatches_iff] at hm ⊢
  rcases hm with hnone | ⟨text, fields, htext, hparse, hall⟩
  · exact .inl hnone
  · refine .inr ⟨text, fields, htext, hparse, ?_⟩
    intro field expected hmem
    obtain ⟨value, hl, hv⟩ := hall field expected hmem
    have hc := hs field (Accepted.field_mem crates ha hl)
    exact (h text fields htext hparse field expected hmem).transfer crates hc hl hv

/-! ## Respelling a call -/

section Respell

variable {tool : Tool} {entries : List (String × Value)} {field : String}

theorem Accepted.insertEntry {kind : FieldKind} {value : Value} (h : Accepted crates tool entries)
    (hk : fieldKind tool field = some kind) (hv : HasKind crates kind field value) :
    Accepted crates tool (Json.insertEntry field value entries) := by
  refine ⟨?_, ?_⟩
  · intro key hkey
    rw [Json.lookup_insertEntry]
    split_ifs
    · rfl
    · exact h.complete key hkey
  · intro e he
    rcases Json.mem_insertEntry he with rfl | he
    · exact ⟨kind, hk, hv⟩
    · exact h.typed e he

theorem Accepted.removeEntry (h : Accepted crates tool entries) (hr : field ∉ tool.required) :
    Accepted crates tool (Json.removeEntry field entries) := by
  refine ⟨?_, ?_⟩
  · intro key hkey
    have hne : key ≠ field := fun heq => hr (heq ▸ hkey)
    rw [Json.lookup_removeEntry, if_neg hne]
    exact h.complete key hkey
  · intro e he
    exact h.typed e (List.mem_of_mem_filter he)

theorem sameFields_insertEntry {value value' : Value} (hl : entries.lookup field = some value)
    (hid : isId tool field) (hc : canonId crates value = canonId crates value') :
    SameFields crates tool entries (insertEntry field value' entries) := by
  intro key _
  unfold canon
  rw [Json.lookup_insertEntry]
  by_cases hkey : key = field
  · subst hkey
    simp [hl, hid, hc]
  · rw [if_neg hkey]

theorem sameFields_removeEntry {value : Value} (hl : entries.lookup field = some value)
    (hd : defaultOf tool field = some value) :
    SameFields crates tool entries (removeEntry field entries) := by
  intro key _
  unfold canon
  rw [Json.lookup_removeEntry]
  by_cases hkey : key = field
  · subst hkey
    simp [hl, hd]
  · rw [if_neg hkey]

end Respell

/-! ## The exact condition -/

/-- Some call of the tool that validation accepts gets past every gate before
`gate` and matches it. -/
def Reached (tool : Tool) (gates : List McpGate) (gate : McpGate) : Prop :=
  ∃ before after entries, gates = before ++ gate :: after ∧
    (Value.object entries).Sorted ∧ Accepted crates tool entries ∧
    gateMatches crates gate (.object entries) = true ∧
    ∀ g ∈ before, gateMatches crates g (.object entries) = false

/-- Two calls that validation accepts and the daemon decodes to one operation
get one decision. -/
def DecidesOperations (tool : Tool) (gates : List McpGate) : Prop :=
  ∀ rawA rawB a b : Value, rawA.Sorted → rawB.Sorted →
    validateArguments crates tool rawA = .ok a → validateArguments crates tool rawB = .ok b →
    (∃ o, Daemon.Args.operation crates tool (withActor tool a) = some (.ok o) ∧
      Daemon.Args.operation crates tool (withActor tool b) = some (.ok o)) →
    decide crates gates a = decide crates gates b

theorem deciding_eq_some_iff (gates : List McpGate) (gate : McpGate) (args : Value) :
    deciding crates gates args = some gate ↔ ∃ before after, gates = before ++ gate :: after ∧
      gateMatches crates gate args = true ∧ ∀ g ∈ before, gateMatches crates g args = false := by
  rw [deciding, List.find?_eq_some_iff_append]
  constructor
  · rintro ⟨hm, before, after, heq, hb⟩
    exact ⟨before, after, heq, hm, fun g hg => by simpa using hb g hg⟩
  · rintro ⟨before, after, heq, hm, hb⟩
    exact ⟨hm, before, after, heq, fun g hg => by simpa using hb g hg⟩

theorem reached_of_deciding {tool : Tool} {gates : List McpGate} {gate : McpGate}
    {entries : List (String × Value)} (hs : (Value.object entries).Sorted)
    (ha : Accepted crates tool entries)
    (hd : deciding crates gates (.object entries) = some gate) :
    Reached crates tool gates gate := by
  obtain ⟨before, after, heq, hm, hb⟩ := (deciding_eq_some_iff crates gates gate _).mp hd
  exact ⟨before, after, entries, heq, hs, ha, hm, hb⟩

private theorem find?_eq_of_mutual {α : Type} {p q : α → Bool} {l : List α}
    (hp : ∀ x, l.find? p = some x → q x = true) (hq : ∀ x, l.find? q = some x → p x = true) :
    l.find? p = l.find? q := by
  induction l with
  | nil => rfl
  | cons x l ih =>
    by_cases hx : p x = true
    · have hx' : q x = true := hp x (List.find?_cons_of_pos hx)
      rw [List.find?_cons_of_pos hx, List.find?_cons_of_pos hx']
    · have hx' : ¬ q x = true := fun h => hx (hq x (List.find?_cons_of_pos h))
      rw [List.find?_cons_of_neg hx, List.find?_cons_of_neg hx'] at *
      exact ih hp hq

theorem deciding_eq_of_blind {tool : Tool} {gates : List McpGate}
    (hblind : ∀ gate, Reached crates tool gates gate → Blind crates tool gate)
    {a b : List (String × Value)} (hsa : (Value.object a).Sorted) (hsb : (Value.object b).Sorted)
    (ha : Accepted crates tool a) (hb : Accepted crates tool b)
    (hs : SameFields crates tool a b) :
    deciding crates gates (.object a) = deciding crates gates (.object b) := by
  have hs' : SameFields crates tool b a := fun field hf => (hs field hf).symm
  apply find?_eq_of_mutual
  · intro gate hd
    have hm := List.find?_some hd
    exact (hblind gate (reached_of_deciding crates hsa ha hd)).transfer crates ha hs hm
  · intro gate hd
    have hm := List.find?_some hd
    exact (hblind gate (reached_of_deciding crates hsb hb hd)).transfer crates hb hs' hm

theorem validateArguments_object {tool : Tool} {entries : List (String × Value)}
    (h : Accepted crates tool entries) :
    validateArguments crates tool (.object entries) = .ok (.object entries) :=
  (validateArguments_ok_iff crates tool _ _).mpr ⟨entries, rfl, h, .inl rfl⟩

/-- Where decisions follow operations, a gate that decides a call matches every
respelling of it. -/
theorem gateMatches_respelled {tool : Tool} (ht : tool.dangerous = true) {gates : List McpGate}
    (hids : (gates.map McpGate.id).Nodup) (h : DecidesOperations crates tool gates)
    {a b : List (String × Value)} (hsa : (Value.object a).Sorted) (hsb : (Value.object b).Sorted)
    (ha : Accepted crates tool a) (hb : Accepted crates tool b)
    (hs : SameFields crates tool a b) {gate : McpGate}
    (hd : deciding crates gates (.object a) = some gate) :
    gateMatches crates gate (.object b) = true := by
  have heq := h (.object a) (.object b) (.object a) (.object b) hsa hsb
    (validateArguments_object crates ha) (validateArguments_object crates hb)
    ((sameOperation_iff crates ht ha hb).mpr hs)
  rw [decide_eq_deciding, decide_eq_deciding, hd] at heq
  cases hd' : deciding crates gates (.object b) with
  | none =>
    rw [hd'] at heq
    exact absurd heq (McpGate.decision_ne_default gate)
  | some gate' =>
    rw [hd'] at heq
    have hid := McpGate.decision_injective heq
    have hgate : gate = gate' :=
      List.inj_on_of_nodup_map hids (List.mem_of_find?_eq_some hd)
        (List.mem_of_find?_eq_some hd') hid
    obtain ⟨-, -, -, hm, -⟩ := (deciding_eq_some_iff crates gates gate' _).mp hd'
    rw [hgate]
    exact hm

theorem nullableUuid_default {tool : Tool} (ht : tool.dangerous = true) {field : String}
    (hk : fieldKind tool field = some .nullableUuidString) :
    defaultOf tool field = some .null := by
  obtain ⟨l₁, l₂, hfields, -⟩ := List.lookup_eq_some_iff.mp hk
  have hmem : (field, FieldKind.nullableUuidString) ∈ tool.fields := by simp [hfields]
  cases tool <;> simp [Tool.dangerous] at ht <;> simp [Tool.fields] at hmem
  subst hmem
  decide

theorem not_required_of_default {tool : Tool} {field : String} {value : Value}
    (h : defaultOf tool field = some value) : field ∉ tool.required := by
  intro hr
  rw [defaultOf, if_pos hr] at h
  cases h

/-- Where decisions follow operations, what a deciding gate asks of a field is
met by every respelling of the call. -/
theorem asked_of_respelled {tool : Tool} (ht : tool.dangerous = true) {gates : List McpGate}
    (hids : (gates.map McpGate.id).Nodup) (h : DecidesOperations crates tool gates)
    {a b : List (String × Value)} (hsa : (Value.object a).Sorted) (hsb : (Value.object b).Sorted)
    (ha : Accepted crates tool a) (hb : Accepted crates tool b)
    (hs : SameFields crates tool a b) {gate : McpGate}
    (hd : deciding crates gates (.object a) = some gate) {text : String}
    {fields : List (String × Value)} (htext : gate.argPattern = some text)
    (hparse : crates.fromStr text = some (.object fields)) {field : String} {expected : Value}
    (hmem : (field, expected) ∈ fields) :
    ∃ value, b.lookup field = some value ∧ valueMatches expected value = true := by
  have hmb := gateMatches_respelled crates ht hids h hsa hsb ha hb hs hd
  rcases (gateMatches_iff crates gate b).mp hmb with hnone | ⟨text', fields', ht', hp', hall⟩
  · rw [htext] at hnone
    cases hnone
  · rw [htext] at ht'
    cases ht'
    rw [hparse] at hp'
    cases hp'
    exact hall field expected hmem

theorem hasKind_of_parse {tool : Tool} {field t : String} {u : Uuid} (hid : isId tool field)
    (ht : crates.uuid.parseStr t = some u) :
    ∃ kind, fieldKind tool field = some kind ∧ HasKind crates kind field (.string t) := by
  rcases hid with hk | hk
  · exact ⟨_, hk, by simp [HasKind, validateField, Value.asStr, ht]⟩
  · exact ⟨_, hk, by simp [HasKind, validateField, Value.asStr, ht]⟩

/-- A reached gate that is not blind separates two spellings: the hyphenated from
the braced identifier, or a written default from a missing key. -/
theorem blind_of_decidesOperations {tool : Tool} (ht : tool.dangerous = true)
    {gates : List McpGate} (hids : (gates.map McpGate.id).Nodup)
    (h : DecidesOperations crates tool gates) {gate : McpGate}
    (hreach : Reached crates tool gates gate) : Blind crates tool gate := by
  obtain ⟨before, after, entries, heq, hsorted, hacc, hm, hb⟩ := hreach
  have hd : deciding crates gates (.object entries) = some gate :=
    (deciding_eq_some_iff crates gates gate _).mpr ⟨before, after, heq, hm, hb⟩
  intro text fields htext hparse field expected hmem
  have hask : ∀ b, (Value.object b).Sorted → Accepted crates tool b →
      SameFields crates tool entries b →
      ∃ value, b.lookup field = some value ∧ valueMatches expected value = true :=
    fun b hsb hab hsame =>
      asked_of_respelled crates ht hids h hsorted hsb hacc hab hsame hd htext hparse hmem
  obtain ⟨value, hl, hv⟩ := hask entries hsorted hacc (fun _ _ => rfl)
  have hdefault : defaultOf tool field ≠ some value := by
    intro hdef
    obtain ⟨value', hl', -⟩ := hask (removeEntry field entries)
      (Json.sorted_removeEntry field hsorted)
      (Accepted.removeEntry crates hacc (not_required_of_default hdef))
      (sameFields_removeEntry crates hl hdef)
    rw [Json.lookup_removeEntry, if_pos rfl] at hl'
    cases hl'
  refine ⟨?_, ?_⟩
  · intro hid
    have hspelled : ∃ s u, value = .string s ∧ crates.uuid.parseStr s = some u := by
      rcases hid with hk | hk
      · exact hasKind_uuid (hacc.hasKind hl hk)
      · rcases hasKind_nullableUuid (hacc.hasKind hl hk) with rfl | hs
        · exact absurd (nullableUuid_default ht hk) hdefault
        · exact hs
    obtain ⟨s, u, rfl, hp⟩ := hspelled
    have hrespell : ∀ t, crates.uuid.parseStr t = some u →
        valueMatches expected (.string t) = true := by
      intro t htu
      obtain ⟨kind, hk, hhas⟩ := hasKind_of_parse crates hid htu
      obtain ⟨value', hl', hv'⟩ := hask (insertEntry field (.string t) entries)
        (Json.sorted_insertEntry field _ hsorted)
        (Accepted.insertEntry crates hacc hk hhas)
        (sameFields_insertEntry crates hl hid (by simp [canonId, Value.asStr, hp, htu]))
      rw [Json.lookup_insertEntry, if_pos rfl] at hl'
      cases hl'
      exact hv'
    exact expected_of_both u (hrespell _ (crates.uuid.parse_hyphenated u))
      (hrespell _ (crates.uuid.parse_braced u))
  · intro hdef
    have he := (nonString_expected (defaultOf_nonString hdef)).mp hv
    rw [he] at hdef
    exact hdefault hdef

theorem decidesOperations_of_blind {tool : Tool} (ht : tool.dangerous = true)
    {gates : List McpGate}
    (hblind : ∀ gate, Reached crates tool gates gate → Blind crates tool gate) :
    DecidesOperations crates tool gates := by
  intro rawA rawB a b hsa hsb hva hvb hop
  obtain ⟨ea, rfl, haa, hra⟩ := (validateArguments_ok_iff crates tool rawA a).mp hva
  obtain ⟨eb, rfl, hab, hrb⟩ := (validateArguments_ok_iff crates tool rawB b).mp hvb
  have hsea : (Value.object ea).Sorted := by
    rcases hra with rfl | ⟨-, rfl⟩
    · exact hsa
    · exact List.Pairwise.nil
  have hseb : (Value.object eb).Sorted := by
    rcases hrb with rfl | ⟨-, rfl⟩
    · exact hsb
    · exact List.Pairwise.nil
  have hsame := (sameOperation_iff crates ht haa hab).mp hop
  rw [decide_eq_deciding, decide_eq_deciding,
    deciding_eq_of_blind crates hblind hsea hseb haa hab hsame]

/-- The gates of a dangerous tool decide operations and not spellings exactly
when no gate that some accepted call reaches looks at the spelling of an
identifier or at a written default. -/
theorem decidesOperations_iff {tool : Tool} (ht : tool.dangerous = true) {gates : List McpGate}
    (hids : (gates.map McpGate.id).Nodup) :
    DecidesOperations crates tool gates ↔
      ∀ gate, Reached crates tool gates gate → Blind crates tool gate :=
  ⟨fun h _ hreach => blind_of_decidesOperations crates ht hids h hreach,
    decidesOperations_of_blind crates ht⟩

/-! ## A dodged gate -/

/-- The draft with the identifier `11111111-1111-1111-1111-111111111111`. -/
def guardedDraft : Uuid := .filled 1

def guardPattern : String := "\x7b\"id\":\"11111111-1111-1111-1111-111111111111\"\x7d"

/-- The documented parser, and a JSON reader for the one pattern used here. -/
def guardCrates : Crates :=
  { Crates.plain with
    fromStr := fun s => if s = guardPattern then
      some (.object [("id", .string "11111111-1111-1111-1111-111111111111")]) else none }

/-- Deny deletion of one draft, allow every other call. -/
def guardGates : List McpGate :=
  [⟨.filled 2, "postblox_draft_delete", some guardPattern, .deny⟩,
    ⟨.filled 3, "postblox_draft_delete", none, .autoAllow⟩]

def deleteHyphenated : Value := .object [("id", .string guardedDraft.hyphenated)]

def deleteBraced : Value := .object [("id", .string guardedDraft.braced)]

theorem decidesOperations_iff_guardGates :
    Tool.dangerous .draftDelete = true ∧ (guardGates.map McpGate.id).Nodup ∧
      (DecidesOperations guardCrates .draftDelete guardGates ↔
        ∀ gate, Reached guardCrates .draftDelete guardGates gate →
          Blind guardCrates .draftDelete gate) :=
  ⟨rfl, by decide, decidesOperations_iff guardCrates rfl (by decide)⟩

/-- The braced spelling of the guarded draft gets past its `Deny` gate. -/
theorem guardGates_dodged :
    Gates.decide guardCrates guardGates deleteHyphenated =
        .deny (some (.filled 2)) ∧
      Gates.decide guardCrates guardGates deleteBraced =
        .autoAllow (some (.filled 3)) ∧
      ¬ DecidesOperations guardCrates .draftDelete guardGates := by
  have hhyphenated : Gates.decide guardCrates guardGates deleteHyphenated =
      .deny (some (.filled 2)) := by decide
  have hbraced : Gates.decide guardCrates guardGates deleteBraced =
      .autoAllow (some (.filled 3)) := by decide
  refine ⟨hhyphenated, hbraced, ?_⟩
  intro h
  have heq := h deleteHyphenated deleteBraced deleteHyphenated deleteBraced (by decide) (by decide)
    (by rfl) (by rfl) ⟨.draftDelete guardedDraft, by rfl, by rfl⟩
  rw [hhyphenated, hbraced] at heq
  cases heq

end Postblox.Mcp.GateSpelling
