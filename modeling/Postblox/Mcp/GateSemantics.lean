import Postblox.Mcp.Gates

/-!
# What the gates mean

The first gate that matches decides. A gate with a pattern matches when every field it names
is an argument with the expected value, or with a text that has the expected prefix and
suffix one after the other.
-/
namespace Postblox.Mcp.Gates

open Json (Value)

/-- The argument is what the pattern expects: the value itself, or a text around the star. -/
inductive Fits : Value → Value → Prop
  | equal {expected : Value} (hplain : ∀ s, expected = .string s → '*' ∉ s.toList) :
    Fits expected expected
  | wildcard (front middle back : String) (hfront : '*' ∉ front.toList)
    (hback : '*' ∉ back.toList) :
    Fits (.string (front ++ "*" ++ back)) (.string (front ++ middle ++ back))

variable (crates : Crates)

/-- The gate applies to a call with these arguments. -/
def Matches (gate : McpGate) (entries : List (String × Value)) : Prop :=
  gate.argPattern = none ∨ ∃ text fields, gate.argPattern = some text ∧
    crates.fromStr text = some (.object fields) ∧
    ∀ field expected, (field, expected) ∈ fields →
      ∃ value, entries.lookup field = some value ∧ Fits expected value

/-- The pattern of the gate asks for the field. -/
def Names (gate : McpGate) (field : String) : Prop :=
  ∃ text fields expected, gate.argPattern = some text ∧
    crates.fromStr text = some (.object fields) ∧ (field, expected) ∈ fields

/-! ## Wildcards -/

theorem byteLen_append (as bs : List Char) : byteLen (as ++ bs) = byteLen as + byteLen bs := by
  unfold byteLen
  rw [List.map_append, List.sum_append]

theorem byteLen_eq_zero {cs : List Char} (h : byteLen cs = 0) : cs = [] := by
  cases cs with
  | nil => rfl
  | cons c rest =>
    have hpos := c.utf8Size_pos
    unfold byteLen at h
    rw [List.map_cons, List.sum_cons] at h
    omega

/-- A prefix and a suffix that fit in together do not overlap. -/
theorem exists_middle {front back text : List Char} (hfront : front <+: text)
    (hback : back <:+ text) (hlen : byteLen front + byteLen back ≤ byteLen text) :
    ∃ middle, text = front ++ middle ++ back := by
  obtain ⟨rest, rfl⟩ := hfront
  rw [byteLen_append] at hlen
  rcases List.suffix_or_suffix_of_suffix hback (List.suffix_append front rest) with
    ⟨middle, rfl⟩ | ⟨extra, rfl⟩
  · exact ⟨middle, by rw [List.append_assoc]⟩
  · rw [byteLen_append] at hlen
    have hextra : extra = [] := byteLen_eq_zero (by omega)
    exact ⟨[], by rw [hextra, List.append_nil, List.nil_append]⟩

theorem takeWhile_star {front back : List Char} (hfront : '*' ∉ front) :
    (front ++ '*' :: back).takeWhile (· ≠ '*') = front ∧
      (front ++ '*' :: back).dropWhile (· ≠ '*') = '*' :: back := by
  have hall : ∀ c ∈ front, Decidable.decide (c ≠ '*') = true := by
    intro c hc
    rw [decide_eq_true_eq]
    rintro rfl
    exact hfront hc
  constructor
  · rw [List.takeWhile_append_of_pos hall]
    simp
  · rw [List.dropWhile_append_of_pos hall]
    simp

theorem wildcardMatches_iff {pattern text : List Char} :
    wildcardMatches pattern text = true ↔ ∃ front middle back, '*' ∉ front ∧ '*' ∉ back ∧
      pattern = front ++ '*' :: back ∧ text = front ++ middle ++ back := by
  constructor
  · intro h
    unfold wildcardMatches at h
    split_ifs at h with hstar hcount
    · exact ⟨[], text, [], List.not_mem_nil, List.not_mem_nil, hstar, by simp⟩
    · simp only [Bool.and_eq_true, List.isPrefixOf_iff_prefix, List.isSuffixOf_iff_suffix,
        decide_eq_true_eq] at h
      have hone : pattern.count '*' = 1 := not_not.mp hcount
      have hmem : '*' ∈ pattern := by
        rw [← List.count_pos_iff]
        omega
      obtain ⟨front, back, rfl, hfront⟩ := List.eq_append_cons_of_mem hmem
      rw [List.count_append, List.count_cons_self] at hone
      have hback : '*' ∉ back := by
        rw [← List.count_eq_zero]
        omega
      rw [(takeWhile_star hfront).1, (takeWhile_star hfront).2, List.drop_one, List.tail_cons] at h
      obtain ⟨middle, hmiddle⟩ := exists_middle h.1.1 h.1.2 h.2
      exact ⟨front, middle, back, hfront, hback, rfl, hmiddle⟩
  · rintro ⟨front, middle, back, hfront, hback, rfl, rfl⟩
    have hcount : (front ++ '*' :: back).count '*' = 1 := by
      rw [List.count_append, List.count_cons_self, List.count_eq_zero.mpr hfront,
        List.count_eq_zero.mpr hback]
    unfold wildcardMatches
    split_ifs with hstar hmany
    · rfl
    · exact absurd hcount hmany
    · rw [(takeWhile_star hfront).1, (takeWhile_star hfront).2, List.drop_one, List.tail_cons]
      simp only [Bool.and_eq_true, List.isPrefixOf_iff_prefix, List.isSuffixOf_iff_suffix,
        decide_eq_true_eq]
      refine ⟨⟨?_, List.suffix_append _ _⟩, ?_⟩
      · rw [List.append_assoc]
        exact List.prefix_append _ _
      · rw [byteLen_append, byteLen_append]
        omega

/-! ## One value -/

theorem fits_string_iff {s t : String} :
    Fits (.string s) (.string t) ↔ '*' ∉ s.toList ∧ s = t ∨
      ∃ front middle back, '*' ∉ front ∧ '*' ∉ back ∧ s.toList = front ++ '*' :: back ∧
        t.toList = front ++ middle ++ back := by
  constructor
  · intro h
    cases h with
    | equal hplain => exact .inl ⟨hplain s rfl, rfl⟩
    | wildcard front middle back hfront hback =>
      refine .inr ⟨front.toList, middle.toList, back.toList, hfront, hback, ?_, ?_⟩
      · simp
      · simp
  · rintro (⟨hplain, rfl⟩ | ⟨front, middle, back, hfront, hback, hs, ht⟩)
    · exact .equal fun s' heq => by rwa [← Value.string.inj heq]
    · have hpattern : s = String.ofList front ++ "*" ++ String.ofList back := by
        rw [← String.toList_inj, hs]
        simp
      have htext : t = String.ofList front ++ String.ofList middle ++ String.ofList back := by
        rw [← String.toList_inj, ht]
        simp
      rw [hpattern, htext]
      apply Fits.wildcard
      · rwa [String.toList_ofList]
      · rwa [String.toList_ofList]

theorem fits_nonString_iff {expected actual : Value} (h : expected.asStr = none) :
    Fits expected actual ↔ expected = actual := by
  constructor
  · intro hfits
    cases hfits with
    | equal => rfl
    | wildcard => cases h
  · rintro rfl
    apply Fits.equal
    rintro s rfl
    cases h

/-- Only a string can fit a string. -/
theorem fits_string_nonString {s : String} {actual : Value} (h : actual.asStr = none) :
    ¬ Fits (.string s) actual := by
  intro hfits
  cases hfits with
  | equal => cases h
  | wildcard => cases h

theorem valueMatches_iff {expected actual : Value} :
    valueMatches expected actual = true ↔ Fits expected actual := by
  cases hexpected : expected.asStr with
  | none => rw [nonString_expected hexpected, fits_nonString_iff hexpected]
  | some s =>
    have hs : expected = .string s := by
      cases expected with
      | string s' => rw [Option.some.inj hexpected]
      | _ => cases hexpected
    subst hs
    cases hactual : actual.asStr with
    | none =>
      rw [valueMatches_nonString hactual]
      constructor
      · rintro rfl
        cases hactual
      · exact fun h => absurd h (fits_string_nonString hactual)
    | some t =>
      have ht : actual = .string t := by
        cases actual with
        | string t' => rw [Option.some.inj hactual]
        | _ => cases hactual
      subst ht
      rw [fits_string_iff]
      unfold valueMatches
      simp only [Value.asStr]
      split_ifs with hstar
      · rw [wildcardMatches_iff]
        constructor
        · exact fun h => .inr h
        · rintro (⟨hplain, -⟩ | h)
          · exact absurd hstar hplain
          · exact h
      · rw [decide_eq_true_eq, Value.string.injEq]
        constructor
        · exact fun h => .inl ⟨hstar, h⟩
        · rintro (⟨-, h⟩ | ⟨front, middle, back, -, -, hs, -⟩)
          · exact h
          · rw [hs] at hstar
            exact absurd (List.mem_append_right _ List.mem_cons_self) hstar

/-- Two stars match nothing. -/
theorem not_fits_two_stars {s : String} (h : 2 ≤ s.toList.count '*') (actual : Value) :
    ¬ Fits (.string s) actual := by
  intro hfits
  cases hfits with
  | equal hplain =>
    rw [List.count_eq_zero.mpr (hplain s rfl)] at h
    omega
  | wildcard front middle back hfront hback =>
    simp only [String.toList_append, List.count_append, List.count_eq_zero.mpr hfront,
      List.count_eq_zero.mpr hback] at h
    have hone : "*".toList.count '*' = 1 := by decide
    omega

/-! ## Gates -/

theorem gateMatches_iff_matches {gate : McpGate} {entries : List (String × Value)} :
    gateMatches crates gate (.object entries) = true ↔ Matches crates gate entries := by
  rw [gateMatches_iff]
  simp only [valueMatches_iff]
  rfl

theorem Matches.congr {gate : McpGate} {entries entries' : List (String × Value)}
    (hsame : ∀ field, Names crates gate field → entries'.lookup field = entries.lookup field)
    (h : Matches crates gate entries) : Matches crates gate entries' := by
  rcases h with hnone | ⟨text, fields, hpattern, hparse, hfields⟩
  · exact .inl hnone
  · refine .inr ⟨text, fields, hpattern, hparse, fun field expected hfield => ?_⟩
    rw [hsame field ⟨text, fields, expected, hpattern, hparse, hfield⟩]
    exact hfields field expected hfield

theorem decide_of_none {gates : List McpGate} {entries : List (String × Value)}
    (h : ∀ gate ∈ gates, ¬ Matches crates gate entries) :
    decide crates gates (.object entries) = .require none := by
  have hnone : deciding crates gates (.object entries) = none := by
    unfold deciding
    rw [List.find?_eq_none]
    intro gate hgate hmatch
    exact h gate hgate ((gateMatches_iff_matches crates).mp hmatch)
  rw [decide_eq_deciding, hnone]
  rfl

theorem decide_of_first {before after : List McpGate} {gate : McpGate}
    {entries : List (String × Value)} (hbefore : ∀ g ∈ before, ¬ Matches crates g entries)
    (hgate : Matches crates gate entries) :
    decide crates (before ++ gate :: after) (.object entries) = McpGate.decision gate := by
  have hfirst : deciding crates (before ++ gate :: after) (.object entries) = some gate := by
    have hhit : gateMatches crates gate (.object entries) = true :=
      (gateMatches_iff_matches crates).mpr hgate
    unfold deciding
    rw [List.find?_append, List.find?_eq_none.mpr, Option.none_or, List.find?_cons, hhit]
    intro g hg hmatch
    exact hbefore g hg ((gateMatches_iff_matches crates).mp hmatch)
  rw [decide_eq_deciding, hfirst]
  rfl

/-- Arguments that no pattern names do not count. -/
theorem decide_congr {gates : List McpGate} {entries entries' : List (String × Value)}
    (hsame : ∀ gate ∈ gates, ∀ field, Names crates gate field →
      entries'.lookup field = entries.lookup field) :
    decide crates gates (.object entries') = decide crates gates (.object entries) := by
  induction gates with
  | nil => rfl
  | cons gate rest ih =>
    have hmatch : gateMatches crates gate (.object entries') =
        gateMatches crates gate (.object entries) := by
      have hgate := hsame gate List.mem_cons_self
      rw [Bool.eq_iff_iff, gateMatches_iff_matches, gateMatches_iff_matches]
      exact ⟨Matches.congr crates fun field h => (hgate field h).symm, Matches.congr crates hgate⟩
    rw [decide, decide, hmatch, ih fun g hg => hsame g (List.mem_cons_of_mem _ hg)]

/-- The first gate that matches decides with its action and its id, no gate means approval;
what the gates below it say and what no pattern names changes nothing, and a pattern with two
stars matches nothing. -/
theorem first_match_decides (gates : List McpGate) (entries : List (String × Value)) :
    ((∀ gate ∈ gates, ¬ Matches crates gate entries) →
        decide crates gates (.object entries) = .require none) ∧
      (∀ before gate after, gates = before ++ gate :: after →
        (∀ g ∈ before, ¬ Matches crates g entries) → Matches crates gate entries →
        decide crates gates (.object entries) = McpGate.decision gate ∧
        ∀ after', decide crates (before ++ gate :: after') (.object entries) =
          decide crates gates (.object entries)) ∧
      (∀ entries', (∀ gate ∈ gates, ∀ field, Names crates gate field →
          entries'.lookup field = entries.lookup field) →
        decide crates gates (.object entries') = decide crates gates (.object entries)) ∧
      ∀ s, 2 ≤ s.toList.count '*' → ∀ actual, ¬ Fits (.string s) actual := by
  refine ⟨decide_of_none crates, ?_, fun entries' => decide_congr crates,
    fun s h => not_fits_two_stars h⟩
  rintro before gate after rfl hbefore hgate
  have hfirst := @decide_of_first crates before after gate entries hbefore hgate
  refine ⟨hfirst, fun after' => ?_⟩
  rw [hfirst, @decide_of_first crates before after' gate entries hbefore hgate]

end Postblox.Mcp.Gates
