import Postblox.Mail.ReplyAll

/-!
# Normalized subjects

`normalize_subject` strips the reply and forward markers of a trimmed subject and puts the
rest into lower case. A subject that is already trimmed, has no marker and no uppercase
character is handed back as it is. There are letters that are not uppercase and have
another lower case, so the short cut is not always the same.
-/
namespace Postblox.Mail

open Lib

/-- `Re:`, `Fwd:` or `Fw:`, in any case. -/
def IsMarker (m : List Char) : Prop :=
  m.map Char.toLower ∈ [['r', 'e', ':'], ['f', 'w', 'd', ':'], ['f', 'w', ':']]

def Bare (s : List Char) : Prop := ∀ m, IsMarker m → ¬ m <+: s

/-- `t` is left of `s` after its markers, and the blanks behind them. -/
inductive Unmarked : List Char → List Char → Prop
  | bare {s} : Bare s → Unmarked s s
  | marked {m rest t} : IsMarker m → Unmarked (trimStart rest) t → Unmarked (m ++ rest) t

section Markers

variable {s t m rest : List Char}

theorem stripIgnoreAsciiCase_some {lower : List Char}
    (h : stripIgnoreAsciiCase lower s = some rest) :
    ∃ m, m.map Char.toLower = lower ∧ s = m ++ rest := by
  unfold stripIgnoreAsciiCase at h
  split at h
  next hlower =>
    obtain rfl := Option.some.inj h
    exact ⟨s.take lower.length, hlower, (List.take_append_drop _ s).symm⟩
  next => cases h

theorem stripIgnoreAsciiCase_none {lower : List Char}
    (h : stripIgnoreAsciiCase lower s = none) (hm : m.map Char.toLower = lower) : ¬ m <+: s := by
  rintro ⟨rest, rfl⟩
  have hlength : lower.length = m.length := by rw [← hm, List.length_map]
  have htake : ((m ++ rest).take lower.length).map Char.toLower = lower := by
    rw [hlength, List.take_left, hm]
  rw [stripIgnoreAsciiCase, if_pos htake] at h
  cases h

theorem stripReplyMarker_some (h : stripReplyMarker s = some rest) :
    ∃ m, IsMarker m ∧ s = m ++ rest := by
  unfold stripReplyMarker at h
  cases hre : stripIgnoreAsciiCase ['r', 'e', ':'] s with
  | some rest' =>
    rw [hre, Option.orElse_some] at h
    obtain ⟨m, hm, hs⟩ := stripIgnoreAsciiCase_some (hre.trans h)
    exact ⟨m, by rw [IsMarker, hm]; decide, hs⟩
  | none =>
    rw [hre, Option.orElse_none] at h
    cases hfwd : stripIgnoreAsciiCase ['f', 'w', 'd', ':'] s with
    | some rest' =>
      rw [hfwd, Option.orElse_some] at h
      obtain ⟨m, hm, hs⟩ := stripIgnoreAsciiCase_some (hfwd.trans h)
      exact ⟨m, by rw [IsMarker, hm]; decide, hs⟩
    | none =>
      rw [hfwd, Option.orElse_none] at h
      obtain ⟨m, hm, hs⟩ := stripIgnoreAsciiCase_some h
      exact ⟨m, by rw [IsMarker, hm]; decide, hs⟩

theorem stripReplyMarker_none (h : stripReplyMarker s = none) : Bare s := by
  unfold stripReplyMarker at h
  cases hre : stripIgnoreAsciiCase ['r', 'e', ':'] s with
  | some rest =>
    rw [hre, Option.orElse_some] at h
    cases h
  | none =>
    rw [hre, Option.orElse_none] at h
    cases hfwd : stripIgnoreAsciiCase ['f', 'w', 'd', ':'] s with
    | some rest =>
      rw [hfwd, Option.orElse_some] at h
      cases h
    | none =>
      rw [hfwd, Option.orElse_none] at h
      intro m hm
      simp only [IsMarker, List.mem_cons, List.not_mem_nil, or_false] at hm
      rcases hm with hm | hm | hm
      · exact stripIgnoreAsciiCase_none hre hm
      · exact stripIgnoreAsciiCase_none hfwd hm
      · exact stripIgnoreAsciiCase_none h hm

theorem IsMarker.length (h : IsMarker m) : 3 ≤ m.length := by
  simp only [IsMarker, List.mem_cons, List.not_mem_nil, or_false] at h
  rcases h with h | h | h
  · rw [← List.length_map Char.toLower, h]
    decide
  · rw [← List.length_map Char.toLower, h]
    decide
  · rw [← List.length_map Char.toLower, h]
    decide

theorem length_trimStart_le (s : List Char) : (trimStart s).length ≤ s.length :=
  (List.dropWhile_sublist isWhitespace).length_le

/-- As many rounds as there are characters strip all markers. -/
theorem unmarked_stripReplyMarkers {fuel : Nat} (h : s.length ≤ fuel) :
    Unmarked s (stripReplyMarkers fuel s) := by
  induction fuel generalizing s with
  | zero =>
    have hnil : s = [] := List.length_eq_zero_iff.mp (by omega)
    rw [hnil]
    apply Unmarked.bare
    intro m hm hprefix
    have hlength := hm.length
    rw [List.prefix_nil.mp hprefix] at hlength
    exact absurd hlength (by decide)
  | succ fuel ih =>
    unfold stripReplyMarkers
    cases hs : stripReplyMarker s with
    | none => exact Unmarked.bare (stripReplyMarker_none hs)
    | some rest =>
      obtain ⟨m, hm, rfl⟩ := stripReplyMarker_some hs
      apply Unmarked.marked hm
      apply ih
      have hlength := hm.length
      have hrest := length_trimStart_le rest
      rw [List.length_append] at h
      omega

/-- No marker begins like another one. -/
theorem marker_unique {m' rest' : List Char} (hm : IsMarker m) (hm' : IsMarker m')
    (h : m ++ rest = m' ++ rest') : m = m' ∧ rest = rest' := by
  have hlower := congrArg (List.map Char.toLower) h
  rw [List.map_append, List.map_append] at hlower
  have hsame : (m.map Char.toLower).length = (m'.map Char.toLower).length := by
    simp only [IsMarker, List.mem_cons, List.not_mem_nil, or_false] at hm hm'
    rcases hm with hm | hm | hm <;> rcases hm' with hm' | hm' | hm' <;>
      simp [hm, hm'] at hlower ⊢
  rw [List.length_map, List.length_map] at hsame
  exact List.append_inj h hsame

theorem Unmarked.unique {t' : List Char} (h : Unmarked s t) (h' : Unmarked s t') : t = t' := by
  induction h with
  | bare hbare =>
    cases h' with
    | bare => rfl
    | marked hm _ => exact absurd (List.prefix_append _ _) (hbare _ hm)
  | @marked m rest t hm _ ih =>
    generalize hs : m ++ rest = s' at h'
    cases h' with
    | bare hbare => exact absurd (hs ▸ List.prefix_append _ _) (hbare _ hm)
    | marked hm' hrest =>
      obtain ⟨-, rfl⟩ := marker_unique hm hm' hs
      exact ih hrest

theorem Unmarked.length_le (h : Unmarked s t) : t.length ≤ s.length := by
  induction h with
  | bare => exact Nat.le_refl _
  | marked _ _ ih =>
    have hrest := ih.trans (length_trimStart_le _)
    rw [List.length_append]
    omega

/-- Only what has no marker is left as it is. -/
theorem Unmarked.bare_of_self (h : Unmarked s s) : Bare s := by
  generalize ht : s = t at h
  cases h with
  | bare hbare => exact hbare
  | @marked m rest t hm hrest =>
    have hlength := hrest.length_le.trans (length_trimStart_le rest)
    have hmarker := hm.length
    rw [List.length_append] at hlength
    omega

theorem getLast?_trimStart {c : Char} (h : (trimStart s).getLast? = some c) :
    s.getLast? = some c := by
  have hsplit : s.takeWhile isWhitespace ++ s.dropWhile isWhitespace = s :=
    List.takeWhile_append_dropWhile
  rw [trimStart] at h
  rw [← hsplit, List.getLast?_append, h]
  rfl

/-- Stripping markers off a trimmed subject leaves it trimmed. -/
theorem Unmarked.trim_eq (h : Unmarked s t) (hs : trim s = s) : trim t = t := by
  induction h with
  | bare => exact hs
  | @marked m rest t hm _ ih =>
    apply ih
    rw [trim_eq_strip, strip_eq_self_iff] at hs ⊢
    constructor
    · exact fun c hc => head_trimStart hc
    · intro c hc
      apply hs.2
      rw [List.getLast?_append, getLast?_trimStart hc]
      rfl

end Markers

/-! ## Both paths -/

/-- Trimmed, without markers and without uppercase characters: handed back as it is. -/
def AlreadyPlain (cm : CaseMap) (s : String) : Prop :=
  trim s.toList = s.toList ∧ Bare s.toList ∧ ∀ c ∈ s.toList, cm.isUppercase c = false

section Paths

variable {cm : CaseMap} {s : String} {t : List Char}

/-- The text that `normalizeSubject` looks at after its loop. -/
theorem unmarked_trim (s : String) :
    Unmarked (trim s.toList) (stripReplyMarkers s.length (trim s.toList)) := by
  apply unmarked_stripReplyMarkers
  rw [trim_eq_strip, ← String.length_toList]
  exact length_strip_le isWhitespace _

/-- The loop changes nothing exactly where there is nothing to strip. -/
theorem unmarked_self_iff (h : Unmarked (trim s.toList) t) :
    t = s.toList ↔ trim s.toList = s.toList ∧ Bare s.toList := by
  constructor
  · intro ht
    have hle := h.length_le
    have htrim : trim s.toList = s.toList := by
      rw [ht] at hle
      rw [trim_eq_strip] at hle ⊢
      exact strip_eq_of_length hle
    rw [ht, htrim] at h
    exact ⟨htrim, h.bare_of_self⟩
  · rintro ⟨htrim, hbare⟩
    rw [htrim] at h
    exact h.unique (Unmarked.bare hbare)

theorem normalizeSubject_plain (h : AlreadyPlain cm s) : normalizeSubject cm s = s := by
  have hself := (unmarked_self_iff (unmarked_trim s)).mpr ⟨h.1, h.2.1⟩
  have hupper : s.toList.any cm.isUppercase = false := by
    rw [List.any_eq_false]
    intro c hc
    rw [h.2.2 c hc]
    decide
  simp only [normalizeSubject, hself, hupper, decide_true, Bool.not_false, Bool.and_self, if_true]

theorem normalizeSubject_lower (h : ¬ AlreadyPlain cm s) (ht : Unmarked (trim s.toList) t) :
    normalizeSubject cm s = cm.toLowercase (String.ofList t) := by
  obtain rfl := ht.unique (unmarked_trim s)
  simp only [normalizeSubject]
  rw [if_neg]
  intro hfast
  rw [Bool.and_eq_true, decide_eq_true_eq, Bool.not_eq_true', List.any_eq_false] at hfast
  obtain ⟨htrim, hbare⟩ := (unmarked_self_iff ht).mp hfast.1
  refine h ⟨htrim, hbare, fun c hc => ?_⟩
  rw [← hfast.1] at hc
  exact Bool.eq_false_iff.mpr (hfast.2 c hc)

theorem isMarker_re : IsMarker "Re:".toList := by
  unfold IsMarker
  decide

theorem isMarker_fwd : IsMarker "Fwd:".toList := by
  unfold IsMarker
  decide

/-- A marker in front of a subject is stripped with the blanks around it. -/
theorem trim_marker {m : List Char} (hne : m ≠ []) (hm : trim m = m) (x : List Char) :
    ∃ rest, trim (m ++ x) = m ++ rest ∧ trimStart rest = trim x := by
  rw [trim_eq_strip] at hm
  have hwritten : ¬ Blank isWhitespace m := by
    rw [← strip_eq_nil_iff, hm]
    exact hne
  have hfront : m.dropWhile isWhitespace = m := by rw [← hm, dropWhile_strip]
  have hback : m.rdropWhile isWhitespace = m := by rw [← hm, rdropWhile_strip]
  refine ⟨x.rdropWhile isWhitespace, ?_, ?_⟩
  · rw [trim_eq_strip, strip, dropWhile_written hwritten, hfront]
    by_cases hx : Blank isWhitespace x
    · rw [rdropWhile_blank hx, hback, List.rdropWhile_eq_nil_iff.mpr hx, List.append_nil]
    · exact rdropWhile_written hx
  · rw [trimStart, dropWhile_rdropWhile, trim_eq_strip]

/-- A subject with a marker put in front of it normalizes like the rest of it, put into
lower case. -/
theorem normalizeSubject_marker {mark : String} (hmark : IsMarker mark.toList)
    (hm : trim mark.toList = mark.toList) (ht : Unmarked (trim s.toList) t) :
    normalizeSubject cm (mark ++ " " ++ s) = cm.toLowercase (String.ofList t) := by
  have hne : mark.toList ≠ [] := by
    intro hnil
    have hlength := hmark.length
    rw [hnil] at hlength
    exact absurd hlength (by decide)
  have hlist : (mark ++ " " ++ s).toList = mark.toList ++ ' ' :: s.toList := by
    rw [String.append_assoc, String.toList_append, String.toList_append]
    rfl
  obtain ⟨rest, htrim, hrest⟩ := trim_marker hne hm (' ' :: s.toList)
  have hblank : trim (' ' :: s.toList) = trim s.toList := by
    have hspace : Blank isWhitespace [' '] := by
      intro c hc
      rw [List.mem_singleton.mp hc]
      decide
    rw [trim_eq_strip, trim_eq_strip, ← List.singleton_append, strip_blank_append hspace]
  have hunmarked : Unmarked (trim (mark ++ " " ++ s).toList) t := by
    rw [hlist, htrim]
    apply Unmarked.marked hmark
    rw [hrest, hblank]
    exact ht
  apply normalizeSubject_lower _ hunmarked
  rintro ⟨-, hbare, -⟩
  apply hbare _ hmark
  rw [hlist]
  exact List.prefix_append _ _

end Paths

def hasFwdPrefix (charToLowercase : Char → List Char) (subject : String) : Bool :=
  let lower := ((trimStart subject.toList).take 4).flatMap charToLowercase
  ['f', 'w', 'd', ':'].isPrefixOf lower || ['f', 'w', ':'].isPrefixOf lower

def fwdPrefix (charToLowercase : Char → List Char) (subject : String) : String :=
  if hasFwdPrefix charToLowercase subject then subject else "Fwd: " ++ subject

/-- A subject, its reply and its forward normalize alike, to the lower case of what is left
without markers. -/
structure NormalizedAlike (cm : CaseMap) (charToLowercase : Char → List Char) (s : String) :
    Prop where
  normal : ∃ t, Unmarked (trim s.toList) t ∧
    normalizeSubject cm s = cm.toLowercase (String.ofList t)
  reply : normalizeSubject cm (rePrefix s) = normalizeSubject cm s
  forward : normalizeSubject cm (fwdPrefix charToLowercase s) = normalizeSubject cm s

/-- The two paths differ exactly on a subject that is handed back although it has another
lower case. -/
theorem normalized_alike_iff (cm : CaseMap) (charToLowercase : Char → List Char) (s : String) :
    NormalizedAlike cm charToLowercase s ↔ (AlreadyPlain cm s → cm.toLowercase s = s) := by
  constructor
  · intro h hplain
    obtain ⟨t, ht, hnormal⟩ := h.normal
    rw [normalizeSubject_plain hplain, (unmarked_self_iff ht).mpr ⟨hplain.1, hplain.2.1⟩,
      String.ofList_toList] at hnormal
    exact hnormal.symm
  · intro h
    have ht := unmarked_trim s
    generalize stripReplyMarkers s.length (trim s.toList) = t at ht
    have hnormal : normalizeSubject cm s = cm.toLowercase (String.ofList t) := by
      by_cases hplain : AlreadyPlain cm s
      · rw [normalizeSubject_plain hplain, (unmarked_self_iff ht).mpr ⟨hplain.1, hplain.2.1⟩,
          String.ofList_toList, h hplain]
      · exact normalizeSubject_lower hplain ht
    refine ⟨⟨t, ht, hnormal⟩, ?_, ?_⟩
    · unfold rePrefix
      split
      · rfl
      · have hmark : "Re: " = "Re:" ++ " " := by decide
        rw [hnormal, hmark]
        exact normalizeSubject_marker isMarker_re (by decide) ht
    · unfold fwdPrefix
      split
      · rfl
      · have hmark : "Fwd: " = "Fwd:" ++ " " := by decide
        rw [hnormal, hmark]
        exact normalizeSubject_marker isMarker_fwd (by decide) ht

/-- ASCII, and a letter with a third case between upper and lower. -/
def titlecased : CaseMap where
  isUppercase c := c.isUpper || c == 'Ǆ'
  toLowercase s :=
    String.ofList (s.toList.map fun c => if c == 'Ǆ' || c == 'ǅ' then 'ǆ' else c.toLower)

theorem titlecase_is_not_normalized :
    ¬ ∀ cm charToLowercase s, NormalizedAlike cm charToLowercase s := by
  intro h
  have hreply := (h titlecased (fun c => [c.toLower]) "ǅ").reply
  revert hreply
  decide

end Postblox.Mail
