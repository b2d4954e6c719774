import Postblox.Mail.Subjects

/-!
# Normalizing twice

A normalized subject is trimmed and begins with no marker, so normalizing it again has
nothing to strip. What that takes of Unicode lowercasing is in `LowercaseTable`.
-/
namespace Postblox.Mail

open Lib

/-- The characters that markers are made of. -/
def markerChars : List Char := ['r', 'e', 'f', 'w', 'd', ':']

/-- What a character is lowercased to, wherever it stands. -/
structure LowersTo (c : Char) (piece : List Char) : Prop where
  written : piece ≠ []
  ascii : c.toNat < 128 → piece = [c.toLower]
  origin : ∀ d ∈ piece, d ∈ markerChars ∨ isWhitespace d = true → c.toLower = d

/-- `str::to_lowercase` lowers character by character, never makes a blank or a character
of a marker from another one, and changes nothing the second time. -/
structure LowercaseTable (cm : CaseMap) : Prop where
  idempotent : ∀ s, cm.toLowercase (cm.toLowercase s) = cm.toLowercase s
  charwise : ∀ s, ∃ pieces, List.Forall₂ LowersTo s.toList pieces ∧
    (cm.toLowercase s).toList = pieces.flatten

section Pieces

variable {c : Char} {s m rest piece : List Char} {pieces : List (List Char)}

theorem ascii_of_toLower (h : c.toLower ∈ markerChars) : c.toNat < 128 := by
  by_cases hc : c.isUpper = true
  · have hcode : 65 ≤ c.toNat ∧ c.toNat ≤ 90 := by
      simpa [Char.isUpper, UInt32.le_iff_toNat_le, ← Char.toNat_val] using hc
    omega
  · rw [Char.toLower_eq_of_not_isUpper hc] at h
    simp only [markerChars, List.mem_cons, List.not_mem_nil, or_false] at h
    rcases h with rfl | rfl | rfl | rfl | rfl | rfl <;> decide

theorem toLower_mem_markerChars (h : IsMarker m) : ∀ d ∈ m.map Char.toLower, d ∈ markerChars := by
  simp only [IsMarker, List.mem_cons, List.not_mem_nil, or_false] at h
  rcases h with h | h | h
  · rw [h]
    simp [markerChars]
  · rw [h]
    simp [markerChars]
  · rw [h]
    simp [markerChars]

theorem LowersTo.of_marker (h : LowersTo c piece) (hc : c.toLower ∈ markerChars) :
    piece = [c.toLower] :=
  h.ascii (ascii_of_toLower hc)

/-- Characters of markers are lowered one by one. -/
theorem lowered_start (h : List.Forall₂ LowersTo (m ++ rest) pieces)
    (hm : ∀ d ∈ m.map Char.toLower, d ∈ markerChars) :
    ∃ tail, pieces.flatten = m.map Char.toLower ++ tail := by
  induction m generalizing pieces with
  | nil => exact ⟨pieces.flatten, rfl⟩
  | cons c m ih =>
    rw [List.map_cons, List.forall_mem_cons] at hm
    rw [List.cons_append] at h
    cases h with
    | cons hpiece hpieces =>
      obtain ⟨tail, htail⟩ := ih hpieces hm.2
      exact ⟨tail, by rw [List.flatten_cons, hpiece.of_marker hm.1, htail]; rfl⟩

/-- Lower case that begins with characters of markers was made from such. -/
theorem start_of_lowered (h : List.Forall₂ LowersTo s pieces)
    (hflat : pieces.flatten = m ++ rest) (hm : ∀ d ∈ m, d ∈ markerChars) :
    ∃ start, start <+: s ∧ start.map Char.toLower = m := by
  induction m generalizing s pieces with
  | nil => exact ⟨[], List.nil_prefix, rfl⟩
  | cons d m ih =>
    obtain ⟨hd, hrest⟩ := List.forall_mem_cons.mp hm
    cases h with
    | nil => cases hflat
    | @cons c piece s pieces hpiece hpieces =>
      obtain ⟨e, es, hes⟩ := List.exists_cons_of_ne_nil hpiece.written
      have hlower : c.toLower = d := by
        rw [List.flatten_cons, hes, List.cons_append, List.cons_append, List.cons.injEq] at hflat
        apply hpiece.origin d _ (Or.inl hd)
        rw [hes, hflat.1]
        exact List.mem_cons_self
      rw [List.flatten_cons, hpiece.of_marker (hlower ▸ hd), hlower, List.singleton_append,
        List.cons_append, List.cons.injEq] at hflat
      obtain ⟨start, hstart, hmap⟩ := ih hpieces hflat.2 hrest
      refine ⟨c :: start, List.cons_prefix_cons.mpr ⟨rfl, hstart⟩, ?_⟩
      rw [List.map_cons, hlower, hmap]

theorem LowersTo.not_blank (h : LowersTo c piece) (hc : isWhitespace c = false) :
    ∀ d ∈ piece, isWhitespace d = false := by
  intro d hd
  rw [Bool.eq_false_iff]
  intro hblank
  have hlower := h.origin d hd (Or.inr hblank)
  rw [← hlower, isWhitespace_toLower, hc] at hblank
  cases hblank

theorem head_lowered (h : List.Forall₂ LowersTo s pieces)
    (hs : ∀ c, s.head? = some c → isWhitespace c = false) :
    ∀ d, pieces.flatten.head? = some d → isWhitespace d = false := by
  intro d hd
  cases h with
  | nil => cases hd
  | @cons c piece s pieces hpiece hpieces =>
    obtain ⟨e, es, hes⟩ := List.exists_cons_of_ne_nil hpiece.written
    apply hpiece.not_blank (hs c rfl)
    rw [List.flatten_cons, hes] at hd
    rw [hes, ← Option.some.inj hd]
    exact List.mem_cons_self

theorem flatten_ne_nil (h : List.Forall₂ LowersTo s pieces) (hs : s ≠ []) :
    pieces.flatten ≠ [] := by
  cases h with
  | nil => exact absurd rfl hs
  | cons hpiece hpieces =>
    rw [List.flatten_cons]
    exact fun hnil => hpiece.written (List.append_eq_nil_iff.mp hnil).1

theorem getLast_lowered (h : List.Forall₂ LowersTo s pieces)
    (hs : ∀ c, s.getLast? = some c → isWhitespace c = false) :
    ∀ d, pieces.flatten.getLast? = some d → isWhitespace d = false := by
  induction h with
  | nil => exact fun d hd => by cases hd
  | @cons c piece s pieces hpiece hpieces ih =>
    intro d hd
    rw [List.flatten_cons, List.getLast?_append] at hd
    cases hlast : pieces.flatten.getLast? with
    | none =>
      have hnil : s = [] := by
        by_contra hne
        exact flatten_ne_nil hpieces hne (List.getLast?_eq_none_iff.mp hlast)
      rw [hlast, Option.none_or] at hd
      rw [hnil] at hs
      exact hpiece.not_blank (hs c rfl) d (List.mem_of_getLast? hd)
    | some e =>
      rw [hlast, Option.some_or] at hd
      apply ih _ d (hlast.trans hd)
      intro c' hc'
      apply hs
      rw [List.getLast?_cons, hc']
      rfl

end Pieces

section Stable

variable {cm : CaseMap} {s : String} {t : List Char}

theorem bare_toLowercase (table : LowercaseTable cm) (h : Bare s.toList) :
    Bare (cm.toLowercase s).toList := by
  rintro m hm ⟨rest, hrest⟩
  have hlower := toLower_mem_markerChars hm
  have hself : m.map Char.toLower = m := by
    obtain ⟨pieces, hpieces, hflat⟩ := table.charwise (cm.toLowercase s)
    rw [← hrest] at hpieces
    obtain ⟨tail, htail⟩ := lowered_start hpieces hlower
    rw [table.idempotent, ← hrest, htail] at hflat
    exact (List.append_inj hflat (by rw [List.length_map])).1.symm
  obtain ⟨pieces, hpieces, hflat⟩ := table.charwise s
  rw [← hrest] at hflat
  rw [hself] at hlower
  obtain ⟨start, hstart, hmap⟩ := start_of_lowered hpieces hflat.symm hlower
  apply h start _ hstart
  rw [IsMarker, hmap, ← hself]
  exact hm

theorem trim_toLowercase (table : LowercaseTable cm) (h : trim s.toList = s.toList) :
    trim (cm.toLowercase s).toList = (cm.toLowercase s).toList := by
  rw [trim_eq_strip, strip_eq_self_iff] at h ⊢
  obtain ⟨pieces, hpieces, hflat⟩ := table.charwise s
  rw [hflat]
  exact ⟨head_lowered hpieces h.1, getLast_lowered hpieces h.2⟩

theorem Unmarked.bare_right {s t : List Char} (h : Unmarked s t) : Bare t := by
  induction h with
  | bare hbare => exact hbare
  | marked _ _ ih => exact ih

/-- A normalized subject is trimmed and has no marker. -/
theorem normalizeSubject_stripped (table : LowercaseTable cm) (s : String) :
    trim (normalizeSubject cm s).toList = (normalizeSubject cm s).toList ∧
      Bare (normalizeSubject cm s).toList := by
  by_cases h : AlreadyPlain cm s
  · rw [normalizeSubject_plain h]
    exact ⟨h.1, h.2.1⟩
  · have ht := unmarked_trim s
    generalize stripReplyMarkers s.length (trim s.toList) = t at ht
    have htrim : trim (trim s.toList) = trim s.toList := by
      rw [trim_eq_strip, trim_eq_strip, strip_strip]
    rw [normalizeSubject_lower h ht]
    constructor
    · apply trim_toLowercase table
      rw [String.toList_ofList]
      exact ht.trim_eq htrim
    · apply bare_toLowercase table
      rw [String.toList_ofList]
      exact ht.bare_right

/-- Normalizing a second time changes nothing. -/
theorem normalize_subject_is_stable (table : LowercaseTable cm) (s : String) :
    normalizeSubject cm (normalizeSubject cm s) = normalizeSubject cm s ∧
      (∀ m, IsMarker m → ¬ m <+: (normalizeSubject cm s).toList) ∧
      (∀ c, (normalizeSubject cm s).toList.head? = some c → isWhitespace c = false) ∧
      ∀ c, (normalizeSubject cm s).toList.getLast? = some c → isWhitespace c = false := by
  obtain ⟨htrim, hbare⟩ := normalizeSubject_stripped table s
  have hends := htrim
  rw [trim_eq_strip, strip_eq_self_iff] at hends
  refine ⟨?_, hbare, hends.1, hends.2⟩
  by_cases h : AlreadyPlain cm s
  · rw [normalizeSubject_plain h, normalizeSubject_plain h]
  · have hlower : cm.toLowercase (normalizeSubject cm s) = normalizeSubject cm s := by
      rw [normalizeSubject_lower h (unmarked_trim s), table.idempotent]
    by_cases hplain : AlreadyPlain cm (normalizeSubject cm s)
    · exact normalizeSubject_plain hplain
    · have hunmarked : Unmarked (trim (normalizeSubject cm s).toList)
          (normalizeSubject cm s).toList := by
        rw [htrim]
        exact Unmarked.bare hbare
      rw [normalizeSubject_lower hplain hunmarked, String.ofList_toList, hlower]

end Stable

theorem toList_toLower (s : String) : s.toLower.toList = s.toList.map Char.toLower :=
  String.toList_map

theorem asciiTable : LowercaseTable CaseMap.ascii where
  idempotent s := by
    have htwice : Char.toLower ∘ Char.toLower = Char.toLower :=
      funext Char.toLower_toLower_eq_toLower
    rw [← String.toList_inj]
    simp only [CaseMap.ascii, toList_toLower, List.map_map, htwice]
  charwise s := by
    refine ⟨s.toList.map fun c => [c.toLower], ?_, ?_⟩
    · rw [List.forall₂_map_right_iff, List.forall₂_same]
      exact fun c _ => ⟨List.cons_ne_nil _ _, fun _ => rfl, fun d hd _ =>
        (List.mem_singleton.mp hd).symm⟩
    · rw [← List.flatMap_def, ← List.map_eq_flatMap]
      exact toList_toLower s

theorem shouted_subject_is_stable :
    normalizeSubject CaseMap.ascii (normalizeSubject CaseMap.ascii "RE: FW: Hi ") =
        normalizeSubject CaseMap.ascii "RE: FW: Hi " ∧
      (∀ m, IsMarker m → ¬ m <+: (normalizeSubject CaseMap.ascii "RE: FW: Hi ").toList) ∧
      (∀ c, (normalizeSubject CaseMap.ascii "RE: FW: Hi ").toList.head? = some c →
        isWhitespace c = false) ∧
      ∀ c, (normalizeSubject CaseMap.ascii "RE: FW: Hi ").toList.getLast? = some c →
        isWhitespace c = false :=
  normalize_subject_is_stable asciiTable "RE: FW: Hi "

end Postblox.Mail
