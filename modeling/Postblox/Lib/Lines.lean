import Postblox.Lib.Strip

/-!
# Lines of a stripped text

Lines are what a text is cut into at a separator that is a blank itself. Stripping a text
drops blank lines at its two ends and strips what is then the first and the last line, so
stripped line by line the text is the same but for the blank lines.
-/
namespace Postblox.Lib

section Lines

variable {α : Type} [BEq α] [LawfulBEq α] {p : α → Bool} {x c : α} {s front back : List α}
  {ls ks : List (List α)}

/-! ## Cutting at one end -/

theorem splitOn_cons_self (x : α) (s : List α) : (x :: s).splitOn x = [] :: s.splitOn x := by
  rw [List.splitOn_cons_eq_if_modifyHead, if_pos (beq_self_eq_true x)]

theorem splitOn_cons_of_ne (h : c ≠ x) (s : List α) :
    ∃ line rest, s.splitOn x = line :: rest ∧ (c :: s).splitOn x = (c :: line) :: rest := by
  obtain ⟨line, rest, hline⟩ := List.exists_cons_of_ne_nil (List.splitOn_ne_nil x s)
  refine ⟨line, rest, hline, ?_⟩
  rw [List.splitOn_cons_eq_if_modifyHead, hline, if_neg (by simpa using h)]
  rfl

theorem splitOn_concat_self (x : α) (s : List α) : (s ++ [x]).splitOn x = s.splitOn x ++ [[]] := by
  have h := List.splitOn_append_cons_self s [] (a := x)
  simpa using h

theorem splitOn_concat_of_ne (h : c ≠ x) (s : List α) :
    ∃ front line, s.splitOn x = front ++ [line] ∧
      (s ++ [c]).splitOn x = front ++ [line ++ [c]] := by
  induction s with
  | nil =>
    refine ⟨[], [], List.splitOn_nil x, ?_⟩
    exact List.splitOn_eq_singleton (by simpa using Ne.symm h)
  | cons d s ih =>
    obtain ⟨front, line, hs, hsc⟩ := ih
    by_cases hd : d = x
    · refine ⟨[] :: front, line, ?_, ?_⟩
      · rw [hd, splitOn_cons_self, hs, List.cons_append]
      · rw [hd, List.cons_append, splitOn_cons_self, hsc, List.cons_append]
    · have hne : (d == x) = false := by simpa using hd
      rw [List.cons_append, List.splitOn_cons_eq_if_modifyHead, List.splitOn_cons_eq_if_modifyHead,
        hne, hs, hsc, if_neg (by decide), if_neg (by decide)]
      cases front with
      | nil => exact ⟨[], d :: line, rfl, rfl⟩
      | cons first front => exact ⟨(d :: first) :: front, line, rfl, rfl⟩

theorem not_mem_of_mem_splitOn {line : List α} (h : line ∈ s.splitOn x) : x ∉ line := by
  intro hx
  rw [List.splitOn_eq_splitOnP] at h
  simpa using not_of_mem_splitOnP h hx

/-! ## Joined lines -/

/-- The text of lines. -/
def unlines (x : α) (ls : List (List α)) : List α := [x].intercalate ls

theorem unlines_splitOn (x : α) (s : List α) : unlines x (s.splitOn x) = s :=
  List.intercalate_splitOn x

theorem splitOn_unlines (h : ∀ l ∈ ls, x ∉ l) (hne : ls ≠ []) : (unlines x ls).splitOn x = ls :=
  List.splitOn_intercalate x h hne

omit [BEq α] [LawfulBEq α] in
theorem unlines_append (hls : ls ≠ []) (hks : ks ≠ []) :
    unlines x (ls ++ ks) = unlines x ls ++ x :: unlines x ks := by
  induction ls with
  | nil => exact absurd rfl hls
  | cons l ls ih =>
    cases ls with
    | nil =>
      rw [List.singleton_append, unlines, unlines, List.intercalate_cons_of_ne_nil hks,
        List.intercalate_singleton, List.append_assoc]
      rfl
    | cons k ls =>
      have hrest := ih (List.cons_ne_nil k ls)
      unfold unlines at hrest ⊢
      rw [List.cons_append, List.intercalate_cons_of_ne_nil (by simp), hrest,
        List.intercalate_cons_cons]
      simp only [List.append_assoc, List.cons_append]

omit [BEq α] [LawfulBEq α] in
theorem unlines_concat_append (x : α) (ls : List (List α)) (l m : List α) :
    unlines x (ls ++ [l ++ m]) = unlines x (ls ++ [l]) ++ m := by
  cases ls with
  | nil =>
    rw [List.nil_append, List.nil_append, unlines, unlines, List.intercalate_singleton,
      List.intercalate_singleton]
  | cons k ls =>
    rw [unlines_append (List.cons_ne_nil _ _) (List.cons_ne_nil _ _),
      unlines_append (List.cons_ne_nil _ _) (List.cons_ne_nil _ _)]
    simp only [unlines, List.intercalate_singleton, List.append_assoc, List.cons_append]

omit [BEq α] [LawfulBEq α] in
theorem strip_unlines_concat_nil (hx : p x = true) (ls : List (List α)) :
    strip p (unlines x (ls ++ [[]])) = strip p (unlines x ls) := by
  cases ls with
  | nil => rfl
  | cons k ls =>
    rw [unlines_append (List.cons_ne_nil _ _) (List.cons_ne_nil _ _)]
    apply strip_append_blank
    intro c hc
    rw [unlines, List.intercalate_singleton, List.mem_singleton] at hc
    rw [hc, hx]

omit [BEq α] [LawfulBEq α] in
theorem filter_unlines {q : α → Bool} (hx : q x = false) (ls : List (List α)) :
    (unlines x ls).filter q = (ls.map fun l => l.filter q).flatten := by
  induction ls with
  | nil => rfl
  | cons l ls ih =>
    cases ls with
    | nil => simp [unlines, List.intercalate_singleton]
    | cons k ls =>
      unfold unlines at ih ⊢
      rw [List.intercalate_cons_cons, List.filter_append, List.filter_append, ih,
        List.filter_cons_of_neg (by simp [hx])]
      simp

omit [BEq α] [LawfulBEq α] in
theorem ink_unlines (hx : p x = true) (ls : List (List α)) :
    ink p (unlines x ls) = (ls.map (ink p)).flatten := by
  have hsep : (!p x) = false := by rw [hx]; rfl
  exact filter_unlines (q := fun c => !p c) hsep ls

omit [BEq α] [LawfulBEq α] in
theorem blank_unlines (hx : p x = true) : Blank p (unlines x ls) ↔ ∀ l ∈ ls, Blank p l := by
  rw [blank_iff_ink, ink_unlines hx]
  simp only [List.flatten_eq_nil_iff, List.forall_mem_map, blank_iff_ink]

/-! ## Stripped lines -/

theorem splitOn_blank_append (x : α) (h : Blank p front) (s : List α) :
    ∃ i, ((front ++ s).splitOn x).map (strip p) =
      List.replicate i [] ++ (s.splitOn x).map (strip p) := by
  induction front with
  | nil => exact ⟨0, rfl⟩
  | cons c front ih =>
    have hc : p c = true := h c List.mem_cons_self
    obtain ⟨i, hi⟩ := ih fun d hd => h d (List.mem_cons_of_mem c hd)
    by_cases hcx : c = x
    · refine ⟨i + 1, ?_⟩
      rw [hcx, List.cons_append, splitOn_cons_self, List.map_cons, hi, List.replicate_succ]
      rfl
    · obtain ⟨line, rest, hline, hcut⟩ := splitOn_cons_of_ne hcx (front ++ s)
      have hblank : strip p (c :: line) = strip p line := by
        rw [← List.singleton_append]
        exact strip_blank_append fun d hd => List.mem_singleton.mp hd ▸ hc
      refine ⟨i, ?_⟩
      rw [List.cons_append, hcut, List.map_cons, hblank, ← List.map_cons, ← hline, hi]

theorem splitOn_append_blank (x : α) (h : Blank p back) (s : List α) :
    ∃ j, ((s ++ back).splitOn x).map (strip p) =
      (s.splitOn x).map (strip p) ++ List.replicate j [] := by
  induction back generalizing s with
  | nil => exact ⟨0, by rw [List.append_nil, List.replicate_zero, List.append_nil]⟩
  | cons c back ih =>
    have hc : p c = true := h c List.mem_cons_self
    obtain ⟨j, hj⟩ := ih (fun d hd => h d (List.mem_cons_of_mem c hd)) (s ++ [c])
    rw [List.append_assoc, List.singleton_append] at hj
    by_cases hcx : c = x
    · refine ⟨j + 1, ?_⟩
      rw [hj, hcx, splitOn_concat_self, List.map_append, List.replicate_succ, List.append_assoc]
      rfl
    · obtain ⟨front, line, hline, hcut⟩ := splitOn_concat_of_ne hcx s
      have hblank : strip p (line ++ [c]) = strip p line :=
        strip_append_blank fun d hd => List.mem_singleton.mp hd ▸ hc
      refine ⟨j, ?_⟩
      rw [hj, hcut, hline, List.map_append, List.map_append, List.map_singleton,
        List.map_singleton, hblank]

/-- Line by line a stripped text is the text without some blank lines at its ends. -/
theorem splitOn_strip (p : α → Bool) (x : α) (s : List α) :
    ∃ i j, (s.splitOn x).map (strip p) =
      List.replicate i [] ++ ((strip p s).splitOn x).map (strip p) ++ List.replicate j [] := by
  obtain ⟨front, back, hfront, hback, hs⟩ := exists_strip p s
  obtain ⟨j, hj⟩ := splitOn_append_blank x hback (front ++ strip p s)
  obtain ⟨i, hi⟩ := splitOn_blank_append x hfront (strip p s)
  refine ⟨i, j, ?_⟩
  rw [← hi, ← hj, ← hs]

omit [BEq α] [LawfulBEq α] in
/-- Blanks are left in a stripped text where something is written on both sides. -/
theorem infix_strip_iff {m : List α} (hm : Blank p m) (hne : m ≠ []) :
    m <:+: strip p s ↔ ∃ a b, s = a ++ m ++ b ∧ ¬ Blank p a ∧ ¬ Blank p b := by
  constructor
  · rintro ⟨a, b, hab⟩
    obtain ⟨front, back, -, -, hs⟩ := exists_strip p s
    have hends := strip_strip p s
    refine ⟨front ++ a, b ++ back, ?_, ?_, ?_⟩
    · rw [hs, ← hab]
      simp only [List.append_assoc]
    · intro hblank
      have ha : Blank p (a ++ m) := blank_append.mpr ⟨(blank_append.mp hblank).2, hm⟩
      rw [← hab, strip_blank_append ha] at hends
      have hlength := congrArg List.length hends
      have hle := length_strip_le p b
      have hpos := List.length_pos_iff.mpr hne
      rw [List.length_append, List.length_append] at hlength
      omega
    · intro hblank
      have hb : Blank p (m ++ b) := blank_append.mpr ⟨hm, (blank_append.mp hblank).1⟩
      rw [← hab, List.append_assoc, strip_append_blank hb] at hends
      have hlength := congrArg List.length hends
      have hle := length_strip_le p a
      have hpos := List.length_pos_iff.mpr hne
      rw [List.length_append, List.length_append] at hlength
      omega
  · rintro ⟨a, b, rfl, ha, hb⟩
    rw [strip_between ha hb]
    exact ⟨_, _, rfl⟩

end Lines

end Postblox.Lib
