import Postblox.Mail.ExtractTwice
import Postblox.Mail.ReplyChain

/-!
# A reply above the quote the program wrote

Under a reply, a blank line and the quote of the message are put. The attribution ends the
reply, and its lines are what comes before, except that a last line which begins with `On`
is looked at together with the lines below it and may be taken for the attribution.
-/
namespace Postblox.Mail

open Lib

/-! ## The lines of a quote -/

section Quote

variable {a b s : List Char} {ls : List (List Char)}

theorem textLines_append (a b : List Char) :
    textLines (a ++ '\r' :: '\n' :: b) = textLines a ++ textLines b := by
  rw [textLines, crlfToLf_append, List.splitOn_append_cons_self]
  rfl

theorem textLines_of_not_mem (h : '\n' ∉ s) : textLines s = [s] := by
  have hapart : ¬ ['\r', '\n'] <:+: s := fun hpair =>
    h (hpair.subset (List.mem_cons_of_mem _ (List.mem_singleton_self _)))
  rw [textLines, crlfToLf_unchanged hapart, List.splitOn_eq_singleton h]

/-- Lines that are put together with CR LF are read back. -/
theorem textLines_crlf (hls : ∀ l ∈ ls, '\n' ∉ l) (hne : ls ≠ []) :
    textLines (['\r', '\n'].intercalate ls) = ls := by
  induction ls with
  | nil => exact absurd rfl hne
  | cons l ls ih =>
    rw [List.forall_mem_cons] at hls
    cases ls with
    | nil => rw [List.intercalate_singleton, textLines_of_not_mem hls.1]
    | cons k ls =>
      have hrest := ih hls.2 (List.cons_ne_nil k ls)
      rw [List.intercalate_cons_cons, List.append_assoc]
      have hcut := textLines_append l (['\r', '\n'].intercalate (k :: ls))
      rw [hrest, textLines_of_not_mem hls.1] at hcut
      exact hcut

/-- The quoted lines of a message. -/
def quotedLines (message : MessageView) : List (List Char) :=
  ((bodyForQuote message).toList.splitOn '\n').map fun line => ['>', ' '] ++ line

theorem textLines_prefixEachLine (text : String) :
    textLines (prefixEachLine text "> ").toList =
      (text.toList.splitOn '\n').map fun line => ['>', ' '] ++ line := by
  have hplain : ∀ l ∈ (text.toList.splitOn '\n').map fun line => ['>', ' '] ++ line, '\n' ∉ l := by
    intro l hl
    obtain ⟨line, hline, rfl⟩ := List.mem_map.mp hl
    have hno := not_mem_of_mem_splitOn hline
    simpa using hno
  unfold prefixEachLine
  split
  next hempty =>
    rw [hempty]
    decide
  next =>
    rw [String.toList_intercalate, List.map_map]
    have hmark : (String.toList ∘ fun line => "> " ++ String.ofList line) =
        fun line => ['>', ' '] ++ line := by
      funext line
      simp
    rw [hmark]
    exact textLines_crlf hplain (by simp)

/-- The attribution, and the quoted lines below it. -/
theorem textLines_quotedBody (formatRfc2822 : Int → RenderedDate) {message : MessageView}
    (hfrom : '\n' ∉ message.fromAddr.toList) (accountEmail : String) (replyAll : Bool) :
    textLines (replyDraft formatRfc2822 message accountEmail replyAll).quotedBody.toList =
      (attribution formatRfc2822 message).toList :: quotedLines message := by
  have hplain : '\n' ∉ (attribution formatRfc2822 message).toList := by
    have hdate := (formatRfc2822 message.internalDate).oneLine
    simp only [attribution, String.toList_append, List.mem_append, not_or]
    refine ⟨⟨⟨⟨?_, fun h => (hdate _ h).2 rfl⟩, ?_⟩, hfrom⟩, ?_⟩
    · decide
    · decide
    · decide
  have hbody : (replyDraft formatRfc2822 message accountEmail replyAll).quotedBody.toList =
      (attribution formatRfc2822 message).toList ++
        '\r' :: '\n' :: (prefixEachLine (bodyForQuote message) "> ").toList := by
    simp only [replyDraft, quoteBody, String.toList_append, List.append_assoc]
    rfl
  rw [hbody, textLines_append, textLines_of_not_mem hplain, textLines_prefixEachLine]
  rfl

end Quote

/-! ## The reply above it -/

/-- The first line, one of the last two of a reply, is taken for the beginning of the
attribution that stands below a blank line. -/
def runsInto (attribution quoted : List Char) : List (List Char) → Bool
  | [line] =>
    startsOn (trim line) && (line.contains '@' || attribution.contains '@' || quoted.contains '@')
  | [line, below] =>
    startsOn (trim line) && (line.contains '@' || below.contains '@' || attribution.contains '@')
  | _ => false

section Above

variable {line attribution quoted : List Char} {lines rest more : List (List Char)}

theorem isOutlookHeaderBlock_above (line : List Char) (rest : List (List Char)) :
    isOutlookHeaderBlock (line :: rest ++ [] :: more) = isOutlookHeaderBlock (line :: rest) := by
  rcases rest with _ | ⟨l1, _ | ⟨l2, _ | ⟨l3, rest⟩⟩⟩
  · rcases more with _ | ⟨m1, _ | ⟨m2, more⟩⟩
    · rfl
    · rfl
    · simp [isOutlookHeaderBlock, trim]
  · cases more with
    | nil => rfl
    | cons m1 more => simp [isOutlookHeaderBlock, trim]
  · simp [isOutlookHeaderBlock, trim]
  · rfl

theorem isMultilineWroteMarker_above (hwrote : endsWrote (trim attribution) = true)
    (line : List Char) (rest : List (List Char)) :
    isMultilineWroteMarker (line :: rest ++ [] :: attribution :: quoted :: more) =
      (isMultilineWroteMarker (line :: rest) || runsInto attribution quoted (line :: rest)) := by
  have hnil : endsWrote (trim []) = false := by decide
  have hat : ([] : List Char).contains '@' = false := by decide
  rcases rest with _ | ⟨l1, _ | ⟨l2, _ | ⟨l3, rest⟩⟩⟩
  · simp only [List.cons_append, List.nil_append, isMultilineWroteMarker, List.take_succ_cons,
      List.take_zero, List.take_nil, List.any_cons, List.any_nil, hnil, hwrote, hat, runsInto]
    cases startsOn (trim line) <;> cases line.contains '@' <;> simp
  · simp only [List.cons_append, List.nil_append, isMultilineWroteMarker, List.take_succ_cons,
      List.take_zero, List.take_nil, List.any_cons, List.any_nil, hnil, hwrote, hat, runsInto]
    cases startsOn (trim line) <;> cases line.contains '@' <;> cases l1.contains '@' <;> simp
  · simp only [List.cons_append, List.nil_append, isMultilineWroteMarker, List.take_succ_cons,
      List.take_zero, List.take_nil, List.any_cons, List.any_nil, hnil, hat, runsInto,
      Bool.or_false]
  · simp only [List.cons_append, isMultilineWroteMarker, List.take_succ_cons, List.take_zero,
      runsInto, Bool.or_false]

/-- What the attribution below a reply adds to the markers in it. -/
theorem marksCutoff_above (hwrote : endsWrote (trim attribution) = true)
    (line : List Char) (rest : List (List Char)) :
    marksCutoff (line :: rest ++ [] :: attribution :: quoted :: more) =
      (marksCutoff (line :: rest) || runsInto attribution quoted (line :: rest)) := by
  rw [List.cons_append, marksCutoff, marksCutoff, ← List.cons_append,
    isOutlookHeaderBlock_above, isMultilineWroteMarker_above hwrote]
  ac_rfl

theorem runsInto_map_trim (attribution quoted : List Char) (lines : List (List Char)) :
    runsInto attribution quoted (lines.map trim) = runsInto attribution quoted lines := by
  rcases lines with _ | ⟨l1, _ | ⟨l2, _ | ⟨l3, rest⟩⟩⟩
  · rfl
  · simp only [List.map_cons, List.map_nil, runsInto, trim_trim, contains_trim]
  · simp only [List.map_cons, List.map_nil, runsInto, trim_trim, contains_trim]
  · rfl

theorem startsOn_of_runsInto (h : runsInto attribution quoted (line :: rest) = true) :
    startsOn (trim line) = true := by
  rcases rest with _ | ⟨l1, _ | ⟨l2, rest⟩⟩
  · rw [runsInto, Bool.and_eq_true] at h
    exact h.1
  · rw [runsInto, Bool.and_eq_true] at h
    exact h.1
  · cases h

/-- A line that begins with `On` is written, and no quote. -/
theorem written_of_startsOn (h : startsOn (trim line) = true) :
    isQuoteLine line = false ∧ ink isWhitespace line ≠ [] := by
  constructor
  · have hstart : trimStart (trim line) = trim line := by
      rw [trim_eq_strip, trimStart, dropWhile_strip]
    rw [← isQuoteLine_trim, isQuoteLine, hstart]
    cases htrim : trim line with
    | nil =>
      rw [htrim] at h
      cases h
    | cons c l =>
      rw [htrim, startsOn, List.isPrefixOf_cons_cons, Bool.and_eq_true, beq_iff_eq] at h
      rw [← h.1]
      rfl
  · rw [Ne, ← blank_iff_ink, ← strip_eq_nil_iff, ← trim_eq_strip]
    intro hnil
    rw [hnil] at h
    cases h

/-! ## The lines of the reply -/

/-- Only the line right above the blank one may have lost a carriage return at its end. -/
inductive SameButReturn : List (List Char) → List (List Char) → Prop
  | same (all : List (List Char)) : SameButReturn all all
  | lost (front : List (List Char)) (last : List Char) :
    SameButReturn (front ++ [last ++ ['\r']]) (front ++ [last])

variable {lines' : List (List Char)}

theorem trim_return (line : List Char) : trim (line ++ ['\r']) = trim line := by
  have hreturn : Blank isWhitespace ['\r'] := by
    intro c hc
    rw [List.mem_singleton.mp hc]
    decide
  rw [trim_eq_strip, trim_eq_strip, strip_append_blank hreturn]

theorem SameButReturn.map_trim (h : SameButReturn lines lines') :
    lines'.map trim = lines.map trim := by
  cases h with
  | same => rfl
  | lost => simp only [List.map_append, List.map_singleton, trim_return]

theorem SameButReturn.length (h : SameButReturn lines lines') : lines'.length = lines.length := by
  have hlength := congrArg List.length h.map_trim
  simpa using hlength

theorem SameButReturn.take_lt {i : Nat} (h : SameButReturn lines lines') (hi : i < lines.length) :
    lines'.take i = lines.take i := by
  cases h with
  | same => rfl
  | lost =>
    rw [List.length_append, List.length_singleton] at hi
    rw [List.take_append_of_le_length (by omega), List.take_append_of_le_length (by omega)]

/-- The carriage return makes no difference to what is kept. -/
theorem SameButReturn.kept (h : SameButReturn lines lines') :
    trim (unlines '\n' (lines'.filter fun line => !isQuoteLine line)) =
      trim (unlines '\n' (lines.filter fun line => !isQuoteLine line)) := by
  cases h with
  | same => rfl
  | @lost front last =>
    have hquote : isQuoteLine (last ++ ['\r']) = isQuoteLine last := by
      rw [← isQuoteLine_trim, trim_return, isQuoteLine_trim]
    rw [List.filter_append, List.filter_append, List.filter_singleton, List.filter_singleton,
      hquote]
    cases isQuoteLine last
    · rw [Bool.not_false, cond_true, cond_true, unlines_concat_append, trim_return]
    · rfl

theorem marks_above (hwrote : endsWrote (trim attribution) = true)
    (h : SameButReturn lines lines') {i : Nat} (hi : i < lines.length) :
    marksCutoff ((lines' ++ [] :: attribution :: quoted :: more).drop i) =
      (marksCutoff (lines.drop i) || runsInto attribution quoted (lines.drop i)) := by
  have hlength := h.length
  have hdrop : (lines'.drop i).map trim = (lines.drop i).map trim := by
    rw [List.map_drop, List.map_drop, h.map_trim]
  rw [List.drop_append_of_le_length (by omega), ← marksCutoff_map_trim (lines.drop i),
    ← runsInto_map_trim _ _ (lines.drop i), ← hdrop, marksCutoff_map_trim, runsInto_map_trim,
    List.drop_eq_getElem_cons (by omega)]
  exact marksCutoff_above hwrote _ _

end Above

section Kept

variable {lines lines' more : List (List Char)} {attribution quoted : List Char}

/-- Above an attribution the reply ends where it does alone, or at the attribution. -/
theorem findCutoff_above (hwrote : isWroteMarker (trim attribution) = true)
    (h : SameButReturn lines lines')
    (hnone : ∀ i < findCutoff lines, runsInto attribution quoted (lines.drop i) = false) :
    findCutoff (lines' ++ [] :: attribution :: quoted :: more) =
      if findCutoff lines < lines.length then findCutoff lines else lines.length + 1 := by
  have hends : endsWrote (trim attribution) = true := by
    rw [isWroteMarker, Bool.and_eq_true] at hwrote
    exact hwrote.2
  have hlength := h.length
  have hall : (lines' ++ [] :: attribution :: quoted :: more).length =
      lines.length + (more.length + 3) := by
    rw [List.length_append, hlength]
    rfl
  have hbefore : ∀ i < findCutoff lines,
      marksCutoff ((lines' ++ [] :: attribution :: quoted :: more).drop i) = false := by
    intro i hi
    have hle := findCutoff_le lines
    rw [marks_above hends h (by omega), not_marks_of_lt hi, hnone i hi]
    rfl
  split
  next hlt =>
    apply findCutoff_eq _ (by omega) hbefore
    intro _
    rw [marks_above hends h hlt, marks_findCutoff hlt]
    rfl
  next hend =>
    have hle := findCutoff_le lines
    have hcut : findCutoff lines = lines.length := by omega
    have hskip : (lines' ++ [] :: attribution :: quoted :: more).drop (lines.length + 1) =
        attribution :: quoted :: more := by
      rw [← hlength, List.drop_length_add_append]
      rfl
    apply findCutoff_eq _ (by omega)
    · intro i hi
      by_cases hlast : i < lines.length
      · exact hbefore i (by omega)
      · have hi' : i = lines'.length := by omega
        rw [hi', List.drop_left]
        exact marksCutoff_nil_cons _
    · intro _
      rw [hskip, marksCutoff, hwrote, Bool.or_true, Bool.true_or, Bool.true_or]

/-- Then the same text is kept. -/
theorem kept_above (hwrote : isWroteMarker (trim attribution) = true)
    (h : SameButReturn lines lines')
    (hnone : ∀ i < findCutoff lines, runsInto attribution quoted (lines.drop i) = false) :
    trim (unlines '\n' (keptLines (lines' ++ [] :: attribution :: quoted :: more))) =
      trim (unlines '\n' (keptLines lines)) := by
  have hlength := h.length
  rw [keptLines, findCutoff_above hwrote h hnone]
  split
  next hlt =>
    rw [List.take_append_of_le_length (by omega), h.take_lt hlt]
    rfl
  next hend =>
    have hle := findCutoff_le lines
    have hcut : findCutoff lines = lines.length := by omega
    have htake : (lines' ++ [] :: attribution :: quoted :: more).take (lines.length + 1) =
        lines' ++ [[]] := by
      rw [← hlength, List.take_length_add_append]
      rfl
    have hblank : isWhitespace '\n' = true := by decide
    have hnil : List.filter (fun line => !isQuoteLine line) [([] : List Char)] = [[]] := by decide
    rw [htake, List.filter_append, hnil, trim_eq_strip, strip_unlines_concat_nil hblank,
      ← trim_eq_strip, h.kept, keptLines, hcut, List.take_length]

/-- A line that is taken for the beginning of the attribution is lost. -/
theorem not_kept_above (hwrote : isWroteMarker (trim attribution) = true)
    (h : SameButReturn lines lines') {i : Nat} (hi : i < findCutoff lines)
    (hruns : runsInto attribution quoted (lines.drop i) = true) :
    trim (unlines '\n' (keptLines (lines' ++ [] :: attribution :: quoted :: more))) ≠
      trim (unlines '\n' (keptLines lines)) := by
  have hends : endsWrote (trim attribution) = true := by
    rw [isWroteMarker, Bool.and_eq_true] at hwrote
    exact hwrote.2
  have hle := findCutoff_le lines
  have hi' : i < lines.length := by omega
  have hlength := h.length
  generalize hall : lines' ++ [] :: attribution :: quoted :: more = above
  have hcut : findCutoff above ≤ i := by
    by_contra hlate
    have hno := not_marks_of_lt (Nat.lt_of_not_le hlate)
    rw [← hall, marks_above hends h hi', hruns, Bool.or_true] at hno
    cases hno
  have htake : above.take (findCutoff above) = lines.take (findCutoff above) := by
    rw [← hall, List.take_append_of_le_length (by rw [hall]; omega), hall,
      h.take_lt (by omega)]
  have hblank : isWhitespace '\n' = true := by decide
  have hline := List.drop_eq_getElem_cons hi'
  rw [hline] at hruns
  obtain ⟨hquote, hink⟩ := written_of_startsOn (startsOn_of_runsInto hruns)
  have hmore : (lines.take (findCutoff above) ++ [lines[i]]).Sublist
      (lines.take (findCutoff lines)) := by
    have hshort : (lines.take (findCutoff above)).Sublist (lines.take i) := by
      rw [← Nat.min_eq_left hcut, ← List.take_take]
      exact List.take_sublist _ _
    have hone : lines.take i ++ [lines[i]] = lines.take (i + 1) :=
      (List.take_succ_eq_append_getElem hi').symm
    have hlong : (lines.take (i + 1)).Sublist (lines.take (findCutoff lines)) := by
      rw [← Nat.min_eq_left (by omega : i + 1 ≤ findCutoff lines), ← List.take_take]
      exact List.take_sublist _ _
    exact (hshort.append (List.Sublist.refl _)).trans (hone ▸ hlong)
  have hcount := ((hmore.filter fun line => !isQuoteLine line).map (ink isWhitespace)).flatten.length_le
  rw [List.filter_append, List.filter_singleton, hquote, Bool.not_false, cond_true,
    List.map_append, List.map_singleton, List.flatten_append, List.flatten_singleton,
    List.length_append] at hcount
  intro heq
  have hsame := congrArg (fun s => (ink isWhitespace s).length) heq
  simp only [trim_eq_strip, ink_strip, ink_unlines hblank] at hsame
  rw [keptLines, keptLines, htake] at hsame
  have hpos := List.length_pos_iff.mpr hink
  omega

end Kept

/-! ## Reply and quote together -/

section Together

theorem crlfToLf_pair (s : List Char) : crlfToLf ('\r' :: '\n' :: s) = '\n' :: crlfToLf s :=
  crlfToLf_append [] s

theorem crlfToLf_cons_cons {c d : Char} (h : ¬ (c = '\r' ∧ d = '\n')) (s : List Char) :
    crlfToLf (c :: d :: s) = c :: crlfToLf (d :: s) := by
  unfold crlfToLf
  rw [pieces, if_neg h, intercalate_onFirst (pieces_ne_nil _)]

/-- Where no pair is torn apart the two parts are read apart. -/
theorem crlfToLf_append_cons {a : List Char} {c : Char}
    (h : ¬ (a.getLast? = some '\r' ∧ c = '\n')) (b : List Char) :
    crlfToLf (a ++ c :: b) = crlfToLf a ++ crlfToLf (c :: b) := by
  induction a using pieces.induct '\r' '\n' with
  | case1 => rfl
  | case2 d =>
    have hno : ¬ (d = '\r' ∧ c = '\n') := fun hboth => h ⟨congrArg some hboth.1, hboth.2⟩
    rw [List.singleton_append, crlfToLf_cons_cons hno]
    rfl
  | case3 d e rest hpair ih =>
    rw [hpair.1, hpair.2] at h ⊢
    rw [List.cons_append, List.cons_append, crlfToLf_pair, crlfToLf_pair, List.cons_append, ih]
    rintro ⟨hlast, hc⟩
    apply h
    rw [List.getLast?_cons, List.getLast?_cons, hlast]
    exact ⟨rfl, hc⟩
  | case4 d e rest hno ih =>
    rw [List.cons_append, List.cons_append, crlfToLf_cons_cons hno, crlfToLf_cons_cons hno,
      List.cons_append, ← List.cons_append, ih]
    rintro ⟨hlast, hc⟩
    apply h
    rw [List.getLast?_cons_cons]
    exact ⟨hlast, hc⟩

theorem crlfToLf_lf (s : List Char) : crlfToLf ('\n' :: s) = '\n' :: crlfToLf s := by
  cases s with
  | nil => rfl
  | cons d s => exact crlfToLf_cons_cons (fun h => absurd h.1 (by decide)) s

theorem textLines_lf (s : List Char) : textLines ('\n' :: s) = [] :: textLines s := by
  rw [textLines, crlfToLf_lf, splitOn_cons_self]
  rfl

/-- The lines of a reply, a blank line and what stands below it. -/
theorem textLines_above (t below : List Char) {gap : List Char}
    (hgap : gap = ['\n', '\n'] ∨ gap = ['\r', '\n', '\r', '\n']) :
    ∃ lines', SameButReturn (textLines t) lines' ∧
      textLines (t ++ gap ++ below) = lines' ++ [] :: textLines below := by
  rcases hgap with rfl | rfl
  · by_cases hlast : t.getLast? = some '\r'
    · obtain ⟨front, rfl⟩ := List.getLast?_eq_some_iff.mp hlast
      have hreturn : ¬ (front.getLast? = some '\r' ∧ '\r' = '\n') := fun h => by cases h.2
      have hne : '\r' ≠ '\n' := by decide
      obtain ⟨before, line, hfront, hcut⟩ := splitOn_concat_of_ne hne (crlfToLf front)
      refine ⟨textLines front, ?_, ?_⟩
      · rw [textLines, textLines, crlfToLf_append_cons hreturn, hfront]
        have hone : crlfToLf ['\r'] = ['\r'] := rfl
        rw [hone, hcut]
        exact SameButReturn.lost before line
      · have hshape : front ++ ['\r'] ++ ['\n', '\n'] ++ below =
            front ++ '\r' :: '\n' :: ('\n' :: below) := by
          simp only [List.append_assoc, List.cons_append, List.nil_append]
        rw [hshape, textLines_append, textLines_lf]
    · refine ⟨textLines t, SameButReturn.same _, ?_⟩
      have hshape : t ++ ['\n', '\n'] ++ below = t ++ '\n' :: ('\n' :: below) := by
        simp only [List.append_assoc, List.cons_append, List.nil_append]
      have hlines : textLines (t ++ '\n' :: ('\n' :: below)) =
          textLines t ++ textLines ('\n' :: below) := by
        rw [textLines, crlfToLf_append_cons (fun h => hlast h.1), crlfToLf_lf,
          List.splitOn_append_cons_self]
        rfl
      rw [hshape, hlines, textLines_lf]
  · refine ⟨textLines t, SameButReturn.same _, ?_⟩
    have hshape : t ++ ['\r', '\n', '\r', '\n'] ++ below =
        t ++ '\r' :: '\n' :: ([] ++ '\r' :: '\n' :: below) := by
      simp only [List.append_assoc, List.cons_append, List.nil_append]
    rw [hshape, textLines_append, textLines_append]
    rfl

end Together

/-- No line before the first marker of the reply, one of its last two, is taken for the
beginning of the attribution below. -/
def StandsApart (formatRfc2822 : Int → RenderedDate) (message : MessageView) (t : String) : Prop :=
  ∀ i < findCutoff (textLines t.toList),
    runsInto (attribution formatRfc2822 message).toList ((quotedLines message).headD [])
      ((textLines t.toList).drop i) = false

theorem isWroteMarker_attribution (formatRfc2822 : Int → RenderedDate) (message : MessageView) :
    isWroteMarker (trim (attribution formatRfc2822 message).toList) = true := by
  obtain ⟨mid, hmid⟩ : ∃ mid, (attribution formatRfc2822 message).toList =
      ['O', 'n', ' '] ++ mid ++ [' ', 'w', 'r', 'o', 't', 'e', ':'] := by
    refine ⟨(formatRfc2822 message.internalDate).text.toList ++
      (", ".toList ++ message.fromAddr.toList), ?_⟩
    simp only [attribution, String.toList_append, List.append_assoc]
    rfl
  have htrim : trim (attribution formatRfc2822 message).toList =
      (attribution formatRfc2822 message).toList := by
    rw [trim_eq_strip, strip_eq_self_iff, hmid]
    constructor
    · intro c hc
      obtain rfl := Option.some.inj hc
      decide
    · intro c hc
      rw [List.getLast?_append] at hc
      obtain rfl := Option.some.inj hc
      decide
  rw [htrim, hmid, isWroteMarker, startsOn, endsWrote, Bool.and_eq_true,
    List.isPrefixOf_iff_prefix, List.isSuffixOf_iff_suffix]
  refine ⟨⟨_, (List.append_assoc _ _ _).symm⟩, ⟨['O', 'n', ' '] ++ mid ++ [' '], ?_⟩⟩
  rw [List.append_assoc _ [' ']]
  rfl

/-- The program's own quote is stripped, and nothing else, exactly when no line right above
it is taken for the beginning of its attribution. -/
theorem own_quote_is_stripped_iff (formatRfc2822 : Int → RenderedDate) (message : MessageView)
    (hfrom : '\n' ∉ message.fromAddr.toList) (accountEmail : String) (replyAll : Bool)
    (t gap : String) (hgap : gap = "\n\n" ∨ gap = "\r\n\r\n") :
    extractReply (t ++ gap ++
        (replyDraft formatRfc2822 message accountEmail replyAll).quotedBody) = extractReply t ↔
      StandsApart formatRfc2822 message t := by
  have hchars : gap.toList = ['\n', '\n'] ∨ gap.toList = ['\r', '\n', '\r', '\n'] := by
    rcases hgap with rfl | rfl
    · exact Or.inl rfl
    · exact Or.inr rfl
  have hwrote := isWroteMarker_attribution formatRfc2822 message
  obtain ⟨first, more, hquoted⟩ : ∃ first more, quotedLines message = first :: more := by
    apply List.exists_cons_of_ne_nil
    simp [quotedLines]
  obtain ⟨lines', hsame, habove⟩ := textLines_above t.toList
    (replyDraft formatRfc2822 message accountEmail replyAll).quotedBody.toList hchars
  rw [textLines_quotedBody formatRfc2822 hfrom, hquoted] at habove
  rw [← String.toList_inj, extractReply, extractReply, String.toList_ofList, String.toList_ofList,
    String.toList_append, String.toList_append, extractChars, extractChars, habove, StandsApart,
    hquoted]
  constructor
  · intro h i hi
    rw [Bool.eq_false_iff]
    exact fun hruns => not_kept_above hwrote hsame hi hruns h
  · exact fun h => kept_above hwrote hsame h

/-- A message from an address with an `@` in it. -/
def fromAda : MessageView where
  fromAddr := "ada@example.com"
  replyTo := none
  subject := none
  messageIdHeader := none
  referencesHeader := none
  toAddrs := []
  ccAddrs := []
  textBody := some "Which day?"
  htmlBody := none
  internalDate := 0

theorem sentence_above_the_quote_is_lost :
    ¬ ∀ formatRfc2822 message, '\n' ∉ message.fromAddr.toList → ∀ accountEmail replyAll t,
      extractReply (t ++ "\n\n" ++
        (replyDraft formatRfc2822 message accountEmail replyAll).quotedBody) = extractReply t := by
  intro h
  have hlost := h undated fromAda (by decide) "" false "On Monday."
  revert hlost
  decide

theorem thanks_above_the_quote_is_kept :
    extractReply ("Thanks." ++ "\n\n" ++ (replyDraft undated fromAda "" false).quotedBody) =
        extractReply "Thanks." ↔ StandsApart undated fromAda "Thanks." :=
  own_quote_is_stripped_iff undated fromAda (by decide) "" false "Thanks." "\n\n" (Or.inl rfl)

end Postblox.Mail
