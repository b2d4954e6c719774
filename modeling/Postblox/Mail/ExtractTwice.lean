import Postblox.Mail.ReplyExtract

/-!
# Extracting a reply a second time

Leaving quoted lines out brings lines together that were apart, so that a second pass may
find an attribution over several lines or a header block the first one did not. And where
two carriage returns stood before a line feed one of them is left for the second pass.
Otherwise a second pass changes nothing.
-/
namespace Postblox.Mail

open Lib

section Kept

variable {lines : List (List Char)} {line : List Char} {q : Char → Bool}

theorem keptLines_sublist (lines : List (List Char)) : (keptLines lines).Sublist lines :=
  List.filter_sublist.trans (List.take_sublist _ _)

theorem not_quote_of_kept (h : line ∈ keptLines lines) : isQuoteLine line = false := by
  have hkept := (List.mem_filter.mp h).2
  simpa using hkept

/-- A kept line is no marker by itself. -/
theorem plain_of_kept (h : line ∈ keptLines lines) :
    isSignatureSeparator (trim line) = false ∧ isWroteMarker (trim line) = false := by
  obtain ⟨i, hi, hline⟩ := List.mem_iff_getElem.mp (List.mem_filter.mp h).1
  rw [List.length_take] at hi
  have hno := not_marks_of_lt (by omega : i < findCutoff lines)
  rw [List.getElem_take] at hline
  rw [List.drop_eq_getElem_cons (by omega), marksCutoff, hline] at hno
  simp only [Bool.or_eq_false_iff] at hno
  exact hno.1.1

theorem keptLines_eq_self (hmarker : NoMarker lines)
    (hquote : ∀ line ∈ lines, isQuoteLine line = false) : keptLines lines = lines := by
  rw [keptLines, noMarker_iff.mp hmarker, List.take_length, List.filter_eq_self]
  intro line hline
  rw [hquote line hline]
  rfl

/-- Nothing is added by leaving lines out. -/
theorem filter_keptLines (hq : q '\n' = false) (lines : List (List Char)) :
    ((unlines '\n' (keptLines lines)).filter q).Sublist ((unlines '\n' lines).filter q) := by
  rw [filter_unlines hq, filter_unlines hq]
  exact ((keptLines_sublist lines).map _).flatten

theorem isQuoteLine_trim (line : List Char) : isQuoteLine (trim line) = isQuoteLine line := by
  have htrimStart : trimStart (trim line) = trim line := by
    rw [trim_eq_strip, trimStart, dropWhile_strip]
  unfold isQuoteLine
  rw [htrimStart, trim_eq]
  cases h : trimStart line with
  | nil => rfl
  | cons c rest =>
    have hhead : (trimStart line).head? = some c := by rw [h]; rfl
    have hc : isWhitespace c = false := head_trimStart hhead
    have hwritten : ¬ Blank isWhitespace [c] := by
      intro hblank
      rw [hblank c (List.mem_singleton_self c)] at hc
      cases hc
    have hcons : c :: rest = [c] ++ rest := rfl
    by_cases hrest : Blank isWhitespace rest
    · rw [hcons, rdropWhile_blank hrest, List.rdropWhile_singleton,
        if_neg (by simp [hc])]
      rfl
    · rw [hcons, rdropWhile_written hrest]
      rfl

end Kept

/-- The lines of a text that the first pass keeps: those before the first marker that are
no quotes. -/
def ownLines (text : String) : List (List Char) := keptLines (textLines text.toList)

/-- No marker arises where quoted lines were, and no carriage return is left at the end of
a line between written ones. -/
structure StaysPut (own : List (List Char)) : Prop where
  noBlock : ∀ i, isMultilineWroteMarker (own.drop i) = false ∧
    isOutlookHeaderBlock (own.drop i) = false
  noReturn : ∀ before line after, own = before ++ line :: after → line.getLast? = some '\r' →
    (∀ l ∈ before ++ [line], trim l = []) ∨ ∀ l ∈ after, trim l = []

section Pass

variable {own : List (List Char)} {r s a b : List Char}

theorem crlfToLf_append (a b : List Char) :
    crlfToLf (a ++ '\r' :: '\n' :: b) = crlfToLf a ++ '\n' :: crlfToLf b := by
  unfold crlfToLf
  rw [pieces_append (by decide)]
  exact unlines_append (pieces_ne_nil a) (pieces_ne_nil b)

/-- Without a CR LF there is nothing to replace. -/
theorem crlfToLf_unchanged (h : ¬ ['\r', '\n'] <:+: s) : crlfToLf s = s := by
  have hjoin := intercalate_pieces (x := '\r') (y := '\n') s
  unfold crlfToLf
  rcases hp : pieces '\r' '\n' s with _ | ⟨first, _ | ⟨second, rest⟩⟩
  · exact absurd hp (pieces_ne_nil s)
  · rw [hp, List.intercalate_singleton] at hjoin
    rw [List.intercalate_singleton, hjoin]
  · rw [hp, List.intercalate_cons_cons, List.append_assoc] at hjoin
    exact absurd ⟨first, _, by rw [← hjoin, List.append_assoc]⟩ h

theorem crlfToLf_sublist (s : List Char) : (crlfToLf s).Sublist s := by
  have hjoin : ∀ ps : List (List Char),
      (['\n'].intercalate ps).Sublist (['\r', '\n'].intercalate ps) := by
    intro ps
    induction ps with
    | nil => exact List.Sublist.refl _
    | cons p ps ih =>
      cases ps with
      | nil =>
        rw [List.intercalate_singleton, List.intercalate_singleton]
      | cons p' ps =>
        rw [List.intercalate_cons_cons, List.intercalate_cons_cons]
        exact ((List.Sublist.refl p).append ((List.Sublist.refl ['\n']).cons '\r')).append ih
  have hself := hjoin (pieces '\r' '\n' s)
  rwa [intercalate_pieces] at hself

/-- A pass over a text with a CR LF in it loses the carriage return. -/
theorem extractChars_ne_of_return (h : ['\r', '\n'] <:+: s) : extractChars s ≠ s := by
  obtain ⟨a, b, hs⟩ := h
  rw [List.append_assoc] at hs
  have hcrlf : crlfToLf s = crlfToLf a ++ '\n' :: crlfToLf b := by
    rw [← hs]
    exact crlfToLf_append a b
  intro hself
  have hreturn : ('\n' == '\r') = false := by decide
  have hkept := filter_keptLines (q := (· == '\r')) hreturn (textLines s)
  have hstrip : (extractChars s).Sublist (unlines '\n' (keptLines (textLines s))) := by
    rw [extractChars, trim_eq_strip]
    exact (List.rdropWhile_prefix _ _).sublist.trans (List.dropWhile_sublist _)
  rw [textLines, unlines_splitOn] at hkept
  have hle := ((hstrip.filter (· == '\r')).trans hkept).length_le
  have ha := ((crlfToLf_sublist a).filter (· == '\r')).length_le
  have hb := ((crlfToLf_sublist b).filter (· == '\r')).length_le
  have hcount : (s.filter (· == '\r')).length =
      (a.filter (· == '\r')).length + 1 + (b.filter (· == '\r')).length := by
    rw [← hs]
    simp [List.filter_append]
    omega
  have hcount' : ((crlfToLf s).filter (· == '\r')).length =
      ((crlfToLf a).filter (· == '\r')).length + ((crlfToLf b).filter (· == '\r')).length := by
    rw [hcrlf]
    simp [List.filter_append]
  rw [hself, hcount, hcount'] at hle
  omega

/-- A pass that finds a marker loses what is written in its first line. -/
theorem extractChars_ne_of_marker (hcrlf : crlfToLf s = s) (h : ¬ NoMarker (s.splitOn '\n')) :
    extractChars s ≠ s := by
  intro hself
  have hcut : findCutoff (s.splitOn '\n') < (s.splitOn '\n').length := by
    have hle := findCutoff_le (s.splitOn '\n')
    rw [noMarker_iff] at h
    omega
  generalize hlines : s.splitOn '\n' = lines at h hcut
  have hblank : isWhitespace '\n' = true := by decide
  have hmark := marks_findCutoff hcut
  rw [List.drop_eq_getElem_cons hcut] at hmark
  have hline : ink isWhitespace lines[findCutoff lines] ≠ [] := by
    have hwritten := written_of_marks hmark
    rwa [trim_eq_strip, Ne, strip_eq_nil_iff, blank_iff_ink] at hwritten
  have hs : ink isWhitespace s = (lines.map (ink isWhitespace)).flatten := by
    rw [← unlines_splitOn '\n' s, hlines]
    exact ink_unlines hblank lines
  have hextract : ink isWhitespace (extractChars s) =
      ((keptLines lines).map (ink isWhitespace)).flatten := by
    rw [extractChars, trim_eq_strip, ink_strip, textLines, hcrlf, hlines]
    exact ink_unlines hblank _
  rw [hself, hs] at hextract
  have hsplit : lines = lines.take (findCutoff lines) ++
      lines[findCutoff lines] :: lines.drop (findCutoff lines + 1) := by
    rw [← List.drop_eq_getElem_cons hcut, List.take_append_drop]
  have hle : ((keptLines lines).map (ink isWhitespace)).flatten.length ≤
      ((lines.take (findCutoff lines)).map (ink isWhitespace)).flatten.length :=
    ((List.filter_sublist.map _).flatten).length_le
  have hpos := List.length_pos_iff.mpr hline
  have hlength := congrArg (fun l => ((List.map (ink isWhitespace) l).flatten).length) hsplit
  simp only [List.map_append, List.map_cons, List.flatten_append, List.flatten_cons,
    List.length_append] at hlength
  rw [← hextract] at hle
  omega

/-- Without a marker and a quote there is nothing to leave out. -/
theorem extractChars_eq_self (hcrlf : crlfToLf s = s) (hmarker : NoMarker (s.splitOn '\n'))
    (hquote : ∀ line ∈ s.splitOn '\n', isQuoteLine line = false) (htrim : trim s = s) :
    extractChars s = s := by
  rw [extractChars, textLines, hcrlf, keptLines_eq_self hmarker hquote, unlines_splitOn, htrim]

end Pass

/-! ## What the first pass leaves -/

section Own

variable {own : List (List Char)} {line : List Char}

theorem splitOn_unlines_own (hlines : ∀ l ∈ own, '\n' ∉ l) :
    (unlines '\n' own).splitOn '\n' = if own = [] then [[]] else own := by
  split
  next hnil =>
    rw [hnil]
    exact List.splitOn_nil '\n'
  next hne => exact splitOn_unlines hlines hne

theorem noMarker_unlines (hlines : ∀ l ∈ own, '\n' ∉ l) :
    NoMarker ((trim (unlines '\n' own)).splitOn '\n') ↔ NoMarker own := by
  rw [noMarker_strip, splitOn_unlines_own hlines]
  split
  next hnil =>
    rw [hnil]
    exact iff_of_true (noMarker_iff.mpr (by decide)) (noMarker_iff.mpr rfl)
  next => rfl

theorem not_quote_unlines (hlines : ∀ l ∈ own, '\n' ∉ l)
    (hquote : ∀ l ∈ own, isQuoteLine l = false)
    (hline : line ∈ (trim (unlines '\n' own)).splitOn '\n') : isQuoteLine line = false := by
  have htrim : trim = strip isWhitespace := funext trim_eq_strip
  obtain ⟨i, j, hmap⟩ := splitOn_strip isWhitespace '\n' (unlines '\n' own)
  rw [← htrim, splitOn_unlines_own hlines] at hmap
  have hmem : trim line ∈ (if own = [] then [[]] else own).map trim := by
    rw [hmap]
    exact List.mem_append_left _ (List.mem_append_right _ (List.mem_map_of_mem hline))
  obtain ⟨l, hl, heq⟩ := List.mem_map.mp hmem
  rw [← isQuoteLine_trim, ← heq, isQuoteLine_trim]
  split at hl
  next =>
    rw [List.mem_singleton.mp hl]
    decide
  next => exact hquote l hl

/-- Where a carriage return is left before a line feed. -/
theorem return_left_iff (hlines : ∀ l ∈ own, '\n' ∉ l) :
    ['\r', '\n'] <:+: trim (unlines '\n' own) ↔ ∃ before line after,
      own = before ++ line :: after ∧ line.getLast? = some '\r' ∧
        ¬ (∀ l ∈ before ++ [line], trim l = []) ∧ ¬ ∀ l ∈ after, trim l = [] := by
  have hblank : isWhitespace '\n' = true := by decide
  have hpair : Blank isWhitespace ['\r', '\n'] := by
    intro c hc
    simp only [List.mem_cons, List.not_mem_nil, or_false] at hc
    rcases hc with rfl | rfl <;> decide
  have hreturn : Blank isWhitespace ['\r'] := fun c hc => hpair c (List.mem_cons.mpr
    (Or.inl (List.mem_singleton.mp hc)))
  have hall : ∀ ls : List (List Char), (∀ l ∈ ls, trim l = []) ↔
      Blank isWhitespace (unlines '\n' ls) := by
    intro ls
    rw [blank_unlines hblank]
    simp only [trim_eq_strip, strip_eq_nil_iff]
  have hne : '\r' ≠ '\n' := by decide
  simp only [hall]
  rw [trim_eq_strip, infix_strip_iff hpair (List.cons_ne_nil _ _)]
  constructor
  · rintro ⟨a, b, hab, ha, hb⟩
    obtain ⟨before, line, -, hcut⟩ := splitOn_concat_of_ne hne a
    have hshape : unlines '\n' own = (a ++ ['\r']) ++ '\n' :: b := by
      rw [hab]
      simp only [List.append_assoc, List.cons_append, List.nil_append]
    have hsome : own ≠ [] := by
      intro hnil
      rw [hnil] at hshape
      exact absurd hshape.symm (by simp [unlines])
    have hown : own = before ++ (line ++ ['\r']) :: b.splitOn '\n' := by
      have hlines' := splitOn_unlines hlines hsome
      rw [hshape, List.splitOn_append_cons_self, hcut, List.append_assoc] at hlines'
      exact hlines'.symm
    refine ⟨before, line ++ ['\r'], b.splitOn '\n', hown, List.getLast?_concat, ?_, ?_⟩
    · rw [← hcut, unlines_splitOn, blank_append]
      exact fun h => ha h.1
    · rw [unlines_splitOn]
      exact hb
  · rintro ⟨before, line, after, hown, hlast, hbefore, hafter⟩
    obtain ⟨front, rfl⟩ := List.getLast?_eq_some_iff.mp hlast
    have hsome : after ≠ [] := by
      intro hnil
      rw [hnil] at hafter
      exact hafter fun c hc => absurd hc List.not_mem_nil
    have hfront := unlines_concat_append '\n' before front ['\r']
    refine ⟨unlines '\n' (before ++ [front]), unlines '\n' after, ?_, ?_, hafter⟩
    · have hsplit : own = (before ++ [front ++ ['\r']]) ++ after := by
        rw [hown, List.append_assoc, List.singleton_append]
      rw [hsplit, unlines_append (by simp) hsome, hfront]
      simp only [List.append_assoc, List.cons_append, List.nil_append]
    · intro h
      apply hbefore
      rw [hfront, blank_append]
      exact ⟨h, hreturn⟩

end Own

section Twice

variable (text : String)

theorem ownLines_plain {line : List Char} (h : line ∈ ownLines text) : '\n' ∉ line := by
  have hmem := (keptLines_sublist (textLines text.toList)).subset h
  exact not_mem_of_mem_splitOn hmem

theorem extractReply_toList : (extractReply text).toList = trim (unlines '\n' (ownLines text)) := by
  rw [extractReply, String.toList_ofList]
  rfl

/-- Of the markers only the ones over several lines can arise among the kept lines. -/
theorem noMarker_ownLines_iff : NoMarker (ownLines text) ↔ ∀ i,
    isMultilineWroteMarker ((ownLines text).drop i) = false ∧
      isOutlookHeaderBlock ((ownLines text).drop i) = false := by
  apply forall_congr'
  intro i
  cases hdrop : (ownLines text).drop i with
  | nil => exact iff_of_true rfl ⟨rfl, rfl⟩
  | cons line rest =>
    have hmem : line ∈ ownLines text := by
      apply List.mem_of_mem_drop (i := i)
      rw [hdrop]
      exact List.mem_cons_self
    obtain ⟨hseparator, hwrote⟩ := plain_of_kept hmem
    rw [marksCutoff, hseparator, hwrote, Bool.false_or, Bool.false_or, Bool.or_eq_false_iff]

/-- A second pass changes nothing, and no quoted line is left, exactly when no marker arises
among the kept lines and no carriage return is left between them. -/
theorem extract_reply_idempotent_iff :
    (extractReply (extractReply text) = extractReply text ∧
      ∀ line ∈ (extractReply text).toList.splitOn '\n', (trimStart line).head? ≠ some '>') ↔
      StaysPut (ownLines text) := by
  have hlines : ∀ l ∈ ownLines text, '\n' ∉ l := fun l hl => ownLines_plain text hl
  have hquote : ∀ line ∈ (extractReply text).toList.splitOn '\n', isQuoteLine line = false := by
    rw [extractReply_toList]
    exact fun line hline => not_quote_unlines hlines (fun l hl => not_quote_of_kept hl) hline
  have hhead : ∀ line ∈ (extractReply text).toList.splitOn '\n',
      (trimStart line).head? ≠ some '>' := by
    intro line hline hgreater
    have hno := hquote line hline
    unfold isQuoteLine at hno
    cases htrim : trimStart line with
    | nil => rw [htrim] at hgreater; cases hgreater
    | cons c rest =>
      rw [htrim] at hgreater hno
      obtain rfl := Option.some.inj hgreater
      cases hno
  have hself : extractReply (extractReply text) = extractReply text ↔
      extractChars (extractReply text).toList = (extractReply text).toList := by
    rw [← String.toList_inj, extractReply, String.toList_ofList]
  rw [and_iff_left hhead, hself, extractReply_toList]
  constructor
  · intro h
    have hapart : ¬ ['\r', '\n'] <:+: trim (unlines '\n' (ownLines text)) :=
      fun hreturn => extractChars_ne_of_return hreturn h
    have hmarker : NoMarker (ownLines text) := by
      rw [← noMarker_unlines hlines]
      by_contra hno
      exact extractChars_ne_of_marker (crlfToLf_unchanged hapart) hno h
    refine ⟨(noMarker_ownLines_iff text).mp hmarker, ?_⟩
    intro before line after hown hlast
    by_contra hboth
    rw [not_or] at hboth
    exact hapart ((return_left_iff hlines).mpr ⟨before, line, after, hown, hlast, hboth⟩)
  · intro h
    have hapart : ¬ ['\r', '\n'] <:+: trim (unlines '\n' (ownLines text)) := by
      rw [return_left_iff hlines]
      rintro ⟨before, line, after, hown, hlast, hbefore, hafter⟩
      cases h.noReturn before line after hown hlast with
      | inl hblank => exact hbefore hblank
      | inr hblank => exact hafter hblank
    apply extractChars_eq_self (crlfToLf_unchanged hapart)
    · exact (noMarker_unlines hlines).mpr ((noMarker_ownLines_iff text).mpr h.noBlock)
    · rw [← extractReply_toList]
      exact hquote
    · exact trim_trim _

end Twice

/-- Five lines of attribution, two quoted ones between them. -/
theorem attribution_around_quotes_is_cut_later :
    ¬ ∀ text, extractReply (extractReply text) = extractReply text ∧
      ∀ line ∈ (extractReply text).toList.splitOn '\n', (trimStart line).head? ≠ some '>' := by
  intro h
  have htwice := (h "Hi\nOn Monday I saw\n> a\n> b\n> c\nfoo@bar\nI wrote:").1
  revert htwice
  decide

end Postblox.Mail
