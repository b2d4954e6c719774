import Postblox.Lib.PartitionPoint
import Postblox.Lib.TwoSides
import Postblox.Tui.LineCache

/-!
# What the line index finds

The index of a text has one entry for each of its lines, with the places where the line
starts and ends, in characters and in bytes. Every place of the text is in one line only,
and the search in the index finds it.
-/
namespace Postblox.Tui

open Lib

/-- The lines of a text, as `split('\n')` gives them. -/
def textLines (text : String) : List (List Char) := text.toList.splitOn '\n'

/-- The bounds of a line behind the text `before`. -/
def LineBounds.behind (before line : List Char) : LineBounds where
  charStart := before.length
  charEnd := before.length + line.length
  byteStart := byteLength before
  byteEnd := byteLength before + byteLength line

/-- The bounds of lines behind the text `before`. -/
def boundsBehind (before : List Char) : List (List Char) → List LineBounds
  | [] => []
  | line :: rest => .behind before line :: boundsBehind (before ++ line ++ ['\n']) rest

theorem boundsBehind_append (before : List Char) (front back : List (List Char)) :
    boundsBehind before (front ++ back) =
      boundsBehind before front ++ boundsBehind (before ++ ended '\n' front) back := by
  induction front generalizing before with
  | nil => rw [ended_nil, List.append_nil]; rfl
  | cons line front ih =>
    rw [List.cons_append, boundsBehind, ih, boundsBehind, List.cons_append, ended_cons]
    simp only [List.append_assoc]

theorem length_boundsBehind (before : List Char) (lines : List (List Char)) :
    (boundsBehind before lines).length = lines.length := by
  induction lines generalizing before with
  | nil => rfl
  | cons line rest ih => rw [boundsBehind, List.length_cons, ih, List.length_cons]

theorem byteLength_snoc (text : List Char) (ch : Char) :
    byteLength (text ++ [ch]) = byteLength text + ch.utf8Size := by
  rw [byteLength_append]
  rfl

/-- The loop: `before` are the lines that have ended, `opened` is what there is of the next. -/
theorem scan_eq (before opened rest : List Char) (hopen : '\n' ∉ opened) :
    LineCache.scan before.length (byteLength before) (before ++ opened).length
        (byteLength (before ++ opened)) rest =
      ⟨boundsBehind before ((opened ++ rest).splitOn '\n'),
        (before ++ opened ++ rest).length⟩ := by
  induction rest generalizing before opened with
  | nil =>
    have hone : opened.splitOn '\n' = [opened] := List.splitOn_eq_singleton hopen
    rw [LineCache.scan, List.append_nil, List.append_nil, hone, boundsBehind, boundsBehind,
      LineBounds.behind, List.length_append, byteLength_append]
  | cons ch rest ih =>
    by_cases hch : ch = '\n'
    · have hnext : (before ++ opened).length + 1 = (before ++ opened ++ ['\n']).length := by
        simp
        omega
      have hbyte : byteLength (before ++ opened) + ch.utf8Size =
          byteLength (before ++ opened ++ ['\n']) := by
        rw [byteLength_snoc, hch]
      have hrest := ih (before ++ opened ++ ['\n']) [] List.not_mem_nil
      rw [List.append_nil, List.nil_append] at hrest
      rw [LineCache.scan, if_pos hch]
      simp only [hnext, hbyte, hrest]
      rw [hch, List.splitOn_append_cons_self_of_not_mem hopen, boundsBehind, LineBounds.behind,
        List.length_append, byteLength_append]
      simp only [List.append_assoc, List.singleton_append]
    · have hlength : (before ++ opened).length + 1 = (before ++ (opened ++ [ch])).length := by
        simp
        omega
      have hbytes : byteLength (before ++ opened) + ch.utf8Size =
          byteLength (before ++ (opened ++ [ch])) := by
        rw [← List.append_assoc, byteLength_snoc]
      have hnot : '\n' ∉ opened ++ [ch] := by
        rw [List.mem_append, List.mem_singleton]
        exact fun h => h.elim hopen fun heq => hch heq.symm
      rw [LineCache.scan, if_neg hch, hlength, hbytes, ih before (opened ++ [ch]) hnot]
      simp only [List.append_assoc, List.singleton_append]

namespace LineCache

theorem fromText_eq (text : String) :
    fromText text = ⟨boundsBehind [] (textLines text), text.toList.length⟩ :=
  scan_eq [] [] text.toList List.not_mem_nil

theorem charLen_fromText (text : String) : (fromText text).charLen = text.toList.length := by
  rw [fromText_eq]

theorem lineCount_fromText (text : String) :
    (fromText text).lineCount = (textLines text).length := by
  rw [lineCount, fromText_eq, length_boundsBehind]

theorem lineCount_pos (text : String) : 0 < (fromText text).lineCount := by
  rw [lineCount_fromText]
  exact List.length_pos_iff.mpr (List.splitOn_ne_nil '\n' text.toList)

/-- The entry of a line: it stands behind the lines that end before it. -/
theorem bounds_fromText {text : String} {front back : List (List Char)} {line : List Char}
    (h : textLines text = front ++ line :: back) :
    (fromText text).bounds[front.length]? = some (.behind (ended '\n' front) line) := by
  rw [fromText_eq, h, boundsBehind_append, List.nil_append, boundsBehind,
    List.getElem?_append_right (by rw [length_boundsBehind]), length_boundsBehind, Nat.sub_self,
    List.getElem?_cons_zero]

/-- Each entry is that of a line. -/
theorem exists_line {text : String} {n : Nat} {bounds : LineBounds}
    (h : (fromText text).bounds[n]? = some bounds) :
    ∃ front line back, textLines text = front ++ line :: back ∧ front.length = n ∧
      bounds = .behind (ended '\n' front) line := by
  have hlt : n < (textLines text).length := by
    rw [← lineCount_fromText]
    exact (List.getElem?_eq_some_iff.mp h).1
  have hsplit : textLines text = (textLines text).take n ++
      (textLines text)[n] :: (textLines text).drop (n + 1) := by
    rw [List.cons_getElem_drop_succ, List.take_append_drop]
  have hlength : ((textLines text).take n).length = n := by
    rw [List.length_take]
    omega
  have hbounds := bounds_fromText hsplit
  rw [hlength, h] at hbounds
  exact ⟨_, _, _, hsplit, hlength, Option.some.inj hbounds⟩

/-- The text between the byte bounds of a line is the line. -/
theorem line_fromText (text : String) (n : Nat) :
    (fromText text).line text n = (textLines text)[n]?.map String.ofList := by
  cases hbounds : (fromText text).bounds[n]? with
  | none =>
    have hle := List.getElem?_eq_none_iff.mp hbounds
    rw [line, hbounds, List.getElem?_eq_none (by rw [← lineCount_fromText]; exact hle)]
    rfl
  | some bounds =>
    obtain ⟨front, line, back, hsplit, hlength, rfl⟩ := exists_line hbounds
    have htext : text.toList = ended '\n' front ++ (line ++ behind '\n' back) :=
      text_of_lines hsplit
    rw [LineCache.line, hbounds, Option.bind_some, htext, LineBounds.behind, byteSlice_append,
      hsplit, ← hlength, List.getElem?_append_right (Nat.le_refl _), Nat.sub_self,
      List.getElem?_cons_zero]

/-! ## The line of a place -/

/-- The place is in the line, its end included. -/
def Spans (cache : LineCache) (n cursor : Nat) : Prop :=
  ∃ bounds, cache.bounds[n]? = some bounds ∧ bounds.charStart ≤ cursor ∧ cursor ≤ bounds.charEnd

theorem charStart_boundsBehind (before : List Char) (lines : List (List Char)) :
    ∀ bounds ∈ boundsBehind before lines, before.length ≤ bounds.charStart := by
  induction lines generalizing before with
  | nil => exact fun bounds h => absurd h List.not_mem_nil
  | cons line rest ih =>
    intro bounds h
    rcases List.mem_cons.mp h with rfl | h
    · exact Nat.le_refl _
    · have hrest := ih _ bounds h
      rw [List.length_append, List.length_append] at hrest
      omega

/-- A line ends before the later ones start. -/
theorem pairwise_boundsBehind (before : List Char) (lines : List (List Char)) :
    (boundsBehind before lines).Pairwise fun a b => a.charEnd < b.charStart := by
  induction lines generalizing before with
  | nil => exact List.Pairwise.nil
  | cons line rest ih =>
    refine List.Pairwise.cons ?_ (ih _)
    intro bounds h
    have hrest := charStart_boundsBehind _ rest bounds h
    rw [List.length_append, List.length_append, List.length_singleton] at hrest
    exact hrest

theorem charStart_le_charEnd {text : String} {n : Nat} {bounds : LineBounds}
    (h : (fromText text).bounds[n]? = some bounds) : bounds.charStart ≤ bounds.charEnd := by
  obtain ⟨front, line, back, -, -, rfl⟩ := exists_line h
  exact Nat.le_add_right _ _

theorem pairwise_fromText (text : String) :
    (fromText text).bounds.Pairwise fun a b => a.charEnd < b.charStart := by
  rw [fromText_eq]
  exact pairwise_boundsBehind [] _

/-- The lines that end before a place come first, so the place is found by halving. -/
theorem partitioned_fromText (text : String) (cursor : Nat) :
    PartitionedBy (fun bounds : LineBounds => decide (bounds.charEnd < cursor))
      (fromText text).bounds := by
  unfold PartitionedBy
  rw [List.pairwise_iff_getElem]
  intro i j hi hj hij hpass
  have hapart := List.pairwise_iff_getElem.mp (pairwise_fromText text) i j hi hj hij
  have hle := charStart_le_charEnd (List.getElem?_eq_getElem hj)
  have hend := of_decide_eq_true hpass
  exact decide_eq_true (by omega)

/-- The search in the index finds the line that spans the place. -/
theorem lineForCursor_of_spans {text : String} {n cursor : Nat}
    (h : (fromText text).Spans n cursor) : (fromText text).lineForCursor cursor = n := by
  obtain ⟨bounds, hbounds, hstart, hend⟩ := h
  obtain ⟨hlt, hget⟩ := List.getElem?_eq_some_iff.mp hbounds
  have hfront := any_getElem?_iff (partitioned_fromText text cursor)
  have hhere : ¬ n < ((fromText text).bounds.takeWhile
      fun bounds => decide (bounds.charEnd < cursor)).length := by
    rw [← hfront n, hbounds]
    simpa using hend
  have hbefore : ∀ m < n, m < ((fromText text).bounds.takeWhile
      fun bounds => decide (bounds.charEnd < cursor)).length := by
    intro m hm
    have hapart := List.pairwise_iff_getElem.mp (pairwise_fromText text) m n (by omega) hlt hm
    rw [hget] at hapart
    rw [← hfront m, List.getElem?_eq_getElem (by omega)]
    simpa using (by omega : (fromText text).bounds[m].charEnd < cursor)
  have hfound : ((fromText text).bounds.takeWhile
      fun bounds => decide (bounds.charEnd < cursor)).length = n := by
    cases n with
    | zero => omega
    | succ m =>
      have := hbefore m (by omega)
      omega
  rw [lineForCursor, hfound]
  omega

/-- A place is in the line that the two sides make up where they meet. -/
theorem spans_of_cut {text : String} {s : Sides Char} {front back : List (List Char)}
    {a b : List Char} (htext : text.toList = s.text) (h : s.Cut '\n' front a b back) :
    (fromText text).Spans front.length s.before.length := by
  have hlines : textLines text = front ++ (a ++ b) :: back := by
    rw [textLines, htext]
    exact h.lines
  refine ⟨_, bounds_fromText hlines, ?_, ?_⟩
  · rw [h.before, List.length_append]
    exact Nat.le_add_right _ _
  · rw [h.before, List.length_append]
    have hline : a.length ≤ (a ++ b).length := by
      rw [List.length_append]
      exact Nat.le_add_right _ _
    exact Nat.add_le_add_left hline _

theorem clampedLine_fromText {text : String} {front back : List (List Char)} {line : List Char}
    (h : textLines text = front ++ line :: back) :
    (fromText text).clampedLine front.length = some (.behind (ended '\n' front) line) := by
  have hlength : (fromText text).bounds.length = front.length + (back.length + 1) := by
    rw [← lineCount, lineCount_fromText, h, List.length_append, List.length_cons]
  rw [clampedLine, hlength, min_eq_left (by omega), bounds_fromText h]

theorem lineStart_fromText {text : String} {front back : List (List Char)} {line : List Char}
    (h : textLines text = front ++ line :: back) :
    (fromText text).lineStart front.length = (ended '\n' front).length := by
  rw [lineStart, clampedLine_fromText h]
  rfl

theorem lineStart_zero (text : String) : (fromText text).lineStart 0 = 0 := by
  obtain ⟨line, back, h⟩ := List.exists_cons_of_ne_nil (List.splitOn_ne_nil '\n' text.toList)
  exact @lineStart_fromText text [] back line h

theorem lineEnd_fromText {text : String} {front back : List (List Char)} {line : List Char}
    (h : textLines text = front ++ line :: back) :
    (fromText text).lineEnd front.length = (ended '\n' front).length + line.length := by
  rw [lineEnd, clampedLine_fromText h]
  rfl

/-- A line that stands behind ended lines, whatever those are made of. -/
theorem line_behind {text : String} {pieces back : List (List Char)} {line : List Char}
    (htext : text.toList = ended '\n' pieces ++ (line ++ behind '\n' back))
    (hline : '\n' ∉ line) :
    (fromText text).line text ((ended '\n' pieces).count '\n') = some (String.ofList line) ∧
      (fromText text).lineStart ((ended '\n' pieces).count '\n') =
        (ended '\n' pieces).length := by
  let sides : Sides Char := ⟨ended '\n' pieces, line ++ behind '\n' back⟩
  obtain ⟨front, a, b, back', hcut⟩ := Sides.exists_cut '\n' sides
  have hlines : textLines text = front ++ (a ++ b) :: back' := by
    rw [textLines, htext]
    exact hcut.lines
  have ha : a = [] := by
    rw [← hcut.rtakeWhile, List.rtakeWhile, Sides.takeWhile_reverse_ended, List.reverse_nil]
  have hb : b = line := by
    have hinside : ∀ c ∈ line, (!(c == '\n')) = true := by
      intro c hc
      simpa using fun heq : c = '\n' => hline (heq ▸ hc)
    rw [← hcut.takeWhile, List.takeWhile_append_of_pos hinside, Sides.takeWhile_behind,
      List.append_nil]
  have hbefore : ended '\n' pieces = ended '\n' front := by
    have hsides : ended '\n' pieces = ended '\n' front ++ a := hcut.before
    rw [hsides, ha, List.append_nil]
  have hnumber : (ended '\n' pieces).count '\n' = front.length := hcut.line
  rw [hnumber, line_fromText, lineStart_fromText hlines, hbefore, hlines,
    List.getElem?_append_right (Nat.le_refl _), Nat.sub_self, List.getElem?_cons_zero, ha, hb]
  exact ⟨rfl, rfl⟩

/-! ## The index as a whole -/

/-- The entries are those of the lines: exact in characters and in bytes, one behind the
other, with the newline between. -/
structure Indexes (cache : LineCache) (text : String) : Prop where
  charLen : cache.charLen = text.toList.length
  lineCount : cache.lineCount = (textLines text).length
  line : ∀ n, cache.line text n = (textLines text)[n]?.map String.ofList
  extent : ∀ (n : Nat) (bounds : LineBounds), cache.bounds[n]? = some bounds →
    ∃ line, (textLines text)[n]? = some line ∧ bounds.charEnd = bounds.charStart + line.length ∧
      bounds.byteEnd = bounds.byteStart + byteLength line
  offset : ∀ (n : Nat) (bounds : LineBounds), cache.bounds[n]? = some bounds →
    bounds.byteStart = byteOffset text.toList bounds.charStart
  first : ∀ bounds : LineBounds, cache.bounds[0]? = some bounds →
    bounds.charStart = 0 ∧ bounds.byteStart = 0
  next : ∀ (n : Nat) (bounds following : LineBounds), cache.bounds[n]? = some bounds →
    cache.bounds[n + 1]? = some following →
      following.charStart = bounds.charEnd + 1 ∧ following.byteStart = bounds.byteEnd + 1 ∧
        text.toList[bounds.charEnd]? = some '\n'
  last : ∀ bounds : LineBounds, cache.bounds[cache.lineCount - 1]? = some bounds →
    bounds.charEnd = text.toList.length ∧ bounds.byteEnd = byteLength text.toList

theorem following_line {text : String} {front back : List (List Char)} {line next : List Char}
    (h : textLines text = front ++ line :: next :: back) :
    (fromText text).bounds[front.length + 1]? =
        some (.behind (ended '\n' front ++ line ++ ['\n']) next) ∧
      text.toList[(ended '\n' front ++ line).length]? = some '\n' := by
  constructor
  · have hnext : textLines text = (front ++ [line]) ++ next :: back := by
      rw [h, List.append_cons]
    have hbounds := bounds_fromText hnext
    rwa [List.length_append, List.length_singleton, ended_append, ended_cons, ended_nil,
      List.append_nil, ← List.append_assoc] at hbounds
  · have htext := text_of_lines h
    rw [htext, behind, ← List.append_assoc, List.getElem?_append_right (Nat.le_refl _),
      Nat.sub_self, List.getElem?_cons_zero]

theorem indexes_fromText (text : String) : (fromText text).Indexes text where
  charLen := charLen_fromText text
  lineCount := lineCount_fromText text
  line := line_fromText text
  extent n bounds h := by
    obtain ⟨front, line, back, hsplit, rfl, rfl⟩ := exists_line h
    refine ⟨line, ?_, rfl, rfl⟩
    rw [hsplit, List.getElem?_append_right (Nat.le_refl _), Nat.sub_self, List.getElem?_cons_zero]
  offset n bounds h := by
    obtain ⟨front, line, back, hsplit, rfl, rfl⟩ := exists_line h
    have htext := text_of_lines hsplit
    rw [LineBounds.behind, htext, byteOffset_append]
  first bounds h := by
    obtain ⟨front, line, back, -, hlength, rfl⟩ := exists_line h
    rw [List.length_eq_zero_iff.mp hlength]
    exact ⟨rfl, rfl⟩
  next n bounds following h hnext := by
    obtain ⟨front, line, rest, hsplit, rfl, rfl⟩ := exists_line h
    cases rest with
    | nil =>
      have hlt := (List.getElem?_eq_some_iff.mp hnext).1
      rw [← LineCache.lineCount, lineCount_fromText, hsplit, List.length_append,
        List.length_singleton] at hlt
      omega
    | cons line' back =>
      obtain ⟨hbounds, hnewline⟩ := following_line hsplit
      rw [hbounds] at hnext
      rw [← Option.some.inj hnext]
      refine ⟨?_, ?_, by rwa [List.length_append] at hnewline⟩
      · exact (by simp only [List.length_append, List.length_singleton] :
          (ended '\n' front ++ line ++ ['\n']).length = (ended '\n' front).length + line.length + 1)
      · exact (byteLength_snoc _ '\n').trans (by rw [byteLength_append]; rfl)
  last bounds h := by
    obtain ⟨front, line, back, hsplit, hlength, rfl⟩ := exists_line h
    rw [lineCount_fromText, hsplit, List.length_append, List.length_cons] at hlength
    have hback : back = [] := List.length_eq_zero_iff.mp (by omega)
    have htext := text_of_lines hsplit
    rw [hback, behind, List.append_nil] at htext
    rw [htext, List.length_append, byteLength_append]
    exact ⟨rfl, rfl⟩

/-- The index is right, and the search in it finds the one line a place is in. -/
theorem line_cache_indexes_text (text : String) :
    (fromText text).Indexes text ∧
      ∀ cursor ≤ (fromText text).charLen,
        (fromText text).Spans ((fromText text).lineForCursor cursor) cursor ∧
          (∀ n, (fromText text).Spans n cursor → n = (fromText text).lineForCursor cursor) ∧
            min (partitionPoint (fun bounds : LineBounds => decide (bounds.charEnd < cursor))
                (fromText text).bounds) ((fromText text).lineCount - 1) =
              (fromText text).lineForCursor cursor := by
  refine ⟨indexes_fromText text, fun cursor hcursor => ?_⟩
  rw [charLen_fromText] at hcursor
  let sides : Sides Char := ⟨text.toList.take cursor, text.toList.drop cursor⟩
  have htext : text.toList = sides.text := (List.take_append_drop cursor text.toList).symm
  obtain ⟨front, a, b, back, hcut⟩ := Sides.exists_cut '\n' sides
  have hspans := spans_of_cut htext hcut
  rw [List.length_take, min_eq_left hcursor] at hspans
  have hfound := lineForCursor_of_spans hspans
  refine ⟨hfound ▸ hspans, fun n hn => (lineForCursor_of_spans hn).symm, ?_⟩
  rw [partitionPoint_eq (partitioned_fromText text cursor)]
  rfl

theorem cursor_on_the_empty_last_line : (fromText "ä\n").Spans 1 2 :=
  ((line_cache_indexes_text "ä\n").2 2 (by decide)).1

end LineCache

end Postblox.Tui
