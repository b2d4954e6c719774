import Postblox.Tui.LineLookups
import Postblox.Tui.PlainEditor

/-!
# The composer edits like a plain editor

Every function of the composer does to the texts and cursors what the plain editor does to
its sides, and none of its byte offsets is inside a character. The view of the body shows
the line of the cursor.
-/
namespace Postblox.Tui

open Lib

/-! ## Texts at character positions -/

theorem insertAt_sides {value : String} {s : Sides Char} (h : value.toList = s.text) (ch : Char) :
    insertAt value (charToByteIndex value s.before.length) ch =
      some (String.ofList (s.insert ch).text) := by
  rw [insertAt, charToByteIndex, cutAtByte_byteOffset, h, Sides.text, List.take_left,
    List.drop_left, Option.map_some, Sides.insert, Sides.text, List.append_assoc,
    List.singleton_append]

theorem removeRange_append {value : String} {a b c : List Char} (h : value.toList = a ++ (b ++ c)) :
    removeRange value (charToByteIndex value a.length) (charToByteIndex value (a ++ b).length) =
      some (String.ofList (a ++ c)) := by
  have hfirst : charToByteIndex value a.length = byteLength a := by
    rw [charToByteIndex, h, byteOffset_append]
  have hlast : charToByteIndex value (a ++ b).length = byteLength a + byteLength b := by
    rw [charToByteIndex, h, ← List.append_assoc, byteOffset_append, byteLength_append]
  rw [removeRange, hfirst, hlast, h, cutAtByte_append, Nat.add_sub_cancel_left]
  simp only [Option.bind_eq_bind, Option.bind_some, cutAtByte_append, Option.pure_def]

namespace ComposerState

/-! ## Frames -/

section Frames

variable (c : ComposerState)

theorem focusedText_eq : c.focusedText = c.textOf c.focused := by
  unfold focusedText textOf
  cases c.focused <;> rfl

theorem focusedCursor_eq : c.focusedCursor = c.cursorOf c.focused := by
  unfold focusedCursor cursorOf
  cases c.focused <;> rfl

theorem textOf_setFocused (text : String) (cursor : Nat) (field : ComposeField) :
    (c.setFocused text cursor).textOf field =
      if field = c.focused then text else c.textOf field := by
  unfold setFocused textOf
  cases c.focused <;> cases field <;> rfl

theorem cursorOf_setFocused (text : String) (cursor : Nat) (field : ComposeField) :
    (c.setFocused text cursor).cursorOf field =
      if field = c.focused then cursor else c.cursorOf field := by
  unfold setFocused cursorOf
  cases c.focused <;> cases field <;> rfl

/-- What writing the focused field leaves alone. -/
theorem setFocused_frame (text : String) (cursor : Nat) :
    (c.setFocused text cursor).focused = c.focused ∧
      (c.setFocused text cursor).bodyPreferredColumn = c.bodyPreferredColumn ∧
        (c.setFocused text cursor).bodyLineCache = c.bodyLineCache := by
  unfold setFocused
  cases c.focused <;> exact ⟨rfl, rfl, rfl⟩

theorem setFocused_self : c.setFocused c.focusedText c.focusedCursor = c := by
  rcases c with ⟨_, _, focused⟩
  cases focused <;> rfl

/-- Two composers with the same texts, cursors and focus. -/
structure SameFields (c d : ComposerState) : Prop where
  text : ∀ field, c.textOf field = d.textOf field
  cursor : ∀ field, c.cursorOf field = d.cursorOf field
  focused : c.focused = d.focused

theorem sameFields_clearBodySelection : c.clearBodySelection.1.SameFields c :=
  ⟨fun field => by cases field <;> rfl, fun field => by cases field <;> rfl, rfl⟩

theorem sameFields_ensureBodyCursorVisible (viewportHeight : Nat) :
    (c.ensureBodyCursorVisible viewportHeight).SameFields c :=
  ⟨fun field => by cases field <;> rfl, fun field => by cases field <;> rfl, rfl⟩

theorem sameFields_refreshBodyLineCache :
    { c.refreshBodyLineCache with bodyPreferredColumn := none }.SameFields c :=
  ⟨fun field => by cases field <;> rfl, fun field => by cases field <;> rfl, rfl⟩

theorem SameFields.trans {c d b : ComposerState} (h : c.SameFields d) (h' : d.SameFields b) :
    c.SameFields b where
  text field := (h.text field).trans (h'.text field)
  cursor field := (h.cursor field).trans (h'.cursor field)
  focused := h.focused.trans h'.focused

theorem sameFields_afterTextEdit : c.afterTextEdit.SameFields c := by
  unfold afterTextEdit
  split_ifs
  · exact ((sameFields_ensureBodyCursorVisible _ 1).trans (sameFields_clearBodySelection _)).trans
      (sameFields_refreshBodyLineCache c)
  · exact ⟨fun _ => rfl, fun _ => rfl, rfl⟩

theorem sameFields_resetBodyNavigationState : c.resetBodyNavigationState.SameFields c := by
  unfold resetBodyNavigationState
  split_ifs
  · exact ⟨fun field => by cases field <;> rfl, fun field => by cases field <;> rfl, rfl⟩
  · exact ⟨fun _ => rfl, fun _ => rfl, rfl⟩

theorem preferred_afterTextEdit : c.afterTextEdit.bodyPreferredColumn =
    if c.focused = .body then none else c.bodyPreferredColumn := by
  unfold afterTextEdit
  split_ifs
  · rfl
  · rfl

theorem lines_afterTextEdit : c.afterTextEdit.bodyLineCache =
    if c.focused = .body then .fromText c.body else c.bodyLineCache := by
  unfold afterTextEdit
  split_ifs
  · rfl
  · rfl

theorem preferred_resetBodyNavigationState : c.resetBodyNavigationState.bodyPreferredColumn =
    if c.focused = .body then none else c.bodyPreferredColumn := by
  unfold resetBodyNavigationState
  split_ifs
  · rfl
  · rfl

theorem lines_resetBodyNavigationState :
    c.resetBodyNavigationState.bodyLineCache = c.bodyLineCache := by
  unfold resetBodyNavigationState
  split_ifs
  · rfl
  · rfl

end Frames

/-! ## What an edit writes -/

variable {c d : ComposerState} {e : PlainEditor}

theorem Shows.focusedText (h : c.Shows e) : c.focusedText.toList = e.here.text := by
  rw [focusedText_eq, h.text, h.focused]
  rfl

theorem Shows.focusedCursor (h : c.Shows e) : c.focusedCursor = e.here.before.length := by
  rw [focusedCursor_eq, h.cursor, h.focused]
  rfl

theorem Shows.charCount (h : c.Shows e) : charCount c.focusedText = e.here.text.length := by
  rw [Tui.charCount, h.focusedText]

/-- The cursor is in the field, so it is not clamped. -/
theorem Shows.current (h : c.Shows e) :
    min c.focusedCursor (Tui.charCount c.focusedText) = e.here.before.length := by
  rw [h.focusedCursor, h.charCount, Sides.text, List.length_append]
  omega

theorem put_fields (e : PlainEditor) (sides : Sides Char) (field : ComposeField) :
    (e.put sides).fields field = if field = e.focused then sides else e.fields field :=
  Function.update_apply _ _ _ _

/-- No column is kept while another field than the body has the focus. -/
theorem Shows.preferred_eq (h : c.Shows e) :
    (if c.focused = .body then none else c.bodyPreferredColumn) = none := by
  split_ifs with hbody
  · rfl
  · rw [h.preferred, h.resting (h.focused ▸ hbody)]

theorem Shows.setFocused_text (h : c.Shows e) {sides : Sides Char} {text : String}
    (htext : text.toList = sides.text) (field : ComposeField) :
    ((c.setFocused text sides.before.length).textOf field).toList =
        ((e.put sides).fields field).text ∧
      (c.setFocused text sides.before.length).cursorOf field =
        ((e.put sides).fields field).before.length := by
  rw [textOf_setFocused, cursorOf_setFocused, put_fields, h.focused]
  split_ifs
  · exact ⟨htext, rfl⟩
  · exact ⟨h.text field, h.cursor field⟩

/-- A text edit. -/
theorem Shows.edited (h : c.Shows e) {sides : Sides Char} {text : String}
    (htext : text.toList = sides.text) :
    (c.setFocused text sides.before.length).afterTextEdit.Shows (e.put sides) := by
  have hsame := sameFields_afterTextEdit (c.setFocused text sides.before.length)
  obtain ⟨hfocused, hpreferred, hlines⟩ := setFocused_frame c text sides.before.length
  refine ⟨?_, ?_, ?_, ?_, fun _ => rfl, ?_⟩
  · intro field
    rw [hsame.text]
    exact (h.setFocused_text htext field).1
  · intro field
    rw [hsame.cursor]
    exact (h.setFocused_text htext field).2
  · rw [hsame.focused, hfocused]
    exact h.focused
  · rw [preferred_afterTextEdit, hfocused, hpreferred]
    exact h.preferred_eq
  · have hbody := hsame.text .body
    rw [lines_afterTextEdit, hfocused, hlines]
    split_ifs with hfocus
    · exact congrArg LineCache.fromText hbody.symm
    · have hkept : (c.setFocused text sides.before.length).textOf .body = c.textOf .body := by
        rw [textOf_setFocused, if_neg (Ne.symm hfocus)]
      exact h.lines.trans (congrArg LineCache.fromText (hbody.trans hkept).symm)

/-- A move of the cursor that is a change. -/
theorem Shows.moved (h : c.Shows e) {sides : Sides Char} (htext : sides.text = e.here.text) :
    (c.setFocused c.focusedText sides.before.length).resetBodyNavigationState.Shows
      (e.put sides) := by
  have hsame := sameFields_resetBodyNavigationState
    (c.setFocused c.focusedText sides.before.length)
  obtain ⟨hfocused, hpreferred, hlines⟩ := setFocused_frame c c.focusedText sides.before.length
  have hsides : c.focusedText.toList = sides.text := h.focusedText.trans htext.symm
  refine ⟨?_, ?_, ?_, ?_, fun _ => rfl, ?_⟩
  · intro field
    rw [hsame.text]
    exact (h.setFocused_text hsides field).1
  · intro field
    rw [hsame.cursor]
    exact (h.setFocused_text hsides field).2
  · rw [hsame.focused, hfocused]
    exact h.focused
  · rw [preferred_resetBodyNavigationState, hfocused, hpreferred]
    exact h.preferred_eq
  · have hbody := hsame.text .body
    have hkept : (c.setFocused c.focusedText sides.before.length).textOf .body = c.textOf .body := by
      rw [textOf_setFocused]
      split_ifs with hfocus
      · rw [focusedText_eq, hfocus]
      · rfl
    rw [lines_resetBodyNavigationState, hlines, h.lines]
    exact congrArg LineCache.fromText (hbody.trans hkept).symm

/-- Writing back what is there. -/
theorem Shows.kept (h : c.Shows e) :
    (c.setFocused c.focusedText e.here.before.length).Shows e := by
  rw [← h.focusedCursor, setFocused_self]
  exact h

theorem Shows.unchanged (h : c.Shows e) {f : Sides Char → Sides Char} (hsame : f e.here = e.here) :
    c.Shows (e.change f) := by
  rw [PlainEditor.change, if_pos hsame]
  exact h

theorem change_of_ne {f : Sides Char → Sides Char} (hne : f e.here ≠ e.here) :
    e.change f = e.put (f e.here) := if_neg hne

/-! ## Edits -/

theorem Shows.insertFocusedChar (h : c.Shows e) (ch : Char) :
    ∃ c', c.insertFocusedChar ch = some c' ∧ c'.Shows (e.put (e.here.insert ch)) := by
  have hcursor : (e.here.insert ch).before.length = e.here.before.length + 1 := by
    rw [Sides.insert, List.length_append, List.length_singleton]
  refine ⟨_, ?_, h.edited (String.toList_ofList)⟩
  rw [ComposerState.insertFocusedChar, h.current, insertAt_sides h.focusedText, hcursor]
  rfl

theorem insertBodyNewline_eq (hbody : c.focused = .body) :
    c.insertBodyNewline = c.insertFocusedChar '\n' := by
  rcases c with ⟨_, _, focused⟩
  obtain rfl : focused = .body := hbody
  rfl

theorem Shows.removeFocused (h : c.Shows e) {front gone back : List Char}
    (htext : e.here.text = front ++ (gone ++ back)) :
    ∃ c', c.removeFocused front.length (front ++ gone).length = some c' ∧
      c'.Shows (e.put ⟨front, back⟩) := by
  have hcut := removeRange_append (h.focusedText.trans htext)
  refine ⟨_, ?_, @Shows.edited _ _ h ⟨front, back⟩ _ (String.toList_ofList)⟩
  rw [ComposerState.removeFocused, hcut]
  rfl

theorem Shows.backspace (h : c.Shows e) :
    ∃ c', c.deleteBeforeFocusedCursor.map (·.1) = some c' ∧
      c'.Shows (e.change Sides.backspace) := by
  unfold deleteBeforeFocusedCursor
  rw [h.current]
  rcases List.eq_nil_or_concat e.here.before with hnil | ⟨front, last, hbefore⟩
  · have hsame : e.here.backspace = e.here := by
      rw [Sides.backspace, hnil, List.dropLast_nil, ← hnil]
    have hkept := h.kept
    rw [hnil, List.length_nil] at hkept
    rw [hnil, List.length_nil, if_pos rfl]
    exact ⟨_, rfl, hkept.unchanged hsame⟩
  · rw [List.concat_eq_append] at hbefore
    have htext : e.here.text = front ++ ([last] ++ e.here.after) := by
      rw [Sides.text, hbefore, List.append_assoc]
    have hlength : e.here.before.length = front.length + 1 := by
      rw [hbefore, List.length_append, List.length_singleton]
    have hsides : e.here.backspace = ⟨front, e.here.after⟩ := by
      rw [Sides.backspace, hbefore, List.dropLast_concat]
    have hne : e.here.backspace ≠ e.here := by
      intro heq
      have hbad := congrArg (fun sides : Sides Char => sides.before.length) heq
      rw [hsides] at hbad
      simp only [hlength] at hbad
      omega
    obtain ⟨c', hc', hshows⟩ := h.removeFocused htext
    rw [← hbefore] at hc'
    rw [if_neg (by omega), hlength, Nat.add_sub_cancel, ← hlength, hc', change_of_ne hne, hsides]
    exact ⟨c', rfl, hshows⟩

theorem Shows.deleteAt (h : c.Shows e) :
    ∃ c', c.deleteAtFocusedCursor.map (·.1) = some c' ∧ c'.Shows (e.change Sides.delete) := by
  unfold deleteAtFocusedCursor
  dsimp only
  rw [h.current, h.charCount]
  have hlength : e.here.text.length = e.here.before.length + e.here.after.length := by
    rw [Sides.text, List.length_append]
  cases hafter : e.here.after with
  | nil =>
    rw [hafter, List.length_nil] at hlength
    have hsame : e.here.delete = e.here := by
      rw [Sides.delete, hafter, List.tail_nil, ← hafter]
    rw [hlength, if_pos (by omega), Nat.add_zero]
    exact ⟨_, rfl, h.kept.unchanged hsame⟩
  | cons next back =>
    rw [hafter, List.length_cons] at hlength
    have htext : e.here.text = e.here.before ++ ([next] ++ back) := by
      rw [Sides.text, hafter]
      rfl
    have hsides : e.here.delete = ⟨e.here.before, back⟩ := by
      rw [Sides.delete, hafter, List.tail_cons]
    have hne : e.here.delete ≠ e.here := by
      intro heq
      have hbad := congrArg (fun sides : Sides Char => sides.after.length) heq
      rw [hsides] at hbad
      simp only [hafter, List.length_cons] at hbad
      omega
    obtain ⟨c', hc', hshows⟩ := h.removeFocused htext
    rw [List.length_append, List.length_singleton] at hc'
    rw [if_neg (by omega), hc', change_of_ne hne, hsides]
    exact ⟨c', rfl, hshows⟩

theorem Shows.deleteWord (h : c.Shows e) :
    ∃ c', c.deleteWordBeforeCursor.map (·.1) = some c' ∧
      c'.Shows (e.change (Sides.deleteWord Mail.isWhitespace)) := by
  have htake : c.focusedText.toList.take e.here.before.length = e.here.before := by
    rw [h.focusedText, Sides.text, List.take_left]
  have hprefix : (e.here.deleteWord Mail.isWhitespace).before <+: e.here.before :=
    (List.rdropWhile_prefix _ _).trans (List.rdropWhile_prefix _ _)
  obtain ⟨gone, hgone⟩ := hprefix
  have hstart : wordStart e.here.before = (e.here.deleteWord Mail.isWhitespace).before.length := rfl
  have hlength := congrArg List.length hgone
  rw [List.length_append] at hlength
  unfold deleteWordBeforeCursor
  dsimp only
  rw [h.current, htake, hstart]
  by_cases hnone : gone = []
  · rw [hnone, List.append_nil] at hgone
    have hsame : e.here.deleteWord Mail.isWhitespace = e.here := Sides.ext hgone rfl
    rw [hgone, if_pos rfl]
    split_ifs with hempty
    · have hkept := h.kept
      rw [hempty] at hkept
      exact ⟨_, rfl, hkept.unchanged hsame⟩
    · exact ⟨c, rfl, h.unchanged hsame⟩
  · have hpos := List.length_pos_iff.mpr hnone
    have htext : e.here.text =
        (e.here.deleteWord Mail.isWhitespace).before ++ (gone ++ e.here.after) := by
      rw [← List.append_assoc, hgone]
      rfl
    have hne : e.here.deleteWord Mail.isWhitespace ≠ e.here := by
      intro heq
      rw [heq] at hlength
      omega
    obtain ⟨c', hc', hshows⟩ := h.removeFocused htext
    rw [hgone] at hc'
    rw [if_neg (by omega), if_neg (by omega), hc', change_of_ne hne]
    exact ⟨c', rfl, hshows⟩

/-! ## Moves -/

theorem Shows.left (h : c.Shows e) : c.moveFocusedCursorLeft.1.Shows (e.change Sides.left) := by
  unfold moveFocusedCursorLeft
  rw [h.focusedCursor]
  rcases List.eq_nil_or_concat e.here.before with hnil | ⟨front, last, hbefore⟩
  · have hsame : e.here.left = e.here := by
      rw [Sides.left, hnil]
      exact Sides.ext hnil.symm rfl
    rw [if_pos (by rw [hnil]; rfl)]
    exact h.unchanged hsame
  · have hlength : e.here.before.length = front.length + 1 := by
      rw [hbefore, List.length_concat]
    have hbehind : e.here.left.before.length = e.here.before.length - 1 := by
      rw [Sides.left, List.length_dropLast]
    have hne : e.here.left ≠ e.here := by
      intro heq
      rw [heq] at hbehind
      omega
    have hmoved := h.moved (Sides.text_left e.here)
    rw [hbehind] at hmoved
    rw [if_neg (by omega), change_of_ne hne]
    exact hmoved

theorem Shows.right (h : c.Shows e) : c.moveFocusedCursorRight.1.Shows (e.change Sides.right) := by
  have hlength : e.here.text.length = e.here.before.length + e.here.after.length := by
    rw [Sides.text, List.length_append]
  unfold moveFocusedCursorRight
  rw [fieldLen, h.current, h.charCount]
  dsimp only
  cases hafter : e.here.after with
  | nil =>
    rw [hafter, List.length_nil] at hlength
    have hsame : e.here.right = e.here := by
      rw [Sides.right, hafter]
      exact Sides.ext (List.append_nil _) hafter.symm
    rw [hlength, if_pos (by omega), Nat.add_zero]
    exact h.kept.unchanged hsame
  | cons next back =>
    rw [hafter, List.length_cons] at hlength
    have hahead : e.here.right.before.length = e.here.before.length + 1 := by
      rw [Sides.right, hafter, List.head?_cons, Option.toList_some, List.length_append,
        List.length_singleton]
    have hne : e.here.right ≠ e.here := by
      intro heq
      rw [heq] at hahead
      omega
    have hmoved := h.moved (Sides.text_right e.here)
    rw [hahead] at hmoved
    rw [if_neg (by omega), change_of_ne hne]
    exact hmoved

/-- The cursor goes to the cut of another pair of sides of the same text. -/
theorem Shows.setFocusedCursor (h : c.Shows e) {f : Sides Char → Sides Char}
    (htext : (f e.here).text = e.here.text) :
    (c.setFocusedCursor (f e.here).before.length).1.Shows (e.change f) := by
  have hlength : (f e.here).before.length ≤ e.here.text.length := by
    rw [← htext, Sides.text, List.length_append]
    omega
  unfold ComposerState.setFocusedCursor
  rw [fieldLen, h.current, h.charCount, min_eq_left hlength]
  dsimp only
  by_cases heq : (f e.here).before.length = e.here.before.length
  · have hsides := List.append_inj htext heq
    have hsame : f e.here = e.here := Sides.ext hsides.1 hsides.2
    rw [if_pos heq.symm, heq]
    exact h.kept.unchanged hsame
  · have hne : f e.here ≠ e.here := fun hsame => heq (by rw [hsame])
    rw [if_neg (Ne.symm heq), change_of_ne hne]
    exact h.moved htext

/-! ## The lines of the body -/

/-- The sides of the body. -/
theorem Shows.bodyText (h : c.Shows e) : c.body.toList = (e.fields .body).text := h.text .body

theorem Shows.bodyLines (h : c.Shows e) : textLines c.body = (e.fields .body).lines '\n' := by
  rw [textLines, h.bodyText]
  rfl

/-- Where the index finds the cursor of the body. -/
theorem Shows.cursorLine (h : c.Shows e) :
    c.bodyCursorLineColumn.1 = (e.fields .body).line '\n' := by
  obtain ⟨front, a, b, back, hcut⟩ := Sides.exists_cut '\n' (e.fields .body)
  have hcursor : c.bodyCursor = (e.fields .body).before.length := h.cursor .body
  have hlength : (e.fields .body).before.length ≤ c.body.toList.length := by
    rw [h.bodyText, Sides.text, List.length_append]
    omega
  have hspans := LineCache.spans_of_cut h.bodyText hcut
  rw [bodyCursorLineColumn, h.lines, hcursor, LineCache.charLen_fromText, min_eq_left hlength,
    LineCache.lineForCursor_of_spans hspans, hcut.line]

/-- The line and the column of the cursor. -/
theorem Shows.cursorLineColumn (h : c.Shows e) :
    c.bodyCursorLineColumn =
      ((e.fields .body).line '\n', (e.fields .body).column '\n') := by
  obtain ⟨front, a, b, back, hcut⟩ := Sides.exists_cut '\n' (e.fields .body)
  have hlines : textLines c.body = front ++ (a ++ b) :: back := h.bodyLines.trans hcut.lines
  have hline := h.cursorLine
  have hcursor : c.bodyCursor = (e.fields .body).before.length := h.cursor .body
  have hlength : (e.fields .body).before.length ≤ c.body.toList.length := by
    rw [h.bodyText, Sides.text, List.length_append]
    omega
  have hstart : c.bodyLineCache.lineStart c.bodyCursorLineColumn.1 =
      (ended '\n' front).length := by
    rw [hline, hcut.line, h.lines, LineCache.lineStart_fromText hlines]
  have hcolumn : c.bodyCursorLineColumn.2 = a.length := by
    show min c.bodyCursor c.bodyLineCache.charLen -
      c.bodyLineCache.lineStart c.bodyCursorLineColumn.1 = a.length
    rw [hstart, h.lines, hcursor, LineCache.charLen_fromText, min_eq_left hlength, hcut.before,
      List.length_append, Nat.add_sub_cancel_left]
  rw [hcut.column, ← hcolumn, ← hline]

theorem here_of_body (hbody : e.focused = .body) : e.here = e.fields .body := by
  rw [PlainEditor.here, hbody]

theorem Shows.home (h : c.Shows e) :
    c.moveFocusedCursorHome.1.Shows
      (e.change (if e.focused = .body then Sides.toLineStart '\n' else Sides.toStart)) := by
  unfold moveFocusedCursorHome
  rw [h.focused]
  split_ifs with hbody
  · obtain ⟨front, a, b, back, hcut⟩ := Sides.exists_cut '\n' (e.fields .body)
    have hlines : textLines c.body = front ++ (a ++ b) :: back := h.bodyLines.trans hcut.lines
    have hplace : c.bodyLineCache.lineStart c.bodyCursorLineColumn.1 =
        (Sides.toLineStart '\n' e.here).before.length := by
      rw [h.cursorLine, hcut.line, h.lines, LineCache.lineStart_fromText hlines,
        here_of_body hbody, hcut.toLineStart]
    rw [hplace]
    exact h.setFocusedCursor (Sides.text_toLineStart e.here)
  · exact h.setFocusedCursor (f := Sides.toStart) (Sides.text_toStart e.here)

theorem Shows.last (h : c.Shows e) :
    c.moveFocusedCursorEnd.1.Shows
      (e.change (if e.focused = .body then Sides.toLineEnd '\n' else Sides.toEnd)) := by
  unfold moveFocusedCursorEnd
  rw [h.focused]
  split_ifs with hbody
  · obtain ⟨front, a, b, back, hcut⟩ := Sides.exists_cut '\n' (e.fields .body)
    have hlines : textLines c.body = front ++ (a ++ b) :: back := h.bodyLines.trans hcut.lines
    have hplace : c.bodyLineCache.lineEnd c.bodyCursorLineColumn.1 =
        (Sides.toLineEnd '\n' e.here).before.length := by
      rw [h.cursorLine, hcut.line, h.lines, LineCache.lineEnd_fromText hlines,
        here_of_body hbody, hcut.toLineEnd]
      exact List.length_append.symm
    rw [hplace]
    exact h.setFocusedCursor (Sides.text_toLineEnd e.here)
  · rw [fieldLen, h.charCount]
    exact h.setFocusedCursor (f := Sides.toEnd) (Sides.text_toEnd e.here)

/-- The line a move goes to. -/
theorem Shows.nextLine (h : c.Shows e) (delta : Int) :
    (if delta < 0 then (e.fields .body).line '\n' - delta.natAbs
      else min ((e.fields .body).line '\n' + delta.toNat) (c.bodyLineCache.lineCount - 1)) =
      (e.fields .body).lineBeside '\n' delta := by
  rw [h.lines, LineCache.lineCount_fromText, h.bodyLines]
  rfl

/-- The cursor at a column of another line, or at its end. -/
theorem Shows.place (h : c.Shows e) {n : Nat} (hn : n < ((e.fields .body).lines '\n').length)
    (column : Nat) :
    c.bodyLineCache.lineStart n + min column (c.bodyLineLen n) =
      ((e.fields .body).toPlace '\n' n column).before.length := by
  obtain ⟨line, hline⟩ : ∃ line, ((e.fields .body).lines '\n')[n]? = some line :=
    ⟨_, List.getElem?_eq_getElem hn⟩
  have hlines : textLines c.body = ((e.fields .body).lines '\n').take n ++
      line :: ((e.fields .body).lines '\n').drop (n + 1) := by
    have hget : ((e.fields .body).lines '\n')[n] = line := (List.getElem?_eq_some_iff.mp hline).2
    rw [← hget, List.cons_getElem_drop_succ, List.take_append_drop]
    exact h.bodyLines
  have hlength : (((e.fields .body).lines '\n').take n).length = n := by
    rw [List.length_take]
    omega
  have hstart := LineCache.lineStart_fromText hlines
  have hend := LineCache.lineEnd_fromText hlines
  rw [hlength] at hstart hend
  rw [bodyLineLen, h.lines, hstart, hend, Nat.add_sub_cancel_left, Sides.toPlace, hline,
    Option.getD_some, List.length_append, List.length_take]

/-- A move up or down. -/
theorem Shows.moveLine (h : c.Shows e) (delta : Int) (viewportHeight : Nat) :
    (c.moveBodyLine delta viewportHeight).1.Shows (e.moveLine delta) := by
  have hin : (e.fields .body).lineBeside '\n' delta < ((e.fields .body).lines '\n').length :=
    Sides.lineBeside_lt delta (e.fields .body)
  unfold moveBodyLine PlainEditor.moveLine
  rw [h.focused]
  by_cases hbody : e.focused = .body
  · rw [if_neg (not_not.mpr hbody), if_pos hbody, h.cursorLineColumn]
    dsimp only
    rw [h.nextLine, h.place hin, h.preferred, here_of_body hbody]
    generalize e.preferred.getD ((e.fields .body).column '\n') = column
    have htext := Sides.text_toPlace hin column
    refine ⟨?_, ?_, rfl, rfl, fun hother => absurd hbody hother, h.lines⟩
    · intro field
      rw [put_fields, hbody]
      by_cases hfield : field = .body
      · rw [if_pos hfield, hfield, htext]
        exact h.text .body
      · rw [if_neg hfield, ← h.text field]
        cases field <;> rfl
    · intro field
      rw [put_fields, hbody]
      by_cases hfield : field = .body
      · rw [if_pos hfield, hfield]
        rfl
      · rw [if_neg hfield, ← h.cursor field]
        cases field with
        | body => exact absurd rfl hfield
        | toLine => rfl
        | ccLine => rfl
        | bccLine => rfl
        | subject => rfl
  · rw [if_pos hbody, if_neg hbody]
    exact h

/-! ## Focus and selection -/

/-- A change of the focus or of the selection keeps the texts and the cursors. -/
theorem Shows.refocused (h : c.Shows e) {e' : PlainEditor}
    (htext : ∀ field, d.textOf field = c.textOf field)
    (hcursor : ∀ field, d.cursorOf field = c.cursorOf field)
    (hlines : d.bodyLineCache = c.bodyLineCache) (hfields : e'.fields = e.fields)
    (hfocused : d.focused = e'.focused) (hpreferred : d.bodyPreferredColumn = e'.preferred)
    (hresting : e'.focused ≠ .body → e'.preferred = none) : d.Shows e' where
  text field := by rw [htext, hfields, h.text]
  cursor field := by rw [hcursor, hfields, h.cursor]
  focused := hfocused
  preferred := hpreferred
  resting := hresting
  lines := by
    rw [hlines, h.lines]
    exact congrArg LineCache.fromText (htext .body).symm

theorem Shows.focusField (h : c.Shows e) (step : ComposeField → ComposeField) :
    (c.focusField step).Shows (e.focus (step e.focused)) :=
  h.refocused (fun field => by cases field <;> rfl) (fun field => by cases field <;> rfl) rfl rfl
    (congrArg step h.focused) rfl (fun _ => rfl)

/-- A selection of lines changes no text and moves no cursor. -/
theorem Shows.select (h : c.Shows e) (anchor : Option Nat) (focus : Nat) :
    { c with bodySelectionAnchor := anchor, bodySelectionFocus := focus }.Shows e :=
  h.refocused (fun field => by cases field <;> rfl) (fun field => by cases field <;> rfl) rfl rfl
    h.focused h.preferred h.resting

theorem Shows.clearSelection (h : c.Shows e) : c.clearBodySelection.1.Shows e := h.select _ _

theorem Shows.startSelection (h : c.Shows e) : c.startBodyLineSelection.1.Shows e := by
  unfold startBodyLineSelection
  split_ifs
  · exact h
  · exact h.select _ _

theorem Shows.toggleSelection (h : c.Shows e) : c.toggleBodyLineSelection.1.Shows e := by
  unfold toggleBodyLineSelection
  split_ifs
  · exact h
  · exact h.clearSelection
  · exact h.select _ _

/-! ## Runs -/

theorem Shows.step (h : c.Shows e) (edit : Edit) :
    ∃ c', c.apply edit = some c' ∧ c'.Shows (e.apply edit) := by
  cases edit with
  | insert ch => exact h.insertFocusedChar ch
  | enter =>
    by_cases hbody : e.focused = .body
    · have hfocus : c.focused = .body := h.focused.trans hbody
      obtain ⟨c', hc', hshows⟩ := h.insertFocusedChar '\n'
      refine ⟨c', ?_, ?_⟩
      · rw [ComposerState.apply, if_pos hfocus, insertBodyNewline_eq hfocus, hc']
      · rw [PlainEditor.apply, if_pos hbody]
        exact hshows
    · have hfocus : ¬ c.focused = .body := fun heq => hbody (h.focused.symm.trans heq)
      refine ⟨{ c with focused := c.focused.next }, ?_, ?_⟩
      · rw [ComposerState.apply, if_neg hfocus]
      · rw [PlainEditor.apply, if_neg hbody, ← h.focused]
        have hnone : c.bodyPreferredColumn = none := h.preferred.trans (h.resting hbody)
        exact h.refocused (fun field => by cases field <;> rfl)
          (fun field => by cases field <;> rfl) rfl rfl rfl hnone (fun _ => rfl)
  | backspace => exact h.backspace
  | delete => exact h.deleteAt
  | deleteWord => exact h.deleteWord
  | left => exact ⟨_, rfl, h.left⟩
  | right => exact ⟨_, rfl, h.right⟩
  | home => exact ⟨_, rfl, h.home⟩
  | last => exact ⟨_, rfl, h.last⟩
  | move delta viewportHeight => exact ⟨_, rfl, h.moveLine delta viewportHeight⟩
  | next => exact ⟨_, rfl, h.focusField ComposeField.next⟩
  | previous => exact ⟨_, rfl, h.focusField ComposeField.previous⟩
  | startSelection => exact ⟨_, rfl, h.startSelection⟩
  | toggleSelection => exact ⟨_, rfl, h.toggleSelection⟩
  | clearSelection => exact ⟨_, rfl, h.clearSelection⟩

theorem Shows.run (h : c.Shows e) (edits : List Edit) :
    ∃ c', c.applyAll edits = some c' ∧ c'.Shows (e.run edits) := by
  induction edits generalizing c e with
  | nil => exact ⟨c, rfl, h⟩
  | cons edit rest ih =>
    obtain ⟨c₁, hc₁, hshows⟩ := h.step edit
    obtain ⟨c', hc', hrun⟩ := ih hshows
    refine ⟨c', ?_, hrun⟩
    rw [applyAll, hc₁, Option.bind_some, hc']

/-! ## The view of the body -/

theorem Shows.cursorLine_lt (h : c.Shows e) :
    c.bodyCursorLineColumn.1 < c.bodyLineCache.lineCount := by
  have hpos := LineCache.lineCount_pos c.body
  rw [← h.lines] at hpos
  rw [bodyCursorLineColumn, LineCache.lineForCursor]
  rw [LineCache.lineCount] at hpos ⊢
  omega

/-- The window that the scroll position selects has the line of the cursor. -/
theorem Shows.visible (h : c.Shows e) (viewportHeight : Nat) :
    c.bodyVisibleScroll viewportHeight ≤ c.bodyCursorLineColumn.1 ∧
      c.bodyCursorLineColumn.1 < c.bodyVisibleScroll viewportHeight + max viewportHeight 1 := by
  have hline := h.cursorLine_lt
  unfold bodyVisibleScroll
  dsimp only
  split_ifs
  · omega
  · omega
  · omega

/-! ## The three ways to open a composer -/

/-- The editor that a composer shows: its texts cut at their cursors. -/
def editor (c : ComposerState) : PlainEditor where
  fields field := ⟨(c.textOf field).toList.take (c.cursorOf field),
    (c.textOf field).toList.drop (c.cursorOf field)⟩
  focused := c.focused
  preferred := c.bodyPreferredColumn

theorem shows_editor (hcursor : ∀ field, c.cursorOf field ≤ charCount (c.textOf field))
    (hcolumn : c.bodyPreferredColumn = none) (hlines : c.bodyLineCache = .fromText c.body) :
    c.Shows c.editor where
  text field := (List.take_append_drop _ _).symm
  cursor field := by
    have hle : c.cursorOf field ≤ (c.textOf field).toList.length := hcursor field
    exact ((List.length_take).trans (min_eq_left hle)).symm
  focused := rfl
  preferred := rfl
  resting _ := hcolumn
  lines := hlines

theorem Opened.shows (h : Opened c) : c.Shows c.editor := by
  cases h with
  | new accountId =>
    exact shows_editor (fun field => by cases field <;> exact Nat.zero_le _) rfl rfl
  | prefill accountId prefill =>
    exact shows_editor (fun field => by cases field <;> exact Nat.le_refl _) rfl rfl
  | draft draftId draft focus =>
    refine shows_editor (fun field => ?_) rfl rfl
    cases field with
    | body => exact Nat.zero_le _
    | toLine => exact Nat.le_refl _
    | ccLine => exact Nat.le_refl _
    | bccLine => exact Nat.le_refl _
    | subject => exact Nat.le_refl _

/-- Every run of edits in a composer does what it does in the plain editor: no edit panics,
the cursors stay in their fields, the index of the lines is up to date, and every window on
the body has the cursor's line. -/
theorem composer_refines_editor (h : Opened c) (edits : List Edit) :
    ∃ c', c.applyAll edits = some c' ∧ c'.Shows (c.editor.run edits) ∧
      (∀ field, c'.cursorOf field ≤ charCount (c'.textOf field)) ∧
      c'.bodyLineCache = .fromText c'.body ∧
      ∀ viewportHeight, c'.bodyVisibleScroll viewportHeight ≤ c'.bodyCursorLineColumn.1 ∧
        c'.bodyCursorLineColumn.1 <
          c'.bodyVisibleScroll viewportHeight + max viewportHeight 1 := by
  obtain ⟨c', hc', hshows⟩ := h.shows.run edits
  refine ⟨c', hc', hshows, fun field => ?_, hshows.lines, hshows.visible⟩
  rw [hshows.cursor, charCount, hshows.text, Sides.text, List.length_append]
  exact Nat.le_add_right _ _

/-- A composer, a character, and moves over it. -/
def sampleEdits : List Edit :=
  [.previous, .insert 'ä', .enter, .insert 'b', .move (-1) 3, .last, .backspace]

theorem sample_edits_refine_editor :
    ∃ c', (ComposerState.new (.filled 0)).applyAll sampleEdits = some c' ∧
      c'.Shows ((ComposerState.new (.filled 0)).editor.run sampleEdits) ∧
      (∀ field, c'.cursorOf field ≤ charCount (c'.textOf field)) ∧
      c'.bodyLineCache = .fromText c'.body ∧
      ∀ viewportHeight, c'.bodyVisibleScroll viewportHeight ≤ c'.bodyCursorLineColumn.1 ∧
        c'.bodyCursorLineColumn.1 <
          c'.bodyVisibleScroll viewportHeight + max viewportHeight 1 :=
  composer_refines_editor (.new (.filled 0)) sampleEdits

end ComposerState

end Postblox.Tui
