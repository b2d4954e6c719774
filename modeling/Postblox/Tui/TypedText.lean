import Postblox.Tui.ComposerKeys

/-!
# What is typed is saved

Characters and Enter in an empty body. Every key but `v` goes to the end of the text; `v`
starts or ends a selection of lines and leaves the text alone. The draft then has the text
and is otherwise the one before.
-/
namespace Postblox.Tui

open Lib

/-- An unmodified printable character, or Enter. -/
inductive TypedKey where
  | char (ch : Char) (printable : isControl ch = false)
  | enter

namespace TypedKey

def event : TypedKey → KeyEvent
  | char ch _ => ⟨.char ch, false, false⟩
  | enter => ⟨.enter, false, false⟩

def typed : TypedKey → Char
  | char ch _ => ch
  | enter => '\n'

end TypedKey

/-- One character for each key. -/
def typedText (keys : List TypedKey) : List Char := keys.map TypedKey.typed

/-- The typed characters without the `v`s. -/
def keptText (keys : List TypedKey) : List Char := (typedText keys).filter (· ≠ 'v')

/-! ## One key -/

theorem insertAt_charToByteIndex (value : String) (n : Nat) (ch : Char) :
    insertAt value (charToByteIndex value n) ch =
      some (String.ofList (value.toList.take n ++ ch :: value.toList.drop n)) := by
  rw [insertAt, charToByteIndex, cutAtByte_byteOffset]
  rfl

namespace ComposerState

/-- What a save sends apart from the body. -/
def envelope (c : ComposerState) : ComposerDraft := { c.draft with textBody := none }

/-- The body has the focus and the text, and the cursor is at its end. -/
structure Holds (c : ComposerState) (text : List Char) : Prop where
  focused : c.focused = .body
  body : c.body = String.ofList text
  cursor : text.length ≤ c.bodyCursor

theorem draft_eq (c : ComposerState) :
    c.draft = { c.envelope with textBody := nonEmptyString c.body } := rfl

variable {c : ComposerState} {text : List Char}

theorem Holds.focusedText (h : c.Holds text) : c.focusedText = c.body := by
  rw [ComposerState.focusedText, h.focused]

theorem Holds.focusedCursor (h : c.Holds text) : c.focusedCursor = c.bodyCursor := by
  rw [ComposerState.focusedCursor, h.focused]

theorem setFocused_body (h : c.focused = .body) (value : String) (cursor : Nat) :
    c.setFocused value cursor = { c with body := value, bodyCursor := cursor } := by
  unfold setFocused
  split
  all_goals first | rfl | (rename_i hother; rw [h] at hother; cases hother)

theorem Holds.charCount (h : c.Holds text) : charCount c.body = text.length := by
  rw [Tui.charCount, h.body, String.toList_ofList]

/-- The body with a character put at the end. -/
theorem Holds.insertAt (h : c.Holds text) (ch : Char) :
    Tui.insertAt c.body (charToByteIndex c.body text.length) ch =
      some (String.ofList (text ++ [ch])) := by
  rw [insertAt_charToByteIndex, h.body, String.toList_ofList, List.take_length, List.drop_length]

theorem afterTextEdit_frame (c : ComposerState) :
    c.afterTextEdit.focused = c.focused ∧ c.afterTextEdit.body = c.body ∧
      c.afterTextEdit.bodyCursor = c.bodyCursor ∧ c.afterTextEdit.envelope = c.envelope := by
  unfold afterTextEdit
  split_ifs
  · exact ⟨rfl, rfl, rfl, rfl⟩
  · exact ⟨rfl, rfl, rfl, rfl⟩

/-- The composer after a character went to the end of the body. -/
def appended (c : ComposerState) (text : List Char) (ch : Char) : ComposerState :=
  { c with body := String.ofList (text ++ [ch]), bodyCursor := text.length + 1 }.afterTextEdit

theorem Holds.appended (h : c.Holds text) (ch : Char) :
    { c.appended text ch with dirty := true }.Holds (text ++ [ch]) := by
  obtain ⟨hfocused, hbody, hcursor, -⟩ := afterTextEdit_frame
    { c with body := String.ofList (text ++ [ch]), bodyCursor := text.length + 1 }
  refine ⟨hfocused.trans h.focused, hbody, ?_⟩
  show (text ++ [ch]).length ≤ (c.appended text ch).bodyCursor
  rw [ComposerState.appended, hcursor, List.length_append, List.length_singleton]

theorem envelope_appended (c : ComposerState) (text : List Char) (ch : Char) :
    { c.appended text ch with dirty := true }.envelope = c.envelope :=
  (afterTextEdit_frame
    { c with body := String.ofList (text ++ [ch]), bodyCursor := text.length + 1 }).2.2.2

theorem Holds.insertFocusedChar (h : c.Holds text) (ch : Char) :
    c.insertFocusedChar ch = some (c.appended text ch) := by
  have hat : min c.bodyCursor text.length = text.length := Nat.min_eq_right h.cursor
  rw [ComposerState.insertFocusedChar, h.focusedText, h.focusedCursor, h.charCount, hat,
    h.insertAt, Option.bind_eq_bind, Option.bind_some, setFocused_body h.focused]
  rfl

theorem Holds.insertBodyNewline (h : c.Holds text) :
    c.insertBodyNewline = some (c.appended text '\n') := by
  have hat : min c.bodyCursor text.length = text.length := Nat.min_eq_right h.cursor
  rw [ComposerState.insertBodyNewline, h.charCount, hat, h.insertAt]
  rfl

theorem Holds.toggle (h : c.Holds text) : c.toggleBodyLineSelection.1.Holds text := by
  unfold toggleBodyLineSelection
  split_ifs
  · exact h
  · exact ⟨h.focused, h.body, h.cursor⟩
  · exact ⟨h.focused, h.body, h.cursor⟩

theorem envelope_toggle (c : ComposerState) :
    c.toggleBodyLineSelection.1.envelope = c.envelope := by
  unfold toggleBodyLineSelection
  split_ifs
  · rfl
  · rfl
  · rfl

end ComposerState

namespace AppState

variable {app : AppState} {c : ComposerState} {text : List Char}

theorem composerEnter_of_holds (hcomposer : app.composer = some c) (h : c.Holds text)
    (hroom : text.length < maxComposeBodyChars) :
    app.composerEnter =
      some ({ app with composer := some { c.appended text '\n' with dirty := true } }, true) := by
  have hfree : ¬ maxComposeBodyChars ≤ charCount c.body := by
    rw [h.charCount]
    omega
  rw [composerEnter, hcomposer]
  dsimp only
  rw [if_pos h.focused, if_neg hfree, h.insertBodyNewline]
  rfl

theorem pushComposerChar_of_holds (hcomposer : app.composer = some c) (h : c.Holds text)
    (hroom : text.length < maxComposeBodyChars) {ch : Char} (hprint : isControl ch = false) :
    app.pushComposerChar ch =
      some ({ app with composer := some { c.appended text ch with dirty := true } }, true) := by
  have hlimit : c.fieldLimit = maxComposeBodyChars := by
    rw [ComposerState.fieldLimit, h.focused]
  have hfree : ¬ (isControl ch || decide (c.fieldLimit ≤ c.fieldLen)) = true := by
    rw [hprint, hlimit, ComposerState.fieldLen, h.focusedText, h.charCount, Bool.false_or,
      decide_eq_true_eq]
    omega
  rw [pushComposerChar, hcomposer]
  dsimp only
  rw [if_neg hfree, h.insertFocusedChar]
  rfl

/-- A character without the control key, in the body. -/
theorem handleComposerChar_of_body (client : DraftClient) (hbody : app.composerBodyFocused = true)
    (ch : Char) :
    app.handleComposerChar client false ch =
      if ch = 'v' then some (app.mapComposer (·.toggleBodyLineSelection.1))
      else (app.pushComposerChar ch).map fun next =>
        if next.2 then next.1 else next.1.setError "compose field is at its limit" := by
  simp only [handleComposerChar, hbody, Bool.false_eq_true, not_true_eq_false, not_false_eq_true,
    and_false, and_true, if_false]

/-- A typed key goes to the end of the text, or it is `v`. -/
theorem handleComposerKey_typed (client : DraftClient) (hmode : app.mode = .compose)
    (hcomposer : app.composer = some c) (h : c.Holds text) (key : TypedKey)
    (hroom : (text ++ keptText [key]).length ≤ maxComposeBodyChars) :
    ∃ c', app.handleComposerKey client key.event = some { app with composer := some c' } ∧
      c'.Holds (text ++ keptText [key]) ∧ c'.envelope = c.envelope := by
  have hopen : app.mode ≠ .confirmDiscard := by rw [hmode]; decide
  have hbody : app.composerBodyFocused = true := by
    rw [composerBodyFocused, hcomposer, Option.any_some, h.focused]
    rfl
  rw [handleComposerKey, if_neg hopen]
  cases key with
  | enter =>
    have hspace : text.length < maxComposeBodyChars := by
      rw [List.length_append, show (keptText [.enter]).length = 1 from rfl] at hroom
      omega
    refine ⟨_, ?_, h.appended '\n', c.envelope_appended text '\n'⟩
    show app.composerEnter.map _ = _
    rw [composerEnter_of_holds hcomposer h hspace]
    rfl
  | char ch printable =>
    show ∃ c', app.handleComposerChar client false ch = _ ∧ _
    rw [handleComposerChar_of_body client hbody]
    by_cases hv : ch = 'v'
    · have hkept : keptText [.char ch printable] = [] := by
        rw [keptText, typedText, List.map_singleton, TypedKey.typed, hv]
        rfl
      rw [if_pos hv, hkept, List.append_nil, mapComposer, hcomposer]
      exact ⟨_, rfl, h.toggle, c.envelope_toggle⟩
    · have hkept : keptText [.char ch printable] = [ch] := by
        rw [keptText, typedText, List.map_singleton, TypedKey.typed,
          List.filter_cons_of_pos (by simpa using hv), List.filter_nil]
      have hspace : text.length < maxComposeBodyChars := by
        rw [hkept, List.length_append, List.length_singleton] at hroom
        omega
      rw [if_neg hv, hkept, pushComposerChar_of_holds hcomposer h hspace printable]
      exact ⟨_, rfl, h.appended ch, c.envelope_appended text ch⟩

/-! ## All keys -/

theorem keptText_cons (key : TypedKey) (keys : List TypedKey) :
    keptText (key :: keys) = keptText [key] ++ keptText keys := by
  rw [keptText, keptText, keptText, ← List.filter_append]
  rfl

theorem handleComposerKeys_typed (client : DraftClient) (keys : List TypedKey)
    (hmode : app.mode = .compose) (hcomposer : app.composer = some c) (h : c.Holds text)
    (hroom : (text ++ keptText keys).length ≤ maxComposeBodyChars) :
    ∃ c', handleComposerKeys client (keys.map TypedKey.event) app =
        some { app with composer := some c' } ∧
      c'.Holds (text ++ keptText keys) ∧ c'.envelope = c.envelope := by
  induction keys generalizing app c text with
  | nil =>
    refine ⟨c, ?_, by simpa [keptText, typedText] using h, rfl⟩
    rw [← hcomposer]
    rfl
  | cons key keys ih =>
    rw [keptText_cons, ← List.append_assoc] at hroom ⊢
    have hfirst : (text ++ keptText [key]).length ≤ maxComposeBodyChars := by
      rw [List.length_append] at hroom
      omega
    obtain ⟨c₁, hstep, hholds, henvelope⟩ := handleComposerKey_typed client hmode hcomposer h key
      hfirst
    obtain ⟨c', hrest, hend, hsame⟩ :=
      @ih { app with composer := some c₁ } c₁ (text ++ keptText [key]) hmode rfl hholds hroom
    refine ⟨c', ?_, hend, hsame.trans henvelope⟩
    rw [List.map_cons, handleComposerKeys, hstep, Option.bind_some, hrest]

/-- Typing into an empty body: the text is what was typed without the `v`s, the draft has
exactly that text, and nothing else in the client changes. -/
theorem typed_text_is_saved (client : DraftClient) (keys : List TypedKey)
    (hmode : app.mode = .compose) (hcomposer : app.composer = some c)
    (hfocused : c.focused = .body) (hempty : c.body = "")
    (hlimit : (keptText keys).length ≤ maxComposeBodyChars) :
    ∃ c', handleComposerKeys client (keys.map TypedKey.event) app =
        some { app with composer := some c' } ∧
      c'.focused = .body ∧ c'.body = String.ofList (keptText keys) ∧
      c'.draft = { c.draft with textBody := nonEmptyString (String.ofList (keptText keys)) } := by
  have hstart : c.Holds [] := ⟨hfocused, hempty, Nat.zero_le _⟩
  obtain ⟨c', hrun, hend, henvelope⟩ :=
    handleComposerKeys_typed client keys hmode hcomposer hstart hlimit
  refine ⟨c', hrun, hend.focused, hend.body, ?_⟩
  rw [c'.draft_eq, henvelope, hend.body]
  rfl

end AppState

/-! ## A word with a v -/

/-- The client with an empty body in focus. -/
def composing : AppState :=
  { AppState.initial with
    mode := .compose, composer := some { ComposerState.new (.filled 1) with focused := .body } }

def offline : DraftClient :=
  ⟨fun _ => .error "offline", fun _ _ => .error "offline", fun _ _ => .error "offline"⟩

/-- `v` is not typed. -/
theorem five_is_typed_fie :
    let keys : List TypedKey :=
      [.char 'f' (by decide), .char 'i' (by decide), .char 'v' (by decide), .char 'e' (by decide)]
    ((AppState.handleComposerKeys offline (keys.map TypedKey.event) composing).bind
        (·.composer)).map (·.body) = some "fie" ∧
      String.ofList (typedText keys) = "five" := by
  decide

def twoLines : List TypedKey :=
  [.char 'H' (by decide), .char 'i' (by decide), .enter, .char ':' (by decide)]

theorem two_lines_are_saved :
    ∃ c', AppState.handleComposerKeys offline (twoLines.map TypedKey.event) composing =
        some { composing with composer := some c' } ∧
      c'.focused = .body ∧ c'.body = "Hi\n:" ∧ c'.draft.textBody = some "Hi\n:" := by
  have htext : String.ofList (keptText twoLines) = "Hi\n:" := by decide
  have hsaved : nonEmptyString "Hi\n:" = some "Hi\n:" := by decide
  obtain ⟨c', hrun, hfocused, hbody, hdraft⟩ :=
    @AppState.typed_text_is_saved composing _ offline twoLines rfl rfl rfl rfl
      (by decide)
  rw [htext] at hbody hdraft
  exact ⟨c', hrun, hfocused, hbody, by rw [hdraft]; exact hsaved⟩

end Postblox.Tui
