import Postblox.Mcp.Session

/-!
# Which lines a session survives

A session answers the lines in their order, one answer a line, until the input ends. The
lines that are too long, that are no JSON or that ask for the wrong thing are answered
like any other. One kind is not: a line that is not UTF-8 comes out of
`read_bounded_line` as an I/O error and ends the loop.
-/
namespace Postblox.Mcp.Stdio

open Json (Value)
open Bridge (BridgeError)
open Protocol (Texts IsRequest handleLine)
open Lib (joined segments firstSegment afterSegment)
open Lib.Machine

variable {ε : Type}

/-! ## The lines of a stream -/

/-- The lines that are decoded: all segments, or the ended ones if the stream fails. -/
def Reader.lines (r : Reader ε) : List (List UInt8) :=
  match r.failure with
  | none => segments newline r.bytes
  | some _ => (segments newline (r.bytes ++ [newline])).dropLast

/-- A line in front of the others. -/
theorem Reader.lines_cons {r r' : Reader ε} (hended : newline ∈ r.bytes)
    (hbytes : r'.bytes = afterSegment newline r.bytes) (hfailure : r'.failure = r.failure) :
    r.lines = firstSegment newline r.bytes :: r'.lines := by
  unfold Reader.lines
  rw [hfailure, hbytes]
  obtain ⟨first, rest, heq, hfirst⟩ := List.eq_append_cons_of_mem hended
  rw [heq, Lib.firstSegment_ended hfirst, Lib.afterSegment_ended hfirst]
  cases r.failure with
  | none => exact Lib.segments_ended hfirst
  | some e =>
    have hne : segments newline (rest ++ [newline]) ≠ [] := by
      rw [Lib.segments_eq_cons (by simp)]
      exact List.cons_ne_nil _ _
    rw [List.append_assoc, List.cons_append]
    show (segments newline (first ++ newline :: (rest ++ [newline]))).dropLast = _
    rw [Lib.segments_ended hfirst, List.dropLast_cons_of_ne_nil hne]

/-- What a read does to the lines: it takes the first, or there is none. -/
theorem readBoundedLine_lines (maxLineBytes : Nat) (r : Reader ε) :
    (∃ line reader, readBoundedLine maxLineBytes r = (frameOf maxLineBytes line, reader) ∧
      r.lines = line :: reader.lines ∧ reader.failure = r.failure) ∨
    (∃ reader, readBoundedLine maxLineBytes r =
        (match r.failure with | some e => .error (.stream e) | none => .ok none, reader) ∧
      r.lines = [] ∧ reader.lines = [] ∧ reader.failure = r.failure) := by
  obtain ⟨chunks, failure⟩ := r
  by_cases hended : newline ∈ joined chunks
  · obtain ⟨left, hread, hleft⟩ := readLoop_ended failure maxLineBytes List.not_mem_nil hended
    refine .inl ⟨firstSegment newline (joined chunks), ⟨left, failure⟩, ?_,
      Reader.lines_cons hended hleft rfl, rfl⟩
    rw [readBoundedLine, hread]
    rfl
  · have hread : readLoop failure maxLineBytes [] chunks = _ :=
      readLoop_unended failure maxLineBytes (Nat.zero_le maxLineBytes) hended
    have hnone : (⟨[], failure⟩ : Reader ε).lines = [] := by
      unfold Reader.lines
      cases failure <;> rfl
    cases failure with
    | some e =>
      refine .inr ⟨⟨[], some e⟩, by rw [readBoundedLine, hread], ?_, hnone, rfl⟩
      show (segments newline (joined chunks ++ [newline])).dropLast = []
      rw [Lib.segments_ended hended]
      rfl
    | none =>
      by_cases hempty : joined chunks = []
      · refine .inr ⟨⟨[], none⟩, ?_, ?_, hnone, rfl⟩
        · rw [readBoundedLine, hread]
          simp only [List.nil_append, if_pos hempty]
        · show segments newline (joined chunks) = []
          rw [hempty, Lib.segments_nil]
      · refine .inl ⟨joined chunks, ⟨[], none⟩, ?_, ?_, rfl⟩
        · rw [readBoundedLine, hread]
          simp only [List.nil_append, if_neg hempty]
        · show segments newline (joined chunks) = _
          rw [hnone, Lib.segments_unended hended hempty]

/-! The four results of a read. -/

theorem frameOf_oversized {maxLineBytes : Nat} {line : List UInt8}
    (h : maxLineBytes < line.length) :
    (frameOf maxLineBytes line : Except (ReadError ε) _) = .ok (some .oversized) := if_pos h

theorem frameOf_fits {maxLineBytes : Nat} {line : List UInt8} (h : ¬ maxLineBytes < line.length) :
    (frameOf maxLineBytes line : Except (ReadError ε) _) =
      match fromUtf8 (stripCarriageReturn line) with
      | some text => .ok (some (.line text))
      | none => .error .invalidData := by
  rw [frameOf, if_neg h, decodeStdioLine]
  cases fromUtf8 (stripCarriageReturn line) <;> rfl

/-! ## What the session owes -/

section Served

variable (crates : Crates) (texts : Texts) (maxLineBytes : Nat)

/-- The answer to a line, given what the tool call returns if there is one. -/
def answerTo (outcome : Except BridgeError Value) (line : List UInt8) : Option Value :=
  if maxLineBytes < line.length then some (oversizedInputResponse maxLineBytes)
  else (fromUtf8 (stripCarriageReturn line)).bind (handleLine crates texts outcome)

/-- One line and its answer, if any: a well-formed request has one, under its own id. -/
structure Answers (line : List UInt8) (answer : Option Value) : Prop where
  reply : ∃ outcome, answer = answerTo crates texts maxLineBytes outcome line
  request : ∀ text value id, line.length ≤ maxLineBytes →
    fromUtf8 (stripCarriageReturn line) = some text → crates.fromStr text = some value →
    IsRequest value id → ∃ response, answer = some response ∧ response.get "id" = some id

/-- The responses among the messages; notifications have no id. -/
def responses (messages : List Value) : List Value :=
  messages.filter fun message => (message.get "id").isSome

/-- What holds of a session on the lines of `r`, whatever state it is in: its responses
are those of the first lines in their order, and if it has returned, every line has been
answered or stdin or stdout has failed. -/
structure Served (r : Reader ε) (s : Session ε) : Prop where
  answered : ∃ taken answers, taken <+: r.lines ∧
    List.Forall₂ (Answers crates texts maxLineBytes) taken answers ∧
    responses s.written <+: answers.reduceOption
  ended : ∀ outcome, s.phase = .returned outcome →
    (outcome = .endOfInput ∧ r.failure = none ∧ ∃ answers,
      List.Forall₂ (Answers crates texts maxLineBytes) r.lines answers ∧
      responses s.written = answers.reduceOption) ∨
    (∃ e, outcome = .readFailed (.stream e) ∧ r.failure = some e) ∨
    (∃ e, outcome = .writeFailed e ∧ s.failed = some e)

/-- A line that is decoded, or skipped for its length. -/
def Decodable (line : List UInt8) : Prop :=
  maxLineBytes < line.length ∨ (fromUtf8 (stripCarriageReturn line)).isSome = true

end Served

variable {crates : Crates} {texts : Texts} {maxLineBytes : Nat}

theorem answers_answerTo (outcome : Except BridgeError Value) (line : List UInt8) :
    Answers crates texts maxLineBytes line (answerTo crates texts maxLineBytes outcome line) := by
  refine ⟨⟨outcome, rfl⟩, ?_⟩
  intro text value id hfits htext hvalue hrequest
  obtain ⟨response, hresponse, hid⟩ := Protocol.handleLine_of_isRequest hvalue hrequest outcome
  refine ⟨response, ?_, hid⟩
  rw [answerTo, if_neg (by omega), htext]
  exact hresponse

theorem responses_append (front back : List Value) :
    responses (front ++ back) = responses front ++ responses back := List.filter_append ..

theorem responses_response {response : Value} (h : (response.get "id").isSome = true) :
    responses [response] = [response] := by
  simp [responses, h]

theorem responses_notification (method : String) (params : Value) :
    responses [Protocol.notification method params] = [] := by
  rw [responses, List.filter_cons_of_neg, List.filter_nil]
  simp [Protocol.get_id_notification]

/-! ## The invariant -/

/-- A message on its way into the mailbox. -/
def Phase.pending : Phase ε → List Value
  | .sending response _ => [response]
  | .announcing message _ => [message]
  | _ => []

section Tracks

variable (crates texts maxLineBytes)

/-- Where the loop stands in the lines of `r`, after those that it has answered. -/
def Phase.Follows (r : Reader ε) (taken : List (List UInt8)) (s : Session ε) : Phase ε → Prop
  | .handling text => ∃ line, r.lines = taken ++ line :: s.reader.lines ∧
      line.length ≤ maxLineBytes ∧ fromUtf8 (stripCarriageReturn line) = some text
  | .starting topics => topics ≠ [] ∧ r.lines = taken ++ s.reader.lines
  | .draining => s.failed = none → r.lines = taken ∧ r.failure = none
  | .returned .endOfInput => r.lines = taken ∧ r.failure = none ∧
      s.failed = none ∧ s.mailbox = [] ∧ s.notifiers = []
  | .returned (.readFailed (.stream e)) => r.failure = some e
  | .returned (.readFailed .invalidData) => ∃ line ∈ r.lines, ¬ Decodable maxLineBytes line
  | .returned (.writeFailed e) => s.failed = some e
  | _ => r.lines = taken ++ s.reader.lines

structure Tracks (r : Reader ε) (taken : List (List UInt8)) (answers : List (Option Value))
    (s : Session ε) : Prop where
  failure : s.reader.failure = r.failure
  front : taken <+: r.lines
  replied : List.Forall₂ (Answers crates texts maxLineBytes) taken answers
  sent : responses s.written <+: answers.reduceOption
  posted : s.failed = none →
    responses (s.written ++ s.mailbox ++ s.phase.pending) = answers.reduceOption
  follows : s.phase.Follows maxLineBytes r taken s

end Tracks

section Step

variable {r : Reader ε} {taken : List (List UInt8)} {answers : List (Option Value)}
  {s t : Session ε}

/-- One more line is answered. -/
theorem Tracks.snoc (h : Tracks crates texts maxLineBytes r taken answers s)
    {line : List UInt8} {rest : List (List UInt8)} {answer : Option Value}
    (hlines : r.lines = taken ++ line :: rest)
    (hanswer : Answers crates texts maxLineBytes line answer)
    (hfailure : t.reader.failure = s.reader.failure) (hwritten : t.written = s.written)
    (hmailbox : t.mailbox = s.mailbox) (hfailed : t.failed = s.failed)
    (hbefore : s.phase.pending = []) (hpending : responses t.phase.pending = answer.toList)
    (hfollows : t.phase.Follows maxLineBytes r (taken ++ [line]) t) :
    Tracks crates texts maxLineBytes r (taken ++ [line]) (answers ++ [answer]) t where
  failure := hfailure.trans h.failure
  front := ⟨rest, by rw [hlines, List.append_assoc]; rfl⟩
  replied := List.rel_append h.replied (.cons hanswer .nil)
  sent := by
    rw [hwritten, List.reduceOption_append]
    exact h.sent.trans (List.prefix_append _ _)
  posted := by
    intro hnone
    have hold := h.posted (hfailed ▸ hnone)
    rw [hbefore, List.append_nil] at hold
    rw [hwritten, hmailbox, responses_append, hold, hpending, List.reduceOption_append]
    cases answer <;> rfl
  follows := hfollows

/-- No line is answered, and the same messages are in the mailbox and before it. -/
theorem Tracks.stay (h : Tracks crates texts maxLineBytes r taken answers s)
    (hreader : t.reader.failure = s.reader.failure) (hwritten : t.written = s.written)
    (hfailed : t.failed = s.failed)
    (hposted : s.failed = none →
      responses (t.mailbox ++ t.phase.pending) = responses (s.mailbox ++ s.phase.pending))
    (hfollows : t.phase.Follows maxLineBytes r taken t) :
    Tracks crates texts maxLineBytes r taken answers t where
  failure := hreader.trans h.failure
  front := h.front
  replied := h.replied
  sent := hwritten ▸ h.sent
  posted := by
    intro hnone
    have hold := h.posted (hfailed ▸ hnone)
    rw [List.append_assoc, responses_append] at hold ⊢
    rw [hwritten, hposted (hfailed ▸ hnone), hold]
  follows := hfollows

theorem Tracks.of_read (h : Tracks crates texts maxLineBytes r taken answers s)
    (hphase : s.phase = .reading) (hstep : s.step crates texts maxLineBytes .read = some t) :
    ∃ taken answers, Tracks crates texts maxLineBytes r taken answers t := by
  have hlines : r.lines = taken ++ s.reader.lines := by
    have := h.follows
    rwa [hphase] at this
  have hbefore : s.phase.pending = [] := by
    rw [hphase]
    rfl
  rcases readBoundedLine_lines maxLineBytes s.reader with
    ⟨line, reader, hread, hfirst, hfailure⟩ | ⟨reader, hread, hnone, -, hfailure⟩
  · rw [hfirst] at hlines
    by_cases hlong : maxLineBytes < line.length
    · -- too long: answered at once
      rw [frameOf_oversized hlong] at hread
      simp only [Session.step, hphase, hread] at hstep
      cases hstep
      have hanswer : Answers crates texts maxLineBytes line
          (answerTo crates texts maxLineBytes (.ok .null) line) := answers_answerTo _ line
      rw [answerTo, if_pos hlong] at hanswer
      refine ⟨_, _, h.snoc hlines hanswer hfailure rfl rfl rfl hbefore ?_ ?_⟩
      · exact responses_response (by rw [oversizedInputResponse, Protocol.get_id_errorResponse]; rfl)
      · show r.lines = taken ++ [line] ++ reader.lines
        rw [hlines, List.append_assoc]
        rfl
    · rw [frameOf_fits hlong] at hread
      cases htext : fromUtf8 (stripCarriageReturn line) with
      | some text =>
        simp only [htext] at hread
        simp only [Session.step, hphase, hread] at hstep
        cases hstep
        exact ⟨_, _, h.stay hfailure rfl rfl (fun _ => by rw [hbefore]; rfl)
          ⟨line, hlines, by omega, htext⟩⟩
      | none =>
        simp only [htext] at hread
        simp only [Session.step, hphase, hread] at hstep
        cases hstep
        refine ⟨_, _, h.stay hfailure rfl rfl (fun _ => by rw [hbefore]; rfl) ⟨line, ?_, ?_⟩⟩
        · rw [hlines]
          simp
        · simp [Decodable, hlong, htext]
  · rw [hnone, List.append_nil] at hlines
    cases hend : s.reader.failure with
    | some e =>
      simp only [hend] at hread
      simp only [Session.step, hphase, hread] at hstep
      cases hstep
      exact ⟨_, _, h.stay hfailure rfl rfl (fun _ => by rw [hbefore]; rfl) (h.failure.symm.trans hend)⟩
    | none =>
      simp only [hend] at hread
      simp only [Session.step, hphase, hread] at hstep
      cases hstep
      exact ⟨_, _, h.stay hfailure rfl rfl (fun _ => by rw [hbefore]; rfl)
        fun _ => ⟨hlines, h.failure.symm.trans hend⟩⟩

/-- The answer to a decoded line. -/
theorem Tracks.of_handle (h : Tracks crates texts maxLineBytes r taken answers s) {text : String}
    (hphase : s.phase = .handling text) (outcome : Except BridgeError Value)
    (hreader : t.reader = s.reader) (hwritten : t.written = s.written)
    (hmailbox : t.mailbox = s.mailbox) (hfailed : t.failed = s.failed)
    (hpending : responses t.phase.pending = (handleLine crates texts outcome text).toList)
    (hfollows : ∀ taken, r.lines = taken ++ t.reader.lines →
      t.phase.Follows maxLineBytes r taken t) :
    ∃ taken answers, Tracks crates texts maxLineBytes r taken answers t := by
  have hhandled := h.follows
  rw [hphase] at hhandled
  obtain ⟨line, hlines, hfits, htext⟩ := hhandled
  have hanswer : Answers crates texts maxLineBytes line
      (answerTo crates texts maxLineBytes outcome line) := answers_answerTo _ line
  rw [answerTo, if_neg (by omega), htext] at hanswer
  refine ⟨_, _, h.snoc hlines hanswer (by rw [hreader]) hwritten hmailbox hfailed
    (by rw [hphase]; rfl) hpending (hfollows _ ?_)⟩
  rw [hlines, hreader, List.append_assoc]
  rfl

/-- `next` and `nextTopic` change the phase alone, and all lines so far are answered. -/
theorem next_goto (s : Session ε) (starts : Bool) :
    ∃ phase, s.next starts = s.goto phase ∧ phase.pending = [] ∧
      ∀ r taken, r.lines = taken ++ s.reader.lines →
        phase.Follows maxLineBytes r taken (s.goto phase) := by
  unfold Session.next
  split_ifs
  · exact ⟨_, rfl, rfl, fun _ _ hlines => ⟨by decide, hlines⟩⟩
  · exact ⟨_, rfl, rfl, fun _ _ hlines => hlines⟩

theorem nextTopic_goto (s : Session ε) (topics : List Ipc.Topic) :
    ∃ phase, s.nextTopic topics = s.goto phase ∧ phase.pending = [] ∧
      ∀ r taken, r.lines = taken ++ s.reader.lines →
        phase.Follows maxLineBytes r taken (s.goto phase) := by
  unfold Session.nextTopic
  split_ifs with hempty
  · exact ⟨_, rfl, rfl, fun _ _ hlines => hlines⟩
  · exact ⟨_, rfl, rfl, fun _ _ hlines => ⟨by simpa using hempty, hlines⟩⟩

/-- Phases in which the lines so far have been answered. -/
theorem Tracks.lines (h : Tracks crates texts maxLineBytes r taken answers s)
    (hphase : (∃ response starts, s.phase = .sending response starts) ∨
      (∃ topics, s.phase = .starting topics) ∨ ∃ message topics, s.phase = .announcing message topics) :
    r.lines = taken ++ s.reader.lines := by
  have hfollows := h.follows
  rcases hphase with ⟨_, _, hphase⟩ | ⟨_, hphase⟩ | ⟨_, _, hphase⟩ <;> rw [hphase] at hfollows
  · exact hfollows
  · exact hfollows.2
  · exact hfollows

/-- Where the loop stands does not depend on the other tasks, up to the end of the input. -/
theorem Phase.Follows.congr (h : s.phase.Follows maxLineBytes r taken s)
    (hend : s.phase ≠ .returned .endOfInput) (hphase : t.phase = s.phase)
    (hreader : t.reader = s.reader) (hfailed : t.failed = s.failed ∨ s.failed = none) :
    t.phase.Follows maxLineBytes r taken t := by
  rw [hphase]
  cases hs : s.phase with
  | draining =>
    intro hnone
    rw [hs] at h
    rcases hfailed with hsame | hbefore
    · exact h (hsame.symm.trans hnone)
    · exact h hbefore
  | returned outcome =>
    rw [hs] at h hend
    cases outcome with
    | endOfInput => exact absurd rfl hend
    | readFailed e => cases e <;> exact h
    | writeFailed e =>
      rcases hfailed with hsame | hbefore
      · exact hsame.trans h
      · cases hbefore.symm.trans h
  | _ => simpa [hs, Phase.Follows, hreader] using h

/-- At the end of the input nothing is left to write and no task is left. -/
theorem Tracks.not_ended (h : Tracks crates texts maxLineBytes r taken answers s)
    (hleft : s.mailbox ≠ [] ∨ s.notifiers ≠ []) : s.phase ≠ .returned .endOfInput := by
  intro hend
  have hfollows := h.follows
  rw [hend] at hfollows
  obtain ⟨-, -, -, hmailbox, hnotifiers⟩ := hfollows
  rcases hleft with hleft | hleft
  · exact hleft hmailbox
  · exact hleft hnotifiers

/-- A task ends, or it posts a message without an id. -/
theorem Tracks.notified (h : Tracks crates texts maxLineBytes r taken answers s) {message : Value}
    {topic : Ipc.Topic} (htopic : topic ∈ s.notifiers) (hmessage : responses [message] = [])
    (hreader : t.reader = s.reader) (hwritten : t.written = s.written)
    (hfailed : t.failed = s.failed) (hphase : t.phase = s.phase)
    (hmailbox : t.mailbox = s.mailbox ++ [message] ∨ t.mailbox = s.mailbox) :
    Tracks crates texts maxLineBytes r taken answers t := by
  have hend := h.not_ended (.inr (List.ne_nil_of_mem htopic))
  refine h.stay (by rw [hreader]) hwritten hfailed (fun _ => ?_)
    (h.follows.congr hend hphase hreader (.inl hfailed))
  rw [hphase]
  rcases hmailbox with hmailbox | hmailbox
  · rw [hmailbox, responses_append, responses_append, hmessage, List.append_nil, responses_append]
  · rw [hmailbox]

theorem Tracks.of_moves {a : Action ε} (h : Tracks crates texts maxLineBytes r taken answers s)
    (hmoves : Session.Moves crates texts maxLineBytes s a t) :
    ∃ taken answers, Tracks crates texts maxLineBytes r taken answers t := by
  have hstep := Session.step_of_moves hmoves
  cases hmoves with
  | readLine hphase => exact h.of_read hphase hstep
  | readOversized hphase => exact h.of_read hphase hstep
  | readEnd hphase => exact h.of_read hphase hstep
  | readFails hphase => exact h.of_read hphase hstep
  | @answer line outcome response hphase hanswer =>
    refine h.of_handle hphase outcome rfl rfl rfl rfl ?_ (fun _ hlines => hlines)
    rw [hanswer]
    exact responses_response (Protocol.get_id_handleLine hanswer)
  | @silence line outcome hphase hanswer =>
    obtain ⟨phase, hnext, hpending, hfollows⟩ :=
      next_goto s (Protocol.isInitializedNotification crates texts line)
    rw [hnext]
    refine h.of_handle hphase outcome rfl rfl rfl rfl ?_ (hfollows r)
    rw [hanswer]
    show responses phase.pending = []
    rw [hpending]
    rfl
  | @send response starts hphase hfailed hroom =>
    obtain ⟨phase, hnext, hpending, hfollows⟩ := next_goto (s.post response) starts
    rw [hnext]
    refine ⟨taken, answers, h.stay rfl rfl rfl (fun _ => ?_)
      (hfollows r _ (h.lines (.inl ⟨_, _, hphase⟩)))⟩
    show responses (s.mailbox ++ [response] ++ phase.pending) = _
    rw [hpending, hphase, List.append_nil]
    rfl
  | sendFails hphase hfailed =>
    refine ⟨_, _, h.stay rfl rfl rfl (fun hnone => ?_) (fun hnone => ?_)⟩
    · rw [hfailed] at hnone
      cases hnone
    · cases hfailed.symm.trans hnone
  | @subscribe topic topics hphase =>
    obtain ⟨phase, hnext, hpending, hfollows⟩ :=
      nextTopic_goto { s with handles := true, notifiers := topic :: s.notifiers } topics
    rw [hnext]
    refine ⟨taken, answers, h.stay rfl rfl rfl (fun _ => ?_)
      (hfollows r _ (h.lines (.inr (.inl ⟨_, hphase⟩))))⟩
    show responses (s.mailbox ++ phase.pending) = _
    rw [hpending, hphase]
    rfl
  | @subscribeFails topic topics e hphase =>
    refine ⟨taken, answers, h.stay rfl rfl rfl (fun _ => ?_)
      (h.lines (.inr (.inl ⟨_, hphase⟩)))⟩
    show responses (s.mailbox ++ [errorMessage topic (displayError e)]) = _
    rw [hphase, responses_append, errorMessage, responses_notification, responses_append]
    rfl
  | @announce message topics hphase hfailed hroom =>
    obtain ⟨phase, hnext, hpending, hfollows⟩ := nextTopic_goto (s.post message) topics
    rw [hnext]
    refine ⟨taken, answers, h.stay rfl rfl rfl (fun _ => ?_)
      (hfollows r _ (h.lines (.inr (.inr ⟨_, _, hphase⟩))))⟩
    show responses (s.mailbox ++ [message] ++ phase.pending) = _
    rw [hpending, hphase, List.append_nil]
    rfl
  | @announceFails message topics e hphase hfailed =>
    obtain ⟨phase, hnext, hpending, hfollows⟩ := nextTopic_goto s topics
    rw [hnext]
    refine ⟨taken, answers, h.stay rfl rfl rfl (fun hnone => ?_)
      (hfollows r _ (h.lines (.inr (.inr ⟨_, _, hphase⟩))))⟩
    cases hfailed.symm.trans hnone
  | finish hphase hfailed hmailbox hnotifiers =>
    have hfollows := h.follows
    rw [hphase] at hfollows
    obtain ⟨hlines, hfailure⟩ := hfollows hfailed
    exact ⟨taken, answers, h.stay rfl rfl rfl (fun _ => by rw [hphase]; rfl)
      ⟨hlines, hfailure, hfailed, hmailbox, hnotifiers⟩⟩
  | finishFails hphase hfailed =>
    exact ⟨taken, answers, h.stay rfl rfl rfl (fun _ => by rw [hphase]; rfl) hfailed⟩
  | @write message rest hfailed hmailbox =>
    have hposted := h.posted hfailed
    have hsame : s.written ++ message :: rest ++ s.phase.pending =
        s.written ++ [message] ++ (rest ++ s.phase.pending) := by simp
    rw [hmailbox, hsame] at hposted
    refine ⟨taken, answers, h.failure, h.front, h.replied, ?_, fun _ => ?_,
      h.follows.congr (h.not_ended (by simp [hmailbox])) rfl rfl (.inl rfl)⟩
    · rw [← hposted, responses_append (s.written ++ [message])]
      exact List.prefix_append _ _
    · rw [← hposted, List.append_assoc]
  | @writeFails message rest e hfailed hmailbox =>
    refine ⟨taken, answers, h.failure, h.front, h.replied, h.sent, fun hnone => ?_,
      h.follows.congr (h.not_ended (by simp [hmailbox])) rfl rfl (.inr hfailed)⟩
    cases hnone
  | stop _ htopic =>
    exact ⟨taken, answers, h.notified htopic (responses_notification "" .null) rfl rfl rfl rfl
      (.inr rfl)⟩
  | notify htopic =>
    exact ⟨taken, answers, h.notified htopic (responses_notification _ _) rfl rfl rfl rfl
      (.inl rfl)⟩
  | notifyFails htopic =>
    exact ⟨taken, answers, h.notified htopic (responses_notification "" .null) rfl rfl rfl rfl
      (.inr rfl)⟩
  | lose htopic =>
    exact ⟨taken, answers, h.notified htopic (responses_notification _ _) rfl rfl rfl rfl
      (.inl rfl)⟩
  | loseFails htopic =>
    exact ⟨taken, answers, h.notified htopic (responses_notification "" .null) rfl rfl rfl rfl
      (.inr rfl)⟩

end Step

theorem tracks_start (r : Reader ε) : Tracks crates texts maxLineBytes r [] [] (.start r) where
  failure := rfl
  front := List.nil_prefix
  replied := .nil
  sent := List.prefix_rfl
  posted := fun _ => rfl
  follows := rfl

/-- Every state of every run. -/
theorem tracks_of_run {r : Reader ε} {acts : List (Action ε)} {s : Session ε}
    (hrun : run (Session.step crates texts maxLineBytes) (.start r) acts = some s) :
    ∃ taken answers, Tracks crates texts maxLineBytes r taken answers s := by
  refine invariant (Session.step crates texts maxLineBytes)
    (I := fun s => ∃ taken answers, Tracks crates texts maxLineBytes r taken answers s)
    ⟨[], [], tracks_start r⟩ ?_ hrun
  rintro s a t ⟨taken, answers, h⟩ hstep
  exact h.of_moves (Session.moves_of_step hstep)

/-! ## No run gets stuck, and every run ends -/

/-- What is left to do. A line costs at most a read, a call, its response and, once, a
subscription to every topic. -/
def Phase.work : Phase ε → Nat
  | .reading => 2
  | .handling _ => 20
  | .sending _ _ => 19
  | .starting topics => 3 * topics.length + 2
  | .announcing _ topics => 3 * topics.length + 4
  | .draining => 1
  | .returned _ => 0

def Session.work (s : Session ε) : Nat :=
  19 * s.reader.lines.length + s.mailbox.length + s.notifiers.length + s.phase.work

theorem goto_work (s : Session ε) (phase : Phase ε) :
    (s.goto phase).work =
      19 * s.reader.lines.length + s.mailbox.length + s.notifiers.length + phase.work := rfl

theorem next_work (s : Session ε) (starts : Bool) :
    (s.next starts).work ≤
      19 * s.reader.lines.length + s.mailbox.length + s.notifiers.length + 17 := by
  unfold Session.next
  split_ifs
  · exact Nat.le_refl _
  · rw [goto_work, Phase.work]
    omega

theorem nextTopic_work (s : Session ε) (topics : List Ipc.Topic) :
    (s.nextTopic topics).work =
      19 * s.reader.lines.length + s.mailbox.length + s.notifiers.length +
        (3 * topics.length + 2) := by
  unfold Session.nextTopic
  cases topics <;> rfl

/-- A read adds no line, and a frame takes one. -/
theorem length_lines_of_read {r reader : Reader ε} {frame : Except (ReadError ε) (Option StdioFrame)}
    (hread : readBoundedLine maxLineBytes r = (frame, reader)) :
    reader.lines.length ≤ r.lines.length ∧
      ∀ f, frame = .ok (some f) → reader.lines.length < r.lines.length := by
  rcases readBoundedLine_lines maxLineBytes r with
    ⟨line, reader', hread', hlines, -⟩ | ⟨reader', hread', hlines, hnone, -⟩
  · cases hread.symm.trans hread'
    rw [hlines, List.length_cons]
    exact ⟨Nat.le_succ _, fun _ _ => Nat.lt_succ_self _⟩
  · cases hread.symm.trans hread'
    refine ⟨by rw [hlines, hnone], fun f hf => ?_⟩
    cases hfailure : r.failure <;> simp [hfailure] at hf

/-- A step of the session uses up work; an event of the daemon adds at most one message. -/
theorem work_of_moves {s t : Session ε} {a : Action ε}
    (hmoves : Session.Moves crates texts maxLineBytes s a t) :
    if a.isOwn then t.work < s.work else t.work ≤ s.work + 1 := by
  have hwork : s.work =
      19 * s.reader.lines.length + s.mailbox.length + s.notifiers.length + s.phase.work := rfl
  cases hmoves with
  | readLine hphase hread =>
    have hlength := (length_lines_of_read hread).2 _ rfl
    simp only [hphase, Phase.work] at hwork
    simp only [Action.isOwn, goto_work, Phase.work, if_true]
    omega
  | readOversized hphase hread =>
    have hlength := (length_lines_of_read hread).2 _ rfl
    simp only [hphase, Phase.work] at hwork
    simp only [Action.isOwn, goto_work, Phase.work, if_true]
    omega
  | readEnd hphase hread =>
    have hlength := (length_lines_of_read hread).1
    simp only [hphase, Phase.work] at hwork
    simp only [Action.isOwn, goto_work, Phase.work, if_true]
    omega
  | readFails hphase hread =>
    have hlength := (length_lines_of_read hread).1
    simp only [hphase, Phase.work] at hwork
    simp only [Action.isOwn, goto_work, Phase.work, if_true]
    omega
  | answer hphase =>
    simp only [hphase, Phase.work] at hwork
    simp only [Action.isOwn, goto_work, Phase.work, if_true]
    omega
  | @silence line outcome hphase =>
    have hnext := next_work s (Protocol.isInitializedNotification crates texts line)
    simp only [hphase, Phase.work] at hwork
    simp only [Action.isOwn, if_true]
    omega
  | @send response starts hphase =>
    have hnext := next_work (s.post response) starts
    simp only [hphase, Phase.work] at hwork
    simp only [Session.post, List.length_append, List.length_singleton] at hnext
    simp only [Action.isOwn, Session.post, if_true]
    omega
  | sendFails hphase =>
    simp only [hphase, Phase.work] at hwork
    simp only [Action.isOwn, goto_work, Phase.work, if_true]
    omega
  | subscribe hphase =>
    simp only [hphase, Phase.work, List.length_cons] at hwork
    simp only [Action.isOwn, nextTopic_work, List.length_cons, if_true]
    omega
  | subscribeFails hphase =>
    simp only [hphase, Phase.work, List.length_cons] at hwork
    simp only [Action.isOwn, goto_work, Phase.work, if_true]
    omega
  | announce hphase =>
    simp only [hphase, Phase.work] at hwork
    simp only [Action.isOwn, nextTopic_work, Session.post, List.length_append,
      List.length_singleton, if_true]
    omega
  | announceFails hphase =>
    simp only [hphase, Phase.work] at hwork
    simp only [Action.isOwn, nextTopic_work, if_true]
    omega
  | finish hphase =>
    simp only [hphase, Phase.work] at hwork
    simp only [Action.isOwn, goto_work, Phase.work, if_true]
    omega
  | finishFails hphase =>
    simp only [hphase, Phase.work] at hwork
    simp only [Action.isOwn, goto_work, Phase.work, if_true]
    omega
  | write _ hmailbox =>
    have hlength := congrArg List.length hmailbox
    rw [List.length_cons] at hlength
    simp only [Action.isOwn, Session.work, if_true]
    omega
  | writeFails _ hmailbox =>
    have hlength := congrArg List.length hmailbox
    rw [List.length_cons] at hlength
    simp only [Action.isOwn, Session.work, List.length_nil, if_true]
    omega
  | stop _ htopic =>
    have herase := List.length_erase_add_one htopic
    simp only [Action.isOwn, Session.work, if_true]
    omega
  | notify =>
    simp [Action.isOwn, Session.work, Session.post]
    omega
  | notifyFails htopic =>
    have herase := List.length_erase_add_one htopic
    simp [Action.isOwn, Session.work]
    omega
  | lose htopic =>
    have herase := List.length_erase_add_one htopic
    simp [Action.isOwn, Session.work, Session.post]
    omega
  | loseFails htopic =>
    have herase := List.length_erase_add_one htopic
    simp [Action.isOwn, Session.work]
    omega

/-- The session's own steps, all told. -/
theorem own_steps_le {r : Reader ε} {acts : List (Action ε)} {s : Session ε}
    (hrun : run (Session.step crates texts maxLineBytes) (.start r) acts = some s) :
    acts.countP (·.isOwn) + s.work ≤ 19 * r.lines.length + 2 + acts.countP (!·.isOwn) := by
  refine history_invariant (Session.step crates texts maxLineBytes)
    (P := fun acts s => acts.countP (·.isOwn) + s.work ≤
      19 * r.lines.length + 2 + acts.countP (!·.isOwn)) ?_ ?_ hrun
  · simp [Session.work, Session.start, Phase.work]
  · intro acts s a t _ ih hstep
    have hwork := work_of_moves (Session.moves_of_step hstep)
    rw [List.countP_append, List.countP_append, List.countP_singleton, List.countP_singleton]
    cases hown : a.isOwn <;> simp [hown] at hwork ⊢ <;> omega

/-- Until it has returned, the session has a step to make. -/
theorem Tracks.canStep {r : Reader ε} {taken : List (List UInt8)} {answers : List (Option Value)}
    {s : Session ε} (h : Tracks crates texts maxLineBytes r taken answers s)
    (hphase : ∀ outcome, s.phase ≠ .returned outcome) :
    ∃ a, a.isOwn = true ∧ (s.step crates texts maxLineBytes a).isSome = true := by
  have hfull : s.failed = none → s.hasRoom = false → ∃ a : Action ε, a.isOwn = true ∧
      (s.step crates texts maxLineBytes a).isSome = true := by
    intro hfailed hroom
    cases hmailbox : s.mailbox with
    | nil => simp [Session.hasRoom, hmailbox, outputMailbox] at hroom
    | cons message rest => exact ⟨.write, rfl, by simp [Session.step, hfailed, hmailbox]⟩
  cases hs : s.phase with
  | reading =>
    refine ⟨.read, rfl, ?_⟩
    simp only [Session.step, hs]
    split <;> rfl
  | handling line =>
    refine ⟨.handle (.ok .null), rfl, ?_⟩
    simp only [Session.step, hs]
    split <;> rfl
  | sending response starts =>
    cases hfailed : s.failed with
    | some e => exact ⟨.send, rfl, by simp [Session.step, hs, hfailed]⟩
    | none =>
      by_cases hroom : s.hasRoom = true
      · exact ⟨.send, rfl, by simp [Session.step, hs, hfailed, hroom]⟩
      · exact hfull hfailed (by simpa using hroom)
  | starting topics =>
    have hfollows := h.follows
    rw [hs] at hfollows
    obtain ⟨topic, rest, rfl⟩ := List.exists_cons_of_ne_nil hfollows.1
    exact ⟨.subscribe (.ok ()), rfl, by simp [Session.step, hs]⟩
  | announcing message topics =>
    cases hfailed : s.failed with
    | some e => exact ⟨.announce, rfl, by simp [Session.step, hs, hfailed]⟩
    | none =>
      by_cases hroom : s.hasRoom = true
      · exact ⟨.announce, rfl, by simp [Session.step, hs, hfailed, hroom]⟩
      · exact hfull hfailed (by simpa using hroom)
  | draining =>
    cases hfailed : s.failed with
    | some e => exact ⟨.finish, rfl, by simp [Session.step, hs, hfailed]⟩
    | none =>
      cases hmailbox : s.mailbox with
      | cons message rest => exact ⟨.write, rfl, by simp [Session.step, hfailed, hmailbox]⟩
      | nil =>
        cases hnotifiers : s.notifiers with
        | cons topic rest =>
          exact ⟨.stop topic, rfl, by simp [Session.step, hs, hnotifiers]⟩
        | nil => exact ⟨.finish, rfl, by simp [Session.step, hs, hfailed, hmailbox, hnotifiers]⟩
  | returned outcome => exact absurd hs (hphase outcome)

/-! ## A run up to a given line -/

/-- Between two lines, with everything written. -/
structure Idle (s : Session ε) : Prop where
  reading : s.phase = .reading
  running : s.failed = none
  empty : s.mailbox = []

theorem reaches_subscribed {s : Session ε} {topics : List Ipc.Topic}
    (hphase : s.phase = .starting topics) (hne : topics ≠ []) (hfailed : s.failed = none)
    (hmailbox : s.mailbox = []) :
    ∃ t, Reaches (Session.step crates texts maxLineBytes) s t ∧ Idle t ∧ t.reader = s.reader := by
  induction topics generalizing s with
  | nil => exact absurd rfl hne
  | cons topic topics ih =>
    have hstep : s.step crates texts maxLineBytes (.subscribe (.ok ())) = some _ :=
      Session.step_of_moves (.subscribe hphase)
    cases topics with
    | nil => exact ⟨_, .head _ hstep (.refl _ _), ⟨rfl, hfailed, hmailbox⟩, rfl⟩
    | cons topic' rest =>
      obtain ⟨t, hreaches, hidle, hreader⟩ := @ih
        ({ s with handles := true, notifiers := topic :: s.notifiers }.nextTopic (topic' :: rest))
        rfl (List.cons_ne_nil _ _) hfailed hmailbox
      exact ⟨t, .head _ hstep hreaches, hidle, hreader⟩

theorem reaches_next {s : Session ε} (starts : Bool) (hfailed : s.failed = none)
    (hmailbox : s.mailbox = []) :
    ∃ t, Reaches (Session.step crates texts maxLineBytes) (s.next starts) t ∧ Idle t ∧
      t.reader = s.reader := by
  unfold Session.next
  split_ifs
  · exact reaches_subscribed rfl (by decide) hfailed hmailbox
  · exact ⟨_, .refl _ _, ⟨rfl, hfailed, hmailbox⟩, rfl⟩

/-- A response is posted and written. -/
theorem reaches_sent {s : Session ε} {response : Value} {starts : Bool}
    (hphase : s.phase = .sending response starts) (hfailed : s.failed = none)
    (hmailbox : s.mailbox = []) :
    ∃ t, Reaches (Session.step crates texts maxLineBytes) s t ∧ Idle t ∧ t.reader = s.reader := by
  have hroom : s.hasRoom = true := by
    rw [Session.hasRoom, hmailbox]
    rfl
  have hsend : s.step crates texts maxLineBytes .send = some _ :=
    Session.step_of_moves (.send hphase hfailed hroom)
  have hwrite : ((s.post response).next starts).step crates texts maxLineBytes .write =
      some ({ s with written := s.written ++ [response] }.next starts) := by
    unfold Session.next
    simp only [Session.step, Session.post, Session.goto, hmailbox]
    split_ifs <;> simp [hfailed]
  obtain ⟨t, hreaches, hidle, hreader⟩ := reaches_next
    (s := { s with written := s.written ++ [response] }) starts hfailed hmailbox
  exact ⟨t, .head _ hsend (.head _ hwrite hreaches), hidle, hreader⟩

/-- Any line but one that is not UTF-8 is behind a session that waited for it. -/
theorem reaches_line {s : Session ε} (hidle : Idle s) {line : List UInt8}
    {rest : List (List UInt8)} (hlines : s.reader.lines = line :: rest)
    (hline : Decodable maxLineBytes line) :
    ∃ t, Reaches (Session.step crates texts maxLineBytes) s t ∧ Idle t ∧ t.reader.lines = rest := by
  rcases readBoundedLine_lines maxLineBytes s.reader with
    ⟨line', reader, hread, hfirst, -⟩ | ⟨_, _, hnone, -⟩
  · obtain ⟨rfl, rfl⟩ := List.cons.inj (hlines.symm.trans hfirst)
    have hsent : ∀ response starts, ∃ t, Reaches (Session.step crates texts maxLineBytes)
        ({ s with reader }.goto (.sending response starts)) t ∧ Idle t ∧ t.reader = reader :=
      fun _ _ => reaches_sent rfl hidle.running hidle.empty
    by_cases hlong : maxLineBytes < line.length
    · rw [frameOf_oversized hlong] at hread
      obtain ⟨t, hreaches, ht, hreader⟩ := hsent (oversizedInputResponse maxLineBytes) false
      exact ⟨t, .head _ (Session.step_of_moves (.readOversized hidle.reading hread)) hreaches, ht,
        by rw [hreader]⟩
    · rw [frameOf_fits hlong] at hread
      obtain ⟨text, htext⟩ := Option.isSome_iff_exists.mp (hline.resolve_left hlong)
      simp only [htext] at hread
      have hstep : s.step crates texts maxLineBytes .read = some _ :=
        Session.step_of_moves (.readLine hidle.reading hread)
      cases hanswer : handleLine crates texts (.ok .null) text with
      | some response =>
        obtain ⟨t, hreaches, ht, hreader⟩ :=
          hsent response (Protocol.isInitializedNotification crates texts text)
        exact ⟨t, .head _ hstep (.head _ (Session.step_of_moves (.answer rfl hanswer)) hreaches),
          ht, by rw [hreader]⟩
      | none =>
        have hnext : ∃ t, Reaches (Session.step crates texts maxLineBytes)
            (({ s with reader }.goto (.handling text)).next
              (Protocol.isInitializedNotification crates texts text)) t ∧ Idle t ∧
            t.reader = reader := reaches_next _ hidle.running hidle.empty
        obtain ⟨t, hreaches, ht, hreader⟩ := hnext
        exact ⟨t, .head _ hstep (.head _ (Session.step_of_moves (.silence rfl hanswer)) hreaches),
          ht, by rw [hreader]⟩
  · rw [hnone] at hlines
    cases hlines

/-- The first line that is not UTF-8 ends the session. -/
theorem reaches_invalidData {s : Session ε} (hidle : Idle s)
    (hbad : ∃ line ∈ s.reader.lines, ¬ Decodable maxLineBytes line) :
    ∃ t, Reaches (Session.step crates texts maxLineBytes) s t ∧
      t.phase = .returned (.readFailed .invalidData) := by
  generalize hlines : s.reader.lines = lines at hbad
  induction lines generalizing s with
  | nil =>
    obtain ⟨line, hmem, -⟩ := hbad
    cases hmem
  | cons line rest ih =>
    by_cases hline : Decodable maxLineBytes line
    · have hserved : ∃ t, Reaches (Session.step crates texts maxLineBytes) s t ∧ Idle t ∧
          t.reader.lines = rest := reaches_line hidle hlines hline
      obtain ⟨t, hreaches, ht, htlines⟩ := hserved
      have hlater : ∃ line ∈ rest, ¬ Decodable maxLineBytes line := by
        obtain ⟨bad, hmem, hnot⟩ := hbad
        rcases List.mem_cons.mp hmem with rfl | hmem
        · exact absurd hline hnot
        · exact ⟨bad, hmem, hnot⟩
      obtain ⟨u, hreaches', hu⟩ := ih ht htlines hlater
      exact ⟨u, hreaches.trans _ hreaches', hu⟩
    · rcases readBoundedLine_lines maxLineBytes s.reader with
        ⟨line', reader, hread, hfirst, -⟩ | ⟨_, _, hnone, -⟩
      · obtain ⟨rfl, -⟩ := List.cons.inj (hlines.symm.trans hfirst)
        simp only [Decodable, not_or, Bool.not_eq_true, Option.isSome_eq_false_iff,
          Option.isNone_iff_eq_none] at hline
        rw [frameOf_fits hline.1] at hread
        simp only [hline.2] at hread
        exact ⟨_, .head _ (Session.step_of_moves (.readFails hidle.reading hread)) (.refl _ _), rfl⟩
      · rw [hnone] at hlines
        cases hlines

/-! ## The lines a session survives -/

/-- Exactly when every line is UTF-8 or too long, a session answers them all: each
request under its id, in order, and it returns at the end of the input or when stdin or
stdout fails. Until then it has a step to make, and it makes finitely many. -/
theorem session_serves_iff (crates : Crates) (texts : Texts) (maxLineBytes : Nat)
    (r : Reader ε) :
    (∀ acts s, run (Session.step crates texts maxLineBytes) (.start r) acts = some s →
      Served crates texts maxLineBytes r s ∧
      ((∀ outcome, s.phase ≠ .returned outcome) → ∃ a, a.isOwn = true ∧
        (s.step crates texts maxLineBytes a).isSome = true) ∧
      acts.countP (·.isOwn) ≤ 19 * r.lines.length + 2 + acts.countP (!·.isOwn)) ↔
    ∀ line ∈ r.lines, Decodable maxLineBytes line := by
  constructor
  · intro h
    by_contra hbad
    push Not at hbad
    have hends : ∃ t, Reaches (Session.step crates texts maxLineBytes) (.start r) t ∧
        t.phase = .returned (.readFailed .invalidData) :=
      reaches_invalidData ⟨rfl, rfl, rfl⟩ hbad
    obtain ⟨t, ⟨acts, hrun⟩, ht⟩ := hends
    rcases (h acts t hrun).1.ended _ ht with ⟨hend, -⟩ | ⟨e, hend, -⟩ | ⟨e, hend, -⟩ <;> cases hend
  · intro hgood acts s hrun
    obtain ⟨taken, answers, h⟩ := tracks_of_run hrun
    have hbound := own_steps_le hrun
    refine ⟨⟨⟨taken, answers, h.front, h.replied, h.sent⟩, ?_⟩, h.canStep, by omega⟩
    intro outcome hphase
    have hfollows := h.follows
    rw [hphase] at hfollows
    cases outcome with
    | endOfInput =>
      obtain ⟨hlines, hfailure, hfailed, hmailbox, -⟩ := hfollows
      have hposted := h.posted hfailed
      rw [hphase, hmailbox, List.append_nil] at hposted
      exact .inl ⟨rfl, hfailure, answers, hlines ▸ h.replied,
        (congrArg responses (List.append_nil _)).symm.trans hposted⟩
    | readFailed e =>
      cases e with
      | stream e => exact .inr (.inl ⟨e, rfl, hfollows⟩)
      | invalidData =>
        obtain ⟨line, hmem, hnot⟩ := hfollows
        exact absurd (hgood line hmem) hnot
    | writeFailed e => exact .inr (.inr ⟨e, rfl, hfollows⟩)

/-! A byte that starts no character, a newline, and a ping. -/

def pingText : String := "\x7b\"jsonrpc\":\"2.0\",\"id\":1,\"method\":\"ping\"\x7d"

def pingValue : Value :=
  .object [("id", .number (.posInt 1)), ("jsonrpc", .string "2.0"), ("method", .string "ping")]

def pingCrates : Crates :=
  { Crates.plain with fromStr := fun text => if text = pingText then some pingValue else none }

def plainTexts : Texts := ⟨fun _ => "", fun _ => ""⟩

def garbledInput : Reader Empty := ⟨[⟨0xff :: newline :: pingText.toUTF8.toList, by simp⟩], none⟩

theorem garbled_line_ends_session :
    garbledInput.failure = none ∧
    (∃ line, garbledInput.lines[1]? = some line ∧ line.length ≤ 4 * 1024 * 1024 ∧
      fromUtf8 (stripCarriageReturn line) = some pingText) ∧
    pingCrates.fromStr pingText = some pingValue ∧
    IsRequest pingValue (.number (.posInt 1)) ∧
    ∃ s, run (Session.step pingCrates plainTexts (4 * 1024 * 1024)) (.start garbledInput) [.read] =
        some s ∧
      s.phase = .returned (.readFailed .invalidData) ∧ s.written = [] ∧ s.mailbox = [] ∧
      ¬ Served pingCrates plainTexts (4 * 1024 * 1024) garbledInput s := by
  have hread : (readBoundedLine (4 * 1024 * 1024) garbledInput).1 = .error .invalidData := by
    decide +kernel
  have hping : garbledInput.lines = [[0xff], pingText.toUTF8.toList] := by decide +kernel
  refine ⟨rfl, ⟨pingText.toUTF8.toList, by rw [hping]; rfl, by decide +kernel, by decide +kernel⟩,
    rfl, ⟨rfl, ⟨"ping", rfl, by decide⟩, rfl, rfl⟩, ?_⟩
  have hstep : Session.step pingCrates plainTexts (4 * 1024 * 1024) (.start garbledInput) .read =
      some _ := Session.step_of_moves (.readFails rfl (Prod.ext hread rfl))
  refine ⟨_, by rw [run_cons, hstep]; rfl, rfl, rfl, rfl, fun hserved => ?_⟩
  rcases hserved.ended _ rfl with ⟨hend, -⟩ | ⟨e, hend, -⟩ | ⟨e, hend, -⟩ <;> cases hend

end Postblox.Mcp.Stdio
