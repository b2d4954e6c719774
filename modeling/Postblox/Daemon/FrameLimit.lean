import Postblox.Daemon.AnswerSizes
import Postblox.Ipc.ConnectionSteps

/-!
# The frames a connection sends and the limit of its reader

The writer task has no limit of its own, so whether the client can read a frame is
decided where the frame is made: by a handler that answers from the request alone, by
the dispatcher from what is stored, and by a subscription from what is published.
-/
namespace Postblox.Daemon.FrameLimit

open Json (Value Data escapedLen decimalLen escapedLen_append escapedLen_toString decimalLen_le)
open Ipc (Connection Request Response OutFrame EventOut Topic JsonCodec Frame maxFrameBytes u64
  toData)
open Ipc.Connection (Replies)
open Lib (Chunk joined)
open Lib.Machine (run Guarded)
open Fetch (Backend Base64 Answer base64Len)

/-! ## Runs -/

/-- A step of the connection, or the end of a dispatch with what the awaited calls of the
op returned. -/
inductive Turn where
  | own (a : Ipc.Action)
  | complete (req : Request) (op : Op) (b : Backend)

section Limit

variable (crates : Crates) (base64 : Base64) (floatText : Rat → List UInt8)

def step (s : Connection) : Turn → Option Connection
  | .own (.complete _ _ _) => none
  | .own a => s.step a
  | .complete req op b => s.step (.complete req op (Fetch.dispatch base64 crates b op req.args.val))

/-! ## The condition -/

/-- What a handler answers from the request alone repeats an unknown topic or op. -/
def RequestFits (req : Request) : Prop :=
  match req.op with
  | "subscribe" =>
    match (req.args.val.get "topic").bind Value.asStr with
    | none => True
    | some topic =>
      Topic.parse topic = none → 75 + decimalLen req.id.toNat + escapedLen topic ≤ maxFrameBytes
  | "unsubscribe" | "ping" => True
  | op => Op.parse op = none → 74 + decimalLen req.id.toNat + escapedLen op ≤ maxFrameBytes

/-- What the op answers with has room in a response. -/
def AnswerFits (id : UInt64) : Except RpcError Answer → Prop
  | .ok a => 25 + decimalLen id.toNat + a.len floatText ≤ maxFrameBytes
  | .error e =>
    51 + decimalLen id.toNat + escapedLen e.code.asStr + escapedLen e.message ≤ maxFrameBytes

/-- The published data has room in an event. -/
def EventFits (sub : UInt64) (topic : Topic) (data : Data) : Prop :=
  27 + decimalLen sub.toNat + escapedLen topic.asStr + data.val.textLen floatText ≤ maxFrameBytes

def Fits : Turn → Prop
  | .own (.poll req) => RequestFits req
  | .own (.forward sub topic data) => EventFits floatText sub topic data
  | .complete req op b => AnswerFits floatText req.id (Fetch.answer crates b op req.args.val)
  | _ => True

/-- The frames a turn makes. -/
inductive Makes : Turn → OutFrame → Prop where
  | poll {req : Request} {r : Response} (h : Replies [] req r) :
      Makes (.own (.poll req)) (.response r)
  | forward (sub : UInt64) (topic : Topic) (data : Data) :
      Makes (.own (.forward sub topic data)) (.event ⟨sub, topic, data⟩)
  | complete (req : Request) (op : Op) (b : Backend) :
      Makes (.complete req op b)
        (.response (.ofResult req.id (Fetch.dispatch base64 crates b op req.args.val)))

end Limit

def payload (codec : JsonCodec) : OutFrame → List UInt8
  | .response r => codec.toVec r.toJson
  | .event e => codec.toVec e.toJson

/-! ## Answers from the request alone -/

section Sizes

variable {codec : JsonCodec} {floatText : Rat → List UInt8}

theorem decimalLen_id (id : UInt64) : decimalLen id.toNat ≤ 20 := decimalLen_le id.toNat_lt

theorem length_success (hcodec : codec.Compact floatText) {id : UInt64} {data : Data}
    (h : data.val ≠ .null) :
    (payload codec (.response (.success id data))).length =
      25 + decimalLen id.toNat + data.val.textLen floatText := by
  rw [payload, hcodec]
  exact Ipc.textLen_success floatText h

theorem length_success_null (hcodec : codec.Compact floatText) (id : UInt64) :
    (payload codec (.response (.success id .null))).length = 17 + decimalLen id.toNat := by
  rw [payload, hcodec]
  exact Ipc.textLen_success_null floatText id

theorem length_failure (hcodec : codec.Compact floatText) (id : UInt64) (e : Ipc.RpcError) :
    (payload codec (.response (.failure id e))).length =
      51 + decimalLen id.toNat + escapedLen e.code + escapedLen e.message := by
  rw [payload, hcodec]
  exact Ipc.textLen_failure floatText id e

theorem length_event (hcodec : codec.Compact floatText) (e : EventOut) :
    (payload codec (.event e)).length =
      27 + decimalLen e.sub.toNat + escapedLen e.topic.asStr + e.data.val.textLen floatText := by
  rw [payload, hcodec]
  exact Ipc.textLen_event floatText e

/-- A text that repeats another one between two parts of its own. -/
theorem escapedLen_around (front text back : String) :
    escapedLen (toString front ++ toString text ++ toString back) =
      escapedLen front + escapedLen text + escapedLen back := by
  rw [escapedLen_append, escapedLen_append]
  rfl

theorem length_unknownOp (hcodec : codec.Compact floatText) (id : UInt64) (op : String) :
    (payload codec (.response (Ipc.unknownOp id op))).length =
      74 + decimalLen id.toNat + escapedLen op := by
  have hcode : escapedLen "unknown_op" = 10 := rfl
  have hfront : escapedLen "unknown op '" = 12 := rfl
  have hback : escapedLen "'" = 1 := rfl
  rw [Ipc.unknownOp, length_failure hcodec, hcode, escapedLen_around, hfront, hback]
  omega

theorem length_unknownTopic (hcodec : codec.Compact floatText) (id : UInt64) (topic : String) :
    (payload codec (.response (.failure id ⟨"bad_args", s!"unknown topic '{topic}'"⟩))).length =
      75 + decimalLen id.toNat + escapedLen topic := by
  have hcode : escapedLen "bad_args" = 8 := rfl
  have hfront : escapedLen "unknown topic '" = 15 := rfl
  have hback : escapedLen "'" = 1 := rfl
  rw [length_failure hcodec, hcode, escapedLen_around, hfront, hback]
  omega

/-- An error whose texts are short. -/
theorem failure_fits (hcodec : codec.Compact floatText) (id : UInt64) {e : Ipc.RpcError}
    (h : escapedLen e.code + escapedLen e.message ≤ 100) :
    (payload codec (.response (.failure id e))).length ≤ maxFrameBytes := by
  have hid := decimalLen_id id
  rw [length_failure hcodec, maxFrameBytes]
  omega

/-- An answer whose data is short. -/
theorem success_fits (hcodec : codec.Compact floatText) (id : UInt64) {v : Value}
    (hordered : v.isOrdered = true) (hne : v ≠ .null) (h : v.textLen floatText ≤ 100) :
    (payload codec (.response (.success id (toData v)))).length ≤ maxFrameBytes := by
  have hval : (toData v).val = v := Json.Value.ofContent_of_isOrdered v hordered
  have hid := decimalLen_id id
  rw [length_success hcodec (by rw [hval]; exact hne), hval, maxFrameBytes]
  omega

theorem escapedLen_topic {s : String} {topic : Topic} (h : Topic.parse s = some topic) :
    escapedLen s ≤ 22 := by
  unfold Topic.parse at h
  split at h
  iterate 6
    · decide
  · cases h

theorem handleSubscribe_fits (hcodec : codec.Compact floatText) {req : Request}
    {subs : List (UInt64 × Topic)} {nextSub : UInt64}
    (h : ∀ topic, (req.args.val.get "topic").bind Value.asStr = some topic →
      Topic.parse topic = none → 75 + decimalLen req.id.toNat + escapedLen topic ≤ maxFrameBytes) :
    (payload codec (.response (Ipc.handleSubscribe req subs nextSub).1)).length ≤ maxFrameBytes := by
  unfold Ipc.handleSubscribe
  split
  · exact failure_fits hcodec req.id (by decide)
  · next topicStr htopic =>
    split
    · next hparse =>
      rw [length_unknownTopic hcodec]
      exact h topicStr htopic hparse
    · next topic hparse =>
      split_ifs
      · exact failure_fits hcodec req.id (by decide)
      · have hid := decimalLen_id nextSub
        have hshort := escapedLen_topic hparse
        have hsub : escapedLen "sub_id" = 6 := rfl
        have hkey : escapedLen "topic" = 5 := rfl
        refine success_fits hcodec req.id
          (Fetch.isOrdered_object ["sub_id", "topic"] (by decide +kernel) rfl rfl) (by simp) ?_
        simp only [Json.textLen_object, Json.entriesLen_cons, Json.entriesLen_nil,
          Ipc.textLen_u64, Json.textLen_string, hsub, hkey]
        omega

theorem handleUnsubscribe_fits (hcodec : codec.Compact floatText) (req : Request)
    (subs : List (UInt64 × Topic)) :
    (payload codec (.response (Ipc.handleUnsubscribe req subs).1)).length ≤ maxFrameBytes := by
  unfold Ipc.handleUnsubscribe
  split
  · exact failure_fits hcodec req.id (by decide)
  · next subId _ =>
    split_ifs
    · exact success_fits hcodec req.id
        (Fetch.isOrdered_object ["unsubscribed"] (by decide) rfl rfl) (by simp)
        (Nat.le_of_ble_eq_true rfl)
    · have hid := decimalLen_id subId
      have hcode : escapedLen "unknown_sub" = 11 := rfl
      have hmessage : escapedLen s!"no subscription with id {subId.toNat}" =
          24 + decimalLen subId.toNat := by
        rw [escapedLen_append, escapedLen_toString]
        rfl
      refine failure_fits hcodec req.id ?_
      rw [hcode, hmessage]
      omega

theorem pong_fits (hcodec : codec.Compact floatText) (id : UInt64) :
    (payload codec (.response (Ipc.pong id))).length ≤ maxFrameBytes :=
  success_fits hcodec id (Fetch.isOrdered_object ["pong"] (by decide) rfl rfl) (by simp)
    (Nat.le_of_ble_eq_true rfl)

/-- A handler's own answers fit exactly if the request does. -/
theorem requestFits_iff (hcodec : codec.Compact floatText) (req : Request) :
    RequestFits req ↔
      ∀ r, Replies [] req r → (payload codec (.response r)).length ≤ maxFrameBytes := by
  constructor
  · intro h r hreply
    cases hreply with
    | subscribe hop subs nextSub =>
      rw [RequestFits, hop] at h
      refine handleSubscribe_fits hcodec fun topic htopic => ?_
      simpa only [htopic] using h
    | unsubscribe _ subs => exact handleUnsubscribe_fits hcodec req subs
    | ping => exact pong_fits hcodec req.id
    | unknown hop =>
      have hid := decimalLen_id req.id
      rw [length_unknownOp hcodec]
      unfold RequestFits at h
      split at h
      iterate 3
        · next hname =>
          have hshort : escapedLen req.op ≤ 11 := by
            rw [hname]
            decide
          rw [maxFrameBytes]
          omega
      · exact h hop
    | dispatched _ hresult => cases hresult
  · intro h
    unfold RequestFits
    split
    · next hop =>
      split
      · trivial
      · next topic htopic =>
        intro hparse
        have hfits := h _ (.subscribe hop [] 1)
        rw [← length_unknownTopic hcodec]
        simpa only [Ipc.handleSubscribe, htopic, hparse] using hfits
    · trivial
    · trivial
    · intro hop
      rw [← length_unknownOp hcodec]
      exact h _ (.unknown hop)

/-! ## Answers of the dispatcher -/

variable {crates : Crates} {base64 : Base64}

theorem answerFits_iff (hcodec : codec.Compact floatText) (hbase64 : base64.Standard)
    (req : Request) (op : Op) (b : Backend) :
    AnswerFits floatText req.id (Fetch.answer crates b op req.args.val) ↔
      (payload codec (.response (.ofResult req.id
        (Fetch.dispatch base64 crates b op req.args.val)))).length ≤ maxFrameBytes := by
  unfold Fetch.dispatch
  cases Fetch.answer crates b op req.args.val with
  | ok a =>
    have hid := decimalLen_id req.id
    have hval := Fetch.toData_toJson base64 a
    have hlen := Fetch.textLen_toJson floatText hbase64 a
    rw [AnswerFits, Response.ofResult, ← hlen]
    by_cases hnull : a.toJson base64 = .null
    · -- a null answer leaves `data` out
      have hdata : toData (a.toJson base64) = .null := Subtype.ext (hval.trans hnull)
      rw [hdata, length_success_null hcodec, hnull, Json.textLen_null, maxFrameBytes]
      omega
    · rw [length_success hcodec (by rw [hval]; exact hnull), hval]
  | error e => rw [AnswerFits, Response.ofResult, length_failure hcodec]

/-- A turn is within the condition exactly if the frames it makes are within the limit. -/
theorem fits_iff (hcodec : codec.Compact floatText) (hbase64 : base64.Standard) (turn : Turn) :
    Fits crates floatText turn ↔
      ∀ frame, Makes crates base64 turn frame → (payload codec frame).length ≤ maxFrameBytes := by
  cases turn with
  | complete req op b =>
    rw [Fits, answerFits_iff hcodec hbase64]
    constructor
    · intro h frame hmakes
      cases hmakes
      exact h
    · intro h
      exact h _ (.complete req op b)
  | own a =>
    cases a with
    | poll req =>
      rw [Fits, requestFits_iff hcodec]
      constructor
      · intro h frame hmakes
        cases hmakes with
        | poll hreply => exact h _ hreply
      · intro h r hreply
        exact h _ (.poll hreply)
    | forward sub topic data =>
      have hlen := length_event hcodec ⟨sub, topic, data⟩
      rw [Fits, EventFits, ← hlen]
      constructor
      · intro h frame hmakes
        cases hmakes
        exact h
      · intro h
        exact h _ (.forward sub topic data)
    | _ => exact ⟨fun _ frame hmakes => (nomatch hmakes), fun _ => trivial⟩

end Sizes

/-! ## Runs -/

/-- The frame waits for the mailbox or in it. -/
inductive Queued (s : Connection) : OutFrame → Prop where
  | replying {req : Request} {r : Response} (h : (req, r) ∈ s.replying) : Queued s (.response r)
  | mailbox {frame : OutFrame} (h : frame ∈ s.mailbox) : Queued s frame

theorem Queued.mono {s t : Connection} {frame : OutFrame} (h : Queued t frame)
    (hreplying : ∀ p ∈ t.replying, p ∈ s.replying)
    (hmailbox : ∀ f ∈ t.mailbox, Queued s f) : Queued s frame := by
  cases h with
  | replying h => exact .replying (hreplying _ h)
  | mailbox h => exact hmailbox _ h

section Runs

variable {crates : Crates} {base64 : Base64} {s t : Connection} {frame : OutFrame}

/-- A reply more than before. -/
theorem queued_of_reply {req : Request} {r : Response} (h : Queued t frame)
    (hreplying : t.replying = (req, r) :: s.replying) (hmailbox : t.mailbox = s.mailbox) :
    Queued s frame ∨ frame = .response r := by
  cases h with
  | replying h =>
    rw [hreplying, List.mem_cons] at h
    obtain h | h := h
    · cases h
      exact .inr rfl
    · exact .inl (.replying h)
  | mailbox h =>
    rw [hmailbox] at h
    exact .inl (.mailbox h)

theorem queued_of_poll {req : Request} (h : Queued (s.pollHandler req) frame) :
    Queued s frame ∨ ∃ r, frame = .response r ∧ Replies [] req r := by
  unfold Connection.pollHandler at h
  split at h
  · next hop =>
    obtain hbefore | heq := queued_of_reply (s := s) h rfl rfl
    · exact .inl hbefore
    · exact .inr ⟨_, heq, .subscribe hop s.subs s.nextSub⟩
  · next hop =>
    obtain hbefore | heq := queued_of_reply (s := s) h rfl rfl
    · exact .inl hbefore
    · exact .inr ⟨_, heq, .unsubscribe hop s.subs⟩
  · next hop =>
    obtain hbefore | heq := queued_of_reply (s := s) h rfl rfl
    · exact .inl hbefore
    · exact .inr ⟨_, heq, .ping hop⟩
  · split at h
    · exact .inl (h.mono (fun _ hp => hp) fun _ hf => .mailbox hf)
    · next hop =>
      obtain hbefore | heq := queued_of_reply (s := s) h rfl rfl
      · exact .inl hbefore
      · exact .inr ⟨_, heq, .unknown hop⟩

/-- A step of the client leaves what waits as it is. -/
theorem queued_of_calls (hcalls : Connection.Calls s t) (h : Queued t frame) : Queued s frame := by
  have hreplying : t.replying = s.replying := by cases hcalls <;> rfl
  have hmailbox : t.mailbox = s.mailbox := by cases hcalls <;> rfl
  refine h.mono (fun p hp => ?_) fun f hf => ?_
  · rw [hreplying] at hp
    exact hp
  · rw [hmailbox] at hf
    exact .mailbox hf

/-- What waits after a turn waited before, or the turn made it. -/
theorem queued_of_step {turn : Turn} (hstep : step crates base64 s turn = some t)
    (h : Queued t frame) : Queued s frame ∨ Makes crates base64 turn frame := by
  cases turn with
  | complete req op b =>
    simp only [step, Connection.step] at hstep
    split_ifs at hstep
    cases hstep
    obtain hbefore | rfl := queued_of_reply (s := s) h rfl rfl
    · exact .inl hbefore
    · exact .inr (.complete req op b)
  | own a =>
    cases a with
    | client ca =>
      cases ca with
      | arrive item => cases hstep
      | _ =>
        obtain ⟨c, hc, rfl⟩ := Option.map_eq_some_iff.mp hstep
        refine .inl (queued_of_calls (Connection.calls_of_step ?_ hc) h)
        exact fun _ heq => by cases heq
    | complete => cases hstep
    | poll req =>
      simp only [step, Connection.step] at hstep
      split_ifs at hstep
      cases hstep
      obtain hbefore | ⟨r, rfl, hreply⟩ := queued_of_poll h
      · exact .inl (hbefore.mono (fun _ hp => hp) fun _ hf => .mailbox hf)
      · exact .inr (.poll hreply)
    | forward sub topic data =>
      simp only [step, Connection.step] at hstep
      split_ifs at hstep
      cases hstep
      cases h with
      | replying h => exact .inl (.replying h)
      | mailbox h =>
        obtain h | h := List.mem_append.mp h
        · exact .inl (.mailbox h)
        · obtain rfl := List.mem_singleton.mp h
          exact .inr (.forward sub topic data)
    | respond req r =>
      simp only [step, Connection.step] at hstep
      split_ifs at hstep with hmem
      · cases hstep
        exact .inl (h.mono (fun _ hp => List.mem_of_mem_erase hp) fun _ hf => .mailbox hf)
      · cases hstep
        refine .inl (h.mono (fun _ hp => List.mem_of_mem_erase hp) fun f hf => ?_)
        obtain hf | hf := List.mem_append.mp hf
        · exact .mailbox hf
        · obtain rfl := List.mem_singleton.mp hf
          exact .replying hmem
    | receive =>
      simp only [step, Connection.step] at hstep
      split at hstep
      · split_ifs at hstep
        cases hstep
        exact .inl (h.mono (fun _ hp => hp) fun _ hf => .mailbox hf)
      · cases hstep
    | write | writeUnreadable =>
      simp only [step, Connection.step] at hstep
      split at hstep
      · next hmailbox =>
        split_ifs at hstep
        cases hstep
        refine .inl (h.mono (fun _ hp => hp) fun f hf => .mailbox ?_)
        rw [hmailbox]
        exact List.mem_cons_of_mem _ hf
      · cases hstep
    | cancel task =>
      cases task with
      | replying req r =>
        simp only [step, Connection.step] at hstep
        split_ifs at hstep
        cases hstep
        exact .inl (h.mono (fun _ hp => List.mem_of_mem_erase hp) fun _ hf => .mailbox hf)
      | _ =>
        simp only [step, Connection.step] at hstep
        split_ifs at hstep
        cases hstep
        exact .inl (h.mono (fun _ hp => hp) fun _ hf => .mailbox hf)
    | drain =>
      simp only [step, Connection.step] at hstep
      split_ifs at hstep
      cases hstep
      exact .inl (h.mono (fun _ hp => absurd hp List.not_mem_nil) fun _ hf => .mailbox hf)
    | writeFails =>
      simp only [step, Connection.step] at hstep
      split_ifs at hstep
      cases hstep
      exact .inl (h.mono (fun _ hp => hp) fun _ hf => absurd hf List.not_mem_nil)
    | interrupt =>
      cases hstep
      exact .inl (h.mono (fun _ hp => hp) fun _ hf => .mailbox hf)
    | reap | close =>
      simp only [step, Connection.step] at hstep
      split_ifs at hstep
      cases hstep
      exact .inl (h.mono (fun _ hp => hp) fun _ hf => .mailbox hf)

/-! ## Reading -/

/-- The client's reader takes the frame: the payload is within the limit, and where
`serde_json` reads its own text back, `read_frame_with_buf` returns the frame, however the
bytes arrive. -/
structure Receivable (codec : JsonCodec) (frame : OutFrame) : Prop where
  fits : (payload codec frame).length ≤ maxFrameBytes
  accepted : codec.fromSlice (payload codec frame) = some frame.frame.toJson →
    ∀ (chunks : List Chunk) (broken : Bool) (buf rest : List UInt8),
      joined chunks = Ipc.writerTask codec frame ++ rest →
      ∃ left, Ipc.readFrameWithBuf codec Frame.ofJson ⟨chunks, broken⟩ buf =
        (.ok frame.frame, ⟨left, broken⟩, payload codec frame) ∧ joined left = rest

variable {codec : JsonCodec} {floatText : Rat → List UInt8}

theorem writerTask_eq (codec : JsonCodec) (frame : OutFrame) :
    Ipc.writerTask codec frame =
      Ipc.toBeBytes (payload codec frame).length ++ payload codec frame := by
  cases frame <;> rfl

theorem payload_ne_nil (hcodec : codec.Compact floatText) (frame : OutFrame) :
    payload codec frame ≠ [] := by
  have hobject : ∀ entries, (Value.object entries).text floatText ≠ [] := by
    intro entries h
    have hlen := Json.textLen_object floatText entries
    rw [Value.textLen, h, List.length_nil] at hlen
    omega
  cases frame with
  | response r =>
    rw [payload, hcodec]
    exact hobject _
  | event e =>
    rw [payload, hcodec]
    exact hobject _

theorem receivable_of_fits (hcodec : codec.Compact floatText)
    (hfits : (payload codec frame).length ≤ maxFrameBytes) : Receivable codec frame where
  fits := hfits
  accepted hreads chunks broken buf rest hchunks := by
    rw [writerTask_eq] at hchunks
    refine Ipc.readFrameWithBuf_spec hchunks (payload_ne_nil hcodec frame) hfits ?_ broken buf
    rw [hreads]
    exact Frame.ofJson_toJson frame.frame

/-- A frame over the limit ends the reader. -/
theorem readFrameWithBuf_tooLarge {chunks : List Chunk} {rest : List UInt8}
    (h : joined chunks = Ipc.writerTask codec frame ++ rest)
    (hlarge : maxFrameBytes < (payload codec frame).length)
    (hlen : (payload codec frame).length < 2 ^ 32) (broken : Bool) (buf : List UInt8) :
    (Ipc.readFrameWithBuf codec Frame.ofJson ⟨chunks, broken⟩ buf).1 =
      .error (.frameTooLarge (payload codec frame).length) := by
  rw [writerTask_eq, List.append_assoc] at h
  have hfour : ([0, 0, 0, 0] : List UInt8).length =
    (Ipc.toBeBytes (payload codec frame).length).length := rfl
  obtain ⟨left, hread, -⟩ := Ipc.Stream.readExact_spec h hfour broken
  have hpos : (payload codec frame).length ≠ 0 := by omega
  rw [Ipc.readFrameWithBuf, hread]
  simp only [Ipc.fromBeBytes_toBeBytes hlen, if_neg hpos, if_pos hlarge]

end Runs

/-! A draft with one attachment, fetched over a connection. -/

def draftId : Uuid := .filled 1

def storedDraft : Fetch.Draft where
  id := draftId
  accountId := draftId
  inReplyToMsg := none
  toAddrs := ["ada@example.org"]
  ccAddrs := []
  bccAddrs := []
  subject := some "Notes"
  textBody := some "As promised.\n"
  htmlBody := none
  inReplyTo := none
  referencesHeader := none
  remoteFolderId := none
  remoteUid := none
  createdAt := "2024-05-01T08:00:00Z"
  updatedAt := "2024-05-01T08:00:00Z"

def storedAttachment (bytes : List UInt8) : Fetch.DraftAttachment :=
  ⟨draftId, draftId, "notes.txt", "text/plain", .ofNat bytes.length⟩

def draftBackend (bytes : List UInt8) : Backend where
  getDraft _ := .ok (some storedDraft)
  listForDraft _ := .ok [storedAttachment bytes]
  loadContent _ := .ok (some bytes)
  getAttachment _ := .ok none
  listForMessage _ := .ok []
  getMessage _ := .ok none
  getFolderAndAccount _ _ := .ok (none, none)
  readFile _ := none
  credentialFor _ := none
  syncFolder _ _ _ _ := none
  parseMail _ := none
  select _ _ := .ok []
  find _ _ := .ok none
  perform _ _ := .ok .null

def draftRequest : Request :=
  ⟨1, "draft.get", ⟨.object [("id", .string draftId.hyphenated)], by decide +kernel⟩⟩

def draftResponse (bytes : List UInt8) : Response :=
  .ofResult draftRequest.id (Fetch.dispatch Fetch.documentedBase64 .plain (draftBackend bytes)
    .draftGet draftRequest.args.val)

def draftAsked : List Turn :=
  [.own (.client (.request "draft.get" draftRequest.args)), .own (.client .write), .own .receive,
    .own (.poll draftRequest)]

def draftAnswered (bytes : List UInt8) : List Turn :=
  [.complete draftRequest .draftGet (draftBackend bytes),
    .own (.respond draftRequest (draftResponse bytes))]

/-- Compact text, read back for the values at hand; none of them has a float. -/
def plainCodec (values : List Value) : JsonCodec where
  toVec v := v.text fun _ => []
  fromSlice bytes := values.find? fun v => v.text (fun _ => []) = bytes

theorem answer_draft (bytes : List UInt8) :
    Fetch.answer .plain (draftBackend bytes) .draftGet draftRequest.args.val =
      .ok (.draft storedDraft [(storedAttachment bytes, bytes)]) := rfl

/-- The answer to the request is put into the mailbox. -/
theorem run_draftAnswered (bytes : List UInt8) :
    ∃ s, run (step .plain Fetch.documentedBase64) .start (draftAsked ++ draftAnswered bytes) =
      some s ∧ s.mailbox = [.response (draftResponse bytes)] := by
  obtain ⟨s, hasked, hdispatching, hreplying, hmailbox, hwriting⟩ :
      ∃ s, run (step .plain Fetch.documentedBase64) .start draftAsked = some s ∧
        s.dispatching = [(draftRequest, .draftGet)] ∧ s.replying = [] ∧ s.mailbox = [] ∧
        s.writing = true := ⟨_, rfl, rfl, rfl, rfl, rfl⟩
  rw [Lib.Machine.run_append, hasked]
  simp [draftAnswered, Lib.Machine.run_cons, step, Connection.step, hdispatching, hreplying,
    hmailbox, hwriting, Ipc.writerMailbox, draftResponse]

/-- Everything but the file counts little. -/
theorem length_draftResponse (bytes : List UInt8) :
    base64Len bytes.length <
        (payload (plainCodec []) (.response (draftResponse bytes))).length ∧
      (payload (plainCodec []) (.response (draftResponse bytes))).length ≤
        base64Len bytes.length + 2000 := by
  have hcodec : (plainCodec []).Compact fun _ => [] := fun _ => rfl
  have hid : decimalLen draftRequest.id.toNat = 1 := rfl
  have hdraft : storedDraft.toJson.textLen (fun _ => []) ≤ 1000 := by decide +kernel
  have hname : escapedLen "notes.txt" = 9 := rfl
  have htype : escapedLen "text/plain" = 10 := rfl
  have hfile := Ipc.i64Len_le (.ofNat bytes.length)
  let stored : Answer := .draft storedDraft [(storedAttachment bytes, bytes)]
  have hval := Fetch.toData_toJson Fetch.documentedBase64 stored
  have hne : (toData (stored.toJson Fetch.documentedBase64)).val ≠ .null := by
    rw [hval]
    exact fun h => (nomatch h)
  have hlen : stored.len (fun _ => []) = 25 +
      (Fetch.draftAttachmentLen (storedAttachment bytes) bytes + 2) +
      storedDraft.toJson.textLen fun _ => [] := by
    simp [stored, Answer.len, Fetch.arrayLen]
  rw [draftResponse, Fetch.dispatch, answer_draft, Response.ofResult, length_success hcodec hne,
    hval, Fetch.textLen_toJson _ Fetch.documentedBase64_standard, hlen, hid,
    Fetch.draftAttachmentLen]
  simp only [storedAttachment, hname, htype]
  omega

/-- Three megabytes, well within what a draft may carry. -/
def largeFile : List UInt8 := List.replicate (3 * 1024 * 1024) 0

end Postblox.Daemon.FrameLimit
