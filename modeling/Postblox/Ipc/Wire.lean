import Postblox.Ipc.Protocol
import Postblox.Lib.Chunks

/-!
# Length-prefixed frames

`<u32-BE length><JSON payload>`, the length without its own four bytes. Three places
write frames: `write_frame`, the client's copy of it and the server's writer task, which
has no bound of its own. One place reads them, into a buffer it reuses.
-/
namespace Postblox.Ipc

open Json (Value Data)
open Lib (Chunk joined readExact)

/-- `MAX_FRAME_BYTES`. -/
def maxFrameBytes : Nat := 4 * 1024 * 1024

/-- `serde_json` as text: `to_vec`, and `from_slice` up to the buffered content. -/
structure JsonCodec where
  toVec : Value → List UInt8
  fromSlice : List UInt8 → Option Value

/-- How deep `serde_json` reads: it stops at the 128th nested array or object. -/
def nestingLimit : Nat := 127

/-- The codec reads these values back from their text, and no value from no text. -/
structure JsonCodec.Faithful (codec : JsonCodec) (values : List Value) : Prop where
  empty : codec.fromSlice [] = none
  readsBack : ∀ v ∈ values, v.isFloatFree = true → v.depth ≤ nestingLimit →
    codec.fromSlice (codec.toVec v) = some v

/-! ## The length -/

/-- `(len as u32).to_be_bytes()`. -/
def toBeBytes (len : Nat) : List UInt8 :=
  [.ofNat (len % 2 ^ 32 / 2 ^ 24), .ofNat (len % 2 ^ 32 / 2 ^ 16 % 2 ^ 8),
    .ofNat (len % 2 ^ 32 / 2 ^ 8 % 2 ^ 8), .ofNat (len % 2 ^ 8)]

/-- `u32::from_be_bytes`. -/
def fromBeBytes (bytes : List UInt8) : Nat := bytes.foldl (fun n b => n * 2 ^ 8 + b.toNat) 0

theorem fromBeBytes_toBeBytes {len : Nat} (h : len < 2 ^ 32) :
    fromBeBytes (toBeBytes len) = len := by
  simp only [toBeBytes, fromBeBytes, List.foldl_cons, List.foldl_nil, UInt8.toNat_ofNat']
  omega

/-! ## Writing -/

/-- An error of the transport, `UnexpectedEof` among them. -/
inductive IoError where
  | unexpectedEof
  | other
  deriving DecidableEq

inductive WireError where
  | io (e : IoError)
  | frameTooLarge (n : Nat)
  | json
  | emptyPayload
  | closed
  deriving DecidableEq

section Codec

variable (codec : JsonCodec)

/-- `wire::write_frame`: the bytes written, prefix first. -/
def writeFrame (value : Value) : Except WireError (List UInt8) :=
  let payload := codec.toVec value
  if maxFrameBytes < payload.length then .error (.frameTooLarge payload.length)
  else .ok (toBeBytes payload.length ++ payload)

inductive ClientError where
  | io (e : IoError)
  | wire (e : WireError)
  | json
  | closed
  | emptyResponse (message : String)
  | server (code message : String)
  deriving DecidableEq

/-- `Client::write_frame`. -/
def clientWriteFrame (value : Value) : Except ClientError (List UInt8) :=
  let payload := codec.toVec value
  if maxFrameBytes < payload.length then .error (.wire (.frameTooLarge payload.length))
  else .ok (toBeBytes payload.length ++ payload)

/-- The server's event: the topic is one of `Topic`, the payload is shared. -/
structure EventOut where
  sub : UInt64
  topic : Topic
  data : Data

def EventOut.toJson (e : EventOut) : Value :=
  .object [("sub", u64 e.sub), ("topic", .string e.topic.asStr), ("data", e.data.val)]

inductive OutFrame where
  | response (r : Response)
  | event (e : EventOut)

/-- What the writer task writes for a frame of its mailbox. -/
def writerTask : OutFrame → List UInt8
  | .response r =>
    let encodeBuf := codec.toVec r.toJson
    toBeBytes encodeBuf.length ++ encodeBuf
  | .event e =>
    let encodeBuf := codec.toVec e.toJson
    toBeBytes encodeBuf.length ++ encodeBuf

/-! ## Reading -/

/-- What is left of the stream, and whether it breaks off with an error. -/
structure Stream where
  chunks : List Chunk
  broken : Bool

/-- `read_exact` on a zeroed or reused buffer. -/
def Stream.readExact (s : Stream) (buf : List UInt8) : Except IoError (List UInt8) × Stream :=
  match Lib.readExact buf 0 s.chunks with
  | (some filled, left) => (.ok filled, { s with chunks := left })
  | (none, left) =>
    (.error (if s.broken then .other else .unexpectedEof), { s with chunks := left })

/-- `Vec::resize`. -/
def resize (buf : List UInt8) (len : Nat) : List UInt8 :=
  buf.take len ++ List.replicate (len - buf.length) 0

/-- `read_frame_with_buf`: the result, the stream and the buffer afterwards. -/
def readFrameWithBuf {α : Type} (ofJson : Value → Option α) (s : Stream) (buf : List UInt8) :
    Except WireError α × Stream × List UInt8 :=
  match s.readExact [0, 0, 0, 0] with
  | (.error .unexpectedEof, s) => (.error .closed, s, buf)
  | (.error e, s) => (.error (.io e), s, buf)
  | (.ok lenBuf, s) =>
    let len := fromBeBytes lenBuf
    if len = 0 then (.error .emptyPayload, s, buf)
    else if maxFrameBytes < len then (.error (.frameTooLarge len), s, buf)
    else
      let buf := resize buf len
      match s.readExact buf with
      | (.error e, s) => (.error (.io e), s, buf)
      | (.ok buf, s) =>
        match (codec.fromSlice buf).bind ofJson with
        | some value => (.ok value, s, buf)
        | none => (.error .json, s, buf)

/-- Frames until the first error. -/
def readFrames : Nat → Stream → List UInt8 → List Frame × Option WireError
  | 0, _, _ => ([], none)
  | n + 1, s, buf =>
    match readFrameWithBuf codec Frame.ofJson s buf with
    | (.error e, _, _) => ([], some e)
    | (.ok frame, s, buf) =>
      let (frames, e) := readFrames n s buf
      (frame :: frames, e)

end Codec

/-! ## The three writers and the reader -/

/-- A frame with the place that wrote it. -/
inductive Sent where
  | wire (frame : Frame)
  | client (frame : Frame)
  | server (frame : OutFrame)

def OutFrame.frame : OutFrame → Frame
  | .response r => .response r
  | .event e => .event ⟨e.sub, e.topic.asStr, e.data⟩

namespace Sent

def frame : Sent → Frame
  | .wire f => f
  | .client f => f
  | .server f => f.frame

/-- What goes into the stream; `none` where the writer refuses. -/
def write (codec : JsonCodec) : Sent → Option (List UInt8)
  | .wire f => (writeFrame codec f.toJson).toOption
  | .client f => (clientWriteFrame codec f.toJson).toOption
  | .server f => some (writerTask codec f)

end Sent

/-- The `args` or `data` of a frame. -/
def Frame.data : Frame → Data
  | .request r => r.args
  | .response r => r.data
  | .event e => e.data

/-- A frame that `serde_json` can read back: no floats, and not too deep with the frame
around its payload. -/
structure Frame.Readable (f : Frame) : Prop where
  floatFree : f.data.val.isFloatFree = true
  nesting : f.data.val.depth < nestingLimit

instance (f : Frame) : Decidable f.Readable :=
  decidable_of_iff (f.data.val.isFloatFree = true ∧ f.data.val.depth < nestingLimit)
    ⟨fun h => ⟨h.1, h.2⟩, fun h => ⟨h.1, h.2⟩⟩

variable {codec : JsonCodec}

/-- Every writer writes the length and the text of the same JSON. -/
theorem Sent.write_eq {s : Sent} (h : (codec.toVec s.frame.toJson).length ≤ maxFrameBytes) :
    s.write codec = some (toBeBytes (codec.toVec s.frame.toJson).length ++
      codec.toVec s.frame.toJson) := by
  have hfits : ¬ maxFrameBytes < (codec.toVec s.frame.toJson).length := by omega
  cases s with
  | wire f =>
    simp only [Sent.write, Sent.frame, writeFrame] at hfits ⊢
    rw [if_neg hfits]
    rfl
  | client f =>
    simp only [Sent.write, Sent.frame, clientWriteFrame] at hfits ⊢
    rw [if_neg hfits]
    rfl
  | server f => cases f <;> rfl

theorem Frame.isFloatFree_toJson {f : Frame} (h : f.data.val.isFloatFree = true) :
    f.toJson.isFloatFree = true := by
  cases f with
  | request r =>
    have hargs : r.args.val.isFloatFree = true := h
    simp [toJson, Request.toJson, u64, Value.isFloatFree, Json.entriesFloatFree, hargs]
  | event e =>
    have hdata : e.data.val.isFloatFree = true := h
    simp [toJson, Event.toJson, u64, Value.isFloatFree, Json.entriesFloatFree, hdata]
  | response r =>
    have hdata : r.data.val.isFloatFree = true := h
    simp only [toJson, Response.toJson, Response.entries]
    cases r.error <;> split_ifs <;>
      simp [u64, Value.isFloatFree, Json.entriesFloatFree, RpcError.toJson, hdata]

theorem Frame.depth_toJson {f : Frame} (h : f.data.val.depth < nestingLimit) :
    f.toJson.depth ≤ nestingLimit := by
  unfold nestingLimit at h ⊢
  cases f with
  | request r =>
    have hdata : r.args.val.depth < 127 := h
    simp only [toJson, Request.toJson, u64, Value.depth, Json.entriesDepth]
    omega
  | event e =>
    have hdata : e.data.val.depth < 127 := h
    simp only [toJson, Event.toJson, u64, Value.depth, Json.entriesDepth]
    omega
  | response r =>
    have hdata : r.data.val.depth < 127 := h
    simp only [toJson, Response.toJson, Response.entries]
    cases r.error <;> split_ifs <;>
      simp only [u64, Value.depth, Json.entriesDepth, RpcError.toJson, List.cons_append,
        List.nil_append, List.append_nil, Option.toList_none, Option.toList_some, List.map_nil,
        List.map_cons] <;> omega

theorem length_resize (buf : List UInt8) (len : Nat) : (resize buf len).length = len := by
  rw [resize, List.length_append, List.length_take, List.length_replicate]
  omega

/-- `read_exact` on a stream that starts with the bytes it asks for. -/
theorem Stream.readExact_spec {chunks : List Chunk} {buf bytes rest : List UInt8}
    (h : joined chunks = bytes ++ rest) (hlength : buf.length = bytes.length) (broken : Bool) :
    ∃ left, (⟨chunks, broken⟩ : Stream).readExact buf = (.ok bytes, ⟨left, broken⟩) ∧
      joined left = rest := by
  obtain ⟨left, hread, hleft⟩ := Lib.readExact_spec (Nat.zero_le buf.length)
    (by rw [h, List.length_append]; omega)
  rw [h, Nat.sub_zero, hlength, List.take_zero, List.nil_append, List.take_left] at hread
  rw [h, Nat.sub_zero, hlength, List.drop_left] at hleft
  refine ⟨left, ?_, hleft⟩
  rw [Stream.readExact, hread]

/-- One frame off the front of a stream. -/
theorem readFrameWithBuf_spec {chunks : List Chunk} {payload rest : List UInt8} {α : Type}
    {ofJson : Value → Option α} {value : α}
    (h : joined chunks = toBeBytes payload.length ++ payload ++ rest)
    (hne : payload ≠ []) (hfits : payload.length ≤ maxFrameBytes)
    (hvalue : (codec.fromSlice payload).bind ofJson = some value) (broken : Bool)
    (buf : List UInt8) :
    ∃ left, readFrameWithBuf codec ofJson ⟨chunks, broken⟩ buf =
        (.ok value, ⟨left, broken⟩, payload) ∧ joined left = rest := by
  rw [List.append_assoc] at h
  have hfour : ([0, 0, 0, 0] : List UInt8).length = (toBeBytes payload.length).length := rfl
  obtain ⟨left₁, hlen, hrest₁⟩ := Stream.readExact_spec h hfour broken
  obtain ⟨left₂, hread, hrest₂⟩ := Stream.readExact_spec hrest₁
    (length_resize buf payload.length) broken
  refine ⟨left₂, ?_, hrest₂⟩
  have hsmall : payload.length < 2 ^ 32 := by
    unfold maxFrameBytes at hfits
    omega
  have hpos : payload.length ≠ 0 := by
    rw [ne_eq, List.length_eq_zero_iff]
    exact hne
  rw [readFrameWithBuf, hlen]
  simp only [fromBeBytes_toBeBytes hsmall, if_neg hpos, if_neg (Nat.not_lt.mpr hfits), hread,
    hvalue]

/-- At the end of the stream. -/
theorem readFrameWithBuf_nil {chunks : List Chunk} (h : joined chunks = []) (buf : List UInt8) :
    readFrameWithBuf codec Frame.ofJson ⟨chunks, false⟩ buf =
      (.error .closed, ⟨[], false⟩, buf) := by
  rw [Lib.joined_eq_nil.mp h]
  rfl

/-- What any of the writers put into the stream, one after the other, is read as the
same frames, however the stream is cut and whatever the buffer held; then the stream is
at its end. -/
theorem written_frames_are_read (codec : JsonCodec) (sent : List Sent)
    (hfits : ∀ s ∈ sent, (codec.toVec s.frame.toJson).length ≤ maxFrameBytes)
    (hreadable : ∀ s ∈ sent, s.frame.Readable)
    (hcodec : codec.Faithful (sent.map fun s => s.frame.toJson)) :
    ∃ written, sent.mapM (Sent.write codec) = some written ∧
      ∀ (chunks : List Chunk) (buf : List UInt8) (n : Nat), joined chunks = written.flatten →
        sent.length < n →
        readFrames codec n ⟨chunks, false⟩ buf = (sent.map Sent.frame, some .closed) := by
  induction sent with
  | nil =>
    refine ⟨[], rfl, ?_⟩
    intro chunks buf n hchunks hn
    obtain ⟨n, rfl⟩ : ∃ m, n = m + 1 := ⟨n - 1, by simp at hn; omega⟩
    rw [readFrames, readFrameWithBuf_nil hchunks]
    rfl
  | cons first rest ih =>
    rw [List.forall_mem_cons] at hfits hreadable
    obtain ⟨written, hwritten, hlater⟩ := ih hfits.2 hreadable.2
      ⟨hcodec.empty, fun v hv => hcodec.readsBack v (List.mem_cons_of_mem _ hv)⟩
    have hback := hcodec.readsBack first.frame.toJson List.mem_cons_self
      (Frame.isFloatFree_toJson hreadable.1.floatFree) (Frame.depth_toJson hreadable.1.nesting)
    have hvalue : (codec.fromSlice (codec.toVec first.frame.toJson)).bind Frame.ofJson =
        some first.frame := by
      rw [hback]
      exact Frame.ofJson_toJson first.frame
    have hne : codec.toVec first.frame.toJson ≠ [] := by
      intro hempty
      rw [hempty, hcodec.empty] at hback
      cases hback
    refine ⟨(toBeBytes (codec.toVec first.frame.toJson).length ++
      codec.toVec first.frame.toJson) :: written, ?_, ?_⟩
    · rw [List.mapM_cons, Sent.write_eq hfits.1, hwritten]
      rfl
    · intro chunks buf n hchunks hn
      obtain ⟨n, rfl⟩ : ∃ m, n = m + 1 := ⟨n - 1, by simp at hn; omega⟩
      obtain ⟨left, hread, hleft⟩ :=
        readFrameWithBuf_spec hchunks hne hfits.1 hvalue false buf
      have hn' : rest.length < n := by simpa using hn
      rw [readFrames, hread]
      simp only [hlater left _ n hleft hn', List.map_cons]

/-! A request, its response and an event. -/

def pingRequest : Request := ⟨1, "ping", .null⟩

def pongResponse : Response := .success 1 ⟨.object [("pong", .bool true)], by decide⟩

def mailEvent : EventOut := ⟨1, .mailNew, .null⟩

/-- The texts of these three. -/
def sampleTexts : List (Value × String) :=
  [(pingRequest.toJson, "\x7b\"id\":1,\"op\":\"ping\",\"args\":null\x7d"),
    (pongResponse.toJson, "\x7b\"id\":1,\"ok\":true,\"data\":\x7b\"pong\":true\x7d\x7d"),
    (mailEvent.toJson, "\x7b\"sub\":1,\"topic\":\"mail.new\",\"data\":null\x7d")]

def sampleCodec : JsonCodec where
  toVec v := (sampleTexts.lookup v).elim [] fun text => text.toUTF8.toList
  fromSlice bytes := (sampleTexts.find? fun e => e.2.toUTF8.toList = bytes).map Prod.fst

theorem ping_and_pong_are_read :
    ∃ written, [Sent.client (.request pingRequest), .server (.response pongResponse),
        .server (.event mailEvent)].mapM (Sent.write sampleCodec) = some written ∧
      ∀ (chunks : List Chunk) (buf : List UInt8) (n : Nat), joined chunks = written.flatten →
        3 < n → readFrames sampleCodec n ⟨chunks, false⟩ buf =
          ([.request pingRequest, .response pongResponse,
            .event ⟨1, "mail.new", .null⟩], some .closed) :=
  written_frames_are_read sampleCodec
    [.client (.request pingRequest), .server (.response pongResponse), .server (.event mailEvent)]
    (by decide +kernel)
    (by decide +kernel)
    ⟨by decide +kernel, by decide +kernel⟩

end Postblox.Ipc
