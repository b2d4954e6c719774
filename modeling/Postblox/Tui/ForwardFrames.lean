import Postblox.Tui.ForwardBatches

/-!
# The answer to a batch fits a frame

The estimate that packs the batches allows each attachment 512 bytes beside its base64 text,
and the budget leaves 64 KiB of the frame for everything else. A refused attachment takes no
more than its allowance either, apart from the text of a database error.
-/
namespace Postblox.Tui

open Json (Value escapedLen escapedLen_append decimalLen)
open Daemon.Args (parseId parseIdArray maxForwardAttachmentBatch)
open Daemon.Fetch
open Daemon.FrameLimit (AnswerFits answerFits_iff payload decimalLen_id)
open Ipc (JsonCodec maxFrameBytes i64Len_le)
open Lib (packs packWeight Packed)

/-! ## The estimate -/

/-- Nothing saturates for a size of 64 bits. -/
theorem estimate_eq {sizeBytes : Int} (h : sizeBytes < 2 ^ 63) :
    estimatedForwardAttachmentWireBytes sizeBytes = base64Len (max sizeBytes 0).toNat + 512 := by
  have hraw : (max sizeBytes 0).toNat < 2 ^ 63 := by omega
  rw [estimatedForwardAttachmentWireBytes, base64Len, usizeMax]
  omega

theorem wireWeight_of_length {id : Uuid} {size : Int64} {n : Nat} (h : (n : Int) = size.toInt) :
    wireWeight (id, size.toInt) = base64Len n + 512 := by
  have hraw : (max size.toInt 0).toNat = n := by omega
  rw [wireWeight, estimate_eq size.toInt_lt, hraw]

theorem le_wireWeight (entry : Uuid × Int) : 512 ≤ wireWeight entry := by
  rw [wireWeight, estimatedForwardAttachmentWireBytes, usizeMax]
  omega

/-! ## Entries of the answer -/

/-- A text put behind a fixed one. -/
theorem escapedLen_behind (front text : String) :
    escapedLen (toString front ++ toString ": " ++ toString text) =
      escapedLen front + 2 + escapedLen text := by
  have hcolon : escapedLen (toString ": ") = 2 := rfl
  rw [escapedLen_append, escapedLen_append, hcolon]
  rfl

/-- The texts of the database's errors, which the answers repeat, are short. -/
structure ShortErrors (b : Backend) : Prop where
  message : ∀ id err, b.getMessage id = .error err → escapedLen err ≤ 2048
  listing : ∀ id err, b.listForMessage id = .error err → escapedLen err ≤ 2048
  parents : ∀ folder account err, b.getFolderAndAccount folder account = .error err →
    escapedLen err ≤ 2048

/-- The texts of an error. -/
def errorLen (e : RpcError) : Nat := escapedLen e.code.asStr + escapedLen e.message

theorem errorLen_ctx {α : Type} {context : String} {x : Except String α} {e : RpcError}
    (h : ctx context x = .error e) (hx : ∀ err, x = .error err → escapedLen err ≤ 2048) :
    errorLen e ≤ 2058 + escapedLen context := by
  cases x with
  | ok a => cases h
  | error err =>
    cases h
    have hshort := hx err rfl
    have hcode : escapedLen RpcCode.internal.asStr = 8 := rfl
    show escapedLen RpcCode.internal.asStr + escapedLen s!"{context}: {err}" ≤ _
    rw [hcode, escapedLen_behind]
    omega

theorem bind_eq_error {ε α β : Type} {x : Except ε α} {f : α → Except ε β} {e : ε} :
    x >>= f = .error e ↔ x = .error e ∨ ∃ a, x = .ok a ∧ f a = .error e := by
  cases x with
  | error e' =>
    constructor
    · intro h
      cases h
      exact .inl rfl
    · rintro (h | ⟨a, ha, -⟩)
      · cases h
        rfl
      · cases ha
  | ok a =>
    constructor
    · intro h
      exact .inr ⟨a, rfl, h⟩
    · rintro (h | ⟨a', ha, h⟩)
      · cases h
      · cases ha
        exact h

theorem eq_of_okOr_error {α : Type} {e e' : RpcError} {o : Option α}
    (h : okOr e o = .error e') : e' = e := by
  cases o with
  | none => cases h; rfl
  | some a => cases h

theorem errorLen_offline (detail : String) : errorLen (offline detail) = 49 + escapedLen detail := by
  have hcode : escapedLen RpcCode.unavailableOffline.asStr = 19 := rfl
  have htext : escapedLen "attachment unavailable offline" = 30 := rfl
  rw [errorLen, offline, hcode, escapedLen_append, htext]
  omega

/-- Why the message could not be fetched again. -/
theorem errorLen_refetch {b : Backend} (hb : ShortErrors b) {message : Message} {e : RpcError}
    (h : refetchForwardAttachments b message = .error e) : errorLen e ≤ 2079 := by
  have hoffline : ∀ detail, escapedLen detail ≤ 100 → errorLen (offline detail) ≤ 2079 := by
    intro detail hdetail
    rw [errorLen_offline]
    omega
  have hcontext : escapedLen "folders/accounts::get" = 21 := rfl
  unfold refetchForwardAttachments at h
  rcases bind_eq_error.mp h with hparents | ⟨⟨folder, account⟩, -, h⟩
  · have hle := errorLen_ctx hparents fun err herr => hb.parents _ _ err herr
    rw [hcontext] at hle
    exact hle
  rcases bind_eq_error.mp h with hfolder | ⟨folder, -, h⟩
  · rw [eq_of_okOr_error hfolder]
    exact hoffline _ (by decide)
  rcases bind_eq_error.mp h with haccount | ⟨account, -, h⟩
  · rw [eq_of_okOr_error haccount]
    exact hoffline _ (by decide)
  rcases bind_eq_error.mp h with hcredential | ⟨credential, -, h⟩
  · rw [eq_of_okOr_error hcredential]
    exact hoffline _ (by decide)
  have hplain : errorLen (offline "") ≤ 2079 := hoffline _ (by decide)
  split_ifs at h
  · cases h
    exact hplain
  · cases h
    exact hplain
  · cases h
    exact hplain
  · rcases bind_eq_error.mp h with hsync | ⟨messages, -, h⟩
    · rw [eq_of_okOr_error hsync]
      exact hplain
    rcases bind_eq_error.mp h with hfind | ⟨found, -, h⟩
    · rw [eq_of_okOr_error hfind]
      exact hplain
    rw [eq_of_okOr_error h]
    exact hplain

/-- The name and the type of a row are short. -/
def ShortNames (row : Attachment) : Prop :=
  escapedLen row.filename + escapedLen row.contentType ≤ 200

instance shortNamesDecidable (row : Attachment) : Decidable (ShortNames row) :=
  inferInstanceAs (Decidable (_ ≤ 200))

/-- An attachment that is sent stays within its estimate. -/
theorem forwardedLen_le {rows : List Attachment} {f : Forwarded} (hf : Served rows f)
    (hnames : ShortNames f.attachment) : forwardedLen f + 1 ≤ base64Len f.bytes.length + 512 := by
  have hsource : escapedLen f.source ≤ 5 := by
    rcases hf.source with h | h
    · rw [h]
      decide
    · rw [h]
      decide
  have hsize := i64Len_le (.ofNat f.bytes.length)
  rw [ShortNames] at hnames
  rw [forwardedLen]
  omega

/-- A refusal stays within the least estimate and the allowance for an error's text. -/
theorem forwardFailureLen_le {b : Backend} (hb : ShortErrors b) {message : Message}
    {rows : List Attachment} {f : ForwardFailure} (hf : Refusal b message rows f)
    (hnames : ∀ row ∈ rows, row.id = f.attachmentId → ShortNames row) :
    forwardFailureLen f + 1 ≤ 512 + 1900 := by
  have hrow : ∀ (row : Attachment) (e : RpcError), ShortNames row → errorLen e ≤ 2079 →
      forwardFailureLen (forwardAttachmentFailure row e) + 1 ≤ 512 + 1900 := by
    intro row e hshort he
    rw [ShortNames] at hshort
    rw [errorLen] at he
    show 93 + escapedLen e.code.asStr + escapedLen row.filename + escapedLen e.message + 1 ≤ _
    omega
  cases hf with
  | unknown id => exact (by decide : 93 + escapedLen "bad_args" + escapedLen "" +
      escapedLen "unknown attachment id for message" + 1 ≤ 512 + 1900)
  | @unmatched row hmem =>
    refine hrow row _ (hnames row hmem rfl) ?_
    rw [errorLen_offline]
    decide
  | @unreachable row error hmem herror =>
    exact hrow row error (hnames row hmem rfl) (errorLen_refetch hb herror)

/-! ## The whole answer -/

theorem sum_le_of_forall₂ {α β : Type} {cost : β → Nat} {weight : α → Nat} {xs : List α}
    {ys : List β} (h : List.Forall₂ (fun x y => cost y ≤ weight x) xs ys) :
    (ys.map cost).sum ≤ (xs.map weight).sum := by
  induction h with
  | nil => exact Nat.le_refl 0
  | cons hxy _ ih =>
    rw [List.map_cons, List.map_cons, List.sum_cons, List.sum_cons]
    omega

/-- What the entry at a position is allowed. -/
def allowance (pack : List (Uuid × Int)) (i : Nat) : Nat := ((pack[i]?).map wireWeight).getD 0

theorem sum_allowance (pack : List (Uuid × Int)) :
    ((List.range pack.length).map (allowance pack)).sum = packWeight wireWeight pack := by
  rw [packWeight]
  congr 1
  apply List.ext_getElem
  · simp
  · intro i hi _
    have hlt : i < pack.length := by simpa using hi
    simp [allowance, List.getElem?_eq_getElem hlt]

theorem allowance_of_get {pack : List (Uuid × Int)} {i : Nat} {id : Uuid}
    (h : (pack.map (·.1))[i]? = some id) :
    ∃ entry ∈ pack, entry.1 = id ∧ allowance pack i = wireWeight entry := by
  rw [List.getElem?_map, Option.map_eq_some_iff] at h
  obtain ⟨entry, hentry, hid⟩ := h
  refine ⟨entry, List.mem_of_getElem? hentry, hid, ?_⟩
  rw [allowance, hentry]
  rfl

theorem arrayLen_le (lens : List Nat) : arrayLen lens ≤ (lens.map (· + 1)).sum + 2 := by
  rw [arrayLen]
  omega

/-- The lists of a settled batch, with what each entry was allowed. -/
theorem settled_len_le {b : Backend} (hb : ShortErrors b) (message : Message)
    (rows : List Attachment) {pack : List (Uuid × Int)}
    (hnames : ∀ row ∈ rows, row.id ∈ pack.map (·.1) → ShortNames row)
    (hsizes : ∀ f ∈ (Batch.settled b message rows (pack.map (·.1))).attachments.filterMap
      (fun f => f), ∀ entry ∈ pack, entry.1 = f.attachment.id →
        wireWeight entry = base64Len f.bytes.length + 512) :
    arrayLen (((Batch.settled b message rows (pack.map (·.1))).attachments.filterMap
        fun f => f).map forwardedLen) +
      arrayLen ((Batch.settled b message rows (pack.map (·.1))).failed.map forwardFailureLen) ≤
      packWeight wireWeight pack + 1900 * pack.length + 4 := by
  obtain ⟨refused, h⟩ := accounts_settled b message rows (pack.map (·.1))
  generalize Batch.settled b message rows (pack.map (·.1)) = batch at h hsizes
  have hsent : ((batch.attachments.filterMap fun f => f).map fun f => forwardedLen f + 1).sum ≤
      ((Lib.occupied 0 batch.attachments).map (allowance pack)).sum := by
    apply sum_le_of_forall₂
    apply Lib.forall₂_occupied
    intro i f hslot
    rw [Nat.zero_add]
    obtain ⟨hid, hserved⟩ := h.served i f hslot
    obtain ⟨entry, hentry, hsame, hallowance⟩ := allowance_of_get hid
    have hsent : f ∈ batch.attachments.filterMap fun f => f :=
      List.mem_filterMap.mpr ⟨some f, List.mem_of_getElem? hslot, rfl⟩
    rw [hallowance, hsizes f hsent entry hentry hsame]
    apply forwardedLen_le hserved
    exact hnames _ hserved.row (List.mem_of_getElem? hid)
  have hrefused : (batch.failed.map fun f => forwardFailureLen f + 1).sum ≤
      (refused.map fun i => allowance pack i + 1900).sum := by
    apply sum_le_of_forall₂
    refine h.failures.imp fun i f hf => ?_
    obtain ⟨entry, -, -, hallowance⟩ := allowance_of_get hf.1
    have hleast := le_wireWeight entry
    have hlen := forwardFailureLen_le hb hf.2 fun row hrow hsame => hnames row hrow
      (by rw [hsame]; exact List.mem_of_getElem? hf.1)
    rw [hallowance]
    omega
  have hpositions : (Lib.occupied 0 batch.attachments ++ refused).Perm
      (List.range pack.length) := by
    simpa using h.positions
  have htotal := (hpositions.map (allowance pack)).sum_eq
  rw [sum_allowance, List.map_append, List.sum_append] at htotal
  have hcount : refused.length ≤ pack.length := by
    have hlength := hpositions.length_eq
    rw [List.length_append, List.length_range] at hlength
    omega
  have hextra : (refused.map fun i => allowance pack i + 1900).sum =
      (refused.map (allowance pack)).sum + 1900 * refused.length := by
    rw [List.sum_map_add, List.map_const', List.sum_replicate, smul_eq_mul, Nat.mul_comm]
  have hattachments := arrayLen_le ((batch.attachments.filterMap fun f => f).map forwardedLen)
  have hfailed := arrayLen_le (batch.failed.map forwardFailureLen)
  rw [List.map_map] at hattachments hfailed
  have hattachments' : arrayLen ((batch.attachments.filterMap fun f => f).map forwardedLen) ≤
      ((batch.attachments.filterMap fun f => f).map fun f => forwardedLen f + 1).sum + 2 :=
    hattachments
  have hfailed' : arrayLen (batch.failed.map forwardFailureLen) ≤
      (batch.failed.map fun f => forwardFailureLen f + 1).sum + 2 := hfailed
  have hslack : 1900 * refused.length ≤ 1900 * pack.length := Nat.mul_le_mul_left _ hcount
  omega

/-- What the op answers with to a well-formed request. -/
theorem forwardBatchParts_eq {crates : Crates} {b : Backend} {args : Value} {messageId : Uuid}
    {ids : List Uuid} (hmessage : parseId crates args "message_id" = .ok messageId)
    (hids : parseIdArray crates args "attachment_ids" maxForwardAttachmentBatch = .ok ids) :
    forwardBatchParts crates b args = (do
      let message ← requireMessage b messageId
      let rows ← ctx "attachments::list_for_message" (b.listForMessage messageId)
      let batch := Batch.settled b message rows ids
      return (batch.attachments.filterMap fun f => f, batch.failed)) := by
  unfold forwardBatchParts
  rw [hmessage, hids]
  rfl

/-- An error of the op stays short too. -/
theorem errorLen_forwardBatch {crates : Crates} {b : Backend} (hb : ShortErrors b) {args : Value}
    {messageId : Uuid} {ids : List Uuid}
    (hmessage : parseId crates args "message_id" = .ok messageId)
    (hids : parseIdArray crates args "attachment_ids" maxForwardAttachmentBatch = .ok ids)
    {e : RpcError} (h : forwardBatchParts crates b args = .error e) : errorLen e ≤ 2087 := by
  have hlisting : escapedLen "attachments::list_for_message" = 29 := rfl
  have hgetting : escapedLen "messages::get" = 13 := rfl
  rw [forwardBatchParts_eq hmessage hids] at h
  rcases bind_eq_error.mp h with hrequire | ⟨message, -, h⟩
  · rcases bind_eq_error.mp hrequire with hget | ⟨found, -, hfound⟩
    · have hle := errorLen_ctx hget fun err herr => hb.message _ err herr
      rw [hgetting] at hle
      exact hle.trans (by decide)
    · rw [eq_of_okOr_error hfound]
      decide
  · rcases bind_eq_error.mp h with hlist | ⟨rows, -, h⟩
    · have hle := errorLen_ctx hlist fun err herr => hb.listing _ err herr
      rw [hlisting] at hle
      exact hle
    · cases h

/-- The list of a message's attachments as the composer has it: the daemon's rows have short
names, and what is sent of them has the listed size. -/
structure Truthful (crates : Crates) (b : Backend) (args : Value) (messageId : Uuid)
    (metas : List (Uuid × Int64)) : Prop where
  names : ∀ rows, b.listForMessage messageId = .ok rows →
    ∀ row ∈ rows, row.id ∈ metas.map (·.1) → ShortNames row
  sizes : ∀ attachments failed, forwardBatchParts crates b args = .ok (attachments, failed) →
    ∀ f ∈ attachments, ∀ size, (f.attachment.id, size) ∈ metas →
      (f.bytes.length : Int) = size.toInt

/-- The entries as the packing sees them. -/
def entries (metas : List (Uuid × Int64)) : List (Uuid × Int) :=
  metas.map fun m => (m.1, m.2.toInt)

/-- A batch of two or more attachments is answered within one frame; no batch is empty; and
neither the estimates nor their sums saturate. -/
theorem forward_batches_fit_the_wire {crates : Crates} {codec : JsonCodec}
    {floatText : Rat → List UInt8} {base64 : Base64} (hcodec : codec.Compact floatText)
    (hbase64 : base64.Standard) (metas : List (Uuid × Int64)) :
    (∀ size : Int64, estimatedForwardAttachmentWireBytes size.toInt =
        base64Len (max size.toInt 0).toNat + 512 ∧
      base64Len (max size.toInt 0).toNat + 512 < usizeMax) ∧
    forwardAttachmentBatches (entries metas) = (packs forwardAttachmentBatchMaxIds
      forwardAttachmentBatchWireBudget wireWeight (entries metas)).map (List.map (·.1)) ∧
    ∀ ids ∈ forwardAttachmentBatches (entries metas), ids ≠ [] ∧
      ids.length ≤ forwardAttachmentBatchMaxIds ∧
      (2 ≤ ids.length → ∀ (b : Backend) (req : Ipc.Request) (messageId : Uuid),
        parseId crates req.args.val "message_id" = .ok messageId →
        parseIdArray crates req.args.val "attachment_ids" maxForwardAttachmentBatch = .ok ids →
        ShortErrors b → Truthful crates b req.args.val messageId metas →
        (payload codec (.response (.ofResult req.id (dispatch base64 crates b
          .attachmentFetchForForwardBatch req.args.val)))).length ≤ maxFrameBytes) := by
  refine ⟨?_, forwardAttachmentBatches_eq _, ?_⟩
  · intro size
    refine ⟨estimate_eq size.toInt_lt, ?_⟩
    have hlt := size.toInt_lt
    rw [base64Len, usizeMax]
    omega
  intro ids hids
  rw [forwardAttachmentBatches_eq, List.mem_map] at hids
  obtain ⟨pack, hpack, rfl⟩ := hids
  have hpacked := Lib.packed_packs (by decide) (entries metas) pack hpack
  refine ⟨by simpa using hpacked.nonempty, by simpa using hpacked.count, ?_⟩
  intro htwo b req messageId hmessage hparsed hb htruth
  rw [List.length_map] at htwo
  have hsub : ∀ entry ∈ pack, entry ∈ entries metas := by
    intro entry hentry
    have hflat := @Lib.flatten_packs _ forwardAttachmentBatchMaxIds
      forwardAttachmentBatchWireBudget wireWeight (entries metas)
    rw [← hflat]
    exact List.mem_flatten.mpr ⟨pack, hpack, hentry⟩
  have hid := decimalLen_id req.id
  have hparts := forwardBatchParts_eq (b := b) hmessage hparsed
  rw [← answerFits_iff hcodec hbase64, answer]
  cases hanswer : forwardBatchParts crates b req.args.val with
  | error e =>
    have hle := errorLen_forwardBatch hb hmessage hparsed hanswer
    rw [errorLen] at hle
    show 51 + decimalLen req.id.toNat + escapedLen e.code.asStr + escapedLen e.message ≤ _
    rw [maxFrameBytes]
    omega
  | ok lists =>
    obtain ⟨attachments, failed⟩ := lists
    obtain ⟨_, _, message, rows, hmessage', hparsed', -, hrows, heq⟩ :=
      (forwardBatchParts_ok_iff b req.args.val _).mp hanswer
    rw [hmessage] at hmessage'
    rw [hparsed] at hparsed'
    cases hmessage'
    cases hparsed'
    cases heq
    have hlen := settled_len_le hb message rows
      (fun row hrow hmem => htruth.names rows hrows row hrow (by
        obtain ⟨entry, hentry, hsame⟩ := List.mem_map.mp hmem
        obtain ⟨m, hm, rfl⟩ := List.mem_map.mp (hsub entry hentry)
        exact List.mem_map.mpr ⟨m, hm, hsame⟩))
      (fun f hf entry hentry hsame => by
        obtain ⟨m, hm, rfl⟩ := List.mem_map.mp (hsub entry hentry)
        apply wireWeight_of_length
        apply htruth.sizes _ _ hanswer f hf
        rw [← hsame]
        exact hm)
    have hweight := hpacked.within htwo
    have hcount := hpacked.count
    rw [forwardAttachmentBatchWireBudget] at hweight
    rw [forwardAttachmentBatchMaxIds] at hcount
    show 25 + decimalLen req.id.toNat + (26 + arrayLen _ + arrayLen _) ≤ maxFrameBytes
    rw [maxFrameBytes]
    omega

def storedPlan : Attachment :=
  ⟨.filled 4, .filled 7, "plan.txt", "text/plain", none, "/var/files/002_plan.txt"⟩

/-- One message with two attachments, their files in place. -/
def twoFilesBackend : Backend :=
  { notesBackend with listForMessage := fun _ => .ok [storedNotes, storedPlan] }

def twoFilesRequest : Ipc.Request :=
  ⟨1, "attachment.fetch_for_forward_batch",
    (Request.fetchAttachmentsForForward (.filled 7) [.filled 1, .filled 4]).args,
    by decide⟩

theorem twoFilesParts :
    forwardBatchParts .plain twoFilesBackend twoFilesRequest.args.val =
      .ok ([⟨storedNotes, [72, 105], "cache"⟩, ⟨storedPlan, [72, 105], "cache"⟩], []) := by
  have hmessage : parseId .plain twoFilesRequest.args.val "message_id" = .ok (.filled 7) :=
    parseId_of_get Crates.plain rfl
  have hids : parseIdArray .plain twoFilesRequest.args.val "attachment_ids"
      maxForwardAttachmentBatch = .ok [.filled 1, .filled 4] :=
    parseIdArray_of_get Crates.plain rfl (by decide) (by decide)
  rw [forwardBatchParts_eq hmessage hids]
  rfl

/-- Two short files, answered together. -/
theorem two_files_fit :
    (payload (Daemon.FrameLimit.plainCodec []) (.response (.ofResult twoFilesRequest.id
      (dispatch documentedBase64 .plain twoFilesBackend .attachmentFetchForForwardBatch
        twoFilesRequest.args.val)))).length ≤ maxFrameBytes := by
  have hnone : ∀ {α : Type} {a : α} {err : String}, Except.ok a ≠ .error err := by
    intro α a err h
    cases h
  have hshort : ShortErrors twoFilesBackend :=
    ⟨fun _ _ h => absurd h hnone, fun _ _ h => absurd h hnone, fun _ _ _ h => absurd h hnone⟩
  refine ((forward_batches_fit_the_wire (fun _ => rfl) documentedBase64_standard
    [(.filled 1, 2), (.filled 4, 2)]).2.2 [.filled 1, .filled 4] (by decide)).2.2 (by decide)
    twoFilesBackend twoFilesRequest (.filled 7) (parseId_of_get Crates.plain rfl)
    (parseIdArray_of_get Crates.plain rfl (by decide) (by decide)) hshort ⟨?_, ?_⟩
  · intro rows hrows row hrow _
    cases hrows
    rcases List.mem_cons.mp hrow with rfl | hrow
    · decide
    · rw [List.mem_singleton.mp hrow]
      decide
  · intro attachments failed hparts f hf size hsize
    rw [twoFilesParts] at hparts
    cases hparts
    have htwo : size = 2 := by
      rcases List.mem_cons.mp hsize with h | h
      · exact (Prod.mk.inj h).2
      · exact (Prod.mk.inj (List.mem_singleton.mp h)).2
    have hlength : f.bytes.length = 2 := by
      rcases List.mem_cons.mp hf with rfl | h
      · rfl
      · rw [List.mem_singleton.mp h]
        rfl
    rw [htwo, hlength]
    rfl

end Postblox.Tui
