import Postblox.Daemon.ForwardBatch
import Postblox.Daemon.FrameLimit
import Postblox.Lib.Packing
import Postblox.Mail.Text
import Postblox.Tui.Agreement

/-!
# The attachments of a forwarded message, batch by batch

The composer asks for the attachments in batches that are packed greedily, by count and by
an estimate of the answer's size. The saturating arithmetic of the estimate never saturates
for a size that fits 64 bits, so the batches are those of the exact sums.
-/
namespace Postblox.Tui

open Json (Value)
open Daemon.Args (parseId parseIdArray maxForwardAttachmentBatch)
open Daemon.Fetch (Backend Message Attachment ForwardFailure Positions requireMessage
  forwardBatchParts_ok_iff accounts_settled)
open Mail (trimmed)
open Lib (packs packsFrom packWeight packWeight_append packWeight_singleton Packed)

/-! ## The loop of `run_forward` -/

structure ForwardAttachmentMeta where
  attachmentId : Uuid
  filename : String
  sizeBytes : Int64

structure ForwardAttachmentBytes where
  filename : String
  contentType : String
  contentBase64 : String

structure ForwardAttachmentBatch where
  attachments : List ForwardAttachmentBytes
  failed : List ForwardFailure

def forwardFailureLabel (failure : ForwardFailure) : String :=
  let name := if failure.filename = "" then failure.attachmentId.hyphenated else failure.filename
  let message := trimmed failure.message
  let reason :=
    if failure.code = "" then message
    else if message = "" then failure.code
    else s!"{message} ({failure.code})"
  if reason = "" then name else s!"{name}: {reason}"

def forwardAttachmentLabel (metas : List ForwardAttachmentMeta) (attachmentId : Uuid) : String :=
  ((metas.find? fun m => m.attachmentId = attachmentId).map (·.filename)).getD
    attachmentId.hyphenated

/-- What has been asked for so far, and what came of it. -/
structure Carried where
  requested : List (List Uuid)
  attachments : List ComposerAttachment
  failedAttachments : List String

def Carried.start : Carried := ⟨[], [], []⟩

/-- The attachments of an answer, each written to a file of its own if that works. -/
def Carried.keep (materialise : ForwardAttachmentBytes → Option ComposerAttachment)
    (carried : Carried) (bytes : ForwardAttachmentBytes) : Carried :=
  match materialise bytes with
  | some attachment => { carried with attachments := carried.attachments ++ [attachment] }
  | none =>
    { carried with failedAttachments := carried.failedAttachments ++ [bytes.filename] }

/-- One batch and its answer. -/
def Carried.fetched (materialise : ForwardAttachmentBytes → Option ComposerAttachment)
    (metas : List ForwardAttachmentMeta) (carried : Carried) (attachmentIds : List Uuid) :
    Except String ForwardAttachmentBatch → Carried
  | .ok batch =>
    let kept := batch.attachments.foldl (Carried.keep materialise) carried
    { kept with
      requested := carried.requested ++ [attachmentIds]
      failedAttachments := kept.failedAttachments ++ batch.failed.map forwardFailureLabel }
  | .error _ =>
    { carried with
      requested := carried.requested ++ [attachmentIds]
      failedAttachments :=
        carried.failedAttachments ++ attachmentIds.map (forwardAttachmentLabel metas) }

/-- The batches in turn; `fetch` is what the daemon answers in each round. -/
def carryForward (fetch : Nat → List Uuid → Except String ForwardAttachmentBatch)
    (materialise : ForwardAttachmentBytes → Option ComposerAttachment)
    (metas : List ForwardAttachmentMeta) : Carried :=
  let batches := forwardAttachmentBatches
    (metas.map fun m => (m.attachmentId, m.sizeBytes.toInt))
  batches.zipIdx.foldl (fun carried round =>
    carried.fetched materialise metas round.1 (fetch round.2 round.1)) Carried.start

theorem requested_fetched (materialise : ForwardAttachmentBytes → Option ComposerAttachment)
    (metas : List ForwardAttachmentMeta) (carried : Carried) (ids : List Uuid)
    (answer : Except String ForwardAttachmentBatch) :
    (carried.fetched materialise metas ids answer).requested = carried.requested ++ [ids] := by
  cases answer <;> rfl

/-- Every batch is asked for once. -/
theorem requested_carryForward
    (fetch : Nat → List Uuid → Except String ForwardAttachmentBatch)
    (materialise : ForwardAttachmentBytes → Option ComposerAttachment)
    (metas : List ForwardAttachmentMeta) :
    (carryForward fetch materialise metas).requested =
      forwardAttachmentBatches (metas.map fun m => (m.attachmentId, m.sizeBytes.toInt)) := by
  have hfold : ∀ (batches : List (List Uuid)) (n : Nat) (carried : Carried),
      ((batches.zipIdx n).foldl (fun carried round =>
        carried.fetched materialise metas round.1 (fetch round.2 round.1)) carried).requested =
        carried.requested ++ batches := by
    intro batches
    induction batches with
    | nil => exact fun _ carried => (List.append_nil _).symm
    | cons ids rest ih =>
      intro n carried
      rw [List.zipIdx_cons, List.foldl_cons, ih, requested_fetched, List.append_assoc,
        List.singleton_append]
  exact hfold _ 0 Carried.start

/-! ## The packing -/

/-- The estimate for an entry of the list. -/
def wireWeight (entry : Uuid × Int) : Nat := estimatedForwardAttachmentWireBytes entry.2

theorem wireWeight_le (entry : Uuid × Int) : wireWeight entry ≤ usizeMax := Nat.min_le_left _ _

/-- The running sum saturates for no batch that is kept open, so the loop packs by the exact
sums. -/
theorem batchesFrom_eq_packs (pack metas : List (Uuid × Int))
    (hsum : packWeight wireWeight pack ≤ usizeMax) :
    batchesFrom (pack.map (·.1)) (packWeight wireWeight pack) metas =
      (packsFrom forwardAttachmentBatchMaxIds forwardAttachmentBatchWireBudget wireWeight pack
        metas).map (List.map (·.1)) := by
  have hbudget : forwardAttachmentBatchWireBudget < usizeMax := by decide
  induction metas generalizing pack with
  | nil =>
    rw [batchesFrom, packsFrom]
    cases pack <;> rfl
  | cons entry rest ih =>
    obtain ⟨id, sizeBytes⟩ := entry
    have hnext := wireWeight_le (id, sizeBytes)
    have hweight : estimatedForwardAttachmentWireBytes sizeBytes = wireWeight (id, sizeBytes) := rfl
    have hopen : (!(pack.map (·.1)).isEmpty) = true ↔ pack ≠ [] := by cases pack <;> simp
    have hover : ∀ n, forwardAttachmentBatchWireBudget < min usizeMax n ↔
        forwardAttachmentBatchWireBudget < n := by
      intro n
      rw [lt_min_iff, and_iff_right hbudget]
    rw [batchesFrom, packsFrom]
    simp only [hweight, List.length_map, hopen, hover]
    split_ifs with hfull
    · rw [Nat.zero_add, Nat.min_eq_right hnext, List.map_cons]
      have hone := ih [(id, sizeBytes)] (by rw [packWeight_singleton]; exact hnext)
      rw [packWeight_singleton] at hone
      rw [← hone]
      rfl
    · have hfits : packWeight wireWeight pack + wireWeight (id, sizeBytes) ≤ usizeMax := by
        by_cases hpack : pack = []
        · rw [hpack]
          simpa [packWeight] using hnext
        · have hle : ¬ forwardAttachmentBatchWireBudget <
              packWeight wireWeight pack + wireWeight (id, sizeBytes) :=
            fun h => hfull (.inr ⟨hpack, h⟩)
          omega
      have hmore := ih (pack ++ [(id, sizeBytes)])
        (by rw [packWeight_append, packWeight_singleton]; exact hfits)
      rw [packWeight_append, packWeight_singleton, List.map_append] at hmore
      rw [Nat.min_eq_right hfits, ← hmore]
      rfl

theorem forwardAttachmentBatches_eq (metas : List (Uuid × Int)) :
    forwardAttachmentBatches metas =
      (packs forwardAttachmentBatchMaxIds forwardAttachmentBatchWireBudget wireWeight metas).map
        (List.map (·.1)) :=
  batchesFrom_eq_packs [] metas (Nat.zero_le _)

theorem flatten_forwardAttachmentBatches (metas : List (Uuid × Int)) :
    (forwardAttachmentBatches metas).flatten = metas.map (·.1) := by
  rw [forwardAttachmentBatches_eq, ← List.map_flatten, packs, Lib.flatten_packsFrom,
    List.nil_append]

/-- The daemon's answer to a batch has one entry for each position of the request, with the id
of that position, the served ones in order; and the batches of a forwarded message ask for
each listed attachment once, in order. -/
theorem forward_accounts_for_every_attachment (crates : Crates) :
    (∀ (b : Backend) (args : Value) (messageId : Uuid) (ids : List Uuid) (message : Message)
        (rows : List Attachment), parseId crates args "message_id" = .ok messageId →
      parseIdArray crates args "attachment_ids" maxForwardAttachmentBatch = .ok ids →
      requireMessage b messageId = .ok message → b.listForMessage messageId = .ok rows →
      ∃ attachments failed served refused,
        Daemon.Fetch.answer crates b .attachmentFetchForForwardBatch args =
          .ok (.batch attachments failed) ∧
        Positions ids attachments failed served refused) ∧
    ∀ fetch materialise metas, (carryForward fetch materialise metas).requested.flatten =
      metas.map (·.attachmentId) := by
  constructor
  · intro b args messageId ids message rows hmessage hids hrequire hrows
    obtain ⟨refused, haccounts⟩ := accounts_settled b message rows ids
    have hparts := (forwardBatchParts_ok_iff b args _).mpr
      ⟨messageId, ids, message, rows, hmessage, hids, hrequire, hrows, rfl⟩
    refine ⟨_, _, _, refused, ?_, haccounts.toPositions⟩
    rw [Daemon.Fetch.answer, hparts]
    rfl
  · intro fetch materialise metas
    rw [requested_carryForward, flatten_forwardAttachmentBatches, List.map_map]
    rfl

def storedNotes : Attachment :=
  ⟨.filled 1, .filled 7, "notes.txt", "text/plain", none, "/var/files/001_notes.txt"⟩

/-- One message with one attachment, its file in place. -/
def notesBackend : Backend :=
  { Daemon.FrameLimit.draftBackend [] with
    getMessage := fun _ => .ok (some ⟨.filled 2, .filled 3, 9⟩)
    listForMessage := fun _ => .ok [storedNotes]
    readFile := fun _ => some [72, 105] }

/-- An id that is asked for twice is answered twice. -/
theorem repeated_id_is_answered_twice :
    ∃ attachments failed served refused,
      Daemon.Fetch.answer Crates.plain notesBackend .attachmentFetchForForwardBatch
          (Request.fetchAttachmentsForForward (.filled 7) [.filled 1, .filled 1]).args =
        .ok (.batch attachments failed) ∧
      Positions [.filled 1, .filled 1] attachments failed served refused :=
  (forward_accounts_for_every_attachment Crates.plain).1 notesBackend _ (.filled 7) _
    ⟨.filled 2, .filled 3, 9⟩ [storedNotes] (parseId_of_get Crates.plain rfl)
    (parseIdArray_of_get Crates.plain rfl (by decide) (by decide)) rfl rfl

end Postblox.Tui
