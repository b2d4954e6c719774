import Postblox.Attachments
import Postblox.Daemon.Drafts
import Postblox.Daemon.Refetch
import Postblox.Mail.Text

/-!
# The files of a draft

The metadata of every file is looked at before the first file is read. A file can change in
between, so both passes hold the sizes against the limit.
-/
namespace Postblox.Daemon.DraftFiles

open Daemon.Args (DraftAttachmentSpec)
open Daemon.Drafts (PreparedDraftAttachment)
open Lib (bind_eq_ok mapError_eq_ok)

/-- 25 MiB, for each attachment and for all of a draft. -/
def maxDraftAttachmentBytes : Nat := 25 * 1024 * 1024

/-- `std::io::Error`, with its text where it is shown. -/
inductive FileError where
  | notFound
  | permissionDenied
  | other (text : String)
  deriving DecidableEq

structure Metadata where
  isFile : Bool
  len : Nat
  deriving DecidableEq

/-- What the file system answers for the spec at an index, in each of the two passes, and
what `mime_guess` makes of a path. -/
structure Calls where
  metadata : Nat → Except FileError Metadata
  read : Nat → Except FileError (List UInt8)
  guess : String → Option String

def mapAttachmentReadError (path : String) : FileError → RpcError
  | .notFound => .badArgs s!"file not found: {path}"
  | .permissionDenied => .badArgs s!"permission denied: {path}"
  | .other text => .badArgs s!"cannot read {path}: {text}"

def attachmentTooLargeError (path : String) (size : Nat) : RpcError :=
  ⟨.attachmentTooLarge,
    s!"attachment '{path}' is {size} bytes, exceeds {maxDraftAttachmentBytes} byte limit"⟩

def aggregateAttachmentsTooLargeError (size : Nat) : RpcError :=
  ⟨.attachmentTooLarge,
    s!"aggregate draft attachments {size} bytes exceed {maxDraftAttachmentBytes} byte limit"⟩

def guessContentTypeForPath (calls : Calls) (path : String) : String :=
  (calls.guess path).getD "application/octet-stream"

/-- `u64::saturating_add`. -/
def saturatingAdd (a b : Nat) : Nat := min (a + b) (2 ^ 64 - 1)

structure PendingDraftAttachment where
  originalPath : String
  filename : String
  contentType : String
  deriving DecidableEq

def pendingOf (calls : Calls) (spec : DraftAttachmentSpec) : PendingDraftAttachment where
  originalPath := spec.path
  filename := spec.filename.getD
    (((Attachments.fileName spec.path.toList).map String.ofList).getD "attachment.bin")
  contentType := (spec.contentType.filter fun s => Mail.trimmed s ≠ "").getD
    (guessContentTypeForPath calls spec.path)

/-- `if p { return Err(e) }`. -/
def refuseIf (p : Prop) [Decidable p] (e : RpcError) : Except RpcError Unit :=
  if p then .error e else .ok ()

/-- The first pass, from the spec at `index` on. -/
def pendFrom (calls : Calls) (index aggregate : Nat) :
    List DraftAttachmentSpec → Except RpcError (List PendingDraftAttachment)
  | [] => .ok []
  | spec :: specs => do
    let metadata ← (calls.metadata index).mapError (mapAttachmentReadError spec.path)
    refuseIf (!metadata.isFile) (.badArgs s!"not a regular file: {spec.path}")
    refuseIf (maxDraftAttachmentBytes < metadata.len)
      (attachmentTooLargeError spec.path metadata.len)
    let aggregate := saturatingAdd aggregate metadata.len
    refuseIf (maxDraftAttachmentBytes < aggregate) (aggregateAttachmentsTooLargeError aggregate)
    return pendingOf calls spec :: (← pendFrom calls (index + 1) aggregate specs)

/-- The file is read up to one byte past the limit. -/
def readAttachmentBounded (calls : Calls) (index : Nat) (displayPath : String) :
    Except RpcError (List UInt8) := do
  let file ← (calls.read index).mapError (mapAttachmentReadError displayPath)
  let bytes := file.take (maxDraftAttachmentBytes + 1)
  refuseIf (maxDraftAttachmentBytes < bytes.length)
    (attachmentTooLargeError displayPath bytes.length)
  return bytes

/-- The second pass. -/
def readFrom (calls : Calls) (index actualAggregate : Nat) :
    List PendingDraftAttachment → Except RpcError (List PreparedDraftAttachment)
  | [] => .ok []
  | pending :: rest => do
    let content ← readAttachmentBounded calls index pending.originalPath
    let actualAggregate := saturatingAdd actualAggregate content.length
    refuseIf (maxDraftAttachmentBytes < actualAggregate)
      (aggregateAttachmentsTooLargeError actualAggregate)
    return ⟨pending.filename, pending.contentType, content⟩ ::
      (← readFrom calls (index + 1) actualAggregate rest)

def prepareDraftAttachments (calls : Calls) :
    Option (List DraftAttachmentSpec) → Except RpcError (Option (List PreparedDraftAttachment))
  | none => .ok none
  | some specs => do
    let pending ← pendFrom calls 0 0 specs
    return some (← readFrom calls 0 0 pending)

/-! ## What is prepared -/

/-- All the bytes of a request. -/
def preparedBytes (files : List PreparedDraftAttachment) : Nat :=
  (files.map (·.content.length)).sum

/-- The file of a spec, under the name and the type the spec gives it. -/
def PreparedFrom (calls : Calls) (spec : DraftAttachmentSpec) (file : PreparedDraftAttachment) :
    Prop :=
  file.filename = (pendingOf calls spec).filename ∧
    file.contentType = (pendingOf calls spec).contentType ∧
    ∃ index, calls.read index = .ok file.content

theorem refuseIf_eq_ok {p : Prop} [Decidable p] {e : RpcError} {u : Unit} :
    refuseIf p e = .ok u ↔ ¬ p := by
  unfold refuseIf
  by_cases hp : p
  · simp [hp]
  · simp [hp]

theorem readAttachmentBounded_ok {calls : Calls} {index : Nat} {path : String}
    {bytes : List UInt8} (h : readAttachmentBounded calls index path = .ok bytes) :
    calls.read index = .ok bytes := by
  unfold readAttachmentBounded at h
  obtain ⟨file, hfile, h⟩ := bind_eq_ok.mp h
  obtain ⟨_, hshort, h⟩ := bind_eq_ok.mp h
  rw [refuseIf_eq_ok] at hshort
  rw [mapError_eq_ok] at hfile
  cases h
  rw [List.length_take] at hshort
  rw [hfile, List.take_of_length_le (by omega)]

theorem readFrom_ok {calls : Calls} {index sofar : Nat}
    {pending : List PendingDraftAttachment} {files : List PreparedDraftAttachment}
    (hsofar : sofar ≤ maxDraftAttachmentBytes)
    (h : readFrom calls index sofar pending = .ok files) :
    sofar + preparedBytes files ≤ maxDraftAttachmentBytes ∧
      List.Forall₂ (fun (p : PendingDraftAttachment) (file : PreparedDraftAttachment) =>
        file.filename = p.filename ∧ file.contentType = p.contentType ∧
          ∃ index, calls.read index = .ok file.content) pending files := by
  induction pending generalizing index sofar files with
  | nil =>
    cases h
    exact ⟨hsofar, .nil⟩
  | cons p rest ih =>
    unfold readFrom at h
    obtain ⟨content, hcontent, h⟩ := bind_eq_ok.mp h
    obtain ⟨_, hfits, h⟩ := bind_eq_ok.mp h
    rw [refuseIf_eq_ok] at hfits
    obtain ⟨later, hlater, h⟩ := bind_eq_ok.mp h
    cases h
    have hsum : sofar + content.length ≤ maxDraftAttachmentBytes := by
      unfold saturatingAdd maxDraftAttachmentBytes at hfits
      unfold maxDraftAttachmentBytes
      omega
    have hexact : saturatingAdd sofar content.length = sofar + content.length := by
      unfold saturatingAdd
      unfold maxDraftAttachmentBytes at hsum
      omega
    rw [hexact] at hlater
    obtain ⟨hbytes, hfiles⟩ := ih hsum hlater
    refine ⟨?_, .cons ⟨rfl, rfl, index, readAttachmentBounded_ok hcontent⟩ hfiles⟩
    have hcons : preparedBytes (⟨p.filename, p.contentType, content⟩ :: later) =
        content.length + preparedBytes later := rfl
    omega

theorem pendFrom_ok {calls : Calls} {index sofar : Nat} {specs : List DraftAttachmentSpec}
    {pending : List PendingDraftAttachment} (h : pendFrom calls index sofar specs = .ok pending) :
    pending = specs.map (pendingOf calls) := by
  induction specs generalizing index sofar pending with
  | nil =>
    cases h
    rfl
  | cons spec rest ih =>
    unfold pendFrom at h
    obtain ⟨metadata, -, h⟩ := bind_eq_ok.mp h
    obtain ⟨_, -, h⟩ := bind_eq_ok.mp h
    obtain ⟨_, -, h⟩ := bind_eq_ok.mp h
    obtain ⟨_, -, h⟩ := bind_eq_ok.mp h
    obtain ⟨later, hlater, h⟩ := bind_eq_ok.mp h
    cases h
    rw [List.map_cons, ih hlater]

/-- The files come in the order of the specs, and all of them fit. -/
theorem prepareDraftAttachments_ok {calls : Calls} {specs : List DraftAttachmentSpec}
    {prepared : Option (List PreparedDraftAttachment)}
    (h : prepareDraftAttachments calls (some specs) = .ok prepared) :
    ∃ files, prepared = some files ∧ preparedBytes files ≤ maxDraftAttachmentBytes ∧
      List.Forall₂ (PreparedFrom calls) specs files := by
  unfold prepareDraftAttachments at h
  obtain ⟨pending, hpending, h⟩ := bind_eq_ok.mp h
  obtain ⟨files, hfiles, h⟩ := bind_eq_ok.mp h
  cases h
  obtain ⟨hbytes, hall⟩ := readFrom_ok (Nat.zero_le _) hfiles
  rw [pendFrom_ok hpending, List.forall₂_map_left_iff] at hall
  exact ⟨files, rfl, by omega, hall⟩

theorem preparedBytes_le {calls : Calls} {specs : Option (List DraftAttachmentSpec)}
    {files : List PreparedDraftAttachment}
    (h : prepareDraftAttachments calls specs = .ok (some files)) :
    preparedBytes files ≤ maxDraftAttachmentBytes := by
  cases specs with
  | none => cases h
  | some specs =>
    obtain ⟨files', heq, hbytes, -⟩ := prepareDraftAttachments_ok h
    cases heq
    exact hbytes

end Postblox.Daemon.DraftFiles
