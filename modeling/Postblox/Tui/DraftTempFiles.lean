import Postblox.AttachmentPaths
import Postblox.Daemon.Refetch
import Postblox.Mail.Base64
import Postblox.Tui.Composer

/-!
# The attachments of a draft as files

The composer attaches paths. When a stored draft is reopened, the bytes of each attachment are
written to a file in the directory for temporary files, and each file gets a name of its own:
what is written last does not change what was written before.
-/
namespace Postblox.Tui

open Attachments (fileName trimMatches dotOrSpace joinPath slashed)
open Lib (bind_eq_ok)

/-- An attachment in the answer of `draft.get`, decoded. -/
structure DraftAttachmentBytes where
  filename : String
  contentType : String
  bytes : Option (List UInt8)
  decodeError : Option String

structure DraftSummary where
  draft : Daemon.Fetch.Draft
  attachments : List DraftAttachmentBytes

/-- The client's view of the answer; `errorText` is the text of a decoding error. -/
def DraftSummary.ofAnswer (base64 : Mail.Base64Crate) (errorText : String → String)
    (draft : Daemon.Fetch.Draft) (attachments : List (Daemon.Fetch.DraftAttachment × List UInt8)) :
    DraftSummary where
  draft := draft
  attachments := attachments.map fun (row, bytes) =>
    let content := base64.encode bytes
    match base64.decode content with
    | some decoded => ⟨row.filename, row.contentType, some decoded, none⟩
    | none => ⟨row.filename, row.contentType, none, some (errorText content)⟩

def safeExportFilename (filename : String) : String :=
  let leaf := (fileName filename.toList).getD "attachment.bin".toList
  let safe := trimMatches dotOrSpace leaf
  if safe = [] then "attachment.bin" else String.ofList safe

/-- `Uuid::simple`. -/
def simpleText (id : Uuid) : String := String.ofList (Uuid.hex id.digits)

/-- `temp_dir()`, and the error when a file cannot be written there. -/
structure TempDir where
  path : String
  writeError : String → Option String

/-- What the files hold. -/
abbrev Files := String → Option (List UInt8)

def draftTempPath (temp : TempDir) (unique : Uuid) (filename : String) : String :=
  joinPath (joinPath temp.path "postblox-drafts")
    (simpleText unique ++ "-" ++ safeExportFilename filename)

def materialiseDraftAttachment (temp : TempDir) (unique : Uuid) (bytes : DraftAttachmentBytes)
    (files : Files) : Except String (ComposerAttachment × Files) :=
  match bytes.bytes with
  | none =>
    let reason := bytes.decodeError.getD "decode failed"
    .error s!"invalid base64 for draft attachment '{bytes.filename}': {reason}"
  | some decoded =>
    let path := draftTempPath temp unique bytes.filename
    match temp.writeError path with
    | some error => .error error
    | none =>
      .ok (⟨path, bytes.filename, bytes.contentType⟩, Function.update files path (some decoded))

/-- The loop over the attachments; the `i`-th call of `Uuid::new_v4` makes `uniques i`. -/
def materialiseFrom (temp : TempDir) (uniques : Nat → Uuid) :
    Nat → List DraftAttachmentBytes → Files → Except String (List ComposerAttachment × Files)
  | _, [], files => .ok ([], files)
  | i, bytes :: rest, files => do
    let (attachment, files) ← materialiseDraftAttachment temp (uniques i) bytes files
    let (later, files) ← materialiseFrom temp uniques (i + 1) rest files
    return (attachment :: later, files)

def composerDraftFromSummary (temp : TempDir) (uniques : Nat → Uuid) (summary : DraftSummary)
    (files : Files) : Except String (ComposerDraft × Files) := do
  let (attachments, files) ← materialiseFrom temp uniques 0 summary.attachments files
  return (
    { accountId := summary.draft.accountId
      inReplyToMsg := summary.draft.inReplyToMsg
      toAddrs := summary.draft.toAddrs
      ccAddrs := summary.draft.ccAddrs
      bccAddrs := summary.draft.bccAddrs
      subject := summary.draft.subject
      textBody := summary.draft.textBody
      htmlBody := summary.draft.htmlBody
      attachments := attachments
      inReplyTo := summary.draft.inReplyTo
      referencesHeader := summary.draft.referencesHeader }, files)

/-! ## Every file has its own name -/

theorem head_simpleText (id : Uuid) (rest : String) :
    (simpleText id ++ rest).toList.head? ≠ some '/' := by
  have hchar : ∀ d, Uuid.hexChar d ≠ '/' := by decide
  cases hdigits : id.digits with
  | nil =>
    have hsize := id.size
    rw [hdigits] at hsize
    cases hsize
  | cons d ds =>
    rw [simpleText, hdigits, String.toList_append, String.toList_ofList]
    intro h
    exact hchar d (Option.some.inj h)

theorem draftTempPath_inj {temp : TempDir} {id id' : Uuid} {name name' : String}
    (h : draftTempPath temp id name = draftTempPath temp id' name') : id = id' := by
  have hpath : ∀ id name, draftTempPath temp id name =
      slashed (joinPath temp.path "postblox-drafts") ++
        (simpleText id ++ ("-" ++ safeExportFilename name)) := by
    intro id name
    rw [draftTempPath, joinPath, String.append_assoc, if_neg (head_simpleText id _), slashed]
    split_ifs
    · rfl
    · rfl
  rw [hpath, hpath] at h
  have hlist := congrArg String.toList h
  simp only [String.toList_append] at hlist
  have hrest := List.append_cancel_left hlist
  simp only [simpleText, String.toList_ofList] at hrest
  have hlength : (Uuid.hex id.digits).length = (Uuid.hex id'.digits).length := by
    rw [Uuid.length_hex, Uuid.length_hex, id.size, id'.size]
  have hhex := (List.append_inj hrest hlength).1
  have hparse := Uuid.mapM_hexVal_hex id.digits
  rw [hhex, Uuid.mapM_hexVal_hex] at hparse
  obtain ⟨digits, size⟩ := id
  obtain ⟨digits', size'⟩ := id'
  cases hparse
  rfl

/-- An attachment of the composer for one of the draft: the name, the type, and a file with the
bytes. -/
structure Materialised (files : Files) (bytes : DraftAttachmentBytes)
    (attachment : ComposerAttachment) : Prop where
  filename : attachment.filename = bytes.filename
  contentType : attachment.contentType = bytes.contentType
  content : ∃ decoded, bytes.bytes = some decoded ∧ files attachment.path = some decoded

theorem materialiseDraftAttachment_ok {temp : TempDir} {unique : Uuid}
    {bytes : DraftAttachmentBytes} {files files' : Files} {attachment : ComposerAttachment}
    (h : materialiseDraftAttachment temp unique bytes files = .ok (attachment, files')) :
    Materialised files' bytes attachment ∧
      attachment.path = draftTempPath temp unique bytes.filename ∧
      ∀ path, path ≠ attachment.path → files' path = files path := by
  unfold materialiseDraftAttachment at h
  cases hbytes : bytes.bytes with
  | none =>
    rw [hbytes] at h
    cases h
  | some decoded =>
    rw [hbytes] at h
    dsimp only at h
    split at h
    · cases h
    · cases h
      exact ⟨⟨rfl, rfl, decoded, hbytes, Function.update_self _ _ _⟩, rfl,
        fun path hne => Function.update_of_ne hne _ _⟩

theorem materialiseFrom_ok {temp : TempDir} {uniques : Nat → Uuid} {i : Nat}
    {all : List DraftAttachmentBytes} (huniques : Set.InjOn uniques (Set.Iio (i + all.length)))
    {files files' : Files} {attachments : List ComposerAttachment}
    (h : materialiseFrom temp uniques i all files = .ok (attachments, files')) :
    List.Forall₂ (Materialised files') all attachments ∧
      ∀ path, (∀ j name, i ≤ j → j < i + all.length → path ≠ draftTempPath temp (uniques j) name) →
        files' path = files path := by
  induction all generalizing i files attachments with
  | nil =>
    cases h
    exact ⟨.nil, fun _ _ => rfl⟩
  | cons bytes rest ih =>
    rw [List.length_cons, Nat.add_comm rest.length, ← Nat.add_assoc] at huniques
    obtain ⟨⟨first, written⟩, hfirst, h⟩ := bind_eq_ok.mp h
    obtain ⟨⟨later, final⟩, hlater, h⟩ := bind_eq_ok.mp h
    cases h
    obtain ⟨hmaterialised, hpath, hothers⟩ := materialiseDraftAttachment_ok hfirst
    obtain ⟨hrest, hkept⟩ := ih huniques hlater
    -- the files that follow have other names
    have hstays : files' first.path = written first.path := by
      apply hkept
      intro j name hj hlast heq
      rw [hpath] at heq
      have hi : i ∈ Set.Iio (i + 1 + rest.length) := Set.mem_Iio.mpr (by omega)
      have hsame := huniques hi (Set.mem_Iio.mpr hlast) (draftTempPath_inj heq)
      omega
    refine ⟨.cons ⟨hmaterialised.filename, hmaterialised.contentType, ?_⟩ hrest, ?_⟩
    · rw [hstays]
      exact hmaterialised.content
    · intro path hpaths
      rw [List.length_cons] at hpaths
      rw [hkept path fun j name hj hlast => hpaths j name (by omega) (by omega)]
      apply hothers
      rw [hpath]
      exact hpaths i bytes.filename (Nat.le_refl i) (by omega)

end Postblox.Tui
