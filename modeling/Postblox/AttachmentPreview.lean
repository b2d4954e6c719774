import Postblox.Attachments
import Postblox.Lib.Utf8Prefix
import Postblox.Mail.Text
import Postblox.Utf8

/-!
# Attachment previews

The first bytes of a stored file, shown as text. One more byte is asked for than is shown,
so that a full buffer says that the file goes on; a character that the limit cuts in two is
left out.
-/
namespace Postblox.Attachments

open Lib Db Mail Sync

/-- `PREVIEW_LIMIT_BYTES`. -/
def previewLimitBytes : Nat := 16 * 1024

structure AttachmentPreview where
  attachment : Attachment
  inlineText : Option String
  message : String
  truncated : Bool
  previewBytes : Nat

inductive PreviewError where
  | io (error : IoError)
  /-- `unwrap` of an error. -/
  | panicked

/-- An opened file: what `read` puts into a buffer of a given size. -/
abbrev OpenFile := Nat → Except IoError (List UInt8)

/-- `str::from_utf8`; the error is `valid_up_to`. -/
def fromUtf8 (bytes : List UInt8) : Except Nat String :=
  let text := decodeValid bytes.length bytes
  if byteLength text = bytes.length then .ok (String.ofList text) else .error (byteLength text)

def isTextLike (contentType : String) : Bool :=
  let mediaType :=
    asciiLowercase (trimmed (String.ofList ((contentType.toList.splitOn ';').headD [])))
  "text/".toList.isPrefixOf mediaType.toList ||
    ["application/json", "application/xml", "application/csv", "application/x-ndjson",
      "image/svg+xml"].contains mediaType ||
    "+json".toList.isSuffixOf mediaType.toList || "+xml".toList.isSuffixOf mediaType.toList

def refusal (attachment : Attachment) (message : String) : AttachmentPreview where
  attachment := attachment
  inlineText := none
  message := message
  truncated := false
  previewBytes := 0

/-- The text of the bytes that are shown. -/
def inlineText (truncated : Bool) (buf : List UInt8) : Except PreviewError (Option String) :=
  match fromUtf8 buf with
  | .ok text => .ok (some text)
  | .error validUpTo =>
    if truncated ∧ validUpTo > 0 then
      match fromUtf8 (buf.take validUpTo) with
      | .ok text => .ok (some text)
      | .error _ => .error .panicked
    else .ok none

def previewOf (attachment : Attachment) (truncated : Bool) : Option String → AttachmentPreview
  | some text =>
    { attachment := attachment
      previewBytes := (utf8 text).length
      inlineText := some text
      message :=
        if truncated then s!"Inline UTF-8 preview (first {previewLimitBytes} bytes)"
        else "Inline UTF-8 preview"
      truncated := truncated }
  | none =>
    refusal attachment
      s!"No inline preview: {attachment.contentType} attachment is not valid UTF-8"

def previewAttachment (openFile : StoredPath → Except IoError OpenFile)
    (attachment : Attachment) : Except PreviewError AttachmentPreview :=
  if isTextLike attachment.contentType then do
    let file ← (openFile attachment.storagePath).mapError .io
    let buf ← (file (previewLimitBytes + 1)).mapError .io
    let truncated := decide (buf.length > previewLimitBytes)
    let inline ← inlineText truncated (buf.take previewLimitBytes)
    return previewOf attachment truncated inline
  else
    return refusal attachment
      s!"No inline preview for {attachment.contentType} attachment ({attachment.sizeBytes} bytes)"

/-! ## Valid text -/

theorem utf8_eq_encodeChars (s : String) : utf8 s = encodeChars s.toList := rfl

theorem fromUtf8_encodeChars (text : List Char) :
    fromUtf8 (encodeChars text) = .ok (String.ofList text) := by
  have hdecode : decodeValid (encodeChars text).length (encodeChars text) = text := by
    have hle : text.length ≤ (encodeChars text).length := by
      rw [length_encodeChars]
      exact length_le_byteLength text
    simpa using decodeValid_encode text decodeFirst_nil hle
  rw [fromUtf8, hdecode, length_encodeChars, if_pos rfl]

/-- The bytes before `valid_up_to` are a text. -/
theorem fromUtf8_take_valid {bytes : List UInt8} {n : Nat} (h : fromUtf8 bytes = .error n) :
    fromUtf8 (bytes.take n) = .ok (String.ofList (decodeValid bytes.length bytes)) := by
  rw [fromUtf8] at h
  split_ifs at h
  cases h
  obtain ⟨rest, hrest⟩ := encode_decodeValid bytes.length bytes
  have htake : bytes.take (byteLength (decodeValid bytes.length bytes)) =
      encodeChars (decodeValid bytes.length bytes) := by
    nth_rewrite 3 [← hrest]
    exact List.take_left' (length_encodeChars _)
  rw [htake, fromUtf8_encodeChars]

/-- Nothing that a file can hold makes the second decoding fail. -/
theorem inlineText_ne_panicked (truncated : Bool) (buf : List UInt8) :
    ∃ inline, inlineText truncated buf = .ok inline := by
  rw [inlineText]
  cases hvalid : fromUtf8 buf with
  | ok text => exact ⟨some text, rfl⟩
  | error n =>
    dsimp only
    rw [fromUtf8_take_valid hvalid]
    split_ifs
    · exact ⟨_, rfl⟩
    · exact ⟨none, rfl⟩

theorem previewAttachment_ne_panicked (openFile : StoredPath → Except IoError OpenFile)
    (attachment : Attachment) :
    previewAttachment openFile attachment ≠ .error .panicked := by
  rw [previewAttachment]
  split_ifs
  · cases openFile attachment.storagePath with
    | error e => intro h; cases h
    | ok file =>
      cases hread : file (previewLimitBytes + 1) with
      | error e =>
        intro h
        simp [Except.mapError, hread, bind, Except.bind] at h
      | ok buf =>
        obtain ⟨inline, hinline⟩ := inlineText_ne_panicked
          (decide (buf.length > previewLimitBytes)) (buf.take previewLimitBytes)
        intro h
        simp [Except.mapError, hread, bind, Except.bind, hinline, pure, Except.pure] at h
  · intro h
    cases h

/-! ## The shown prefix -/

theorem longestFitting_self {limit : Nat} {text : List Char} (h : byteLength text ≤ limit) :
    LongestFitting limit text text where
  isPrefix := List.prefix_refl text
  fits := h
  longest _ hq _ := hq

/-- A limit of four bytes leaves room for a character. -/
theorem byteLength_pos_of_longest {limit : Nat} {text p : List Char}
    (h : LongestFitting limit text p) (hlimit : 4 ≤ limit) (hcut : limit < byteLength text) :
    0 < byteLength p := by
  cases text with
  | nil => exact absurd hcut (Nat.not_lt_zero _)
  | cons c text =>
    have hwide : c.utf8Size ≤ 4 := Char.utf8Size_le_four c
    have hfirst : [c] <+: p := by
      apply h.longest [c] ⟨text, rfl⟩
      rw [byteLength_cons]
      exact hwide.trans hlimit
    obtain ⟨rest, rfl⟩ := hfirst
    have hpos : 0 < c.utf8Size := Char.utf8Size_pos c
    rw [List.singleton_append, byteLength_cons]
    omega

/-- A text that fits is shown; of a longer one the longest piece that fits. -/
theorem inlineText_take (text : List Char) :
    ∃ p, LongestFitting previewLimitBytes text p ∧
      inlineText (decide (previewLimitBytes < byteLength text))
        ((encodeChars text).take previewLimitBytes) = .ok (some (String.ofList p)) := by
  by_cases hcut : previewLimitBytes < byteLength text
  · have hp := decodeValid_take text previewLimitBytes (Nat.le_refl _)
    refine ⟨_, hp, ?_⟩
    rw [decide_eq_true hcut, inlineText]
    cases hvalid : fromUtf8 ((encodeChars text).take previewLimitBytes) with
    | ok shown =>
      rw [fromUtf8] at hvalid
      split_ifs at hvalid
      cases hvalid
      rfl
    | error n =>
      have hagain := fromUtf8_take_valid hvalid
      have hpos := byteLength_pos_of_longest hp (by decide) hcut
      have hn : n > 0 := by
        rw [fromUtf8] at hvalid
        split_ifs at hvalid
        cases hvalid
        exact hpos
      dsimp only
      rw [if_pos ⟨rfl, hn⟩, hagain]
  · have hfits : byteLength text ≤ previewLimitBytes := Nat.le_of_not_lt hcut
    have hall : (encodeChars text).take previewLimitBytes = encodeChars text :=
      List.take_of_length_le (by rw [length_encodeChars]; exact hfits)
    refine ⟨text, longestFitting_self hfits, ?_⟩
    rw [hall, inlineText, fromUtf8_encodeChars]

def sampleNote : Attachment where
  messageId := 1
  filename := "note.txt"
  contentType := "Text/Plain; charset=utf-8"
  contentId := none
  sizeBytes := 7
  disposition := .attachment
  storagePath := ⟨"/var/mail", 1, "001_note.txt"⟩
  id := 2

/-- A text file is shown up to the last character that lies within the limit as a whole, and
marked as cut exactly if there is more of it than the limit. -/
theorem preview_is_longest_prefix {openFile : StoredPath → Except IoError OpenFile}
    {attachment : Attachment} {file : OpenFile} {text : String}
    (htext : isTextLike attachment.contentType = true)
    (hopen : openFile attachment.storagePath = .ok file)
    (hread : ∀ size, file size = .ok ((utf8 text).take size)) :
    ∃ preview shown, previewAttachment openFile attachment = .ok preview ∧
      preview.inlineText = some shown ∧
      LongestFitting previewLimitBytes text.toList shown.toList ∧
      preview.previewBytes = (utf8 shown).length ∧
      (preview.truncated = true ↔ previewLimitBytes < (utf8 text).length) := by
  have hlength : (utf8 text).length = byteLength text.toList := length_encodeChars text.toList
  obtain ⟨p, hp, hinline⟩ := inlineText_take text.toList
  have hmore : decide (((utf8 text).take (previewLimitBytes + 1)).length > previewLimitBytes) =
      decide (previewLimitBytes < byteLength text.toList) := by
    rw [decide_eq_decide, List.length_take, hlength]
    omega
  have hshown : ((utf8 text).take (previewLimitBytes + 1)).take previewLimitBytes =
      (encodeChars text.toList).take previewLimitBytes := by
    rw [List.take_take, Nat.min_eq_left (Nat.le_succ _), utf8_eq_encodeChars]
  refine ⟨previewOf attachment (decide (previewLimitBytes < byteLength text.toList))
    (some (String.ofList p)), String.ofList p, ?_, rfl, ?_, rfl, ?_⟩
  · rw [previewAttachment, if_pos htext, hopen]
    simp only [Except.mapError, bind, Except.bind, hread, hmore, hshown, hinline, pure,
      Except.pure]
  · rw [String.toList_ofList]
    exact hp
  · rw [hlength]
    exact decide_eq_true_iff

/-- A short note is shown as it is. -/
theorem note_is_shown :
    ∃ preview shown, previewAttachment
        (fun _ => .ok fun size => .ok ((utf8 "grüße").take size)) sampleNote = .ok preview ∧
      preview.inlineText = some shown ∧
      LongestFitting previewLimitBytes "grüße".toList shown.toList ∧
      preview.previewBytes = (utf8 shown).length ∧
      (preview.truncated = true ↔ previewLimitBytes < (utf8 "grüße").length) :=
  preview_is_longest_prefix (by decide) rfl fun _ => rfl

end Postblox.Attachments
