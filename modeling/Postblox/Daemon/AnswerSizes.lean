import Postblox.Daemon.Fetch

/-!
# How long an answer is

The length of the text of an answer, from the lengths of what is stored: base64 makes
four characters of three bytes, an id is 36 characters, and the names and texts of the
rows count with their escapes.
-/
namespace Postblox.Json

/-! ## Strings without escapes -/

theorem escapedLen_of_plain {s : String} (h : ∀ c ∈ s.toList, (escaped c).length = 1) :
    escapedLen s = s.toList.length := by
  rw [escapedLen, escapedText]
  generalize s.toList = chars at h
  induction chars with
  | nil => rfl
  | cons c rest ih =>
    rw [List.forall_mem_cons] at h
    rw [List.flatMap_cons, List.length_append, h.1, ih h.2, List.length_cons]
    omega

theorem length_escaped_of_isDigit {c : Char} (h : c.isDigit = true) : (escaped c).length = 1 := by
  have hrange : 48 ≤ c.toNat ∧ c.toNat ≤ 57 := by
    simpa [Char.isDigit, UInt32.le_iff_toNat_le] using h
  unfold escaped
  split
  iterate 7
    · next => simp at hrange
  · next =>
    have hlow : ¬ c.toNat < 0x20 := by omega
    have hsize : c.utf8Size = 1 := by
      rw [Char.utf8Size_eq_one_iff, UInt32.le_iff_toNat_le]
      exact hrange.2.trans (by decide)
    rw [if_neg hlow, String.length_utf8EncodeChar, hsize]

theorem escapedLen_toString (n : Nat) : escapedLen (toString n) = decimalLen n := by
  have hchars : (toString n).toList = Nat.toDigits 10 n := by
    rw [Nat.toString_eq_ofList_toDigits, String.toList_ofList]
  rw [escapedLen_of_plain, hchars, decimalLen, decimal, List.length_map]
  intro c hc
  rw [hchars] at hc
  exact length_escaped_of_isDigit (Nat.isDigit_of_mem_toDigits (by decide) (by decide) hc)

theorem length_escaped_hexChar : ∀ d : Fin 16, (escaped (Uuid.hexChar d)).length = 1 := by
  decide

theorem escapedLen_hyphenated (id : Uuid) : escapedLen id.hyphenated = 36 := by
  have hsize := id.size
  rw [escapedLen_of_plain, Uuid.hyphenated, String.toList_ofList]
  · simp [Uuid.hyphenatedChars, Uuid.hex]
    omega
  · intro c hc
    have hhyphen : (escaped '-').length = 1 := rfl
    have hhex : ∀ digits : List (Fin 16), c ∈ Uuid.hex digits → (escaped c).length = 1 := by
      intro digits hmem
      obtain ⟨d, -, rfl⟩ := List.mem_map.mp hmem
      exact length_escaped_hexChar d
    rw [Uuid.hyphenated, String.toList_ofList, Uuid.hyphenatedChars] at hc
    simp only [List.append_assoc, List.cons_append, List.mem_append, List.mem_cons] at hc
    obtain h | rfl | h | rfl | h | rfl | h | rfl | h := hc <;> first | exact hhyphen | exact hhex _ h

end Postblox.Json

namespace Postblox.Daemon.Fetch

open Json (Value Data escapedLen itemsOrdered entriesOrdered itemsLen)
open Ipc (toData i64 i64Len u64)

/-! ## Base64 -/

def base64Alphabet : String :=
  "ABCDEFGHIJKLMNOPQRSTUVWXYZabcdefghijklmnopqrstuvwxyz0123456789+/="

/-- How many characters the standard alphabet takes for this many bytes, padded. -/
def base64Len (n : Nat) : Nat := 4 * ((n + 2) / 3)

structure Base64.Standard (base64 : Base64) : Prop where
  length : ∀ bytes, (base64 bytes).toList.length = base64Len bytes.length
  alphabet : ∀ bytes, ∀ c ∈ (base64 bytes).toList, c ∈ base64Alphabet.toList

theorem Base64.Standard.escapedLen {base64 : Base64} (h : base64.Standard) (bytes : List UInt8) :
    escapedLen (base64 bytes) = base64Len bytes.length := by
  have hplain : (base64Alphabet.toList.all fun c => (Json.escaped c).length = 1) = true := by decide
  rw [Json.escapedLen_of_plain fun c hc => ?_, h.length]
  simpa using List.all_eq_true.mp hplain c (h.alphabet bytes c hc)

/-- A group of six bits. -/
def sextet (n : Nat) : Char := base64Alphabet.toList.getD (n % 64) 'A'

def base64Chars : List UInt8 → List Char
  | [] => []
  | [a] => [sextet (a.toNat / 4), sextet (a.toNat % 4 * 16), '=', '=']
  | [a, b] =>
    [sextet (a.toNat / 4), sextet (a.toNat % 4 * 16 + b.toNat / 16),
      sextet (b.toNat % 16 * 4), '=']
  | a :: b :: c :: rest =>
    sextet (a.toNat / 4) :: sextet (a.toNat % 4 * 16 + b.toNat / 16) ::
      sextet (b.toNat % 16 * 4 + c.toNat / 64) :: sextet c.toNat :: base64Chars rest

/-- The standard alphabet with padding, as documented. -/
def documentedBase64 : Base64 := fun bytes => String.ofList (base64Chars bytes)

theorem sextet_mem (n : Nat) : sextet n ∈ base64Alphabet.toList := by
  have hlt : n % 64 < base64Alphabet.toList.length := (Nat.mod_lt n (by omega)).trans (by decide)
  rw [sextet, List.getD_eq_getElem?_getD, List.getElem?_eq_getElem hlt, Option.getD_some]
  exact List.getElem_mem hlt

theorem documentedBase64_standard : Base64.Standard documentedBase64 where
  length bytes := by
    rw [documentedBase64, String.toList_ofList, base64Len]
    fun_induction base64Chars bytes with
    | case1 => rfl
    | case2 a => simp
    | case3 a b => simp
    | case4 a b c rest ih =>
      simp only [List.length_cons, ih]
      omega
  alphabet bytes := by
    have hpad : '=' ∈ base64Alphabet.toList := by decide
    rw [documentedBase64, String.toList_ofList]
    fun_induction base64Chars bytes with
    | case1 => simp
    | case2 a => simp [sextet_mem, hpad]
    | case3 a b => simp [sextet_mem, hpad]
    | case4 a b c rest ih => simpa [sextet_mem] using ih

/-! ## Answers -/

section Ordered

theorem isOrdered_object {entries : List (String × Value)} (keys : List String)
    (hkeys : keys.Pairwise (· < ·)) (hentries : entries.map Prod.fst = keys)
    (h : entriesOrdered entries = true) : (Value.object entries).isOrdered = true := by
  rw [Value.isOrdered, hentries, h, Bool.and_true, decide_eq_true_iff]
  exact hkeys

theorem itemsOrdered_map {α : Type} {toJson : α → Value} (items : List α)
    (h : ∀ a ∈ items, (toJson a).isOrdered = true) : itemsOrdered (items.map toJson) = true := by
  induction items with
  | nil => rfl
  | cons a rest ih =>
    rw [List.forall_mem_cons] at h
    rw [List.map_cons, itemsOrdered, h.1, ih h.2, Bool.and_true]

theorem isOrdered_optionJson {α : Type} {toJson : α → Value} (a : Option α)
    (h : ∀ a, (toJson a).isOrdered = true) : (optionJson toJson a).isOrdered = true := by
  cases a with
  | none => rfl
  | some a => exact h a

theorem isOrdered_i64 (n : Int64) : (i64 n).isOrdered = true := by
  unfold i64
  split <;> rfl

theorem isOrdered_stringsJson (strings : List String) : (stringsJson strings).isOrdered = true :=
  itemsOrdered_map strings fun _ _ => rfl

theorem Draft.isOrdered_toJson (d : Draft) : d.toJson.isOrdered = true := by
  have hstring : ∀ s, (Value.string s).isOrdered = true := fun _ => rfl
  have huuid : ∀ id, (uuidJson id).isOrdered = true := fun _ => rfl
  refine isOrdered_object ["account_id", "bcc_addrs", "cc_addrs", "created_at", "html_body", "id",
    "in_reply_to", "in_reply_to_msg", "references_header", "remote_folder_id", "remote_uid",
    "subject", "text_body", "to_addrs", "updated_at"] (by decide) rfl ?_
  simp only [entriesOrdered, isOrdered_optionJson _ hstring, isOrdered_optionJson _ huuid,
    isOrdered_optionJson _ isOrdered_i64, isOrdered_stringsJson, hstring, huuid, Bool.and_true]

variable (base64 : Base64)

theorem Answer.isOrdered_toJson (a : Answer) : (a.toJson base64).isOrdered = true := by
  have hattachment : ∀ row bytes, (draftAttachmentJson base64 row bytes).isOrdered = true := by
    intro row bytes
    refine isOrdered_object ["content_base64", "content_type", "draft_id", "filename", "id",
      "size_bytes"] (by decide) rfl ?_
    simp only [entriesOrdered, uuidJson, Value.isOrdered, isOrdered_i64, Bool.and_true]
  have hpayload : ∀ f, (forwardAttachmentPayload base64 f).isOrdered = true := by
    intro f
    refine isOrdered_object ["attachment_id", "content_base64", "content_type", "filename",
      "size_bytes", "source"] (by decide) rfl ?_
    simp only [entriesOrdered, uuidJson, Value.isOrdered, isOrdered_i64, Bool.and_true]
  have hfailure : ∀ f, (forwardFailureJson f).isOrdered = true := by
    intro f
    refine isOrdered_object ["attachment_id", "code", "filename", "message"] (by decide)
      rfl ?_
    simp only [entriesOrdered, uuidJson, Value.isOrdered, Bool.and_true]
  cases a with
  | null => rfl
  | draft d attachments =>
    refine isOrdered_object ["attachments", "draft"] (by decide) rfl ?_
    simp only [entriesOrdered, Value.isOrdered, d.isOrdered_toJson,
      itemsOrdered_map attachments fun a _ => hattachment a.1 a.2, Bool.and_true]
  | forwarded f => exact hpayload f
  | batch attachments failed =>
    refine isOrdered_object ["attachments", "failed"] (by decide) rfl ?_
    simp only [entriesOrdered, Value.isOrdered, itemsOrdered_map attachments fun f _ => hpayload f,
      itemsOrdered_map failed fun f _ => hfailure f, Bool.and_true]
  | rows selected => exact itemsOrdered_map selected fun row _ => row.2
  | record data => exact data.2

/-- An answer is written as it stands. -/
theorem toData_toJson (a : Answer) : (toData (a.toJson base64)).val = a.toJson base64 :=
  Json.Value.ofContent_of_isOrdered _ (a.isOrdered_toJson base64)

end Ordered

section Length

variable (floatText : Rat → List UInt8)

def draftAttachmentLen (row : DraftAttachment) (bytes : List UInt8) : Nat :=
  161 + base64Len bytes.length + escapedLen row.contentType + escapedLen row.filename +
    i64Len row.sizeBytes

def forwardedLen (f : Forwarded) : Nat :=
  134 + base64Len f.bytes.length + escapedLen f.attachment.contentType +
    escapedLen f.attachment.filename + i64Len (.ofNat f.bytes.length) + escapedLen f.source

def forwardFailureLen (f : ForwardFailure) : Nat :=
  93 + escapedLen f.code + escapedLen f.filename + escapedLen f.message

/-- An array of texts of these lengths. -/
def arrayLen (lens : List Nat) : Nat := max 1 (lens.map (· + 1)).sum + 1

/-- How much text the data of an answer takes. -/
def Answer.len : Answer → Nat
  | .null => 4
  | .draft d attachments =>
    25 + arrayLen (attachments.map fun a => draftAttachmentLen a.1 a.2) + d.toJson.textLen floatText
  | .forwarded f => forwardedLen f
  | .batch attachments failed =>
    26 + arrayLen (attachments.map forwardedLen) + arrayLen (failed.map forwardFailureLen)
  | .rows selected => arrayLen (selected.map fun row => row.val.textLen floatText)
  | .record data => data.val.textLen floatText

variable {base64 : Base64}

theorem textLen_uuidJson (id : Uuid) : (uuidJson id).textLen floatText = 38 := by
  rw [uuidJson, Json.textLen_string, Json.escapedLen_hyphenated]

theorem textLen_array_map {α : Type} {toJson : α → Value} {len : α → Nat} (items : List α)
    (h : ∀ a ∈ items, (toJson a).textLen floatText = len a) :
    (Value.array (items.map toJson)).textLen floatText = arrayLen (items.map len) := by
  rw [Json.textLen_array, arrayLen, itemsLen, List.map_map, List.map_map]
  congr 3
  exact List.map_congr_left fun a ha => by simp [h a ha]

theorem textLen_draftAttachmentJson (hbase64 : base64.Standard) (row : DraftAttachment)
    (bytes : List UInt8) :
    (draftAttachmentJson base64 row bytes).textLen floatText = draftAttachmentLen row bytes := by
  have h₁ : escapedLen "content_base64" = 14 := rfl
  have h₂ : escapedLen "content_type" = 12 := rfl
  have h₃ : escapedLen "draft_id" = 8 := rfl
  have h₄ : escapedLen "filename" = 8 := rfl
  have h₅ : escapedLen "id" = 2 := rfl
  have h₆ : escapedLen "size_bytes" = 10 := rfl
  simp only [draftAttachmentJson, Json.textLen_object, Json.entriesLen_cons, Json.entriesLen_nil,
    Json.textLen_string, textLen_uuidJson, Ipc.textLen_i64, hbase64.escapedLen, h₁, h₂, h₃, h₄, h₅,
    h₆, draftAttachmentLen]
  omega

theorem textLen_forwardAttachmentPayload (hbase64 : base64.Standard) (f : Forwarded) :
    (forwardAttachmentPayload base64 f).textLen floatText = forwardedLen f := by
  have h₁ : escapedLen "attachment_id" = 13 := rfl
  have h₂ : escapedLen "content_base64" = 14 := rfl
  have h₃ : escapedLen "content_type" = 12 := rfl
  have h₄ : escapedLen "filename" = 8 := rfl
  have h₅ : escapedLen "size_bytes" = 10 := rfl
  have h₆ : escapedLen "source" = 6 := rfl
  simp only [forwardAttachmentPayload, Json.textLen_object, Json.entriesLen_cons,
    Json.entriesLen_nil, Json.textLen_string, textLen_uuidJson, Ipc.textLen_i64,
    hbase64.escapedLen, h₁, h₂, h₃, h₄, h₅, h₆, forwardedLen]
  omega

theorem textLen_forwardFailureJson (f : ForwardFailure) :
    (forwardFailureJson f).textLen floatText = forwardFailureLen f := by
  have h₁ : escapedLen "attachment_id" = 13 := rfl
  have h₂ : escapedLen "code" = 4 := rfl
  have h₃ : escapedLen "filename" = 8 := rfl
  have h₄ : escapedLen "message" = 7 := rfl
  simp only [forwardFailureJson, Json.textLen_object, Json.entriesLen_cons, Json.entriesLen_nil,
    Json.textLen_string, textLen_uuidJson, h₁, h₂, h₃, h₄, forwardFailureLen]
  omega

theorem textLen_toJson (hbase64 : base64.Standard) (a : Answer) :
    (a.toJson base64).textLen floatText = a.len floatText := by
  have hattachments : escapedLen "attachments" = 11 := rfl
  cases a with
  | null => rfl
  | draft d attachments =>
    have hdraft : escapedLen "draft" = 5 := rfl
    simp only [Answer.toJson, Answer.len, Json.textLen_object, Json.entriesLen_cons,
      Json.entriesLen_nil, textLen_array_map floatText attachments fun a _ =>
        textLen_draftAttachmentJson floatText hbase64 a.1 a.2, hattachments, hdraft]
    omega
  | forwarded f => exact textLen_forwardAttachmentPayload floatText hbase64 f
  | batch attachments failed =>
    have hfailed : escapedLen "failed" = 6 := rfl
    simp only [Answer.toJson, Answer.len, Json.textLen_object, Json.entriesLen_cons,
      Json.entriesLen_nil, textLen_array_map floatText attachments fun a _ =>
        textLen_forwardAttachmentPayload floatText hbase64 a,
      textLen_array_map floatText failed fun f _ => textLen_forwardFailureJson floatText f,
      hattachments, hfailed]
    omega
  | rows selected => exact textLen_array_map floatText selected fun _ _ => rfl
  | record data => rfl

end Length

end Postblox.Daemon.Fetch
