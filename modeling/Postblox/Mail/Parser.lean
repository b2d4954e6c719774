import Postblox.Mail.Text
import Postblox.Utf8

/-!
# From raw bytes to a parsed message

`parseWithOptions` reads what `mail-parser` found in the raw bytes. The crate itself is a
parameter, `MailParser`; its ids come without the brackets and blanks around them, its
addresses without the blanks.
-/
namespace Postblox.Mail

/-- A message id as `mail-parser` hands it out. -/
structure HeaderId where
  text : String
  nonempty : text ≠ ""
  bare : trimmed text = text
  noOpening : text.toList.head? ≠ some '<'
  noClosing : text.toList.getLast? ≠ some '>'

/-- An address as `mail-parser` hands it out. -/
structure Address where
  text : String
  nonempty : text ≠ ""
  bare : trimmed text = text

/-- An entry of an address header; a display name alone has no address. -/
structure Addr where
  address : Option Address

/-- The kinds of header value the parser of this crate tells apart. -/
inductive HeaderValue where
  | text (id : HeaderId)
  | textList (ids : List HeaderId)
  | other

inductive PartType where
  | text (body : String)
  | html (body : String)
  | binary (body : List UInt8)
  | inlineBinary (body : List UInt8)
  | message
  | multipart

structure ContentType where
  ctype : String
  subtype : Option String

structure MessagePart where
  contentDisposition : Option String
  attachmentName : Option String
  contentType : Option ContentType
  contentId : Option String
  body : PartType

/-- `mail_parser::Message`, groups of addresses flattened. -/
structure ParserMessage where
  messageId : Option HeaderId
  inReplyTo : HeaderValue
  references : HeaderValue
  fromAddrs : Option (List Addr)
  replyTo : Option (List Addr)
  toAddrs : Option (List Addr)
  ccAddrs : Option (List Addr)
  subject : Option String
  bodyText : Option String
  bodyHtml : Option String
  parts : List MessagePart

abbrev MailParser := List UInt8 → Option ParserMessage

def HeaderValue.ids : HeaderValue → List HeaderId
  | text id => [id]
  | textList ids => ids
  | other => []

/-- The addresses of a header, in order. -/
def addressesOf (header : Option (List Addr)) : List Address :=
  (header.getD []).filterMap (·.address)

def mimeToExt (contentType : String) : String :=
  match contentType with
  | "image/png" => "png"
  | "image/jpeg" => "jpg"
  | "image/gif" => "gif"
  | "image/webp" => "webp"
  | "image/svg+xml" => "svg"
  | "application/pdf" => "pdf"
  | "text/plain" => "txt"
  | "text/html" => "html"
  | "text/csv" => "csv"
  | "application/json" => "json"
  | "application/zip" => "zip"
  | "application/gzip" => "gz"
  | _ => "bin"

def stripAngles (s : String) : String :=
  String.ofList (trim (((trim s.toList).dropWhile (· = '<')).rdropWhile (· = '>')))

def extractAddresses (header : List Addr) : List String :=
  header.filterMap fun a => a.address.map (·.text)

def extractTextValue (value : HeaderValue) : List String := value.ids.map (·.text)

def partContentType (part : MessagePart) : String :=
  match part.contentType with
  | some ct =>
    match ct.subtype with
    | some sub => ct.ctype ++ "/" ++ sub
    | none => ct.ctype
  | none => "application/octet-stream"

/-- The bytes of a part that can be an attachment. Text without a name and without
`attachment` is a body, and messages and multiparts are walked into by the crate. -/
def partData (isAttachment hasFilename : Bool) : PartType → Option (List UInt8)
  | .text s => if !isAttachment && !hasFilename then none else some (utf8 s)
  | .html s => if !isAttachment && !hasFilename then none else some (utf8 s)
  | .binary b => some b
  | .inlineBinary b => some b
  | .message => none
  | .multipart => none

/-- One round of the attachment loop: the part at index `i`. -/
def parsedAttachment (i : Nat) (part : MessagePart) : Option ParsedAttachment :=
  let isAttachment := part.contentDisposition == some "attachment"
  let isInline := part.contentDisposition == some "inline"
  let hasFilename := part.attachmentName.isSome
  if !isAttachment && !isInline && !hasFilename then none
  -- the root is a body, whatever it says
  else if i = 0 then none
  else
    (partData isAttachment hasFilename part.body).map fun data =>
      let contentType := partContentType part
      { filename := part.attachmentName.getD
          ("attachment_" ++ toString i ++ "." ++ mimeToExt contentType)
        contentType
        data
        disposition := if isInline then .inlined else .attachment
        contentId := part.contentId.map stripAngles }

/-- What is kept of what the crate found. -/
def parsedEmail (message : ParserMessage) : ParsedEmail where
  messageId := message.messageId.map fun id => stripAngles id.text
  inReplyTo := (extractTextValue message.inReplyTo).head?.map stripAngles
  references := (extractTextValue message.references).map stripAngles
  fromAddr := ((message.fromAddrs.bind fun a => a.findSome? (·.address)).map (·.text)).getD ""
  toAddrs := (message.toAddrs.map extractAddresses).getD []
  ccAddrs := (message.ccAddrs.map extractAddresses).getD []
  subject := message.subject
  textBody := message.bodyText.filter (· ≠ "")
  htmlBody := message.bodyHtml.filter (· ≠ "")
  attachments := message.parts.zipIdx.filterMap fun p => parsedAttachment p.2 p.1

def parseWithOptions (parser : MailParser) (raw : List UInt8) : Option ParsedEmail :=
  (parser raw).map parsedEmail

/-! ## What the crate hands out is kept -/

theorem HeaderId.stripAngles_text (id : HeaderId) : stripAngles id.text = id.text := by
  have htrim : trim id.text.toList = id.text.toList := trimmed_toList id.bare
  have hdrop : id.text.toList.dropWhile (· = '<') = id.text.toList := by
    have hne := id.noOpening
    cases hl : id.text.toList with
    | nil => rfl
    | cons c rest =>
      rw [hl, List.head?_cons] at hne
      have hc : c ≠ '<' := fun h => hne (congrArg some h)
      rw [List.dropWhile_cons_of_neg (by simpa using hc)]
  have hrdrop : id.text.toList.rdropWhile (· = '>') = id.text.toList := by
    rw [List.rdropWhile_eq_self_iff]
    intro hne hlast
    exact id.noClosing (by rw [List.getLast?_eq_getLast_of_ne_nil hne]; simpa using hlast)
  rw [stripAngles, htrim, hdrop, hrdrop, htrim, String.ofList_toList]

/-- The first character of an id is not the bracket it lost. -/
theorem HeaderId.exists_head (id : HeaderId) :
    ∃ c, id.text.toList.head? = some c ∧ isWhitespace c = false ∧ c ≠ '<' := by
  cases hl : id.text.toList with
  | nil => exact absurd (String.toList_eq_nil_iff.mp hl) id.nonempty
  | cons c rest =>
    have hhead : id.text.toList.head? = some c := by rw [hl]; rfl
    refine ⟨c, rfl, ?_, ?_⟩
    · rw [← trimmed_toList id.bare] at hhead
      exact head_trim hhead
    · rintro rfl
      exact id.noOpening hhead

theorem stripAngles_ids (value : HeaderValue) :
    (extractTextValue value).map stripAngles = value.ids.map (·.text) := by
  rw [extractTextValue, List.map_map]
  exact List.map_congr_left fun id _ => id.stripAngles_text

/-- The sender is the first address of the `From` header, or nothing. -/
theorem parsedEmail_fromAddr (message : ParserMessage) :
    (parsedEmail message).fromAddr =
      ((addressesOf message.fromAddrs).head?.map (·.text)).getD "" := by
  rw [parsedEmail]
  cases message.fromAddrs with
  | none => simp [addressesOf]
  | some l => simp [addressesOf, List.head?_filterMap]

theorem parsedEmail_messageId (message : ParserMessage) :
    (parsedEmail message).messageId = message.messageId.map (·.text) :=
  Option.map_congr fun id _ => id.stripAngles_text

theorem parsedEmail_references (message : ParserMessage) :
    (parsedEmail message).references = message.references.ids.map (·.text) :=
  stripAngles_ids message.references

end Postblox.Mail
