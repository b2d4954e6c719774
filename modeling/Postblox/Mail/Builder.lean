import Postblox.Mail.Base64
import Postblox.Mail.Mime
import Postblox.Uuid

/-!
# MIME assembly for outgoing messages

`build_mime_full` writes the header fields, the body and the attachments one after the
other. The UUIDs of the boundaries and the text of the date are arguments here. All header
inputs are stripped of CR and LF before they reach the wire.
-/
namespace Postblox.Mail

/-- No line break in it. -/
def OneLine (s : String) : Prop := ∀ c ∈ s.toList, c ≠ '\r' ∧ c ≠ '\n'

instance (s : String) : Decidable (OneLine s) :=
  decidable_of_iff (s.toList.all fun c => c ≠ '\r' && c ≠ '\n') (by simp [OneLine])

/-- What `chrono` renders for `%a, %d %b %Y %H:%M:%S +0000`. -/
structure RenderedDate where
  text : String
  oneLine : OneLine text

structure MimeAttachment where
  filename : String
  contentType : String
  data : List UInt8
  contentId : Option String

structure ReplyHeaders where
  inReplyTo : Option String
  references : Option String

structure MimeBuildOptions where
  fromAddr : String
  toAddrs : List String
  ccAddrs : List String
  subject : String
  textBody : Option String
  htmlBody : Option String
  messageId : String
  attachments : List MimeAttachment
  reply : ReplyHeaders

/-- Strip CR and LF to prevent header injection. -/
def sanitizeHeader (value : String) : String :=
  String.ofList (value.toList.filter fun c => c ≠ '\r' && c ≠ '\n')

/-- `Uuid::simple`. -/
def simpleUuid (u : Uuid) : String := String.ofList (Uuid.hex u.digits)

def mixedBoundary (u : Uuid) : String := "postblox-mixed-" ++ simpleUuid u

def alternativeBoundary (u : Uuid) : String := "postblox-" ++ simpleUuid u

def buildBodyOnly (inner : Uuid) : Option String → Option String → String
  | some text, some html =>
    "Content-Type: multipart/alternative; boundary=\"" ++ alternativeBoundary inner ++ "\"\r\n" ++
      "\r\n" ++
      "--" ++ alternativeBoundary inner ++ "\r\n" ++
      "Content-Type: text/plain; charset=utf-8\r\n\r\n" ++ text ++
      "\r\n--" ++ alternativeBoundary inner ++ "\r\n" ++
      "Content-Type: text/html; charset=utf-8\r\n\r\n" ++ html ++
      "\r\n--" ++ alternativeBoundary inner ++ "--\r\n"
  | some text, none => "Content-Type: text/plain; charset=utf-8\r\n\r\n" ++ text
  | none, some html => "Content-Type: text/html; charset=utf-8\r\n\r\n" ++ html
  | none, none => "Content-Type: text/plain; charset=utf-8\r\n\r\n"

/-- The loop that takes 76 characters a round. -/
def wrap : List Char → List (List Char)
  | [] => []
  | c :: rest => (c :: rest).take 76 :: wrap ((c :: rest).drop 76)
termination_by rest => rest.length
decreasing_by
  rw [List.length_drop, List.length_cons]
  omega

def wrapped (encoded : String) : String :=
  String.join ((wrap encoded.toList).map fun line => String.ofList line ++ "\r\n")

def dispositionFields (att : MimeAttachment) : String :=
  match att.contentId with
  | some cid =>
    "Content-ID: <" ++ sanitizeHeader cid ++ ">\r\n" ++
      "Content-Disposition: inline; filename=\"" ++ sanitizeHeader att.filename ++ "\"\r\n"
  | none =>
    "Content-Disposition: attachment; filename=\"" ++ sanitizeHeader att.filename ++ "\"\r\n"

/-- The body of the loop over the attachments. -/
def attachmentPart (base64 : Base64Crate) (mixed : Uuid) (att : MimeAttachment) : String :=
  "\r\n--" ++ mixedBoundary mixed ++ "\r\n" ++
    "Content-Type: " ++ sanitizeHeader att.contentType ++ "; name=\"" ++
      sanitizeHeader att.filename ++ "\"\r\n" ++
    "Content-Transfer-Encoding: base64\r\n" ++ dispositionFields att ++ "\r\n" ++
    wrapped (base64.encode att.data)

/-- The field, when there is a value and it is not empty. -/
def optionalField (name : String) (value : Option String) : String :=
  match value.filter fun s => s ≠ "" with
  | some value => name ++ ": " ++ sanitizeHeader value ++ "\r\n"
  | none => ""

/-- What all messages begin with. -/
def commonFields (date : RenderedDate) (o : MimeBuildOptions) : String :=
  "From: " ++ sanitizeHeader o.fromAddr ++ "\r\n" ++
    "To: " ++ sanitizeHeader (", ".intercalate o.toAddrs) ++ "\r\n" ++
    (if o.ccAddrs = [] then "" else "Cc: " ++ sanitizeHeader (", ".intercalate o.ccAddrs) ++ "\r\n") ++
    "Subject: " ++ sanitizeHeader o.subject ++ "\r\n" ++
    "Message-ID: " ++ sanitizeHeader o.messageId ++ "\r\n" ++
    optionalField "In-Reply-To" o.reply.inReplyTo ++
    optionalField "References" o.reply.references ++
    "Date: " ++ date.text ++ "\r\n" ++
    "MIME-Version: 1.0\r\n"

def buildMimeFull (base64 : Base64Crate) (date : RenderedDate) (mixed inner : Uuid)
    (o : MimeBuildOptions) : List UInt8 :=
  utf8 (commonFields date o ++
    if o.attachments = [] then buildBodyOnly inner o.textBody o.htmlBody
    else
      "Content-Type: multipart/mixed; boundary=\"" ++ mixedBoundary mixed ++ "\"\r\n" ++
        "\r\n" ++
        "--" ++ mixedBoundary mixed ++ "\r\n" ++
        buildBodyOnly inner o.textBody o.htmlBody ++
        String.join (o.attachments.map (attachmentPart base64 mixed)) ++
        "--" ++ mixedBoundary mixed ++ "--\r\n")

end Postblox.Mail
