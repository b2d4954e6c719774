import Postblox.Mail.Builder
import Postblox.Mail.Parser

/-!
# Reply drafts

`replyDraft` fills in the recipients, the subject, the threading headers and the quote of a
reply from a stored message. How `chrono` writes a date is a parameter.
-/
namespace Postblox.Mail

/-- What a reply reads of the message it answers. -/
structure MessageView where
  fromAddr : String
  replyTo : Option String
  subject : Option String
  messageIdHeader : Option String
  referencesHeader : Option String
  toAddrs : List String
  ccAddrs : List String
  textBody : Option String
  htmlBody : Option String
  internalDate : Int

structure ReplyDraft where
  toAddrs : List String
  ccAddrs : List String
  subject : String
  inReplyTo : String
  references : String
  quotedBody : String

def referencesMessageIdCap : Nat := 100

def hasRePrefix (subject : String) : Bool :=
  match trimStart subject.toList with
  | r :: e :: colon :: _ => (r == 'R' || r == 'r') && (e == 'E' || e == 'e') && colon == ':'
  | _ => false

def rePrefix (subject : String) : String :=
  if hasRePrefix subject then subject else "Re: " ++ subject

def primaryReplyTarget (message : MessageView) : String :=
  ((message.replyTo.map trimmed).filter (· ≠ "")).getD (trimmed message.fromAddr)

def angleWrap (value : String) : String :=
  let s := trimmed value
  if s.toList.head? = some '<' ∧ s.toList.getLast? = some '>' then s else "<" ++ s ++ ">"

/-- The root and the most recent ids of a chain that has grown too long. -/
def capReferences (ids : List String) : List String :=
  if referencesMessageIdCap < ids.length then
    ids.take 1 ++ ids.drop (ids.length - (referencesMessageIdCap - 1))
  else ids

def referenceIds (existing messageId : Option String) : List String :=
  (existing.map splitWhitespace).getD [] ++
    ((messageId.map trimmed).filter (· ≠ "")).toList.map angleWrap

def buildReferences (existing messageId : Option String) : String :=
  " ".intercalate (capReferences (referenceIds existing messageId))

def lowerKey (addr : String) : String := asciiLowercase (trimmed addr)

def containsLower (seen : List String) (addr : String) : Bool := seen.contains (lowerKey addr)

def pushLower (seen : List String) (addr : String) : List String :=
  if lowerKey addr ≠ "" ∧ !seen.contains (lowerKey addr) then seen ++ [lowerKey addr] else seen

/-- The recipients reply-all carries over. What is noted down as seen is the lowercased
address with its blanks. -/
def carryOver (seen : List String) : List String → List String
  | [] => []
  | addr :: rest =>
    if trimmed addr ≠ "" ∧ !containsLower seen addr then
      addr :: carryOver (seen ++ [asciiLowercase addr]) rest
    else carryOver seen rest

def bodyForQuote (message : MessageView) : String :=
  match message.textBody.filter (· ≠ "") with
  | some text => String.ofList (crlfToLf text.toList)
  | none =>
    if (message.htmlBody.filter (· ≠ "")).isSome then "[HTML body — quoted text unavailable]"
    else ""

def prefixEachLine (text mark : String) : String :=
  if text = "" then mark
  else "\r\n".intercalate ((text.toList.splitOn '\n').map fun line => mark ++ String.ofList line)

def attribution (formatRfc2822 : Int → RenderedDate) (message : MessageView) : String :=
  "On " ++ (formatRfc2822 message.internalDate).text ++ ", " ++ message.fromAddr ++ " wrote:"

def quoteBody (formatRfc2822 : Int → RenderedDate) (message : MessageView) : String :=
  attribution formatRfc2822 message ++ "\r\n" ++ prefixEachLine (bodyForQuote message) "> "

def replyDraft (formatRfc2822 : Int → RenderedDate) (message : MessageView)
    (accountEmail : String) (replyAll : Bool) : ReplyDraft :=
  let replyTarget := primaryReplyTarget message
  let to₀ := if replyTarget = "" then [] else [replyTarget]
  let cc₀ :=
    if replyAll then
      carryOver ((to₀ ++ [accountEmail]).foldl pushLower []) (message.toAddrs ++ message.ccAddrs)
    else []
  -- without a sender the first recipient carried over is the one replied to
  let fallback := replyAll && to₀.isEmpty
  { toAddrs := if fallback then cc₀.take 1 else to₀
    ccAddrs := if fallback then cc₀.drop 1 else cc₀
    subject := rePrefix (message.subject.getD "")
    inReplyTo := (message.messageIdHeader.map angleWrap).getD ""
    references := buildReferences message.referencesHeader message.messageIdHeader
    quotedBody := quoteBody formatRfc2822 message }

end Postblox.Mail
