import Postblox.Mail.Reply
import Postblox.Sync.Reconciler

/-!
# Replies to received mail

A raw message is parsed, becomes a row, and a reply is drafted from the row. The ids of
`References` lose their angle brackets on the way in and do not get them back on the way
out, and the row keeps no `Reply-To`: `RightHeaders` holds exactly for the messages where
neither matters.
-/
namespace Postblox.Daemon

open Db Imap Mail Sync

def messageView (message : Message) : MessageView where
  fromAddr := message.fromAddr
  replyTo := message.replyTo
  subject := message.subject
  messageIdHeader := message.messageIdHeader
  referencesHeader := message.referencesHeader
  toAddrs := message.toAddrs
  ccAddrs := message.ccAddrs
  textBody := message.textBody
  htmlBody := message.htmlBody
  internalDate := message.internalDate

/-- The address a reply to `message` goes to: the first one of `Reply-To`, else of `From`. -/
def replyAddress (message : ParserMessage) : Option Address :=
  (addressesOf message.replyTo).head?.or (addressesOf message.fromAddrs).head?

def bracketed (id : HeaderId) : String := "<" ++ id.text ++ ">"

/-- The headers of a reply to `message`, whose id is `id`. -/
structure RightHeaders (message : ParserMessage) (id : HeaderId) (draft : ReplyDraft) : Prop where
  inReplyTo : draft.inReplyTo = bracketed id
  references : draft.references =
    " ".intercalate (capReferences ((message.references.ids ++ [id]).map bracketed))
  recipient : ∀ a, replyAddress message = some a → draft.toAddrs.head? = some a.text

/-! ## What the reply builder does with the parts -/

theorem angleWrap_text (id : HeaderId) : angleWrap id.text = bracketed id := by
  have hno : ¬ (id.text.toList.head? = some '<' ∧ id.text.toList.getLast? = some '>') :=
    fun h => id.noOpening h.1
  rw [angleWrap, id.bare]
  exact if_neg hno

theorem head_capReferences {id : String} {ids : List String} :
    (capReferences (id :: ids)).head? = some id := by
  unfold capReferences
  split
  · rfl
  · rfl

theorem head_intercalate {word : String} {c : Char} (hword : word.toList.head? = some c)
    {words : List String} (hwords : words.head? = some word) :
    (" ".intercalate words).toList.head? = some c := by
  cases words with
  | nil => cases hwords
  | cons w rest =>
    cases hwords
    cases rest with
    | nil => simpa using hword
    | cons v rest =>
      rw [String.intercalate_cons_cons, String.toList_append, String.toList_append,
        List.head?_append, List.head?_append, hword]
      rfl

theorem head_bracketed (id : HeaderId) : (bracketed id).toList.head? = some '<' := by
  rw [bracketed, String.toList_append, String.toList_append]
  rfl

/-- A chain that has earlier ids begins with one of them, without a bracket. -/
theorem head_buildReferences (first : HeaderId) (others : List HeaderId)
    (messageId : Option String) :
    ∃ c, c ≠ '<' ∧
      (buildReferences (some (" ".intercalate ((first :: others).map (·.text))))
        messageId).toList.head? = some c := by
  obtain ⟨c, hhead, hblank, hc⟩ := first.exists_head
  have hchain : (" ".intercalate ((first :: others).map (·.text))).toList.head? = some c :=
    head_intercalate hhead rfl
  obtain ⟨word, words, hsplit, hword⟩ := splitWhitespace_of_head hchain hblank
  have hids : referenceIds (some (" ".intercalate ((first :: others).map (·.text)))) messageId =
      word :: (words ++ ((messageId.map trimmed).filter (· ≠ "")).toList.map angleWrap) := by
    rw [referenceIds, Option.map_some, Option.getD_some, hsplit, List.cons_append]
  refine ⟨c, hc, ?_⟩
  rw [buildReferences, hids]
  exact head_intercalate hword head_capReferences

theorem buildReferences_first (id : HeaderId) :
    buildReferences none (some id.text) = bracketed id := by
  have hid : ((some id.text).map trimmed).filter (· ≠ "") = some id.text := by
    rw [Option.map_some, id.bare]
    simp [id.nonempty]
  rw [buildReferences, referenceIds, hid]
  simp [capReferences, referencesMessageIdCap, angleWrap_text]

/-! ## From the raw bytes to the row -/

/-- The parts of a stored row that a reply's headers are made of. -/
theorem row_of_parsed {message : ParserMessage} {row : Message} {account : AccountId}
    {folder : FolderId} {thread : ThreadId} {fetched : FetchedMessage} {date : Int}
    (hrow : row.toNewMessage =
      buildMessageRow account folder thread fetched (parsedEmail message) date) :
    row.messageIdHeader = message.messageId.map (·.text) ∧
      row.referencesHeader =
        (if message.references.ids = [] then none
         else some (" ".intercalate (message.references.ids.map (·.text)))) ∧
      row.replyTo = none ∧
      row.fromAddr = ((addressesOf message.fromAddrs).head?.map (·.text)).getD "" := by
  rw [hrow]
  refine ⟨parsedEmail_messageId message, ?_, rfl, parsedEmail_fromAddr message⟩
  show (if (parsedEmail message).references = [] then none else _) = _
  rw [parsedEmail_references]
  simp only [List.map_eq_nil_iff]

/-- The recipients of a plain reply. -/
theorem toAddrs_of_row {row : Message} (formatRfc2822 : Int → RenderedDate)
    (hreplyTo : row.replyTo = none) {sender : Option Address}
    (hsender : row.fromAddr = (sender.map (·.text)).getD "") (email : String) :
    (replyDraft formatRfc2822 (messageView row) email false).toAddrs =
      (sender.map (·.text)).toList := by
  have htarget : primaryReplyTarget (messageView row) = trimmed row.fromAddr := by
    rw [primaryReplyTarget]
    show ((row.replyTo.map trimmed).filter _).getD _ = _
    rw [hreplyTo]
    rfl
  simp only [replyDraft, htarget, Bool.false_and, Bool.false_eq_true, if_false]
  cases sender with
  | none =>
    rw [hsender]
    rfl
  | some a =>
    have htrim : trimmed row.fromAddr = a.text := by
      rw [hsender]
      exact a.bare
    rw [htrim, if_neg a.nonempty]
    rfl

/-- With a sender the first recipient does not depend on who is carried over. -/
theorem head_toAddrs_of_sender {row : Message} (formatRfc2822 : Int → RenderedDate)
    (hreplyTo : row.replyTo = none) {a : Address} (hsender : row.fromAddr = a.text)
    (email : String) (replyAll : Bool) :
    (replyDraft formatRfc2822 (messageView row) email replyAll).toAddrs.head? = some a.text := by
  have htarget : primaryReplyTarget (messageView row) = a.text := by
    rw [primaryReplyTarget]
    show ((row.replyTo.map trimmed).filter _).getD (trimmed row.fromAddr) = _
    rw [hreplyTo, hsender, a.bare]
    rfl
  simp only [replyDraft, htarget, if_neg a.nonempty, List.isEmpty_cons, Bool.and_false,
    Bool.false_eq_true, if_false, List.head?_cons]

/-- The headers of every reply are right exactly when the message has no earlier ids and
no `Reply-To` other than its sender. -/
theorem reply_headers_right_iff (parser : MailParser) (formatRfc2822 : Int → RenderedDate)
    {message : ParserMessage} {id : HeaderId} {parsed : ParsedEmail} {row : Message}
    {account : AccountId} {folder : FolderId} {thread : ThreadId} {fetched : FetchedMessage}
    {date : Int} (hmessage : parser fetched.raw = some message)
    (hid : message.messageId = some id)
    (hparsed : parseWithOptions parser fetched.raw = some parsed)
    (hrow : row.toNewMessage = buildMessageRow account folder thread fetched parsed date) :
    (∀ email replyAll,
      RightHeaders message id (replyDraft formatRfc2822 (messageView row) email replyAll)) ↔
      message.references.ids = [] ∧
        ∀ r, (addressesOf message.replyTo).head? = some r →
          (addressesOf message.fromAddrs).head?.map (·.text) = some r.text := by
  have hemail : parsed = parsedEmail message := by
    rw [parseWithOptions, hmessage] at hparsed
    exact (Option.some.inj hparsed).symm
  rw [hemail] at hrow
  obtain ⟨hrowId, hrowRefs, hrowReplyTo, hrowFrom⟩ := row_of_parsed hrow
  have hmid : (messageView row).messageIdHeader = some id.text := by
    show row.messageIdHeader = _
    rw [hrowId, hid]
    rfl
  have hrefs : ∀ email replyAll,
      (replyDraft formatRfc2822 (messageView row) email replyAll).references =
        buildReferences row.referencesHeader (some id.text) := by
    intro email replyAll
    rw [← hmid]
    rfl
  constructor
  · intro h
    have hplain := h "" false
    constructor
    · by_contra hne
      obtain ⟨first, others, hids⟩ := List.exists_cons_of_ne_nil hne
      have hwant := hplain.references
      rw [hrefs, hrowRefs, if_neg hne, hids] at hwant
      obtain ⟨c, hc, hhead⟩ := head_buildReferences first others (some id.text)
      rw [hwant, List.cons_append, List.map_cons,
        head_intercalate (head_bracketed first) head_capReferences] at hhead
      cases hhead
      exact hc rfl
    · intro r hr
      have hfirst := hplain.recipient r (by rw [replyAddress, hr, Option.some_or])
      rw [toAddrs_of_row formatRfc2822 hrowReplyTo hrowFrom, Option.head?_toList] at hfirst
      exact hfirst
  · rintro ⟨hnone, hreply⟩ email replyAll
    refine ⟨?_, ?_, ?_⟩
    · show ((messageView row).messageIdHeader.map angleWrap).getD "" = _
      rw [hmid]
      exact angleWrap_text id
    · rw [hrefs, hrowRefs, if_pos hnone, hnone, buildReferences_first]
      simp [capReferences, referencesMessageIdCap]
    · intro a ha
      have hsender : (addressesOf message.fromAddrs).head?.map (·.text) = some a.text := by
        cases hr : (addressesOf message.replyTo).head? with
        | none =>
          rw [replyAddress, hr, Option.none_or] at ha
          rw [ha]
          rfl
        | some r =>
          rw [replyAddress, hr, Option.some_or] at ha
          cases ha
          exact hreply a hr
      rw [hsender] at hrowFrom
      exact head_toAddrs_of_sender formatRfc2822 hrowReplyTo hrowFrom email replyAll

/-! ## Mail to a list -/

def listId (text : String) (h : text = "1@x" ∨ text = "2@x") : HeaderId where
  text := text
  nonempty := by rcases h with rfl | rfl <;> decide
  bare := by rcases h with rfl | rfl <;> decide
  noOpening := by rcases h with rfl | rfl <;> decide
  noClosing := by rcases h with rfl | rfl <;> decide

def member : Address where
  text := "ada@x"
  nonempty := by decide
  bare := by decide

def mailingList : Address where
  text := "list@x"
  nonempty := by decide
  bare := by decide

def postRaw (references : String) : List UInt8 :=
  utf8 ("Message-ID: <2@x>\r\n" ++ references ++ "From: ada@x\r\n\r\nhi")

/-- The first mail of a thread. -/
def openingPost : ParserMessage where
  messageId := some (listId "2@x" (.inr rfl))
  inReplyTo := .other
  references := .other
  fromAddrs := some [⟨some member⟩]
  replyTo := none
  toAddrs := none
  ccAddrs := none
  subject := none
  bodyText := some "hi"
  bodyHtml := none
  parts := []

/-- An answer that goes through the list. -/
def answerPost : ParserMessage :=
  { openingPost with
    references := .text (listId "1@x" (.inl rfl))
    replyTo := some [⟨some mailingList⟩] }

def answerHeaders : String := "References: <1@x>\r\nReply-To: list@x\r\n"

/-- What the crate finds in the two mails. -/
def listParser : MailParser := fun raw =>
  if raw = postRaw "" then some openingPost
  else if raw = postRaw answerHeaders then some answerPost
  else none

def postFetched (references : String) : FetchedMessage where
  uid := 1
  flags := []
  internalDate := none
  raw := postRaw references

def postRow (message : ParserMessage) (references : String) : Message where
  toNewMessage := buildMessageRow 0 0 0 (postFetched references) (parsedEmail message) 0
  id := 0

def epoch : RenderedDate := ⟨"Thu, 01 Jan 1970 00:00:00 +0000", by decide⟩

theorem listParser_opening : listParser (postRaw "") = some openingPost := if_pos rfl

theorem listParser_answer : listParser (postRaw answerHeaders) = some answerPost := by
  have hne : postRaw answerHeaders ≠ postRaw "" := by decide
  rw [listParser, if_neg hne, if_pos rfl]

/-- The reply to the answer goes to the member, and the id of the first mail has no
brackets. -/
theorem list_answer_reply_headers_wrong :
    parseWithOptions listParser (postRaw answerHeaders) = some (parsedEmail answerPost) ∧
      (replyDraft (fun _ => epoch) (messageView (postRow answerPost answerHeaders)) "me@x"
        false).references = "1@x <2@x>" ∧
      (replyDraft (fun _ => epoch) (messageView (postRow answerPost answerHeaders)) "me@x"
        false).toAddrs = ["ada@x"] ∧
      ¬ RightHeaders answerPost (listId "2@x" (.inr rfl))
        (replyDraft (fun _ => epoch) (messageView (postRow answerPost answerHeaders)) "me@x"
          false) := by
  refine ⟨congrArg (Option.map parsedEmail) listParser_answer, ?_, ?_, ?_⟩
  · decide
  · decide
  · intro h
    have hrecipient := h.recipient mailingList rfl
    revert hrecipient
    decide

/-- The reply to the first mail of a thread has the right headers. -/
theorem opening_reply_headers_right :
    RightHeaders openingPost (listId "2@x" (.inr rfl))
      (replyDraft (fun _ => epoch) (messageView (postRow openingPost "")) "me@x" false) := by
  have hparsed := congrArg (Option.map parsedEmail) listParser_opening
  have hlist : ∀ r, (addressesOf openingPost.replyTo).head? = some r →
      (addressesOf openingPost.fromAddrs).head?.map (·.text) = some r.text := by
    intro r hr
    cases hr
  have hraw : listParser (postFetched "").raw = some openingPost := listParser_opening
  exact (reply_headers_right_iff listParser (fun _ => epoch) hraw rfl hparsed rfl).mpr
    ⟨rfl, hlist⟩ "me@x" false

end Postblox.Daemon
