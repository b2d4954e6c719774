import Mathlib

/-!
# Parsed mail and thread assignment

`assignThread` decides whether a parsed message joins a known thread or starts a
new one: by `In-Reply-To`, by `References` from the tail, then by the normalized
subject of a thread with a message in the last seven days. Instants are
nanoseconds. Unicode case mapping comes in as `CaseMap`.
-/
namespace Postblox.Mail

inductive Disposition where
  | inlined
  | attachment
  deriving DecidableEq

structure ParsedAttachment where
  filename : String
  contentType : String
  data : List UInt8
  disposition : Disposition
  contentId : Option String
  deriving DecidableEq

/-- A parsed message; `raw_headers` is left out, since the sync asks the parser
not to build it. -/
structure ParsedEmail where
  messageId : Option String
  inReplyTo : Option String
  references : List String
  fromAddr : String
  toAddrs : List String
  ccAddrs : List String
  subject : Option String
  textBody : Option String
  htmlBody : Option String
  attachments : List ParsedAttachment
  deriving DecidableEq

/-- `char::is_uppercase` and `str::to_lowercase`. -/
structure CaseMap where
  isUppercase : Char → Bool
  toLowercase : String → String

/-- Case mapping of ASCII letters. -/
def CaseMap.ascii : CaseMap where
  isUppercase := Char.isUpper
  toLowercase := String.toLower

/-- The Unicode `White_Space` property, as `char::is_whitespace` reads it. -/
def isWhitespace (c : Char) : Bool :=
  let n := c.toNat
  (9 ≤ n && n ≤ 13) || n == 32 || n == 0x85 || n == 0xA0 || n == 0x1680 ||
    (0x2000 ≤ n && n ≤ 0x200A) || n == 0x2028 || n == 0x2029 || n == 0x202F || n == 0x205F ||
    n == 0x3000

def trimStart (s : List Char) : List Char := s.dropWhile isWhitespace

def trim (s : List Char) : List Char := (trimStart (trimStart s).reverse).reverse

/-- The rest of `s` after `lower`, read without regard to ASCII case. -/
def stripIgnoreAsciiCase (lower s : List Char) : Option (List Char) :=
  if (s.take lower.length).map Char.toLower = lower then some (s.drop lower.length) else none

def stripReplyMarker (s : List Char) : Option (List Char) :=
  (stripIgnoreAsciiCase ['r', 'e', ':'] s).orElse fun _ =>
    (stripIgnoreAsciiCase ['f', 'w', 'd', ':'] s).orElse fun _ =>
      stripIgnoreAsciiCase ['f', 'w', ':'] s

/-- The loop of `normalize_subject`. Each round drops three characters or more,
so as many rounds as there are characters are enough. -/
def stripReplyMarkers : Nat → List Char → List Char
  | 0, s => s
  | fuel + 1, s =>
    match stripReplyMarker s with
    | none => s
    | some rest => stripReplyMarkers fuel (trimStart rest)

def normalizeSubject (cm : CaseMap) (subject : String) : String :=
  let s := stripReplyMarkers subject.length (trim subject.toList)
  -- nothing trimmed or stripped and no uppercase: the input itself
  if s = subject.toList && !s.any cm.isUppercase then subject
  else cm.toLowercase (String.ofList s)

/-- View of an existing thread used by `assignThread`. -/
structure ThreadRef where
  threadId : Nat
  messageIds : List String
  subject : String
  lastMessageAt : Int
  deriving DecidableEq

inductive ThreadMatch where
  | existing (threadId : Nat)
  | new
  deriving DecidableEq

/-- `Duration::days`. -/
def days (n : Int) : Int := n * 86400000000000

/-- The first thread that knows the message id `id`. -/
def threadOfMessageId (threads : List ThreadRef) (id : String) : Option Nat :=
  (threads.find? (fun t => t.messageIds.contains id)).map (·.threadId)

/-- `Iterator::max_by_key`: among equal keys the last element wins. -/
def maxByKey {α : Type} (key : α → Int) : List α → Option α
  | [] => none
  | a :: rest =>
    match maxByKey key rest with
    | none => some a
    | some b => if key a ≤ key b then some b else some a

def threadOfSubject (cm : CaseMap) (now : Int) (threads : List ThreadRef) (subject : String) :
    Option Nat :=
  let normalized := normalizeSubject cm subject
  if normalized = "" then none
  else
    (maxByKey (·.lastMessageAt) (threads.filter fun t =>
      now - days 7 < t.lastMessageAt && normalizeSubject cm t.subject == normalized)).map
        (·.threadId)

def assignThread (cm : CaseMap) (now : Int) (message : ParsedEmail) (threads : List ThreadRef) :
    ThreadMatch :=
  match message.inReplyTo.bind (threadOfMessageId threads) with
  | some id => .existing id
  | none =>
    match message.references.reverse.findSome? (threadOfMessageId threads) with
    | some id => .existing id
    | none =>
      match message.subject.bind (threadOfSubject cm now threads) with
      | some id => .existing id
      | none => .new

theorem maxByKey_mem {α : Type} {key : α → Int} {l : List α} {a : α}
    (h : maxByKey key l = some a) : a ∈ l := by
  induction l with
  | nil => cases h
  | cons b rest ih =>
    rw [maxByKey] at h
    split at h
    · cases h
      exact List.mem_cons_self
    · next c hc =>
      split_ifs at h with hle
      · cases h
        exact List.mem_cons_of_mem b (ih hc)
      · cases h
        exact List.mem_cons_self

theorem maxByKey_eq_none {α : Type} {key : α → Int} {l : List α} :
    maxByKey key l = none ↔ l = [] := by
  cases l with
  | nil => exact ⟨fun _ => rfl, fun _ => rfl⟩
  | cons a rest =>
    rw [maxByKey]
    split
    · simp
    · split_ifs <;> simp

private theorem threadOfMessageId_mem {threads : List ThreadRef} {id : String} {n : Nat}
    (h : threadOfMessageId threads id = some n) : ∃ t ∈ threads, t.threadId = n := by
  obtain ⟨t, ht, hn⟩ := Option.map_eq_some_iff.mp h
  exact ⟨t, List.mem_of_find?_eq_some ht, hn⟩

private theorem threadOfSubject_mem {cm : CaseMap} {now : Int} {threads : List ThreadRef}
    {subject : String} {n : Nat} (h : threadOfSubject cm now threads subject = some n) :
    ∃ t ∈ threads, t.threadId = n := by
  unfold threadOfSubject at h
  dsimp only at h
  split_ifs at h with hempty
  obtain ⟨t, ht, hn⟩ := Option.map_eq_some_iff.mp h
  exact ⟨t, (List.mem_filter.mp (maxByKey_mem ht)).1, hn⟩

/-- A thread that `assignThread` names is one it was given. -/
theorem assignThread_existing {cm : CaseMap} {now : Int} {message : ParsedEmail}
    {threads : List ThreadRef} {n : Nat} (h : assignThread cm now message threads = .existing n) :
    ∃ t ∈ threads, t.threadId = n := by
  unfold assignThread at h
  split at h
  · next id hid =>
    cases h
    obtain ⟨reply, _, hreply⟩ := Option.bind_eq_some_iff.mp hid
    exact threadOfMessageId_mem hreply
  · split at h
    · next id hid =>
      cases h
      obtain ⟨ref, _, href⟩ := List.exists_of_findSome?_eq_some hid
      exact threadOfMessageId_mem href
    · split at h
      · next id hid =>
        cases h
        obtain ⟨subject, _, hsubject⟩ := Option.bind_eq_some_iff.mp hid
        exact threadOfSubject_mem hsubject
      · cases h

/-- What the choice between an existing and a new thread depends on. -/
def ThreadRef.view (t : ThreadRef) : List String × String × Int :=
  (t.messageIds, t.subject, t.lastMessageAt)

private theorem threadOfMessageId_eq_none {threads : List ThreadRef} {id : String} :
    threadOfMessageId threads id = none ↔ ∀ v ∈ threads.map ThreadRef.view, id ∉ v.1 := by
  unfold threadOfMessageId
  rw [Option.map_eq_none_iff, List.find?_eq_none]
  simp [ThreadRef.view]

private theorem threadOfSubject_eq_none {cm : CaseMap} {now : Int} {threads : List ThreadRef}
    {subject : String} :
    threadOfSubject cm now threads subject = none ↔
      normalizeSubject cm subject = "" ∨ ∀ v ∈ threads.map ThreadRef.view,
        ¬ (now - days 7 < v.2.2 ∧ normalizeSubject cm v.2.1 = normalizeSubject cm subject) := by
  unfold threadOfSubject
  dsimp only
  split_ifs with hempty
  · exact ⟨fun _ => .inl hempty, fun _ => rfl⟩
  · rw [Option.map_eq_none_iff, maxByKey_eq_none, List.filter_eq_nil_iff]
    simp [ThreadRef.view, hempty]

/-- Starting a new thread does not depend on the ids of the known ones. -/
theorem assignThread_new_congr {cm : CaseMap} {now : Int} {message : ParsedEmail}
    {threads threads' : List ThreadRef}
    (h : threads.map ThreadRef.view = threads'.map ThreadRef.view)
    (hnew : assignThread cm now message threads = .new) :
    assignThread cm now message threads' = .new := by
  have hid : ∀ id, threadOfMessageId threads id = none → threadOfMessageId threads' id = none := by
    intro id
    rw [threadOfMessageId_eq_none, threadOfMessageId_eq_none, h]
    exact fun hnone => hnone
  have hsubject : ∀ subject, threadOfSubject cm now threads subject = none →
      threadOfSubject cm now threads' subject = none := by
    intro subject
    rw [threadOfSubject_eq_none, threadOfSubject_eq_none, h]
    exact fun hnone => hnone
  unfold assignThread at hnew ⊢
  split at hnew
  · cases hnew
  · next hreply =>
    split at hnew
    · cases hnew
    · next hrefs =>
      split at hnew
      · cases hnew
      · next hsubj =>
        have hreply' : message.inReplyTo.bind (threadOfMessageId threads') = none := by
          rw [Option.bind_eq_none_iff] at hreply ⊢
          exact fun id hmem => hid id (hreply id hmem)
        have hrefs' : message.references.reverse.findSome? (threadOfMessageId threads') = none := by
          rw [List.findSome?_eq_none_iff] at hrefs ⊢
          exact fun id hmem => hid id (hrefs id hmem)
        have hsubj' : message.subject.bind (threadOfSubject cm now threads') = none := by
          rw [Option.bind_eq_none_iff] at hsubj ⊢
          exact fun subject hmem => hsubject subject (hsubj subject hmem)
        rw [hreply', hrefs', hsubj']

end Postblox.Mail
