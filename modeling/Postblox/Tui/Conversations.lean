import Postblox.Lib.Grouping
import Postblox.Lib.Ranking
import Postblox.Mail.Text
import Postblox.Uuid

/-!
# Conversations

The rows of a folder and the threads made of them. A row shows its date to the minute; a
thread shows the sender and the subject of the message with the latest date, and its
messages are listed oldest first. How a date is written is a parameter.
-/
namespace Postblox.Tui

open Lib

/-! ## Rows -/

/-- What `message.list_by_folder` sends of a message; the fields no row shows are left out. -/
structure MessageSummary where
  id : Uuid
  threadId : Option Uuid
  sender : String
  subject : Option String
  snippet : Option String
  flags : List String
  internalDate : Int
  deriving DecidableEq

structure MessageItem where
  id : Uuid
  threadId : Option Uuid
  subject : String
  sender : String
  date : String
  snippet : String
  flags : List String
  deriving DecidableEq

structure ThreadItem where
  key : Uuid
  threadId : Option Uuid
  subject : String
  messageCount : Nat
  latestDate : String
  latestFrom : String
  unread : Bool
  flagged : Bool
  deriving DecidableEq

def seenFlag : String := "\\Seen"

def flaggedFlag : String := "\\Flagged"

def textOrDefault (value : Option String) (fallback : String) : String :=
  ((value.map Mail.trimmed).filter (· ≠ "")).getD fallback

def hasFlag (flags : List String) (flag : String) : Bool := flags.any (· = flag)

/-- The loop of `set_flag_preserving`, with the flags kept so far. -/
def keepFlags (flag : String) (enabled : Bool) : List String → List String → List String
  | out, [] => out
  | out, existing :: rest =>
    if existing = flag then
      if enabled && !hasFlag out flag then keepFlags flag enabled (out ++ [existing]) rest
      else keepFlags flag enabled out rest
    else keepFlags flag enabled (out ++ [existing]) rest

def setFlagPreserving (flags : List String) (flag : String) (enabled : Bool) : List String :=
  let out := keepFlags flag enabled [] flags
  if enabled && !hasFlag flags flag then out ++ [flag] else out

/-- `MessageItem::from`; `format` writes a date as `%Y-%m-%d %H:%M`. -/
def MessageItem.ofSummary (format : Int → String) (message : MessageSummary) : MessageItem where
  id := message.id
  threadId := message.threadId
  subject := textOrDefault message.subject "(no subject)"
  sender := message.sender
  date := format message.internalDate
  snippet := textOrDefault message.snippet ""
  flags := message.flags

def messageThreadKey (message : MessageItem) : Uuid := message.threadId.getD message.id

/-! ## Threads -/

/-- The row of a thread with one message. -/
def ThreadItem.opening (message : MessageItem) : ThreadItem where
  key := messageThreadKey message
  threadId := message.threadId
  subject := textOrDefault (some message.subject) "(no subject)"
  messageCount := 1
  latestDate := message.date
  latestFrom := message.sender
  unread := !hasFlag message.flags seenFlag
  flagged := hasFlag message.flags flaggedFlag

/-- A further message of a thread; it is shown if its date is later. -/
def ThreadItem.absorb (thread : ThreadItem) (message : MessageItem) : ThreadItem :=
  let counted := { thread with
    messageCount := thread.messageCount + 1
    unread := thread.unread || !hasFlag message.flags seenFlag
    flagged := thread.flagged || hasFlag message.flags flaggedFlag }
  if thread.latestDate < message.date then
    { counted with
      latestDate := message.date
      subject := textOrDefault (some message.subject) "(no subject)"
      latestFrom := message.sender }
  else counted

def ThreadItem.grouping : Grouping MessageItem ThreadItem Uuid where
  keyOf := messageThreadKey
  rowKey := ThreadItem.key
  opening := ThreadItem.opening
  absorb := ThreadItem.absorb
  rowKey_opening _ := rfl
  rowKey_absorb thread message := by unfold ThreadItem.absorb; dsimp only; split <;> rfl

/-- Latest first, then by subject, then by key. -/
def ThreadItem.sortKey (thread : ThreadItem) : Stringᵒᵈ ×ₗ String ×ₗ List (Fin 16) :=
  toLex (OrderDual.toDual thread.latestDate, toLex (thread.subject, thread.key.digits))

def buildThreads (messages : List MessageItem) : List ThreadItem :=
  sortByKey ThreadItem.sortKey (ThreadItem.grouping.group messages)

/-- By the date as it is shown, then by id. -/
def MessageItem.ageKey (message : MessageItem) : String ×ₗ List (Fin 16) :=
  toLex (message.date, message.id.digits)

def sortMessagesOldestFirst (messages : List MessageItem) : List MessageItem :=
  sortByKey MessageItem.ageKey messages

/-- The messages of a thread, oldest first. -/
def threadMessages (messages : List MessageItem) (key : Uuid) : List MessageItem :=
  sortMessagesOldestFirst (messages.filter fun message => messageThreadKey message = key)

/-! ## What a row shows -/

theorem mem_threadMessages {messages : List MessageItem} {key : Uuid} {m : MessageItem} :
    m ∈ threadMessages messages key ↔ m ∈ messages ∧ messageThreadKey m = key := by
  rw [threadMessages, sortMessagesOldestFirst, (sortByKey_perm _ _).mem_iff, List.mem_filter,
    decide_eq_true_eq]

/-- A row of the list is the fold over the messages of its thread. -/
theorem mem_buildThreads {messages : List MessageItem} {thread : ThreadItem} :
    thread ∈ buildThreads messages ↔
      ThreadItem.grouping.row (messages.filter fun m => messageThreadKey m = thread.key) =
        some thread := by
  rw [buildThreads, (sortByKey_perm _ _).mem_iff]
  exact ThreadItem.grouping.mem_group

/-- The row of a thread shows the first message with the latest date. -/
structure ThreadItem.Shows (thread : ThreadItem) (members : List MessageItem)
    (shown : MessageItem) : Prop where
  first : members.find? (fun m => m.date = thread.latestDate) = some shown
  latest : ∀ m ∈ members, m.date ≤ thread.latestDate
  sender : thread.latestFrom = shown.sender
  subject : thread.subject = textOrDefault (some shown.subject) "(no subject)"

theorem ThreadItem.shows_foldl (m : MessageItem) (rest : List MessageItem) :
    ∃ shown, (rest.foldl ThreadItem.absorb (.opening m)).Shows (m :: rest) shown := by
  induction rest using List.reverseRecOn with
  | nil =>
    refine ⟨m, ?_, ?_, rfl, rfl⟩
    · rw [List.find?_cons_of_pos (by simp [ThreadItem.opening])]
    · intro x hx
      rw [List.mem_singleton.mp hx]
      exact le_refl m.date
  | append_singleton rest x ih =>
    obtain ⟨shown, hshown⟩ := ih
    rw [List.foldl_concat, ← List.cons_append]
    generalize rest.foldl ThreadItem.absorb (.opening m) = thread at hshown ⊢
    by_cases hlater : thread.latestDate < x.date
    · refine ⟨x, ?_, ?_, ?_, ?_⟩
      · have hdate : (thread.absorb x).latestDate = x.date := by simp [ThreadItem.absorb, hlater]
        have hnone : (m :: rest).find? (fun y => y.date = x.date) = none := by
          rw [List.find?_eq_none]
          intro y hy heq
          have hle := hshown.latest y hy
          rw [of_decide_eq_true heq] at hle
          exact absurd hlater (not_lt.mpr hle)
        rw [hdate, List.find?_append, hnone]
        simp
      · intro y hy
        simp only [ThreadItem.absorb, hlater, if_true]
        rcases List.mem_append.mp hy with hold | hnew
        · exact (hshown.latest y hold).trans hlater.le
        · rw [List.mem_singleton.mp hnew]
      · simp [ThreadItem.absorb, hlater]
      · simp [ThreadItem.absorb, hlater]
    · have hdate : (thread.absorb x).latestDate = thread.latestDate := by
        simp [ThreadItem.absorb, hlater]
      refine ⟨shown, ?_, ?_, ?_, ?_⟩
      · rw [hdate, List.find?_append, hshown.first, Option.some_or]
      · intro y hy
        rw [hdate]
        rcases List.mem_append.mp hy with hold | hnew
        · exact hshown.latest y hold
        · rw [List.mem_singleton.mp hnew]
          exact not_lt.mp hlater
      · simpa [ThreadItem.absorb, hlater] using hshown.sender
      · simpa [ThreadItem.absorb, hlater] using hshown.subject

theorem exists_shown {messages : List MessageItem} {thread : ThreadItem}
    (h : thread ∈ buildThreads messages) :
    ∃ shown, thread.Shows (messages.filter fun m => messageThreadKey m = thread.key) shown := by
  rw [mem_buildThreads] at h
  cases hmembers : messages.filter fun m => messageThreadKey m = thread.key with
  | nil => rw [hmembers] at h; cases h
  | cons m rest =>
    rw [hmembers] at h
    have hthread := ThreadItem.shows_foldl m rest
    rwa [show rest.foldl ThreadItem.absorb (.opening m) = thread from Option.some.inj h] at hthread

end Postblox.Tui
