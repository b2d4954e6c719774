import Postblox.Mail.Threading

/-!
# The thread a message joins

`assign_thread` scans a list, and the first thread, the last reference and the latest date
decide. When no message id is in two threads and no two threads have the same last date, the
answer depends on the set of the threads alone.
-/
namespace Postblox.Mail

/-! ## The rule, without an order -/

section Rule

variable (cm : CaseMap) (now : Int) (message : ParsedEmail) (threads : Set ThreadRef)

/-- The thread holds the message that is replied to. -/
def RepliesInto (t : ThreadRef) : Prop := ∃ id ∈ message.inReplyTo, id ∈ t.messageIds

/-- The thread holds the last reference that any thread holds. -/
def RefersInto (t : ThreadRef) : Prop :=
  ∃ earlier ref later, message.references = earlier ++ ref :: later ∧ ref ∈ t.messageIds ∧
    ∀ id ∈ later, ∀ other ∈ threads, id ∉ other.messageIds

/-- The thread was active within seven days and has the subject of the message. -/
def SharesSubject (t : ThreadRef) : Prop :=
  ∃ subject ∈ message.subject, normalizeSubject cm subject ≠ "" ∧
    now - days 7 < t.lastMessageAt ∧ normalizeSubject cm t.subject = normalizeSubject cm subject

inductive Joins : ThreadMatch → Prop
  | reply {t : ThreadRef} (hmem : t ∈ threads) (hreply : RepliesInto message t) :
    Joins (.existing t.threadId)
  | reference {t : ThreadRef} (hreply : ∀ other ∈ threads, ¬ RepliesInto message other)
    (hmem : t ∈ threads) (href : RefersInto message threads t) : Joins (.existing t.threadId)
  | subject {t : ThreadRef} (hreply : ∀ other ∈ threads, ¬ RepliesInto message other)
    (href : ∀ other ∈ threads, ¬ RefersInto message threads other) (hmem : t ∈ threads)
    (hsubject : SharesSubject cm now message t)
    (hlatest : ∀ other ∈ threads, SharesSubject cm now message other →
      other.lastMessageAt ≤ t.lastMessageAt) : Joins (.existing t.threadId)
  | new (hreply : ∀ other ∈ threads, ¬ RepliesInto message other)
    (href : ∀ other ∈ threads, ¬ RefersInto message threads other)
    (hsubject : ∀ other ∈ threads, ¬ SharesSubject cm now message other) : Joins .new

end Rule

/-! ## The scans -/

section Scans

variable {cm : CaseMap} {now : Int} {message : ParsedEmail} {threads : List ThreadRef}

theorem threadOfMessageId_some {id : String} {n : Nat}
    (h : threadOfMessageId threads id = some n) :
    ∃ t ∈ threads, id ∈ t.messageIds ∧ t.threadId = n := by
  obtain ⟨t, ht, hn⟩ := Option.map_eq_some_iff.mp h
  have hholds := List.find?_some ht
  exact ⟨t, List.mem_of_find?_eq_some ht, by simpa using hholds, hn⟩

theorem threadOfMessageId_none {id : String} :
    threadOfMessageId threads id = none ↔ ∀ t ∈ threads, id ∉ t.messageIds := by
  unfold threadOfMessageId
  rw [Option.map_eq_none_iff, List.find?_eq_none]
  simp

theorem reply_scan_some {n : Nat}
    (h : message.inReplyTo.bind (threadOfMessageId threads) = some n) :
    ∃ t ∈ threads, RepliesInto message t ∧ t.threadId = n := by
  obtain ⟨id, hid, hfound⟩ := Option.bind_eq_some_iff.mp h
  obtain ⟨t, ht, hholds, hn⟩ := threadOfMessageId_some hfound
  exact ⟨t, ht, ⟨id, hid, hholds⟩, hn⟩

theorem reply_scan_none (h : message.inReplyTo.bind (threadOfMessageId threads) = none) :
    ∀ t ∈ threads, ¬ RepliesInto message t := by
  rintro t ht ⟨id, hid, hholds⟩
  exact threadOfMessageId_none.mp (Option.bind_eq_none_iff.mp h id hid) t ht hholds

theorem reference_scan_some {n : Nat}
    (h : message.references.reverse.findSome? (threadOfMessageId threads) = some n) :
    ∃ t ∈ threads, RefersInto message {t | t ∈ threads} t ∧ t.threadId = n := by
  obtain ⟨later, ref, earlier, hsplit, hfound, hnone⟩ := List.findSome?_eq_some_iff.mp h
  obtain ⟨t, ht, hholds, hn⟩ := threadOfMessageId_some hfound
  refine ⟨t, ht, ⟨earlier.reverse, ref, later.reverse, ?_, hholds, ?_⟩, hn⟩
  · rw [← List.reverse_reverse message.references, hsplit]
    simp
  · intro id hid
    exact threadOfMessageId_none.mp (hnone id (List.mem_reverse.mp hid))

theorem reference_scan_none
    (h : message.references.reverse.findSome? (threadOfMessageId threads) = none) :
    ∀ t ∈ threads, ¬ RefersInto message {t | t ∈ threads} t := by
  rintro t ht ⟨earlier, ref, later, hsplit, hholds, -⟩
  have hmem : ref ∈ message.references.reverse := by
    rw [List.mem_reverse, hsplit]
    exact List.mem_append_right _ List.mem_cons_self
  exact threadOfMessageId_none.mp (List.findSome?_eq_none_iff.mp h ref hmem) t ht hholds

theorem maxByKey_max {α : Type} {key : α → Int} {l : List α} {a : α}
    (h : maxByKey key l = some a) : ∀ b ∈ l, key b ≤ key a := by
  induction l generalizing a with
  | nil => cases h
  | cons first rest ih =>
    intro b hb
    rw [maxByKey] at h
    cases hrest : maxByKey key rest with
    | none =>
      rw [hrest] at h
      rw [maxByKey_eq_none.mp hrest] at hb
      rw [List.mem_singleton.mp hb, Option.some.inj h]
    | some best =>
      rw [hrest] at h
      dsimp only at h
      split_ifs at h with hle
      · cases h
        rcases List.mem_cons.mp hb with rfl | hb
        · exact hle
        · exact ih hrest b hb
      · cases h
        rcases List.mem_cons.mp hb with rfl | hb
        · exact le_refl _
        · have hbest := ih hrest b hb
          omega

theorem subject_scan_some {n : Nat}
    (h : message.subject.bind (threadOfSubject cm now threads) = some n) :
    ∃ t ∈ threads, SharesSubject cm now message t ∧
      (∀ other ∈ threads, SharesSubject cm now message other →
        other.lastMessageAt ≤ t.lastMessageAt) ∧ t.threadId = n := by
  obtain ⟨subject, hsubject, hfound⟩ := Option.bind_eq_some_iff.mp h
  unfold threadOfSubject at hfound
  dsimp only at hfound
  split_ifs at hfound with hempty
  obtain ⟨t, hbest, hn⟩ := Option.map_eq_some_iff.mp hfound
  obtain ⟨ht, hfresh⟩ := List.mem_filter.mp (maxByKey_mem hbest)
  simp only [Bool.and_eq_true, decide_eq_true_eq, beq_iff_eq] at hfresh
  refine ⟨t, ht, ⟨subject, hsubject, hempty, hfresh⟩, ?_, hn⟩
  rintro other hother ⟨subject', hsubject', -, hactive, hsame⟩
  apply maxByKey_max hbest
  rw [hsubject] at hsubject'
  cases hsubject'
  rw [List.mem_filter]
  exact ⟨hother, by simp [hactive, hsame]⟩

theorem subject_scan_none (h : message.subject.bind (threadOfSubject cm now threads) = none) :
    ∀ t ∈ threads, ¬ SharesSubject cm now message t := by
  rintro t ht ⟨subject, hsubject, hne, hactive, hsame⟩
  have hnone := Option.bind_eq_none_iff.mp h subject hsubject
  unfold threadOfSubject at hnone
  dsimp only at hnone
  rw [if_neg hne, Option.map_eq_none_iff, maxByKey_eq_none, List.filter_eq_nil_iff] at hnone
  exact hnone t ht (by simp [hactive, hsame])

/-- The answer is one that the rule allows, whatever the threads. -/
theorem joins_assignThread :
    Joins cm now message {t | t ∈ threads} (assignThread cm now message threads) := by
  unfold assignThread
  cases hreply : message.inReplyTo.bind (threadOfMessageId threads) with
  | some n =>
    obtain ⟨t, ht, hreplies, rfl⟩ := reply_scan_some hreply
    exact .reply ht hreplies
  | none =>
    have hnoreply := reply_scan_none hreply
    cases href : message.references.reverse.findSome? (threadOfMessageId threads) with
    | some n =>
      obtain ⟨t, ht, hrefers, rfl⟩ := reference_scan_some href
      exact .reference hnoreply ht hrefers
    | none =>
      have hnoref := reference_scan_none href
      cases hsubject : message.subject.bind (threadOfSubject cm now threads) with
      | some n =>
        obtain ⟨t, ht, hshares, hlatest, rfl⟩ := subject_scan_some hsubject
        exact .subject hnoreply hnoref ht hshares hlatest
      | none => exact .new hnoreply hnoref (subject_scan_none hsubject)

end Scans

/-! ## One answer -/

section Unique

variable {cm : CaseMap} {now : Int} {message : ParsedEmail} {threads : Set ThreadRef}
  {t t' : ThreadRef}

/-- A message id is in one thread at most. -/
def HeldOnce (threads : Set ThreadRef) : Prop :=
  ∀ t ∈ threads, ∀ t' ∈ threads, ∀ id ∈ t.messageIds, id ∈ t'.messageIds → t = t'

/-- The last dates tell the threads apart. -/
def DatedApart (threads : Set ThreadRef) : Prop :=
  ∀ t ∈ threads, ∀ t' ∈ threads, t.lastMessageAt = t'.lastMessageAt → t = t'

theorem HeldOnce.reply (h : HeldOnce threads) (ht : t ∈ threads) (ht' : t' ∈ threads)
    (hreply : RepliesInto message t) (hreply' : RepliesInto message t') : t = t' := by
  obtain ⟨id, hid, hholds⟩ := hreply
  obtain ⟨id', hid', hholds'⟩ := hreply'
  cases Option.mem_unique hid hid'
  exact h t ht t' ht' id hholds hholds'

theorem HeldOnce.reference (h : HeldOnce threads) (ht : t ∈ threads) (ht' : t' ∈ threads)
    (href : RefersInto message threads t) (href' : RefersInto message threads t') : t = t' := by
  obtain ⟨earlier, ref, later, hsplit, hholds, hlast⟩ := href
  obtain ⟨earlier', ref', later', hsplit', hholds', hlast'⟩ := href'
  have hsame := hsplit.symm.trans hsplit'
  -- the later of two references is held by no thread when the earlier one is the last held
  rcases List.append_eq_append_iff.mp hsame with ⟨between, hfront, hback⟩ | ⟨between, hfront, hback⟩
  · cases between with
    | nil =>
      obtain ⟨rfl, -⟩ := List.cons.inj hback
      exact h t ht t' ht' _ hholds hholds'
    | cons first rest =>
      have hmem : ref' ∈ later := by
        rw [(List.cons.inj hback).2]
        exact List.mem_append_right _ List.mem_cons_self
      exact absurd hholds' (hlast ref' hmem t' ht')
  · cases between with
    | nil =>
      obtain ⟨rfl, -⟩ := List.cons.inj hback
      exact h t ht t' ht' _ hholds hholds'
    | cons first rest =>
      have hmem : ref ∈ later' := by
        rw [(List.cons.inj hback).2]
        exact List.mem_append_right _ List.mem_cons_self
      exact absurd hholds (hlast' ref hmem t ht)

theorem Joins.unique (hids : HeldOnce threads) (hdates : DatedApart threads) {a b : ThreadMatch}
    (ha : Joins cm now message threads a) (hb : Joins cm now message threads b) : a = b := by
  cases ha with
  | reply hmem hreply =>
    cases hb with
    | reply hmem' hreply' => rw [hids.reply hmem hmem' hreply hreply']
    | reference hnone => exact absurd hreply (hnone _ hmem)
    | subject hnone => exact absurd hreply (hnone _ hmem)
    | new hnone => exact absurd hreply (hnone _ hmem)
  | reference hnone hmem href =>
    cases hb with
    | reply hmem' hreply' => exact absurd hreply' (hnone _ hmem')
    | reference _ hmem' href' => rw [hids.reference hmem hmem' href href']
    | subject _ hnoref => exact absurd href (hnoref _ hmem)
    | new _ hnoref => exact absurd href (hnoref _ hmem)
  | subject hnone hnoref hmem hsubject hlatest =>
    cases hb with
    | reply hmem' hreply' => exact absurd hreply' (hnone _ hmem')
    | reference _ hmem' href' => exact absurd href' (hnoref _ hmem')
    | subject _ _ hmem' hsubject' hlatest' =>
      have hle := hlatest' _ hmem hsubject
      have hge := hlatest _ hmem' hsubject'
      rw [hdates _ hmem _ hmem' (le_antisymm hle hge)]
    | new _ _ hnosubject => exact absurd hsubject (hnosubject _ hmem)
  | new hnone hnoref hnosubject =>
    cases hb with
    | reply hmem' hreply' => exact absurd hreply' (hnone _ hmem')
    | reference _ hmem' href' => exact absurd href' (hnoref _ hmem')
    | subject _ _ hmem' hsubject' => exact absurd hsubject' (hnosubject _ hmem')
    | new => rfl

end Unique

/-- Among threads that share no message id and no last date the answer is the one of the rule,
in whatever order they are listed. -/
theorem assignment_ignores_order (cm : CaseMap) (now : Int) (message : ParsedEmail)
    {threads : List ThreadRef}
    (hids : threads.Pairwise fun a b => ∀ id ∈ a.messageIds, id ∉ b.messageIds)
    (hdates : threads.Pairwise fun a b => a.lastMessageAt ≠ b.lastMessageAt) :
    (∀ answer, assignThread cm now message threads = answer ↔
        Joins cm now message {t | t ∈ threads} answer) ∧
      ∀ threads', threads'.Perm threads →
        assignThread cm now message threads' = assignThread cm now message threads := by
  have hheld : HeldOnce {t | t ∈ threads} := by
    have : Std.Symm fun a b : ThreadRef => ∀ id ∈ a.messageIds, id ∉ b.messageIds :=
      ⟨fun _ _ h id hb ha => h id ha hb⟩
    intro t ht t' ht' id hid hid'
    by_contra hne
    exact hids.forall ht ht' hne id hid hid'
  have hdated : DatedApart {t | t ∈ threads} := by
    have : Std.Symm fun a b : ThreadRef => a.lastMessageAt ≠ b.lastMessageAt :=
      ⟨fun _ _ h => h.symm⟩
    intro t ht t' ht' hsame
    by_contra hne
    exact hdates.forall ht ht' hne hsame
  constructor
  · intro answer
    constructor
    · rintro rfl
      exact joins_assignThread
    · intro hjoins
      exact joins_assignThread.unique hheld hdated hjoins
  · intro threads' hperm
    have hset : {t | t ∈ threads'} = {t | t ∈ threads} := Set.ext fun t => hperm.mem_iff
    have hjoins : Joins cm now message {t | t ∈ threads'}
      (assignThread cm now message threads') := joins_assignThread
    rw [hset] at hjoins
    exact hjoins.unique hheld hdated joins_assignThread

/-! ## Two threads -/

def lunchThreads : List ThreadRef :=
  [⟨1, ["<lunch@example.org>"], "Lunch", 5⟩, ⟨2, ["<dinner@example.org>"], "Lunch", 9⟩]

/-- A message that names both threads. -/
def lateReply : ParsedEmail where
  messageId := none
  inReplyTo := some "<lost@example.org>"
  references := ["<dinner@example.org>", "<lunch@example.org>", "<lost@example.org>"]
  fromAddr := "ann@example.org"
  toAddrs := []
  ccAddrs := []
  subject := some "Re: Lunch"
  textBody := none
  htmlBody := none
  attachments := []

theorem late_reply_joins_lunch :
    assignThread .ascii 10 lateReply lunchThreads.reverse = .existing 1 := by
  rw [(assignment_ignores_order .ascii 10 lateReply (by decide) (by decide)).2 _
    (List.reverse_perm lunchThreads)]
  decide

end Postblox.Mail
