import Postblox.Tui.State

/-!
# The message a conversation opens on

A row shows the first listed message of the latest minute. An opened thread selects, among
the messages of that minute, the one with the largest id, and ids are random. So the two
belong to the newest message exactly when the largest id of the minute does not go to an
older message or to one that the row does not show.
-/
namespace Postblox.Tui

open Lib

/-- The rows of a listing. -/
def items (format : Int → String) (listing : List MessageSummary) : List MessageItem :=
  listing.map (.ofSummary format)

def threadOf (m : MessageSummary) : Uuid := m.threadId.getD m.id

/-- No message of the thread has a later internal date. -/
def NewestOf (listing : List MessageSummary) (key : Uuid) (m : MessageSummary) : Prop :=
  m ∈ listing ∧ threadOf m = key ∧
    ∀ other ∈ listing, threadOf other = key → other.internalDate ≤ m.internalDate

/-- The row of a thread and the message the client has selected are those of one newest
message. -/
def OpensWhatItShows (format : Int → String) (listing : List MessageSummary)
    (thread : ThreadItem) (app : AppState) : Prop :=
  ∃ m, NewestOf listing thread.key m ∧ thread.latestFrom = m.sender ∧
    thread.subject = (MessageItem.ofSummary format m).subject ∧
    app.messages[app.selectedMessage]? = some (MessageItem.ofSummary format m)

/-- Of the messages of the latest minute the one with the largest id is a newest one, and
the one listed first has its sender and subject. -/
def LargestIdIsNewest (format : Int → String) (listing : List MessageSummary) (key : Uuid) :
    Prop :=
  ∃ m first, NewestOf listing key m ∧
    (∀ other ∈ listing, threadOf other = key →
      format other.internalDate < format m.internalDate ∨
        format other.internalDate = format m.internalDate ∧ other.id.digits ≤ m.id.digits) ∧
    listing.find? (fun other => threadOf other = key ∧
      format other.internalDate = format m.internalDate) = some first ∧
    first.sender = m.sender ∧
    textOrDefault first.subject "(no subject)" = textOrDefault m.subject "(no subject)"

/-! ## What is shown and what is opened -/

theorem textOrDefault_idem (value : Option String) :
    textOrDefault (some (textOrDefault value "(no subject)")) "(no subject)" =
      textOrDefault value "(no subject)" := by
  have hplain : Mail.trimmed "(no subject)" = "(no subject)" := by decide
  unfold textOrDefault
  cases hvalue : (value.map Mail.trimmed).filter (· ≠ "") with
  | none =>
    rw [Option.getD_none, Option.map_some, hplain]
    rfl
  | some s =>
    obtain ⟨hs, hne⟩ := Option.filter_eq_some_iff.mp hvalue
    obtain ⟨t, -, rfl⟩ := Option.map_eq_some_iff.mp hs
    rw [Option.getD_some, Option.map_some, Mail.trimmed_trimmed, Option.filter_some, if_pos hne]
    rfl

theorem filter_items (format : Int → String) (listing : List MessageSummary) (key : Uuid) :
    ((items format listing).filter fun m => messageThreadKey m = key) =
      items format (listing.filter fun m => threadOf m = key) := by
  rw [items, items, List.filter_map]
  rfl

/-- The row shows the first message that is dated like the latest one. -/
theorem row_shows_first {format : Int → String} {listing : List MessageSummary}
    {thread : ThreadItem} (hrow : thread ∈ buildThreads (items format listing)) :
    ∃ first, listing.find? (fun m => threadOf m = thread.key ∧
        format m.internalDate = thread.latestDate) = some first ∧
      (∀ m ∈ listing, threadOf m = thread.key → format m.internalDate ≤ thread.latestDate) ∧
      thread.latestFrom = first.sender ∧
      thread.subject = textOrDefault first.subject "(no subject)" := by
  obtain ⟨shown, hshown⟩ := exists_shown hrow
  rw [filter_items] at hshown
  have hfirst := hshown.first
  rw [items, List.find?_map, List.find?_filter, Option.map_eq_some_iff] at hfirst
  obtain ⟨first, hfound, rfl⟩ := hfirst
  refine ⟨first, ?_, ?_, hshown.sender, ?_⟩
  · rw [← hfound]
    apply List.find?_congr
    intro m _
    simp only [decide_eq_true_eq, Function.comp_apply]
    rfl
  · intro m hm hkey
    exact hshown.latest (.ofSummary format m)
      (List.mem_map_of_mem (List.mem_filter.mpr ⟨hm, by simpa using hkey⟩))
  · rw [hshown.subject]
    exact textOrDefault_idem first.subject

variable {app : AppState}

/-- A thread opened afresh shows its messages with the last one selected. -/
theorem refreshVisibleMessages_fresh {thread : ThreadItem} (hrow : app.threadRow = some thread)
    (hfresh : ∀ id, app.selectedMessageId = some id →
      ∀ m ∈ app.folderMessages, m.id = id → messageThreadKey m ≠ thread.key) :
    app.refreshVisibleMessages.messages[app.refreshVisibleMessages.selectedMessage]? =
      (threadMessages app.folderMessages thread.key).getLast? := by
  have hmessages : app.visibleMessages = threadMessages app.folderMessages thread.key := by
    rw [AppState.visibleMessages, AppState.selectedThreadKey, hrow]
    rfl
  have hnone : (app.selectedMessageId.bind fun id =>
      app.visibleMessages.findIdx? fun m => m.id = id) = none := by
    cases hid : app.selectedMessageId with
    | none => rfl
    | some id =>
      rw [Option.bind_some, List.findIdx?_eq_none_iff, hmessages]
      intro m hm
      obtain ⟨hlisted, hkey⟩ := mem_threadMessages.mp hm
      have hne : m.id ≠ id := fun heq => hfresh id hid m hlisted heq hkey
      simpa using hne
  show app.visibleMessages[(app.selectedMessageId.bind fun id =>
    app.visibleMessages.findIdx? fun m => m.id = id).getD (app.visibleMessages.length - 1)]? = _
  rw [hnone, Option.getD_none, hmessages, List.getLast?_eq_getElem?]

/-- The last of the messages of a thread has the latest date and, with it, the largest id. -/
theorem getLast?_threadMessages {messages : List MessageItem} {key : Uuid} {m : MessageItem}
    (hm : m ∈ messages) (hkey : messageThreadKey m = key) :
    ∃ last ∈ messages, messageThreadKey last = key ∧
      (threadMessages messages key).getLast? = some last ∧
      ∀ other ∈ messages, messageThreadKey other = key → other.ageKey ≤ last.ageKey := by
  have hmem : m ∈ threadMessages messages key := mem_threadMessages.mpr ⟨hm, hkey⟩
  have hne : threadMessages messages key ≠ [] := List.ne_nil_of_mem hmem
  obtain ⟨hlisted, hlast⟩ := mem_threadMessages.mp (List.getLast_mem hne)
  refine ⟨_, hlisted, hlast, List.getLast?_eq_some_getLast hne, ?_⟩
  intro other hother hsame
  exact le_getLast_sortByKey hne (List.mem_filter.mpr ⟨hother, by simpa using hsame⟩)

theorem ageKey_le_iff {format : Int → String} {a b : MessageSummary} :
    (MessageItem.ofSummary format a).ageKey ≤ (MessageItem.ofSummary format b).ageKey ↔
      format a.internalDate < format b.internalDate ∨
        format a.internalDate = format b.internalDate ∧ a.id.digits ≤ b.id.digits :=
  Prod.Lex.toLex_le_toLex

theorem Uuid.eq_of_digits {a b : Uuid} (h : a.digits = b.digits) : a = b := by
  cases a
  cases b
  cases h
  rfl

/-- A conversation shows and opens its newest message exactly when the largest id of its
latest minute is that of a newest message and the row shows that message. -/
theorem opens_what_it_shows_iff {format : Int → String} {listing : List MessageSummary}
    (hids : (listing.map (·.id)).Nodup) (hrows : app.folderMessages = items format listing)
    (hthreads : app.threads = buildThreads app.folderMessages) {thread : ThreadItem}
    (hrow : app.threadRow = some thread)
    (hfresh : ∀ id, app.selectedMessageId = some id →
      ∀ m ∈ app.folderMessages, m.id = id → messageThreadKey m ≠ thread.key) :
    OpensWhatItShows format listing thread app.refreshVisibleMessages ↔
      LargestIdIsNewest format listing thread.key := by
  have hmem : thread ∈ buildThreads (items format listing) := by
    rw [← hrows, ← hthreads]
    exact List.mem_of_getElem? hrow
  obtain ⟨first, hfirst, hlatest, hsender, hsubject⟩ := row_shows_first hmem
  have hopened := refreshVisibleMessages_fresh hrow hfresh
  rw [hrows] at hopened
  have hfound := List.find?_some hfirst
  simp only [decide_eq_true_eq] at hfound
  obtain ⟨last, hlisted, hlastkey, hlast, hlargest⟩ :=
    @getLast?_threadMessages (items format listing) _ _
      (List.mem_map_of_mem (List.mem_of_find?_eq_some hfirst)) hfound.1
  obtain ⟨newest, hnewest, rfl⟩ := List.mem_map.mp hlisted
  rw [hlast] at hopened
  have hinj : ∀ a ∈ listing, ∀ b ∈ listing, a.id = b.id → a = b := fun a ha b hb =>
    List.inj_on_of_nodup_map hids ha hb
  have hbelow : ∀ other ∈ listing, threadOf other = thread.key →
      (MessageItem.ofSummary format other).ageKey ≤ (MessageItem.ofSummary format newest).ageKey :=
    fun other hother hkey => hlargest _ (List.mem_map_of_mem hother) hkey
  -- the latest date is that of the message with the largest id among the latest
  have hdate : thread.latestDate = format newest.internalDate := by
    apply le_antisymm _ (hlatest newest hnewest hlastkey)
    rw [← hfound.2]
    rcases ageKey_le_iff.mp (hbelow first (List.mem_of_find?_eq_some hfirst) hfound.1) with h | h
    · exact h.le
    · exact h.1.le
  constructor
  · rintro ⟨m, hm, hshown, htext, hopen⟩
    have hid : newest.id = m.id := by
      have hitem : MessageItem.ofSummary format newest = .ofSummary format m :=
        Option.some.inj (hopened.symm.trans hopen)
      exact congrArg MessageItem.id hitem
    obtain rfl := hinj newest hnewest m hm.1 hid
    refine ⟨newest, first, hm, ?_, by rw [← hdate]; exact hfirst, hsender.symm.trans hshown,
      hsubject.symm.trans htext⟩
    exact fun other hother hkey => ageKey_le_iff.mp (hbelow other hother hkey)
  · rintro ⟨m, first', hm, hmax, hfirst', hshown, htext⟩
    have hage : (MessageItem.ofSummary format newest).ageKey = (MessageItem.ofSummary format m).ageKey :=
      le_antisymm (ageKey_le_iff.mpr (hmax newest hnewest hlastkey)) (hbelow m hm.1 hm.2.1)
    have hid : newest.id = m.id := Uuid.eq_of_digits (congrArg (fun key => (ofLex key).2) hage)
    obtain rfl := hinj newest hnewest m hm.1 hid
    rw [← hdate, hfirst] at hfirst'
    obtain rfl := Option.some.inj hfirst'
    exact ⟨newest, hm, hsender.trans hshown, hsubject.trans htext, hopened⟩

/-! ## Two messages of one minute -/

/-- How any instant of the first minute of 1970 is written. -/
def firstMinute : Int → String := fun _ => "1970-01-01 00:00"

/-- Fifty and ten seconds after the epoch, newest first, with the given ids. -/
def sameMinute (newer older : Uuid) : List MessageSummary :=
  [⟨newer, some (.filled 1), "bob@x", some "Re: Hi", none, [], 50000000000⟩,
    ⟨older, some (.filled 1), "ada@x", some "Hi", none, [], 10000000000⟩]

/-- The client with a folder listed and no message selected. -/
def listed (format : Int → String) (listing : List MessageSummary) : AppState :=
  let folderMessages := items format listing
  { AppState.initial with folderMessages, threads := buildThreads folderMessages }

def firstThread (format : Int → String) (listing : List MessageSummary) : ThreadItem :=
  ((listed format listing).threadRow).getD (.opening ⟨.filled 0, none, "", "", "", "", []⟩)

/-- The older message has the larger id and is opened, under the newer one's sender. -/
theorem older_message_is_opened :
    let listing := sameMinute (.filled 3) (.filled 9)
    let app := listed firstMinute listing
    let thread := firstThread firstMinute listing
    listing.Pairwise (fun a b => b.internalDate ≤ a.internalDate) ∧
      (listing.map (·.id)).Nodup ∧ app.threadRow = some thread ∧
      app.selectedMessageId = none ∧ thread.latestFrom = "bob@x" ∧
      (app.refreshVisibleMessages.messages[app.refreshVisibleMessages.selectedMessage]?).map
        (·.sender) = some "ada@x" ∧
      ¬ OpensWhatItShows firstMinute listing thread app.refreshVisibleMessages := by
  refine ⟨by decide, by decide +kernel, by decide +kernel, by decide +kernel,
    by decide, by decide +kernel, ?_⟩
  rintro ⟨m, ⟨hm, -, hnewest⟩, -, -, hopen⟩
  have hnewer := hnewest _ (List.mem_cons_self) (by decide)
  rcases List.mem_cons.mp hm with rfl | hm
  · revert hopen
    decide
  · rw [List.mem_singleton.mp hm] at hnewer
    revert hnewer
    decide

theorem newer_message_is_opened :
    let listing := sameMinute (.filled 9) (.filled 3)
    OpensWhatItShows firstMinute listing (firstThread firstMinute listing)
      (listed firstMinute listing).refreshVisibleMessages := by
  intro listing
  refine (opens_what_it_shows_iff (by decide) rfl rfl
    (show _ = some (firstThread firstMinute listing) by decide) ?_).mpr ?_
  · intro id hid
    have hnone : (listed firstMinute listing).selectedMessageId = none := by decide
    rw [hnone] at hid
    cases hid
  · refine ⟨_, _, ⟨List.mem_cons_self, by decide, by decide +kernel⟩, by decide +kernel,
      (show _ = some _ from rfl), rfl, rfl⟩

end Postblox.Tui
