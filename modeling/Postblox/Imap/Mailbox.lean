import Postblox.Imap.Client

/-!
# A mailbox that stays as it is

What a server holds in one mailbox, and the connections on which it shows exactly
that: it answers every command, and a `UID FETCH` brings all messages of the range
in some order.
-/
namespace Postblox.Imap

open Lib

structure ServerMessage where
  uid : UInt32
  flags : List Flag
  internalDate : Option Int
  raw : List UInt8
  deriving DecidableEq

def ServerMessage.fetch (m : ServerMessage) : Fetch where
  uid := some m.uid
  flags := m.flags
  internalDate := m.internalDate
  body := some m.raw

/-- The message as the client keeps it. -/
def ServerMessage.fetched (m : ServerMessage) : FetchedMessage where
  uid := m.uid
  flags := m.flags.map flagName
  internalDate := m.internalDate
  raw := m.raw

/-- UIDs are positive, different, and below `UIDNEXT`. -/
structure ServerMailbox where
  uidValidity : Option UInt32
  uidNext : Option UInt32
  messages : List ServerMessage
  uids_nodup : (messages.map (·.uid)).Nodup
  uids_pos : ∀ m ∈ messages, 0 < m.uid
  uids_lt : ∀ n, uidNext = some n → ∀ m ∈ messages, m.uid < n

namespace ServerMailbox

variable (mb : ServerMailbox)

def inRange (lo hi : UInt32) : List ServerMessage :=
  mb.messages.filter fun m => lo ≤ m.uid ∧ m.uid ≤ hi

/-- The `SELECT` response. -/
def selected : Mailbox where
  uidValidity := mb.uidValidity
  uidNext := mb.uidNext
  existsCount := UInt32.ofNat mb.messages.length

/-- The connection that sends the messages in the order of the mailbox. -/
def session : Session where
  connect := .ok ()
  select := .ok mb.selected
  uidFetch lo hi := .ok ⟨(mb.inRange lo hi).map fun m => .ok m.fetch, false⟩

/-- The connection shows the mailbox. -/
structure Shown (mb : ServerMailbox) (s : Session) : Prop where
  connect : s.connect = .ok ()
  select : s.select = .ok mb.selected
  fetch : ∀ lo hi, ∃ items : List ServerMessage, items.Perm (mb.inRange lo hi) ∧
    s.uidFetch lo hi = .ok ⟨items.map fun m => .ok m.fetch, false⟩

theorem shown_session : mb.Shown mb.session where
  connect := rfl
  select := rfl
  fetch := fun lo hi => ⟨mb.inRange lo hi, List.Perm.refl _, rfl⟩

theorem mem_inRange {lo hi : UInt32} {m : ServerMessage} :
    m ∈ mb.inRange lo hi ↔ m ∈ mb.messages ∧ lo ≤ m.uid ∧ m.uid ≤ hi := by
  unfold inRange
  rw [List.mem_filter, decide_eq_true_eq]

/-- There are fewer messages than UIDs, so the message count does not wrap. -/
theorem length_lt : mb.messages.length < 4294967296 := by
  have hnodup : (mb.messages.map fun m => m.uid.toNat).Nodup := by
    have hmap : (mb.messages.map fun m => m.uid.toNat) =
        (mb.messages.map (·.uid)).map UInt32.toNat := by
      rw [List.map_map]
      rfl
    rw [hmap]
    exact mb.uids_nodup.map fun a b => UInt32.toNat_inj.mp
  have hsub : (mb.messages.map fun m => m.uid.toNat) ⊆ List.range' 1 4294967295 := by
    intro n hn
    obtain ⟨m, hm, rfl⟩ := List.mem_map.mp hn
    have hpos := UInt32.lt_iff_toNat_lt.mp (mb.uids_pos m hm)
    have hlt := m.uid.toNat_lt
    have hzero : (0 : UInt32).toNat = 0 := rfl
    rw [List.mem_range'_1]
    omega
  have hle := (List.subperm_of_subset hnodup hsub).length_le
  rw [List.length_map, List.length_range'] at hle
  omega

theorem existsCount_eq_zero : mb.selected.existsCount = 0 ↔ mb.messages = [] := by
  have hlt := mb.length_lt
  have hcount : mb.selected.existsCount.toNat = mb.messages.length :=
    UInt32.toNat_ofNat_of_lt' hlt
  rw [← UInt32.toNat_inj, hcount]
  exact List.length_eq_zero_iff

end ServerMailbox

namespace ServerMailbox

variable {mb : ServerMailbox} {s : Session} {fromUid : UInt32} {server : FolderSync}

/-- Every phase of the connection may fail, but what it does answer is the mailbox. -/
structure Truthful (mb : ServerMailbox) (s : Session) : Prop where
  select : ∀ mailbox, s.select = .ok mailbox → mailbox = mb.selected
  fetch : ∀ lo hi stream, s.uidFetch lo hi = .ok stream → stream.timedOut = false →
    ∃ items : List ServerMessage, items.Perm (mb.inRange lo hi) ∧
      stream.items = items.map fun m => .ok m.fetch

theorem Shown.truthful (h : mb.Shown s) : mb.Truthful s where
  select := by
    intro mailbox hselect
    exact Except.ok.inj (hselect.symm.trans h.select)
  fetch := by
    intro lo hi stream hfetch _
    obtain ⟨items, hperm, hitems⟩ := h.fetch lo hi
    obtain rfl := Except.ok.inj (hfetch.symm.trans hitems)
    exact ⟨items, hperm, rfl⟩

/-- A connection that shows the mailbox answers. -/
theorem Shown.responds (h : mb.Shown s) (fromUid : UInt32) :
    ∃ server, syncFolder s fromUid = .ok server := by
  cases hwindow : window mb.selected fromUid with
  | caughtUp windowHi =>
    refine ⟨.nothing mb.selected windowHi, ?_⟩
    simp only [syncFolder, h.connect, fetchUidRange, h.select, bind, Except.bind, hwindow]
    rfl
  | range lo hi hasMore =>
    obtain ⟨items, -, hfetch⟩ := h.fetch lo hi
    refine ⟨.ofStream mb.selected (items.map fun m => .ok m.fetch) hi hasMore, ?_⟩
    simp only [syncFolder, h.connect, fetchUidRange, h.select, bind, Except.bind, hwindow, hfetch]
    rfl

/-- The answer to a call from `fromUid` on: the mailbox's messages up to the end of
the window. With `UIDNEXT` the last window ends right below it; without, there is
one window of 500 UIDs. -/
structure Answer (mb : ServerMailbox) (fromUid : UInt32) (server : FolderSync) : Prop where
  validity : server.uidValidity = mb.uidValidity
  nodup : (server.messages.map (·.uid)).Nodup
  messages : ∀ m, m ∈ server.messages ↔ ∃ sm ∈ mb.messages, sm.fetched = m ∧
    fromUid.toNat ≤ sm.uid.toNat ∧ sm.uid.toNat ≤ server.windowHi.toNat
  last : ∀ n, mb.uidNext = some n → server.hasMore = false → n.toNat ≤ server.windowHi.toNat + 1
  unknown : mb.uidNext = none → server.hasMore = false ∧
    (mb.messages ≠ [] → server.windowHi.toNat = min (max fromUid.toNat 1 + 499) u32Max)

private theorem uids_fetched (items : List ServerMessage) :
    ((items.map fun m => (.ok m.fetch : Except ImapError Fetch)).filterMap fetchedMessage) =
      items.map ServerMessage.fetched := by
  rw [List.filterMap_map]
  exact congrFun (List.filterMap_eq_map (f := ServerMessage.fetched)) items

theorem Truthful.answer (hs : mb.Truthful s) (h : syncFolder s fromUid = .ok server) :
    mb.Answer fromUid server := by
  obtain ⟨mailbox, hselect, hcase⟩ := syncFolder_ok h
  obtain rfl := hs.select mailbox hselect
  have hpos : ∀ m ∈ mb.messages, 1 ≤ m.uid.toNat := fun m hm =>
    UInt32.lt_iff_toNat_lt.mp (mb.uids_pos m hm)
  rcases hcase with ⟨hi, hwindow, rfl, -⟩ | ⟨lo, hi, more, stream, hwindow, hfetch, htime, rfl, -⟩
  · refine ⟨rfl, List.nodup_nil, ?_, ?_, ?_⟩
    · -- nothing lies between the start and the end of the window
      intro m
      refine ⟨(fun hm => nomatch hm), ?_⟩
      rintro ⟨sm, hsm, -, hfrom, hle⟩
      have hempty : mb.selected.existsCount ≠ 0 := by
        rw [Ne, mb.existsCount_eq_zero]
        exact List.ne_nil_of_mem hsm
      have hone := hpos sm hsm
      have hhi : sm.uid.toNat ≤ hi.toNat := hle
      cases hn : mb.selected.uidNext with
      | none => exact absurd (window_caughtUp_of_unknown hn hwindow).1 hempty
      | some n =>
        obtain ⟨heq, hzero | hle⟩ := window_caughtUp_of_next hn hwindow
        · exact absurd hzero hempty
        · omega
    · intro n hn _
      obtain ⟨heq, -⟩ := window_caughtUp_of_next (show mb.selected.uidNext = some n from hn) hwindow
      show n.toNat ≤ hi.toNat + 1
      omega
    · intro hn
      obtain ⟨hzero, -⟩ := window_caughtUp_of_unknown (show mb.selected.uidNext = none from hn) hwindow
      exact ⟨rfl, fun hne => absurd (mb.existsCount_eq_zero.mp hzero) hne⟩
  · obtain ⟨items, hperm, hitems⟩ := hs.fetch lo hi stream hfetch htime
    obtain ⟨hlo, -, -, -⟩ := window_range hwindow
    have hmessages : (FolderSync.ofStream mb.selected stream.items hi more).messages =
        items.map ServerMessage.fetched := by
      show stream.items.filterMap fetchedMessage = _
      rw [hitems, uids_fetched]
    refine ⟨rfl, ?_, ?_, ?_, ?_⟩
    · rw [hmessages, List.map_map]
      have hsub : (mb.inRange lo hi).map (·.uid) |>.Nodup :=
        mb.uids_nodup.sublist (List.filter_sublist.map _)
      exact (hperm.map (·.uid)).nodup_iff.mpr hsub
    · intro m
      rw [hmessages, List.mem_map]
      constructor
      · rintro ⟨sm, hsm, rfl⟩
        obtain ⟨hmem, hge, hle⟩ := mb.mem_inRange.mp (hperm.mem_iff.mp hsm)
        have hge' := UInt32.le_iff_toNat_le.mp hge
        exact ⟨sm, hmem, rfl, by omega, UInt32.le_iff_toNat_le.mp hle⟩
      · rintro ⟨sm, hsm, rfl, hge, hle⟩
        have hone := hpos sm hsm
        refine ⟨sm, hperm.mem_iff.mpr (mb.mem_inRange.mpr ⟨hsm, ?_, ?_⟩), rfl⟩
        · exact UInt32.le_iff_toNat_le.mpr (by omega)
        · exact UInt32.le_iff_toNat_le.mpr hle
    · intro n hn hmore
      obtain ⟨-, -, -, -, hend⟩ :=
        window_range_of_next (show mb.selected.uidNext = some n from hn) hwindow
      have hfalse : more = false := hmore
      rw [hfalse, if_neg Bool.false_ne_true] at hend
      show n.toNat ≤ hi.toNat + 1
      omega
    · intro hn
      obtain ⟨-, -, hhi, hmore⟩ :=
        window_range_of_unknown (show mb.selected.uidNext = none from hn) hwindow
      refine ⟨hmore, fun _ => ?_⟩
      show hi.toNat = _
      rw [hhi, hlo]

/-- With `UIDNEXT` no window reaches past the mailbox. -/
theorem Truthful.windowHi_le (hs : mb.Truthful s) (h : syncFolder s fromUid = .ok server)
    {n : UInt32} (hn : mb.uidNext = some n) : server.windowHi.toNat ≤ n.toNat - 1 := by
  obtain ⟨mailbox, hselect, hcase⟩ := syncFolder_ok h
  obtain rfl := hs.select mailbox hselect
  have hnext : mb.selected.uidNext = some n := hn
  rcases hcase with ⟨hi, hwindow, rfl, -⟩ | ⟨lo, hi, more, stream, hwindow, -, -, rfl, -⟩
  · exact Nat.le_of_eq (window_caughtUp_of_next hnext hwindow).1
  · obtain ⟨-, -, -, -, hend⟩ := window_range_of_next hnext hwindow
    show hi.toNat ≤ n.toNat - 1
    split_ifs at hend <;> omega

end ServerMailbox

end Postblox.Imap
