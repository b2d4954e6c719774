import Postblox.Sync.HighWater

/-!
# Partial `UID FETCH` responses

A failed connection, `SELECT`, `UID FETCH` or timeout ends the call with an error.
Items of a stream are kept one by one: those without a UID or a body are skipped,
and so are messages with an empty or unreadable body. A message that came intact
is in the folder after a call that returned well, or its UID is still above the
stored mark.
-/
namespace Postblox.Sync

open Lib Db Imap Mail

variable {mail : MailCrate} {r : SyncRecord} {server : FolderSync} {recs : List SyncRecord}

/-- The call's stream has a good item with the UID and a body the parser reads. -/
def Intact (mail : MailCrate) (r : SyncRecord) (uid : Nat) : Prop :=
  ∃ lo hi stream f u raw, r.range = some (lo, hi) ∧ r.session.uidFetch lo hi = .ok stream ∧
    .ok f ∈ stream.items ∧ f.uid = some u ∧ u.toNat = uid ∧ f.body = some raw ∧ raw ≠ [] ∧
    (mail.parse raw).isSome

/-- What came intact is among the messages of the answer. -/
theorem Intact.message {uid : Nat} (hintact : Intact mail r uid) (hanswer : r.answer = .ok server) :
    ∃ m ∈ server.messages, uidOf m = uid ∧ Ingestible mail m := by
  obtain ⟨lo, hi, stream, f, u, raw, hrange, hfetch, hmem, hu, huid, hbody, hraw, hparse⟩ := hintact
  have hkept : fetchedMessage (.ok f) =
      some { uid := u, flags := f.flags.map flagName, internalDate := f.internalDate, raw } := by
    simp only [fetchedMessage, hu, hbody]
  obtain ⟨mailbox, -, ⟨hi', -, -, hnone⟩ |
    ⟨lo', hi', more, stream', -, hfetch', -, hserver, hrange'⟩⟩ := syncFolder_ok hanswer
  · exact absurd (hrange.symm.trans hnone) (Option.some_ne_none _)
  · obtain ⟨rfl, rfl⟩ := Prod.mk.inj (Option.some.inj (hrange.symm.trans hrange'))
    obtain rfl : stream = stream' := Except.ok.inj (hfetch.symm.trans hfetch')
    rw [hserver]
    refine ⟨_, List.mem_filterMap.mpr ⟨_, hmem, hkept⟩, ?_, hraw, hparse⟩
    show (u.toNat : Int) = uid
    rw [huid]

theorem mem_answers {rec : SyncRecord} {a : FolderSync} (hserver : r.answer = .ok server)
    (hrec : rec ∈ r :: recs) (ha : rec.answer = .ok a) : a ∈ answers server recs := by
  rcases List.mem_cons.mp hrec with rfl | hmem
  · obtain rfl : server = a := Except.ok.inj (hserver.symm.trans ha)
    exact List.mem_cons_self
  · refine List.mem_cons_of_mem _ (List.mem_filterMap.mpr ⟨rec, hmem, ?_⟩)
    rw [ha]
    rfl

theorem Asks.pos {uid : Nat} (hasks : Asks r uid) (hfrom : 1 ≤ r.fromUid.toNat) : 1 ≤ uid := by
  obtain ⟨lo, hi, hrange, hlo, -⟩ := hasks
  have heq := (range_eq hfrom hrange).1
  dsimp only at heq
  omega

variable {c : Call} {w : World} {t : Target} {rows : List Message} {last : FolderSync}

/-- A message that an answer of the loop brought intact has its row. -/
theorem Stores.taken {f : Folder} (hstores : Stores mail c w f t server recs rows last)
    {rec₀ rec : SyncRecord} (hserver : rec₀.answer = .ok server) (hrec : rec ∈ rec₀ :: recs)
    (hanswer : ∃ a, rec.answer = .ok a) {uid : Nat} (hintact : Intact mail rec uid) :
    Messages.UidTaken (c.apply mail w).db t.folder.id uid := by
  obtain ⟨a, ha⟩ := hanswer
  obtain ⟨m, hm, huid, hing⟩ := hintact.message ha
  have hrow := hstores.completed.stored a (mem_answers hserver hrec ha) m hm hing
  rwa [huid] at hrow

/-- After a wipe, a UID that no call of the loop asked for stays above the mark. -/
theorem below_of_wipe (hresync : resyncs c.env t w = true)
    (hserver : (secondCall c.env t w).answer = .ok server)
    (hchained : Chained c.env t.account.id t.folder.name (w.syncs.length + 1 + 1) server recs)
    {uid : Nat} (hpos : 1 ≤ uid) (hnot : ∀ r ∈ secondCall c.env t w :: recs, ¬ Asks r uid)
    (hhonest : ∀ r ∈ secondCall c.env t w :: recs, Honest r.session uid) :
    BelowUid (stamp last (markAfter c.env t w server recs) t.folder) uid := by
  have hbelow : ∀ a ∈ answers server recs, ∀ m, Raises a m → m < uid := by
    rcases chained_asks_or_below hchained hserver hhonest hpos hpos with ⟨r, hr, hasks⟩ | hall
    · exact absurd hasks (hnot r hr)
    · exact hall
  have hmark : markAfter c.env t w server recs = (answers server recs).foldl highWater none := by
    unfold markAfter startMark
    rw [hresync]
    rfl
  obtain ⟨m, hm⟩ := highWater_isSome none server (recs.filterMap fun r => r.answer.toOption)
  have hm' : (answers server recs).foldl highWater none = some m := hm
  intro x hx
  rw [stamp, hmark, hm'] at hx
  obtain rfl : m = x := Option.some.inj hx
  obtain ⟨hnone | ⟨a, ha, hraises⟩, -, -⟩ := foldl_highWater hm'
  · cases hnone
  · exact hbelow a ha m hraises

/-- A call on a mailbox with two messages: the item of the first one is given, the
second one comes intact. -/
def twoMessagesCall (first : Except ImapError Fetch) : Call :=
  .calm "INBOX" fun _ =>
    { connect := .ok ()
      select := .ok ⟨some 7, some 3, 2⟩
      uidFetch := fun _ _ =>
        .ok ⟨[first, .ok ⟨some 2, [], some 0, some (idMessage "b")⟩], false⟩ }

end Postblox.Sync
