import Postblox.Lib.Ranges
import Postblox.Sync.Call

/-!
# The windows of one call

Whatever the server answers, the ranges that the drain loop asks for follow each
other without gap and overlap, each starting right above the window before it,
and the loop comes to an end.
-/
namespace Postblox.Sync

open Lib Db Imap Mail

variable {env : Env} {mail : MailCrate}

/-- The ranges a list of calls asks for. -/
def ranges (calls : List SyncRecord) : List (Nat × Nat) :=
  calls.filterMap fun r => r.range.map fun p => (p.1.toNat, p.2.toNat)

theorem ranges_cons (r : SyncRecord) (calls : List SyncRecord) :
    ranges (r :: calls) = (r.range.map fun p => (p.1.toNat, p.2.toNat)).toList ++ ranges calls := by
  unfold ranges
  rw [List.filterMap_cons]
  cases r.range with
  | none => rfl
  | some p => rfl

/-- A call asks for a range that starts at its `from_uid`, answered or not. -/
theorem range_eq {r : SyncRecord} {p : UInt32 × UInt32} (hfrom : 1 ≤ r.fromUid.toNat)
    (h : r.range = some p) : p.1.toNat = r.fromUid.toNat ∧ p.1.toNat ≤ p.2.toNat := by
  unfold SyncRecord.range requestedRange at h
  split at h
  · next mailbox _ _ =>
    split at h
    · cases h
    · next lo hi hasMore hwindow =>
      cases h
      obtain ⟨hlo, hle, -, -⟩ := window_range hwindow
      show lo.toNat = r.fromUid.toNat ∧ lo.toNat ≤ hi.toNat
      omega
  · cases h

theorem mem_ranges {calls : List SyncRecord} {p : Nat × Nat} (h : p ∈ ranges calls) :
    p.1 ≤ p.2 ∧ p.2 ≤ p.1 + 499 := by
  obtain ⟨r, -, hr⟩ := List.mem_filterMap.mp h
  obtain ⟨⟨lo, hi⟩, hrange, rfl⟩ := Option.map_eq_some_iff.mp hr
  unfold SyncRecord.range requestedRange at hrange
  split at hrange
  · split at hrange
    · cases hrange
    · next hwindow =>
      cases hrange
      obtain ⟨-, hle, hspan, -⟩ := window_range hwindow
      exact ⟨hle, hspan⟩
  · cases hrange

/-- The ranges of one call are contiguous from its `from_uid`. -/
theorem contiguous_single {r : SyncRecord} (hfrom : 1 ≤ r.fromUid.toNat) :
    Contiguous r.fromUid.toNat (ranges [r]) := by
  rw [ranges_cons]
  cases hrange : r.range with
  | none => exact trivial
  | some p =>
    obtain ⟨hlo, hle⟩ := range_eq hfrom hrange
    exact ⟨hlo, hle, trivial⟩

/-- An answered call: nothing was asked for and nothing more is announced, or its
range ends with the answer's window. -/
theorem range_of_answer {r : SyncRecord} {server : FolderSync} (h : r.answer = .ok server) :
    (r.range = none ∧ server.hasMore = false) ∨ ∃ lo, r.range = some (lo, server.windowHi) := by
  obtain ⟨mailbox, -, ⟨hi, -, hserver, hrange⟩ | ⟨lo, hi, more, stream, -, -, -, hserver, hrange⟩⟩ :=
    syncFolder_ok h
  · left
    rw [hserver]
    exact ⟨hrange, rfl⟩
  · right
    rw [hserver]
    exact ⟨lo, hrange⟩

/-- The calls of the loop, by induction along the chain of answers. -/
theorem contiguous_chained {account : AccountId} {name : String} {n : Nat} {server : FolderSync}
    {recs : List SyncRecord} {r : SyncRecord} (hchained : Chained env account name n server recs)
    (hanswer : r.answer = .ok server) (hfrom : 1 ≤ r.fromUid.toNat) :
    Contiguous r.fromUid.toNat (ranges (r :: recs)) := by
  induction recs generalizing r server n with
  | nil => exact contiguous_single hfrom
  | cons next rest ih =>
    obtain ⟨hmore, hnext, hrest⟩ := hchained
    rcases range_of_answer hanswer with ⟨-, hdone⟩ | ⟨lo, hrange⟩
    · rw [hmore] at hdone
      cases hdone
    · have hstart : next.fromUid.toNat = server.windowHi.toNat + 1 := by
        rw [hnext]
        exact toNat_next hanswer hmore
      have htail : Contiguous next.fromUid.toNat (ranges (next :: rest)) := by
        cases hnextAnswer : next.answer with
        | ok server' =>
          rw [hnextAnswer] at hrest
          exact ih hrest hnextAnswer (by omega)
        | error e =>
          rw [hnextAnswer] at hrest
          rw [hrest]
          exact contiguous_single (by omega)
      obtain ⟨hlo, hle⟩ := range_eq hfrom hrange
      rw [ranges_cons, hrange]
      rw [hstart] at htail
      exact ⟨hlo, hle, htail⟩

/-- Each call of the loop follows an answer that announced more, and its
`from_uid` is the exact successor of that window. -/
def Successive (calls : List SyncRecord) : Prop :=
  calls.IsChain fun a b => ∃ server, a.answer = .ok server ∧ server.hasMore = true ∧
    b.fromUid.toNat = server.windowHi.toNat + 1

theorem successive_chained {account : AccountId} {name : String} {n : Nat} {server : FolderSync}
    {recs : List SyncRecord} {r : SyncRecord} (hchained : Chained env account name n server recs)
    (hanswer : r.answer = .ok server) : Successive (r :: recs) := by
  induction recs generalizing r server n with
  | nil => exact .singleton r
  | cons next rest ih =>
    obtain ⟨hmore, hnext, hrest⟩ := hchained
    have hstart : next.fromUid.toNat = server.windowHi.toNat + 1 := by
      rw [hnext]
      exact toNat_next hanswer hmore
    refine .cons_cons ⟨server, hanswer, hmore, hstart⟩ ?_
    cases hnextAnswer : next.answer with
    | ok server' =>
      rw [hnextAnswer] at hrest
      exact ih hrest hnextAnswer
    | error e =>
      rw [hnextAnswer] at hrest
      rw [hrest]
      exact .singleton next

/-- The stored mark is clamped, not wrapped, before the successor is taken. -/
theorem toNat_startUid (folder : Folder) :
    (startUid folder).toNat =
      min (min (folder.lastSeenUid.getD 0).toNat u32Max + 1) u32Max := by
  have hone : (1 : UInt32).toNat = 1 := rfl
  unfold startUid
  rw [toNat_saturatingAdd, toNat_clampU32, hone]

theorem one_le_startUid (folder : Folder) : 1 ≤ (startUid folder).toNat := by
  have hmax : 1 ≤ u32Max := by decide
  rw [toNat_startUid]
  omega

/-- Where the loop starts: above the clamped mark, or at UID 1 after one call that
found another validity. -/
def StartsAt (w : World) (req : Request) (probe : List SyncRecord) (r : SyncRecord) : Prop :=
  (probe = [] ∧ ∃ f, Folders.getByName w.db req.account req.folderName = some f ∧
    r.fromUid.toNat = min (min (f.lastSeenUid.getD 0).toNat u32Max + 1) u32Max) ∨
  (probe.length = 1 ∧ r.fromUid = 1)

/-- The calls `loop` start where they may and ask for contiguous ranges. -/
structure LoopCalls (w : World) (req : Request) (probe loop : List SyncRecord) : Prop where
  starts : ∀ r ∈ loop.head?, StartsAt w req probe r
  contiguous : ∀ r ∈ loop.head?, Contiguous r.fromUid.toNat (ranges loop)
  successive : Successive loop

theorem LoopCalls.nil (w : World) (req : Request) (probe : List SyncRecord) :
    LoopCalls w req probe [] :=
  ⟨(fun _ h => nomatch h), (fun _ h => nomatch h), .nil⟩

theorem LoopCalls.cons {w : World} {req : Request} {probe : List SyncRecord} {r : SyncRecord}
    {recs : List SyncRecord} (hstart : StartsAt w req probe r)
    (hcontiguous : Contiguous r.fromUid.toNat (ranges (r :: recs)))
    (hsuccessive : Successive (r :: recs)) : LoopCalls w req probe (r :: recs) where
  starts := by
    intro r' hr'
    obtain rfl : r = r' := Option.some.inj hr'
    exact hstart
  contiguous := by
    intro r' hr'
    obtain rfl : r = r' := Option.some.inj hr'
    exact hcontiguous
  successive := hsuccessive

section

variable {t : Target} {w : World} {req : Request}

theorem startsAt_first (found : Found w req t) : StartsAt w req [] (firstCall env t w) :=
  .inl ⟨rfl, t.folder, found.folder, toNat_startUid t.folder⟩

theorem startsAt_second (r : SyncRecord) : StartsAt w req [r] (secondCall env t w) :=
  .inr ⟨rfl, rfl⟩

/-- The last call of opening the folder starts the loop; a call before it is the
one that found another validity. -/
theorem opening_split (found : Found w req t) {rec : SyncRecord}
    (hlast : (opening env t w).getLast? = some rec) :
    ∃ probe, opening env t w = probe ++ [rec] ∧ StartsAt w req probe rec ∧
      1 ≤ rec.fromUid.toNat := by
  unfold opening at hlast ⊢
  split_ifs at hlast ⊢ with hresync
  · obtain rfl : secondCall env t w = rec := Option.some.inj hlast
    exact ⟨[firstCall env t w], rfl, startsAt_second _, Nat.le_refl 1⟩
  · obtain rfl : firstCall env t w = rec := Option.some.inj hlast
    exact ⟨[], rfl, startsAt_first found, one_le_startUid t.folder⟩

/-- A call of its own is a loop of one round. -/
theorem LoopCalls.single {probe : List SyncRecord} {r : SyncRecord}
    (hstart : StartsAt w req probe r) (hfrom : 1 ≤ r.fromUid.toNat) :
    LoopCalls w req probe [r] :=
  .cons hstart (contiguous_single hfrom) (.singleton r)

end

/-- The calls of one `reconcile_folder`, cut into the call that found another
validity, if any, and the calls of the loop. -/
theorem Outcome.calls_split {req : Request} {w u : World} {r : Except Stop ReconcileReport}
    (h : Outcome mail env req w r u) :
    ∃ probe loop, u.syncs = w.syncs ++ (probe ++ loop) ∧ LoopCalls w req probe loop := by
  cases h with
  | refused quiet =>
    exact ⟨[], [], by rw [quiet.syncs, List.append_nil, List.append_nil], .nil w req []⟩
  | @unopened t e _ made found syncs calls =>
    unfold opening at calls
    split_ifs at calls with hresync
    · rcases List.prefix_cons_iff.mp calls with rfl | ⟨made', rfl, hmade'⟩
      · exact ⟨[], [], syncs, .nil w req []⟩
      · refine ⟨[firstCall env t w], made', syncs, ?_⟩
        rcases List.prefix_cons_iff.mp hmade' with rfl | ⟨made'', rfl, hnil⟩
        · exact .nil w req _
        · rw [List.prefix_nil.mp hnil]
          exact .single (startsAt_second _) (Nat.le_refl 1)
    · refine ⟨[], made, syncs, ?_⟩
      rcases List.prefix_cons_iff.mp calls with rfl | ⟨made', rfl, hnil⟩
      · exact .nil w req []
      · rw [List.prefix_nil.mp hnil]
        exact .single (startsAt_first found) (one_le_startUid t.folder)
  | @drains t server recs rows _ _ found drains fuel =>
    obtain ⟨rec, hlast, hanswer⟩ := drains.opened
    obtain ⟨probe, hopening, hstart, hfrom⟩ := opening_split found hlast
    refine ⟨probe, rec :: recs, ?_, .cons hstart (contiguous_chained drains.chained hanswer hfrom)
      (successive_chained drains.chained hanswer)⟩
    rw [drains.syncs, hopening, List.append_assoc, List.singleton_append]

end Postblox.Sync
