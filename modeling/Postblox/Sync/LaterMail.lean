import Postblox.Sync.HighWater

/-!
# Mail delivered later is asked for

Runs of calls against one mailbox whose UIDVALIDITY stays and whose UIDs grow.
While no window reaches past the assigned UIDs, the stored mark stays below the
UIDs still to come, and a message that comes in later is asked for before the
mark passes it.
-/
namespace Postblox.Sync

open Lib Db Imap Mail

variable {h : MailboxHistory} {mail : MailCrate} {account : AccountId} {name : String}

/-- The folder row agrees with the mailbox: its validity, and a mark below the UID
that was to be assigned next at some connection so far. -/
structure MarkInv (h : MailboxHistory) (w : World) (f : Folder) : Prop where
  validity : ∀ v, f.uidValidity = some v → v = h.validity.toNat
  mark : ∀ m, f.lastSeenUid = some m → 0 ≤ m ∧ ∃ k, k < w.syncs.length ∧ m < h.next k

/-- The calls of the run that concern the folder see the mailbox, and none of their
windows reaches past it. -/
structure Serves (h : MailboxHistory) (account : AccountId) (name : String) (c : Call)
    (w u : World) : Prop where
  shows : c.req.isFor account name → ∀ k, h.Shows k (c.env.session k)
  within : ∀ k r, w.syncs.length ≤ k → u.syncs[k]? = some r → r.account = account →
    r.folder = name → h.Within k r

variable {c : Call} {w : World} {f : Folder} {t : Target} {server last : FolderSync}
  {recs : List SyncRecord} {rows : List Message}

/-- With one validity throughout, a call never wipes the folder. -/
theorem resyncs_eq_false (hinv : MarkInv h w f) (hfolder : t.folder = f)
    (hshows : ∀ k, h.Shows k (c.env.session k)) : resyncs c.env t w = false := by
  unfold resyncs
  cases hanswer : (firstCall c.env t w).answer with
  | error e => rfl
  | ok server =>
    obtain ⟨mb, hselect, hvalidity, -⟩ := answer_validity hanswer
    show needsFullResync t.folder server = false
    unfold needsFullResync
    rw [hfolder]
    split
    · next stored reported hstored hreported =>
      have hv := (hshows _).validity mb hselect reported (hvalidity.symm.trans hreported)
      have hs := hinv.validity stored hstored
      simp [hs, hv]
    · rfl

/-- A call that stored a state started right above the old mark. -/
structure StoresPlain (mail : MailCrate) (c : Call) (w : World) (f : Folder) (t : Target)
    (server : FolderSync) (recs : List SyncRecord) : Prop where
  answer : (firstCall c.env t w).answer = .ok server
  chained : Chained c.env c.req.account c.req.folderName (w.syncs.length + 1) server recs
  syncs : (c.apply mail w).syncs = w.syncs ++ firstCall c.env t w :: recs
  mark : markAfter c.env t w server recs = (answers server recs).foldl highWater f.lastSeenUid

theorem Stores.plain (hstores : Stores mail c w f t server recs rows last)
    (hresync : resyncs c.env t w = false) : StoresPlain mail c w f t server recs := by
  have hopening : opening c.env t w = [firstCall c.env t w] := by
    unfold opening
    rw [hresync]
    rfl
  obtain ⟨haccount, -, hname⟩ := hstores.found.isFor
  obtain ⟨rec, hlast, hanswer⟩ := hstores.drains.opened
  rw [hopening] at hlast
  obtain rfl : firstCall c.env t w = rec := Option.some.inj hlast
  refine ⟨hanswer, ?_, ?_, ?_⟩
  · have hchained := hstores.drains.chained
    rwa [hopening, haccount, hname] at hchained
  · rw [hstores.drains.syncs, hopening]
    rfl
  · unfold markAfter startMark
    rw [hresync, hstores.folder]
    rfl

/-- The calls of the loop, by their place in the history. -/
theorem StoresPlain.at (hplain : StoresPlain mail c w f t server recs) {j : Nat} {rec : SyncRecord}
    (hj : (firstCall c.env t w :: recs)[j]? = some rec) :
    (c.apply mail w).syncs[w.syncs.length + j]? = some rec := by
  rw [hplain.syncs, List.getElem?_append_right (Nat.le_add_right _ _),
    Nat.add_sub_cancel_left]
  exact hj

/-- The calls of the loop concern the folder. -/
theorem StoresPlain.names (hplain : StoresPlain mail c w f t server recs)
    (hfound : Found w c.req t) (hfor : c.req.isFor account name) :
    ∀ rec ∈ firstCall c.env t w :: recs, rec.account = account ∧ rec.folder = name := by
  obtain ⟨haccount, -, hname⟩ := hfound.isFor
  have hchained := hplain.chained
  rw [hfor.1, hfor.2] at hchained
  rw [hfor.1] at haccount
  rw [hfor.2] at hname
  intro rec hrec
  rcases List.mem_cons.mp hrec with rfl | hmem
  · exact ⟨haccount, hname⟩
  · obtain ⟨j, hj⟩ := List.mem_iff_getElem?.mp hmem
    exact (chained_recorded hchained j rec hj).2

/-- The first call starts at most at the UID to be assigned next. -/
theorem startUid_le_next (hinv : MarkInv h w f) :
    (startUid f).toNat ≤ h.next w.syncs.length := by
  have hpos := h.next_pos w.syncs.length
  rw [toNat_startUid]
  cases hm : f.lastSeenUid with
  | none =>
    show min (min 0 u32Max + 1) u32Max ≤ _
    omega
  | some m =>
    obtain ⟨hnonneg, k, hk, hlt⟩ := hinv.mark m hm
    have hmono : h.next k ≤ h.next w.syncs.length := h.next_mono hk.le
    show min (min m.toNat u32Max + 1) u32Max ≤ _
    omega

/-- The mark that a call stores lies below the UID the server would assign next at
the call's last connection. -/
theorem mark_of_stores (hinv : MarkInv h w f) (hstores : Stores mail c w f t server recs rows last)
    (hfor : c.req.isFor account name) (hserves : Serves h account name c w (c.apply mail w)) :
    ∃ m, markAfter c.env t w server recs = some m ∧ 0 ≤ m ∧
      m < h.next ((c.apply mail w).syncs.length - 1) := by
  have hshows := hserves.shows hfor
  have hplain := hstores.plain (resyncs_eq_false hinv hstores.folder hshows)
  have hlen : (c.apply mail w).syncs.length - 1 = w.syncs.length + recs.length := by
    rw [hplain.syncs, List.length_append, List.length_cons]
    omega
  have hwithin : ∀ j rec, (firstCall c.env t w :: recs)[j]? = some rec →
      h.Within (w.syncs.length + j) rec := by
    intro j rec hj
    obtain ⟨haccount, hname⟩ := hplain.names hstores.found hfor rec (List.mem_of_getElem? hj)
    exact hserves.within _ rec (Nat.le_add_right _ _) (hplain.at hj) haccount hname
  have hfrom : (firstCall c.env t w).fromUid.toNat ≤ h.next w.syncs.length := by
    show (startUid t.folder).toNat ≤ _
    rw [hstores.folder]
    exact startUid_le_next hinv
  have hbelow := chained_lt_next hshows hplain.chained rfl hplain.answer hfrom hwithin
  obtain ⟨m, hm⟩ := highWater_isSome f.lastSeenUid server
    (recs.filterMap fun r => r.answer.toOption)
  have hm' : (answers server recs).foldl highWater f.lastSeenUid = some m := hm
  obtain ⟨horigin, -, hraises⟩ := foldl_highWater hm'
  refine ⟨m, hplain.mark.trans hm', ?_, ?_⟩
  · have hle := hraises server List.mem_cons_self _ (.inl rfl)
    omega
  · rw [hlen]
    rcases horigin with hstart | ⟨a, ha, hraise⟩
    · obtain ⟨-, k, hk, hlt⟩ := hinv.mark m hstart
      have hmono : h.next k ≤ h.next (w.syncs.length + recs.length) := h.next_mono (by omega)
      omega
    · exact hbelow a ha m hraise

/-- The validity that a call stores is the mailbox's. -/
theorem validity_of_stores (hinv : MarkInv h w f)
    (hstores : Stores mail c w f t server recs rows last)
    (hshows : ∀ k, h.Shows k (c.env.session k)) {v : UInt32} (hv : last.uidValidity = some v) :
    v = h.validity := by
  have hplain := hstores.plain (resyncs_eq_false hinv hstores.folder hshows)
  have hmem : last ∈ answers server recs := List.mem_of_getLast? hstores.completed.isLast
  obtain ⟨j, rec, -, hsession, hanswer⟩ :=
    answer_of_chained hplain.chained rfl hplain.answer last hmem
  obtain ⟨mb, hselect, hvalidity, -⟩ := answer_validity hanswer
  rw [hsession] at hselect
  exact (hshows _).validity mb hselect v (hvalidity.symm.trans hv)

/-- One call keeps the invariant, whichever folder it is for and however it ends. -/
theorem MarkInv.step (hf : Folders.getByName w.db account name = some f) (hinv : MarkInv h w f)
    (hserves : Serves h account name c w (c.apply mail w)) :
    ∃ f', Folders.getByName (c.apply mail w).db account name = some f' ∧
      MarkInv h (c.apply mail w) f' := by
  have hgrow : w.syncs.length ≤ (c.apply mail w).syncs.length :=
    (syncs_after_call mail c w).length_le
  rcases folder_after_call mail c w hf with ⟨hsame, -⟩ |
    ⟨hfor, t, server, recs, rows, last, hstores, hget⟩
  · refine ⟨f, hsame, hinv.validity, ?_⟩
    intro m hm
    obtain ⟨hnonneg, k, hk, hlt⟩ := hinv.mark m hm
    exact ⟨hnonneg, k, by omega, hlt⟩
  · refine ⟨_, hget, ?_, ?_⟩
    · intro v hv
      cases hlast : last.uidValidity with
      | none =>
        refine hinv.validity v ?_
        simpa [stamp, widen, hlast] using hv
      | some reported =>
        have heq := validity_of_stores hinv hstores (hserves.shows hfor) hlast
        have hv' : (reported.toNat : Int) = v := by simpa [stamp, widen, hlast] using hv
        rw [← hv', heq]
    · intro m hm
      obtain ⟨m', hmark, hnonneg, hlt⟩ := mark_of_stores hinv hstores hfor hserves
      have hm' : m' = m := by simpa [stamp, hmark] using hm
      rw [← hm']
      have hpos : 0 < (c.apply mail w).syncs.length := by
        have hplain := hstores.plain (resyncs_eq_false hinv hstores.folder (hserves.shows hfor))
        rw [hplain.syncs, List.length_append, List.length_cons]
        omega
      exact ⟨hnonneg, _, by omega, hlt⟩

/-! ## Whole runs -/

/-- Every call of the run that concerns the folder sees the mailbox, and none of
their windows reaches past it. -/
structure RunServes (h : MailboxHistory) (account : AccountId) (name : String) (mail : MailCrate)
    (w : World) (calls : List Call) : Prop where
  shows : ∀ c ∈ calls, c.req.isFor account name → ∀ k, h.Shows k (c.env.session k)
  within : ∀ k r, w.syncs.length ≤ k → (afterCalls mail w calls).syncs[k]? = some r →
    r.account = account → r.folder = name → h.Within k r

/-- A server that always advertises `UIDNEXT` keeps every window inside the mailbox. -/
theorem RunServes.of_advertised {calls : List Call}
    (hshows : ∀ c ∈ calls, c.req.isFor account name → ∀ k, h.Shows k (c.env.session k))
    (hnext : ∀ c ∈ calls, ∀ k mb, (c.env.session k).select = .ok mb → mb.uidNext ≠ none) :
    RunServes h account name mail w calls where
  shows := hshows
  within := by
    intro k r hk hr _ _ mb hselect hnone
    obtain ⟨c, hc, hsession, -⟩ := recorded_afterCalls hk hr
    rw [hsession] at hselect
    exact absurd hnone (hnext c hc k mb hselect)

/-- The last window of a loop ends with the highest assigned UID. -/
theorem windowHi_of_next {r : SyncRecord} (hanswer : r.answer = .ok server)
    (hended : server.hasMore = false) {n : UInt32} (hn : server.uidNext = some n) :
    n.toNat - 1 ≤ server.windowHi.toNat := by
  obtain ⟨mailbox, -, ⟨hi, hwindow, hserver, -⟩ |
    ⟨lo, hi, more, stream, hwindow, -, -, hserver, -⟩⟩ := syncFolder_ok hanswer
  · rw [hserver] at hn ⊢
    have heq := (window_caughtUp_of_next hn hwindow).1
    show n.toNat - 1 ≤ hi.toNat
    omega
  · rw [hserver] at hn hended ⊢
    obtain ⟨-, -, -, -, hmore⟩ := window_range_of_next hn hwindow
    obtain rfl : more = false := hended
    rw [if_neg Bool.false_ne_true] at hmore
    show n.toNat - 1 ≤ hi.toNat
    omega

/-- A call stays in the history at its place. -/
theorem getElem?_of_longer {w u : World} (hlonger : w.syncs <+: u.syncs) {k : Nat}
    {r : SyncRecord} (hr : w.syncs[k]? = some r) : u.syncs[k]? = some r := by
  obtain ⟨later, hlater⟩ := hlonger
  have hlt : k < w.syncs.length := (List.getElem?_eq_some_iff.mp hr).1
  rw [← hlater, List.getElem?_append_left hlt]
  exact hr

theorem RunServes.cons {rest : List Call} (hrun : RunServes h account name mail w (c :: rest)) :
    Serves h account name c w (c.apply mail w) ∧
      RunServes h account name mail (c.apply mail w) rest := by
  have hgrow := (syncs_after_call mail c w).length_le
  refine ⟨⟨hrun.shows c List.mem_cons_self, ?_⟩, ?_, ?_⟩
  · intro k r hk hr
    exact hrun.within k r hk (getElem?_of_longer (syncs_afterCalls mail (c.apply mail w) rest) hr)
  · exact fun c' hc' => hrun.shows c' (List.mem_cons_of_mem _ hc')
  · exact fun k r hk hr => hrun.within k r (hgrow.trans hk) hr

theorem RunServes.append {calls later : List Call}
    (hrun : RunServes h account name mail w (calls ++ later)) :
    RunServes h account name mail w calls ∧
      RunServes h account name mail (afterCalls mail w calls) later := by
  have hgrow := (syncs_afterCalls mail w calls).length_le
  have happend := afterCalls_append mail w calls later
  refine ⟨⟨?_, ?_⟩, ?_, ?_⟩
  · exact fun c' hc' => hrun.shows c' (List.mem_append_left _ hc')
  · intro k r hk hr
    refine hrun.within k r hk ?_
    rw [happend]
    exact getElem?_of_longer (syncs_afterCalls mail _ later) hr
  · exact fun c' hc' => hrun.shows c' (List.mem_append_right _ hc')
  · intro k r hk hr
    refine hrun.within k r (hgrow.trans hk) ?_
    rw [happend]
    exact hr

theorem MarkInv.run {calls : List Call} (hf : Folders.getByName w.db account name = some f)
    (hinv : MarkInv h w f) (hrun : RunServes h account name mail w calls) :
    ∃ f', Folders.getByName (afterCalls mail w calls).db account name = some f' ∧
      MarkInv h (afterCalls mail w calls) f' := by
  induction calls generalizing w f with
  | nil => exact ⟨f, hf, hinv⟩
  | cons c rest ih =>
    obtain ⟨hserves, hrest⟩ := hrun.cons
    obtain ⟨f', hf', hinv'⟩ := hinv.step hf hserves
    exact ih hf' hinv' hrest

/-- A call for the folder that came after the first `since` calls asked for the UID. -/
def AskedSince (account : AccountId) (name : String) (since : Nat) (w : World) (uid : Nat) : Prop :=
  ∃ k r, since ≤ k ∧ w.syncs[k]? = some r ∧ r.account = account ∧ r.folder = name ∧ Asks r uid

/-- A call whose mark starts below a UID that stays in the mailbox asks for it, or
leaves the mark below it; then no answer at its end announced the UID. -/
theorem asked_or_below_of_stores (hinv : MarkInv h w f) (hserves :
    Serves h account name c w (c.apply mail w)) (hfor : c.req.isFor account name)
    (hstores : Stores mail c w f t server recs rows last) {uid : Nat} (hpos : 1 ≤ uid)
    (hstays : ∀ k, uid < h.next k → h.present k uid) (hbelow : BelowUid f uid) :
    AskedSince account name w.syncs.length (c.apply mail w) uid ∨
      BelowUid (stamp last (markAfter c.env t w server recs) f) uid ∧
        ∀ n, last.uidNext = some n → n.toNat ≤ uid := by
  have hshows := hserves.shows hfor
  have hplain := hstores.plain (resyncs_eq_false hinv hstores.folder hshows)
  have hfrom : (firstCall c.env t w).fromUid.toNat ≤ uid := by
    show (startUid t.folder).toNat ≤ uid
    rw [hstores.folder, toNat_startUid]
    cases hm : f.lastSeenUid with
    | none =>
      show min (min 0 u32Max + 1) u32Max ≤ _
      omega
    | some m =>
      have hlt := hbelow m hm
      obtain ⟨hnonneg, -⟩ := hinv.mark m hm
      show min (min m.toNat u32Max + 1) u32Max ≤ _
      omega
  have hhonest : ∀ rec ∈ firstCall c.env t w :: recs, Honest rec.session uid := by
    intro rec hrec
    rcases List.mem_cons.mp hrec with rfl | hmem
    · exact (hshows _).honest (hstays _)
    · obtain ⟨j, hj⟩ := List.mem_iff_getElem?.mp hmem
      rw [(chained_recorded hplain.chained j rec hj).1]
      exact (hshows _).honest (hstays _)
  rcases chained_asks_or_below hplain.chained hplain.answer hhonest hpos hfrom with
    ⟨rec, hrec, hasks⟩ | hall
  · left
    obtain ⟨haccount, hname⟩ := hplain.names hstores.found hfor rec hrec
    obtain ⟨j, hj⟩ := List.mem_iff_getElem?.mp hrec
    exact ⟨_, rec, Nat.le_add_right _ j, hplain.at hj, haccount, hname, hasks⟩
  · right
    have hmem : last ∈ answers server recs := List.mem_of_getLast? hstores.completed.isLast
    constructor
    · intro m hm
      rw [stamp, hplain.mark] at hm
      cases hfold : (answers server recs).foldl highWater f.lastSeenUid with
      | none =>
        obtain ⟨m', hm'⟩ := highWater_isSome f.lastSeenUid server
          (recs.filterMap fun r => r.answer.toOption)
        exact absurd (hfold.symm.trans hm') (by simp)
      | some m' =>
        obtain rfl : m' = m := by simpa [hfold] using hm
        obtain ⟨hstart | ⟨a, ha, hraise⟩, -, -⟩ := foldl_highWater hfold
        · exact hbelow m' hstart
        · exact hall a ha m' hraise
    · intro n hn
      have hlt := hall last hmem _ (.inl rfl)
      obtain ⟨j, rec, -, -, hanswer⟩ :=
        answer_of_chained hplain.chained rfl hplain.answer last hmem
      have hle := windowHi_of_next hanswer hstores.completed.ended hn
      omega

theorem AskedSince.mono {since since' : Nat} {w u : World} {uid : Nat}
    (hasked : AskedSince account name since w uid) (hle : since' ≤ since)
    (hlonger : w.syncs <+: u.syncs) : AskedSince account name since' u uid := by
  obtain ⟨k, r, hk, hr, hrest⟩ := hasked
  exact ⟨k, r, hle.trans hk, getElem?_of_longer hlonger hr, hrest⟩

/-- A UID that comes in later is asked for, or the mark is still below it. -/
theorem asked_or_below_run {calls : List Call} {uid : Nat}
    (hf : Folders.getByName w.db account name = some f) (hinv : MarkInv h w f)
    (hrun : RunServes h account name mail w calls) (hpos : 1 ≤ uid)
    (hstays : ∀ k, uid < h.next k → h.present k uid) (hbelow : BelowUid f uid) :
    AskedSince account name w.syncs.length (afterCalls mail w calls) uid ∨
      ∃ f', Folders.getByName (afterCalls mail w calls).db account name = some f' ∧
        BelowUid f' uid := by
  induction calls generalizing w f with
  | nil => exact .inr ⟨f, hf, hbelow⟩
  | cons c rest ih =>
    obtain ⟨hserves, hrest⟩ := hrun.cons
    obtain ⟨f', hf', hinv'⟩ := hinv.step hf hserves
    have hgrow := (syncs_after_call mail c w).length_le
    have hnext : AskedSince account name w.syncs.length (c.apply mail w) uid ∨ BelowUid f' uid := by
      rcases folder_after_call mail c w hf with ⟨hsame, -⟩ |
        ⟨hfor, t, server, recs, rows, last, hstores, hget⟩
      · obtain rfl : f = f' := Option.some.inj (hsame.symm.trans hf')
        exact .inr hbelow
      · obtain rfl := Option.some.inj (hget.symm.trans hf')
        exact (asked_or_below_of_stores hinv hserves hfor hstores hpos hstays hbelow).imp_right
          And.left
    rcases hnext with hasked | hbelow'
    · exact .inl (hasked.mono (Nat.le_refl _) (syncs_afterCalls mail _ rest))
    · rcases ih hf' hinv' hrest hbelow' with hasked | hfound
      · exact .inl (hasked.mono hgrow List.prefix_rfl)
      · exact .inr hfound

/-- The last call of a completed loop is the one with the last answer. -/
theorem getLast?_answer {r : SyncRecord} (hanswer : r.answer = .ok server)
    (hall : ∀ rec ∈ recs, ∃ a, rec.answer = .ok a)
    (hlast : (answers server recs).getLast? = some last) :
    ∃ rec, (r :: recs).getLast? = some rec ∧ rec.answer = .ok last := by
  induction recs generalizing r server with
  | nil =>
    obtain rfl : server = last := Option.some.inj hlast
    exact ⟨r, rfl, hanswer⟩
  | cons next rest ih =>
    obtain ⟨a, ha⟩ := hall next List.mem_cons_self
    rw [answers_cons_ok ha] at hlast
    have hlast' : (answers a rest).getLast? = some last := hlast
    obtain ⟨rec, hrec, hans⟩ := ih ha (fun rec hrec => hall rec (List.mem_cons_of_mem _ hrec)) hlast'
    exact ⟨rec, hrec, hans⟩

/-- The server's answer to the last call so far announced the UID. -/
def Announced (w : World) (uid : Nat) : Prop :=
  ∃ r mb n, w.syncs.getLast? = some r ∧ r.session.select = .ok mb ∧ mb.uidNext = some n ∧
    uid < n.toNat

/-- After a call that returned well and was told of the UID, the UID was asked for. -/
theorem asked_of_announced {rep : ReconcileReport} {uid : Nat}
    (hf : Folders.getByName w.db account name = some f) (hinv : MarkInv h w f)
    (hserves : Serves h account name c w (c.apply mail w)) (hfor : c.req.isFor account name)
    (hok : c.result mail w = .ok rep) (hpos : 1 ≤ uid)
    (hstays : ∀ k, uid < h.next k → h.present k uid) (hbelow : BelowUid f uid)
    (hannounced : Announced (c.apply mail w) uid) :
    AskedSince account name w.syncs.length (c.apply mail w) uid := by
  rcases folder_after_call mail c w hf with ⟨-, hnot⟩ |
    ⟨-, t, server, recs, rows, last, hstores, -⟩
  · exact absurd hfor (hnot rep hok)
  · rcases asked_or_below_of_stores hinv hserves hfor hstores hpos hstays hbelow with
      hasked | ⟨-, hnext⟩
    · exact hasked
    · obtain ⟨r, mb, n, hr, hselect, hn, hlt⟩ := hannounced
      have hplain := hstores.plain (resyncs_eq_false hinv hstores.folder (hserves.shows hfor))
      obtain ⟨rec, hrec, hanswer⟩ := getLast?_answer hplain.answer hstores.completed.answered
        hstores.completed.isLast
      have hsame : rec = r := by
        rw [hplain.syncs, List.getLast?_append, hrec] at hr
        exact Option.some.inj hr
      obtain ⟨mb', hselect', -, huidNext⟩ := answer_validity hanswer
      rw [hsame, hselect] at hselect'
      obtain rfl : mb = mb' := Except.ok.inj hselect'
      have hle := hnext n (huidNext.trans hn)
      omega

/-- Runs in which no window reaches past the mailbox: after every call for the
folder that returns well, the stored mark is below every UID assigned later; such a
message is asked for before the mark passes it, and at the latest by a later call
that returns well and is told of it. -/
theorem later_mail_is_asked_for (hf : Folders.getByName w.db account name = some f)
    (hmark : f.lastSeenUid = none) (hvalidity : f.uidValidity = none)
    {before later : List Call} (hrun : RunServes h account name mail w (before ++ c :: later))
    (hfor : c.req.isFor account name) {rep : ReconcileReport}
    (hok : c.result mail (afterCalls mail w before) = .ok rep) :
    ∃ f₁ m₁, Folders.getByName (afterCalls mail w (before ++ [c])).db account name = some f₁ ∧
      f₁.lastSeenUid = some m₁ ∧
      ∀ uid, h.next ((afterCalls mail w (before ++ [c])).syncs.length - 1) ≤ uid →
        m₁ < uid ∧ ((∀ k, uid < h.next k → h.present k uid) →
          (AskedSince account name (afterCalls mail w (before ++ [c])).syncs.length
              (afterCalls mail w (before ++ c :: later)) uid ∨
            ∃ f₂, Folders.getByName (afterCalls mail w (before ++ c :: later)).db account name =
              some f₂ ∧ BelowUid f₂ uid) ∧
          ∀ mid c' rep', later = mid ++ [c'] → c'.req.isFor account name →
            c'.result mail (afterCalls mail w (before ++ c :: mid)) = .ok rep' →
            Announced (afterCalls mail w (before ++ c :: later)) uid →
            AskedSince account name (afterCalls mail w (before ++ [c])).syncs.length
              (afterCalls mail w (before ++ c :: later)) uid) := by
  have hinv₀ : MarkInv h w f := by
    refine ⟨fun v hv => ?_, fun m hm => ?_⟩
    · rw [hvalidity] at hv
      cases hv
    · rw [hmark] at hm
      cases hm
  obtain ⟨hbefore, hrest⟩ := hrun.append
  obtain ⟨f₀, hf₀, hinv⟩ := hinv₀.run hf hbefore
  obtain ⟨hserves, hlater⟩ := hrest.cons
  have hone : afterCalls mail w (before ++ [c]) = c.apply mail (afterCalls mail w before) :=
    afterCalls_append mail w before [c]
  have hafter : ∀ calls, afterCalls mail w (before ++ c :: calls) =
      afterCalls mail (c.apply mail (afterCalls mail w before)) calls := by
    intro calls
    rw [afterCalls_append]
    rfl
  rw [hone, hafter later]
  generalize afterCalls mail w before = w₀ at *
  rcases folder_after_call mail c w₀ hf₀ with ⟨-, hnot⟩ |
    ⟨-, t, server, recs, rows, last, hstores, hget⟩
  · exact absurd hfor (hnot rep hok)
  · obtain ⟨m, hm, hnonneg, hlt⟩ := mark_of_stores hinv hstores hfor hserves
    obtain ⟨f₁, hf₁, hinv₁⟩ := hinv.step hf₀ hserves
    obtain rfl := Option.some.inj (hget.symm.trans hf₁)
    have hlast : (stamp last (markAfter c.env t w₀ server recs) f₀).lastSeenUid = some m := by
      rw [stamp, hm]
      rfl
    refine ⟨_, m, hget, hlast, ?_⟩
    intro uid huid
    have hbelow : BelowUid (stamp last (markAfter c.env t w₀ server recs) f₀) uid := by
      intro m' hm'
      obtain rfl : m = m' := Option.some.inj (hlast.symm.trans hm')
      omega
    have hpos : 1 ≤ uid := (h.next_pos _).trans huid
    refine ⟨by omega, fun hstays => ⟨asked_or_below_run hget hinv₁ hlater hpos hstays hbelow, ?_⟩⟩
    intro mid c' rep' hmid hfor' hok' hannounced
    rw [hmid, afterCalls_append] at hannounced ⊢
    rw [hmid] at hlater
    rw [hafter mid] at hok'
    obtain ⟨hmidRun, hlastRun⟩ := hlater.append
    have hgrow := (syncs_afterCalls mail (c.apply mail w₀) mid).length_le
    rcases asked_or_below_run hget hinv₁ hmidRun hpos hstays hbelow with hasked | ⟨f₂, hf₂, hbelow₂⟩
    · exact hasked.mono (Nat.le_refl _) (syncs_afterCalls mail _ [c'])
    · obtain ⟨f₃, hf₃, hinv₃⟩ := hinv₁.run hget hmidRun
      obtain rfl : f₂ = f₃ := Option.some.inj (hf₂.symm.trans hf₃)
      exact (asked_of_announced hf₂ hinv₃ hlastRun.cons.1 hfor' hok' hpos hstays hbelow₂
        hannounced).mono hgrow List.prefix_rfl

/-! ## A mailbox that gets a second message -/

/-- One message at the first connection, two at the later ones. -/
def growingMessages (k : Nat) : List ServerMessage :=
  if k = 0 then [⟨1, [], some 0, idMessage "a"⟩]
  else [⟨1, [], some 0, idMessage "a"⟩, ⟨2, [], some 0, idMessage "b"⟩]

def growingNext (k : Nat) : Nat := if k = 0 then 2 else 3

theorem growing_lt (k : Nat) : ∀ m ∈ growingMessages k, m.uid.toNat < growingNext k := by
  unfold growingMessages growingNext
  split_ifs <;> decide

/-- The mailbox, on a server that advertises `UIDNEXT` or not. -/
def growing (advertised : Bool) (k : Nat) : ServerMailbox where
  uidValidity := some 7
  uidNext := bif advertised then some (UInt32.ofNat (growingNext k)) else none
  messages := growingMessages k
  uids_nodup := by
    unfold growingMessages
    split_ifs <;> decide
  uids_pos := by
    unfold growingMessages
    split_ifs <;> decide
  uids_lt := by
    intro n hn
    unfold growingMessages
    unfold growingNext at hn
    cases advertised with
    | false => cases hn
    | true =>
      obtain rfl := Option.some.inj hn
      split_ifs <;> decide

def growingHistory (advertised : Bool) : MailboxHistory :=
  .ofContent 7 growingNext (growing advertised)
    (by
      intro j k hle
      unfold growingNext
      split_ifs <;> omega)
    (by
      intro k
      unfold growingNext
      split_ifs <;> decide)
    growing_lt

theorem growing_shows (advertised : Bool) (k : Nat) :
    (growingHistory advertised).Shows k (growing advertised k).session := by
  refine MailboxHistory.ofContent_shows ?_ ?_
  · intro v hv
    exact (Option.some.inj hv).symm
  · intro n hn
    cases advertised with
    | false => cases hn
    | true =>
      rw [← Option.some.inj hn]
      unfold growingNext
      split_ifs <;> decide

def growingCall (advertised : Bool) : Call :=
  .calm "INBOX" fun k => (growing advertised k).session

theorem second_message_is_asked_for :
    ∃ f₁ m₁, Folders.getByName (afterCalls .idOnly .small [growingCall true]).db 0 "INBOX" =
        some f₁ ∧ f₁.lastSeenUid = some m₁ ∧ m₁ < 2 ∧
      AskedSince 0 "INBOX" 1 (afterCalls .idOnly .small [growingCall true, growingCall true]) 2 := by
  have hrun : RunServes (growingHistory true) 0 "INBOX" .idOnly .small
      ([] ++ growingCall true :: [growingCall true]) := by
    refine .of_advertised ?_ ?_
    · intro c hc _ k
      obtain rfl : c = growingCall true := by simpa using hc
      exact growing_shows true k
    · intro c hc k mb hselect
      obtain rfl : c = growingCall true := by simpa using hc
      obtain rfl : (growing true k).selected = mb := Except.ok.inj hselect
      exact Option.some_ne_none _
  have hok : (growingCall true).result .idOnly (afterCalls .idOnly .small []) =
      .ok ⟨1, 1, 0, some 7, some 2, some 1⟩ := by decide
  have hok' : (growingCall true).result .idOnly
      (afterCalls .idOnly .small ([] ++ growingCall true :: [])) =
      .ok ⟨1, 1, 0, some 7, some 3, some 2⟩ := by decide
  obtain ⟨f₁, m₁, hf₁, hm₁, hall⟩ := later_mail_is_asked_for (c := growingCall true)
    (show Folders.getByName World.small.db 0 "INBOX" =
      some ⟨1, 0, "INBOX", .inbox, none, none, none⟩ by decide) rfl rfl hrun ⟨rfl, rfl⟩ hok
  have hlen : (afterCalls .idOnly .small [growingCall true]).syncs.length = 1 := by decide
  have hlen' : (afterCalls .idOnly .small
      [growingCall true, growingCall true]).syncs.length = 2 := by decide
  obtain ⟨hlt, hrest⟩ := hall 2 (by
    show (growingHistory true).next ((afterCalls .idOnly .small [growingCall true]).syncs.length - 1)
      ≤ 2
    rw [hlen]
    decide)
  have hstays : ∀ k, 2 < (growingHistory true).next k → (growingHistory true).present k 2 := by
    intro k hk
    by_cases hzero : k = 0
    · rw [hzero] at hk
      exact absurd hk (by decide)
    · refine ⟨⟨2, [], some 0, idMessage "b"⟩, ?_, rfl⟩
      show _ ∈ growingMessages k
      unfold growingMessages
      rw [if_neg hzero]
      exact List.mem_cons_of_mem _ List.mem_cons_self
  have hannounced : Announced (afterCalls .idOnly .small
      ([] ++ growingCall true :: [growingCall true])) 2 := by
    have hget : ∃ r, (afterCalls .idOnly .small
        [growingCall true, growingCall true]).syncs[1]? = some r :=
      ⟨_, List.getElem?_eq_getElem (by rw [hlen']; decide)⟩
    obtain ⟨r, hr⟩ := hget
    obtain ⟨c, hc, hsession, -⟩ := recorded_afterCalls (Nat.zero_le 1) hr
    obtain rfl : c = growingCall true := by simpa using hc
    refine ⟨r, (growing true 1).selected, 3, ?_, ?_, rfl, by decide⟩
    · show List.getLast? (afterCalls .idOnly .small
        [growingCall true, growingCall true]).syncs = some r
      rw [List.getLast?_eq_getElem?, hlen']
      exact hr
    · rw [hsession]
      rfl
  have hasked := (hrest hstays).2 [] (growingCall true) _ rfl ⟨rfl, rfl⟩ hok' hannounced
  refine ⟨f₁, m₁, hf₁, hm₁, by omega, ?_⟩
  have hone : (afterCalls .idOnly .small ([] ++ [growingCall true])).syncs.length = 1 := hlen
  rw [hone] at hasked
  exact hasked

/-- Without `UIDNEXT` the first call stores the mark 500, and the second message,
which comes in later under UID 2, is in no range asked for. -/
theorem second_message_is_passed_over :
    (∀ k, (growingHistory false).Shows k ((growingCall false).env.session k)) ∧
      (growingHistory false).next 0 = 2 ∧ (growingHistory false).present 1 2 ∧
      (growingCall false).result .idOnly .small = .ok ⟨1, 1, 0, some 7, none, some 500⟩ ∧
      (Folders.getByName (afterCalls .idOnly .small [growingCall false]).db 0 "INBOX").bind
        (·.lastSeenUid) = some 500 ∧
      (afterCalls .idOnly .small [growingCall false, growingCall false]).syncs.map (·.range) =
        [some (1, 500), some (501, 1000)] := by
  refine ⟨growing_shows false, rfl, ?_, ?_, ?_, ?_⟩
  · exact ⟨⟨2, [], some 0, idMessage "b"⟩, List.mem_cons_of_mem _ List.mem_cons_self, rfl⟩
  · decide
  · decide
  · decide

end Postblox.Sync
