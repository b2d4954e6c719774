import Postblox.Imap.Mailbox
import Postblox.Sync.CleanCalls
import Postblox.Sync.HighWater

/-!
# Calls on a mailbox that stays as it is

A call on such a mailbox fetches from `fetchStart` on. Once it has stored the UID
state, the folder holds the rows it kept and one row for every readable message
that was asked for. Without failures it comes that far exactly when no message
clashes.
-/
namespace Postblox.Sync

open Lib Db Imap Mail Attachments

/-- How many rows of the folder have the UID. -/
def rowsOf (db : Database) (folder : FolderId) (uid : Int) : Nat :=
  db.messages.countP fun m => m.folderId = folder ∧ m.uid = uid

theorem rowsOf_eq_one {db : Database} {folder : FolderId} {uid : Int} :
    rowsOf db folder uid = 1 ↔ Messages.UidTaken db folder uid := by
  have hkey : rowsOf db folder uid =
      db.messages.countP fun m => m.uidKey = some (folder, uid) := by
    refine List.countP_congr fun m _ => ?_
    simp [NewMessage.uidKey]
  constructor
  · intro hone
    have hpos : 0 < rowsOf db folder uid := by omega
    obtain ⟨m, hm, hrow⟩ := List.countP_pos_iff.mp hpos
    exact ⟨m, hm, of_decide_eq_true hrow⟩
  · intro ⟨m, hm, hfolder, huid⟩
    rw [hkey]
    refine db.wf.messageUids.countP_eq_one hm ?_
    rw [← hfolder, ← huid]
    rfl

/-- The mailbox reports another validity than the stored one. -/
def Changed (f : Folder) (mb : ServerMailbox) : Bool :=
  match f.uidValidity, mb.uidValidity with
  | some stored, some reported => stored ≠ (reported.toNat : Int)
  | _, _ => false

/-- Where a call starts to fetch. -/
def fetchStart (f : Folder) (mb : ServerMailbox) : UInt32 :=
  if Changed f mb then 1 else startUid f

/-- A call that starts at the UID asks for the message: with `UIDNEXT` for all from
there on, without it for 500 UIDs. -/
def Requested (mb : ServerMailbox) (start : UInt32) (m : ServerMessage) : Prop :=
  start.toNat ≤ m.uid.toNat ∧ (mb.uidNext = none → m.uid.toNat ≤ start.toNat + 499)

instance (mb : ServerMailbox) (start : UInt32) (m : ServerMessage) :
    Decidable (Requested mb start m) :=
  inferInstanceAs (Decidable (_ ∧ _))

variable {env : Env} {mail : MailCrate} {mb : ServerMailbox} {account : AccountId} {name : String}
  {server last : FolderSync} {recs : List SyncRecord} {r : SyncRecord} {n : Nat}

/-! ## Along the loop -/

theorem Answer.requested {fromUid : UInt32} (h : mb.Answer fromUid server)
    (hfrom : 1 ≤ fromUid.toNat) {m : FetchedMessage} (hm : m ∈ server.messages) :
    ∃ sm ∈ mb.messages, sm.fetched = m ∧ Requested mb fromUid sm := by
  obtain ⟨sm, hsm, heq, hge, hle⟩ := (h.messages m).mp hm
  refine ⟨sm, hsm, heq, hge, fun hnone => ?_⟩
  have hhi := (h.unknown hnone).2 (List.ne_nil_of_mem hsm)
  omega

/-- Only messages asked for arrive. -/
theorem chained_requested (hchained : Chained env account name n server recs)
    (htruthful : ∀ rec ∈ r :: recs, mb.Truthful rec.session) (hanswer : r.answer = .ok server)
    (hfrom : 1 ≤ r.fromUid.toNat) :
    ∀ a ∈ answers server recs, ∀ m ∈ a.messages,
      ∃ sm ∈ mb.messages, sm.fetched = m ∧ Requested mb r.fromUid sm := by
  have hhead := (htruthful r List.mem_cons_self).answer hanswer
  induction recs generalizing r server n with
  | nil =>
    intro a ha m hm
    rw [List.mem_singleton.mp ha] at hm
    exact Answer.requested hhead hfrom hm
  | cons next rest ih =>
    obtain ⟨hmore, hnext, hrest⟩ := hchained
    intro a ha m hm
    cases hnextAnswer : next.answer with
    | error e =>
      rw [hnextAnswer] at hrest
      have hanswers : answers server (next :: rest) = [server] := by
        rw [hrest]
        unfold answers
        rw [List.filterMap_cons, hnextAnswer]
        rfl
      rw [hanswers] at ha
      rw [List.mem_singleton.mp ha] at hm
      exact Answer.requested hhead hfrom hm
    | ok server' =>
      rw [hnextAnswer] at hrest
      rw [answers_cons_ok hnextAnswer] at ha
      rcases List.mem_cons.mp ha with rfl | hmem
      · exact Answer.requested hhead hfrom hm
      · -- a further window: there is a `UIDNEXT`, and the window starts higher
        obtain ⟨hle, -⟩ := answer_hasMore hanswer hmore
        have hstart : next.fromUid.toNat = server.windowHi.toNat + 1 := by
          rw [hnext]
          exact toNat_next hanswer hmore
        have htruthful' : ∀ rec ∈ next :: rest, mb.Truthful rec.session :=
          fun rec hrec => htruthful rec (List.mem_cons_of_mem _ hrec)
        obtain ⟨sm, hsm, heq, hge, -⟩ := ih hrest htruthful' hnextAnswer (by omega)
          ((htruthful' next List.mem_cons_self).answer hnextAnswer) a hmem m hm
        refine ⟨sm, hsm, heq, by omega, fun hnone => ?_⟩
        rw [(hhead.unknown hnone).1] at hmore
        cases hmore

/-- Every message asked for arrives. -/
theorem chained_covers (hchained : Chained env account name n server recs)
    (htruthful : ∀ rec ∈ r :: recs, mb.Truthful rec.session) (hanswer : r.answer = .ok server)
    (hfrom : 1 ≤ r.fromUid.toNat) (hanswered : ∀ rec ∈ recs, ∃ a, rec.answer = .ok a)
    (hlast : (answers server recs).getLast? = some last) (hended : last.hasMore = false)
    {sm : ServerMessage} (hsm : sm ∈ mb.messages) (hrequested : Requested mb r.fromUid sm) :
    ∃ a ∈ answers server recs, sm.fetched ∈ a.messages := by
  have hhead := (htruthful r List.mem_cons_self).answer hanswer
  induction recs generalizing r server n with
  | nil =>
    obtain rfl : server = last := Option.some.inj hlast
    refine ⟨server, List.mem_cons_self, (hhead.messages _).mpr ⟨sm, hsm, rfl, hrequested.1, ?_⟩⟩
    cases hnext : mb.uidNext with
    | none =>
      have hhi := (hhead.unknown hnext).2 (List.ne_nil_of_mem hsm)
      have hle := hrequested.2 hnext
      have hmax := toNat_le_u32Max sm.uid
      omega
    | some next =>
      have hhi := hhead.last next hnext hended
      have hlt := UInt32.lt_iff_toNat_lt.mp (mb.uids_lt next hnext sm hsm)
      omega
  | cons next rest ih =>
    by_cases hle : sm.uid.toNat ≤ server.windowHi.toNat
    · exact ⟨server, List.mem_cons_self, (hhead.messages _).mpr ⟨sm, hsm, rfl, hrequested.1, hle⟩⟩
    · obtain ⟨hmore, hnext, hrest⟩ := hchained
      obtain ⟨server', hnextAnswer⟩ := hanswered next List.mem_cons_self
      have hstart : next.fromUid.toNat = server.windowHi.toNat + 1 := by
        rw [hnext]
        exact toNat_next hanswer hmore
      have htruthful' : ∀ rec ∈ next :: rest, mb.Truthful rec.session :=
        fun rec hrec => htruthful rec (List.mem_cons_of_mem _ hrec)
      rw [hnextAnswer] at hrest
      rw [answers_cons_ok hnextAnswer] at hlast ⊢
      have hlast' : (answers server' rest).getLast? = some last := by
        rw [List.getLast?_cons] at hlast
        cases hrestLast : (answers server' rest).getLast? with
        | none => exact absurd (List.getLast?_eq_none_iff.mp hrestLast) (List.cons_ne_nil _ _)
        | some x =>
          rw [hrestLast] at hlast
          exact hlast
      have hrequested' : Requested mb next.fromUid sm := by
        refine ⟨by omega, fun hnone => ?_⟩
        rw [(hhead.unknown hnone).1] at hmore
        cases hmore
      obtain ⟨a, ha, hmem⟩ := ih hrest htruthful' hnextAnswer (by omega)
        (fun rec hrec => hanswered rec (List.mem_cons_of_mem _ hrec)) hlast' hrequested'
        ((htruthful' next List.mem_cons_self).answer hnextAnswer)
      exact ⟨a, List.mem_cons_of_mem _ ha, hmem⟩

/-- The answers to come hold different UIDs, from the start of the first window on. -/
theorem upcoming_nodup (htruthful : ∀ k, mb.Truthful (env.session k)) (fuel n : Nat)
    (hhead : mb.Answer r.fromUid server) (hanswer : r.answer = .ok server) :
    (((upcoming env.session fuel n server).flatMap (·.messages)).map uidOf).Nodup ∧
      ∀ a ∈ upcoming env.session fuel n server, ∀ m ∈ a.messages,
        ∃ sm ∈ mb.messages, sm.fetched = m ∧ r.fromUid.toNat ≤ m.uid.toNat := by
  induction fuel generalizing n server r with
  | zero => exact ⟨List.nodup_nil, fun _ h => nomatch h⟩
  | succ fuel ih =>
    have hown : (server.messages.map uidOf).Nodup := by
      have hmap : server.messages.map uidOf =
          (server.messages.map (·.uid)).map fun u => (u.toNat : Int) := by
        rw [List.map_map]
        rfl
      rw [hmap]
      refine hhead.nodup.map fun a b hab => ?_
      exact UInt32.toNat_inj.mp (Int.ofNat.inj hab)
    have hfirst : ∀ m ∈ server.messages,
        ∃ sm ∈ mb.messages, sm.fetched = m ∧ r.fromUid.toNat ≤ m.uid.toNat := by
      intro m hm
      obtain ⟨sm, hsm, rfl, hge, -⟩ := (hhead.messages m).mp hm
      exact ⟨sm, hsm, rfl, hge⟩
    unfold upcoming
    split_ifs with hmore
    · cases hnext : syncFolder (env.session n) (saturatingAdd server.windowHi 1) with
      | error e =>
        rw [List.flatMap_cons, List.flatMap_nil, List.append_nil]
        refine ⟨hown, ?_⟩
        intro a ha
        rw [List.mem_singleton.mp ha]
        exact hfirst
      | ok next =>
        obtain ⟨hle, -⟩ := answer_hasMore hanswer hmore
        have hstart := toNat_next hanswer hmore
        obtain ⟨hrest, hlater⟩ := ih (n + 1) (r := ⟨r.account, r.folder,
          saturatingAdd server.windowHi 1, env.session n⟩) ((htruthful n).answer hnext) hnext
        rw [List.flatMap_cons, List.map_append, List.nodup_append]
        refine ⟨⟨hown, hrest, ?_⟩, ?_⟩
        · intro x hx y hy heq
          obtain ⟨m, hm, rfl⟩ := List.mem_map.mp hx
          obtain ⟨m', hm', rfl⟩ := List.mem_map.mp hy
          obtain ⟨a, ha, hma⟩ := List.mem_flatMap.mp hm'
          obtain ⟨-, -, -, hge⟩ := hlater a ha m' hma
          obtain ⟨sm, -, rfl, -, hhi⟩ := (hhead.messages m).mp hm
          have heq' : (sm.uid.toNat : Int) = m'.uid.toNat := heq
          have hge' : (saturatingAdd server.windowHi 1).toNat ≤ m'.uid.toNat := hge
          omega
        · intro a ha m hm
          rcases List.mem_cons.mp ha with rfl | hmem
          · exact hfirst m hm
          · obtain ⟨sm, hsm, heq, hge⟩ := hlater a hmem m hm
            have hge' : (saturatingAdd server.windowHi 1).toNat ≤ m.uid.toNat := hge
            exact ⟨sm, hsm, heq, by omega⟩
    · rw [List.flatMap_cons, List.flatMap_nil, List.append_nil]
      refine ⟨hown, ?_⟩
      intro a ha
      rw [List.mem_singleton.mp ha]
      exact hfirst

/-! ## What a call leaves behind -/

variable {t : Target} {w u : World} {rows : List Message} {res : Except Stop ReconcileReport}
  {req : Request}

/-- The UIDs a call without failures leaves in the folder. -/
def Expected (mail : MailCrate) (mb : ServerMailbox) (f : Folder) (db : Database) (uid : Int) :
    Prop :=
  (Changed f mb = false ∧ Messages.UidTaken db f.id uid) ∨
    ∃ sm ∈ mb.messages, Ingestible mail sm.fetched ∧ Requested mb (fetchStart f mb) sm ∧
      (sm.uid.toNat : Int) = uid

/-- The first answer decides about the wipe as the mailbox does. -/
theorem resyncs_eq (htruthful : ∀ k, mb.Truthful (env.session k))
    (hfirst : (firstCall env t w).answer = .ok server) :
    resyncs env t w = Changed t.folder mb := by
  have hanswer : mb.Answer (startUid t.folder) server :=
    (htruthful w.syncs.length).answer (s := env.session w.syncs.length) hfirst
  unfold resyncs needsFullResync Changed
  rw [hfirst]
  dsimp only
  exact hanswer.validity ▸ rfl

/-- The call whose answer the loop starts from. -/
theorem Drains.opened_from (htruthful : ∀ k, mb.Truthful (env.session k))
    (hdrains : Drains mail env t w server recs rows res u) :
    ∃ rec, rec.answer = .ok server ∧ rec.fromUid = fetchStart t.folder mb ∧
      mb.Truthful rec.session ∧ 1 ≤ rec.fromUid.toNat ∧
      (opening env t w).getLast? = some rec := by
  obtain ⟨a, hfirst⟩ := hdrains.first
  obtain ⟨rec, hlast, hanswer⟩ := hdrains.opened
  have hresyncs := resyncs_eq htruthful hfirst
  refine ⟨rec, hanswer, ?_⟩
  unfold opening at hlast ⊢
  unfold fetchStart
  rw [← hresyncs]
  split_ifs at hlast ⊢
  · obtain rfl : secondCall env t w = rec := Option.some.inj hlast
    exact ⟨rfl, htruthful _, Nat.le_refl 1, rfl⟩
  · obtain rfl : firstCall env t w = rec := Option.some.inj hlast
    exact ⟨rfl, htruthful _, one_le_startUid t.folder, rfl⟩

theorem chained_truthful (htruthful : ∀ k, mb.Truthful (env.session k))
    (hchained : Chained env account name n server recs) :
    ∀ rec ∈ recs, mb.Truthful rec.session := by
  intro rec hrec
  obtain ⟨j, hj⟩ := List.mem_iff_getElem?.mp hrec
  rw [(chained_recorded hchained j rec hj).1]
  exact htruthful _

variable (env) in
theorem uidTaken_survivors (f : FolderId) (uid : Int) :
    (∃ m ∈ survivors env t w, m.folderId = f ∧ m.uid = uid) ↔
      (f = t.folder.id → resyncs env t w = false) ∧ Messages.UidTaken w.db f uid := by
  unfold survivors Messages.UidTaken
  split_ifs with hresync
  · simp only [List.mem_filter, Bool.not_eq_true', decide_eq_false_iff_not]
    constructor
    · rintro ⟨m, ⟨hm, hne⟩, hf, huid⟩
      exact ⟨fun heq => absurd (hf.trans heq) hne, m, hm, hf, huid⟩
    · rintro ⟨hne, m, hm, hf, huid⟩
      refine ⟨m, ⟨hm, fun heq => ?_⟩, hf, huid⟩
      have hfalse := hne (hf.symm.trans heq)
      rw [hresync] at hfalse
      cases hfalse
  · exact ⟨fun h => ⟨fun _ => eq_false_of_ne_true hresync, h⟩, fun h => h.2⟩

/-- Whatever failed, the rows of the folder are kept ones and messages asked for. -/
theorem Drains.uids_subset (htruthful : ∀ k, mb.Truthful (env.session k))
    (hdrains : Drains mail env t w server recs rows res u) {uid : Int}
    (htaken : Messages.UidTaken u.db t.folder.id uid) : Expected mail mb t.folder w.db uid := by
  obtain ⟨a, hfirst⟩ := hdrains.first
  have hresyncs := resyncs_eq htruthful hfirst
  obtain ⟨rec, hanswer, hstart, hrec, hpos, -⟩ := hdrains.opened_from htruthful
  obtain ⟨row, hrow, hfolder, huid⟩ := htaken
  rw [hdrains.messages] at hrow
  rcases List.mem_append.mp hrow with hold | hnew
  · obtain ⟨hsame, hkept⟩ := (uidTaken_survivors _ _ _).mp ⟨row, hold, hfolder, huid⟩
    exact .inl ⟨hresyncs.symm.trans (hsame rfl), hkept⟩
  · obtain ⟨a, ha, m, hm, hof, -⟩ := hdrains.fetched row hnew
    have htruthful' : ∀ r ∈ rec :: recs, mb.Truthful r.session := by
      intro r hr
      rcases List.mem_cons.mp hr with rfl | htail
      · exact hrec
      · exact chained_truthful htruthful hdrains.chained r htail
    obtain ⟨sm, hsm, rfl, hrequested⟩ := chained_requested hdrains.chained htruthful' hanswer hpos
      a ha m hm
    rw [hstart] at hrequested
    refine .inr ⟨sm, hsm, hof.ingestible, hrequested, ?_⟩
    rw [← huid, hof.uid]
    rfl

/-- A call that stored the UID state leaves exactly what is expected. -/
theorem Completed.uids (htruthful : ∀ k, mb.Truthful (env.session k))
    (hdrains : Drains mail env t w server recs rows res u)
    (hcompleted : Completed mail env t w server recs u last) (uid : Int) :
    Messages.UidTaken u.db t.folder.id uid ↔ Expected mail mb t.folder w.db uid := by
  refine ⟨hdrains.uids_subset htruthful, ?_⟩
  obtain ⟨a, hfirst⟩ := hdrains.first
  have hresyncs := resyncs_eq htruthful hfirst
  rintro (⟨hsame, hkept⟩ | ⟨sm, hsm, hing, hrequested, huid⟩)
  · obtain ⟨row, hrow, hkey⟩ :=
      (uidTaken_survivors env (t := t) _ _).mpr ⟨fun _ => hresyncs.trans hsame, hkept⟩
    refine ⟨row, ?_, hkey⟩
    rw [hdrains.messages]
    exact List.mem_append_left _ hrow
  · obtain ⟨rec, hanswer, hstart, hrec, hpos, -⟩ := hdrains.opened_from htruthful
    have htruthful' : ∀ r ∈ rec :: recs, mb.Truthful r.session := by
      intro r hr
      rcases List.mem_cons.mp hr with rfl | htail
      · exact hrec
      · exact chained_truthful htruthful hdrains.chained r htail
    rw [← hstart] at hrequested
    obtain ⟨a, ha, hmem⟩ := chained_covers hdrains.chained htruthful' hanswer hpos
      hcompleted.answered hcompleted.isLast hcompleted.ended hsm hrequested
    rw [← huid]
    exact hcompleted.stored a ha _ hmem hing

/-! ## Calls without failures -/

/-- A call in which nothing fails, on the mailbox as it is. -/
structure Smooth (mb : ServerMailbox) (env : Env) : Prop where
  clean : env.Clean
  shown : ∀ k, mb.Shown (env.session k)

theorem Smooth.truthful (h : Smooth mb env) : ∀ k, mb.Truthful (env.session k) :=
  fun k => (h.shown k).truthful

theorem Smooth.responds (h : Smooth mb env) : env.Responds :=
  fun k fromUid => (h.shown k).responds fromUid

/-- What the loop will be answered comes from the mailbox, every UID once. -/
theorem upcomingAnswers_nodup (hsmooth : Smooth mb env) :
    (((upcomingAnswers env t w).flatMap (·.messages)).map uidOf).Nodup ∧
      ∀ a ∈ upcomingAnswers env t w, ∀ m ∈ a.messages, ∃ sm ∈ mb.messages, sm.fetched = m := by
  unfold upcomingAnswers
  split
  · next server hopened =>
    obtain ⟨rec, hlast, hanswer⟩ := Option.map_eq_some_iff.mp hopened
    have hrec : mb.Truthful rec.session := by
      unfold opening at hlast
      split_ifs at hlast
      · rw [← Option.some.inj hlast]
        exact hsmooth.truthful _
      · rw [← Option.some.inj hlast]
        exact hsmooth.truthful _
    obtain ⟨hnodup, hmem⟩ := upcoming_nodup hsmooth.truthful drainFuel
      (w.syncs.length + (opening env t w).length) (hrec.answer hanswer) hanswer
    refine ⟨hnodup, fun a ha m hm => ?_⟩
    obtain ⟨sm, hsm, heq, -⟩ := hmem a ha m hm
    exact ⟨sm, hsm, heq⟩
  · exact ⟨List.nodup_nil, fun _ h => nomatch h⟩

/-- Such a call returns well exactly when no message clashes. -/
theorem smooth_ok_iff (hsmooth : Smooth mb env) (hfound : Found w req t) (hfiles : w.FilesMinted)
    (hlimit : ∀ sm ∈ mb.messages, WithinLimit mail sm.fetched) :
    (∃ rep, (reconcile mail env req w).1 = .ok rep) ↔ Unclashed mail env t w := by
  obtain ⟨hnodup, hmem⟩ := upcomingAnswers_nodup (t := t) (w := w) hsmooth
  refine reconcile_clean hsmooth.clean hsmooth.responds hfound hfiles hnodup ?_
  intro a ha m hm
  obtain ⟨sm, hsm, rfl⟩ := hmem a ha m hm
  exact hlimit sm hsm

/-- Once a call on the mailbox returned well, the folder holds what is expected. -/
theorem uids_of_ok {c : Call} (htruthful : ∀ k, mb.Truthful (c.env.session k))
    (hfound : Found w c.req t) {rep : ReconcileReport} (hok : c.result mail w = .ok rep)
    (uid : Int) :
    Messages.UidTaken (c.apply mail w).db t.folder.id uid ↔
      Expected mail mb t.folder w.db uid := by
  obtain ⟨t', server, recs, rows, last, hstores, -⟩ := stores_of_ok hok
  obtain rfl := hfound.unique hstores.found
  exact hstores.completed.uids htruthful hstores.drains uid

/-- For every state, account and folder and every mailbox with `UIDNEXT` that does
not change during the call and whose messages can all be read and stored, the call
returns well and leaves exactly one row for every UID above the old mark, or for
every UID after a change of validity, if and only if no message that it has to
store starts a new thread under an external id in use. -/
theorem complete_iff_unclashed {c : Call} (hsmooth : Smooth mb c.env) (hnext : mb.uidNext.isSome)
    (hreadable : ∀ sm ∈ mb.messages, Ingestible mail sm.fetched ∧ WithinLimit mail sm.fetched)
    (hfound : Found w c.req t) (hfiles : w.FilesMinted) :
    ((∃ rep, c.result mail w = .ok rep) ∧
        ∀ sm ∈ mb.messages, (Changed t.folder mb = true ∨ BelowUid t.folder sm.uid.toNat) →
          rowsOf (c.apply mail w).db t.folder.id sm.uid.toNat = 1) ↔
      Unclashed mail c.env t w := by
  have hok_iff : (∃ rep, c.result mail w = .ok rep) ↔ Unclashed mail c.env t w :=
    smooth_ok_iff hsmooth hfound hfiles fun sm hsm => (hreadable sm hsm).2
  refine ⟨fun h => hok_iff.mp h.1, fun hfree => ⟨hok_iff.mpr hfree, ?_⟩⟩
  obtain ⟨rep, hok⟩ := hok_iff.mpr hfree
  intro sm hsm habove
  rw [rowsOf_eq_one, uids_of_ok hsmooth.truthful hfound hok]
  refine .inr ⟨sm, hsm, (hreadable sm hsm).1, ⟨?_, fun hnone => ?_⟩, rfl⟩
  · have hpos : 1 ≤ sm.uid.toNat := UInt32.lt_iff_toNat_lt.mp (mb.uids_pos sm hsm)
    unfold fetchStart
    split_ifs with hchanged
    · exact hpos
    · have hbelow := habove.resolve_left hchanged
      rw [toNat_startUid]
      cases hmark : t.folder.lastSeenUid with
      | none =>
        show min (min (0 : Int).toNat u32Max + 1) u32Max ≤ _
        omega
      | some mark =>
        have hlt := hbelow mark hmark
        show min (min mark.toNat u32Max + 1) u32Max ≤ _
        omega
  · rw [hnone] at hnext
    cases hnext

/-- A mailbox with one message under UID 1. -/
def singleMailbox (validity : UInt32) (id : String) : ServerMailbox where
  uidValidity := some validity
  uidNext := some 2
  messages := [⟨1, [], some 0, idMessage id⟩]
  uids_nodup := List.nodup_singleton _
  uids_pos := by
    intro m hm
    rw [List.mem_singleton.mp hm]
    exact (by decide : (0 : UInt32) < 1)
  uids_lt := by
    intro n hn m hm
    rw [List.mem_singleton.mp hm, ← Option.some.inj hn]
    exact (by decide : (1 : UInt32) < 2)

/-- The account after its inbox was synced with one message. -/
def World.inboxSynced : World :=
  (Call.calm "INBOX" fun _ => (singleMailbox 7 "a").session).apply .idOnly .small

/-- A sync of its archive, which holds one message too. -/
def archiveCall (id : String) : Call :=
  .calm "Archive" fun _ => (singleMailbox 9 id).session

def archiveTarget : Target where
  account := ⟨0, "me@host", "imap.host", 993, .idle, none, some 0⟩
  folder := ⟨2, 0, "Archive", .archive, none, none, none⟩
  port := 993
  credential := .password "secret"

theorem smooth_archiveCall (id : String) : Smooth (singleMailbox 9 id) (archiveCall id).env :=
  ⟨fun _ => rfl, fun _ => ServerMailbox.shown_session _⟩

theorem found_archive (id : String) : Found .inboxSynced (archiveCall id).req archiveTarget where
  account := by
    show Accounts.get World.inboxSynced.db 0 = some archiveTarget.account
    decide
  folder := by
    show Folders.getByName World.inboxSynced.db 0 "Archive" = some archiveTarget.folder
    decide
  port := by decide
  credential := rfl
  present := rfl

theorem filesMinted_small : World.small.FilesMinted := by
  intro p hp
  cases hp

theorem filesMinted_inboxSynced : World.inboxSynced.FilesMinted :=
  filesMinted_small.after_call _ _

theorem readable_single {validity : UInt32} {id : String}
    (hparse : ((parsedOf .idOnly ⟨1, [], some 0, idMessage id⟩).any
      fun parsed => parsed.attachments = []) = true) :
    ∀ sm ∈ (singleMailbox validity id).messages,
      Ingestible .idOnly sm.fetched ∧ WithinLimit .idOnly sm.fetched := by
  obtain ⟨parsed, hparsed, hempty⟩ := Option.any_eq_true _ _ |>.mp hparse
  have hnone : parsed.attachments = [] := of_decide_eq_true hempty
  intro sm hsm
  obtain rfl : sm = ⟨1, [], some 0, idMessage id⟩ := List.mem_singleton.mp hsm
  refine ⟨ingestible_iff.mpr ?_, ?_⟩
  · show (parsedOf .idOnly ⟨1, [], some 0, idMessage id⟩).isSome
    rw [hparsed]
    rfl
  · intro parsed' hparsed'
    obtain rfl : parsed = parsed' := Option.some.inj (hparsed.symm.trans hparsed')
    rw [hnone]
    exact fun _ h => nomatch h

/-- Another message than the inbox has is stored. -/
theorem other_message_is_complete :
    Unclashed .idOnly (archiveCall "b").env archiveTarget .inboxSynced ∧
      (∃ rep, (archiveCall "b").result .idOnly .inboxSynced = .ok rep) ∧
      rowsOf ((archiveCall "b").apply .idOnly .inboxSynced).db 2 1 = 1 := by
  have hfree : Unclashed .idOnly (archiveCall "b").env archiveTarget .inboxSynced := by
    decide
  obtain ⟨hok, hrows⟩ := (complete_iff_unclashed (smooth_archiveCall "b") rfl
    (readable_single (by decide)) (found_archive "b") filesMinted_inboxSynced).mpr hfree
  exact ⟨hfree, hok, hrows _ List.mem_cons_self (.inr fun _ h => nomatch h)⟩

/-- A copy of the inbox's message in the archive stops the sync of the archive: the
message has no parent, so it starts a thread, and its `Message-ID` is the external
id of the thread of the first copy. -/
theorem copy_in_other_folder_fails :
    Smooth (singleMailbox 9 "a") (archiveCall "a").env ∧
      (∀ sm ∈ (singleMailbox 9 "a").messages,
        Ingestible .idOnly sm.fetched ∧ WithinLimit .idOnly sm.fetched) ∧
      Found .inboxSynced (archiveCall "a").req archiveTarget ∧ World.inboxSynced.FilesMinted ∧
      (archiveCall "a").result .idOnly .inboxSynced =
        .error (.error (.db (.unique "threads.external_id"))) ∧
      rowsOf ((archiveCall "a").apply .idOnly .inboxSynced).db 2 1 = 0 := by
  refine ⟨smooth_archiveCall "a", readable_single (by decide), found_archive "a",
    filesMinted_inboxSynced, ?_, ?_⟩
  · decide
  · decide

end Postblox.Sync
