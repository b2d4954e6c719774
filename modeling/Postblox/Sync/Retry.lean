import Postblox.Sync.Complete

/-!
# Calling again after a failure

A call that fails may leave any prefix of its work behind: rows of messages it got
to, a thread without messages, files, even the new UID state. The next call on the
same mailbox completes the set of UIDs unless a message clashes with a thread that
is there, or the server keeps `UIDNEXT` to itself and the failed call had stored
its UID state, so that the next call goes one window further.
-/
namespace Postblox.Sync

open Lib Db Imap Mail Attachments

variable {mail : MailCrate} {mb : ServerMailbox} {c : Call} {t : Target} {w : World}

theorem rowsOf_le_one (db : Database) (folder : FolderId) (uid : Int) :
    rowsOf db folder uid ≤ 1 := by
  by_cases htaken : Messages.UidTaken db folder uid
  · rw [rowsOf_eq_one.mpr htaken]
  · have hzero : rowsOf db folder uid = 0 := by
      refine List.countP_eq_zero.mpr fun m hm hrow => htaken ⟨m, hm, of_decide_eq_true hrow⟩
    omega

/-! ## The rows after a call, failed or not -/

theorem get_of_logins {db db' : Database} {id : AccountId} {a : Account}
    (h : db'.accounts.map Account.login = db.accounts.map Account.login)
    (hget : Accounts.get db id = some a) :
    ∃ a', Accounts.get db' id = some a' ∧ Account.login a' = Account.login a := by
  have hfind : ∀ accounts : List Account,
      (accounts.find? (fun a => a.id = id)).map Account.login =
        (accounts.map Account.login).find? (fun l => l.1 = id) := by
    intro accounts
    rw [List.find?_map]
    rfl
  have hsame : (Accounts.get db' id).map Account.login = some (Account.login a) := by
    unfold Accounts.get at hget ⊢
    rw [hfind, h, ← hfind, hget]
    rfl
  obtain ⟨a', ha', hlogin⟩ := Option.map_eq_some_iff.mp hsame
  exact ⟨a', ha', hlogin⟩

theorem logins_after_call (mail : MailCrate) (c : Call) (w : World) :
    (c.apply mail w).db.accounts.map Account.login = w.db.accounts.map Account.login := by
  have houtcome : Outcome mail c.env c.req w (c.result mail w) (c.apply mail w) :=
    reconcile_outcome mail c.env c.req w
  generalize c.result mail w = r at houtcome
  generalize c.apply mail w = u at houtcome
  cases houtcome with
  | refused quiet => rw [quiet.accounts]
  | unopened found syncs calls messages folders accounts => rw [accounts]
  | drains found drains => exact drains.logins

variable (mail) in
/-- The call finds its rows again; the folder's is the same, or it carries the UID
state that the call stored. -/
theorem found_after_call (hfound : Found w c.req t) :
    ∃ t₁, Found (c.apply mail w) c.req t₁ ∧ t₁.folder.id = t.folder.id ∧
      (t₁.folder = t.folder ∨ ∃ server recs rows last,
        Stores mail c w t.folder t server recs rows last ∧
        t₁.folder = stamp last (markAfter c.env t w server recs) t.folder) := by
  obtain ⟨a', hget, hlogin⟩ := get_of_logins (logins_after_call mail c w) hfound.account
  have hport : portU16 a'.imapPort = .ok t.port := by
    rw [show a'.imapPort = t.account.imapPort from congrArg (·.2.2.2) hlogin]
    exact hfound.port
  rcases folder_after_call mail c w hfound.folder with ⟨hsame, -⟩ |
    ⟨-, t', server, recs, rows, last, hstores, hstamped⟩
  · exact ⟨⟨a', t.folder, t.port, t.credential⟩,
      ⟨hget, hsame, hport, hfound.credential, hfound.present⟩, rfl, .inl rfl⟩
  · obtain rfl := hfound.unique hstores.found
    exact ⟨⟨a', _, t.port, t.credential⟩,
      ⟨hget, hstamped, hport, hfound.credential, hfound.present⟩, rfl,
      .inr ⟨server, recs, rows, last, hstores, rfl⟩⟩

theorem survivors_of_unchanged (htruthful : ∀ k, mb.Truthful (c.env.session k))
    (hsame : Changed t.folder mb = false) : survivors c.env t w = w.db.messages := by
  have hno : resyncs c.env t w = false := by
    cases hfirst : (firstCall c.env t w).answer with
    | error e =>
      unfold resyncs
      rw [hfirst]
    | ok server => exact (resyncs_eq htruthful hfirst).trans hsame
  unfold survivors
  rw [hno]
  rfl

/-- Under an unchanged validity a call keeps the folder's rows and adds messages
asked for, wherever it stops. -/
theorem uids_between (htruthful : ∀ k, mb.Truthful (c.env.session k)) (hfound : Found w c.req t)
    (hsame : Changed t.folder mb = false) (uid : Int) :
    (Messages.UidTaken w.db t.folder.id uid →
        Messages.UidTaken (c.apply mail w).db t.folder.id uid) ∧
      (Messages.UidTaken (c.apply mail w).db t.folder.id uid →
        Expected mail mb t.folder w.db uid) := by
  have hkept : ∀ {db : Database}, db.messages = w.db.messages →
      (Messages.UidTaken w.db t.folder.id uid → Messages.UidTaken db t.folder.id uid) ∧
        (Messages.UidTaken db t.folder.id uid → Expected mail mb t.folder w.db uid) := by
    intro db hdb
    unfold Messages.UidTaken
    rw [hdb]
    exact ⟨fun h => h, fun h => .inl ⟨hsame, h⟩⟩
  have houtcome : Outcome mail c.env c.req w (c.result mail w) (c.apply mail w) :=
    reconcile_outcome mail c.env c.req w
  generalize c.result mail w = r at houtcome
  generalize c.apply mail w = u at houtcome
  cases houtcome with
  | refused quiet => exact hkept quiet.messages
  | unopened found syncs calls messages =>
    rcases messages with hmessages | hwiped
    · exact hkept hmessages
    · obtain rfl := hfound.unique found
      exact hkept (hwiped.trans (survivors_of_unchanged htruthful hsame))
  | drains found drains =>
    obtain rfl := hfound.unique found
    refine ⟨?_, drains.uids_subset htruthful⟩
    intro ⟨row, hrow, hkey⟩
    refine ⟨row, ?_, hkey⟩
    rw [drains.messages, survivors_of_unchanged htruthful hsame]
    exact List.mem_append_left _ hrow

/-- After the mailbox's validity was stored it has not changed. -/
theorem changed_stamp {last : FolderSync} (hvalidity : last.uidValidity = mb.uidValidity)
    (mark : Option Int) (f : Folder) : Changed (stamp last mark f) mb = false := by
  unfold Changed stamp
  rw [hvalidity]
  cases mb.uidValidity with
  | none =>
    dsimp only
    split <;> simp_all
  | some v => simp [widen]

/-- The UIDs that the next call will leave are those of a single call, and those it
asks for on its own. -/
theorem expected_after_call (htruthful : ∀ k, mb.Truthful (c.env.session k))
    (hfound : Found w c.req t) {t₁ : Target} (hid : t₁.folder.id = t.folder.id)
    (hrow : t₁.folder = t.folder ∨ ∃ server recs rows last,
      Stores mail c w t.folder t server recs rows last ∧
      t₁.folder = stamp last (markAfter c.env t w server recs) t.folder) (uid : Int) :
    Expected mail mb t₁.folder (c.apply mail w).db uid ↔
      Expected mail mb t.folder w.db uid ∨
        ∃ sm ∈ mb.messages, Ingestible mail sm.fetched ∧
          Requested mb (fetchStart t₁.folder mb) sm ∧ (sm.uid.toNat : Int) = uid := by
  have hfirst : (Changed t₁.folder mb = false ∧
        Messages.UidTaken (c.apply mail w).db t.folder.id uid) →
      Expected mail mb t.folder w.db uid := by
    intro ⟨hsame, htaken⟩
    rcases hrow with heq | ⟨server, recs, rows, last, hstores, -⟩
    · rw [heq] at hsame
      exact (uids_between htruthful hfound hsame uid).2 htaken
    · exact (hstores.completed.uids htruthful hstores.drains uid).mp htaken
  constructor
  · rintro (hold | hnew)
    · rw [hid] at hold
      exact .inl (hfirst hold)
    · exact .inr hnew
  · rintro (hold | hnew)
    · rcases hrow with heq | ⟨server, recs, rows, last, hstores, heq⟩
      · rw [heq]
        rcases hold with ⟨hsame, htaken⟩ | hrequested
        · exact .inl ⟨hsame, (uids_between htruthful hfound hsame uid).1 htaken⟩
        · exact .inr hrequested
      · refine .inl ⟨?_, ?_⟩
        · have hlast : last.uidValidity = mb.uidValidity := by
            obtain ⟨rec, hrec, hanswer⟩ := hstores.drains.answer_call last
              (List.mem_of_getLast? hstores.completed.isLast)
            obtain ⟨j, hj⟩ := List.mem_iff_getElem?.mp hrec
            have hsession := (hstores.drains.recorded hfound j rec hj).1
            have hshows : mb.Truthful rec.session := by
              rw [hsession]
              exact htruthful _
            exact (hshows.answer hanswer).validity
          rw [heq]
          exact changed_stamp hlast _ _
        · rw [hid]
          exact (hstores.completed.uids htruthful hstores.drains uid).mpr hold
    · exact .inr hnew

/-- For every state and mailbox and every call on it, failing at whatever point: a single
call without failures would leave the expected UIDs, and calling again
without failures returns well and leaves exactly them, one row each, if and only
if in the state left behind no message still to be stored clashes, and nothing
readable is asked for beyond the expected UIDs. -/
theorem retry_iff {c₁ c₂ : Call} (hreq : c₂.req = c₁.req)
    (htruthful : ∀ k, mb.Truthful (c₁.env.session k)) (hsmooth : Smooth mb c₂.env)
    (hfound : Found w c₁.req t) (hfiles : w.FilesMinted)
    (hlimit : ∀ sm ∈ mb.messages, WithinLimit mail sm.fetched) :
    (∀ c₀ : Call, c₀.req = c₁.req → Smooth mb c₀.env → (∃ rep, c₀.result mail w = .ok rep) →
      ∀ uid, rowsOf (c₀.apply mail w).db t.folder.id uid = 1 ↔
        Expected mail mb t.folder w.db uid) ∧
    ∃ t₁, Found (c₁.apply mail w) c₂.req t₁ ∧
      (((∃ rep, c₂.result mail (c₁.apply mail w) = .ok rep) ∧
          ∀ uid, (rowsOf (c₂.apply mail (c₁.apply mail w)).db t.folder.id uid = 1 ↔
              Expected mail mb t.folder w.db uid) ∧
            rowsOf (c₂.apply mail (c₁.apply mail w)).db t.folder.id uid ≤ 1) ↔
        Unclashed mail c₂.env t₁ (c₁.apply mail w) ∧
          ∀ sm ∈ mb.messages, Ingestible mail sm.fetched →
            Requested mb (fetchStart t₁.folder mb) sm →
              Expected mail mb t.folder w.db sm.uid.toNat) := by
  constructor
  · intro c₀ hreq₀ hsmooth₀ ⟨rep, hok⟩ uid
    rw [← hreq₀] at hfound
    rw [rowsOf_eq_one]
    exact uids_of_ok hsmooth₀.truthful hfound hok uid
  · obtain ⟨t₁, hfound₁, hid, hrow⟩ := found_after_call mail hfound
    have hexpected := expected_after_call htruthful hfound hid hrow
    rw [← hreq] at hfound₁
    refine ⟨t₁, hfound₁, ?_⟩
    have hok_iff : (∃ rep, c₂.result mail (c₁.apply mail w) = .ok rep) ↔
        Unclashed mail c₂.env t₁ (c₁.apply mail w) :=
      smooth_ok_iff hsmooth hfound₁ (hfiles.after_call mail c₁) hlimit
    rw [← hok_iff]
    refine and_congr_right fun ⟨rep, hok⟩ => ?_
    have huids : ∀ uid, rowsOf (c₂.apply mail (c₁.apply mail w)).db t.folder.id uid = 1 ↔
        Expected mail mb t₁.folder (c₁.apply mail w).db uid := by
      intro uid
      rw [rowsOf_eq_one, ← hid]
      exact uids_of_ok hsmooth.truthful hfound₁ hok uid
    constructor
    · intro hsame sm hsm hing hrequested
      rw [← (hsame sm.uid.toNat).1, huids, hexpected]
      exact .inr ⟨sm, hsm, hing, hrequested, rfl⟩
    · intro hwithin uid
      refine ⟨?_, rowsOf_le_one _ _ _⟩
      rw [huids, hexpected]
      refine or_iff_left_of_imp ?_
      rintro ⟨sm, hsm, hing, hrequested, rfl⟩
      exact hwithin sm hsm hing hrequested

/-- The inbox holds one message, and the call's `n`-th statement fails. -/
def failingCall (n : Nat) : Call where
  env := { Env.calm fun _ => (singleMailbox 7 "a").session with
    fault := fun k => if k = n then some .before else none }
  req := ⟨0, "INBOX", .password "secret"⟩

/-- The next call, in which nothing fails. -/
def nextCall : Call := .calm "INBOX" fun _ => (singleMailbox 7 "a").session

def inboxTarget : Target where
  account := ⟨0, "me@host", "imap.host", 993, .idle, none, none⟩
  folder := ⟨1, 0, "INBOX", .inbox, none, none, none⟩
  port := 993
  credential := .password "secret"

theorem smooth_nextCall : Smooth (singleMailbox 7 "a") nextCall.env :=
  ⟨fun _ => rfl, fun _ => ServerMailbox.shown_session _⟩

theorem truthful_failingCall (n k : Nat) :
    (singleMailbox 7 "a").Truthful ((failingCall n).env.session k) :=
  (ServerMailbox.shown_session _).truthful

theorem found_inbox : Found .small (failingCall 0).req inboxTarget where
  account := by decide
  folder := by decide
  port := by decide
  credential := rfl
  present := rfl

theorem limit_single : ∀ sm ∈ (singleMailbox 7 "a").messages, WithinLimit .idOnly sm.fetched :=
  fun sm hsm => (readable_single (by decide) sm hsm).2

/-- The first call fails right after it stored the message, at `touch_last_message_at`;
the next one finds the row. -/
theorem retry_after_stored_message :
    (∃ e, (failingCall 6).result .idOnly .small = .error e) ∧
      (∃ rep, nextCall.result .idOnly ((failingCall 6).apply .idOnly .small) = .ok rep) ∧
      rowsOf (nextCall.apply .idOnly ((failingCall 6).apply .idOnly .small)).db 1 1 = 1 := by
  have hreq : nextCall.req = (failingCall 6).req := rfl
  obtain ⟨-, t₁, hfound₁, hiff⟩ := retry_iff hreq (truthful_failingCall 6) smooth_nextCall
    found_inbox filesMinted_small limit_single
  obtain rfl : t₁ = inboxTarget := by
    refine hfound₁.unique ⟨?_, ?_, ?_, rfl, rfl⟩
    · decide
    · decide
    · decide
  have hexpected : Expected .idOnly (singleMailbox 7 "a") inboxTarget.folder World.small.db 1 :=
    .inr ⟨_, List.mem_cons_self, by decide, by decide +kernel, rfl⟩
  obtain ⟨hok, hrows⟩ := hiff.mpr ⟨by decide, by
    intro sm hsm _ _
    obtain rfl := List.mem_singleton.mp hsm
    exact hexpected⟩
  refine ⟨?_, hok, (hrows 1).1.mpr hexpected⟩
  exact ⟨.error (.db .failed), by decide⟩

/-- The first call fails between the insertion of the thread and that of the message.
The thread stays, without messages and without a subject to match by, so the next
call starts another one under the same external id. -/
theorem retry_meets_own_thread :
    (∀ k, (singleMailbox 7 "a").Truthful ((failingCall 5).env.session k)) ∧
      Smooth (singleMailbox 7 "a") nextCall.env ∧ Found .small (failingCall 5).req inboxTarget ∧
      (failingCall 5).result .idOnly .small = .error (.error (.db .failed)) ∧
      nextCall.result .idOnly .small = .ok ⟨1, 1, 0, some 7, some 2, some 1⟩ ∧
      nextCall.result .idOnly ((failingCall 5).apply .idOnly .small) =
        .error (.error (.db (.unique "threads.external_id"))) ∧
      rowsOf (nextCall.apply .idOnly .small).db 1 1 = 1 ∧
      rowsOf (nextCall.apply .idOnly ((failingCall 5).apply .idOnly .small)).db 1 1 = 0 := by
  refine ⟨truthful_failingCall 5, smooth_nextCall, found_inbox, ?_, ?_, ?_, ?_, ?_⟩
  · decide
  · decide
  · decide
  · decide
  · decide

end Postblox.Sync
