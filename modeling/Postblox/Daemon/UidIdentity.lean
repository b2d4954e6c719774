import Postblox.Daemon.MessageOps
import Postblox.Imap.Mailbox
import Postblox.Sync.Validity

/-!
# What a row's folder and UID stand for

Runs that mix `reconcile_folder` with archive, delete and move. The reconciler
takes a row with `(folder, uid)` for the server's message under that UID, while a
moved row keeps the UID of the folder it came from. Rows stand for what they are
taken for as long as the server's folder holds the moved message under the same
number.
-/
namespace Postblox.Daemon

open Lib Db Imap Mail Sync

/-- The text under a UID of a mailbox, by validity. Under one validity a UID is
never given to another message. -/
abbrev ServerContent := AccountId → String → UInt32 → Nat → Option (List UInt8)

/-- The connection brings the server's texts. -/
def Brings (srv : ServerContent) (account : AccountId) (name : String) (s : Session) : Prop :=
  ∀ mb v, s.select = .ok mb → mb.uidValidity = some v → ∀ lo hi stream, s.uidFetch lo hi = .ok stream →
    ∀ f uid raw, .ok f ∈ stream.items → f.uid = some uid → f.body = some raw →
      srv account name v uid.toNat = some raw

/-- The row holds the text that the server has under its UID in the mailbox. -/
def Holds (mail : MailCrate) (srv : ServerContent) (account : AccountId) (name : String)
    (row : Message) (v : UInt32) : Prop :=
  ∃ m, RowOf mail row.accountId row.folderId m row ∧ srv account name v m.uid.toNat = some m.raw

/-- The row was built from a message with the UID and text of `m`. -/
def StoredAs (mail : MailCrate) (row : Message) (m : FetchedMessage) : Prop :=
  ∃ m', m'.uid = m.uid ∧ m'.raw = m.raw ∧ RowOf mail row.accountId row.folderId m' row

variable {mail : MailCrate} {srv : ServerContent} {account : AccountId} {name : String}
  {w u : World} {f : Folder} {v : UInt32}

theorem Brings.message {r : SyncRecord} {a : FolderSync} (hbrings : Brings srv account name r.session)
    (hanswer : r.answer = .ok a) (hv : a.uidValidity = some v) {m : FetchedMessage}
    (hm : m ∈ a.messages) : srv account name v m.uid.toNat = some m.raw := by
  obtain ⟨mb, hselect, ⟨hi, -, hserver, -⟩ | ⟨lo, hi, more, stream, -, hfetch, -, hserver, -⟩⟩ :=
    syncFolder_ok hanswer
  · rw [hserver] at hm
    cases hm
  · rw [hserver] at hm hv
    obtain ⟨item, hitem, hsome⟩ := List.mem_filterMap.mp hm
    obtain ⟨f, rfl, huid, hbody⟩ := fetchedMessage_eq_some hsome
    exact hbrings mb v hselect hv lo hi stream hfetch f m.uid m.raw hitem huid hbody

/-- The content of a row goes with it to another folder. -/
theorem RowOf.moved {row : Message} {m : FetchedMessage} {folder : FolderId}
    (h : RowOf mail account folder m row) (target : FolderId) :
    RowOf mail account target m { row with folderId := target } := by
  obtain ⟨hraw, parsed, thread, date, hparse, hrow⟩ := h
  refine ⟨hraw, parsed, thread, date, hparse, ?_⟩
  show { row.toNewMessage with folderId := target } = _
  rw [hrow]
  rfl

/-- Two texts under one UID are one text. -/
theorem Holds.storedAs {row : Message} {m : FetchedMessage} (h : Holds mail srv account name row v)
    (huid : row.uid = uidOf m) (hm : srv account name v m.uid.toNat = some m.raw) :
    StoredAs mail row m := by
  obtain ⟨m', hrow, hm'⟩ := h
  have heq : m'.uid = m.uid := by
    have hint : uidOf m' = uidOf m := hrow.uid.symm.trans huid
    exact UInt32.toNat_inj.mp (Int.ofNat_inj.mp hint)
  rw [heq] at hm'
  exact ⟨m', heq, Option.some.inj (hm'.symm.trans hm), hrow⟩

/-! ## Steps -/

inductive Step where
  | sync (c : Call)
  | message (env : Env) (actor : String) (op : MessageOp)

/-- How a message operation ends. -/
def opResult (env : Env) (actor : String) (op : MessageOp) (w : World) : Except OpError FolderId :=
  (Fallible.exec (handle env) (op.program actor) w).1

def Step.apply (mail : MailCrate) (w : World) : Step → World
  | .sync c => c.apply mail w
  | .message env actor op => (Fallible.exec (handle env) (op.program actor) w).2

def afterSteps (mail : MailCrate) (w : World) (steps : List Step) : World :=
  steps.foldl (Step.apply mail) w

/-- In every folder, the rows hold the server's texts under the validity last
reported, unless a call that reports it again wipes them. -/
def UidInv (mail : MailCrate) (srv : ServerContent) (w : World) : Prop :=
  ∀ account name f, Folders.getByName w.db account name = some f →
    RowsInv (Holds mail srv account name) account name w f

/-- A call meets a steady validity. A move finds its row in the folder already, or
the UID is free there and the server holds the same text under it. -/
def Step.Sound (mail : MailCrate) (srv : ServerContent) (w : World) : Step → Prop
  | .sync c => ∀ f, Folders.getByName w.db c.req.account c.req.folderName = some f →
      ∃ v, Steady c.req.account c.req.folderName c w f v
  | .message _ _ op => ∀ message target, op.Targets w.db message target →
      message.folderId = target.id ∨
        ¬ Messages.MoveClashes w.db message target.id ∧
          ∃ v, lastReported target.accountId target.name w.syncs = some (some v) ∧
            Holds mail srv target.accountId target.name message v

/-- The server brings its texts in every call. -/
def Step.Served (srv : ServerContent) : Step → Prop
  | .sync c => ∀ k, Brings srv c.req.account c.req.folderName (c.env.session k)
  | .message .. => True

theorem getByName_before_call {c : Call} {f' : Folder}
    (hf' : Folders.getByName (c.apply mail w).db account name = some f') :
    ∃ f, Folders.getByName w.db account name = some f := by
  have houtcome : Outcome mail c.env c.req w (c.result mail w) (c.apply mail w) :=
    reconcile_outcome mail c.env c.req w
  generalize c.result mail w = r at houtcome
  generalize c.apply mail w = u at houtcome hf'
  cases houtcome with
  | refused quiet => exact ⟨f', (getByName_congr quiet.folders).symm.trans hf'⟩
  | unopened found syncs calls messages folders =>
    exact ⟨f', (getByName_congr folders).symm.trans hf'⟩
  | drains found drains =>
    rcases drains.state with ⟨hfolders, -⟩ | ⟨last, hcompleted⟩
    · exact ⟨f', (getByName_congr hfolders).symm.trans hf'⟩
    · rw [getByName_stamped _ _ hcompleted.folders] at hf'
      obtain ⟨f, hf, -⟩ := Option.map_eq_some_iff.mp hf'
      exact ⟨f, hf⟩

/-- The answers of a call bring the server's texts under its validity. -/
theorem texts_of_drains {c : Call} {t : Target} {server : FolderSync} {recs : List SyncRecord}
    {rows : List Message} {r : Except Stop ReconcileReport}
    (hserved : ∀ k, Brings srv c.req.account c.req.folderName (c.env.session k))
    (hsteady : Steady c.req.account c.req.folderName c w f v) (hfound : Found w c.req t)
    (hdrains : Drains mail c.env t w server recs rows r u) :
    ∀ a ∈ answers server recs, ∀ m ∈ a.messages,
      srv c.req.account c.req.folderName v m.uid.toNat = some m.raw := by
  intro a ha m hm
  obtain ⟨rec, hrec, hanswer⟩ := hdrains.answer_call a ha
  obtain ⟨j, hj⟩ := List.mem_iff_getElem?.mp hrec
  have hbrings : Brings srv c.req.account c.req.folderName rec.session := by
    rw [(hdrains.recorded hfound j rec hj).1]
    exact hserved _
  exact hbrings.message hanswer (hsteady.drained hfound hdrains a ha) hm

theorem UidInv.sync {c : Call} (hinv : UidInv mail srv w)
    (hserved : ∀ k, Brings srv c.req.account c.req.folderName (c.env.session k))
    (hsound : (Step.sync c).Sound mail srv w) : UidInv mail srv (c.apply mail w) := by
  intro account name f' hf'
  obtain ⟨f, hf⟩ := getByName_before_call hf'
  by_cases hfor : c.req.isFor account name
  · obtain ⟨rfl, rfl⟩ := hfor
    obtain ⟨v, hsteady⟩ := hsound f hf
    obtain ⟨f'', hf'', hrows, -⟩ := (hinv _ _ f hf).step_for mail hf hsteady ⟨rfl, rfl⟩
      (fun _ _ h => h) (fun t server recs rows hfound hdrains row hrow => by
        obtain ⟨a, ha, m, hm, hof, -⟩ := hdrains.fetched row hrow
        exact ⟨m, hof.own, texts_of_drains hserved hsteady hfound hdrains a ha m hm⟩)
    obtain rfl : f'' = f' := Option.some.inj (hf''.symm.trans hf')
    exact hrows
  · obtain ⟨hsame, hrows⟩ := (hinv _ _ f hf).step_other mail hf hfor (fun _ _ h => h)
    obtain rfl : f = f' := Option.some.inj (hsame.symm.trans hf')
    exact hrows

theorem UidInv.message {env : Env} {actor : String} {op : MessageOp} (hinv : UidInv mail srv w)
    (hsound : (Step.message env actor op).Sound mail srv w) :
    UidInv mail srv ((Step.message env actor op).apply mail w) := by
  have houtcome : OpOutcome op w (opResult env actor op w)
      ((Step.message env actor op).apply mail w) := wp_program op actor w
  generalize opResult env actor op w = r at houtcome
  generalize (Step.message env actor op).apply mail w = u at houtcome
  intro account name f hf
  cases houtcome with
  | stays quiet =>
    rw [getByName_congr quiet.folders] at hf
    intro row hrow hid
    rw [quiet.messages] at hrow
    rw [quiet.syncs]
    exact hinv account name f hf row hrow hid
  | @moves moved target targets elsewhere free messages folders syncs =>
    rw [getByName_congr folders] at hf
    intro row hrow hid
    rw [messages] at hrow
    rw [syncs]
    obtain ⟨old, hold, heq⟩ := mem_updateWhere.mp hrow
    by_cases hmoved : old.id = moved.id
    · -- the row that was moved: the folder is the target
      rw [if_pos (decide_eq_true hmoved)] at heq
      have hold' : old = moved := w.db.wf.messageIds.eq_of_key hold
        (Messages.get_eq_some targets.found).1 rfl (congrArg some hmoved.symm)
      have hid' : target.id = f.id := by
        rw [← hid, heq]
      have hfolder : target = f := w.db.wf.folderIds.eq_of_key targets.mem.1
        (List.mem_of_find?_eq_some hf) rfl (congrArg some hid'.symm)
      have hkey := List.find?_some hf
      simp only [decide_eq_true_eq] at hkey
      rcases hsound moved target targets with hsame | ⟨-, v, hlast, m, hrow', hm⟩
      · exact absurd hsame elsewhere
      · rw [hfolder, hkey.1, hkey.2] at hlast hm
        refine ⟨v, hlast, .inl ⟨m, ?_, hm⟩⟩
        rw [heq, hold']
        exact RowOf.moved hrow' target.id
    · rw [if_neg (by simpa using hmoved)] at heq
      rw [heq] at hid ⊢
      exact hinv account name f hf old hold hid

/-! ## Whole runs -/

/-- Every step of the run is sound in the state it starts from. -/
def SoundRun (mail : MailCrate) (srv : ServerContent) : World → List Step → Prop
  | _, [] => True
  | w, s :: rest => s.Sound mail srv w ∧ SoundRun mail srv (s.apply mail w) rest

theorem UidInv.step {s : Step} (hinv : UidInv mail srv w) (hserved : s.Served srv)
    (hsound : s.Sound mail srv w) : UidInv mail srv (s.apply mail w) := by
  cases s with
  | sync c => exact hinv.sync hserved hsound
  | message env actor op => exact hinv.message hsound

theorem UidInv.run {steps : List Step} (hinv : UidInv mail srv w)
    (hserved : ∀ s ∈ steps, s.Served srv) (hrun : SoundRun mail srv w steps) :
    UidInv mail srv (afterSteps mail w steps) := by
  induction steps generalizing w with
  | nil => exact hinv
  | cons s rest ih =>
    exact ih (hinv.step (hserved s List.mem_cons_self) hrun.1)
      (fun s' hs' => hserved s' (List.mem_cons_of_mem _ hs')) hrun.2

theorem SoundRun.append {steps later : List Step} (hrun : SoundRun mail srv w (steps ++ later)) :
    SoundRun mail srv w steps ∧ SoundRun mail srv (afterSteps mail w steps) later := by
  induction steps generalizing w with
  | nil => exact ⟨trivial, hrun⟩
  | cons s rest ih =>
    obtain ⟨hsteps, hlater⟩ := ih hrun.2
    exact ⟨⟨hrun.1, hsteps⟩, hlater⟩

/-- After a call that returned well, every message it was brought has a row with its
text: none was passed over for a row that is not its own. -/
theorem stored_after_sync {c : Call} {rep : ReconcileReport} (hinv : UidInv mail srv w)
    (hserved : ∀ k, Brings srv c.req.account c.req.folderName (c.env.session k))
    (hsound : (Step.sync c).Sound mail srv w) (hok : c.result mail w = .ok rep) :
    ∃ t server recs rows last, Stores mail c w t.folder t server recs rows last ∧
      ∀ a ∈ answers server recs, ∀ m ∈ a.messages, Ingestible mail m →
        ∃ row ∈ (c.apply mail w).db.messages, row.folderId = t.folder.id ∧ StoredAs mail row m := by
  obtain ⟨t, server, recs, rows, last, hstores, hget⟩ := stores_of_ok hok
  refine ⟨t, server, recs, rows, last, hstores, ?_⟩
  obtain ⟨v, hsteady⟩ := hsound t.folder hstores.found.folder
  have hstored := stored_of_completed hsteady hstores.found hstores.drains hstores.completed
    (markAfter c.env t w server recs)
  have hreported := lastReported_of_drains hsteady ⟨rfl, rfl⟩ hstores.found hstores.drains
  intro a ha m hm hing
  obtain ⟨row, hrow, hfolder, huid⟩ := hstores.completed.stored a ha m hm hing
  refine ⟨row, hrow, hfolder, ?_⟩
  have hrows := (hinv.sync hserved hsound) _ _ _ hget
  obtain ⟨v', hreported', hholds⟩ := hrows row hrow hfolder
  have hv : v' = v := Option.some.inj (Option.some.inj (hreported'.symm.trans hreported))
  rw [hv] at hholds
  rcases hholds with hholds | ⟨s, hs, hne⟩
  · exact hholds.storedAs huid
      (texts_of_drains hserved hsteady hstores.found hstores.drains a ha m hm)
  · exact absurd (Option.some.inj (hs.symm.trans hstored)) hne

/-- A sound operation is not refused for a row with the same UID. -/
theorem opResult_ne_clash {env : Env} {actor : String} {op : MessageOp}
    (hsound : (Step.message env actor op).Sound mail srv w) (index : String) :
    opResult env actor op w ≠ .error (.internal "messages::set_folder" (.unique index)) := by
  have houtcome : OpOutcome op w (opResult env actor op w)
      ((Step.message env actor op).apply mail w) := wp_program op actor w
  intro hclash
  cases houtcome with
  | stays quiet clash =>
    obtain ⟨message, target, htargets, hother⟩ := clash index hclash
    rcases hsound message target htargets with hsame | ⟨hfree, -⟩
    · obtain ⟨m, hm, hne, hfolder, huid⟩ := hother
      have hkey : m.uidKey = some (message.folderId, message.uid) := by
        unfold NewMessage.uidKey
        rw [hfolder, huid, hsame]
      have heq : m = message := w.db.wf.messageUids.eq_of_key hm
        (Messages.get_eq_some htargets.found).1 hkey rfl
      rw [heq] at hne
      exact hne rfl
    · exact hfree hother
  | moves _ _ _ _ _ _ _ clash => exact clash index hclash

/-- A mailbox that is empty or holds one message under UID 1. -/
def mailbox (v : UInt32) (id : Option String) : ServerMailbox where
  uidValidity := some v
  uidNext := some (if id.isSome then 2 else 1)
  messages := id.toList.map fun id => ⟨1, [], some 0, idMessage id⟩
  uids_nodup := by
    cases id with
    | none => exact List.nodup_nil
    | some id => exact List.nodup_singleton _
  uids_pos := by
    cases id with
    | none => exact fun _ h => nomatch h
    | some id =>
      intro m hm
      rw [List.mem_singleton.mp hm]
      exact (by decide : (0 : UInt32) < 1)
  uids_lt := by
    cases id with
    | none => exact fun _ _ _ h => nomatch h
    | some id =>
      intro n hn m hm
      rw [List.mem_singleton.mp hm, ← Option.some.inj hn]
      exact (by decide : (1 : UInt32) < 2)

theorem brings_mailbox {id : Option String}
    (hid : ∀ x, id = some x → srv account name v 1 = some (idMessage x)) :
    Brings srv account name (mailbox v id).session := by
  intro mb v' hselect hv lo hi stream hfetch f uid raw hmem huid hbody
  obtain rfl : (mailbox v id).selected = mb := Except.ok.inj hselect
  obtain rfl : v = v' := Option.some.inj hv
  obtain rfl := Except.ok.inj hfetch
  obtain ⟨m, hm, heq⟩ := List.mem_map.mp hmem
  obtain rfl : m.fetch = f := Except.ok.inj heq
  obtain ⟨x, hx, rfl⟩ := List.mem_map.mp ((mailbox v id).mem_inRange.mp hm).1
  obtain rfl := Option.some.inj huid
  obtain rfl := Option.some.inj hbody
  exact hid x (by simpa using hx)

def syncInbox (id : Option String) : Step :=
  .sync (.calm "INBOX" fun _ => (mailbox 7 id).session)

def syncArchive (id : Option String) : Step :=
  .sync (.calm "Archive" fun _ => (mailbox 9 id).session)

def archiveMessage (id : MessageId) : Step :=
  .message (.calm fun _ => (mailbox 7 none).session) "user" (.archive id)

/-- The row of the message after the first sync. -/
def inboxRow : Message where
  toNewMessage := buildMessageRow 0 1 3 (⟨1, [], some 0, idMessage "a"⟩ : ServerMessage).fetched
    { messageId := some "a", inReplyTo := none, references := [], fromAddr := "", toAddrs := []
      ccAddrs := [], subject := none, textBody := none, htmlBody := none, attachments := [] } 0
  id := 4

/-- A server that holds the message under UID 1 of both mailboxes. -/
def copiedContent : ServerContent := fun _ _ _ uid =>
  if uid = 1 then some (idMessage "a") else none

end Postblox.Daemon
