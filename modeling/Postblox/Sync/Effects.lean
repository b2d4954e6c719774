import Postblox.Sync.Reconciler

/-!
# Effects of single commands

A statement does nothing, or all of it, whatever it reports. Most commands are
`quiet`: they touch neither a message row nor the UID state of a folder and make
no IMAP call. A program made of quiet commands is quiet.
-/
namespace Postblox.Sync

open Lib Db Imap Mail Attachments

variable {env : Env}

/-- The world after a statement without effect. -/
def World.tick (w : World) : World := { w with ops := w.ops + 1 }

theorem statement_world (w : World) : { w with ops := w.ops + 1 } = w.tick := rfl

/-- The world after a statement that changed the database. -/
def World.wrote (w : World) (db : Database) : World := { w with db, ops := w.ops + 1 }

/-- The world after a message row was inserted. -/
def World.inserted (w : World) (db : Database) (row : Message) : World :=
  { w with db, ops := w.ops + 1, origins := w.origins ++ [(row.id, w.syncs.getLast?)] }

variable (env) in
/-- Either no effect, and an error; or the whole effect, and possibly an error. -/
theorem statement_cases {ε α : Type} (failed : ε) (effect : World → Except ε (α × World))
    (w : World) :
    (∃ e, statement env failed effect w = (.error e, w.tick) ∧
        (e = failed ∨ effect w.tick = .error e)) ∨
      ∃ a w', effect w.tick = .ok (a, w') ∧
        (statement env failed effect w = (.ok a, w') ∨
          statement env failed effect w = (.error failed, w')) := by
  cases hfault : env.fault w.ops with
  | none =>
    cases heffect : effect w.tick with
    | error e =>
      refine .inl ⟨e, ?_, .inr rfl⟩
      simp only [statement, hfault, statement_world, heffect]
    | ok p =>
      refine .inr ⟨p.1, p.2, rfl, .inl ?_⟩
      simp only [statement, hfault, statement_world, heffect]
  | some fault =>
    cases fault with
    | before =>
      refine .inl ⟨failed, ?_, .inl rfl⟩
      simp only [statement, hfault, statement_world]
    | after =>
      cases heffect : effect w.tick with
      | error e =>
        refine .inl ⟨e, ?_, .inr rfl⟩
        simp only [statement, hfault, statement_world, heffect]
      | ok p =>
        refine .inr ⟨p.1, p.2, rfl, .inr ?_⟩
        simp only [statement, hfault, statement_world, heffect]

/-- Without a fault a statement reports what it did. -/
theorem statement_clean {ε α : Type} {failed : ε} {effect : World → Except ε (α × World)}
    {w : World} (h : env.fault w.ops = none) :
    statement env failed effect w =
      match effect w.tick with
      | .ok (a, w') => (.ok a, w')
      | .error e => (.error e, w.tick) := by
  unfold statement
  rw [h]
  rfl

variable (env) in
theorem update_cases {α : Type} (write : Database → Except DbError (α × Database)) (w : World) :
    (∃ e, update env write w = (.error e, w.tick) ∧ (e = .failed ∨ write w.db = .error e)) ∨
      ∃ a db, write w.db = .ok (a, db) ∧
        (update env write w = (.ok a, w.wrote db) ∨
          update env write w = (.error .failed, w.wrote db)) := by
  rcases statement_cases env DbError.failed
    (fun w => (write w.db).map fun r => (r.1, { w with db := r.2 })) w with
    ⟨e, heq, hfailed | herror⟩ | ⟨a, w', heffect, heq⟩
  · exact .inl ⟨e, heq, .inl hfailed⟩
  · refine .inl ⟨e, heq, .inr ?_⟩
    cases hwrite : write w.db with
    | error e' =>
      simp only [World.tick, hwrite, Except.map, Except.error.injEq] at herror
      rw [herror]
    | ok p => simp only [World.tick, hwrite, Except.map, reduceCtorEq] at herror
  · cases hwrite : write w.db with
    | error e =>
      simp only [World.tick, hwrite, Except.map, reduceCtorEq] at heffect
    | ok p =>
      simp only [World.tick, hwrite, Except.map, Except.ok.injEq, Prod.mk.injEq] at heffect
      obtain ⟨rfl, rfl⟩ := heffect
      exact .inr ⟨p.1, p.2, rfl, heq⟩

variable (env) in
theorem insertMessage_cases (new : NewMessage) (w : World) :
    (∃ e, insertMessage env new w = (.error e, w.tick)) ∨
      ∃ row db, Messages.create w.db new = .ok (row, db) ∧
        (insertMessage env new w = (.ok row, w.inserted db row) ∨
          insertMessage env new w = (.error .failed, w.inserted db row)) := by
  rcases statement_cases env DbError.failed
    (fun w => (Messages.create w.db new).map fun r =>
      (r.1, { w with db := r.2, origins := w.origins ++ [(r.1.id, w.syncs.getLast?)] })) w with
    ⟨e, heq, -⟩ | ⟨a, w', heffect, heq⟩
  · exact .inl ⟨e, heq⟩
  · cases hcreate : Messages.create w.db new with
    | error e =>
      simp only [World.tick, hcreate, Except.map, reduceCtorEq] at heffect
    | ok p =>
      simp only [World.tick, hcreate, Except.map, Except.ok.injEq, Prod.mk.injEq] at heffect
      obtain ⟨rfl, rfl⟩ := heffect
      exact .inr ⟨p.1, p.2, rfl, heq⟩

/-! ## Quiet commands -/

/-- The message rows, the folders, the accounts and the IMAP history are as before. -/
structure Quiet (w t : World) : Prop where
  messages : t.db.messages = w.db.messages
  folders : t.db.folders = w.db.folders
  accounts : t.db.accounts = w.db.accounts
  syncs : t.syncs = w.syncs
  origins : t.origins = w.origins

namespace Quiet

theorem refl (w : World) : Quiet w w := ⟨rfl, rfl, rfl, rfl, rfl⟩

theorem trans {w t u : World} (h : Quiet w t) (h' : Quiet t u) : Quiet w u where
  messages := h'.messages.trans h.messages
  folders := h'.folders.trans h.folders
  accounts := h'.accounts.trans h.accounts
  syncs := h'.syncs.trans h.syncs
  origins := h'.origins.trans h.origins

theorem tick (w : World) : Quiet w w.tick := ⟨rfl, rfl, rfl, rfl, rfl⟩

theorem statement {ε α : Type} {failed : ε} {effect : World → Except ε (α × World)}
    (h : ∀ w a w', effect w = .ok (a, w') → Quiet w w') (w : World) :
    Quiet w (statement env failed effect w).2 := by
  rcases statement_cases env failed effect w with
    ⟨e, heq, -⟩ | ⟨a, w', heffect, heq | heq⟩
  · rw [heq]
    exact tick w
  · rw [heq]
    exact (tick w).trans (h _ _ _ heffect)
  · rw [heq]
    exact (tick w).trans (h _ _ _ heffect)

theorem query {α : Type} (read : Database → α) (w : World) : Quiet w (query env read w).2 := by
  refine Quiet.statement ?_ w
  intro w a w' heq
  cases heq
  exact refl w

/-- A write that leaves messages, folders and accounts alone. -/
theorem update {α : Type} {write : Database → Except DbError (α × Database)}
    (h : ∀ db a db', write db = .ok (a, db') →
      db'.messages = db.messages ∧ db'.folders = db.folders ∧ db'.accounts = db.accounts)
    (w : World) : Quiet w (update env write w).2 := by
  rcases update_cases env write w with ⟨e, heq, -⟩ | ⟨a, db, hwrite, heq | heq⟩
  · rw [heq]
    exact tick w
  · obtain ⟨hmessages, hfolders, haccounts⟩ := h _ _ _ hwrite
    rw [heq]
    exact ⟨hmessages, hfolders, haccounts, rfl, rfl⟩
  · obtain ⟨hmessages, hfolders, haccounts⟩ := h _ _ _ hwrite
    rw [heq]
    exact ⟨hmessages, hfolders, haccounts, rfl, rfl⟩

end Quiet

def Cmd.quiet : Cmd → Bool
  | .syncFolder .. => false
  | .deleteAllInFolder _ => false
  | .createMessage _ => false
  | .deleteMessage _ => false
  | .updateUidState .. => false
  | .updateSync .. => false
  | .setFolder .. => false
  | _ => true

theorem handle_quiet (c : Cmd) (hc : c.quiet) (w : World) : Quiet w (handle env c w).2 := by
  cases c with
  | now site => exact .refl w
  | getAccount id => exact .query _ w
  | getFolderByName account name => exact .query _ w
  | listRecent account limit offset => exact .query _ w
  | messageIdsByThreads threads => exact .query _ w
  | existingUids folder uids => exact .query _ w
  | attachmentRoot => exact .query _ w
  | getAttachment id => exact .query _ w
  | getMessage id => exact .query _ w
  | listFolders account => exact .query _ w
  | recordAudit actor action target folder folderName => exact .query _ w
  | publish event => exact ⟨rfl, rfl, rfl, rfl, rfl⟩
  | touchLastMessageAt thread time =>
    refine Quiet.update ?_ w
    intro db a db' heq
    cases heq
    exact ⟨rfl, rfl, rfl⟩
  | refreshAggregates thread =>
    refine Quiet.update ?_ w
    intro db a db' heq
    cases heq
    exact ⟨rfl, rfl, rfl⟩
  | createThread account externalId subject =>
    refine Quiet.update ?_ w
    intro db a db' heq
    unfold Threads.create at heq
    split_ifs at heq
    cases heq
    exact ⟨rfl, rfl, rfl⟩
  | createAttachment new =>
    refine Quiet.update ?_ w
    intro db a db' heq
    unfold Attachments.create at heq
    split_ifs at heq
    cases heq
    exact ⟨rfl, rfl, rfl⟩
  | writeNewFile path =>
    refine Quiet.statement ?_ w
    intro w a w' heq
    split_ifs at heq
    cases heq
    exact ⟨rfl, rfl, rfl, rfl, rfl⟩
  | syncFolder | deleteAllInFolder | createMessage | deleteMessage | updateUidState | updateSync
  | setFolder =>
    exact absurd hc Bool.false_ne_true

abbrev OnlyQuiet {ε α : Type} (p : Fallible ε Cmd Reply α) : Prop :=
  Fallible.Only (fun c => c.quiet = true) p

variable (env) in
theorem exec_quiet {ε α : Type} {p : Fallible ε Cmd Reply α} (hp : OnlyQuiet p) (w : World) :
    Quiet w (Fallible.exec (handle env) p w).2 :=
  Fallible.exec_rel (handle env) Quiet.refl (fun _ _ _ => Quiet.trans) handle_quiet hp w

/-- Run the quiet first half of a program and go on from wherever it ends. -/
theorem wp_quiet_bind {α β ε : Type} {p : Fallible ε Cmd Reply α}
    {f : α → Fallible ε Cmd Reply β} {w : World} {Q : Except ε β → World → Prop}
    (hp : OnlyQuiet p)
    (hok : ∀ a t, Quiet w t → Fallible.wp (handle env) (f a) t Q)
    (herror : ∀ e t, Quiet w t → Q (.error e) t) : Fallible.wp (handle env) (p >>= f) w Q := by
  have hquiet := exec_quiet env hp w
  exact Fallible.wp_bind _ ⟨fun a _ => hok a _ hquiet, fun e _ => herror e _ hquiet⟩

/-! ## The commands of the programs -/

section Programs

open Fallible

variable {P : Cmd → Prop}

theorem only_ofDb {α : Type} (x : Except DbError α) : Only P (SyncM.ofDb x) := by
  cases x with
  | ok a => exact only_pure a
  | error e => exact only_throw _

theorem only_orNow (hnow : ∀ site, P (.now site)) (date : Option Int) (site : ClockSite) :
    Only P (orNow date site) := by
  cases date with
  | some d => exact only_pure d
  | none => exact only_ask (hnow site)

theorem only_threadRefs (hnow : ∀ site, P (.now site)) (pairs : List (ThreadId × String))
    (index : Nat) (threads : List Thread) : Only P (threadRefs pairs index threads) := by
  induction threads generalizing index with
  | nil => exact only_pure []
  | cons thread rest ih =>
    exact only_bind (only_orNow hnow _ _) fun _ => only_bind (ih (index + 1)) fun _ => only_pure _

theorem only_knownThreads (hnow : ∀ site, P (.now site))
    (hrecent : ∀ account limit offset, P (.listRecent account limit offset))
    (hids : ∀ threads, P (.messageIdsByThreads threads)) (account : AccountId) :
    Only P (knownThreads account) := by
  refine only_bind (only_ask (hrecent _ _ _)) fun recent => only_bind (only_ofDb recent)
    fun recent => ?_
  refine only_bind ?_ fun pairs => only_threadRefs hnow pairs 0 recent
  unfold messageIdsByThreads
  split_ifs
  · exact only_pure []
  · exact only_bind (only_ask (hids _)) fun x => only_ofDb x

theorem only_threadFor (hnow : ∀ site, P (.now site))
    (hcreate : ∀ account externalId subject, P (.createThread account externalId subject))
    (mail : MailCrate) (account : AccountId) (p : Progress) (fetched : FetchedMessage)
    (parsed : ParsedEmail) : Only P (threadFor mail account p fetched parsed) := by
  refine only_bind (only_ask (hnow _)) fun now => ?_
  split
  · exact only_pure _
  · exact only_bind (only_ask (hcreate _ _ _)) fun x => only_bind (only_ofDb x) fun _ =>
      only_bind (only_orNow hnow _ _) fun _ => only_pure _

theorem only_existingUids (huids : ∀ folder uids, P (.existingUids folder uids))
    (folder : FolderId) (uids : List Int) : Only P (existingUids folder uids) := by
  unfold existingUids
  split_ifs
  · exact only_pure []
  · exact only_bind (only_ask (huids _ _)) fun x => only_ofDb x

/-- What follows the insertion of a message. -/
theorem only_afterStore (hnow : ∀ site, P (.now site))
    (htouch : ∀ thread time, P (.touchLastMessageAt thread time))
    (hrefresh : ∀ thread, P (.refreshAggregates thread)) (hpublish : ∀ event, P (.publish event))
    (thread : ThreadId) (date : Option Int) (site : ClockSite) (event : Event) (p : Progress) :
    Only P (do
      let time ← orNow date site
      SyncM.ofDb (← perform (.touchLastMessageAt thread time))
      SyncM.ofDb (← perform (.refreshAggregates thread))
      perform (.publish event)
      return p : SyncM Progress) :=
  only_bind (only_orNow hnow _ _) fun _ => only_bind (only_ask (htouch _ _)) fun x =>
    only_bind (only_ofDb x) fun _ => only_bind (only_ask (hrefresh _)) fun x =>
      only_bind (only_ofDb x) fun _ => only_bind (only_ask (hpublish _)) fun _ => only_pure _

theorem only_persistDb {α : Type} (x : Except DbError α) : Only P (Persist.ofDb x) := by
  cases x with
  | ok a => exact only_pure a
  | error e => exact only_throw _

theorem only_persistIo {α : Type} (x : Except IoError α) : Only P (Persist.ofIo x) := by
  cases x with
  | ok a => exact only_pure a
  | error e => exact only_throw _

/-- Persisting writes files of the one message only. -/
theorem only_persist {message : MessageId}
    (hwrite : ∀ path : StoredPath, path.messageId = message → P (.writeNewFile path))
    (hroot : P .attachmentRoot) (hcreate : ∀ new, P (.createAttachment new))
    (hget : ∀ id, P (.getAttachment id)) (attachments : List ParsedAttachment) :
    Only P (persistParsedForMessage message attachments) := by
  have hfrom : ∀ root index, Only P (persistFrom root message index attachments) := by
    intro root
    induction attachments with
    | nil => exact fun _ => only_pure ()
    | cons attachment rest ih =>
      intro index
      refine only_bind ?_ fun _ => ih (index + 1)
      unfold persistOne
      split_ifs
      · exact only_throw _
      · exact only_bind (only_ask (hwrite _ rfl)) fun x => only_bind (only_persistIo x) fun _ =>
          only_bind (only_ask (hcreate _)) fun x => only_bind (only_persistDb x) fun _ =>
            only_bind (only_ask (hget _)) fun x => only_persistDb x
  unfold persistParsedForMessage
  split_ifs
  · exact only_pure ()
  · exact only_bind (only_ask hroot) fun x => only_bind (only_persistDb x) fun root =>
      hfrom root 0

theorem only_fetchFrom (hsync : ∀ account host port username credential folder fromUid,
    P (.syncFolder account host port username credential folder fromUid)) (t : Target)
    (fromUid : UInt32) : Only P (fetchFrom t fromUid) := by
  refine only_bind (only_ask (hsync _ _ _ _ _ _ _)) fun x => ?_
  cases x with
  | ok a => exact only_pure a
  | error e => exact only_throw _

theorem only_lookup (haccount : ∀ id, P (.getAccount id))
    (hfolder : ∀ account name, P (.getFolderByName account name)) (req : Request) :
    Only P (lookup req) := by
  unfold lookup
  split_ifs
  · exact only_throw _
  · refine only_bind (only_ask (haccount _)) fun x => only_bind (only_ofDb x) fun account => ?_
    cases account with
    | none => exact only_throw _
    | some account =>
      refine only_bind (only_ask (hfolder _ _)) fun x => only_bind (only_ofDb x) fun folder => ?_
      cases folder with
      | none => exact only_throw _
      | some folder =>
        refine only_bind ?_ fun port => only_pure _
        cases portU16 account.imapPort with
        | ok port => exact only_pure port
        | error e => exact only_throw _

theorem only_finish
    (hstate : ∀ folder validity next seen, P (.updateUidState folder validity next seen))
    (hnow : ∀ site, P (.now site))
    (hsync : ∀ account status error time, P (.updateSync account status error time))
    (hpublish : ∀ event, P (.publish event)) (t : Target) (o : Opened) (d : Drained) :
    Only P (finish t o d) := by
  refine only_bind (only_ask (hstate _ _ _ _)) fun x => only_bind (only_ofDb x) fun _ => ?_
  refine only_bind (only_ask (hnow _)) fun now => only_bind (only_ask (hsync _ _ _ _))
    fun x => only_bind (only_ofDb x) fun _ => ?_
  split_ifs
  · exact only_bind (only_ask (hpublish _)) fun _ => only_pure _
  · exact only_pure _

end Programs

end Postblox.Sync
