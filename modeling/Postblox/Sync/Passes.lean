import Postblox.Lib.Paired
import Postblox.Sync.Clashes

/-!
# What storing a message depends on

What a call stores depends on the thread and message rows, on the ids handed out
and on the files, not on the marks and states that other calls left behind
(`SameStore`). So a message that is put into the same thread leaves the same rows,
whichever call it comes with (`paired_ingest`).
-/
namespace Postblox.Sync

open Lib Db Imap Mail Attachments

/-! ## The same mail -/

/-- The same threads and messages, and the same accounts and folders up to what a
call records about them. -/
structure SameRows (db db' : Database) : Prop where
  threads : db.threads = db'.threads
  messages : db.messages = db'.messages
  nextId : db.nextId = db'.nextId
  accounts : db.accounts.map (·.id) = db'.accounts.map (·.id)
  folders : db.folders.map (·.id) = db'.folders.map (·.id)

structure SameStore (w w' : World) : Prop where
  rows : SameRows w.db w'.db
  files : w.files = w'.files

/-- Two installations without faults and with one attachment directory and one
database clock. -/
structure Peers (env env' : Env) : Prop where
  clean : env.Clean
  clean' : env'.Clean
  root : env.attachmentRoot = env'.attachmentRoot
  dbClock : env.dbClock = env'.dbClock

theorem Peers.self {env : Env} (hclean : env.Clean) : Peers env env := ⟨hclean, hclean, rfl, rfl⟩

/-- Two writes that are refused alike, or give one reply and the same rows. -/
inductive SameWrites {α : Type} :
    Except DbError (α × Database) → Except DbError (α × Database) → Prop where
  | error (e : DbError) : SameWrites (.error e) (.error e)
  | ok {a a' : α} {db db' : Database} (reply : a = a') (rows : SameRows db db') :
    SameWrites (.ok (a, db)) (.ok (a', db'))

namespace SameRows

variable {db db' : Database}

theorem refl (db : Database) : SameRows db db := ⟨rfl, rfl, rfl, rfl, rfl⟩

theorem symm (h : SameRows db db') : SameRows db' db :=
  ⟨h.threads.symm, h.messages.symm, h.nextId.symm, h.accounts.symm, h.folders.symm⟩

theorem trans {db'' : Database} (h : SameRows db db') (h' : SameRows db' db'') :
    SameRows db db'' :=
  ⟨h.threads.trans h'.threads, h.messages.trans h'.messages, h.nextId.trans h'.nextId,
    h.accounts.trans h'.accounts, h.folders.trans h'.folders⟩

theorem get_isNone (h : SameRows db db') (id : AccountId) :
    (Accounts.get db id).isNone = (Accounts.get db' id).isNone := by
  have hids : ∀ d : Database, (Accounts.get d id).isNone = !(d.accounts.map (·.id)).contains id := by
    intro d
    unfold Accounts.get
    rw [Bool.eq_iff_iff, Option.isNone_iff_eq_none, List.find?_eq_none]
    simp
  rw [hids, hids, h.accounts]

theorem folderMissing_iff (h : SameRows db db') (id : FolderId) :
    (∀ f ∈ db.folders, f.id ≠ id) ↔ ∀ f ∈ db'.folders, f.id ≠ id := by
  have hids : ∀ d : Database, (∀ f ∈ d.folders, f.id ≠ id) ↔ id ∉ d.folders.map (·.id) := by
    intro d
    simp
  rw [hids, hids, h.folders]

theorem createThread (h : SameRows db db') (createdAt : Int) (account : AccountId)
    (externalId subject : Option String) :
    SameWrites (Threads.create db createdAt account externalId subject)
      (Threads.create db' createdAt account externalId subject) := by
  have htaken : Threads.ExternalTaken db account externalId ↔
      Threads.ExternalTaken db' account externalId := by
    unfold Threads.ExternalTaken
    rw [h.threads]
  unfold Threads.create
  by_cases hclash : Threads.ExternalTaken db account externalId
  · rw [dif_pos hclash, dif_pos (htaken.mp hclash)]
    exact .error _
  · rw [dif_neg hclash, dif_neg (fun h' => hclash (htaken.mpr h')), h.get_isNone]
    split_ifs
    · exact .error _
    · have hrow : Threads.newRow db createdAt account externalId subject =
          Threads.newRow db' createdAt account externalId subject := by
        unfold Threads.newRow
        rw [h.nextId]
      refine .ok hrow ⟨?_, h.messages, ?_, h.accounts, h.folders⟩
      · show db.threads ++ _ = db'.threads ++ _
        rw [h.threads, hrow]
      · show db.nextId + 1 = db'.nextId + 1
        rw [h.nextId]

theorem createMessage (h : SameRows db db') (new : NewMessage) :
    SameWrites (Messages.create db new) (Messages.create db' new) := by
  have htaken : Messages.UidTaken db new.folderId new.uid ↔
      Messages.UidTaken db' new.folderId new.uid := by
    unfold Messages.UidTaken
    rw [h.messages]
  have hkeys : ((Accounts.get db new.accountId).isNone ∨ (∀ f ∈ db.folders, f.id ≠ new.folderId) ∨
        new.threadId.any (fun id => ∀ th ∈ db.threads, th.id ≠ id)) ↔
      ((Accounts.get db' new.accountId).isNone ∨ (∀ f ∈ db'.folders, f.id ≠ new.folderId) ∨
        new.threadId.any (fun id => ∀ th ∈ db'.threads, th.id ≠ id)) := by
    rw [h.get_isNone, h.folderMissing_iff, h.threads]
  unfold Messages.create
  by_cases hclash : Messages.UidTaken db new.folderId new.uid
  · rw [dif_pos hclash, dif_pos (htaken.mp hclash)]
    exact .error _
  · rw [dif_neg hclash, dif_neg (fun h' => hclash (htaken.mpr h'))]
    by_cases hmissing : (Accounts.get db new.accountId).isNone ∨
        (∀ f ∈ db.folders, f.id ≠ new.folderId) ∨
        new.threadId.any (fun id => ∀ th ∈ db.threads, th.id ≠ id)
    · rw [if_pos hmissing, if_pos (hkeys.mp hmissing)]
      exact .error _
    · rw [if_neg hmissing, if_neg (fun h' => hmissing (hkeys.mpr h'))]
      have hrow : ({ new with id := db.nextId } : Message) = { new with id := db'.nextId } := by
        rw [h.nextId]
      refine .ok hrow ⟨h.threads, ?_, ?_, h.accounts, h.folders⟩
      · show db.messages ++ _ = db'.messages ++ _
        rw [h.messages, hrow]
      · show db.nextId + 1 = db'.nextId + 1
        rw [h.nextId]

theorem createAttachment (h : SameRows db db') (new : NewAttachment) :
    SameWrites (Db.Attachments.create db new) (Db.Attachments.create db' new) := by
  unfold Db.Attachments.create
  rw [h.messages]
  split_ifs
  · exact .error _
  · have hrow : ({ new with id := db.nextId } : Attachment) = { new with id := db'.nextId } := by
      rw [h.nextId]
    refine .ok hrow ⟨h.threads, h.messages, ?_, h.accounts, h.folders⟩
    show db.nextId + 1 = db'.nextId + 1
    rw [h.nextId]

theorem deleteMessage (h : SameRows db db') (id : MessageId) :
    SameWrites (.ok (Messages.delete db id)) (.ok (Messages.delete db' id)) := by
  refine .ok ?_ ⟨h.threads, ?_, h.nextId, h.accounts, h.folders⟩
  · rw [h.messages]
  · show db.messages.filter _ = db'.messages.filter _
    rw [h.messages]

theorem touch (h : SameRows db db') (thread : ThreadId) (time : Int) :
    SameRows (Threads.touchLastMessageAt db thread time)
      (Threads.touchLastMessageAt db' thread time) := by
  refine ⟨?_, h.messages, h.nextId, h.accounts, h.folders⟩
  show updateWhere _ _ db.threads = updateWhere _ _ db'.threads
  rw [h.threads]

theorem refresh (h : SameRows db db') (thread : ThreadId) :
    SameRows (Threads.refreshAggregates db thread) (Threads.refreshAggregates db' thread) := by
  refine ⟨?_, h.messages, h.nextId, h.accounts, h.folders⟩
  show updateWhere _ _ db.threads = updateWhere _ _ db'.threads
  rw [h.threads, h.messages]

end SameRows

/-! ## Commands that store mail -/

/-- The commands that store one message. -/
def Cmd.stores : Cmd → Bool
  | .createThread .. => true
  | .createMessage _ => true
  | .deleteMessage _ => true
  | .attachmentRoot => true
  | .writeNewFile _ => true
  | .createAttachment _ => true
  | .getAttachment _ => true
  | .touchLastMessageAt .. => true
  | .refreshAggregates _ => true
  | .publish _ => true
  | _ => false

namespace SameStore

variable {env env' : Env} {w w' : World} {α : Type}

theorem refl (w : World) : SameStore w w := ⟨.refl _, rfl⟩

theorem symm (h : SameStore w w') : SameStore w' w := ⟨h.rows.symm, h.files.symm⟩

theorem trans {w'' : World} (h : SameStore w w') (h' : SameStore w' w'') : SameStore w w'' :=
  ⟨h.rows.trans h'.rows, h.files.trans h'.files⟩

theorem query (hpeers : Peers env env') (h : SameStore w w') {read read' : Database → α}
    (hread : read w.db = read' w'.db) :
    (query env read w).1 = (query env' read' w').1 ∧
      SameStore (query env read w).2 (query env' read' w').2 := by
  rw [query_clean hpeers.clean, query_clean hpeers.clean', hread]
  exact ⟨rfl, h.rows, h.files⟩

theorem update (hpeers : Peers env env') (h : SameStore w w')
    {write write' : Database → Except DbError (α × Database)}
    (hwrite : SameWrites (write w.db) (write' w'.db)) :
    (update env write w).1 = (update env' write' w').1 ∧
      SameStore (update env write w).2 (update env' write' w').2 := by
  generalize hx : write w.db = x at hwrite
  generalize hy : write' w'.db = y at hwrite
  cases hwrite with
  | error e =>
    rw [update_refused hpeers.clean hx, update_refused hpeers.clean' hy]
    exact ⟨rfl, h.rows, h.files⟩
  | ok reply rows =>
    rw [update_clean hpeers.clean hx, update_clean hpeers.clean' hy]
    exact ⟨congrArg Except.ok reply, rows, h.files⟩

theorem insertMessage (hpeers : Peers env env') (h : SameStore w w') (new : NewMessage) :
    (insertMessage env new w).1 = (insertMessage env' new w').1 ∧
      SameStore (insertMessage env new w).2 (insertMessage env' new w').2 := by
  have hwrite := h.rows.createMessage new
  generalize hx : Messages.create w.db new = x at hwrite
  generalize hy : Messages.create w'.db new = y at hwrite
  cases hwrite with
  | error e =>
    rw [insertMessage_refused hpeers.clean hx, insertMessage_refused hpeers.clean' hy]
    exact ⟨rfl, h.rows, h.files⟩
  | ok reply rows =>
    rw [insertMessage_clean hpeers.clean hx, insertMessage_clean hpeers.clean' hy]
    exact ⟨congrArg Except.ok reply, rows, h.files⟩

theorem writeFile (hpeers : Peers env env') (h : SameStore w w') (path : StoredPath) :
    (writeFile env path w).1 = (writeFile env' path w').1 ∧
      SameStore (writeFile env path w).2 (writeFile env' path w').2 := by
  by_cases hfree : path ∈ w.files
  · rw [writeFile_refused hpeers.clean hfree, writeFile_refused hpeers.clean' (h.files ▸ hfree)]
    exact ⟨rfl, h.rows, h.files⟩
  · rw [writeFile_clean hpeers.clean hfree, writeFile_clean hpeers.clean' (h.files ▸ hfree)]
    refine ⟨rfl, h.rows, ?_⟩
    show w.files ++ _ = w'.files ++ _
    rw [h.files]

/-- A command that stores mail does the same in both worlds. -/
theorem handle (hpeers : Peers env env') {c : Cmd} (hc : c.stores) (h : SameStore w w') :
    (handle env c w).1 = (handle env' c w').1 ∧
      SameStore (handle env c w).2 (handle env' c w').2 := by
  cases c with
  | createThread account externalId subject =>
    refine update hpeers h ?_
    rw [hpeers.dbClock, h.rows.nextId]
    exact h.rows.createThread _ account externalId subject
  | createMessage new => exact insertMessage hpeers h new
  | deleteMessage id => exact update hpeers h (h.rows.deleteMessage id)
  | attachmentRoot => exact query hpeers h hpeers.root
  | writeNewFile path => exact writeFile hpeers h path
  | createAttachment new => exact update hpeers h (h.rows.createAttachment new)
  | getAttachment id => exact query hpeers h rfl
  | touchLastMessageAt thread time => exact update hpeers h (.ok rfl (h.rows.touch thread time))
  | refreshAggregates thread => exact update hpeers h (.ok rfl (h.rows.refresh thread))
  | publish event => exact ⟨rfl, h.rows, h.files⟩
  | _ => exact absurd hc Bool.false_ne_true

end SameStore

section Programs

open Fallible

variable {P : Cmd → Prop}

theorem only_storeMessage (hstores : ∀ c : Cmd, c.stores → P c) (new : NewMessage)
    (attachments : List ParsedAttachment) : Only P (storeMessage new attachments) := by
  refine only_bind (only_ask (hstores _ rfl)) fun x => only_bind (only_ofDb x) fun row => ?_
  refine only_bind (only_attempt (only_persist (fun _ _ => hstores _ rfl) (hstores _ rfl)
    (fun _ => hstores _ rfl) (fun _ => hstores _ rfl) attachments)) fun outcome => ?_
  cases outcome with
  | ok _ => exact only_pure row
  | error e => exact only_bind (only_ask (hstores _ rfl)) fun _ => only_throw _

theorem only_ingestAll (hstores : ∀ c : Cmd, c.stores → P c) (hnow : ∀ site, P (.now site))
    (mail : MailCrate) (account : AccountId) (folder : FolderId) (already : List Int)
    (messages : List FetchedMessage) (p : Progress) :
    Only P (ingestAll mail account folder already messages p) := by
  induction messages generalizing p with
  | nil => exact only_pure p
  | cons m rest ih =>
    refine only_bind ?_ ih
    unfold ingest
    split_ifs
    · exact only_pure p
    · exact only_pure p
    · split
      · exact only_pure p
      · exact only_bind (only_threadFor hnow (fun _ _ _ => hstores _ rfl) _ _ _ _ _) fun _ =>
          only_bind (only_orNow hnow _ _) fun _ =>
            only_bind (only_storeMessage hstores _ _) fun _ =>
              only_afterStore hnow (fun _ _ => hstores _ rfl) (fun _ => hstores _ rfl)
                (fun _ => hstores _ rfl) _ _ _ _ _

end Programs

/-! ## One message, twice -/

section Twice

open Fallible

variable {env env' : Env} {mail : MailCrate} {account : AccountId} {folder : FolderId}
  {w w' : World}

/-- The rest of the two programs may differ, given one reply. -/
theorem paired_stores_bind (hpeers : Peers env env') {α β β' : Type} {p : SyncM α}
    (hp : Only (fun c => c.stores) p) (h : SameStore w w') {f : α → SyncM β} {f' : α → SyncM β'}
    {T : β → β' → Prop}
    (hrest : ∀ a t t', SameStore t t' →
      Paired (handle env) (handle env') SameStore T (f a) t (f' a) t') :
    Paired (handle env) (handle env') SameStore T (p >>= f) w (p >>= f') w' := by
  refine paired_bind _ _ (paired_same _ _ (fun c hc s s' => SameStore.handle hpeers hc) hp h) ?_
  rintro a _ t t' - - rfl hS
  exact hrest a t t' hS

variable {now : Int}

theorem paired_orNow_bind (hnow : ∀ site, env.clock site = now)
    (hnow' : ∀ site, env'.clock site = now) {β β' : Type} {date : Option Int}
    {site site' : ClockSite} {f : Int → SyncM β} {f' : Int → SyncM β'} {T : β → β' → Prop}
    (hrest : Paired (handle env) (handle env') SameStore T (f (date.getD now)) w
      (f' (date.getD now)) w') :
    Paired (handle env) (handle env') SameStore T (orNow date site >>= f) w
      (orNow date site' >>= f') w' := by
  unfold Paired at hrest ⊢
  rw [exec_bind, exec_bind, exec_orNow, exec_orNow, hnow, hnow']
  exact hrest

theorem paired_now_bind (hnow : ∀ site, env.clock site = now)
    (hnow' : ∀ site, env'.clock site = now) {β β' : Type} {site site' : ClockSite}
    {f : Int → SyncM β} {f' : Int → SyncM β'} {T : β → β' → Prop}
    (hrest : Paired (handle env) (handle env') SameStore T (f now) w (f' now) w') :
    Paired (handle env) (handle env') SameStore T (perform (.now site) >>= f) w
      (perform (.now site') >>= f') w' := by
  have hasked : Paired (handle env) (handle env') SameStore T (f (env.clock site)) w
      (f' (env'.clock site')) w' := by
    rw [hnow, hnow']
    exact hrest
  exact hasked

/-- The two lists grew by the same views. -/
def GrewAlike (p p' : Progress) (refs refs' : List ThreadRef) : Prop :=
  ∃ started, refs = p.refs ++ started ∧ refs' = p'.refs ++ started

variable {p p' : Progress} {fetched : FetchedMessage} {parsed : ParsedEmail}

theorem paired_threadFor (hpeers : Peers env env') (hnow : ∀ site, env.clock site = now)
    (hnow' : ∀ site, env'.clock site = now) (h : SameStore w w')
    (halike : assignThread mail.caseMap now parsed p.refs =
      assignThread mail.caseMap now parsed p'.refs) :
    Paired (handle env) (handle env') SameStore
      (fun r r' => r.1 = r'.1 ∧ GrewAlike p p' r.2 r'.2)
      (threadFor mail account p fetched parsed) w (threadFor mail account p' fetched parsed) w' := by
  refine paired_now_bind hnow hnow' ?_
  rw [halike]
  cases assignThread mail.caseMap now parsed p'.refs with
  | existing id => exact paired_pure _ _ ⟨rfl, [], by simp⟩ h
  | new =>
    refine paired_stores_bind hpeers (only_ask rfl) h fun reply t t' ht => ?_
    refine paired_stores_bind hpeers (only_ofDb reply) ht fun thread u u' hu => ?_
    exact paired_orNow_bind hnow hnow' (paired_pure _ _ ⟨rfl, _, rfl, rfl⟩ hu)

/-- A message that both lists put into the same thread is stored alike. -/
theorem paired_ingest (hpeers : Peers env env') (hnow : ∀ site, env.clock site = now)
    (hnow' : ∀ site, env'.clock site = now) (h : SameStore w w')
    (halike : ∀ parsed, parsedOf mail fetched = some parsed →
      assignThread mail.caseMap now parsed p.refs =
        assignThread mail.caseMap now parsed p'.refs) :
    Paired (handle env) (handle env') SameStore (fun q q' => GrewAlike p p' q.refs q'.refs)
      (ingest mail account folder [] p fetched) w (ingest mail account folder [] p' fetched) w' := by
  have hsame : GrewAlike p p' p.refs p'.refs := ⟨[], by simp⟩
  unfold ingest
  split_ifs with hseen hraw
  · exact paired_pure _ _ hsame h
  · exact paired_pure _ _ hsame h
  · have hparsed : parsedOf mail fetched = mail.parse fetched.raw := if_neg hraw
    split
    · exact paired_pure _ _ hsame h
    · next parsed hparse =>
      refine paired_bind _ _ (paired_threadFor hpeers hnow hnow' h
        (halike parsed (hparsed.trans hparse))) ?_
      rintro ⟨thread, refs⟩ ⟨thread', refs'⟩ t t' - - ⟨hthread, hgrew⟩ ht
      obtain rfl : thread = thread' := hthread
      refine paired_orNow_bind hnow hnow' ?_
      refine paired_stores_bind hpeers (only_storeMessage (fun _ h => h) _ _) ht
        fun row u u' hu => paired_orNow_bind hnow hnow' ?_
      refine paired_stores_bind hpeers (only_ask rfl) hu fun touched u₁ u₁' hu₁ => ?_
      refine paired_stores_bind hpeers (only_ofDb touched) hu₁ fun _ u₂ u₂' hu₂ => ?_
      refine paired_stores_bind hpeers (only_ask rfl) hu₂ fun refreshed u₃ u₃' hu₃ => ?_
      refine paired_stores_bind hpeers (only_ofDb refreshed) hu₃ fun _ u₄ u₄' hu₄ => ?_
      exact paired_stores_bind hpeers (only_ask rfl) hu₄ fun _ u₅ u₅' hu₅ =>
        paired_pure _ _ hgrew hu₅

end Twice

end Postblox.Sync
