import Postblox.Sync.Clean

/-!
# The counts and dates kept with a thread

A thread row repeats the number of its messages and the latest of their dates. The
repetition is right after a message was stored and `refresh_aggregates` was run, and a
rollback brings it back. A wipe takes messages away and refreshes nothing, and an error
between the insertion and the refresh leaves the old numbers.
-/
namespace Postblox.Sync

open Lib Db Imap Mail Attachments

/-! ## Right numbers -/

/-- The dates of the messages of a thread. -/
def datesOf (messages : List Message) (id : ThreadId) : List Int :=
  (messages.filter fun m => m.threadId = some id).map (·.internalDate)

/-- The row repeats the number and the latest date of its messages. -/
def Right (messages : List Message) (th : Thread) : Prop :=
  th.messageCount = (datesOf messages th.id).length ∧
    th.lastMessageAt = (datesOf messages th.id).max?

/-- Every thread but `x` is right, and messages belong to threads that were made. -/
structure AggregatedBut (x : Option ThreadId) (db : Database) : Prop where
  right : ∀ th ∈ db.threads, some th.id ≠ x → Right db.messages th
  minted : ∀ m ∈ db.messages, ∀ id, m.threadId = some id → id < db.nextId

abbrev Aggregated (db : Database) : Prop := AggregatedBut none db

theorem Right.congr {messages messages' : List Message} {th : Thread}
    (hdates : datesOf messages' th.id = datesOf messages th.id) (h : Right messages th) :
    Right messages' th := by
  unfold Right
  rw [hdates]
  exact h

theorem Aggregated.but {db : Database} (h : Aggregated db) (x : Option ThreadId) :
    AggregatedBut x db :=
  ⟨fun th hth _ => h.right th hth (Option.some_ne_none _), h.minted⟩

/-- Tables that agree on threads and messages. -/
theorem AggregatedBut.of_same {db db' : Database} {x : Option ThreadId} (h : AggregatedBut x db)
    (hthreads : db'.threads = db.threads) (hmessages : db'.messages = db.messages)
    (hnext : db.nextId ≤ db'.nextId) : AggregatedBut x db' := by
  refine ⟨?_, ?_⟩
  · rw [hthreads, hmessages]
    exact h.right
  · rw [hmessages]
    exact fun m hm id hid => (h.minted m hm id hid).trans_le hnext

section Statements

variable {db db' : Database}

/-- A new thread has no messages yet. -/
theorem Aggregated.createThread (h : Aggregated db) {createdAt : Int} {account : AccountId}
    {externalId subject : Option String} {th : Thread}
    (hcreate : Threads.create db createdAt account externalId subject = .ok (th, db')) :
    Aggregated db' := by
  unfold Threads.create at hcreate
  split_ifs at hcreate
  cases hcreate
  have hnone : datesOf db.messages db.nextId = [] := by
    unfold datesOf
    rw [List.map_eq_nil_iff, List.filter_eq_nil_iff]
    intro m hm hid
    exact absurd (h.minted m hm db.nextId (by simpa using hid)) (Nat.lt_irrefl _)
  refine ⟨fun row hrow _ => ?_, fun m hm id hid => Nat.lt_succ_of_lt (h.minted m hm id hid)⟩
  rcases List.mem_append.mp hrow with hold | hnew
  · exact h.right row hold (Option.some_ne_none _)
  · rw [List.mem_singleton.mp hnew]
    unfold Right
    show 0 = (datesOf db.messages db.nextId).length ∧ none = (datesOf db.messages db.nextId).max?
    rw [hnone]
    exact ⟨rfl, rfl⟩

theorem AggregatedBut.touch {x : ThreadId} (h : AggregatedBut (some x) db) (time : Int) :
    AggregatedBut (some x) (Threads.touchLastMessageAt db x time) := by
  refine ⟨fun row hrow hne => ?_, h.minted⟩
  obtain ⟨old, hold, heq⟩ := mem_updateWhere.mp hrow
  split_ifs at heq with hx
  · rw [heq] at hne
    have hid : old.id = x := (of_decide_eq_true hx).1
    exact absurd (congrArg some hid) hne
  · rw [heq] at hne ⊢
    exact h.right old hold hne

/-- The refresh puts the one thread right. -/
theorem AggregatedBut.refresh {x : ThreadId} (h : AggregatedBut (some x) db) :
    Aggregated (Threads.refreshAggregates db x) := by
  refine ⟨fun row hrow _ => ?_, h.minted⟩
  obtain ⟨old, hold, heq⟩ := mem_updateWhere.mp hrow
  split_ifs at heq with hx
  · have hid : old.id = x := of_decide_eq_true hx
    rw [heq]
    unfold Right datesOf
    simp only [hid, List.length_map]
    exact ⟨rfl, rfl⟩
  · rw [heq]
    have hid : old.id ≠ x := by simpa using hx
    exact h.right old hold fun hsome => hid (Option.some.inj hsome)

/-- A new message disturbs the thread it belongs to. -/
theorem Aggregated.createMessage (h : Aggregated db) {new : NewMessage} {row : Message}
    {x : ThreadId} (hthread : new.threadId = some x)
    (hcreate : Messages.create db new = .ok (row, db')) : AggregatedBut (some x) db' := by
  unfold Messages.create at hcreate
  split_ifs at hcreate with htaken hforeign
  cases hcreate
  refine ⟨fun th hth hne => ?_, fun m hm id hid => ?_⟩
  · refine (h.right th hth (Option.some_ne_none _)).congr ?_
    have hother : ¬ new.threadId = some th.id := by
      rw [hthread]
      exact fun heq => hne heq.symm
    unfold datesOf
    rw [List.filter_append, List.filter_singleton]
    simp [hother]
  · rcases List.mem_append.mp hm with hold | hnew
    · exact Nat.lt_succ_of_lt (h.minted m hold id hid)
    · -- the foreign key: the thread of a new message is there
      rw [List.mem_singleton.mp hnew] at hid
      have hexists : ∃ th ∈ db.threads, th.id = id := by
        by_contra hnone
        refine hforeign (.inr (.inr ?_))
        rw [show new.threadId = some id from hid]
        simpa using hnone
      obtain ⟨th, hth, rfl⟩ := hexists
      exact Nat.lt_succ_of_lt (db.wf.threadsMinted th hth)

theorem datesOf_eq_filterMap (messages : List Message) (x : ThreadId) :
    datesOf messages x =
      messages.filterMap fun m => if m.threadId = some x then some m.internalDate else none := by
  unfold datesOf
  induction messages with
  | nil => rfl
  | cons m rest ih =>
    by_cases hx : m.threadId = some x
    · simp [hx, ih]
    · simp [hx, ih]

/-- A move keeps the thread and the date of every message. -/
theorem datesOf_moved (id : MessageId) (folder : FolderId) (messages : List Message)
    (x : ThreadId) : datesOf (Messages.moved id folder messages) x = datesOf messages x := by
  rw [datesOf_eq_filterMap, datesOf_eq_filterMap]
  refine filterMap_updateWhere (fun m => ?_) messages
  rfl

theorem Aggregated.setFolder (h : Aggregated db) {id : MessageId} {folder : FolderId} {found : Bool}
    (hset : Messages.setFolder db id folder = .ok (found, db')) : Aggregated db' := by
  unfold Messages.setFolder at hset
  split at hset
  · cases hset
    exact h
  · split_ifs at hset
    cases hset
    refine ⟨fun th hth _ => ?_, fun m hm x hx => ?_⟩
    · exact (h.right th hth (Option.some_ne_none _)).congr (datesOf_moved id folder _ _)
    · obtain ⟨old, hold, heq⟩ := mem_updateWhere.mp hm
      refine h.minted old hold x ?_
      rw [heq] at hx
      split_ifs at hx
      · exact hx
      · exact hx

/-- A wipe that takes no message of a thread. -/
theorem Aggregated.wipe (h : Aggregated db) {folder : FolderId}
    (hfree : ∀ m ∈ db.messages, m.folderId = folder → m.threadId = none) :
    Aggregated (Messages.deleteAllInFolder db folder).2 := by
  refine ⟨fun th hth _ => ?_, fun m hm => h.minted m (List.mem_of_mem_filter hm)⟩
  refine (h.right th hth (Option.some_ne_none _)).congr (congrArg (List.map _) ?_)
  show (db.messages.filter _).filter _ = _
  rw [List.filter_filter]
  refine List.filter_congr fun m hm => ?_
  by_cases hfolder : m.folderId = folder
  · simp [hfree m hm hfolder]
  · simp [hfolder]

end Statements

/-! ## Commands -/

/-- Commands that keep the numbers right whatever fails. -/
def Cmd.keepsAggregates : Cmd → Bool
  | .deleteAllInFolder _ | .createMessage _ | .deleteMessage _ | .touchLastMessageAt .. => false
  | _ => true

/-- The condition on a command. A wipe takes no message that belongs to a thread. The row
of a message does not appear under an error, its rollback takes effect, and the two
statements that follow an insertion do not fail. -/
def Spared (env : Env) : Cmd → World → Prop
  | .deleteAllInFolder folder, w => ∀ m ∈ w.db.messages, m.folderId = folder → m.threadId = none
  | .createMessage _, w => env.fault w.ops ≠ some .after
  | .deleteMessage _, w => env.fault w.ops ≠ some .before
  | .touchLastMessageAt .., w => env.fault w.ops = none
  | .refreshAggregates _, w => env.fault w.ops ≠ some .before
  | _, _ => True

instance (env : Env) (c : Cmd) (w : World) : Decidable (Spared env c w) := by
  cases c <;> dsimp only [Spared] <;> infer_instance

variable {env : Env}

theorem Aggregated.update {w : World} (h : Aggregated w.db) {α : Type}
    {write : Database → Except DbError (α × Database)}
    (hwrite : ∀ a db, write w.db = .ok (a, db) → Aggregated db) :
    Aggregated (update env write w).2.db := by
  rcases update_cases env write w with ⟨e, heq, -⟩ | ⟨a, db, hdb, heq | heq⟩
  · rw [heq]
    exact h
  · rw [heq]
    exact hwrite a db hdb
  · rw [heq]
    exact hwrite a db hdb

theorem query_db {α : Type} (read : Database → α) (w : World) : (query env read w).2.db = w.db := by
  rcases query_cases env read w with ⟨e, heq⟩ | heq
  · rw [heq]
    rfl
  · rw [heq]
    rfl

theorem writeFile_db (path : StoredPath) (w : World) : (writeFile env path w).2.db = w.db := by
  rcases statement_cases env IoError.failed (fun w => if path ∈ w.files then
      .error .alreadyExists else .ok ((), { w with files := w.files ++ [path] })) w with
    ⟨e, heq, -⟩ | ⟨a, w', heffect, heq⟩
  · exact congrArg (fun x => x.2.db) heq
  · split_ifs at heffect
    cases heffect
    rcases heq with heq | heq
    · exact congrArg (fun x => x.2.db) heq
    · exact congrArg (fun x => x.2.db) heq

theorem Aggregated.query {w : World} (h : Aggregated w.db) {α : Type} (read : Database → α) :
    Aggregated (query env read w).2.db := by
  rw [query_db]
  exact h

theorem handle_aggregated (c : Cmd) (hc : c.keepsAggregates) (w : World) (h : Aggregated w.db) :
    Aggregated (handle env c w).2.db := by
  cases c with
  | now site => exact h
  | getAccount id => exact h.query _
  | getFolderByName account name => exact h.query _
  | listRecent account limit offset => exact h.query _
  | messageIdsByThreads threads => exact h.query _
  | existingUids folder uids => exact h.query _
  | attachmentRoot => exact h.query _
  | getAttachment id => exact h.query _
  | getMessage id => exact h.query _
  | listFolders account => exact h.query _
  | recordAudit actor action target folder folderName => exact h.query _
  | publish event => exact h
  | syncFolder account host port username credential folder fromUid => exact h
  | createThread account externalId subject =>
    exact h.update fun _ _ hcreate => h.createThread hcreate
  | createAttachment new =>
    refine h.update fun a db hcreate => ?_
    unfold Db.Attachments.create at hcreate
    split_ifs at hcreate
    cases hcreate
    exact h.of_same rfl rfl (Nat.le_succ _)
  | writeNewFile path =>
    show Aggregated (writeFile env path w).2.db
    rw [writeFile_db]
    exact h
  | refreshAggregates thread =>
    refine h.update fun _ _ hrefresh => ?_
    cases hrefresh
    exact (h.but (some thread)).refresh
  | updateUidState folder uidValidity uidNext lastSeenUid =>
    refine h.update fun _ _ hupdate => ?_
    cases hupdate
    exact h.of_same rfl rfl (Nat.le_refl _)
  | updateSync account status error lastSyncedAt =>
    refine h.update fun _ _ hupdate => ?_
    cases hupdate
    exact h.of_same rfl rfl (Nat.le_refl _)
  | setFolder id folder => exact h.update fun _ _ hset => h.setFolder hset
  | deleteAllInFolder | createMessage | deleteMessage | touchLastMessageAt =>
    exact absurd hc Bool.false_ne_true

/-! ### Attachments -/

/-- Threads and messages are as before. -/
structure SameMail (w u : World) : Prop where
  threads : u.db.threads = w.db.threads
  messages : u.db.messages = w.db.messages
  nextId : w.db.nextId ≤ u.db.nextId

theorem SameMail.of_db {w u : World} (h : u.db = w.db) : SameMail w u := by
  refine ⟨?_, ?_, ?_⟩
  · rw [h]
  · rw [h]
  · rw [h]

theorem SameMail.trans {w t u : World} (h : SameMail w t) (h' : SameMail t u) : SameMail w u :=
  ⟨h'.threads.trans h.threads, h'.messages.trans h.messages, h.nextId.trans h'.nextId⟩

def Cmd.ofAttachments : Cmd → Bool
  | .attachmentRoot | .writeNewFile _ | .createAttachment _ | .getAttachment _ => true
  | _ => false

theorem handle_ofAttachments (c : Cmd) (hc : c.ofAttachments) (w : World) :
    SameMail w (handle env c w).2 := by
  cases c with
  | attachmentRoot => exact .of_db (query_db _ w)
  | getAttachment id => exact .of_db (query_db _ w)
  | writeNewFile path => exact .of_db (writeFile_db path w)
  | createAttachment new =>
    show SameMail w (Sync.update env (Db.Attachments.create · new) w).2
    have hcreated : ∀ a db, Db.Attachments.create w.db new = .ok (a, db) →
        SameMail w (w.wrote db) := by
      intro a db hcreate
      unfold Db.Attachments.create at hcreate
      split_ifs at hcreate
      cases hcreate
      exact ⟨rfl, rfl, Nat.le_succ _⟩
    rcases update_cases env (Db.Attachments.create · new) w with
      ⟨e, heq, -⟩ | ⟨a, db, hdb, heq | heq⟩
    · rw [heq]
      exact .of_db rfl
    · rw [heq]
      exact hcreated a db hdb
    · rw [heq]
      exact hcreated a db hdb
  | _ => exact absurd hc Bool.false_ne_true

variable (env) in
theorem persist_sameMail (message : MessageId) (attachments : List ParsedAttachment) (w : World) :
    SameMail w (Fallible.exec (handle env) (persistParsedForMessage message attachments) w).2 :=
  Fallible.exec_rel (handle env) (Q := SameMail) (fun _ => .of_db rfl)
    (fun _ _ _ => SameMail.trans) handle_ofAttachments (only_persist (P := fun c => c.ofAttachments = true) (fun _ _ => rfl) rfl
      (fun _ => rfl) (fun _ => rfl) attachments) w

/-! ### Statements that are spared -/

/-- A statement that does not fail after its effect. -/
theorem insertMessage_spared {new : NewMessage} {w : World} (h : env.fault w.ops ≠ some .after) :
    (∃ e, insertMessage env new w = (.error e, w.tick)) ∨
      ∃ row db, Messages.create w.db new = .ok (row, db) ∧
        insertMessage env new w = (.ok row, w.inserted db row) := by
  unfold insertMessage statement
  cases hfault : env.fault w.ops with
  | some fault =>
    cases fault with
    | before => exact .inl ⟨_, rfl⟩
    | after => exact absurd hfault h
  | none =>
    cases hcreate : Messages.create w.db new with
    | error e =>
      refine .inl ⟨e, ?_⟩
      simp only [hcreate, Except.map]
      rfl
    | ok x =>
      refine .inr ⟨x.1, x.2, rfl, ?_⟩
      simp only [hcreate, Except.map]
      rfl

/-- A write that does not fail before its effect. -/
theorem update_spared {α : Type} (write : Database → α × Database) {w : World}
    (h : env.fault w.ops ≠ some .before) :
    (update env (fun db => .ok (write db)) w).2 = w.wrote (write w.db).2 := by
  unfold Sync.update statement
  cases hfault : env.fault w.ops with
  | none => rfl
  | some fault =>
    cases fault with
    | before => exact absurd hfault h
    | after => rfl

theorem update_spared_ok {α : Type} (write : Database → α × Database) {w : World}
    (h : env.fault w.ops = none) :
    update env (fun db => .ok (write db)) w = (.ok (write w.db).1, w.wrote (write w.db).2) := by
  unfold Sync.update statement
  rw [h]
  rfl

/-! ## Programs -/

open Fallible

variable (env) in
theorem aggregated_of_only {ε α : Type} {p : Fallible ε Cmd Reply α}
    (hp : Only (fun c => c.keepsAggregates = true) p) {w : World} (h : Aggregated w.db) :
    Aggregated (exec (handle env) p w).2.db :=
  exec_rel (handle env) (Q := fun w u => Aggregated w.db → Aggregated u.db) (fun _ h => h)
    (fun _ _ _ h h' hw => h' (h hw)) handle_aggregated hp w h

/-- Every run of the program that is spared keeps the numbers right. -/
def KeepsAggregates {ε α : Type} (env : Env) (p : Fallible ε Cmd Reply α) : Prop :=
  ∀ w, Aggregated w.db → wpAlong (handle env) (Spared env) p w (fun _ u => Aggregated u.db)

namespace KeepsAggregates

variable {ε α β : Type}

theorem bind {p : Fallible ε Cmd Reply α} {f : α → Fallible ε Cmd Reply β}
    (hp : KeepsAggregates env p) (hf : ∀ a, KeepsAggregates env (f a)) :
    KeepsAggregates env (p >>= f) := by
  intro w hw
  refine wpAlong_bind (handle env) (wpAlong_mono (handle env) (hp w hw) ?_)
  exact fun r t ht => ⟨fun a _ => hf a t ht, fun _ _ => ht⟩

theorem pure (a : α) : KeepsAggregates env (Pure.pure a : Fallible ε Cmd Reply α) :=
  fun _ hw => wpAlong_of_wp (handle env) hw

theorem mapError {ε' : Type} {g : ε → ε'} {p : Fallible ε Cmd Reply α}
    (hp : KeepsAggregates env p) : KeepsAggregates env (Fallible.mapError g p) :=
  fun w hw => wpAlong_mapError (handle env) (hp w hw)

theorem of_only {p : Fallible ε Cmd Reply α} (hp : Only (fun c => c.keepsAggregates = true) p) :
    KeepsAggregates env p :=
  fun _ hw => wpAlong_of_wp (handle env) (aggregated_of_only env hp hw)

end KeepsAggregates

/-- The rollback brings the old numbers back. -/
theorem Aggregated.rolledBack {w u : World} {db : Database} {new : NewMessage} {row : Message}
    (h : Aggregated w.db) (hcreate : Messages.create w.db new = .ok (row, db))
    (hsame : SameMail (w.inserted db row) u) (hspared : env.fault u.ops ≠ some .before) :
    Aggregated (handle env (.deleteMessage row.id) u).2.db := by
  obtain ⟨hrow, hmessages, -, -⟩ := Messages.create_ok hcreate
  have hdb : db.threads = w.db.threads ∧ w.db.nextId ≤ db.nextId := by
    unfold Messages.create at hcreate
    split_ifs at hcreate
    cases hcreate
    exact ⟨rfl, Nat.le_succ _⟩
  have hid : row.id = w.db.nextId := by rw [hrow]
  have hdelete : (handle env (.deleteMessage row.id) u).2 =
      u.wrote (Messages.delete u.db row.id).2 :=
    update_spared (Messages.delete · row.id) hspared
  rw [hdelete]
  refine h.of_same (hsame.threads.trans hdb.1) ?_ (hdb.2.trans hsame.nextId)
  show u.db.messages.filter (fun m => !decide (m.id = row.id)) = w.db.messages
  rw [hsame.messages]
  show db.messages.filter _ = _
  rw [hmessages, filter_fresh hid]

/-- A stored message disturbs its thread; a message that could not be stored leaves the
numbers as they were. -/
theorem wp_storeMessage_spared {new : NewMessage} {x : ThreadId} (hthread : new.threadId = some x)
    (attachments : List ParsedAttachment) {w : World} (h : Aggregated w.db) :
    wpAlong (handle env) (Spared env) (storeMessage new attachments) w (fun r u =>
      (∀ row, r = .ok row → AggregatedBut (some x) u.db) ∧
        ∀ e, r = .error e → Aggregated u.db) := by
  refine wpAlong_ask_bind (handle env) fun hspared => ?_
  show wpAlong (handle env) (Spared env) (SyncM.ofDb (insertMessage env new w).1 >>= _)
    (insertMessage env new w).2 _
  rcases insertMessage_spared hspared with ⟨e, heq⟩ | ⟨row, db, hcreate, heq⟩
  · rw [heq]
    exact wpAlong_of_wp (handle env) ⟨(fun _ hr => nomatch hr), fun _ _ => h⟩
  · rw [heq]
    have hsame := persist_sameMail env row.id attachments (w.inserted db row)
    have hbut : AggregatedBut (some x) (exec (handle env)
        (persistParsedForMessage row.id attachments) (w.inserted db row)).2.db :=
      (h.createMessage hthread hcreate).of_same hsame.threads hsame.messages hsame.nextId
    show wpAlong (handle env) (Spared env) (attempt (persistParsedForMessage row.id attachments) >>=
      _) (w.inserted db row) _
    refine wpAlong_bind (handle env) (wpAlong_attempt (handle env) (wpAlong_of_wp (handle env) ?_))
    refine ⟨?_, fun _ hr => nomatch hr⟩
    intro outcome _
    cases outcome with
    | ok _ => exact wpAlong_of_wp (handle env) ⟨fun _ _ => hbut, (fun _ hr => nomatch hr)⟩
    | error e =>
      refine wpAlong_ask_bind (handle env) fun hspared' => ?_
      refine wpAlong_of_wp (handle env) ⟨(fun _ hr => nomatch hr), fun _ _ => ?_⟩
      exact h.rolledBack hcreate hsame hspared'

theorem keepsAggregates_ingestParsed (mail : MailCrate) (account : AccountId) (folder : FolderId)
    (p : Progress) (fetched : FetchedMessage) (parsed : ParsedEmail) :
    KeepsAggregates env (ingestParsed mail account folder p fetched parsed) := by
  refine .bind (.of_only (only_threadFor (fun _ => rfl) (fun _ _ _ => rfl) mail account p fetched
    parsed)) fun found => ?_
  refine .bind (.of_only (only_orNow (fun _ => rfl) _ _)) fun date => ?_
  intro w hw
  refine wpAlong_bind (handle env) (wpAlong_mono (handle env)
    (wp_storeMessage_spared (x := found.1) rfl parsed.attachments hw) ?_)
  intro r u ⟨hok, herror⟩
  refine ⟨fun row hr => ?_, herror⟩
  have hbut := hok row hr
  refine wpAlong_bind (handle env) (wpAlong_of_wp (handle env) ?_)
  rw [Fallible.wp, exec_orNow]
  refine ⟨fun time _ => ?_, fun _ htime => nomatch htime⟩
  refine wpAlong_ask_bind (handle env) fun htouch => ?_
  have htouched : handle env (.touchLastMessageAt found.1 time) u =
      (.ok (), u.wrote (Threads.touchLastMessageAt u.db found.1 time)) :=
    update_spared_ok (fun db => ((), Threads.touchLastMessageAt db found.1 time)) htouch
  rw [htouched]
  refine wpAlong_ask_bind (handle env) fun hrefresh => ?_
  have hrefreshed : Aggregated (handle env (.refreshAggregates found.1)
      (u.wrote (Threads.touchLastMessageAt u.db found.1 time))).2.db := by
    have hdone : (handle env (.refreshAggregates found.1)
        (u.wrote (Threads.touchLastMessageAt u.db found.1 time))).2 = _ :=
      update_spared (fun db => ((), Threads.refreshAggregates db found.1)) hrefresh
    rw [hdone]
    exact (hbut.touch time).refresh
  -- what is left announces the message
  have hrest : ∀ x, KeepsAggregates env (do
      SyncM.ofDb x
      perform (.publish (.mailNew account folder found.1 row.id (uidOf fetched)))
      return { refs := found.2, inserted := p.inserted + 1 } : SyncM Progress) := fun x =>
    .of_only (only_bind (only_ofDb x) fun _ => only_bind (only_ask rfl) fun _ => only_pure _)
  exact hrest _ _ hrefreshed

theorem keepsAggregates_ingest (mail : MailCrate) (account : AccountId) (folder : FolderId)
    (already : List Int) (p : Progress) (fetched : FetchedMessage) :
    KeepsAggregates env (ingest mail account folder already p fetched) := by
  unfold ingest
  split_ifs
  · exact .pure p
  · exact .pure p
  · split
    · exact .pure p
    · exact keepsAggregates_ingestParsed mail account folder p fetched _

theorem keepsAggregates_ingestAll (mail : MailCrate) (account : AccountId) (folder : FolderId)
    (already : List Int) (messages : List FetchedMessage) (p : Progress) :
    KeepsAggregates env (ingestAll mail account folder already messages p) := by
  induction messages generalizing p with
  | nil => exact .pure p
  | cons fetched rest ih =>
    exact .bind (keepsAggregates_ingest mail account folder already p fetched) ih

section Calls

variable {mail : MailCrate} {t : Target}

theorem keeps_fetchFrom (fromUid : UInt32) :
    Only (fun c => c.keepsAggregates = true) (fetchFrom t fromUid) :=
  only_fetchFrom (fun _ _ _ _ _ _ _ => rfl) t fromUid

theorem keepsAggregates_drain (fuel : Nat) (server : FolderSync) (p : Progress)
    (lastSeen : Option Int) : KeepsAggregates env (drain mail t fuel server p lastSeen) := by
  induction fuel generalizing server p lastSeen with
  | zero => exact fun _ hw => wpAlong_of_wp (handle env) hw
  | succ fuel ih =>
    refine .bind (.mapError (.bind (.of_only (only_existingUids (fun _ _ => rfl) _ _))
      fun already => keepsAggregates_ingestAll mail _ _ already _ p)) fun q => ?_
    split_ifs
    · exact .bind (.mapError (.of_only (keeps_fetchFrom _))) fun next => ih next q _
    · exact .pure _

/-- A wipe is spared when it takes no message of a thread. -/
theorem keepsAggregates_openFolder : KeepsAggregates env (openFolder t) := by
  refine .bind (.of_only (keeps_fetchFrom _)) fun server => ?_
  split_ifs
  · intro w hw
    refine wpAlong_ask_bind (handle env) fun hspared => ?_
    have hwiped : Aggregated (handle env (.deleteAllInFolder t.folder.id) w).2.db := by
      refine Aggregated.update hw fun a db hdb => ?_
      cases hdb
      exact hw.wipe hspared
    refine KeepsAggregates.bind (.of_only (only_ofDb _)) (fun wiped => ?_) _ hwiped
    exact .bind (.of_only (keeps_fetchFrom 1)) fun server => .pure _
  · exact .pure _

theorem keepsAggregates_reconcile (mail : MailCrate) (req : Request) :
    KeepsAggregates env (reconcileFolder mail req) := by
  refine .bind (.mapError (.of_only (only_lookup (fun _ => rfl) (fun _ _ => rfl) req))) fun t => ?_
  refine .bind (.mapError keepsAggregates_openFolder) fun o => ?_
  refine .bind (.mapError (.of_only (only_knownThreads (fun _ => rfl) (fun _ _ _ => rfl)
    (fun _ => rfl) _))) fun refs => ?_
  exact .bind (keepsAggregates_drain _ _ _ _) fun d => .mapError (.of_only
    (only_finish (fun _ _ _ _ => rfl) (fun _ => rfl) (fun _ _ _ _ => rfl) (fun _ => rfl) t o d))

end Calls

end Postblox.Sync
