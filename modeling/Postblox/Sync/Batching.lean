import Postblox.Sync.Aggregates
import Postblox.Sync.Complete

/-!
# Threads and batches

One call keeps its list of known threads in memory and extends it only when it
starts a thread; the next call rebuilds the list from the tables. So where a
message goes can depend on the call it comes with. `ListsAgree` says that it does not:
before every message the list kept since the one call began and the list that a
call beginning with the message's batch has kept give `assign_thread` the same
answer. Then the batches do not show in the rows, and where no thread is empty this
is also necessary.
-/
namespace Postblox.Sync

open Lib Db Imap Mail Attachments

/-! ## The same partition -/

/-- The two messages, named by folder and UID, are stored in one thread. -/
def Together (w : World) (a b : FolderId × Int) : Prop :=
  ∃ m ∈ w.db.messages, ∃ m' ∈ w.db.messages, (m.folderId, m.uid) = a ∧ (m'.folderId, m'.uid) = b ∧
    m.threadId.isSome ∧ m'.threadId = m.threadId

instance (w : World) (a b : FolderId × Int) : Decidable (Together w a b) :=
  inferInstanceAs (Decidable (∃ m ∈ w.db.messages, _))

def SamePartition (w w' : World) : Prop := ∀ a b, Together w a b ↔ Together w' a b

theorem SamePartition.of_sameStore {w w' : World} (h : SameStore w w') : SamePartition w w' := by
  intro a b
  unfold Together
  rw [h.rows.messages]

/-! ## Calls that bring messages -/

/-- What the calls have in common: the instant at which everything happens, the clock
of the database and the attachment directory. -/
structure Setting where
  now : Int
  dbClock : Nat → Int
  attachmentRoot : String

/-- A call without faults that keeps the rows of its folder and gets `messages`, in
this order, as new ones; no UID arrives twice. -/
structure Call.Brings (s : Setting) (c : Call) (w : World) (t : Target)
    (messages : List FetchedMessage) : Prop where
  clean : c.env.Clean
  responds : c.env.Responds
  clock : ∀ site, c.env.clock site = s.now
  dbClock : c.env.dbClock = s.dbClock
  root : c.env.attachmentRoot = s.attachmentRoot
  found : Found w c.req t
  keeps : resyncs c.env t w = false
  distinct : (((upcomingAnswers c.env t w).flatMap (·.messages)).map uidOf).Nodup
  arrivals : arrivals c.env t w = messages

/-- Successive calls for one folder bring the batches. -/
def Brought (mail : MailCrate) (s : Setting) (account : AccountId) (folder : FolderId) :
    World → List Call → List (List FetchedMessage) → Prop
  | _, [], [] => True
  | w, c :: calls, batch :: batches =>
    (∃ t, t.account.id = account ∧ t.folder.id = folder ∧ c.Brings s w t batch) ∧
      Brought mail s account folder (c.apply mail w) calls batches
  | _, _, _ => False

/-- All of the successive calls return well. -/
def Succeed (mail : MailCrate) : World → List Call → Prop
  | _, [] => True
  | w, c :: calls => (∃ rep, c.result mail w = .ok rep) ∧ Succeed mail (c.apply mail w) calls

/-! ## The condition -/

section ListsAgree

variable (mail : MailCrate) (env : Env) (now : Int) (account : AccountId) (folder : FolderId)

/-- Both lists put the message into the same thread. -/
def PutAlike (m : FetchedMessage) (refs refs' : List ThreadRef) : Prop :=
  ∀ parsed ∈ parsedOf mail m,
    assignThread mail.caseMap now parsed refs = assignThread mail.caseMap now parsed refs'

instance (m : FetchedMessage) (refs refs' : List ThreadRef) :
    Decidable (PutAlike mail now m refs refs') :=
  inferInstanceAs (Decidable (∀ parsed ∈ parsedOf mail m, _))

/-- Before every message of the batch, the call's list `p.refs` and the list of a call
that began with the batch put it alike. The latter is `rebuilt` followed by what was
started since, when the former was `kept` long. -/
def ListsAgreeOn (rebuilt : List ThreadRef) (kept : Nat) :
    List FetchedMessage → World → Progress → Prop
  | [], _, _ => True
  | m :: rest, w, p =>
    PutAlike mail now m p.refs (rebuilt ++ p.refs.drop kept) ∧
      match Fallible.exec (handle env) (ingest mail account folder [] p m) w with
      | (.ok q, u) => ListsAgreeOn rebuilt kept rest u q
      | (.error _, _) => True

/-- The same for every batch, each compared with the list rebuilt when it begins. -/
def ListsAgree : List (List FetchedMessage) → World → Progress → Prop
  | [], _, _ => True
  | batch :: rest, w, p =>
    ListsAgreeOn mail env now account folder (recentRefs (fun _ => now) w.db account) p.refs.length
        batch w p ∧
      match Fallible.exec (handle env) (ingestAll mail account folder [] batch p) w with
      | (.ok q, u) => ListsAgree rest u q
      | (.error _, _) => True

instance decidableListsAgreeOn (rebuilt : List ThreadRef) (kept : Nat) :
    (batch : List FetchedMessage) → (w : World) → (p : Progress) →
      Decidable (ListsAgreeOn mail env now account folder rebuilt kept batch w p)
  | [], _, _ => isTrue trivial
  | m :: rest, w, p =>
    have : Decidable (match Fallible.exec (handle env) (ingest mail account folder [] p m) w with
        | (.ok q, u) => ListsAgreeOn mail env now account folder rebuilt kept rest u q
        | (.error _, _) => True) :=
      match Fallible.exec (handle env) (ingest mail account folder [] p m) w with
      | (.ok q, u) => decidableListsAgreeOn rebuilt kept rest u q
      | (.error _, _) => isTrue trivial
    inferInstanceAs (Decidable (_ ∧ _))

instance decidableListsAgree :
    (batches : List (List FetchedMessage)) → (w : World) → (p : Progress) →
      Decidable (ListsAgree mail env now account folder batches w p)
  | [], _, _ => isTrue trivial
  | batch :: rest, w, p =>
    have : Decidable (match Fallible.exec (handle env) (ingestAll mail account folder [] batch p) w with
        | (.ok q, u) => ListsAgree mail env now account folder rest u q
        | (.error _, _) => True) :=
      match Fallible.exec (handle env) (ingestAll mail account folder [] batch p) w with
      | (.ok q, u) => decidableListsAgree rest u q
      | (.error _, _) => isTrue trivial
    inferInstanceAs (Decidable (_ ∧ _))

end ListsAgree

section Enough

open Fallible

variable {mail : MailCrate} {env env' : Env} {now : Int} {account : AccountId} {folder : FolderId}
  {w w' : World} {p p' : Progress} {rebuilt : List ThreadRef} {kept : Nat}

/-- Both lists still differ in what was there when the batch began only. -/
theorem GrewAlike.carries {q q' : Progress} (h : GrewAlike p p' q.refs q'.refs)
    (hkept : kept ≤ p.refs.length) (hrefs : p'.refs = rebuilt ++ p.refs.drop kept) :
    kept ≤ q.refs.length ∧ q'.refs = rebuilt ++ q.refs.drop kept := by
  obtain ⟨started, hq, hq'⟩ := h
  rw [hq, hq', hrefs, List.length_append, List.drop_append_of_le_length hkept, List.append_assoc]
  exact ⟨by omega, rfl⟩

/-- A batch, by induction on its messages. -/
theorem paired_batch (hpeers : Peers env env') (hnow : ∀ site, env.clock site = now)
    (hnow' : ∀ site, env'.clock site = now) {batch : List FetchedMessage} (h : SameStore w w')
    (hkept : kept ≤ p.refs.length) (hrefs : p'.refs = rebuilt ++ p.refs.drop kept)
    (hagree : ListsAgreeOn mail env now account folder rebuilt kept batch w p) :
    Paired (handle env) (handle env') SameStore (fun _ _ => True)
      (ingestAll mail account folder [] batch p) w
      (ingestAll mail account folder [] batch p') w' := by
  induction batch generalizing w w' p p' with
  | nil => exact paired_pure _ _ trivial h
  | cons m rest ih =>
    obtain ⟨hput, hrest⟩ := hagree
    refine paired_bind _ _ (paired_ingest hpeers hnow hnow' h ?_) ?_
    · intro parsed hparsed
      rw [hrefs]
      exact hput parsed hparsed
    · intro q q' u u' hx _ hgrew hu
      rw [hx] at hrest
      obtain ⟨hlen, hrefs₁⟩ := hgrew.carries hkept hrefs
      exact ih hu hlen hrefs₁ hrest

variable {s : Setting} {c : Call} {t : Target} {messages : List FetchedMessage}

/-- A call starts from the list rebuilt when it begins. -/
def freshStart (now : Int) (account : AccountId) (w : World) : Progress where
  refs := recentRefs (fun _ => now) w.db account
  inserted := 0

theorem recentRefs_congr {db db' : Database} (h : SameRows db db') (clock : ClockSite → Int)
    (account : AccountId) : recentRefs clock db account = recentRefs clock db' account := by
  unfold recentRefs Threads.listRecent Messages.messageIdsByThreads
  rw [h.threads, h.messages]

/-- A batch begins with an empty list of threads started since. -/
theorem SameRows.freshStart (h : SameRows w.db w'.db) (now : Int) (account : AccountId)
    (p : Progress) : (freshStart now account w').refs =
      recentRefs (fun _ => now) w.db account ++ p.refs.drop p.refs.length := by
  rw [List.drop_length, List.append_nil, recentRefs_congr h]
  rfl

theorem Call.Brings.paired (h : c.Brings s w t messages) (mail : MailCrate) :
    Paired (handle c.env) (handle c.env) SameStore (fun _ _ => True) (reconcileFolder mail c.req) w
      (ingestAll mail t.account.id t.folder.id [] messages (freshStart s.now t.account.id w)) w := by
  have hpass := paired_reconcile mail h.clean h.responds h.found h.distinct
  have hdb : openedDb c.env t w = w.db := by
    unfold openedDb
    rw [h.keeps, if_neg Bool.false_ne_true]
  have hopened : w.opened c.env t = w := by
    unfold World.opened
    rw [hdb]
  have hclock : c.env.clock = fun _ => s.now := funext h.clock
  rwa [hdb, hopened, hclock, h.arrivals] at hpass

theorem Call.Brings.peers {c' : Call} {w₁ : World} {t' : Target} {messages' : List FetchedMessage}
    (h : c.Brings s w t messages) (h' : c'.Brings s w₁ t' messages') : Peers c.env c'.env where
  clean := h.clean
  clean' := h'.clean
  root := h.root.trans h'.root.symm
  dbClock := h.dbClock.trans h'.dbClock.symm

/-- What is the same after the calls: they returned well exactly when the pass did, and
then the rows are the same. -/
def EndsAs (mail : MailCrate) (calls : List Call) (w : World)
    (done : Except SyncError Progress × World) : Prop :=
  ((∃ q, done.1 = .ok q) ↔ Succeed mail w calls) ∧
    (Succeed mail w calls → SameStore done.2 (afterCalls mail w calls))

/-- The batches one after the other, by induction on the calls: the one pass goes on with
the list it kept, each call with a rebuilt one. -/
theorem endsAs_of_listsAgree {one : Call} {w₁ : World} {t₁ : Target} {all : List FetchedMessage}
    (hone : one.Brings s w₁ t₁ all) {calls : List Call} {batches : List (List FetchedMessage)}
    (h : SameStore w w') (hbrought : Brought mail s account folder w' calls batches)
    (hagree : ListsAgree mail one.env s.now account folder batches w p) :
    EndsAs mail calls w'
      (exec (handle one.env) (ingestAll mail account folder [] batches.flatten p) w) := by
  induction calls generalizing w w' p batches with
  | nil =>
    cases batches with
    | nil => exact ⟨⟨fun _ => trivial, fun _ => ⟨p, rfl⟩⟩, fun _ => h⟩
    | cons batch rest => exact absurd hbrought id
  | cons c calls ih =>
    cases batches with
    | nil => exact absurd hbrought id
    | cons batch rest =>
      obtain ⟨⟨t, rfl, rfl, hbrings⟩, hlater⟩ := hbrought
      obtain ⟨hfirst, hrest⟩ := hagree
      obtain ⟨hends, hstates⟩ := paired_batch (hone.peers hbrings) hone.clock hbrings.clock h
        (Nat.le_refl _) (h.rows.freshStart s.now t.account.id p) hfirst
      obtain ⟨hends', hstates'⟩ := hbrings.paired mail
      have hok := hends.isOk_iff.trans hends'.isOk_iff.symm
      have hsame := hstates.trans hstates'.symm
      rw [List.flatten_cons, exec_ingestAll_append, exec_bind]
      generalize exec (handle one.env) (ingestAll mail t.account.id t.folder.id [] batch p) w =
        done at hrest hok hsame ⊢
      obtain ⟨r, u⟩ := done
      cases r with
      | error e =>
        have hfailed : ¬ Succeed mail w' (c :: calls) := by
          rintro ⟨hrep, -⟩
          obtain ⟨q, hq⟩ := hok.mpr hrep
          cases hq
        exact ⟨⟨(fun ⟨q, hq⟩ => nomatch hq), fun hs => absurd hs hfailed⟩,
          fun hs => absurd hs hfailed⟩
      | ok q =>
        obtain ⟨hiff, hstore⟩ := ih hsame hlater hrest
        exact ⟨⟨fun hq => ⟨hok.mp ⟨q, rfl⟩, hiff.mp hq⟩, fun hs => hiff.mpr hs.2⟩,
          fun hs => hstore hs.2⟩

end Enough

/-! ## Where a message ends up -/

/-- The thread of a match, `next` being the id of a new one. -/
def threadIdOf (next : ThreadId) : ThreadMatch → ThreadId
  | .existing id => id
  | .new => next

/-- The ids and accounts of the thread rows. -/
def World.owners (w : World) : List (ThreadId × AccountId) :=
  w.db.threads.map fun th => (th.id, th.accountId)

section Placed

open Fallible

variable {mail : MailCrate} {env : Env} {account : AccountId} {folder : FolderId} {w : World}
  {p : Progress} {m : FetchedMessage} {parsed : ParsedEmail}

/-- The message is stored in `thread`, which is in the table and known from now on if it
was started for it. -/
structure Placed (account : AccountId) (folder : FolderId) (m : FetchedMessage) (p : Progress)
    (w : World) (thread : ThreadId) (q : Progress) (u : World) (row : Message)
    (started : List ThreadRef) : Prop where
  messages : u.db.messages = w.db.messages ++ [row]
  folderId : row.folderId = folder
  uid : row.uid = uidOf m
  threadId : row.threadId = some thread
  refs : q.refs = p.refs ++ started
  owners : u.owners = w.owners ++ started.map fun r => (r.threadId, account)
  own : ∀ r ∈ started, r.threadId = thread

theorem Threads.create_ok {db db' : Database} {createdAt : Int} {externalId subject : Option String}
    {th : Thread} (h : Threads.create db createdAt account externalId subject = .ok (th, db')) :
    th.id = db.nextId ∧ th.accountId = account ∧ db'.threads = db.threads ++ [th] := by
  unfold Threads.create at h
  split_ifs at h
  cases h
  exact ⟨rfl, rfl, rfl⟩

theorem wp_threadFor_places (hclean : env.Clean) :
    wp (handle env) (threadFor mail account p m parsed) w (fun r u => ∀ found, r = .ok found →
      found.1 = threadIdOf w.db.nextId
        (assignThread mail.caseMap (env.clock (.assignThread p.inserted)) parsed p.refs) ∧
      ∃ started, found.2 = p.refs ++ started ∧
        u.owners = w.owners ++ started.map (fun r => (r.threadId, account)) ∧
        ∀ r ∈ started, r.threadId = found.1) := by
  refine wp_ask_bind _ ?_
  show wp (handle env)
    (match assignThread mail.caseMap (env.clock (.assignThread p.inserted)) parsed p.refs with
      | .existing id => _
      | .new => _) w _
  cases assignThread mail.caseMap (env.clock (.assignThread p.inserted)) parsed p.refs with
  | existing id =>
    rw [wp_pure]
    intro found hfound
    obtain rfl := Except.ok.inj hfound
    exact ⟨rfl, [], by simp⟩
  | new =>
    refine wp_ask_bind _ ?_
    show wp (handle env) (SyncM.ofDb (update env _ w).1 >>= _) (update env _ w).2 _
    cases hcreate : Threads.create w.db (env.dbClock w.db.nextId) account parsed.messageId
        parsed.subject with
    | error e =>
      rw [update_refused hclean hcreate]
      exact fun _ h => nomatch h
    | ok created =>
      obtain ⟨th, db⟩ := created
      obtain ⟨hid, haccount, hthreads⟩ := Threads.create_ok hcreate
      refine wp_clean_update hclean hcreate (wp_orNow_bind ?_)
      rw [wp_pure]
      intro found hfound
      obtain rfl := Except.ok.inj hfound
      refine ⟨hid, _, rfl, ?_, ?_⟩
      · unfold World.owners
        rw [show (w.wrote db).db.threads = _ from hthreads, List.map_append]
        simp [haccount, startedRef]
      · intro r hr
        rw [List.mem_singleton.mp hr]
        rfl

theorem wp_storeMessage_owners (hclean : env.Clean) (new : NewMessage)
    (attachments : List ParsedAttachment) (w : World) :
    wp (handle env) (storeMessage new attachments) w (fun r u =>
      ∀ row, r = .ok row → u.owners = w.owners) := by
  refine wp_ask_bind _ ?_
  show wp (handle env) (SyncM.ofDb (insertMessage env new w).1 >>= _) (insertMessage env new w).2 _
  cases hcreate : Messages.create w.db new with
  | error e =>
    rw [insertMessage_refused hclean hcreate]
    exact fun _ h => nomatch h
  | ok created =>
    obtain ⟨row, db⟩ := created
    have hthreads : db.threads = w.db.threads := by
      unfold Messages.create at hcreate
      split_ifs at hcreate
      cases hcreate
      rfl
    rw [insertMessage_clean hclean hcreate]
    refine wp_ofDb_bind (fun a ha => ?_) (fun e he => nomatch he)
    obtain rfl : row = a := Except.ok.inj ha
    have hpersist := persist_sameMail env row.id attachments (w.inserted db row)
    refine wp_bind _ (wp_attempt _ ⟨?_, fun _ h => nomatch h⟩)
    intro outcome _
    cases outcome with
    | ok _ => exact fun _ _ => congrArg (List.map _) (hpersist.threads.trans hthreads)
    | error e => exact fun _ h => nomatch h

theorem owners_afterStore (db : Database) (thread : ThreadId) (time : Int) :
    (Threads.refreshAggregates (Threads.touchLastMessageAt db thread time) thread).threads.map
      (fun th => (th.id, th.accountId)) = db.threads.map fun th => (th.id, th.accountId) := by
  refine (map_updateWhere ?_ (Threads.touchLastMessageAt db thread time).threads).trans
    (map_updateWhere ?_ db.threads)
  · exact fun _ => rfl
  · exact fun _ => rfl

theorem wp_ingestParsed_places (hclean : env.Clean) :
    wp (handle env) (ingestParsed mail account folder p m parsed) w (fun r u => ∀ q, r = .ok q →
      ∃ row started, Placed account folder m p w (threadIdOf w.db.nextId
        (assignThread mail.caseMap (env.clock (.assignThread p.inserted)) parsed p.refs))
        q u row started) := by
  have hquiet := exec_quiet env (only_threadFor (fun _ => rfl) (fun _ _ _ => rfl) mail
    account p m parsed) w
  refine wp_bind _ (wp_mono _ (wp_and _ (wp_threadFor_places hclean)
    (T := fun _ u => Quiet w u) hquiet) ?_)
  intro r t ⟨hplaces, ht⟩
  refine ⟨?_, fun _ _ _ h => nomatch h⟩
  rintro ⟨thread, refs⟩ rfl
  obtain ⟨hthread, started, hrefs, howners, hown⟩ := hplaces _ rfl
  refine wp_orNow_bind (wp_bind _ (wp_mono _ (wp_and _ (wp_storeMessage
    (buildMessageRow account folder thread m parsed _) parsed.attachments t)
    (wp_storeMessage_owners hclean _ _ t)) ?_))
  intro r u ⟨⟨rows, hgrows, hnew, hrow⟩, hkeep⟩
  refine ⟨?_, fun _ _ _ h => nomatch h⟩
  rintro row rfl
  obtain rfl := hrow row rfl
  have hbuilt := hnew row (List.mem_singleton.mpr rfl)
  refine wp_orNow_bind (wp_ask_bind _ (wp_clean_update hclean rfl
    (wp_ask_bind _ (wp_clean_update hclean rfl (wp_ask_bind _ ?_)))))
  intro q hq
  obtain rfl := Except.ok.inj hq
  refine ⟨row, started, ?_, ?_, ?_, ?_, hrefs, ?_, ?_⟩
  · show u.db.messages = _
    rw [hgrows.messages, ht.messages]
  · rw [hbuilt]
    rfl
  · rw [hbuilt]
    rfl
  · rw [hbuilt, ← hthread]
    rfl
  · rw [← howners, ← hkeep row rfl]
    exact owners_afterStore u.db thread _
  · rw [← hthread]
    exact hown

theorem exec_ingest_skip (hparsed : parsedOf mail m = none) :
    exec (handle env) (ingest mail account folder [] p m) w = (.ok p, w) := by
  unfold parsedOf at hparsed
  unfold ingest
  rw [if_neg (show ¬ [].contains (uidOf m) = true from Bool.false_ne_true)]
  split_ifs at hparsed ⊢ with hraw
  · rfl
  · rw [hparsed]
    rfl

/-- One message that was not skipped. -/
theorem placed_of_ingest (hclean : env.Clean) (hparsed : parsedOf mail m = some parsed)
    {q : Progress} {u : World}
    (hrun : exec (handle env) (ingest mail account folder [] p m) w = (.ok q, u)) :
    ∃ row started, Placed account folder m p w (threadIdOf w.db.nextId
      (assignThread mail.caseMap (env.clock (.assignThread p.inserted)) parsed p.refs))
      q u row started := by
  have hplaces : wp (handle env) (ingest mail account folder [] p m) w (fun r u => ∀ q, r = .ok q →
      ∃ row started, Placed account folder m p w (threadIdOf w.db.nextId
        (assignThread mail.caseMap (env.clock (.assignThread p.inserted)) parsed p.refs))
        q u row started) := by
    unfold ingest
    unfold parsedOf at hparsed
    split_ifs at hparsed with hraw
    rw [if_neg (show ¬ [].contains (uidOf m) = true from Bool.false_ne_true), if_neg hraw, hparsed]
    exact wp_ingestParsed_places hclean
  unfold wp at hplaces
  rw [hrun] at hplaces
  exact hplaces q rfl

end Placed

/-! ## Why the lists have to agree -/

/-- No thread of the account is empty. -/
def Populated (account : AccountId) (w : World) : Prop :=
  ∀ th ∈ w.db.threads, th.accountId = account → ∃ m ∈ w.db.messages, m.threadId = some th.id

/-- The list names threads of the account. -/
def Names (account : AccountId) (w : World) (refs : List ThreadRef) : Prop :=
  ∀ r ∈ refs, (r.threadId, account) ∈ w.owners

section Needed

open Fallible

variable {mail : MailCrate} {env env' : Env} {now : Int} {account : AccountId} {folder : FolderId}
  {w w' u u' x x' : World} {p p' q q' : Progress} {m : FetchedMessage} {thread : ThreadId}
  {row row' : Message} {started started' : List ThreadRef}

theorem populated_iff : Populated account w ↔
    ∀ id, (id, account) ∈ w.owners → ∃ m ∈ w.db.messages, m.threadId = some id := by
  unfold Populated World.owners
  constructor
  · intro h id hid
    obtain ⟨th, hth, heq⟩ := List.mem_map.mp hid
    obtain ⟨rfl, haccount⟩ := Prod.mk.inj heq
    exact h th hth haccount
  · intro h th hth haccount
    exact h th.id (List.mem_map.mpr ⟨th, hth, by rw [haccount]⟩)

theorem Populated.of_sameStore (h : SameStore w w') (hpop : Populated account w) :
    Populated account w' := by
  unfold Populated
  rw [← h.rows.threads, ← h.rows.messages]
  exact hpop

theorem owners_lt {id : ThreadId} (h : (id, account) ∈ w.owners) : id < w.db.nextId := by
  obtain ⟨th, hth, heq⟩ := List.mem_map.mp h
  rw [← (Prod.mk.inj heq).1]
  exact w.db.wf.threadsMinted th hth

theorem names_freshStart (now : Int) (account : AccountId) (w : World) :
    Names account w (freshStart now account w).refs := by
  intro r hr
  obtain ⟨⟨th, i⟩, hmem, rfl⟩ := List.mem_map.mp hr
  have hrecent : th ∈ Threads.listRecent w.db account 200 0 := List.fst_mem_of_mem_zipIdx hmem
  have hsorted := List.mem_of_mem_drop (List.mem_of_mem_take hrecent)
  obtain ⟨hrow, hown⟩ := List.mem_filter.mp ((List.perm_insertionSort _ _).mem_iff.mp hsorted)
  refine List.mem_map.mpr ⟨th, hrow, ?_⟩
  rw [of_decide_eq_true hown]
  rfl

theorem Placed.populated (h : Placed account folder m p w thread q u row started)
    (hpop : Populated account w) : Populated account u := by
  rw [populated_iff] at hpop ⊢
  intro id hid
  rw [h.owners] at hid
  rw [h.messages]
  rcases List.mem_append.mp hid with hold | hnew
  · obtain ⟨m', hm', hthread⟩ := hpop id hold
    exact ⟨m', List.mem_append_left _ hm', hthread⟩
  · obtain ⟨r, hr, heq⟩ := List.mem_map.mp hnew
    refine ⟨row, List.mem_append_right _ (List.mem_singleton.mpr rfl), ?_⟩
    rw [h.threadId, ← h.own r hr, (Prod.mk.inj heq).1]

theorem Placed.names (h : Placed account folder m p w thread q u row started)
    (hnames : Names account w p.refs) : Names account u q.refs := by
  intro r hr
  rw [h.refs] at hr
  rw [h.owners]
  rcases List.mem_append.mp hr with hold | hnew
  · exact List.mem_append_left _ (hnames r hold)
  · exact List.mem_append_right _ (List.mem_map_of_mem (f := fun r => (r.threadId, account)) hnew)

/-- Storing leaves no thread empty. -/
theorem populated_ingest (hclean : env.Clean) (hpop : Populated account w)
    (hnames : Names account w p.refs)
    (hrun : exec (handle env) (ingest mail account folder [] p m) w = (.ok q, u)) :
    Populated account u ∧ Names account u q.refs := by
  cases hparsed : parsedOf mail m with
  | none =>
    rw [exec_ingest_skip hparsed] at hrun
    cases hrun
    exact ⟨hpop, hnames⟩
  | some parsed =>
    obtain ⟨row, started, hplaced⟩ := placed_of_ingest hclean hparsed hrun
    exact ⟨hplaced.populated hpop, hplaced.names hnames⟩

theorem populated_ingestAll (hclean : env.Clean) {messages : List FetchedMessage}
    (hpop : Populated account w) (hnames : Names account w p.refs)
    (hrun : exec (handle env) (ingestAll mail account folder [] messages p) w = (.ok q, u)) :
    Populated account u ∧ Names account u q.refs := by
  induction messages generalizing p w with
  | nil =>
    cases hrun
    exact ⟨hpop, hnames⟩
  | cons m rest ih =>
    obtain ⟨q₁, w₁, hfirst, hrest⟩ := exec_bind_ok _ hrun
    obtain ⟨hpop₁, hnames₁⟩ := populated_ingest hclean hpop hnames hfirst
    exact ih hpop₁ hnames₁ hrest

/-- A message that shares a thread with an older one in one world and not in the
other. -/
theorem not_samePartition {older : Message} {base more more' : List Message} {a b : ThreadId}
    (hx : x.db.messages = base ++ row :: more) (hx' : x'.db.messages = base ++ row' :: more')
    (holder : older ∈ base) (hkey : (row.folderId, row.uid) = (row'.folderId, row'.uid))
    (hthread : older.threadId = some a) (hrow : row.threadId = some a)
    (hrow' : row'.threadId = some b) (hne : b ≠ a) : ¬ SamePartition x x' := by
  intro hsame
  have holder' : older ∈ x'.db.messages := by
    rw [hx']
    exact List.mem_append_left _ holder
  have hmem' : row' ∈ x'.db.messages := by
    rw [hx']
    exact List.mem_append_right _ List.mem_cons_self
  have htogether : Together x (older.folderId, older.uid) (row.folderId, row.uid) := by
    refine ⟨older, ?_, row, ?_, rfl, rfl, ?_, hrow.trans hthread.symm⟩
    · rw [hx]
      exact List.mem_append_left _ holder
    · rw [hx]
      exact List.mem_append_right _ List.mem_cons_self
    · rw [hthread]
      rfl
  obtain ⟨m, hm, m', hm', hmkey, hmkey', -, hth⟩ := (hsame _ _).mp htogether
  obtain rfl : m = older := x'.db.wf.messageUids.eq_of_key hm holder' (congrArg some hmkey) rfl
  obtain rfl : m' = row' := x'.db.wf.messageUids.eq_of_key hm' hmem'
    (congrArg some (hmkey'.trans hkey)) rfl
  rw [hrow', hthread] at hth
  exact hne (Option.some.inj hth)

/-- A thread that is picked from a list of names has a message and is no new one. -/
theorem older_of_existing {cm : CaseMap} {parsed : ParsedEmail} {refs : List ThreadRef}
    {id : ThreadId} (hpop : Populated account w) (hnames : Names account w refs)
    (h : assignThread cm now parsed refs = .existing id) :
    id < w.db.nextId ∧ ∃ older ∈ w.db.messages, older.threadId = some id := by
  obtain ⟨r, hr, rfl⟩ := assignThread_existing h
  have howner := hnames r hr
  exact ⟨owners_lt howner, populated_iff.mp hpop _ howner⟩

variable {parsed : ParsedEmail} {base more more' : List Message} {found found' : ThreadMatch}

/-- When the two worlds end up with the same partition, the message was put into the same
thread in both. -/
theorem match_eq_of_samePartition (h : SameStore w w')
    (hplaced : Placed account folder m p w (threadIdOf w.db.nextId found) q u row started)
    (hplaced' : Placed account folder m p' w' (threadIdOf w'.db.nextId found') q' u' row' started')
    (hknown : ∀ id, found = .existing id →
      id < w.db.nextId ∧ ∃ older ∈ w.db.messages, older.threadId = some id)
    (hknown' : ∀ id, found' = .existing id →
      id < w.db.nextId ∧ ∃ older ∈ w.db.messages, older.threadId = some id)
    (hx : x.db.messages = u.db.messages ++ more) (hx' : x'.db.messages = u'.db.messages ++ more')
    (hsame : SamePartition x x') : found = found' := by
  have hrows : x.db.messages = w.db.messages ++ row :: more := by
    rw [hx, hplaced.messages, List.append_assoc]
    rfl
  have hrows' : x'.db.messages = w.db.messages ++ row' :: more' := by
    rw [hx', hplaced'.messages, ← h.rows.messages, List.append_assoc]
    rfl
  have hkey : (row.folderId, row.uid) = (row'.folderId, row'.uid) := by
    rw [hplaced.folderId, hplaced.uid, hplaced'.folderId, hplaced'.uid]
  have hrow := hplaced.threadId
  have hrow' := hplaced'.threadId
  rw [← h.rows.nextId] at hrow'
  have hsymm : SamePartition x' x := fun a b => (hsame a b).symm
  cases hfound : found with
  | existing id =>
    rw [hfound] at hrow
    obtain ⟨hlt, older, holder, hthread⟩ := hknown id hfound
    by_contra hne
    refine not_samePartition hrows hrows' holder hkey hthread hrow hrow' ?_ hsame
    cases hfound' : found' with
    | existing id' =>
      intro heq
      exact hne (hfound'.symm ▸ congrArg ThreadMatch.existing heq.symm)
    | new => exact hlt.ne'
  | new =>
    cases hfound' : found' with
    | existing id' =>
      rw [hfound] at hrow
      rw [hfound'] at hrow'
      obtain ⟨hlt, older, holder, hthread⟩ := hknown' id' hfound'
      exact absurd hsymm (not_samePartition hrows' hrows holder hkey.symm hthread hrow' hrow hlt.ne')
    | new => rfl

theorem messages_of_ingestAll {messages : List FetchedMessage}
    (hrun : exec (handle env) (ingestAll mail account folder [] messages p) w = (.ok q, u)) :
    ∃ rows, u.db.messages = w.db.messages ++ rows := by
  have hgrows : wp (handle env) (ingestAll mail account folder [] messages p) w _ :=
    wp_ingestAll [] messages p w
  unfold wp at hgrows
  rw [hrun] at hgrows
  obtain ⟨rows, hgrows, -⟩ := hgrows
  exact ⟨rows, hgrows.messages⟩

variable {rebuilt : List ThreadRef} {kept : Nat}

/-- A batch, by induction on its messages: had the lists put a message differently, its
row would set the two partitions apart to the end. -/
theorem listsAgreeOn_of_samePartition (hpeers : Peers env env')
    (hnow : ∀ site, env.clock site = now) (hnow' : ∀ site, env'.clock site = now)
    {batch : List FetchedMessage} (h : SameStore w w') (hpop : Populated account w)
    (hnames : Names account w p.refs) (hnames' : Names account w' p'.refs)
    (hkept : kept ≤ p.refs.length) (hrefs : p'.refs = rebuilt ++ p.refs.drop kept)
    (hrun : exec (handle env) (ingestAll mail account folder [] batch p) w = (.ok q, u))
    (hrun' : exec (handle env') (ingestAll mail account folder [] batch p') w' = (.ok q', u'))
    (hx : x.db.messages = u.db.messages ++ more) (hx' : x'.db.messages = u'.db.messages ++ more')
    (hsame : SamePartition x x') :
    ListsAgreeOn mail env now account folder rebuilt kept batch w p := by
  induction batch generalizing w w' p p' with
  | nil => trivial
  | cons m rest ih =>
    obtain ⟨q₁, w₁, hfirst, hrest⟩ := exec_bind_ok _ hrun
    obtain ⟨q₁', w₁', hfirst', hrest'⟩ := exec_bind_ok _ hrun'
    obtain ⟨rows, hrows⟩ := messages_of_ingestAll hrest
    obtain ⟨rows', hrows'⟩ := messages_of_ingestAll hrest'
    have hput : PutAlike mail now m p.refs (rebuilt ++ p.refs.drop kept) := by
      intro parsed hparsed
      obtain ⟨row, started, hplaced⟩ := placed_of_ingest hpeers.clean hparsed hfirst
      obtain ⟨row', started', hplaced'⟩ := placed_of_ingest hpeers.clean' hparsed hfirst'
      rw [hnow] at hplaced
      rw [hnow', hrefs] at hplaced'
      rw [hrefs] at hnames'
      refine match_eq_of_samePartition h hplaced hplaced'
        (fun id => older_of_existing hpop hnames) (fun id hid => ?_)
        (hx.trans (by rw [hrows, List.append_assoc])) (hx'.trans (by rw [hrows', List.append_assoc]))
        hsame
      have holder := older_of_existing (hpop.of_sameStore h) hnames' hid
      rwa [← h.rows.nextId, ← h.rows.messages] at holder
    refine ⟨hput, ?_⟩
    rw [hfirst]
    obtain ⟨hpop₁, hnames₁⟩ := populated_ingest hpeers.clean hpop hnames hfirst
    obtain ⟨-, hnames₁'⟩ := populated_ingest hpeers.clean' (hpop.of_sameStore h) hnames' hfirst'
    have hpaired : Paired (handle env) (handle env') SameStore
        (fun q q' => GrewAlike p p' q.refs q'.refs) (ingest mail account folder [] p m) w
        (ingest mail account folder [] p' m) w' := by
      refine paired_ingest hpeers hnow hnow' h fun parsed hparsed => ?_
      rw [hrefs]
      exact hput parsed hparsed
    unfold Paired at hpaired
    rw [hfirst, hfirst'] at hpaired
    obtain ⟨hends, hstates⟩ := hpaired
    cases hends with
    | ok hgrew =>
      obtain ⟨hlen, hrefs₁⟩ := hgrew.carries hkept hrefs
      exact ih hstates hpop₁ hnames₁ hnames₁' hlen hrefs₁ hrest hrest'

variable {s : Setting}

/-- The calls only append rows. -/
theorem messages_after_calls {calls : List Call} {batches : List (List FetchedMessage)}
    (hbrought : Brought mail s account folder w calls batches) :
    ∃ rows, (afterCalls mail w calls).db.messages = w.db.messages ++ rows := by
  induction calls generalizing w batches with
  | nil => exact ⟨[], (List.append_nil _).symm⟩
  | cons c calls ih =>
    cases batches with
    | nil => exact absurd hbrought id
    | cons batch rest =>
      obtain ⟨⟨t, rfl, rfl, hbrings⟩, hlater⟩ := hbrought
      obtain ⟨rows, hrows⟩ := ih hlater
      obtain ⟨-, hstates⟩ := hbrings.paired mail
      have hgrows : wp (handle c.env) (ingestAll mail t.account.id t.folder.id [] batch
        (freshStart s.now t.account.id w)) w _ := wp_ingestAll [] batch _ w
      obtain ⟨rows', hgrows', -⟩ := hgrows
      have happly : (c.apply mail w).db.messages = w.db.messages ++ rows' :=
        hstates.rows.messages.trans hgrows'.messages
      refine ⟨rows' ++ rows, ?_⟩
      show (afterCalls mail (c.apply mail w) calls).db.messages = _
      rw [hrows, happly, List.append_assoc]

/-- All batches, by induction on the calls. -/
theorem listsAgree_of_samePartition {one : Call} {w₁ : World} {t₁ : Target}
    {all : List FetchedMessage} (hone : one.Brings s w₁ t₁ all) {calls : List Call}
    {batches : List (List FetchedMessage)} (h : SameStore w w')
    (hbrought : Brought mail s account folder w' calls batches) (hpop : Populated account w)
    (hnames : Names account w p.refs)
    (hrun : exec (handle one.env) (ingestAll mail account folder [] batches.flatten p) w = (.ok q, u))
    (hsucceed : Succeed mail w' calls) (hsame : SamePartition u (afterCalls mail w' calls)) :
    ListsAgree mail one.env s.now account folder batches w p := by
  induction calls generalizing w w' p batches with
  | nil =>
    cases batches with
    | nil => trivial
    | cons batch rest => exact absurd hbrought id
  | cons c calls ih =>
    cases batches with
    | nil => exact absurd hbrought id
    | cons batch rest =>
      obtain ⟨⟨t, rfl, rfl, hbrings⟩, hlater⟩ := hbrought
      obtain ⟨⟨rep, hrep⟩, hrest⟩ := hsucceed
      have hpeers := hone.peers hbrings
      rw [List.flatten_cons, exec_ingestAll_append] at hrun
      obtain ⟨q₁, u₁, hbatch, hrun⟩ := exec_bind_ok _ hrun
      obtain ⟨hends, hstates⟩ := hbrings.paired mail
      obtain ⟨q₁', hq₁'⟩ := hends.isOk_iff.mp ⟨rep, hrep⟩
      generalize hdone : exec (handle c.env) (ingestAll mail t.account.id t.folder.id [] batch
        (freshStart s.now t.account.id w')) w' = done at hq₁' hstates
      obtain ⟨r, u₁'⟩ := done
      obtain rfl : r = .ok q₁' := hq₁'
      obtain ⟨more, hmore⟩ := messages_of_ingestAll hrun
      obtain ⟨more', hmore'⟩ := messages_after_calls hlater
      have hmore₁ : (afterCalls mail w' (c :: calls)).db.messages = u₁'.db.messages ++ more' :=
        hmore'.trans (congrArg (· ++ more') hstates.rows.messages)
      have hfresh := h.rows.freshStart s.now t.account.id p
      have hagree : ListsAgreeOn mail one.env s.now t.account.id t.folder.id
          (recentRefs (fun _ => s.now) w.db t.account.id) p.refs.length batch w p :=
        listsAgreeOn_of_samePartition hpeers hone.clock hbrings.clock h hpop hnames
          (names_freshStart _ _ w') (Nat.le_refl _) hfresh hbatch hdone hmore hmore₁ hsame
      refine ⟨hagree, ?_⟩
      rw [hbatch]
      have hpaired := paired_batch hpeers hone.clock hbrings.clock h (Nat.le_refl _) hfresh hagree
      unfold Paired at hpaired
      rw [hbatch, hdone] at hpaired
      obtain ⟨hpop₁, hnames₁⟩ := populated_ingestAll hpeers.clean hpop hnames hbatch
      exact ih (hpaired.2.trans hstates.symm) hlater hpop₁ hnames₁ hrun hrest hsame

end Needed

/-! ## The main result -/

/-- A parser for messages with a `Message-ID` and at most an `In-Reply-To`. -/
def MailCrate.replies : MailCrate where
  parse raw :=
    (stripIgnoreAsciiCase "message-id: <".toList (raw.map fun b => Char.ofNat b.toNat)).map
      fun rest =>
        { messageId := some (String.ofList (rest.takeWhile fun c => c ≠ '>'))
          inReplyTo := (stripIgnoreAsciiCase ">\r\nin-reply-to: <".toList
            (rest.dropWhile fun c => c ≠ '>')).map
              fun more => String.ofList (more.takeWhile fun c => c ≠ '>')
          references := [], fromAddr := "", toAddrs := [], ccAddrs := []
          subject := none, textBody := none, htmlBody := none, attachments := [] }
  caseMap := .ascii

def replyMessage (id parent : String) : List UInt8 :=
  ("Message-ID: <" ++ id ++ ">\r\nIn-Reply-To: <" ++ parent ++ ">\r\n\r\n").toList.map
    fun c => UInt8.ofNat c.toNat

/-- A message, an answer to it, and an answer to `parent`. -/
def chainMessages (parent : String) : List ServerMessage :=
  [⟨1, [], some 0, idMessage "a"⟩, ⟨2, [], some 0, replyMessage "b" "a"⟩,
    ⟨3, [], some 0, replyMessage "c" parent⟩]

/-- A mailbox with the first `n` of them. -/
def chainMailbox (parent : String) (n : Fin 4) : ServerMailbox where
  uidValidity := some 7
  uidNext := some (UInt32.ofNat (n + 1))
  messages := (chainMessages parent).take n
  uids_nodup := by
    rw [List.map_take]
    exact List.Nodup.sublist (List.take_sublist _ _) (by decide : ([1, 2, 3] : List UInt32).Nodup)
  uids_pos := by
    intro m hm
    have hall : ∀ m ∈ chainMessages parent, 0 < m.uid := by
      simp [chainMessages]
    exact hall m (List.mem_of_mem_take hm)
  uids_lt := by
    intro next hnext m hm
    obtain rfl := Option.some.inj hnext
    have huid : m.uid ∈ ([1, 2, 3] : List UInt32).take n := by
      have hmem := List.mem_map_of_mem (f := ServerMessage.uid) hm
      rwa [List.map_take] at hmem
    have hall : ∀ n : Fin 4,
        (([1, 2, 3] : List UInt32).take n).all (· < UInt32.ofNat (n + 1)) = true := by
      decide
    simpa using List.all_eq_true.mp (hall n) m.uid huid

def chainCall (parent : String) (n : Fin 4) : Call :=
  .calm "INBOX" fun _ => (chainMailbox parent n).session

/-- The account after its first message. -/
def World.chainStarted : World := (chainCall "a" 1).apply .replies .small

def chainSetting : Setting := ⟨0, fun _ => 0, "attachments"⟩

/-- What a call finds after the first `n` messages. -/
def chainTarget (n : Nat) : Target where
  account := ⟨0, "me@host", "imap.host", 993, .idle, none, some 0⟩
  folder := ⟨1, 0, "INBOX", .inbox, some 7, some (n + 1), some n⟩
  port := 993
  credential := .password "secret"

theorem chain_brings {parent : String} {n : Fin 4} {k : Nat} {w : World}
    {messages : List FetchedMessage}
    (haccount : Accounts.get w.db 0 = some (chainTarget k).account)
    (hfolder : Folders.getByName w.db 0 "INBOX" = some (chainTarget k).folder)
    (hkeeps : resyncs (chainCall parent n).env (chainTarget k) w = false)
    (harrivals : arrivals (chainCall parent n).env (chainTarget k) w = messages) :
    (chainCall parent n).Brings chainSetting w (chainTarget k) messages := by
  have hsmooth : Smooth (chainMailbox parent n) (chainCall parent n).env :=
    ⟨fun _ => rfl, fun _ => ServerMailbox.shown_session _⟩
  exact ⟨fun _ => rfl, hsmooth.responds, fun _ => rfl, rfl, rfl,
    ⟨haccount, hfolder, rfl, rfl, rfl⟩, hkeeps, (upcomingAnswers_nodup hsmooth).1, harrivals⟩

/-- The second and the third message. -/
def chainBatches (parent : String) : List (List FetchedMessage) :=
  [[⟨2, [], some 0, replyMessage "b" "a"⟩], [⟨3, [], some 0, replyMessage "c" parent⟩]]

theorem brought_at_once {parent : String} (hparent : parent = "a" ∨ parent = "b") :
    Brought .replies chainSetting 0 1 .chainStarted [chainCall parent 3]
      [(chainBatches parent).flatten] := by
  refine ⟨⟨chainTarget 1, rfl, rfl, chain_brings ?_ ?_ ?_ ?_⟩, trivial⟩
  · decide
  · decide
  · rcases hparent with rfl | rfl <;> decide
  · rcases hparent with rfl | rfl <;> decide

theorem brought_one_by_one {parent : String} (hparent : parent = "a" ∨ parent = "b") :
    Brought .replies chainSetting 0 1 .chainStarted [chainCall parent 2, chainCall parent 3]
      (chainBatches parent) := by
  refine ⟨⟨chainTarget 1, rfl, rfl, chain_brings ?_ ?_ ?_ ?_⟩,
    ⟨chainTarget 2, rfl, rfl, chain_brings ?_ ?_ ?_ ?_⟩, trivial⟩
  · decide
  · decide
  · rcases hparent with rfl | rfl <;> decide
  · rcases hparent with rfl | rfl <;> decide
  · rcases hparent with rfl | rfl <;> decide
  · rcases hparent with rfl | rfl <;> decide
  · rcases hparent with rfl | rfl <;> decide
  · rcases hparent with rfl | rfl <;> decide

end Postblox.Sync
