import Postblox.Db.Ownership
import Postblox.Sync.Aggregates

/-!
# A sync stays in its account

`reconcile_folder` stores a message under the account, the folder and the thread that it
holds in three variables. They belong together: the folder was looked up by the account,
the known threads are those of the account, and a new thread is created for it. What a
program knows about the tables is passed on from statement to statement, since no
statement of it takes a folder or a thread from its account.
-/
namespace Postblox.Sync

open Lib Db Imap Mail Attachments
open Fallible

variable {env : Env}

/-! ## Commands -/

/-- What a command must know about the tables. -/
def Cmd.Fits (db : Database) : Cmd → Prop
  | .createMessage new => new.Owned db
  | .setFolder id folder => ∀ m ∈ db.messages, m.id = id → OwnsFolder db m.accountId folder
  | _ => True

/-- Commands that need not know anything. -/
def Cmd.unbound : Cmd → Bool
  | .createMessage _ | .setFolder .. => false
  | _ => true

theorem Cmd.fits_of_unbound {c : Cmd} (hc : c.unbound) (db : Database) : c.Fits db := by
  cases c with
  | createMessage | setFolder => exact absurd hc Bool.false_ne_true
  | _ => trivial

theorem keeps_query {α : Type} (read : Database → α) (w : World) :
    Keeps w.db (query env read w).2.db := by
  rw [query_db]
  exact .refl _

theorem keeps_update {w : World} {α : Type} {write : Database → Except DbError (α × Database)}
    (hwrite : ∀ a db, write w.db = .ok (a, db) → Keeps w.db db) :
    Keeps w.db (update env write w).2.db := by
  rcases update_cases env write w with ⟨e, heq, -⟩ | ⟨a, db, hdb, heq | heq⟩
  · rw [heq]
    exact .refl _
  · rw [heq]
    exact hwrite a db hdb
  · rw [heq]
    exact hwrite a db hdb

theorem keeps_insertMessage {new : NewMessage} {w : World} (hnew : new.Owned w.db) :
    Keeps w.db (insertMessage env new w).2.db := by
  rcases insertMessage_cases env new w with ⟨e, heq⟩ | ⟨row, db, hcreate, heq | heq⟩
  · rw [heq]
    exact .refl _
  · rw [heq]
    exact keeps_createMessage hnew hcreate
  · rw [heq]
    exact keeps_createMessage hnew hcreate

theorem handle_keeps (c : Cmd) (w : World) (hfits : c.Fits w.db) :
    Keeps w.db (handle env c w).2.db := by
  cases c with
  | now site => exact .refl _
  | getAccount id => exact keeps_query _ w
  | getFolderByName account name => exact keeps_query _ w
  | listRecent account limit offset => exact keeps_query _ w
  | messageIdsByThreads threads => exact keeps_query _ w
  | existingUids folder uids => exact keeps_query _ w
  | attachmentRoot => exact keeps_query _ w
  | getAttachment id => exact keeps_query _ w
  | getMessage id => exact keeps_query _ w
  | listFolders account => exact keeps_query _ w
  | recordAudit actor action target folder folderName => exact keeps_query _ w
  | publish event => exact .refl _
  | syncFolder account host port username credential folder fromUid => exact .refl _
  | createMessage new => exact keeps_insertMessage hfits
  | setFolder id folder => exact keeps_update fun _ _ hset => keeps_setFolder hfits hset
  | createThread account externalId subject =>
    exact keeps_update fun _ _ hcreate => (keeps_createThread hcreate).1
  | createAttachment new => exact keeps_update fun _ _ hcreate => keeps_createAttachment hcreate
  | writeNewFile path =>
    show Keeps w.db (writeFile env path w).2.db
    rw [writeFile_db]
    exact .refl _
  | deleteAllInFolder folder =>
    refine keeps_update fun _ _ hdelete => ?_
    cases hdelete
    exact keeps_deleteWhere w.db _
  | deleteMessage id =>
    refine keeps_update fun _ _ hdelete => ?_
    cases hdelete
    exact keeps_deleteWhere w.db _
  | touchLastMessageAt thread time =>
    refine keeps_update fun _ _ htouch => ?_
    cases htouch
    exact keeps_touch w.db thread time
  | refreshAggregates thread =>
    refine keeps_update fun _ _ hrefresh => ?_
    cases hrefresh
    exact keeps_refresh w.db thread
  | updateUidState folder uidValidity uidNext lastSeenUid =>
    refine keeps_update fun _ _ hstate => ?_
    cases hstate
    exact keeps_updateUidState w.db folder uidValidity uidNext lastSeenUid
  | updateSync account status error lastSyncedAt =>
    refine keeps_update fun _ _ hsync => ?_
    cases hsync
    exact .of_same rfl rfl rfl (le_refl _)

variable (env) in
theorem keeps_of_only {ε α : Type} {p : Fallible ε Cmd Reply α}
    (hp : Only (fun c => c.unbound = true) p) (w : World) :
    Keeps w.db (exec (handle env) p w).2.db :=
  exec_rel (handle env) (Q := fun w u => Keeps w.db u.db) (fun w => .refl w.db)
    (fun _ _ _ => Keeps.trans) (fun c hc w => handle_keeps c w (Cmd.fits_of_unbound hc w.db)) hp w

/-! ## Programs -/

/-- A fact that survives every statement. -/
def Lasting (P : Database → Prop) : Prop := ∀ d e, Keeps d e → P d → P e

/-- Started where `P` holds, the program keeps every message in its account and ends,
if it ends well, where `Q` holds of its result. -/
def Respects {ε α : Type} (env : Env) (P : Database → Prop) (p : Fallible ε Cmd Reply α)
    (Q : α → Database → Prop) : Prop :=
  ∀ w, P w.db → wp (handle env) p w fun r u => Keeps w.db u.db ∧ ∀ a, r = .ok a → Q a u.db

namespace Respects

variable {ε α β : Type} {P P' : Database → Prop} {Q Q' : α → Database → Prop}
  {T : β → Database → Prop} {p : Fallible ε Cmd Reply α} {f : α → Fallible ε Cmd Reply β}

theorem bind (hp : Respects env P p Q) (hf : ∀ a, Respects env (Q a) (f a) T) :
    Respects env P (p >>= f) T := by
  intro w hw
  refine wp_bind (handle env) (wp_mono (handle env) (hp w hw) ?_)
  intro r t ⟨hkeeps, hq⟩
  constructor
  · intro a ha
    refine wp_mono (handle env) (hf a t (hq a ha)) ?_
    exact fun r u hu => ⟨hkeeps.trans hu.1, hu.2⟩
  · exact fun e _ => ⟨hkeeps, fun _ h => by cases h⟩

theorem mono (hp : Respects env P p Q) (hP : ∀ d, P' d → P d) (hQ : ∀ a d, Q a d → Q' a d) :
    Respects env P' p Q' :=
  fun w hw => wp_mono (handle env) (hp w (hP _ hw)) fun _ _ hu =>
    ⟨hu.1, fun a ha => hQ a _ (hu.2 a ha)⟩

theorem pure {a : α} (h : ∀ d, P d → Q a d) :
    Respects env P (Pure.pure a : Fallible ε Cmd Reply α) Q := by
  refine fun w hw => ⟨.refl w.db, fun a' ha => ?_⟩
  rw [← Except.ok.inj ha]
  exact h _ hw

theorem throw {e : ε} : Respects env P (MonadExcept.throw e : Fallible ε Cmd Reply α) Q :=
  fun w _ => ⟨.refl w.db, fun _ h => by cases h⟩

/-- A program of statements that need not know anything passes on what is known. -/
theorem of_only (hP : Lasting P) (hp : Only (fun c => c.unbound = true) p) :
    Respects env P p fun _ => P := by
  intro w hw
  have hkeeps := keeps_of_only env hp w
  exact ⟨hkeeps, fun _ _ => hP _ _ hkeeps hw⟩

theorem mapError {ε' : Type} {g : ε → ε'} (hp : Respects env P p Q) :
    Respects env P (Fallible.mapError g p) Q := by
  intro w hw
  refine wp_mapError (handle env) (wp_mono (handle env) (hp w hw) ?_)
  intro r u ⟨hkeeps, hq⟩
  refine ⟨hkeeps, fun a ha => ?_⟩
  cases r with
  | ok a' => exact hq a (congrArg _ (Except.ok.inj ha))
  | error e => cases ha

/-- A fact that lasts can be taken along. -/
theorem along (hp : Respects env P p Q) (hP : Lasting P') :
    Respects env (fun d => P d ∧ P' d) p fun a d => Q a d ∧ P' d := by
  intro w hw
  refine wp_mono (handle env) (hp w hw.1) ?_
  intro r u ⟨hkeeps, hq⟩
  exact ⟨hkeeps, fun a ha => ⟨hq a ha, hP _ _ hkeeps hw.2⟩⟩

end Respects

/-! ### Threads -/

/-- The folder of the call and the threads known to it are the account's. -/
structure Own (account : AccountId) (folder : FolderId) (refs : List ThreadRef) (d : Database) :
    Prop where
  folder : OwnsFolder d account folder
  threads : ∀ ref ∈ refs, OwnsThread d account ref.threadId

theorem Own.lasting (account : AccountId) (folder : FolderId) (refs : List ThreadRef) :
    Lasting (Own account folder refs) :=
  fun _ _ hkeeps h => ⟨hkeeps.folders _ _ h.folder, fun ref href =>
    hkeeps.threads _ _ (h.threads ref href)⟩

/-- The thread of a message, and what is known afterwards. -/
structure PlacedOwn (account : AccountId) (folder : FolderId) (found : ThreadId × List ThreadRef)
    (d : Database) : Prop extends Own account folder found.2 d where
  thread : OwnsThread d account found.1

theorem PlacedOwn.lasting (account : AccountId) (folder : FolderId)
    (found : ThreadId × List ThreadRef) : Lasting (PlacedOwn account folder found) :=
  fun d e hkeeps h => ⟨Own.lasting account folder found.2 d e hkeeps h.toOwn,
    hkeeps.threads _ _ h.thread⟩

variable {mail : MailCrate} {account : AccountId} {folder : FolderId}

/-- A message joins a thread of its account, or starts one there. -/
theorem respects_threadFor (p : Progress) (fetched : FetchedMessage) (parsed : ParsedEmail) :
    Respects env (Own account folder p.refs) (threadFor mail account p fetched parsed)
      (PlacedOwn account folder) := by
  intro w hown
  refine wp_ask_bind (handle env) ?_
  split
  · next id hid =>
    refine ⟨.refl _, fun found hfound => ?_⟩
    rw [← Except.ok.inj hfound]
    obtain ⟨ref, href, rfl⟩ := assignThread_existing hid
    exact ⟨hown, hown.threads ref href⟩
  · refine wp_ask_bind (handle env) (wp_update_bind ?_ ?_ ?_)
    · exact fun e => ⟨.refl w.db, fun _ h => by cases h⟩
    · exact fun thread db hcreate e => ⟨(keeps_createThread hcreate).1, fun _ h => by cases h⟩
    · intro thread db hcreate
      obtain ⟨hkeeps, hthread⟩ := keeps_createThread hcreate
      have hplaced : ∀ lastMessageAt, PlacedOwn account folder
          (thread.id, p.refs ++ [startedRef thread.id parsed lastMessageAt]) db := by
        intro lastMessageAt
        refine ⟨⟨hkeeps.folders _ _ hown.folder, fun ref href => ?_⟩, hthread⟩
        rcases List.mem_append.mp href with hold | hnew
        · exact hkeeps.threads _ _ (hown.threads ref hold)
        · rw [List.mem_singleton.mp hnew]
          exact hthread
      have hnow : Respects env
          (fun d => ∀ time, PlacedOwn account folder
            (thread.id, p.refs ++ [startedRef thread.id parsed time]) d)
          (orNow fetched.internalDate (.threadRef p.inserted)) (fun _ d => ∀ time,
            PlacedOwn account folder (thread.id, p.refs ++ [startedRef thread.id parsed time]) d) :=
        .of_only (fun d e hk h time => PlacedOwn.lasting _ _ _ d e hk (h time))
          (only_orNow (fun _ => rfl) fetched.internalDate (.threadRef p.inserted))
      have hrest := hnow.bind (fun time => Respects.pure (ε := SyncError)
        (a := (thread.id, p.refs ++ [startedRef thread.id parsed time]))
        (Q := PlacedOwn account folder) fun d hd => hd time)
      refine wp_mono (handle env) (hrest (w.wrote db) hplaced) ?_
      exact fun r u hu => ⟨hkeeps.trans hu.1, hu.2⟩

/-! ### One message -/

/-- The insertion needs the row to be the account's; attachments and the rollback do not. -/
theorem respects_storeMessage {new : NewMessage} {P : Database → Prop} (hP : Lasting P)
    (hnew : ∀ d, P d → new.Owned d) (attachments : List ParsedAttachment) :
    Respects env P (storeMessage new attachments) fun _ => P := by
  intro w hw
  have hinsert : Keeps w.db (insertMessage env new w).2.db := keeps_insertMessage (hnew w.db hw)
  refine wp_ask_bind (handle env) ?_
  refine wp_mono (handle env) (Respects.bind (.of_only hP (only_ofDb (insertMessage env new w).1))
    (fun row => .of_only hP (only_bind (only_attempt (only_persist
      (P := fun c => c.unbound = true) (fun _ _ => rfl) rfl (fun _ => rfl) (fun _ => rfl) attachments)) fun outcome => ?_))
    _ (hP _ _ hinsert hw)) ?_
  · cases outcome with
    | ok _ => exact only_pure row
    | error e => exact only_bind (only_ask rfl) fun _ => only_throw _
  · exact fun r u hu => ⟨hinsert.trans hu.1, hu.2⟩

theorem respects_ingestParsed (p : Progress) (fetched : FetchedMessage) (parsed : ParsedEmail) :
    Respects env (Own account folder p.refs) (ingestParsed mail account folder p fetched parsed)
      fun q => Own account folder q.refs := by
  refine .bind (respects_threadFor p fetched parsed) fun found => ?_
  have hlasting := PlacedOwn.lasting account folder found
  refine .bind (.of_only hlasting (only_orNow (fun _ => rfl) _ _)) fun date => ?_
  refine .bind (respects_storeMessage hlasting ?_ _) fun row => ?_
  · intro d hplaced
    refine ⟨hplaced.folder, fun id hid => ?_⟩
    rw [← Option.some.inj hid]
    exact hplaced.thread
  · have hdone : ∀ c : Cmd, c.unbound → Respects (ε := SyncError) env
        (PlacedOwn account folder found) (perform c) fun _ => PlacedOwn account folder found :=
      fun c hc => .of_only hlasting (only_ask hc)
    refine .bind (.of_only hlasting (only_orNow (fun _ => rfl) _ _)) fun time => ?_
    refine .bind (hdone _ rfl) fun x => .bind (.of_only hlasting (only_ofDb x)) fun _ => ?_
    refine .bind (hdone _ rfl) fun x => .bind (.of_only hlasting (only_ofDb x)) fun _ => ?_
    exact .bind (hdone _ rfl) fun _ => .pure fun d hplaced => hplaced.toOwn

theorem respects_ingest (already : List Int) (p : Progress) (fetched : FetchedMessage) :
    Respects env (Own account folder p.refs) (ingest mail account folder already p fetched)
      fun q => Own account folder q.refs := by
  unfold ingest
  split_ifs
  · exact .pure fun _ h => h
  · exact .pure fun _ h => h
  · split
    · exact .pure fun _ h => h
    · exact respects_ingestParsed p fetched _

theorem respects_ingestAll (already : List Int) (messages : List FetchedMessage) (p : Progress) :
    Respects env (Own account folder p.refs) (ingestAll mail account folder already messages p)
      fun q => Own account folder q.refs := by
  induction messages generalizing p with
  | nil => exact .pure fun _ h => h
  | cons fetched rest ih => exact .bind (respects_ingest already p fetched) ih

/-! ### The call -/

variable {t : Target}

theorem respects_drain (fuel : Nat) (server : FolderSync) (p : Progress) (lastSeen : Option Int) :
    Respects env (Own t.account.id t.folder.id p.refs) (drain mail t fuel server p lastSeen)
      fun _ _ => True := by
  induction fuel generalizing server p lastSeen with
  | zero => exact .throw
  | succ fuel ih =>
    have hround : Respects env (Own t.account.id t.folder.id p.refs)
        (ingestAnswer mail t server p).lift fun q => Own t.account.id t.folder.id q.refs :=
      .mapError (.bind (.of_only (Own.lasting _ _ _) (only_existingUids (fun _ _ => rfl) _ _))
        fun already => respects_ingestAll already server.messages p)
    refine .bind hround fun q => ?_
    split_ifs
    · exact .bind (.mapError (.of_only (Own.lasting _ _ _)
        (only_fetchFrom (fun _ _ _ _ _ _ _ => rfl) t _))) fun next => ih next q _
    · exact .pure fun _ _ => trivial

/-- The rows a call works on: the folder belongs to the account. -/
theorem respects_lookup (req : Request) :
    Respects env (fun _ => True) (lookup req) fun t d => OwnsFolder d t.account.id t.folder.id := by
  intro w _
  have hkeeps := keeps_of_only env (only_lookup (fun _ => rfl) (fun _ _ => rfl) req) w
  refine ⟨hkeeps, fun t ht => hkeeps.folders _ _ ?_⟩
  have hfound := (wp_lookup req w).2 t ht
  have haccount : t.account.id = req.account := by
    simpa using List.find?_some hfound.account
  have howner := List.find?_some hfound.folder
  rw [decide_eq_true_eq] at howner
  exact ⟨t.folder, List.mem_of_find?_eq_some hfound.folder, rfl, howner.1.trans haccount.symm⟩

/-- The views name the listed threads. -/
theorem respects_threadRefs {account : AccountId} {folder : FolderId}
    (pairs : List (ThreadId × String)) (index : Nat) (threads : List Thread) :
    Respects env (fun d => OwnsFolder d account folder ∧ ∀ th ∈ threads, OwnsThread d account th.id)
      (threadRefs pairs index threads) fun refs => Own account folder refs := by
  induction threads generalizing index with
  | nil => exact .pure fun d hd => ⟨hd.1, fun ref href => absurd href List.not_mem_nil⟩
  | cons thread rest ih =>
    have hfirst : Lasting fun d => OwnsThread d account thread.id :=
      fun _ _ hkeeps h => hkeeps.threads _ _ h
    have hlasting : Lasting fun d => (OwnsFolder d account folder ∧
        ∀ th ∈ rest, OwnsThread d account th.id) ∧ OwnsThread d account thread.id :=
      fun _ _ hkeeps h => ⟨⟨hkeeps.folders _ _ h.1.1, fun th hth =>
        hkeeps.threads _ _ (h.1.2 th hth)⟩, hfirst _ _ hkeeps h.2⟩
    refine .mono (.bind (.of_only hlasting (only_orNow (fun _ => rfl) _ _)) fun time => .bind
      ((ih (index + 1)).along hfirst) fun refs => .pure (Q := fun refs => Own account folder refs) ?_)
      (fun d hd => ⟨⟨hd.1, fun th hth => hd.2 th (List.mem_cons_of_mem _ hth)⟩,
        hd.2 thread List.mem_cons_self⟩) fun _ _ h => h
    intro d ⟨hown, hthread⟩
    refine ⟨hown.folder, fun ref href => ?_⟩
    rcases List.mem_cons.mp href with rfl | hrest
    · exact hthread
    · exact hown.threads ref hrest

theorem mem_listRecent {db : Database} {account : AccountId} {limit offset : Int} {th : Thread}
    (h : th ∈ Threads.listRecent db account limit offset) :
    th ∈ db.threads ∧ th.accountId = account := by
  have hsorted := List.mem_of_mem_drop (List.mem_of_mem_take h)
  have hmem := List.mem_filter.mp ((List.perm_insertionSort _ _).mem_iff.mp hsorted)
  exact ⟨hmem.1, of_decide_eq_true hmem.2⟩

/-- The threads that the matcher is given are the account's. -/
theorem respects_knownThreads (account : AccountId) (folder : FolderId) :
    Respects env (fun d => OwnsFolder d account folder) (knownThreads account)
      fun refs => Own account folder refs := by
  intro w hw
  refine wp_ask_bind (handle env) (wp_query_bind ?_ fun e => ⟨.refl w.db, fun _ h => by cases h⟩)
  have hrecent : ∀ th ∈ Threads.listRecent w.db account 200 0, OwnsThread w.db account th.id :=
    fun th hth => ⟨th, (mem_listRecent hth).1, rfl, (mem_listRecent hth).2⟩
  have hlasting : Lasting fun d => OwnsFolder d account folder ∧
      ∀ th ∈ Threads.listRecent w.db account 200 0, OwnsThread d account th.id :=
    fun _ _ hkeeps h => ⟨hkeeps.folders _ _ h.1, fun th hth => hkeeps.threads _ _ (h.2 th hth)⟩
  have hids : ∀ threads, Only (fun c => c.unbound = true) (messageIdsByThreads threads) := by
    intro threads
    unfold messageIdsByThreads
    split_ifs
    · exact only_pure []
    · exact only_bind (only_ask rfl) fun x => only_ofDb x
  exact Respects.bind (.of_only hlasting (hids _)) (fun pairs => respects_threadRefs pairs 0 _)
    w.tick ⟨hw, hrecent⟩

theorem respects_openFolder {P : Database → Prop} (hP : Lasting P) :
    Respects env P (openFolder t) fun _ => P := by
  have hfetch : ∀ fromUid, Respects env P (fetchFrom t fromUid) fun _ => P :=
    fun fromUid => .of_only hP (only_fetchFrom (fun _ _ _ _ _ _ _ => rfl) t fromUid)
  refine .bind (hfetch _) fun server => ?_
  split_ifs
  · refine .bind (.of_only hP (only_ask rfl)) fun x => ?_
    refine .bind (.of_only hP (only_ofDb x)) fun wiped => ?_
    exact .bind (hfetch 1) fun server => .pure fun _ h => h
  · exact .pure fun _ h => h

theorem respects_reconcile (mail : MailCrate) (req : Request) :
    Respects env (fun _ => True) (reconcileFolder mail req) fun _ _ => True := by
  refine .bind (.mapError (respects_lookup req)) fun t => ?_
  have hlasting : Lasting fun d => OwnsFolder d t.account.id t.folder.id :=
    fun _ _ hkeeps h => hkeeps.folders _ _ h
  refine .bind (.mapError (respects_openFolder hlasting)) fun o => ?_
  refine .bind (.mapError (respects_knownThreads _ _)) fun refs => ?_
  refine .bind (respects_drain drainFuel o.server { refs, inserted := 0 } o.lastSeen) fun d => ?_
  exact .mapError (.of_only (fun _ _ _ h => h) (only_finish (fun _ _ _ _ => rfl) (fun _ => rfl)
    (fun _ _ _ _ => rfl) (fun _ => rfl) t o d))

end Postblox.Sync
