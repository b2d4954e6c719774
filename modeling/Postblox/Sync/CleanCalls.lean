import Postblox.Sync.Passes

/-!
# Whole calls without faults

When no statement and no connection fails, a call returns well exactly when none
of the messages that are new to the folder clashes (`reconcile_clean`). Which
messages these are follows from the state before the call and from what the
server sends: `upcoming` are the answers of the loop, `arrivals` their messages.
-/
namespace Postblox.Sync

open Lib Db Imap Mail Attachments

variable {env : Env} {mail : MailCrate} {t : Target} {req : Request} {w : World}

/-! ## What the matcher starts from -/

/-- The views of the recent threads. -/
def recentRefs (clock : ClockSite → Int) (db : Database) (account : AccountId) : List ThreadRef :=
  let recent := Threads.listRecent db account 200 0
  let pairs := Messages.messageIdsByThreads db (recent.map (·.id))
  recent.zipIdx.map fun (th, i) =>
    threadRef pairs th (th.lastMessageAt.getD (clock (.recentThread i)))

def Known.start (clock : ClockSite → Int) (db : Database) (account : AccountId) : Known where
  external := db.threads.filterMap Thread.externalKey
  threads := recentRefs clock db account
  inserted := 0

theorem exec_threadRefs (pairs : List (ThreadId × String)) (index : Nat) (threads : List Thread)
    (w : World) :
    Fallible.exec (handle env) (threadRefs pairs index threads) w =
      (.ok ((threads.zipIdx index).map fun (th, i) =>
        threadRef pairs th (th.lastMessageAt.getD (env.clock (.recentThread i)))), w) := by
  induction threads generalizing index with
  | nil => rfl
  | cons th rest ih =>
    unfold threadRefs
    rw [Fallible.exec_bind, exec_orNow]
    dsimp only
    rw [Fallible.exec_bind, ih (index + 1)]
    rfl

theorem wp_knownThreads_clean (hclean : env.Clean) (account : AccountId) (w : World) :
    Fallible.wp (handle env) (knownThreads account) w (fun r u =>
      r = .ok (recentRefs env.clock w.db account) ∧ u.db = w.db ∧ u.files = w.files) := by
  refine Fallible.wp_ask_bind _ (wp_clean_query hclean ?_)
  unfold messageIdsByThreads
  split_ifs with hempty
  · have hnil : Threads.listRecent w.db account 200 0 = [] := by
      rwa [List.isEmpty_iff, List.map_eq_nil_iff] at hempty
    unfold Fallible.wp recentRefs
    rw [hnil]
    exact ⟨rfl, rfl, rfl⟩
  · refine Fallible.wp_bind _ (Fallible.wp_ask_bind _ ?_)
    show Fallible.wp (handle env) (SyncM.ofDb (query env _ w.tick).1) (query env _ w.tick).2 _
    rw [query_clean hclean]
    refine ⟨?_, fun _ h => nomatch h⟩
    intro pairs hpairs
    obtain rfl := Except.ok.inj hpairs
    unfold Fallible.wp
    rw [exec_threadRefs]
    exact ⟨rfl, rfl, rfl⟩

theorem tracks_start (clock : ClockSite → Int) (account : AccountId) (w : World) :
    Tracks (.start clock w.db account) { refs := recentRefs clock w.db account, inserted := 0 }
      w.threadKeys where
  external := by
    unfold Known.start World.threadKeys
    rw [List.filterMap_map]
    rfl
  views := rfl
  inserted := rfl
  rows := by
    intro r hr
    obtain ⟨⟨th, i⟩, hmem, rfl⟩ := List.mem_map.mp hr
    have hrecent : th ∈ Threads.listRecent w.db account 200 0 := List.fst_mem_of_mem_zipIdx hmem
    have hsorted := List.mem_of_mem_drop (List.mem_of_mem_take hrecent)
    have hrow := (List.mem_filter.mp ((List.perm_insertionSort _ _).mem_iff.mp hsorted)).1
    exact mem_threadKeys.mpr ⟨th, hrow, rfl⟩

/-! ## The loop -/

/-- Every connection works. -/
def Env.Responds (env : Env) : Prop :=
  ∀ n fromUid, ∃ server, syncFolder (env.session n) fromUid = .ok server

/-- The answers that the loop works off from `server` on, the next connection being
the `n`-th. -/
def upcoming (session : Nat → Session) : Nat → Nat → FolderSync → List FolderSync
  | 0, _, _ => []
  | fuel + 1, n, server =>
    server ::
      if server.hasMore then
        match syncFolder (session n) (saturatingAdd server.windowHi 1) with
        | .ok next => upcoming session fuel (n + 1) next
        | .error _ => []
      else []

theorem wp_existingUids_clean (hclean : env.Clean) (folder : FolderId) (uids : List Int)
    (w : World) :
    Fallible.wp (handle env) (existingUids folder uids) w (fun r u =>
      ∃ already, r = .ok already ∧ u.db = w.db ∧ u.files = w.files) := by
  unfold existingUids
  split_ifs
  · exact ⟨[], rfl, rfl, rfl⟩
  · refine Fallible.wp_ask_bind _ ?_
    show Fallible.wp (handle env) (SyncM.ofDb (query env _ w).1) (query env _ w).2 _
    rw [query_clean hclean]
    exact ⟨_, rfl, rfl, rfl⟩

/-- Skipping a message is as good as leaving it out. -/
theorem ingestAll_unseen (account : AccountId) (folder : FolderId) (already : List Int)
    (messages : List FetchedMessage) (p : Progress) :
    ingestAll mail account folder already messages p =
      ingestAll mail account folder [] (unseen already messages) p := by
  induction messages generalizing p with
  | nil => rfl
  | cons m rest ih =>
    have hcons : ingestAll mail account folder already (m :: rest) p =
        ingest mail account folder already p m >>=
          ingestAll mail account folder [] (unseen already rest) := by
      unfold ingestAll
      exact congrArg _ (funext ih)
    rw [hcons]
    by_cases hseen : already.contains (uidOf m)
    · have hskip : ingest mail account folder already p m = pure p := by
        unfold ingest
        rw [if_pos hseen]
      have hunseen : unseen already (m :: rest) = unseen already rest := by
        unfold unseen
        rw [List.filter_cons_of_neg]
        simpa using hseen
      rw [hskip, hunseen]
      rfl
    · have hsame : ingest mail account folder already p m = ingest mail account folder [] p m := by
        unfold ingest
        rw [if_neg hseen, if_neg (show ¬ [].contains (uidOf m) = true from Bool.false_ne_true)]
      have hunseen : unseen already (m :: rest) = m :: unseen already rest := by
        unfold unseen
        rw [List.filter_cons_of_pos]
        simpa using hseen
      rw [hsame, hunseen]
      rfl

theorem exec_ingestAll_append (account : AccountId) (folder : FolderId)
    (first second : List FetchedMessage) (p : Progress) (w : World) :
    Fallible.exec (handle env) (ingestAll mail account folder [] (first ++ second) p) w =
      Fallible.exec (handle env) (ingestAll mail account folder [] first p >>=
        ingestAll mail account folder [] second) w := by
  induction first generalizing p w with
  | nil => rfl
  | cons m rest ih =>
    have hcons : ∀ more, ingestAll mail account folder [] (m :: more) p =
        ingest mail account folder [] p m >>= ingestAll mail account folder [] more :=
      fun more => rfl
    rw [List.cons_append, hcons, hcons, Fallible.exec_bind, Fallible.exec_bind, Fallible.exec_bind]
    generalize Fallible.exec (handle env) (ingest mail account folder [] p m) w = done
    obtain ⟨r, u⟩ := done
    cases r with
    | ok q =>
      dsimp only
      rw [ih q u, Fallible.exec_bind]
    | error e => rfl

variable {p : Progress} {old : Int → Bool} {w' : World}

/-- Storing the same messages in two worlds with the same mail. -/
theorem paired_ingestAll (hclean : env.Clean) (h : SameStore w w') (messages : List FetchedMessage)
    (p : Progress) :
    Fallible.Paired (handle env) (handle env) SameStore Eq
      (ingestAll mail t.account.id t.folder.id [] messages p) w
      (ingestAll mail t.account.id t.folder.id [] messages p) w' := by
  refine Fallible.paired_same _ _ (P := fun c => c.stores ∨ ∃ site, c = .now site) ?_
    (only_ingestAll (fun _ hc => .inl hc) (fun site => .inr ⟨site, rfl⟩) _ _ _ _ _ _) h
  rintro c (hc | ⟨site, rfl⟩) s s' hS
  · exact SameStore.handle (.self hclean) hc hS
  · exact ⟨rfl, hS⟩

/-- One round of the loop; `old` are the UIDs that had a row before. -/
theorem paired_ingestAnswer (hclean : env.Clean) {server : FolderSync} (h : SameStore w w')
    (hold : ∀ m ∈ server.messages,
      Messages.UidTaken w.db t.folder.id (uidOf m) ↔ old (uidOf m) = true) :
    Fallible.Paired (handle env) (handle env) SameStore Eq (ingestAnswer mail t server p) w
      (ingestAll mail t.account.id t.folder.id []
        (server.messages.filter fun m => !old (uidOf m)) p) w' := by
  refine Fallible.paired_left _ _ (Fallible.wp_mono _ (Fallible.wp_and _
    (wp_existingUids_clean hclean _ _ w) (wp_existingUids _ _ w)) ?_)
  rintro r u ⟨⟨already, rfl, hdb, hfiles⟩, -, halready⟩
  refine ⟨already, rfl, ?_⟩
  have hmem := halready already rfl
  have hunseen : unseen already server.messages =
      server.messages.filter fun m => !old (uidOf m) := by
    refine List.filter_congr fun m hm => ?_
    have hseen : uidOf m ∈ already ↔ old (uidOf m) = true := by
      rw [hmem, ← hold m hm]
      exact and_iff_left (List.mem_map_of_mem hm)
    rw [Bool.eq_iff_iff, Bool.not_eq_true', Bool.not_eq_true', ← Bool.not_eq_true,
      ← Bool.not_eq_true, List.contains_iff_mem, hseen]
  rw [ingestAll_unseen, hunseen]
  refine paired_ingestAll hclean ⟨?_, ?_⟩ _ p
  · rw [hdb]
    exact h.rows
  · rw [hfiles]
    exact h.files

/-- A row that a round stored is in no later round's way, since all UIDs that arrive
are different. -/
theorem uidTaken_of_grows {u : World} {rows : List Message} {later : List FetchedMessage}
    {server : FolderSync} (hgrows : Grows w u rows)
    (hrows : ∀ row ∈ rows, ∃ m ∈ server.messages, RowOf mail t.account.id t.folder.id m row)
    (hdisjoint : ∀ m ∈ server.messages, ∀ m' ∈ later, uidOf m ≠ uidOf m') {m : FetchedMessage}
    (hm : m ∈ later) :
    Messages.UidTaken u.db t.folder.id (uidOf m) ↔ Messages.UidTaken w.db t.folder.id (uidOf m) := by
  unfold Messages.UidTaken
  rw [hgrows.messages]
  constructor
  · intro ⟨row, hrow, hfolder, huid⟩
    rcases List.mem_append.mp hrow with hw | hnew
    · exact ⟨row, hw, hfolder, huid⟩
    · obtain ⟨m', hm', hof⟩ := hrows row hnew
      exact absurd (hof.uid.symm.trans huid) (hdisjoint m' hm' m hm)
  · intro ⟨row, hrow, hkey⟩
    exact ⟨row, List.mem_append_left _ hrow, hkey⟩

variable (old) in
/-- The loop stores what one pass over the new messages of its answers stores, by
induction on its fuel. -/
theorem paired_drain (hclean : env.Clean) (hresponds : env.Responds) (fuel : Nat)
    (server : FolderSync) (lastSeen : Option Int) {rec : SyncRecord}
    (hanswer : rec.answer = .ok server) (hfuel : u32Max < rec.fromUid.toNat + fuel)
    (h : SameStore w w')
    (hnodup : (((upcoming env.session fuel w.syncs.length server).flatMap (·.messages)).map
      uidOf).Nodup)
    (hold : ∀ a ∈ upcoming env.session fuel w.syncs.length server, ∀ m ∈ a.messages,
      (Messages.UidTaken w.db t.folder.id (uidOf m) ↔ old (uidOf m) = true)) :
    Fallible.Paired (handle env) (handle env) SameStore (fun d q => d.progress = q)
      (drain mail t fuel server p lastSeen) w
      (ingestAll mail t.account.id t.folder.id []
        (((upcoming env.session fuel w.syncs.length server).flatMap (·.messages)).filter
          fun m => !old (uidOf m)) p) w' := by
  induction fuel generalizing server p lastSeen w w' rec with
  | zero =>
    have hmax := toNat_le_u32Max rec.fromUid
    omega
  | succ fuel ih =>
    unfold upcoming at hnodup hold ⊢
    rw [List.flatMap_cons, List.map_append, List.nodup_append] at hnodup
    obtain ⟨-, htail, hdisjoint⟩ := hnodup
    rw [List.flatMap_cons, List.filter_append]
    unfold Fallible.Paired
    rw [exec_ingestAll_append]
    refine Fallible.paired_bind _ _ (Fallible.paired_mapError _ _ (paired_ingestAnswer hclean h
      (hold server List.mem_cons_self))) ?_
    rintro q _ u u' hround - rfl hu
    have hanswered : Fallible.wp (handle env) (ingestAnswer mail t server p).lift w (fun _ u =>
        ∃ rows, Grows w u rows ∧ ∀ row ∈ rows, ∃ m ∈ server.messages,
          RowOf mail t.account.id t.folder.id m row) := by
      refine Fallible.wp_mapError _ (Fallible.wp_mono _ (wp_ingestAnswer server p w) ?_)
      intro r v ⟨rows, hgrows, hrows, _⟩
      refine ⟨rows, hgrows, fun row hrow => ?_⟩
      obtain ⟨m, hm, hof, -⟩ := hrows row hrow
      exact ⟨m, hm, hof⟩
    unfold Fallible.wp at hanswered
    rw [hround] at hanswered
    obtain ⟨rows, hgrows, hrows⟩ := hanswered
    split_ifs with hmore
    · obtain ⟨next, hnext⟩ := hresponds u.syncs.length (saturatingAdd server.windowHi 1)
      rw [if_pos hmore, ← hgrows.syncs, hnext] at htail hdisjoint hold
      rw [← hgrows.syncs, hnext]
      have hcall : (callFor env t u (saturatingAdd server.windowHi 1)).answer = .ok next := hnext
      refine Fallible.paired_left _ _ (Fallible.wp_mapError _ (wp_fetchFrom ?_ ?_))
      · intro next' hnext'
        obtain rfl : next' = next := Except.ok.inj (hnext'.symm.trans hcall)
        refine ⟨next', rfl, ?_⟩
        have hlen : (u.called (callFor env t u (saturatingAdd server.windowHi 1))).syncs.length =
            u.syncs.length + 1 := List.length_append
        have hfrom : u32Max <
            (callFor env t u (saturatingAdd server.windowHi 1)).fromUid.toNat + fuel := by
          show u32Max < (saturatingAdd server.windowHi 1).toNat + fuel
          obtain ⟨hle, -⟩ := answer_hasMore hanswer hmore
          rw [toNat_next hanswer hmore]
          omega
        rw [← hlen] at htail hdisjoint hold ⊢
        refine ih next' _ hnext' hfrom ⟨hu.rows, hu.files⟩ htail ?_
        intro a ha m hm
        rw [← hold a (List.mem_cons_of_mem _ ha) m hm]
        refine uidTaken_of_grows hgrows hrows ?_ (List.mem_flatMap.mpr ⟨a, ha, hm⟩)
        intro m₁ hm₁ m₂ hm₂
        exact hdisjoint _ (List.mem_map_of_mem hm₁) _ (List.mem_map_of_mem hm₂)
      · intro e he
        rw [hcall] at he
        cases he
    · exact Fallible.paired_pure _ _ rfl hu

/-! ## The whole call -/

theorem Found.unique {t' : Target} (h : Found w req t) (h' : Found w req t') : t = t' := by
  have haccount := Option.some.inj (h.account.symm.trans h'.account)
  have hfolder := Option.some.inj (h.folder.symm.trans h'.folder)
  have hport := h.port
  rw [haccount] at hport
  have hport' := Except.ok.inj (hport.symm.trans h'.port)
  have hcredential := h.credential.trans h'.credential.symm
  cases t
  cases t'
  simp_all

theorem wp_lookup_clean (hclean : env.Clean) (hfound : Found w req t) :
    Fallible.wp (handle env) (lookup req) w (fun r u =>
      r = .ok t ∧ u.db = w.db ∧ u.files = w.files) := by
  have hpresent := hfound.present
  unfold lookup
  rw [if_neg (by rw [hpresent]; exact Bool.false_ne_true)]
  refine Fallible.wp_ask_bind _ (wp_clean_query hclean ?_)
  rw [hfound.account]
  refine Fallible.wp_ask_bind _ (wp_clean_query hclean ?_)
  rw [show Folders.getByName w.tick.db req.account req.folderName = _ from hfound.folder]
  refine wp_ofImap_bind (fun port hport => ?_) (fun e he => ?_)
  · obtain rfl : t.port = port := Except.ok.inj (hfound.port.symm.trans hport)
    rw [Fallible.wp_pure, ← hfound.credential]
    exact ⟨rfl, rfl, rfl⟩
  · rw [hfound.port] at he
    cases he

/-- The database when the loop starts: without the folder's rows after a change of
validity. -/
def openedDb (env : Env) (t : Target) (w : World) : Database :=
  if resyncs env t w then (Messages.deleteAllInFolder w.db t.folder.id).2 else w.db

theorem wp_openFolder_clean (hclean : env.Clean) (hresponds : env.Responds) (w : World) :
    Fallible.wp (handle env) (openFolder t) w (fun r u =>
      ∃ o, r = .ok o ∧ u.db = openedDb env t w ∧ u.files = w.files) := by
  have hresponds' : ∀ (u : World) fromUid e, (callFor env t u fromUid).answer ≠ .error e := by
    intro u fromUid e he
    obtain ⟨server, hserver⟩ := hresponds u.syncs.length fromUid
    have hanswer : (callFor env t u fromUid).answer = .ok server := hserver
    rw [hanswer] at he
    cases he
  refine Fallible.wp_bind _ (wp_fetchFrom ?_ fun e he => absurd he (hresponds' w _ e))
  intro server hserver
  refine ⟨?_, fun _ h => nomatch h⟩
  intro server' heq
  obtain rfl : server = server' := Except.ok.inj heq
  have hresyncs : resyncs env t w = needsFullResync t.folder server := by
    unfold resyncs firstCall
    rw [hserver]
  unfold openedDb
  rw [hresyncs]
  split_ifs
  · refine Fallible.wp_ask_bind _ (wp_clean_update hclean rfl ?_)
    refine Fallible.wp_bind _ (wp_fetchFrom ?_ fun e he => absurd he (hresponds' _ _ e))
    intro next _
    exact ⟨fun _ _ => ⟨_, rfl, rfl, rfl⟩, fun _ h => nomatch h⟩
  · exact ⟨_, rfl, rfl, rfl⟩

theorem sameRows_finish (db : Database) (folder : FolderId) (account : AccountId)
    (validity next seen : Option Int) (status : SyncStatus) (error : Option String)
    (time : Option Int) :
    SameRows (Accounts.updateSync (Folders.updateUidState db folder validity next seen) account
      status error time) db where
  threads := rfl
  messages := rfl
  nextId := rfl
  accounts := by
    refine map_updateWhere ?_ db.accounts
    exact fun _ => rfl
  folders := by
    refine map_updateWhere ?_ db.folders
    exact fun _ => rfl

theorem wp_finish_clean (hclean : env.Clean) (o : Opened) (d : Drained) (w : World) :
    Fallible.wp (handle env) (finish t o d) w (fun r u => ∃ rep, r = .ok rep ∧ SameStore u w) := by
  refine Fallible.wp_ask_bind _ (wp_clean_update hclean rfl ?_)
  refine Fallible.wp_ask_bind _ (Fallible.wp_ask_bind _ (wp_clean_update hclean rfl ?_))
  split_ifs
  · exact Fallible.wp_ask_bind _ ⟨_, rfl, sameRows_finish .., rfl⟩
  · exact ⟨_, rfl, sameRows_finish .., rfl⟩

/-- The answers that the loop will work off. -/
def upcomingAnswers (env : Env) (t : Target) (w : World) : List FolderSync :=
  match (opening env t w).getLast?.map SyncRecord.answer with
  | some (.ok server) =>
    upcoming env.session drainFuel (w.syncs.length + (opening env t w).length) server
  | _ => []

/-- The messages of the call that have no row yet when the loop starts. -/
def arrivals (env : Env) (t : Target) (w : World) : List FetchedMessage :=
  ((upcomingAnswers env t w).flatMap (·.messages)).filter fun m =>
    !decide (Messages.UidTaken (openedDb env t w) t.folder.id (uidOf m))

/-- No message of the call starts a new thread under an external id in use. -/
def Unclashed (mail : MailCrate) (env : Env) (t : Target) (w : World) : Prop :=
  (Known.start env.clock (openedDb env t w) t.account.id).Free mail t.account.id env.clock
    (arrivals env t w)

instance (mail : MailCrate) (env : Env) (t : Target) (w : World) :
    Decidable (Unclashed mail env t w) :=
  Known.decidableFree mail t.account.id env.clock _ _

theorem openedDb_frame (env : Env) (t : Target) (w : World) :
    (openedDb env t w).accounts = w.db.accounts ∧ (openedDb env t w).folders = w.db.folders ∧
      (openedDb env t w).nextId = w.db.nextId := by
  unfold openedDb
  split_ifs
  · exact ⟨rfl, rfl, rfl⟩
  · exact ⟨rfl, rfl, rfl⟩

theorem openedDb_congr {w' : World} (hsyncs : w'.syncs = w.syncs) (hdb : w'.db = w.db) :
    openedDb env t w' = openedDb env t w := by
  unfold openedDb
  rw [resyncs_congr hsyncs, hdb]

theorem Found.ready (hfound : Found w req t) (hfiles : w.FilesMinted) :
    Ready t.account.id t.folder.id w where
  account := by
    obtain ⟨haccount, -⟩ := hfound.isFor
    rw [haccount, hfound.account]
    rfl
  folder := ⟨t.folder, List.mem_of_find?_eq_some hfound.folder, rfl⟩
  files := hfiles

/-- The world in which the loop starts, as far as it stores mail. -/
def World.opened (env : Env) (t : Target) (w : World) : World := { w with db := openedDb env t w }

/-- One pass over messages that have no row yet. -/
def passOver (mail : MailCrate) (t : Target) (refs : List ThreadRef)
    (messages : List FetchedMessage) : SyncM Progress :=
  ingestAll mail t.account.id t.folder.id [] messages { refs, inserted := 0 }

variable (mail) in
/-- A call without faults stores what one pass over its new messages stores. -/
theorem paired_reconcile (hclean : env.Clean) (hresponds : env.Responds) (hfound : Found w req t)
    (hnodup : (((upcomingAnswers env t w).flatMap (·.messages)).map uidOf).Nodup) :
    Fallible.Paired (handle env) (handle env) SameStore (fun _ _ => True)
      (reconcileFolder mail req) w
      (passOver mail t (recentRefs env.clock (openedDb env t w) t.account.id) (arrivals env t w))
      (w.opened env t) := by
  refine Fallible.paired_left _ _ (Fallible.wp_mapError _ (Fallible.wp_mono _ (Fallible.wp_and _
    (wp_lookup_clean hclean hfound) (wp_lookup req w)) ?_))
  rintro r w₁ ⟨⟨rfl, hdb₁, hfiles₁⟩, hquiet₁, -⟩
  refine ⟨t, rfl, ?_⟩
  refine Fallible.paired_left _ _ (Fallible.wp_mapError _ (Fallible.wp_mono _ (Fallible.wp_and _
    (wp_openFolder_clean hclean hresponds w₁) (wp_openFolder t w₁)) ?_))
  rintro r w₂ ⟨⟨o, rfl, hdb₂, hfiles₂⟩, made, hopen'⟩
  refine ⟨o, rfl, ?_⟩
  have hopen := hopen'.of_quiet hquiet₁
  obtain ⟨hmade, -, -, -, rec, hlast, hanswer⟩ := hopen.done o rfl
  have hopened : w₂.db = openedDb env t w := hdb₂.trans (openedDb_congr hquiet₁.syncs hdb₁)
  have hknown := exec_quiet env (only_knownThreads (fun _ => rfl) (fun _ _ _ => rfl)
    (fun _ => rfl) t.account.id) w₂
  refine Fallible.paired_left _ _ (Fallible.wp_mapError _ (Fallible.wp_mono _ (Fallible.wp_and _
    (wp_knownThreads_clean hclean t.account.id w₂) (T := fun _ u => Quiet w₂ u) hknown) ?_))
  rintro r w₃ ⟨⟨rfl, hdb₃, hfiles₃⟩, hquiet₃⟩
  refine ⟨_, rfl, ?_⟩
  have hsyncs : w₃.syncs = w.syncs ++ opening env t w := by
    rw [hquiet₃.syncs, hopen.syncs, hmade]
  have hlen : w.syncs.length + (opening env t w).length = w₃.syncs.length := by
    rw [hsyncs, List.length_append]
  have hanswers : upcomingAnswers env t w =
      upcoming env.session drainFuel w₃.syncs.length o.server := by
    unfold upcomingAnswers
    rw [← hmade, hlast, Option.map_some, hanswer, hmade, hlen]
  have hdb₃' : w₃.db = openedDb env t w := hdb₃.trans hopened
  have hstart : SameStore w₃ (w.opened env t) := by
    refine ⟨?_, hfiles₃.trans (hfiles₂.trans hfiles₁)⟩
    rw [hdb₃']
    exact .refl _
  have hfuel : u32Max < rec.fromUid.toNat + drainFuel := by
    unfold drainFuel
    omega
  rw [hanswers] at hnodup
  unfold passOver arrivals
  rw [hanswers, hopened]
  refine Fallible.paired_after _ _ (paired_drain
    (fun uid => decide (Messages.UidTaken (openedDb env t w) t.folder.id uid)) hclean hresponds
    drainFuel o.server o.lastSeen hanswer hfuel hstart hnodup ?_) ?_
  · intro a _ m _
    rw [hdb₃', decide_eq_true_eq]
  · intro d q u u' _ hu
    refine Fallible.wp_mapError _ (Fallible.wp_mono _ (wp_finish_clean hclean o d u) ?_)
    rintro r v ⟨rep, rfl, hv⟩
    exact ⟨rep, rfl, trivial, hv.trans hu⟩

/-- A call without faults, from a state in which its rows exist. -/
theorem reconcile_clean (hclean : env.Clean) (hresponds : env.Responds) (hfound : Found w req t)
    (hfiles : w.FilesMinted)
    (hnodup : (((upcomingAnswers env t w).flatMap (·.messages)).map uidOf).Nodup)
    (hlimit : ∀ a ∈ upcomingAnswers env t w, ∀ m ∈ a.messages, WithinLimit mail m) :
    (∃ rep, (reconcile mail env req w).1 = .ok rep) ↔ Unclashed mail env t w := by
  have hready : Ready t.account.id t.folder.id (w.opened env t) := by
    have hready₀ := hfound.ready hfiles
    obtain ⟨haccounts, hfolders, hnext⟩ := openedDb_frame env t w
    refine ⟨?_, ?_, ?_⟩
    · have haccount := hready₀.account
      unfold Accounts.get at haccount ⊢
      rwa [show (w.opened env t).db.accounts = _ from haccounts]
    · rw [show (w.opened env t).db.folders = _ from hfolders]
      exact hready₀.folder
    · unfold World.FilesMinted
      rw [show (w.opened env t).db.nextId = _ from hnext]
      exact hfiles
  have hsublist : List.Sublist (arrivals env t w)
      ((upcomingAnswers env t w).flatMap (·.messages)) := List.filter_sublist
  have hunseen : unseen [] (arrivals env t w) = arrivals env t w :=
    List.filter_eq_self.mpr fun _ _ => rfl
  have hpass : Fallible.wp (handle env) (passOver mail t
      (recentRefs env.clock (openedDb env t w) t.account.id) (arrivals env t w)) (w.opened env t)
      (fun r _ => Decides (Unclashed mail env t w) r fun _ => True) := by
    refine Fallible.wp_mono _ (wp_ingestAll_clean hclean hready
      (tracks_start env.clock t.account.id (w.opened env t)) (hnodup.sublist (hsublist.map uidOf))
      ?_ ?_) ?_
    · intro m hm _
      have hnot := (List.mem_filter.mp hm).2
      rwa [Bool.not_eq_true', decide_eq_false_iff_not] at hnot
    · intro m hm
      obtain ⟨a, ha, hmem⟩ := List.mem_flatMap.mp (hsublist.subset hm)
      exact hlimit a ha m hmem
    · intro r u hdecides
      rw [hunseen] at hdecides
      exact ⟨fun hfree => (hdecides.1 hfree).imp fun _ h => ⟨h.1, trivial⟩, hdecides.2⟩
  obtain ⟨hends, -⟩ := paired_reconcile mail hclean hresponds hfound hnodup
  have hiff := hends.isOk_iff
  constructor
  · intro hok
    obtain ⟨q, hq⟩ := hiff.mp hok
    unfold Fallible.wp at hpass
    rw [hq] at hpass
    exact hpass.of_ok.1
  · intro hfree
    obtain ⟨q, hq, -⟩ := hpass.1 hfree
    exact hiff.mpr ⟨q, hq⟩

end Postblox.Sync
