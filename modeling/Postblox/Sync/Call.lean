import Postblox.Sync.Drain

/-!
# One call of `reconcile_folder`

Every call, under every environment, ends in one of three ways (`Outcome`): it is
refused before the first IMAP call, it stops while the folder is opened, or it
reaches the drain loop. In the last case the folder row keeps its UID state
unless the loop came to its end, and then it takes the state of the last answer.
-/
namespace Postblox.Sync

open Lib Db Imap Mail Attachments

variable {env : Env} {mail : MailCrate} {t : Target} {req : Request}

/-! ## Looking up the rows -/

/-- The rows that a request names. -/
structure Found (w : World) (req : Request) (t : Target) : Prop where
  account : Accounts.get w.db req.account = some t.account
  folder : Folders.getByName w.db req.account req.folderName = some t.folder
  port : portU16 t.account.imapPort = .ok t.port
  credential : t.credential = req.credential
  present : req.credential.isEmpty = false

theorem wp_ofImap_bind {α β : Type} {x : Except ImapError α} {f : α → SyncM β} {w : World}
    {Q : Except SyncError β → World → Prop}
    (hok : ∀ a, x = .ok a → Fallible.wp (handle env) (f a) w Q)
    (herror : ∀ e, x = .error e → Q (.error (.imap e)) w) :
    Fallible.wp (handle env) (SyncM.ofImap x >>= f) w Q := by
  cases x with
  | ok a => exact hok a rfl
  | error e => exact herror e rfl

/-- A query, then the rest of the program: it fails, or it reads the database. -/
theorem wp_query_bind {α β : Type} {read : Database → α} {f : α → SyncM β} {w : World}
    {Q : Except SyncError β → World → Prop}
    (hok : Fallible.wp (handle env) (f (read w.db)) w.tick Q)
    (herror : ∀ e, Q (.error (.db e)) w.tick) :
    Fallible.wp (handle env) (SyncM.ofDb (query env read w).1 >>= f) (query env read w).2 Q := by
  rcases query_cases env read w with ⟨e, heq⟩ | heq
  · rw [heq]
    exact herror e
  · rw [heq]
    exact hok

/-- A write, then the rest of the program: no effect, its effect with an error, or
its effect and the program goes on. -/
theorem wp_update_bind {α β : Type} {write : Database → Except DbError (α × Database)}
    {f : α → SyncM β} {w : World} {Q : Except SyncError β → World → Prop}
    (hnone : ∀ e, Q (.error (.db e)) w.tick)
    (herror : ∀ a db, write w.db = .ok (a, db) → ∀ e, Q (.error (.db e)) (w.wrote db))
    (hok : ∀ a db, write w.db = .ok (a, db) →
      Fallible.wp (handle env) (f a) (w.wrote db) Q) :
    Fallible.wp (handle env) (SyncM.ofDb (update env write w).1 >>= f) (update env write w).2 Q := by
  rcases update_cases env write w with ⟨e, heq, -⟩ | ⟨a, db, hwrite, heq | heq⟩
  · rw [heq]
    exact hnone e
  · rw [heq]
    exact hok a db hwrite
  · rw [heq]
    exact herror a db hwrite _

theorem wp_lookup (req : Request) (w : World) :
    Fallible.wp (handle env) (lookup req) w (fun r u =>
      Quiet w u ∧ ∀ t, r = .ok t → Found w req t) := by
  unfold lookup
  split_ifs with hempty
  · exact ⟨Quiet.refl w, fun _ h => nomatch h⟩
  · have htick : Quiet w w.tick := Quiet.tick w
    have htick2 : Quiet w w.tick.tick := htick.trans (Quiet.tick _)
    refine Fallible.wp_ask_bind _ (wp_query_bind ?_ (fun e => ⟨htick, fun _ h => nomatch h⟩))
    cases haccount : Accounts.get w.db req.account with
    | none => exact ⟨htick, fun _ h => nomatch h⟩
    | some account =>
      refine Fallible.wp_ask_bind _ (wp_query_bind ?_ (fun e => ⟨htick2, fun _ h => nomatch h⟩))
      cases hfolder : Folders.getByName w.tick.db req.account req.folderName with
      | none => exact ⟨htick2, fun _ h => nomatch h⟩
      | some folder =>
        refine wp_ofImap_bind (fun port hport => ?_) (fun e _ => ⟨htick2, fun _ h => nomatch h⟩)
        refine ⟨htick2, ?_⟩
        intro t ht
        obtain rfl := Except.ok.inj ht
        exact ⟨haccount, hfolder, hport, rfl, eq_false_of_ne_true hempty⟩

/-! ## Opening the folder -/

/-- The first call: from the UID after the mark. -/
def firstCall (env : Env) (t : Target) (w : World) : SyncRecord :=
  callFor env t w (startUid t.folder)

/-- The call after a wipe: from UID 1, on the next connection. -/
def secondCall (env : Env) (t : Target) (w : World) : SyncRecord where
  account := t.account.id
  folder := t.folder.name
  fromUid := 1
  session := env.session (w.syncs.length + 1)

/-- The first answer reports another validity than the stored one. -/
def resyncs (env : Env) (t : Target) (w : World) : Bool :=
  match (firstCall env t w).answer with
  | .ok server => needsFullResync t.folder server
  | .error _ => false

/-- The calls it takes to open the folder. -/
def opening (env : Env) (t : Target) (w : World) : List SyncRecord :=
  if resyncs env t w then [firstCall env t w, secondCall env t w] else [firstCall env t w]

/-- The message rows left after opening the folder. -/
def survivors (env : Env) (t : Target) (w : World) : List Message :=
  if resyncs env t w then w.db.messages.filter fun m => !decide (m.folderId = t.folder.id)
  else w.db.messages

/-- The mark the loop starts from. -/
def startMark (env : Env) (t : Target) (w : World) : Option Int :=
  if resyncs env t w then none else t.folder.lastSeenUid

/-- How opening the folder leaves the world; `made` are the calls it came to. -/
structure OpenPost (env : Env) (t : Target) (w : World) (r : Except SyncError Opened) (u : World)
    (made : List SyncRecord) : Prop where
  syncs : u.syncs = w.syncs ++ made
  calls : made <+: opening env t w
  messages : u.db.messages = w.db.messages ∨ u.db.messages = survivors env t w
  folders : u.db.folders = w.db.folders
  accounts : u.db.accounts = w.db.accounts
  origins : u.origins = w.origins
  done : ∀ o, r = .ok o → made = opening env t w ∧ u.db.messages = survivors env t w ∧
    o.lastSeen = startMark env t w ∧ (∃ server, (firstCall env t w).answer = .ok server) ∧
    ∃ rec, made.getLast? = some rec ∧ rec.answer = .ok o.server

theorem opening_eq (env : Env) (t : Target) (w : World) :
    ∃ rest, opening env t w = firstCall env t w :: rest := by
  unfold opening
  split_ifs
  · exact ⟨_, rfl⟩
  · exact ⟨_, rfl⟩

/-- Opening stops right after the first call. -/
theorem OpenPost.first {w u : World} {r : Except SyncError Opened}
    (hquiet : Quiet (w.called (firstCall env t w)) u) (hr : ∀ o, r ≠ .ok o) :
    OpenPost env t w r u [firstCall env t w] where
  syncs := hquiet.syncs
  calls := by
    obtain ⟨rest, hrest⟩ := opening_eq env t w
    rw [hrest]
    exact ⟨rest, rfl⟩
  messages := .inl hquiet.messages
  folders := hquiet.folders
  accounts := hquiet.accounts
  origins := hquiet.origins
  done := fun o ho => absurd ho (hr o)

/-- Opening reaches the wipe; it may go on with the second call. -/
theorem wp_afterWipe {w : World} (hresync : resyncs env t w = true) (wiped : Nat)
    {server : FolderSync} (hserver : (firstCall env t w).answer = .ok server) {u : World}
    (hsyncs : u.syncs = w.syncs ++ [firstCall env t w])
    (hmessages : u.db.messages = survivors env t w) (hfolders : u.db.folders = w.db.folders)
    (haccounts : u.db.accounts = w.db.accounts) (horigins : u.origins = w.origins) :
    Fallible.wp (handle env) (do
        let server ← fetchFrom t 1
        return { server, resync := true, wiped, lastSeen := none } : SyncM Opened) u
      (fun r v => OpenPost env t w r v (opening env t w)) := by
  have hopening : opening env t w = [firstCall env t w, secondCall env t w] := if_pos hresync
  have hcall : callFor env t u 1 = secondCall env t w := by
    unfold callFor secondCall
    rw [hsyncs, List.length_append, List.length_singleton]
  have hcalled : (u.called (secondCall env t w)).syncs = w.syncs ++ opening env t w := by
    show u.syncs ++ [secondCall env t w] = _
    rw [hsyncs, hopening, List.append_assoc]
    rfl
  refine Fallible.wp_bind _ (wp_fetchFrom ?_ ?_)
  · rw [hcall]
    intro next hnext
    refine ⟨?_, fun _ h => nomatch h⟩
    intro next' heq
    obtain rfl : next = next' := Except.ok.inj heq
    refine ⟨hcalled, List.prefix_rfl, .inr hmessages, hfolders, haccounts, horigins, ?_⟩
    intro o ho
    obtain rfl := Except.ok.inj ho
    refine ⟨rfl, hmessages, (if_pos hresync).symm, ⟨server, hserver⟩, secondCall env t w, ?_, hnext⟩
    rw [hopening]
    rfl
  · rw [hcall]
    intro e _
    refine ⟨(fun _ h => nomatch h), fun e' _ => ?_⟩
    exact ⟨hcalled, List.prefix_rfl, .inr hmessages, hfolders, haccounts, horigins,
      fun _ h => nomatch h⟩

theorem deleteAllInFolder_eq {db db' : Database} {folder : FolderId} {wiped : Nat}
    (h : Messages.deleteAllInFolder db folder = (wiped, db')) :
    db'.messages = db.messages.filter (fun m => !decide (m.folderId = folder)) ∧
      db'.folders = db.folders ∧ db'.accounts = db.accounts := by
  cases h
  exact ⟨rfl, rfl, rfl⟩

theorem wp_openFolder (t : Target) (w : World) :
    Fallible.wp (handle env) (openFolder t) w (fun r u => ∃ made, OpenPost env t w r u made) := by
  refine Fallible.wp_bind _ (wp_fetchFrom ?_ ?_)
  · intro server hserver
    refine ⟨?_, fun _ h => nomatch h⟩
    intro server' heq
    obtain rfl : server = server' := Except.ok.inj heq
    have hresyncs : resyncs env t w = needsFullResync t.folder server := by
      unfold resyncs firstCall
      rw [hserver]
    split_ifs with hneeds
    · -- another validity: wipe, then fetch from UID 1
      have htrue : resyncs env t w = true := hresyncs.trans hneeds
      have hsurvivors : survivors env t w =
          w.db.messages.filter fun m => !decide (m.folderId = t.folder.id) := if_pos htrue
      refine Fallible.wp_ask_bind _ (wp_update_bind ?_ ?_ ?_)
      · exact fun e => ⟨_, .first (Quiet.tick _) (fun o h => nomatch h)⟩
      · -- wiped, but the statement reported an error
        intro wiped db hwipe e
        obtain ⟨hmessages, hfolders, haccounts⟩ := deleteAllInFolder_eq (Except.ok.inj hwipe)
        obtain ⟨rest, hrest⟩ := opening_eq env t w
        refine ⟨[firstCall env t w], rfl, ?_, .inr (hmessages.trans hsurvivors.symm), hfolders,
          haccounts, rfl, fun _ h => nomatch h⟩
        rw [hrest]
        exact ⟨rest, rfl⟩
      · intro wiped db hwipe
        obtain ⟨hmessages, hfolders, haccounts⟩ := deleteAllInFolder_eq (Except.ok.inj hwipe)
        exact Fallible.wp_mono _ (wp_afterWipe htrue wiped hserver rfl
          (hmessages.trans hsurvivors.symm) hfolders haccounts rfl) (fun r v hpost => ⟨_, hpost⟩)
    · have hfalse : resyncs env t w = false := hresyncs.trans (eq_false_of_ne_true hneeds)
      have hopening : opening env t w = [firstCall env t w] :=
        if_neg (hfalse ▸ Bool.false_ne_true)
      have hsurvivors : survivors env t w = w.db.messages := if_neg (hfalse ▸ Bool.false_ne_true)
      have hmark : startMark env t w = t.folder.lastSeenUid :=
        if_neg (hfalse ▸ Bool.false_ne_true)
      refine ⟨[firstCall env t w], rfl, ?_, .inl rfl, rfl, rfl, rfl, ?_⟩
      · exact hopening ▸ List.prefix_rfl
      · intro o ho
        obtain rfl := Except.ok.inj ho
        exact ⟨hopening.symm, hsurvivors.symm, hmark.symm, ⟨server, hserver⟩, _, rfl, hserver⟩
  · intro e he
    exact ⟨(fun _ h => nomatch h), fun e' _ => ⟨_, .first (Quiet.refl _) (fun o h => nomatch h)⟩⟩

/-! ## Storing the UID state -/

/-- The columns that no sync changes. -/
def Account.login (a : Account) : AccountId × String × String × Int :=
  (a.id, a.email, a.imapHost, a.imapPort)

/-- The folder row after an answer was stored with a mark. -/
def stamp (last : FolderSync) (mark : Option Int) (f : Folder) : Folder :=
  { f with uidValidity := (widen last.uidValidity).orElse fun _ => f.uidValidity
           uidNext := (widen last.uidNext).orElse fun _ => f.uidNext
           lastSeenUid := mark.orElse fun _ => f.lastSeenUid }

/-- The folders after that. -/
def stamped (id : FolderId) (last : FolderSync) (mark : Option Int) (folders : List Folder) :
    List Folder :=
  updateWhere (fun f => f.id = id) (stamp last mark) folders

theorem wp_recordSync (t : Target) (o : Opened) (d : Drained) (v : World) :
    Fallible.wp (handle env) (recordSync t o d) v (fun _ u =>
      u.db.messages = v.db.messages ∧ u.syncs = v.syncs ∧ u.origins = v.origins ∧
        u.db.folders = v.db.folders ∧
        u.db.accounts.map Account.login = v.db.accounts.map Account.login) := by
  have hlogins : (Accounts.updateSync v.db t.account.id .idle none
      (some (env.clock .synced))).accounts.map Account.login = v.db.accounts.map Account.login := by
    refine map_updateWhere ?_ v.db.accounts
    exact fun _ => rfl
  refine Fallible.wp_ask_bind _ (Fallible.wp_ask_bind _ (wp_update_bind ?_ ?_ ?_))
  · exact fun e => ⟨rfl, rfl, rfl, rfl, rfl⟩
  · intro a db hsync e
    obtain ⟨rfl, rfl⟩ := Prod.mk.inj (Except.ok.inj hsync)
    exact ⟨rfl, rfl, rfl, rfl, hlogins⟩
  · intro a db hsync
    obtain ⟨rfl, rfl⟩ := Prod.mk.inj (Except.ok.inj hsync)
    split_ifs
    · exact Fallible.wp_ask_bind _ ⟨rfl, rfl, rfl, rfl, hlogins⟩
    · exact ⟨rfl, rfl, rfl, rfl, hlogins⟩

structure FinishPost (t : Target) (d : Drained) (v : World)
    (r : Except SyncError ReconcileReport) (u : World) : Prop where
  messages : u.db.messages = v.db.messages
  syncs : u.syncs = v.syncs
  origins : u.origins = v.origins
  logins : u.db.accounts.map Account.login = v.db.accounts.map Account.login
  folders : (u.db.folders = v.db.folders ∧ ∃ e, r = .error e) ∨
    u.db.folders = stamped t.folder.id d.server d.lastSeen v.db.folders

theorem wp_finish (t : Target) (o : Opened) (d : Drained) (v : World) :
    Fallible.wp (handle env) (finish t o d) v (FinishPost t d v) := by
  refine Fallible.wp_ask_bind _ (wp_update_bind ?_ ?_ ?_)
  · exact fun e => ⟨rfl, rfl, rfl, rfl, .inl ⟨rfl, _, rfl⟩⟩
  · intro a db hstate e
    obtain ⟨rfl, rfl⟩ := Prod.mk.inj (Except.ok.inj hstate)
    exact ⟨rfl, rfl, rfl, rfl, .inr rfl⟩
  · intro a db hstate
    obtain ⟨rfl, rfl⟩ := Prod.mk.inj (Except.ok.inj hstate)
    refine Fallible.wp_mono _ (wp_recordSync t o d _) ?_
    intro r u ⟨hmessages, hsyncs, horigins, hfolders, hlogins⟩
    exact ⟨hmessages, hsyncs, horigins, hlogins, .inr hfolders⟩

/-! ## The whole call -/

/-- The mark after the answers were worked off. -/
def markAfter (env : Env) (t : Target) (w : World) (server : FolderSync)
    (recs : List SyncRecord) : Option Int :=
  (answers server recs).foldl highWater (startMark env t w)

/-- The loop came to its end with the answer `last`, and the UID state is stored. -/
structure Completed (mail : MailCrate) (env : Env) (t : Target) (w : World) (server : FolderSync)
    (recs : List SyncRecord) (u : World) (last : FolderSync) : Prop where
  folders : u.db.folders =
    stamped t.folder.id last (markAfter env t w server recs) w.db.folders
  isLast : (answers server recs).getLast? = some last
  ended : last.hasMore = false
  answered : ∀ rec ∈ recs, ∃ a, rec.answer = .ok a
  stored : ∀ a ∈ answers server recs, ∀ m ∈ a.messages, Ingestible mail m →
    Messages.UidTaken u.db t.folder.id (uidOf m)

/-- A call that reached the loop: it starts from `server`, makes the calls `recs`
and appends `rows`. -/
structure Drains (mail : MailCrate) (env : Env) (t : Target) (w : World) (server : FolderSync)
    (recs : List SyncRecord) (rows : List Message) (r : Except Stop ReconcileReport) (u : World) :
    Prop where
  first : ∃ a, (firstCall env t w).answer = .ok a
  opened : ∃ rec, (opening env t w).getLast? = some rec ∧ rec.answer = .ok server
  syncs : u.syncs = w.syncs ++ (opening env t w ++ recs)
  chained : Chained env t.account.id t.folder.name
    (w.syncs.length + (opening env t w).length) server recs
  messages : u.db.messages = survivors env t w ++ rows
  logins : u.db.accounts.map Account.login = w.db.accounts.map Account.login
  origins : ∀ o ∈ w.origins, o ∈ u.origins
  fetched : ∀ row ∈ rows, ∃ a ∈ answers server recs, ∃ m ∈ a.messages,
    RowOf mail t.account.id t.folder.id m row ∧
      ∃ rec, (row.id, some rec) ∈ u.origins ∧ rec.answer = .ok a
  state : (u.db.folders = w.db.folders ∧ ∃ e, r = .error (.error e)) ∨
    ∃ last, Completed mail env t w server recs u last

/-- The three ways a call can end. -/
inductive Outcome (mail : MailCrate) (env : Env) (req : Request) (w : World) :
    Except Stop ReconcileReport → World → Prop
  /-- Nothing was asked of the server. -/
  | refused {e : SyncError} {u : World} (quiet : Quiet w u) :
      Outcome mail env req w (.error (.error e)) u
  /-- The folder could not be opened; its rows may be wiped. -/
  | unopened {t : Target} {e : SyncError} {u : World} {made : List SyncRecord}
      (found : Found w req t) (syncs : u.syncs = w.syncs ++ made)
      (calls : made <+: opening env t w)
      (messages : u.db.messages = w.db.messages ∨ u.db.messages = survivors env t w)
      (folders : u.db.folders = w.db.folders) (accounts : u.db.accounts = w.db.accounts)
      (origins : u.origins = w.origins) : Outcome mail env req w (.error (.error e)) u
  | drains {t : Target} {server : FolderSync} {recs : List SyncRecord} {rows : List Message}
      {r : Except Stop ReconcileReport} {u : World} (found : Found w req t)
      (drains : Drains mail env t w server recs rows r u) (fuel : r ≠ .error .fuel) :
      Outcome mail env req w r u

theorem firstCall_congr {w w' : World} (h : w'.syncs = w.syncs) :
    firstCall env t w' = firstCall env t w := by
  unfold firstCall callFor
  rw [h]

theorem resyncs_congr {w w' : World} (h : w'.syncs = w.syncs) :
    resyncs env t w' = resyncs env t w := by
  unfold resyncs
  rw [firstCall_congr h]

theorem opening_congr {w w' : World} (h : w'.syncs = w.syncs) :
    opening env t w' = opening env t w := by
  unfold opening secondCall
  rw [resyncs_congr h, firstCall_congr h, h]

theorem survivors_congr {w w' : World} (h : w'.syncs = w.syncs)
    (hmessages : w'.db.messages = w.db.messages) : survivors env t w' = survivors env t w := by
  unfold survivors
  rw [resyncs_congr h, hmessages]

theorem startMark_congr {w w' : World} (h : w'.syncs = w.syncs) :
    startMark env t w' = startMark env t w := by
  unfold startMark
  rw [resyncs_congr h]

/-- What opening does is the same after a quiet start. -/
theorem OpenPost.of_quiet {w w' u : World} {r : Except SyncError Opened} {made : List SyncRecord}
    (hquiet : Quiet w w') (h : OpenPost env t w' r u made) : OpenPost env t w r u made := by
  obtain ⟨hsyncs, hcalls, hmessages, hfolders, haccounts, horigins, hdone⟩ := h
  rw [opening_congr hquiet.syncs] at hcalls
  rw [survivors_congr hquiet.syncs hquiet.messages, hquiet.messages] at hmessages
  rw [opening_congr hquiet.syncs, survivors_congr hquiet.syncs hquiet.messages,
    startMark_congr hquiet.syncs, firstCall_congr hquiet.syncs] at hdone
  exact ⟨by rw [hsyncs, hquiet.syncs], hcalls, hmessages, hfolders.trans hquiet.folders,
    haccounts.trans hquiet.accounts, horigins.trans hquiet.origins, hdone⟩

/-- Quiet statements after opening change nothing of it. -/
theorem OpenPost.trans_quiet {w u v : World} {r : Except SyncError Opened}
    {made : List SyncRecord} (h : OpenPost env t w r u made) (hquiet : Quiet u v) :
    OpenPost env t w r v made := by
  obtain ⟨hsyncs, hcalls, hmessages, hfolders, haccounts, horigins, hdone⟩ := h
  rw [← hquiet.messages] at hmessages hdone
  exact ⟨hquiet.syncs.trans hsyncs, hcalls, hmessages, hquiet.folders.trans hfolders,
    hquiet.accounts.trans haccounts, hquiet.origins.trans horigins, hdone⟩

/-- The loop and what follows it, from the world in which the folder was opened. -/
theorem wp_drainAndFinish {w v : World} {o : Opened} {p : Progress} {made : List SyncRecord}
    (hopen : OpenPost env t w (.ok o) v made) :
    Fallible.wp (handle env) (do
        let d ← drain mail t drainFuel o.server p o.lastSeen
        (finish t o d).lift) v (fun r u =>
      ∃ recs rows, Drains mail env t w o.server recs rows r u ∧ r ≠ .error .fuel) := by
  obtain ⟨rfl, hmessages, hmark, hfirst, rec, hlast, hanswer⟩ := hopen.done o rfl
  have hlast' : v.syncs.getLast? = some rec := by
    rw [hopen.syncs, List.getLast?_append, hlast]
    rfl
  have hfuel : u32Max < rec.fromUid.toNat + drainFuel := by
    unfold drainFuel
    omega
  refine Fallible.wp_bind _ (Fallible.wp_mono _
    (wp_drain drainFuel o.server p o.lastSeen v hlast' hanswer hfuel) ?_)
  intro r u ⟨recs, rows, hpost⟩
  have hchained := hpost.chained
  rw [hopen.syncs, List.length_append] at hchained
  have hsyncs : u.syncs = w.syncs ++ (opening env t w ++ recs) := by
    rw [hpost.syncs, hopen.syncs, List.append_assoc]
  have hrows : u.db.messages = survivors env t w ++ rows := by
    rw [hpost.messages, hmessages]
  have hlogins : u.db.accounts.map Account.login = w.db.accounts.map Account.login := by
    rw [hpost.accounts, hopen.accounts]
  have horigins : ∀ x ∈ w.origins, x ∈ u.origins := by
    intro x hx
    rw [← hopen.origins] at hx
    exact hpost.origins x hx
  have hfolders : u.db.folders = w.db.folders := hpost.folders.trans hopen.folders
  constructor
  · intro d hd
    obtain ⟨hmark', hserver, hended, hanswered, hstored⟩ := hpost.done d hd
    rw [hmark] at hmark'
    refine Fallible.wp_mapError _ (Fallible.wp_mono _ (wp_finish t o d u) ?_)
    intro r' x hfinish
    refine ⟨recs, rows, ⟨hfirst, ⟨rec, hlast, hanswer⟩, hfinish.syncs.trans hsyncs, hchained,
      hfinish.messages.trans hrows, hfinish.logins.trans hlogins, ?_, ?_, ?_⟩, ?_⟩
    · rw [hfinish.origins]
      exact horigins
    · rw [hfinish.origins]
      exact hpost.fetched
    · rcases hfinish.folders with ⟨hsame, e, he⟩ | hstamped
      · left
        rw [he]
        exact ⟨hsame.trans hfolders, e, rfl⟩
      · right
        refine ⟨d.server, ⟨?_, hserver, hended, hanswered, ?_⟩⟩
        · rw [hstamped, hmark', hfolders]
          rfl
        · intro a ha m hm hing
          obtain ⟨row, hrow, hkey⟩ := hstored a ha m hm hing
          refine ⟨row, ?_, hkey⟩
          rw [hfinish.messages]
          exact hrow
    · cases r' with
      | ok rep => exact fun h => nomatch h
      | error e => exact fun h => nomatch h
  · intro e he
    cases e with
    | error e =>
      exact ⟨recs, rows, ⟨hfirst, ⟨rec, hlast, hanswer⟩, hsyncs, hchained, hrows, hlogins,
        horigins, hpost.fetched, .inl ⟨hfolders, e, rfl⟩⟩, fun h => nomatch h⟩
    | fuel => exact absurd he hpost.fuel

theorem reconcile_outcome (mail : MailCrate) (env : Env) (req : Request) (w : World) :
    Outcome mail env req w (reconcile mail env req w).1 (reconcile mail env req w).2 := by
  suffices h : Fallible.wp (handle env) (reconcileFolder mail req) w (Outcome mail env req w) from h
  refine Fallible.wp_mapError_bind _ (Fallible.wp_mono _ (wp_lookup req w) ?_)
  intro r w₁ ⟨hquiet, hlookup⟩
  refine ⟨?_, fun e _ => .refused hquiet⟩
  intro t ht
  have hfound := hlookup t ht
  refine Fallible.wp_mapError_bind _ (Fallible.wp_mono _ (wp_openFolder t w₁) ?_)
  intro r₂ w₂ ⟨made, hopen'⟩
  have hopen := hopen'.of_quiet hquiet
  constructor
  · intro o ho
    rw [ho] at hopen
    have hknown := exec_quiet env (only_knownThreads (fun _ => rfl)
      (fun _ _ _ => rfl) (fun _ => rfl) t.account.id) w₂
    have hopen₃ := hopen.trans_quiet hknown
    refine Fallible.wp_mapError_bind _ ⟨?_, ?_⟩
    · intro refs _
      refine Fallible.wp_mono _ (wp_drainAndFinish hopen₃) ?_
      intro r u ⟨recs, rows, hdrains, hfuel⟩
      exact .drains hfound hdrains hfuel
    · intro e _
      exact .unopened hfound hopen₃.syncs hopen₃.calls hopen₃.messages hopen₃.folders
        hopen₃.accounts hopen₃.origins
  · intro e _
    exact .unopened hfound hopen.syncs hopen.calls hopen.messages hopen.folders
      hopen.accounts hopen.origins

end Postblox.Sync
