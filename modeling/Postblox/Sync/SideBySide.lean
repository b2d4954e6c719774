import Postblox.Sync.Concurrent

/-!
# What one of several calls brings about

One call, whatever the others do between its statements: as long as its own
statements are undisturbed it ends well, and then every message that is due has its
row. The specifications follow the call from the lookup to the stored mark; each says
that the changes since were allowed, so that what was known before still holds.
-/
namespace Postblox.Sync

open Lib Db Imap Mail Attachments

/-! ## What stays true -/

theorem get_login (db : Database) (id : AccountId) :
    (Accounts.get db id).map Account.login =
      (db.accounts.map Account.login).find? fun l => l.1 = id := by
  unfold Accounts.get
  rw [List.find?_map]
  rfl

theorem getByName_place (db : Database) (account : AccountId) (name : String) :
    (Folders.getByName db account name).map Folder.place =
      (db.folders.map Folder.place).find? fun p => p.2.1 = account ∧ p.2.2 = name := by
  unfold Folders.getByName
  rw [List.find?_map]
  rfl

namespace Scene

variable {sc : Scene} {req : Request} {s t : World}

theorem Opens.of_allowed (h : sc.Opens req s) (hallowed : Allowed sc s t) : sc.Opens req t where
  account := h.account
  credential := h.credential
  login := by
    obtain ⟨row, hrow, port, hport⟩ := h.login
    have hsame := get_login t.db sc.account
    rw [hallowed.logins, ← get_login s.db, hrow] at hsame
    obtain ⟨row', hrow', hlogin⟩ := Option.map_eq_some_iff.mp hsame
    have hsamePort : row'.imapPort = row.imapPort := congrArg (·.2.2.2) hlogin
    refine ⟨row', hrow', port, ?_⟩
    rw [hsamePort]
    exact hport
  place := by
    obtain ⟨f, hf, hid⟩ := h.place
    have hsame := getByName_place t.db sc.account req.folderName
    rw [hallowed.places, ← getByName_place s.db, hf] at hsame
    obtain ⟨f', hf', hplace⟩ := Option.map_eq_some_iff.mp hsame
    exact ⟨f', hf', (congrArg (·.1) hplace).trans hid⟩

/-- The rows of the request are there, and the tables are sound. -/
structure Fit (sc : Scene) (req : Request) (w : World) : Prop where
  opens : sc.Opens req w
  sound : sc.Sound w

theorem Fit.of_allowed (h : sc.Fit req s) (hallowed : Allowed sc s t) : sc.Fit req t :=
  ⟨h.opens.of_allowed hallowed, hallowed.sound h.sound⟩

/-- What a call knows from the folder row it has read. -/
structure Knows (sc : Scene) (f : Folder) (w : World) : Prop where
  id : f.id = sc.folder
  fits : sc.Fits f
  reached : sc.Reached f.lastSeenUid
  covered : ∀ sm, sc.Due sm → (∃ m ∈ f.lastSeenUid, uidOf sm.fetched ≤ m) → sc.Stored w sm

theorem markOf_eq {w : World} {f : Folder} (hf : f ∈ w.db.folders) (hid : f.id = sc.folder) :
    w.markOf sc.folder = f.lastSeenUid := by
  unfold World.markOf
  cases hfind : w.db.folders.find? fun g => g.id = sc.folder with
  | none =>
    have hne := List.find?_eq_none.mp hfind f hf
    exact absurd (decide_eq_true hid) hne
  | some g =>
    have hfound := List.find?_some hfind
    have hg : g.id = sc.folder := of_decide_eq_true hfound
    obtain rfl : f = g := w.db.wf.folderIds.eq_of_key hf (List.mem_of_find?_eq_some hfind) rfl
      (congrArg some (hg.trans hid.symm))
    rfl

/-- The answer was given by a connection of the run. -/
def Answered (sc : Scene) (fromUid : UInt32) (server : FolderSync) : Prop :=
  ∃ n session, sc.since ≤ n ∧ (sc.mailbox n).Shown session ∧
    syncFolder session fromUid = .ok server

/-- The threads in the list have rows. -/
def Listed (refs : List ThreadRef) (w : World) : Prop :=
  ∀ r ∈ refs, ∃ th ∈ w.db.threads, th.id = r.threadId

theorem Listed.of_allowed {refs : List ThreadRef} (h : Listed refs s) (hallowed : Allowed sc s t) :
    Listed refs t := by
  intro r hr
  obtain ⟨th, hth, hid⟩ := h r hr
  obtain ⟨th', hth', hid'⟩ := hallowed.threads th hth
  exact ⟨th', hth', hid'.trans hid⟩

/-- The program under the changes of other calls. -/
abbrev runs (sc : Scene) (env : Env) {ε α : Type} (p : Fallible ε Cmd Reply α) (s : World)
    (Q : Except ε α → World → Prop) : Prop :=
  Fallible.under (handle env) sc.Undisturbed (Allowed sc) p s Q

section Rules

variable {env : Env} {ε α β : Type}

theorem runs_ask_bind (hclean : env.Clean) {c : Cmd} (hc : c.tame) {f : Reply c → Fallible ε Cmd Reply β}
    {Q : Except ε β → World → Prop}
    (h : ∀ t, Allowed sc s t → sc.Undisturbed c t →
      sc.runs env (f (handle env c t).1) (handle env c t).2 Q) :
    sc.runs env (perform c >>= f) s Q :=
  Fallible.under_ask_bind fun t ht hok => ⟨allowed_handle hclean hc t, h t ht hok⟩

/-- A command whose reply and effect are known in the state it meets. -/
theorem runs_reply_bind (hclean : env.Clean) {c : Cmd} (hc : c.tame)
    {f : Reply c → Fallible ε Cmd Reply β} {Q : Except ε β → World → Prop}
    (h : ∀ t, Allowed sc s t → sc.Undisturbed c t → ∃ reply u, handle env c t = (reply, u) ∧
      (Allowed sc s u → sc.runs env (f reply) u Q)) :
    sc.runs env (perform c >>= f) s Q := by
  refine Fallible.under_ask_bind fun t ht hok => ?_
  have hcommand : Allowed sc t (handle env c t).2 := allowed_handle hclean hc t
  obtain ⟨reply, u, heq, hrest⟩ := h t ht hok
  rw [heq] at hcommand ⊢
  exact ⟨hcommand, hrest (ht.trans hcommand)⟩

theorem runs_orNow_bind (hclean : env.Clean) {date : Option Int} {site : ClockSite}
    {f : Int → SyncM β} {Q : Except SyncError β → World → Prop}
    (h : ∀ t, Allowed sc s t → ∀ d, sc.runs env (f d) t Q) :
    sc.runs env (orNow date site >>= f) s Q := by
  cases date with
  | some d => exact h s (.refl s) d
  | none => exact runs_ask_bind hclean rfl fun t ht _ => h t ht (env.clock site)

end Rules

variable {env : Env} {target : Target}

/-! ## Opening the folder -/

theorem runs_lookup (hclean : env.Clean) (hfit : sc.Fit req s) :
    sc.runs env (lookup req) s (fun r u => ∃ target, r = .ok target ∧ Allowed sc s u ∧
      target.account.id = sc.account ∧ sc.Knows target.folder u) := by
  unfold lookup
  rw [if_neg (by rw [hfit.opens.credential]; exact Bool.false_ne_true)]
  refine runs_reply_bind hclean rfl fun t₁ ht₁ _ => ⟨_, _,
    query_clean hclean (Accounts.get · req.account) t₁, fun hu₁ => ?_⟩
  obtain ⟨row, hrow, port, hport⟩ := (hfit.of_allowed ht₁).opens.login
  rw [hfit.opens.account, hrow]
  refine runs_reply_bind hclean rfl fun t₂ ht₂ _ => ⟨_, _,
    query_clean hclean (Folders.getByName · sc.account req.folderName) t₂, fun hu₂ => ?_⟩
  have hfit₂ := hfit.of_allowed (hu₁.trans ht₂)
  obtain ⟨f, hf, hid⟩ := hfit₂.opens.place
  have hmem := List.mem_of_find?_eq_some hf
  rw [hf]
  show sc.runs env (SyncM.ofImap (portU16 row.imapPort) >>= _) t₂.tick _
  rw [hport]
  refine ⟨_, rfl, hu₁.trans hu₂, ?_, hid, hfit₂.sound.validity f hmem hid, ?_, ?_⟩
  · have hfound := List.find?_some hrow
    exact of_decide_eq_true hfound
  · rw [← markOf_eq hmem hid]
    exact hfit₂.sound.reached
  · intro sm hsm hbelow
    refine hfit₂.sound.covered sm hsm ?_
    rwa [markOf_eq hmem hid]

theorem runs_fetchFrom (hserves : sc.Serves env) (hsound : sc.Sound s) (fromUid : UInt32) :
    sc.runs env (fetchFrom target fromUid) s (fun r u => ∃ server, r = .ok server ∧
      Allowed sc s u ∧ sc.Answered fromUid server) := by
  refine runs_ask_bind hserves.clean rfl fun t ht _ => ?_
  have hshown := hserves.shown t.syncs.length
  obtain ⟨server, hserver⟩ := hshown.responds fromUid
  have hreply : (handle env (.syncFolder target.account.id target.account.imapHost target.port
      target.account.email target.credential target.folder.name fromUid) t).1 = .ok server := hserver
  rw [hreply]
  refine ⟨server, rfl, ht.trans (allowed_handle hserves.clean rfl t), t.syncs.length, _, ?_, hshown,
    hserver⟩
  exact (ht.sound hsound).since

theorem Answered.answer {fromUid : UInt32} {server : FolderSync} (h : sc.Answered fromUid server) :
    ∃ n, sc.since ≤ n ∧ (sc.mailbox n).Answer fromUid server := by
  obtain ⟨n, session, hn, hshown, hserver⟩ := h
  exact ⟨n, hn, hshown.truthful.answer hserver⟩

theorem runs_openFolder (hregular : sc.Regular) (hserves : sc.Serves env) (hsound : sc.Sound s)
    (hknows : sc.Knows target.folder s) :
    sc.runs env (openFolder target) s (fun r u => ∃ o, r = .ok o ∧ Allowed sc s u ∧
      o.lastSeen = target.folder.lastSeenUid ∧ sc.Answered (startUid target.folder) o.server) := by
  refine Fallible.under_bind_ok (Fallible.under_mono (runs_fetchFrom hserves hsound _) ?_)
  rintro r t ⟨server, rfl, ht, hanswered⟩
  refine ⟨server, rfl, ?_⟩
  obtain ⟨n, -, hanswer⟩ := hanswered.answer
  have hkeeps : needsFullResync target.folder server = false := by
    unfold needsFullResync
    rw [hanswer.validity, hregular.validity n]
    split
    · next v u hv hu => simpa using hknows.fits v hv u hu
    · rfl
  rw [if_neg (by rw [hkeeps]; exact Bool.false_ne_true)]
  exact ⟨_, rfl, ht, rfl, hanswered⟩

/-! ## The threads known at the start -/

theorem runs_threadRefs (hclean : env.Clean) (pairs : List (ThreadId × String)) (index : Nat)
    (threads : List Thread) (s : World) :
    sc.runs env (threadRefs pairs index threads) s (fun r u => ∃ refs, r = .ok refs ∧
      Allowed sc s u ∧ refs.map (·.threadId) = threads.map (·.id)) := by
  induction threads generalizing index s with
  | nil => exact ⟨[], rfl, .refl s, rfl⟩
  | cons th rest ih =>
    refine runs_orNow_bind hclean fun t ht d => ?_
    refine Fallible.under_bind_ok (Fallible.under_mono (ih (index + 1) t) ?_)
    rintro r u ⟨refs, rfl, hu, hids⟩
    refine ⟨refs, rfl, _, rfl, ht.trans hu, ?_⟩
    rw [List.map_cons, List.map_cons, hids]
    rfl

theorem runs_knownThreads (hclean : env.Clean) (account : AccountId) (s : World) :
    sc.runs env (knownThreads account) s (fun r u => ∃ refs, r = .ok refs ∧ Allowed sc s u ∧
      Listed refs u) := by
  refine runs_reply_bind hclean rfl fun t₁ _ _ => ⟨_, _,
    query_clean hclean (Threads.listRecent · account 200 0) t₁, fun htick => ?_⟩
  have hlisted : ∀ th ∈ Threads.listRecent t₁.db account 200 0, th ∈ t₁.tick.db.threads := by
    intro th hth
    have hsorted := List.mem_of_mem_drop (List.mem_of_mem_take hth)
    exact (List.mem_filter.mp ((List.perm_insertionSort _ _).mem_iff.mp hsorted)).1
  -- whatever ids are read, the threads are those listed before
  have hrest : ∀ pairs u, Allowed sc t₁.tick u →
      sc.runs env (threadRefs pairs 0 (Threads.listRecent t₁.db account 200 0)) u
        (fun r v => ∃ refs, r = .ok refs ∧ Allowed sc s v ∧ Listed refs v) := by
    intro pairs u hu
    refine Fallible.under_mono (runs_threadRefs hclean pairs 0 _ u) ?_
    rintro r v ⟨refs, rfl, hv, hids⟩
    refine ⟨refs, rfl, (htick.trans hu).trans hv, fun ref href => ?_⟩
    have hid : ref.threadId ∈ (Threads.listRecent t₁.db account 200 0).map (·.id) := by
      rw [← hids]
      exact List.mem_map_of_mem href
    obtain ⟨th, hth, heq⟩ := List.mem_map.mp hid
    obtain ⟨th', hth', hid'⟩ := (hu.trans hv).threads th (hlisted th hth)
    exact ⟨th', hth', hid'.trans heq⟩
  show sc.runs env (messageIdsByThreads ((Threads.listRecent t₁.db account 200 0).map (·.id)) >>=
    fun pairs => threadRefs pairs 0 _) t₁.tick _
  refine Fallible.under_bind_ok ?_
  unfold messageIdsByThreads
  split_ifs
  · exact ⟨_, rfl, hrest _ _ (.refl _)⟩
  · refine runs_reply_bind hclean rfl fun t₂ _ _ => ⟨_, _,
      query_clean hclean (Messages.messageIdsByThreads · _) t₂, fun hu => ?_⟩
    exact ⟨_, rfl, hrest _ _ hu⟩

/-! ## One message -/

variable {p : Progress} {m : FetchedMessage} {parsed : ParsedEmail}

theorem runs_threadFor (hclean : env.Clean) (hfit : sc.Fit req s) (hlisted : Listed p.refs s) :
    sc.runs env (threadFor sc.mail sc.account p m parsed) s (fun r u => ∃ found, r = .ok found ∧
      Allowed sc s u ∧ (∃ th ∈ u.db.threads, th.id = found.1) ∧ Listed found.2 u) := by
  refine runs_ask_bind hclean rfl fun t ht _ => ?_
  have hlisted' := hlisted.of_allowed ht
  cases hassign : assignThread sc.mail.caseMap
      (handle env (.now (.assignThread p.inserted)) t).1 parsed p.refs with
  | existing id =>
    obtain ⟨r, hr, rfl⟩ := assignThread_existing hassign
    exact ⟨_, rfl, ht, hlisted' r hr, hlisted'⟩
  | new =>
    refine runs_reply_bind hclean rfl fun t₁ ht₁ hfree => ?_
    obtain ⟨row, hrow, -⟩ := (hfit.of_allowed (ht.trans ht₁)).opens.login
    obtain ⟨db, hcreate, hthreads⟩ := Threads.create_of_free (env.dbClock t₁.db.nextId)
      parsed.subject hfree (by rw [hrow]; rfl)
    refine ⟨.ok _, t₁.wrote db, show update env (fun db => Threads.create db (env.dbClock db.nextId)
      sc.account parsed.messageId parsed.subject) t₁ = _ from update_clean hclean hcreate,
      fun hu₁ => runs_orNow_bind hclean fun u hu date => ?_⟩
    have hrow : Threads.newRow t₁.db (env.dbClock t₁.db.nextId) sc.account parsed.messageId
        parsed.subject ∈ (t₁.wrote db).db.threads := by
      show _ ∈ db.threads
      rw [hthreads]
      exact List.mem_append_right _ (List.mem_singleton.mpr rfl)
    have hmade := hu.threads _ hrow
    refine ⟨_, rfl, (ht.trans hu₁).trans hu, hmade, ?_⟩
    intro r hr
    rcases List.mem_append.mp hr with hold | hnew
    · exact (hlisted'.of_allowed (hu₁.trans hu)) r hold
    · rw [List.mem_singleton.mp hnew]
      exact hmade

theorem runs_persistFrom (hclean : env.Clean) (root : String) {message : MessageId}
    {attachments : List ParsedAttachment} (index : Nat)
    (hsize : ∀ a ∈ attachments, a.data.length ≤ maxAttachmentBytes)
    (hmessage : ∃ row ∈ s.db.messages, row.id = message) :
    sc.runs env (persistFrom root message index attachments) s (fun r u =>
      r = .ok () ∧ Allowed sc s u) := by
  induction attachments generalizing index s with
  | nil => exact ⟨rfl, .refl s⟩
  | cons attachment rest ih =>
    have hle := hsize attachment List.mem_cons_self
    refine Fallible.under_bind_ok ?_
    unfold persistOne
    rw [if_neg (by omega)]
    refine runs_reply_bind hclean rfl fun t₁ _ hfree => ⟨_, _, writeFile_clean hclean hfree,
      fun hu₁ => runs_reply_bind hclean rfl fun t₂ ht₂ _ => ?_⟩
    obtain ⟨row, hrow, hid⟩ := hmessage
    have hrow₂ := (hu₁.trans ht₂).messages row hrow
    have hcreate : ∃ made db, Db.Attachments.create t₂.db (newAttachment message
        (storedAttachmentPath root message index attachment.filename) attachment) =
          .ok (made, db) := by
      unfold Db.Attachments.create
      rw [if_neg]
      · exact ⟨_, _, rfl⟩
      · intro hall
        have hne := of_decide_eq_true (List.all_eq_true.mp hall row hrow₂)
        exact hne hid
    obtain ⟨made, db, hcreate⟩ := hcreate
    refine ⟨.ok made, t₂.wrote db, show update env (Db.Attachments.create · _) t₂ = _ from
      update_clean hclean hcreate, fun hu₂ => runs_reply_bind hclean rfl fun t₃ _ _ => ⟨.ok (), _,
        query_clean hclean (fun _ => ()) t₃, fun hu₃ => ⟨_, rfl, ?_⟩⟩⟩
    have hdone := (hu₁.trans hu₂).trans hu₃
    refine Fallible.under_mono (ih (index + 1) (fun a ha => hsize a (List.mem_cons_of_mem _ ha))
      ⟨row, hdone.messages row hrow, hid⟩) ?_
    rintro r u ⟨rfl, hu⟩
    exact ⟨rfl, hdone.trans hu⟩

theorem runs_persist (hclean : env.Clean) {message : MessageId}
    {attachments : List ParsedAttachment}
    (hsize : ∀ a ∈ attachments, a.data.length ≤ maxAttachmentBytes)
    (hmessage : ∃ row ∈ s.db.messages, row.id = message) :
    sc.runs env (persistParsedForMessage message attachments) s (fun r u =>
      r = .ok () ∧ Allowed sc s u) := by
  unfold persistParsedForMessage
  split_ifs
  · exact ⟨rfl, .refl s⟩
  · refine runs_reply_bind hclean rfl fun t _ _ => ⟨.ok env.attachmentRoot, _,
      query_clean hclean (fun _ => env.attachmentRoot) t, fun hu => ?_⟩
    obtain ⟨row, hrow, hid⟩ := hmessage
    refine Fallible.under_mono (runs_persistFrom hclean env.attachmentRoot 0 hsize
      ⟨row, hu.messages row hrow, hid⟩) ?_
    rintro r u ⟨rfl, hu'⟩
    exact ⟨rfl, hu.trans hu'⟩

/-- The row is inserted and stays. -/
theorem runs_storeMessage (hclean : env.Clean) (hfit : sc.Fit req s) {new : NewMessage}
    {attachments : List ParsedAttachment} (haccount : new.accountId = sc.account)
    (hfolder : new.folderId = sc.folder)
    (hthread : ∀ id, new.threadId = some id → ∃ th ∈ s.db.threads, th.id = id)
    (hsize : ∀ a ∈ attachments, a.data.length ≤ maxAttachmentBytes) :
    sc.runs env (storeMessage new attachments) s (fun r u => ∃ row, r = .ok row ∧
      Allowed sc s u ∧ Messages.UidTaken u.db sc.folder new.uid) := by
  refine runs_reply_bind hclean rfl fun t ht hfree => ?_
  have hfit' := hfit.of_allowed ht
  obtain ⟨row, hrow, -⟩ := hfit'.opens.login
  obtain ⟨f, hf, hid⟩ := hfit'.opens.place
  obtain ⟨made, db, hcreate, -, -, hmem⟩ := Messages.create_of_free hfree
    (by rw [haccount, hrow]; rfl) ⟨f, List.mem_of_find?_eq_some hf, hid.trans hfolder.symm⟩ (by
      intro id hid
      obtain ⟨th, hth, heq⟩ := hthread id hid
      obtain ⟨th', hth', heq'⟩ := ht.threads th hth
      exact ⟨th', hth', heq'.trans heq⟩)
  refine ⟨.ok made, t.inserted db made, insertMessage_clean hclean hcreate, fun hu => ?_⟩
  have hmade : made ∈ (t.inserted db made).db.messages := hmem
  show sc.runs env (Fallible.attempt (persistParsedForMessage made.id attachments) >>= _)
    (t.inserted db made) _
  refine Fallible.under_bind_ok (Fallible.under_attempt (Fallible.under_mono
    (runs_persist hclean hsize ⟨made, hmade, rfl⟩) ?_))
  rintro r u ⟨rfl, hu'⟩
  refine ⟨.ok (), rfl, made, rfl, hu.trans hu', made, hu'.messages made hmade, ?_, ?_⟩
  · rw [(Messages.create_ok hcreate).1]
    exact hfolder
  · rw [(Messages.create_ok hcreate).1]

theorem runs_ingestParsed (hclean : env.Clean) (hfit : sc.Fit req s) (hlisted : Listed p.refs s)
    (hsize : ∀ a ∈ parsed.attachments, a.data.length ≤ maxAttachmentBytes) :
    sc.runs env (ingestParsed sc.mail sc.account sc.folder p m parsed) s (fun r u =>
      ∃ q, r = .ok q ∧ Allowed sc s u ∧ Listed q.refs u ∧
        Messages.UidTaken u.db sc.folder (uidOf m)) := by
  refine Fallible.under_bind_ok (Fallible.under_mono (runs_threadFor hclean hfit hlisted) ?_)
  rintro r t ⟨⟨thread, refs⟩, rfl, ht, ⟨th, hth, hid⟩, hrefs⟩
  refine ⟨_, rfl, runs_orNow_bind hclean fun t₁ ht₁ date => ?_⟩
  have hdone := ht.trans ht₁
  refine Fallible.under_bind_ok (Fallible.under_mono (runs_storeMessage hclean
    (hfit.of_allowed hdone) rfl rfl ?_ hsize) ?_)
  · intro id heq
    obtain rfl := Option.some.inj heq
    obtain ⟨th', hth', hid'⟩ := ht₁.threads th hth
    exact ⟨th', hth', hid'.trans hid⟩
  rintro r t₂ ⟨row, rfl, ht₂, made, hmade, hkey⟩
  refine ⟨row, rfl, runs_orNow_bind hclean fun t₃ ht₃ time => ?_⟩
  refine runs_reply_bind hclean rfl fun t₄ _ _ => ⟨.ok (), _,
    show update env (fun db => .ok ((), Threads.touchLastMessageAt db thread time)) t₄ = _ from
      update_clean hclean rfl, fun hu₄ => ?_⟩
  refine runs_reply_bind hclean rfl fun t₅ _ _ => ⟨.ok (), _,
    show update env (fun db => .ok ((), Threads.refreshAggregates db thread)) t₅ = _ from
      update_clean hclean rfl, fun hu₅ => ?_⟩
  refine runs_reply_bind hclean rfl fun t₆ _ _ => ⟨(), _, rfl, fun hu₆ => ?_⟩
  have hrest := ((ht₃.trans hu₄).trans hu₅).trans hu₆
  refine ⟨_, rfl, (hdone.trans ht₂).trans hrest, ?_, made, hrest.messages made hmade, hkey⟩
  exact hrefs.of_allowed ((ht₁.trans ht₂).trans hrest)

/-! ## One answer -/

theorem runs_ingest (hclean : env.Clean) (hfit : sc.Fit req s) (hlisted : Listed p.refs s)
    (hlimit : WithinLimit sc.mail m) (already : List Int) :
    sc.runs env (ingest sc.mail sc.account sc.folder already p m) s (fun r u =>
      ∃ q, r = .ok q ∧ Allowed sc s u ∧ Listed q.refs u ∧
        (Ingestible sc.mail m → uidOf m ∉ already →
          Messages.UidTaken u.db sc.folder (uidOf m))) := by
  unfold ingest
  split_ifs with halready hraw
  · rw [List.contains_iff_mem] at halready
    exact ⟨p, rfl, .refl s, hlisted, fun _ hnot => absurd halready hnot⟩
  · exact ⟨p, rfl, .refl s, hlisted, fun hing => absurd hraw hing.1⟩
  · split
    · next hparse =>
      refine ⟨p, rfl, .refl s, hlisted, fun hing => ?_⟩
      have hsome := hing.2
      rw [hparse] at hsome
      exact absurd hsome Bool.false_ne_true
    · next parsed hparse =>
      have hparsed : parsedOf sc.mail m = some parsed := by
        unfold parsedOf
        rw [if_neg hraw]
        exact hparse
      refine Fallible.under_mono (runs_ingestParsed hclean hfit hlisted (hlimit parsed hparsed)) ?_
      rintro r u ⟨q, rfl, hu, hrefs, htaken⟩
      exact ⟨q, rfl, hu, hrefs, fun _ _ => htaken⟩

theorem runs_ingestAll (hclean : env.Clean) (hfit : sc.Fit req s) (hlisted : Listed p.refs s)
    (already : List Int) {messages : List FetchedMessage}
    (hlimit : ∀ m ∈ messages, WithinLimit sc.mail m) :
    sc.runs env (ingestAll sc.mail sc.account sc.folder already messages p) s (fun r u =>
      ∃ q, r = .ok q ∧ Allowed sc s u ∧ Listed q.refs u ∧
        ∀ m ∈ messages, Ingestible sc.mail m → uidOf m ∉ already →
          Messages.UidTaken u.db sc.folder (uidOf m)) := by
  induction messages generalizing p s with
  | nil => exact ⟨p, rfl, .refl s, hlisted, (fun _ h => nomatch h)⟩
  | cons first rest ih =>
    refine Fallible.under_bind_ok (Fallible.under_mono (runs_ingest hclean hfit hlisted
      (hlimit first List.mem_cons_self) already) ?_)
    rintro r t ⟨q, rfl, ht, hrefs, hfirst⟩
    refine ⟨q, rfl, Fallible.under_mono (ih (hfit.of_allowed ht) hrefs
      fun m hm => hlimit m (List.mem_cons_of_mem _ hm)) ?_⟩
    rintro r u ⟨q', rfl, hu, hrefs', hrest⟩
    refine ⟨q', rfl, ht.trans hu, hrefs', fun m hm hing hnot => ?_⟩
    rcases List.mem_cons.mp hm with rfl | hm
    · obtain ⟨row, hrow, hkey⟩ := hfirst hing hnot
      exact ⟨row, hu.messages row hrow, hkey⟩
    · exact hrest m hm hing hnot

/-- What is skipped has its row, and what is not gets one. -/
theorem runs_ingestAnswer (hclean : env.Clean) (hfit : sc.Fit req s) (hlisted : Listed p.refs s)
    (haccount : target.account.id = sc.account) (hfolder : target.folder.id = sc.folder)
    {server : FolderSync} (hlimit : ∀ m ∈ server.messages, WithinLimit sc.mail m) :
    sc.runs env (ingestAnswer sc.mail target server p) s (fun r u =>
      ∃ q, r = .ok q ∧ Allowed sc s u ∧ Listed q.refs u ∧
        ∀ m ∈ server.messages, Ingestible sc.mail m →
          Messages.UidTaken u.db sc.folder (uidOf m)) := by
  unfold ingestAnswer
  rw [haccount, hfolder]
  have hall : ∀ already t, Allowed sc s t →
      (∀ uid ∈ already, Messages.UidTaken t.db sc.folder uid) →
      sc.runs env (ingestAll sc.mail sc.account sc.folder already server.messages p) t
        (fun r u => ∃ q, r = .ok q ∧ Allowed sc s u ∧ Listed q.refs u ∧
          ∀ m ∈ server.messages, Ingestible sc.mail m →
            Messages.UidTaken u.db sc.folder (uidOf m)) := by
    intro already t ht hhave
    refine Fallible.under_mono (runs_ingestAll hclean (hfit.of_allowed ht)
      (hlisted.of_allowed ht) already hlimit) ?_
    rintro r u ⟨q, rfl, hu, hrefs, hnew⟩
    refine ⟨q, rfl, ht.trans hu, hrefs, fun m hm hing => ?_⟩
    by_cases hskip : uidOf m ∈ already
    · obtain ⟨row, hrow, hkey⟩ := hhave _ hskip
      exact ⟨row, hu.messages row hrow, hkey⟩
    · exact hnew m hm hing hskip
  refine Fallible.under_bind_ok ?_
  unfold existingUids
  split_ifs
  · exact ⟨[], rfl, hall [] s (.refl s) (fun _ h => nomatch h)⟩
  · refine runs_reply_bind hclean rfl fun t _ _ => ⟨_, _,
      query_clean hclean (Messages.existingUids · sc.folder _) t, fun hu => ?_⟩
    exact ⟨_, rfl, hall _ _ hu fun uid huid => (mem_existingUids.mp huid).1⟩

/-! ## The loop -/

/-- After the round of an answer every message that is due has its row, up to the end of
the window. -/
theorem Answered.covers {fromUid : UInt32} {server : FolderSync}
    (h : sc.Answered fromUid server) (hbelow : ∀ sm, sc.Due sm →
      sm.uid.toNat < fromUid.toNat → sc.Stored s sm) (hallowed : Allowed sc s t)
    (hround : ∀ m ∈ server.messages, Ingestible sc.mail m →
      Messages.UidTaken t.db sc.folder (uidOf m)) {sm : ServerMessage} (hdue : sc.Due sm)
    (hle : sm.uid.toNat ≤ server.windowHi.toNat) : sc.Stored t sm := by
  obtain ⟨n, hn, hanswer⟩ := h.answer
  by_cases hlt : sm.uid.toNat < fromUid.toNat
  · exact hallowed.stored (hbelow sm hdue hlt)
  · refine hround sm.fetched ?_ hdue.readable
    exact (hanswer.messages sm.fetched).mpr ⟨sm, hdue.stays n hn, rfl, by omega, hle⟩

/-- The last window reaches every message that is due. -/
theorem Answered.last (hregular : sc.Regular) {fromUid : UInt32} {server : FolderSync}
    (h : sc.Answered fromUid server) (hmore : server.hasMore = false) {sm : ServerMessage}
    (hdue : sc.Due sm) : sm.uid.toNat ≤ server.windowHi.toNat := by
  obtain ⟨n, hn, hanswer⟩ := h.answer
  obtain ⟨next, hnext⟩ := Option.isSome_iff_exists.mp (hregular.next n)
  have hend := hanswer.last next hnext hmore
  have hlt := UInt32.lt_iff_toNat_lt.mp ((sc.mailbox n).uids_lt next hnext sm (hdue.stays n hn))
  omega

/-- The next call starts right above a window with more to come. -/
theorem Answered.next {fromUid : UInt32} {server : FolderSync} (h : sc.Answered fromUid server)
    (hmore : server.hasMore = true) :
    (saturatingAdd server.windowHi 1).toNat = server.windowHi.toNat + 1 ∧
      fromUid.toNat ≤ server.windowHi.toNat := by
  obtain ⟨n, session, -, -, hserver⟩ := h
  have hanswer : SyncRecord.answer ⟨sc.account, "", fromUid, session⟩ = .ok server := hserver
  exact ⟨toNat_next hanswer hmore, (answer_hasMore hanswer hmore).1⟩

/-- The mark moves up with every answer. -/
theorem Reached.highWater (hregular : sc.Regular) {lastSeen : Option Int} (h : sc.Reached lastSeen)
    {fromUid : UInt32} {server : FolderSync} (hanswered : sc.Answered fromUid server) :
    ∃ mark, highWater lastSeen server = some mark ∧ sc.Reached (some mark) ∧
      (server.windowHi.toNat : Int) ≤ mark := by
  obtain ⟨mark, hmark⟩ := highWater_isSome lastSeen server []
  obtain ⟨horigin, habove, hraises⟩ := highWater_eq_some hmark
  obtain ⟨n, session, hn, hshown, hserver⟩ := hanswered
  refine ⟨mark, hmark, ⟨?_, ?_⟩, hraises _ (.inl rfl)⟩
  · intro first hfirst
    obtain ⟨m, hm, hle⟩ := h.risen first hfirst
    exact ⟨mark, rfl, hle.trans (habove m hm)⟩
  · intro hstill m hm
    obtain rfl := Option.some.inj hm
    rcases horigin with hlast | hraised
    · exact h.bounded hstill mark hlast
    · obtain ⟨next, hnext⟩ := Option.isSome_iff_exists.mp (hregular.next n)
      have hlastUid : sc.lastUid = next.toNat - 1 := by
        unfold lastUid
        rw [← hstill n hn, hnext]
        rfl
      have hhi := hshown.truthful.windowHi_le hserver hnext
      left
      rcases hraised with rfl | ⟨msg, hmsg, rfl⟩
      · omega
      · obtain ⟨sm, -, rfl, -, hle⟩ := ((hshown.truthful.answer hserver).messages msg).mp hmsg
        show (sm.uid.toNat : Int) ≤ _
        omega

theorem Answered.lastUid_le (hregular : sc.Regular) {fromUid : UInt32} {server : FolderSync}
    (h : sc.Answered fromUid server) (hmore : server.hasMore = false) (hstill : sc.Still) :
    sc.lastUid ≤ server.windowHi.toNat := by
  obtain ⟨n, hn, hanswer⟩ := h.answer
  obtain ⟨next, hnext⟩ := Option.isSome_iff_exists.mp (hregular.next n)
  have hend := hanswer.last next hnext hmore
  unfold lastUid
  rw [← hstill n hn, hnext, Option.getD_some]
  omega

/-- How the loop ends: with a mark to store, up to which everything that is due is there. -/
structure Ended (sc : Scene) (d : Drained) (w : World) : Prop where
  validity : d.server.uidValidity = sc.validity
  mark : ∃ mark, d.lastSeen = some mark ∧ sc.Reached (some mark) ∧ (sc.Still → sc.lastUid ≤ mark)
  stored : ∀ sm, sc.Due sm → sc.Stored w sm

theorem runs_drain (hregular : sc.Regular) (hserves : sc.Serves env) (hfit : sc.Fit req s)
    (haccount : target.account.id = sc.account) (hfolder : target.folder.id = sc.folder)
    (fuel : Nat) {fromUid : UInt32} {server : FolderSync} {lastSeen : Option Int}
    (hlisted : Listed p.refs s) (hanswered : sc.Answered fromUid server)
    (hbelow : ∀ sm, sc.Due sm → sm.uid.toNat < fromUid.toNat → sc.Stored s sm)
    (hreached : sc.Reached lastSeen) (hfuel : u32Max < fromUid.toNat + fuel) :
    sc.runs env (drain sc.mail target fuel server p lastSeen) s (fun r u => ∃ d, r = .ok d ∧
      Allowed sc s u ∧ sc.Ended d u) := by
  induction fuel generalizing s p fromUid server lastSeen with
  | zero =>
    have hlt := fromUid.toNat_lt
    have hmax : u32Max = 4294967295 := rfl
    omega
  | succ fuel ih =>
    obtain ⟨n, hn, hanswer⟩ := hanswered.answer
    have hlimit : ∀ m ∈ server.messages, WithinLimit sc.mail m := by
      intro m hm
      obtain ⟨sm, hsm, rfl, -, -⟩ := (hanswer.messages m).mp hm
      exact hregular.limit n sm hsm
    refine Fallible.under_mapError_bind (Fallible.under_mono (runs_ingestAnswer hserves.clean hfit
      hlisted haccount hfolder hlimit) ?_)
    rintro r t ⟨q, rfl, ht, hrefs, hround⟩
    have hcovers : ∀ sm, sc.Due sm → sm.uid.toNat ≤ server.windowHi.toNat → sc.Stored t sm :=
      fun sm hdue hle => hanswered.covers hbelow ht hround hdue hle
    obtain ⟨mark, hmark, hreached, hhi⟩ := hreached.highWater hregular hanswered
    refine ⟨q, rfl, ?_⟩
    by_cases hmore : server.hasMore = true
    · rw [if_pos hmore]
      refine Fallible.under_mapError_bind (Fallible.under_mono (runs_fetchFrom hserves
        (ht.sound hfit.sound) _) ?_)
      rintro r t' ⟨next, rfl, ht', hnext⟩
      obtain ⟨hsucc, hge⟩ := hanswered.next hmore
      refine ⟨next, rfl, Fallible.under_mono (ih (hfit.of_allowed (ht.trans ht'))
        (hrefs.of_allowed ht') hnext ?_ (hmark ▸ hreached) (by omega)) ?_⟩
      · intro sm hdue hlt
        exact ht'.stored (hcovers sm hdue (by omega))
      · rintro r u ⟨d, rfl, hu, hended⟩
        exact ⟨d, rfl, (ht.trans ht').trans hu, hended⟩
    · rw [if_neg hmore]
      have hlast := Bool.eq_false_iff.mpr hmore
      refine ⟨_, rfl, ht, hanswer.validity.trans (hregular.validity n), ⟨mark, hmark, hreached, ?_⟩,
        fun sm hdue => hcovers sm hdue (hanswered.last hregular hlast hdue)⟩
      intro hstill
      have hend := hanswered.lastUid_le hregular hlast hstill
      omega

/-! ## The whole call -/

theorem runs_finish (hclean : env.Clean) (hsound : sc.Sound s)
    (hfolder : target.folder.id = sc.folder) {o : Opened} {d : Drained} (hended : sc.Ended d s) :
    sc.runs env (finish target o d) s (fun r u => ∃ rep, r = .ok rep ∧ Allowed sc s u) := by
  refine Fallible.under_ask_bind fun t ht hok => ?_
  obtain ⟨mark, hmark, hreached, hlast⟩ := hended.mark
  rw [hfolder, hended.validity, hmark] at hok ⊢
  have hstores : handle env (.updateUidState sc.folder (widen sc.validity) (widen d.server.uidNext)
      (some mark)) t = (.ok (), t.wrote (Folders.updateUidState t.db sc.folder (widen sc.validity)
        (widen d.server.uidNext) (some mark))) := by
    show update env (fun db => .ok ((), Folders.updateUidState db sc.folder (widen sc.validity)
      (widen d.server.uidNext) (some mark))) t = _
    exact update_clean hclean rfl
  have hmarked := allowed_updateUidState (ht.sound hsound) (widen d.server.uidNext) hreached hlast
    hok fun sm hdue => ht.stored (hended.stored sm hdue)
  rw [hstores]
  refine ⟨hmarked, runs_ask_bind hclean rfl fun t₁ ht₁ _ => ?_⟩
  refine runs_reply_bind hclean rfl fun t₂ _ _ => ⟨.ok (), _,
    show update env (fun db => .ok ((), Accounts.updateSync db target.account.id .idle none
      (some (env.clock .synced)))) t₂ = _ from update_clean hclean rfl, fun hu₂ => ?_⟩
  have hdone := ((ht.trans hmarked).trans ht₁).trans hu₂
  show sc.runs env (if 0 < d.progress.inserted ∨ 0 < o.wiped ∨ o.resync then _ else _) _ _
  split_ifs
  · refine runs_ask_bind hclean rfl fun t₃ ht₃ _ => ⟨_, rfl, ?_⟩
    exact (hdone.trans ht₃).trans (allowed_handle hclean rfl t₃)
  · exact ⟨_, rfl, hdone⟩

/-- What lies below the first UID asked for is there. -/
theorem Knows.below {f : Folder} (h : sc.Knows f s) {sm : ServerMessage} (hdue : sc.Due sm)
    (hlt : sm.uid.toNat < (startUid f).toNat) : sc.Stored s sm := by
  have hpos := UInt32.lt_iff_toNat_lt.mp
    ((sc.mailbox sc.since).uids_pos sm (hdue.stays sc.since (Nat.le_refl _)))
  have hzero : (0 : UInt32).toNat = 0 := rfl
  rw [toNat_startUid] at hlt
  refine h.covered sm hdue ?_
  cases hmark : f.lastSeenUid with
  | none =>
    rw [hmark, Option.getD_none] at hlt
    omega
  | some mark =>
    rw [hmark, Option.getD_some] at hlt
    refine ⟨mark, rfl, ?_⟩
    show (sm.uid.toNat : Int) ≤ mark
    omega

/-- A call whose statements are undisturbed ends well, and then everything that is due is
there. -/
theorem runs_reconcileFolder (hregular : sc.Regular) (hserves : sc.Serves env)
    (hfit : sc.Fit req s) :
    sc.runs env (reconcileFolder sc.mail req) s (fun r u => (∃ rep, r = .ok rep) ∧
      ∀ sm, sc.Due sm → sc.Stored u sm) := by
  refine Fallible.under_mapError_bind (Fallible.under_mono (runs_lookup hserves.clean hfit) ?_)
  rintro r t₁ ⟨target, rfl, ht₁, haccount, hknows⟩
  have hfit₁ := hfit.of_allowed ht₁
  refine ⟨target, rfl, Fallible.under_mapError_bind (Fallible.under_mono (runs_openFolder hregular
    hserves hfit₁.sound hknows) ?_)⟩
  rintro r t₂ ⟨o, rfl, ht₂, hlastSeen, hanswered⟩
  refine ⟨o, rfl, Fallible.under_mapError_bind (Fallible.under_mono (runs_knownThreads
    hserves.clean target.account.id t₂) ?_)⟩
  rintro r t₃ ⟨refs, rfl, ht₃, hlisted⟩
  have hstart := one_le_startUid target.folder
  have hfuel : u32Max < (startUid target.folder).toNat + drainFuel := by
    unfold drainFuel
    omega
  refine ⟨refs, rfl, Fallible.under_bind_ok (Fallible.under_mono (runs_drain hregular hserves
    (hfit₁.of_allowed (ht₂.trans ht₃)) haccount hknows.id drainFuel hlisted hanswered
    (fun sm hdue hlt => (ht₂.trans ht₃).stored (hknows.below hdue hlt))
    (hlastSeen ▸ hknows.reached) hfuel) ?_)⟩
  rintro r t₄ ⟨d, rfl, ht₄, hended⟩
  refine ⟨d, rfl, Fallible.under_mapError (Fallible.under_mono (runs_finish hserves.clean
    (hfit₁.of_allowed ((ht₂.trans ht₃).trans ht₄)).sound hknows.id hended) ?_)⟩
  rintro r u ⟨rep, rfl, hu⟩
  exact ⟨rep, rfl, ⟨rep, rfl⟩, fun sm hdue => hu.stored (hended.stored sm hdue)⟩

end Scene

end Postblox.Sync
