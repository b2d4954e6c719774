import Postblox.Sync.Files

/-!
# Statements that do not fail

Without faults a statement does what the rows decide. A message whose UID is free
is stored together with its attachments, since its id is fresh and no file lies
below it.
-/
namespace Postblox.Sync

open Lib Db Imap Mail Attachments

/-- No statement and no file write fails of its own. -/
def Env.Clean (env : Env) : Prop := ∀ n, env.fault n = none

variable {env : Env} {mail : MailCrate} {account : AccountId} {folder : FolderId} {w : World}

section Statements

variable {α β : Type}

theorem query_clean (hclean : env.Clean) (read : Database → α) (w : World) :
    query env read w = (.ok (read w.db), w.tick) :=
  statement_clean (hclean w.ops)

theorem update_clean (hclean : env.Clean) {write : Database → Except DbError (α × Database)}
    {w : World} {a : α} {db : Database} (hwrite : write w.db = .ok (a, db)) :
    update env write w = (.ok a, w.wrote db) := by
  have hdef : update env write w = _ := statement_clean (hclean w.ops)
  rw [hdef]
  simp only [World.tick, hwrite, Except.map]
  rfl

theorem update_refused (hclean : env.Clean) {write : Database → Except DbError (α × Database)}
    {w : World} {e : DbError} (hwrite : write w.db = .error e) :
    update env write w = (.error e, w.tick) := by
  have hdef : update env write w = _ := statement_clean (hclean w.ops)
  rw [hdef]
  simp only [World.tick, hwrite, Except.map]

theorem insertMessage_clean (hclean : env.Clean) {new : NewMessage} {w : World} {row : Message}
    {db : Database} (hcreate : Messages.create w.db new = .ok (row, db)) :
    insertMessage env new w = (.ok row, w.inserted db row) := by
  have hdef : insertMessage env new w = _ := statement_clean (hclean w.ops)
  rw [hdef]
  simp only [World.tick, hcreate, Except.map]
  rfl

theorem insertMessage_refused (hclean : env.Clean) {new : NewMessage} {w : World} {e : DbError}
    (hcreate : Messages.create w.db new = .error e) :
    insertMessage env new w = (.error e, w.tick) := by
  have hdef : insertMessage env new w = _ := statement_clean (hclean w.ops)
  rw [hdef]
  simp only [World.tick, hcreate, Except.map]

theorem writeFile_clean (hclean : env.Clean) {path : StoredPath} {w : World}
    (hfree : path ∉ w.files) :
    writeFile env path w = (.ok (), { w.tick with files := w.files ++ [path] }) := by
  have hdef : writeFile env path w = _ := statement_clean (hclean w.ops)
  rw [hdef]
  split_ifs with htaken
  · exact absurd htaken hfree
  · rfl

theorem writeFile_refused (hclean : env.Clean) {path : StoredPath} {w : World}
    (htaken : path ∈ w.files) : writeFile env path w = (.error .alreadyExists, w.tick) := by
  have hdef : writeFile env path w = _ := statement_clean (hclean w.ops)
  rw [hdef, if_pos (show path ∈ w.tick.files from htaken)]

/-- A query, then the rest of the program. -/
theorem wp_clean_query (hclean : env.Clean) {read : Database → α} {f : α → SyncM β} {w : World}
    {Q : Except SyncError β → World → Prop}
    (h : Fallible.wp (handle env) (f (read w.db)) w.tick Q) :
    Fallible.wp (handle env) (SyncM.ofDb (query env read w).1 >>= f) (query env read w).2 Q := by
  rw [query_clean hclean]
  exact h

/-- A write that the schema admits, then the rest of the program. -/
theorem wp_clean_update (hclean : env.Clean) {write : Database → Except DbError (α × Database)}
    {f : α → SyncM β} {w : World} {a : α} {db : Database} (hwrite : write w.db = .ok (a, db))
    {Q : Except SyncError β → World → Prop}
    (h : Fallible.wp (handle env) (f a) (w.wrote db) Q) :
    Fallible.wp (handle env) (SyncM.ofDb (update env write w).1 >>= f) (update env write w).2 Q := by
  rw [update_clean hclean hwrite]
  exact h

end Statements

theorem exec_orNow (date : Option Int) (site : ClockSite) (w : World) :
    Fallible.exec (handle env) (orNow date site) w = (.ok (date.getD (env.clock site)), w) := by
  cases date with
  | some d => rfl
  | none => rfl

theorem wp_orNow_bind {α : Type} {date : Option Int} {site : ClockSite} {f : Int → SyncM α}
    {Q : Except SyncError α → World → Prop}
    (h : Fallible.wp (handle env) (f (date.getD (env.clock site))) w Q) :
    Fallible.wp (handle env) (orNow date site >>= f) w Q := by
  cases date with
  | some d => exact h
  | none => exact h

/-! ## Attachments -/

/-- The files of the message so far carry lower numbers. -/
def Numbered (root : String) (message : MessageId) (index : Nat) (w : World) : Prop :=
  ∀ p ∈ w.files, p.messageId = message →
    ∃ j filename, j < index ∧ p = storedAttachmentPath root message j filename

theorem wp_persistFrom_clean (hclean : env.Clean) {root : String} {message : MessageId}
    {attachments : List ParsedAttachment} (index : Nat) (w : World)
    (hsize : ∀ a ∈ attachments, a.data.length ≤ maxAttachmentBytes)
    (hmessage : ∃ m ∈ w.db.messages, m.id = message) (hfiles : Numbered root message index w) :
    Fallible.wp (handle env) (persistFrom root message index attachments) w (fun r u =>
      r = .ok () ∧ u.db.threads = w.db.threads) := by
  induction attachments generalizing index w with
  | nil => exact ⟨rfl, rfl⟩
  | cons attachment rest ih =>
    have hle := hsize attachment List.mem_cons_self
    have hfree : storedAttachmentPath root message index attachment.filename ∉ w.files := by
      intro hmem
      obtain ⟨j, filename, hlt, heq⟩ := hfiles _ hmem rfl
      have hsame := storedAttachmentPath_inj heq
      omega
    have hcreate : ∃ row db, Db.Attachments.create w.db (newAttachment message
        (storedAttachmentPath root message index attachment.filename) attachment) = .ok (row, db) ∧
        db.messages = w.db.messages ∧ db.threads = w.db.threads := by
      unfold Db.Attachments.create
      rw [if_neg]
      · exact ⟨_, _, rfl, rfl, rfl⟩
      · obtain ⟨m, hm, hid⟩ := hmessage
        intro hall
        have hne := List.all_eq_true.mp hall m hm
        simp only [ne_eq, decide_not, Bool.not_eq_true', decide_eq_false_iff_not] at hne
        exact hne hid
    obtain ⟨row, db, hcreate, hmessages, hthreads⟩ := hcreate
    refine Fallible.wp_bind _ ?_
    unfold persistOne
    rw [if_neg (by omega)]
    refine Fallible.wp_ask_bind _ ?_
    show Fallible.wp (handle env) (Persist.ofIo (writeFile env _ w).1 >>= _) (writeFile env _ w).2 _
    rw [writeFile_clean hclean hfree]
    refine Fallible.wp_ask_bind _ ?_
    show Fallible.wp (handle env) (Persist.ofDb (update env _ _).1 >>= _) (update env _ _).2 _
    rw [update_clean hclean hcreate]
    refine Fallible.wp_ask_bind _ ?_
    show Fallible.wp (handle env) (Persist.ofDb (query env _ _).1) (query env _ _).2 _
    rw [query_clean hclean]
    refine ⟨?_, fun e h => nomatch h⟩
    intro _ _
    refine Fallible.wp_mono _ (ih (index + 1) _ (fun a ha => hsize a (List.mem_cons_of_mem _ ha))
      ?_ ?_) ?_
    · obtain ⟨m, hm, hid⟩ := hmessage
      refine ⟨m, ?_, hid⟩
      show m ∈ db.messages
      rwa [hmessages]
    · intro p hp hid
      rcases List.mem_append.mp hp with hold | hnew
      · obtain ⟨j, filename, hlt, heq⟩ := hfiles p hold hid
        exact ⟨j, filename, by omega, heq⟩
      · exact ⟨index, attachment.filename, Nat.lt_succ_self _, List.mem_singleton.mp hnew⟩
    · intro r u ⟨hr, hu⟩
      exact ⟨hr, hu.trans hthreads⟩

theorem wp_persist_clean (hclean : env.Clean) {message : MessageId}
    {attachments : List ParsedAttachment} (w : World)
    (hsize : ∀ a ∈ attachments, a.data.length ≤ maxAttachmentBytes)
    (hmessage : ∃ m ∈ w.db.messages, m.id = message)
    (hfiles : ∀ p ∈ w.files, p.messageId ≠ message) :
    Fallible.wp (handle env) (persistParsedForMessage message attachments) w (fun r u =>
      r = .ok () ∧ u.db.threads = w.db.threads) := by
  unfold persistParsedForMessage
  split_ifs
  · exact ⟨rfl, rfl⟩
  · refine Fallible.wp_ask_bind _ ?_
    show Fallible.wp (handle env) (Persist.ofDb (query env _ w).1 >>= _) (query env _ w).2 _
    rw [query_clean hclean]
    exact wp_persistFrom_clean hclean 0 w.tick hsize hmessage
      fun p hp hid => absurd hid (hfiles p hp)

/-! ## One message -/

/-- The account and the folder are there, and no file is in the way of a new message. -/
structure Ready (account : AccountId) (folder : FolderId) (w : World) : Prop where
  account : (Accounts.get w.db account).isSome
  folder : ∃ f ∈ w.db.folders, f.id = folder
  files : w.FilesMinted

theorem Ready.of_grows {u : World} {rows : List Message} (h : Ready account folder w)
    (hgrows : Grows w u rows) (hminted : Minted w u) : Ready account folder u where
  account := by
    have haccount := h.account
    unfold Accounts.get at haccount ⊢
    rwa [hgrows.accounts]
  folder := by
    rw [hgrows.folders]
    exact h.folder
  files := h.files.of_minted hminted

theorem Messages.create_of_free {db : Database} {new : NewMessage}
    (hfree : ¬ Messages.UidTaken db new.folderId new.uid)
    (haccount : (Accounts.get db new.accountId).isSome)
    (hfolder : ∃ f ∈ db.folders, f.id = new.folderId)
    (hthread : ∀ id, new.threadId = some id → ∃ th ∈ db.threads, th.id = id) :
    ∃ row db', Messages.create db new = .ok (row, db') ∧ row.id = db.nextId ∧
      db'.threads = db.threads ∧ row ∈ db'.messages := by
  unfold Messages.create
  rw [dif_neg hfree, if_neg]
  · exact ⟨_, _, rfl, rfl, rfl, List.mem_append_right _ (List.mem_singleton.mpr rfl)⟩
  · rintro (hnone | hmissing | hany)
    · rw [Option.isNone_iff_eq_none] at hnone
      rw [hnone] at haccount
      exact absurd haccount Bool.false_ne_true
    · obtain ⟨f, hf, hid⟩ := hfolder
      exact hmissing f hf hid
    · obtain ⟨id, hid, hall⟩ := Option.any_eq_true _ _ |>.mp hany
      obtain ⟨th, hth, heq⟩ := hthread id hid
      exact of_decide_eq_true hall th hth heq

theorem wp_storeMessage_clean (hclean : env.Clean) (new : NewMessage)
    {attachments : List ParsedAttachment} {w : World} (hready : Ready new.accountId new.folderId w)
    (hfree : ¬ Messages.UidTaken w.db new.folderId new.uid)
    (hthread : ∀ id, new.threadId = some id → ∃ th ∈ w.db.threads, th.id = id)
    (hsize : ∀ a ∈ attachments, a.data.length ≤ maxAttachmentBytes) :
    Fallible.wp (handle env) (storeMessage new attachments) w (fun r u =>
      (∃ row, r = .ok row) ∧ u.db.threads = w.db.threads) := by
  obtain ⟨row, db, hcreate, hid, hthreads, hmem⟩ :=
    Messages.create_of_free hfree hready.account hready.folder hthread
  refine Fallible.wp_ask_bind _ ?_
  show Fallible.wp (handle env) (SyncM.ofDb (insertMessage env new w).1 >>= _)
    (insertMessage env new w).2 _
  rw [insertMessage_clean hclean hcreate]
  have hfiles : ∀ p ∈ (w.inserted db row).files, p.messageId ≠ row.id := by
    intro p hp
    rw [hid]
    exact (hready.files p hp).ne
  refine wp_ofDb_bind (fun a ha => ?_) (fun e he => nomatch he)
  obtain rfl : row = a := Except.ok.inj ha
  refine Fallible.wp_bind _ (Fallible.wp_attempt _ (Fallible.wp_mono _
    (wp_persist_clean hclean (w.inserted db row) hsize ⟨row, hmem, rfl⟩ hfiles) ?_))
  intro r u ⟨hr, hu⟩
  refine ⟨?_, fun _ h => nomatch h⟩
  intro outcome houtcome
  obtain rfl : r = outcome := Except.ok.inj houtcome
  rw [hr]
  exact ⟨⟨row, rfl⟩, hu.trans hthreads⟩

end Postblox.Sync
