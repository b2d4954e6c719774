import Postblox.Sync.Effects

/-!
# What ingesting messages does to the message table

Whatever fails on the way, ingesting only appends rows, each of them built from
one of the messages at hand, and it makes no IMAP call. When it ends well, every
message that was not there yet and could be read has its row.
-/
namespace Postblox.Sync

open Lib Db Imap Mail Attachments

variable {env : Env} {mail : MailCrate} {account : AccountId} {folder : FolderId}

/-- The message has a body and the parser can read it. -/
def Ingestible (mail : MailCrate) (m : FetchedMessage) : Prop :=
  m.raw ≠ [] ∧ (mail.parse m.raw).isSome

instance (mail : MailCrate) (m : FetchedMessage) : Decidable (Ingestible mail m) :=
  inferInstanceAs (Decidable (_ ∧ _))

/-- The row holds the content of the fetched message. -/
def RowOf (mail : MailCrate) (account : AccountId) (folder : FolderId) (m : FetchedMessage)
    (row : Message) : Prop :=
  m.raw ≠ [] ∧ ∃ parsed thread date, mail.parse m.raw = some parsed ∧
    row.toNewMessage = buildMessageRow account folder thread m parsed date

theorem RowOf.uid {m : FetchedMessage} {row : Message} (h : RowOf mail account folder m row) :
    row.uid = uidOf m := by
  obtain ⟨-, parsed, thread, date, -, hrow⟩ := h
  rw [hrow]
  rfl

theorem RowOf.folderId {m : FetchedMessage} {row : Message}
    (h : RowOf mail account folder m row) : row.folderId = folder := by
  obtain ⟨-, parsed, thread, date, -, hrow⟩ := h
  rw [hrow]
  rfl

/-- The ids are those of the row. -/
theorem RowOf.own {m : FetchedMessage} {row : Message} (h : RowOf mail account folder m row) :
    RowOf mail row.accountId row.folderId m row := by
  obtain ⟨hraw, parsed, thread, date, hparse, hrow⟩ := h
  refine ⟨hraw, parsed, thread, date, hparse, ?_⟩
  rw [hrow]
  rfl

theorem RowOf.ingestible {m : FetchedMessage} {row : Message}
    (h : RowOf mail account folder m row) : Ingestible mail m := by
  obtain ⟨hraw, parsed, thread, date, hparse, -⟩ := h
  exact ⟨hraw, by rw [hparse]; rfl⟩

/-- `rows` were appended to the message table, all of them fetched by the latest
IMAP call; folders, accounts and the IMAP history are as before. -/
structure Grows (w t : World) (rows : List Message) : Prop where
  messages : t.db.messages = w.db.messages ++ rows
  folders : t.db.folders = w.db.folders
  accounts : t.db.accounts = w.db.accounts
  syncs : t.syncs = w.syncs
  origins : ∀ o ∈ w.origins, o ∈ t.origins
  fetched : ∀ row ∈ rows, (row.id, w.syncs.getLast?) ∈ t.origins

namespace Grows

variable {w t u : World} {rows rows' : List Message}

theorem of_quiet (h : Quiet w t) : Grows w t [] where
  messages := by rw [h.messages, List.append_nil]
  folders := h.folders
  accounts := h.accounts
  syncs := h.syncs
  origins := by
    rw [h.origins]
    exact fun _ ho => ho
  fetched := fun _ hrow => nomatch hrow

theorem trans (h : Grows w t rows) (h' : Grows t u rows') : Grows w u (rows ++ rows') where
  messages := by rw [h'.messages, h.messages, List.append_assoc]
  folders := h'.folders.trans h.folders
  accounts := h'.accounts.trans h.accounts
  syncs := h'.syncs.trans h.syncs
  origins := fun o ho => h'.origins o (h.origins o ho)
  fetched := by
    intro row hrow
    rcases List.mem_append.mp hrow with hfirst | hsecond
    · exact h'.origins _ (h.fetched row hfirst)
    · rw [← h.syncs]
      exact h'.fetched row hsecond

theorem trans_quiet (h : Grows w t rows) (h' : Quiet t u) : Grows w u rows := by
  have hgrows := h.trans (of_quiet h')
  rwa [List.append_nil] at hgrows

end Grows

theorem Messages.create_ok {db db' : Database} {new : NewMessage} {row : Message}
    (h : Messages.create db new = .ok (row, db')) :
    row = { new with id := db.nextId } ∧ db'.messages = db.messages ++ [row] ∧
      db'.folders = db.folders ∧ db'.accounts = db.accounts := by
  unfold Messages.create at h
  split_ifs at h
  cases h
  exact ⟨rfl, rfl, rfl, rfl⟩

/-- A row that was just appended is the only one a delete by its id removes. -/
theorem filter_fresh {db : Database} {row : Message} (hid : row.id = db.nextId) :
    (db.messages ++ [row]).filter (fun m => !decide (m.id = row.id)) = db.messages := by
  rw [List.filter_append, List.filter_eq_self.mpr, List.filter_eq_nil_iff.mpr, List.append_nil]
  · intro m hm
    rw [List.mem_singleton.mp hm]
    simp
  · intro m hm
    have hlt : m.id < db.nextId := db.wf.messagesMinted m hm
    have hne : m.id ≠ row.id := by
      rw [hid]
      exact hlt.ne
    simp [hne]

/-- Peel a statement off a program: it had no effect and the program stops, or
it had its effect and the program stops or goes on. -/
theorem wp_ofDb_bind {α β : Type} {x : Except DbError α} {f : α → SyncM β} {w : World}
    {Q : Except SyncError β → World → Prop}
    (hok : ∀ a, x = .ok a → Fallible.wp (handle env) (f a) w Q)
    (herror : ∀ e, x = .error e → Q (.error (.db e)) w) :
    Fallible.wp (handle env) (SyncM.ofDb x >>= f) w Q := by
  cases x with
  | ok a => exact hok a rfl
  | error e => exact herror e rfl

theorem grows_insert {w : World} {db : Database} {new : NewMessage} {row : Message}
    (hcreate : Messages.create w.db new = .ok (row, db)) : Grows w (w.inserted db row) [row] := by
  obtain ⟨-, hmessages, hfolders, haccounts⟩ := Messages.create_ok hcreate
  refine ⟨hmessages, hfolders, haccounts, rfl, ?_, ?_⟩
  · exact fun o ho => List.mem_append_left _ ho
  · intro r hr
    rw [List.mem_singleton.mp hr]
    exact List.mem_append_right _ (List.mem_singleton.mpr rfl)

variable (env) in
/-- The rollback of a failed message: the row stays, or the table is as before. -/
theorem grows_rollback {w u : World} {db : Database} {new : NewMessage} {row : Message}
    (hcreate : Messages.create w.db new = .ok (row, db)) (hu : Quiet (w.inserted db row) u) :
    Grows w (handle env (.deleteMessage row.id) u).2 [row] ∨
      Grows w (handle env (.deleteMessage row.id) u).2 [] := by
  have hgrows := (grows_insert hcreate).trans_quiet hu
  have hhandle : handle env (.deleteMessage row.id) u =
      update env (fun db => .ok (Messages.delete db row.id)) u := rfl
  obtain ⟨hrow, -, -, -⟩ := Messages.create_ok hcreate
  have hgone : Grows w (u.wrote (Messages.delete u.db row.id).2) [] := by
    refine ⟨?_, hgrows.folders, hgrows.accounts, hgrows.syncs, hgrows.origins,
      fun _ h => nomatch h⟩
    have hid : row.id = w.db.nextId := by rw [hrow]
    show u.db.messages.filter (fun m => !decide (m.id = row.id)) = _
    rw [hgrows.messages, filter_fresh hid, List.append_nil]
  rw [hhandle]
  rcases update_cases env (fun db => .ok (Messages.delete db row.id)) u with
    ⟨e, heq, -⟩ | ⟨a, db', hdelete, heq | heq⟩
  · left
    rw [heq]
    exact hgrows.trans_quiet (Quiet.tick u)
  · right
    rw [Except.ok.inj hdelete] at hgone
    rw [heq]
    exact hgone
  · right
    rw [Except.ok.inj hdelete] at hgone
    rw [heq]
    exact hgone

/-- What `storeMessage` may leave behind: nothing, or its one row. -/
theorem wp_storeMessage (new : NewMessage) (attachments : List ParsedAttachment) (w : World) :
    Fallible.wp (handle env) (storeMessage new attachments) w (fun r t =>
      ∃ rows, Grows w t rows ∧ (∀ row ∈ rows, row.toNewMessage = new) ∧
        ∀ row, r = .ok row → rows = [row]) := by
  refine Fallible.wp_ask_bind _ ?_
  show Fallible.wp (handle env) (SyncM.ofDb (insertMessage env new w).1 >>= _)
    (insertMessage env new w).2 _
  rcases insertMessage_cases env new w with
    ⟨e, heq⟩ | ⟨row, db, hcreate, heq | heq⟩
  · rw [heq]
    refine wp_ofDb_bind (fun a ha => nomatch ha) (fun e _ => ?_)
    exact ⟨[], .of_quiet (Quiet.tick w), by simp, by simp⟩
  · rw [heq]
    have hnew : ∀ r ∈ [row], r.toNewMessage = new := by
      intro r hr
      rw [List.mem_singleton.mp hr, (Messages.create_ok hcreate).1]
    refine wp_ofDb_bind (fun a ha => ?_) (fun e he => nomatch he)
    obtain rfl : row = a := Except.ok.inj ha
    refine Fallible.wp_bind _ (Fallible.wp_attempt _ ?_)
    have hpersist : OnlyQuiet (persistParsedForMessage row.id attachments) :=
      only_persist (P := fun c => c.quiet = true) (fun _ _ => rfl) rfl (fun _ => rfl)
        (fun _ => rfl) attachments
    have hquiet := exec_quiet env hpersist (w.inserted db row)
    refine ⟨?_, fun e he => nomatch he⟩
    intro outcome _
    cases outcome with
    | ok _ =>
      refine ⟨[row], (grows_insert hcreate).trans_quiet hquiet, hnew, ?_⟩
      intro r hr
      rw [Except.ok.inj hr]
    | error e =>
      refine Fallible.wp_ask_bind _ ?_
      rcases grows_rollback env hcreate hquiet with hgrows | hgrows
      · exact ⟨[row], hgrows, hnew, fun _ h => nomatch h⟩
      · exact ⟨[], hgrows, by simp, fun _ h => nomatch h⟩
  · rw [heq]
    refine ⟨[row], grows_insert hcreate, ?_, fun _ h => nomatch h⟩
    intro r hr
    rw [List.mem_singleton.mp hr, (Messages.create_ok hcreate).1]

/-- One readable message: its row is appended, or nothing. -/
theorem wp_ingestParsed {parsed : ParsedEmail} {fetched : FetchedMessage}
    (hraw : fetched.raw ≠ []) (hparse : mail.parse fetched.raw = some parsed) (p : Progress)
    (w : World) :
    Fallible.wp (handle env) (ingestParsed mail account folder p fetched parsed) w (fun r t =>
      ∃ rows, Grows w t rows ∧ (∀ row ∈ rows, RowOf mail account folder fetched row) ∧
        ∀ q, r = .ok q → rows ≠ []) := by
  have hnone : ∀ {t : World} {r : Except SyncError Progress}, Quiet w t → (∀ q, r ≠ .ok q) →
      ∃ rows, Grows w t rows ∧ (∀ row ∈ rows, RowOf mail account folder fetched row) ∧
        ∀ q, r = .ok q → rows ≠ [] :=
    fun hquiet hr => ⟨[], .of_quiet hquiet, by simp, fun q hq => absurd hq (hr q)⟩
  refine wp_quiet_bind (only_threadFor (fun _ => rfl) (fun _ _ _ => rfl) mail account p fetched parsed) ?_
    (fun e t hquiet => hnone hquiet (fun q hq => nomatch hq))
  intro found t ht
  refine wp_quiet_bind (only_orNow (fun _ => rfl) _ _) ?_
    (fun e u hquiet => hnone (ht.trans hquiet) (fun q hq => nomatch hq))
  intro date u hu
  refine Fallible.wp_bind _ (Fallible.wp_mono _ (wp_storeMessage _ _ u) ?_)
  intro r v ⟨rows, hgrows, hnew, hrow⟩
  have hbase : Grows w v rows := by
    have htrans := (Grows.of_quiet (ht.trans hu)).trans hgrows
    rwa [List.nil_append] at htrans
  have hrows : ∀ row ∈ rows, RowOf mail account folder fetched row :=
    fun row hmem => ⟨hraw, parsed, found.1, date, hparse, hnew row hmem⟩
  constructor
  · intro row hr
    have hne : rows ≠ [] := by
      rw [hrow row hr]
      exact List.cons_ne_nil _ _
    have hquiet := exec_quiet env (only_afterStore (fun _ => rfl) (fun _ _ => rfl)
      (fun _ => rfl) (fun _ => rfl) found.1 fetched.internalDate (.touch p.inserted)
      (.mailNew account folder found.1 row.id (uidOf fetched))
      { refs := found.2, inserted := p.inserted + 1 }) v
    exact ⟨rows, hbase.trans_quiet hquiet, hrows, fun _ _ => hne⟩
  · intro e _
    exact ⟨rows, hbase, hrows, fun q hq => nomatch hq⟩

theorem wp_ingest (already : List Int) (p : Progress) (fetched : FetchedMessage) (w : World) :
    Fallible.wp (handle env) (ingest mail account folder already p fetched) w (fun r t =>
      ∃ rows, Grows w t rows ∧
        (∀ row ∈ rows, RowOf mail account folder fetched row ∧ uidOf fetched ∉ already) ∧
        ∀ q, r = .ok q → Ingestible mail fetched → uidOf fetched ∉ already → rows ≠ []) := by
  unfold ingest
  split_ifs with halready hraw
  · rw [List.contains_iff_mem] at halready
    exact ⟨[], .of_quiet (Quiet.refl w), by simp, fun _ _ _ hnot => absurd halready hnot⟩
  · exact ⟨[], .of_quiet (Quiet.refl w), by simp, fun _ _ hing => absurd hraw hing.1⟩
  · rw [List.contains_iff_mem] at halready
    split
    · next hparse =>
      refine ⟨[], .of_quiet (Quiet.refl w), by simp, fun _ _ hing => ?_⟩
      have hsome := hing.2
      rw [hparse] at hsome
      exact absurd hsome Bool.false_ne_true
    · next parsed hparse =>
      refine Fallible.wp_mono _ (wp_ingestParsed hraw hparse p w) ?_
      intro r t ⟨rows, hgrows, hrows, hne⟩
      exact ⟨rows, hgrows, fun row hmem => ⟨hrows row hmem, halready⟩, fun q hq _ _ => hne q hq⟩

/-- A whole window. -/
theorem wp_ingestAll (already : List Int) (messages : List FetchedMessage) (p : Progress)
    (w : World) :
    Fallible.wp (handle env) (ingestAll mail account folder already messages p) w (fun r t =>
      ∃ rows, Grows w t rows ∧
        (∀ row ∈ rows, ∃ m ∈ messages, RowOf mail account folder m row ∧ uidOf m ∉ already) ∧
        ∀ q, r = .ok q → ∀ m ∈ messages, Ingestible mail m → uidOf m ∉ already →
          ∃ row ∈ rows, RowOf mail account folder m row) := by
  induction messages generalizing p w with
  | nil =>
    exact ⟨[], .of_quiet (Quiet.refl w), by simp, fun _ _ m hm => nomatch hm⟩
  | cons fetched rest ih =>
    refine Fallible.wp_bind _ (Fallible.wp_mono _ (wp_ingest already p fetched w) ?_)
    intro r t ⟨rows, hgrows, hrows, hne⟩
    have hhead : ∀ row ∈ rows, ∃ m ∈ fetched :: rest,
        RowOf mail account folder m row ∧ uidOf m ∉ already :=
      fun row hmem => ⟨fetched, List.mem_cons_self, hrows row hmem⟩
    constructor
    · intro q hq
      refine Fallible.wp_mono _ (ih q t) ?_
      intro r' u ⟨rows', hgrows', hrows', hall⟩
      refine ⟨rows ++ rows', hgrows.trans hgrows', ?_, ?_⟩
      · intro row hmem
        rcases List.mem_append.mp hmem with hfirst | hsecond
        · exact hhead row hfirst
        · obtain ⟨m, hm, hrow⟩ := hrows' row hsecond
          exact ⟨m, List.mem_cons_of_mem _ hm, hrow⟩
      · intro q' hq' m hm hing hnot
        rcases List.mem_cons.mp hm with rfl | hrest
        · obtain ⟨row, hrow⟩ := List.exists_mem_of_ne_nil rows (hne q hq hing hnot)
          exact ⟨row, List.mem_append_left _ hrow, (hrows row hrow).1⟩
        · obtain ⟨row, hrow, hof⟩ := hall q' hq' m hrest hing hnot
          exact ⟨row, List.mem_append_right _ hrow, hof⟩
    · intro e _
      exact ⟨rows, hgrows, hhead, fun _ h => nomatch h⟩

end Postblox.Sync
