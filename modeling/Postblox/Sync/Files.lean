import Postblox.Sync.Runs

/-!
# Attachment files belong to messages that were minted

A file is written below the id of a message that was just inserted, so no file
lies below an id still to come, whatever failed on the way.
-/
namespace Postblox.Sync

open Lib Db Imap Mail Attachments

variable {env : Env}

/-- Ids only grow, and every new file lies below an id that is taken. -/
structure Minted (w u : World) : Prop where
  ids : w.db.nextId ≤ u.db.nextId
  files : ∀ p ∈ u.files, p ∈ w.files ∨ p.messageId < u.db.nextId

namespace Minted

theorem refl (w : World) : Minted w w := ⟨Nat.le_refl _, fun _ hp => .inl hp⟩

theorem tick (w : World) : Minted w w.tick := ⟨Nat.le_refl _, fun _ hp => .inl hp⟩

theorem trans {w t u : World} (h : Minted w t) (h' : Minted t u) : Minted w u where
  ids := h.ids.trans h'.ids
  files := by
    intro p hp
    rcases h'.files p hp with hold | hnew
    · exact (h.files p hold).imp_right fun hlt => hlt.trans_le h'.ids
    · exact .inr hnew

theorem statement {ε α : Type} {failed : ε} {effect : World → Except ε (α × World)} {w : World}
    (h : ∀ a w', effect w.tick = .ok (a, w') → Minted w w') :
    Minted w (statement env failed effect w).2 := by
  rcases statement_cases env failed effect w with
    ⟨e, heq, -⟩ | ⟨a, w', heffect, heq | heq⟩
  · rw [heq]
    exact tick w
  · rw [heq]
    exact h a w' heffect
  · rw [heq]
    exact h a w' heffect

theorem query {α : Type} (read : Database → α) (w : World) : Minted w (query env read w).2 := by
  refine Minted.statement ?_
  intro a w' heq
  cases heq
  exact tick w

theorem update {α : Type} {write : Database → Except DbError (α × Database)} {w : World}
    (h : ∀ a db, write w.db = .ok (a, db) → w.db.nextId ≤ db.nextId) :
    Minted w (update env write w).2 := by
  rcases update_cases env write w with ⟨e, heq, -⟩ | ⟨a, db, hwrite, heq | heq⟩
  · rw [heq]
    exact tick w
  · rw [heq]
    exact ⟨h a db hwrite, fun _ hp => .inl hp⟩
  · rw [heq]
    exact ⟨h a db hwrite, fun _ hp => .inl hp⟩

/-- A write that always succeeds and mints no id. -/
theorem update_total {α : Type} {write : Database → α × Database} {w : World}
    (h : (write w.db).2.nextId = w.db.nextId) :
    Minted w (Sync.update env (fun db => .ok (write db)) w).2 := by
  refine Minted.update ?_
  intro a db heq
  rw [Except.ok.inj heq] at h
  exact h.ge

end Minted

/-- What a command does to ids and files; only `writeNewFile` needs care. -/
theorem handle_minted (c : Cmd) (w : World)
    (hpath : ∀ path, c = .writeNewFile path → path.messageId < w.db.nextId) :
    Minted w (handle env c w).2 := by
  cases c with
  | now site => exact .refl w
  | getAccount id => exact .query _ w
  | getFolderByName account name => exact .query _ w
  | listRecent account limit offset => exact .query _ w
  | messageIdsByThreads threads => exact .query _ w
  | existingUids folder uids => exact .query _ w
  | attachmentRoot => exact .query _ w
  | getAttachment id => exact .query _ w
  | getMessage id => exact .query _ w
  | listFolders account => exact .query _ w
  | recordAudit actor action target folder folderName => exact .query _ w
  | syncFolder account host port username credential folder fromUid =>
    exact ⟨Nat.le_refl _, fun _ hp => .inl hp⟩
  | publish event => exact ⟨Nat.le_refl _, fun _ hp => .inl hp⟩
  | deleteAllInFolder folder => exact .update_total rfl
  | deleteMessage id => exact .update_total rfl
  | touchLastMessageAt thread time => exact .update_total rfl
  | refreshAggregates thread => exact .update_total rfl
  | updateUidState folder uidValidity uidNext lastSeenUid => exact .update_total rfl
  | updateSync account status error lastSyncedAt => exact .update_total rfl
  | createThread account externalId subject =>
    refine Minted.update ?_
    intro a db heq
    unfold Threads.create at heq
    split_ifs at heq
    cases heq
    exact Nat.le_succ _
  | createMessage new =>
    refine Minted.statement ?_
    intro a w' heq
    cases hcreate : Messages.create w.db new with
    | error e => simp only [World.tick, hcreate, Except.map, reduceCtorEq] at heq
    | ok p =>
      simp only [World.tick, hcreate, Except.map, Except.ok.injEq, Prod.mk.injEq] at heq
      obtain ⟨-, rfl⟩ := heq
      unfold Messages.create at hcreate
      split_ifs at hcreate
      cases hcreate
      exact ⟨Nat.le_succ _, fun _ hp => .inl hp⟩
  | createAttachment new =>
    refine Minted.update ?_
    intro a db heq
    unfold Attachments.create at heq
    split_ifs at heq
    cases heq
    exact Nat.le_succ _
  | setFolder id folder =>
    refine Minted.update ?_
    intro a db heq
    unfold Messages.setFolder at heq
    split at heq
    · cases heq
      exact Nat.le_refl _
    · split_ifs at heq
      cases heq
      exact Nat.le_refl _
  | writeNewFile path =>
    refine Minted.statement ?_
    intro a w' heq
    split_ifs at heq
    cases heq
    refine ⟨Nat.le_refl _, fun p hp => ?_⟩
    rcases List.mem_append.mp hp with hold | hnew
    · exact .inl hold
    · rw [List.mem_singleton.mp hnew]
      exact .inr (hpath path rfl)

/-! ## Programs -/

/-- Every run of the program keeps files below minted ids. -/
def KeepsMinted {ε α : Type} (env : Env) (p : Fallible ε Cmd Reply α) : Prop :=
  ∀ w, Minted w (Fallible.exec (handle env) p w).2

def NoFile (c : Cmd) : Prop := ∀ path, c ≠ .writeNewFile path

namespace KeepsMinted

open Fallible

variable {ε α β : Type}

theorem bind {p : Fallible ε Cmd Reply α} {f : α → Fallible ε Cmd Reply β}
    (hp : KeepsMinted env p) (hf : ∀ a, KeepsMinted env (f a)) : KeepsMinted env (p >>= f) := by
  intro w
  have hfirst := hp w
  refine wp_bind (handle env) (Q := fun _ u => Minted w u) ⟨?_, ?_⟩
  · exact fun a _ => hfirst.trans (hf a _)
  · exact fun _ _ => hfirst

theorem pure (a : α) : KeepsMinted env (Pure.pure a : Fallible ε Cmd Reply α) := Minted.refl

theorem mapError {ε' : Type} {g : ε → ε'} {p : Fallible ε Cmd Reply α} (hp : KeepsMinted env p) :
    KeepsMinted env (Fallible.mapError g p) :=
  fun w => wp_mapError (handle env) (Q := fun _ u => Minted w u) (hp w)

theorem of_noFile {p : Fallible ε Cmd Reply α} (hp : Only NoFile p) : KeepsMinted env p :=
  exec_rel (handle env) Minted.refl (fun _ _ _ => Minted.trans)
    (fun c hc w => handle_minted c w fun path heq => absurd heq (hc path)) hp

end KeepsMinted

section Programs

open Fallible

variable {mail : MailCrate} {t : Target}

theorem noFile_fetchFrom (t : Target) (fromUid : UInt32) : Only NoFile (fetchFrom t fromUid) :=
  only_fetchFrom (fun _ _ _ _ _ _ _ _ h => nomatch h) t fromUid

theorem noFile_lookup (req : Request) : Only NoFile (lookup req) :=
  only_lookup (fun _ _ h => nomatch h) (fun _ _ _ h => nomatch h) req

theorem noFile_openFolder (t : Target) : Only NoFile (openFolder t) := by
  refine only_bind (noFile_fetchFrom t _) fun server => ?_
  split_ifs
  · exact only_bind (only_ask fun _ h => nomatch h) fun x => only_bind (only_ofDb x) fun wiped =>
      only_bind (noFile_fetchFrom t 1) fun server => only_pure _
  · exact only_pure _

theorem noFile_finish (t : Target) (o : Opened) (d : Drained) : Only NoFile (finish t o d) :=
  only_finish (fun _ _ _ _ _ h => nomatch h) (fun _ _ h => nomatch h)
    (fun _ _ _ _ _ h => nomatch h) (fun _ _ h => nomatch h) t o d

variable (env) in
/-- The files of a message are written once its row was there. -/
theorem minted_persist (message : MessageId) (attachments : List ParsedAttachment) {w : World}
    (hid : message < w.db.nextId) :
    Minted w (exec (handle env) (persistParsedForMessage message attachments) w).2 := by
  have honly : Only (fun c => ∀ path, c = .writeNewFile path → path.messageId = message)
      (persistParsedForMessage message attachments) := by
    refine only_persist ?_ (fun _ h => nomatch h) (fun _ _ h => nomatch h)
      (fun _ _ h => nomatch h) attachments
    intro path hpath path' heq
    obtain rfl := Cmd.writeNewFile.inj heq
    exact hpath
  refine exec_rel (handle env) (Q := fun w u => message < w.db.nextId → Minted w u)
    (fun w _ => Minted.refl w) ?_ ?_ honly w hid
  · intro w t u h h' hlt
    have hfirst := h hlt
    exact hfirst.trans (h' (hlt.trans_le hfirst.ids))
  · intro c hc w hlt
    refine handle_minted c w fun path heq => ?_
    rw [hc path heq]
    exact hlt

theorem keepsMinted_storeMessage (new : NewMessage) (attachments : List ParsedAttachment) :
    KeepsMinted env (storeMessage new attachments) := by
  intro w
  have hinsert : Minted w (insertMessage env new w).2 :=
    handle_minted (.createMessage new) w fun _ h => nomatch h
  refine wp_ask_bind (handle env) (Q := fun _ u => Minted w u) ?_
  show wp (handle env) (SyncM.ofDb (insertMessage env new w).1 >>= _) (insertMessage env new w).2 _
  rcases insertMessage_cases env new w with ⟨e, heq⟩ | ⟨row, db, hcreate, heq | heq⟩
  · rw [heq] at hinsert ⊢
    exact hinsert
  · rw [heq] at hinsert ⊢
    have hid : row.id < db.nextId := by
      refine db.wf.messagesMinted row ?_
      rw [(Messages.create_ok hcreate).2.1]
      exact List.mem_append_right _ (List.mem_singleton.mpr rfl)
    have hpersist := minted_persist env row.id attachments (w := w.inserted db row) hid
    refine wp_ofDb_bind (fun a ha => ?_) (fun e he => nomatch he)
    obtain rfl : row = a := Except.ok.inj ha
    refine wp_bind (handle env) (wp_attempt (handle env) ?_)
    refine ⟨?_, fun e h => nomatch h⟩
    intro outcome _
    cases outcome with
    | ok x => exact hinsert.trans hpersist
    | error e =>
      refine wp_ask_bind (handle env) ?_
      exact (hinsert.trans hpersist).trans (handle_minted (.deleteMessage row.id) _
        fun _ h => nomatch h)
  · rw [heq] at hinsert ⊢
    exact hinsert

theorem keepsMinted_ingest (account : AccountId) (folder : FolderId) (already : List Int)
    (p : Progress) (fetched : FetchedMessage) :
    KeepsMinted env (ingest mail account folder already p fetched) := by
  unfold ingest
  split_ifs
  · exact .pure p
  · exact .pure p
  · split
    · exact .pure p
    · next parsed _ =>
      refine .bind (.of_noFile (only_threadFor (fun _ _ h => nomatch h)
        (fun _ _ _ _ h => nomatch h) mail account p fetched parsed)) fun found => ?_
      refine .bind (.of_noFile (only_orNow (fun _ _ h => nomatch h) _ _)) fun date => ?_
      refine .bind (keepsMinted_storeMessage _ _) fun row => ?_
      exact .of_noFile (only_afterStore (fun _ _ h => nomatch h) (fun _ _ _ h => nomatch h)
        (fun _ _ h => nomatch h) (fun _ _ h => nomatch h) _ _ _ _ _)

theorem keepsMinted_ingestAll (account : AccountId) (folder : FolderId) (already : List Int)
    (messages : List FetchedMessage) (p : Progress) :
    KeepsMinted env (ingestAll mail account folder already messages p) := by
  induction messages generalizing p with
  | nil => exact .pure p
  | cons fetched rest ih => exact .bind (keepsMinted_ingest account folder already p fetched) ih

theorem keepsMinted_drain (fuel : Nat) (server : FolderSync) (p : Progress) (lastSeen : Option Int) :
    KeepsMinted env (drain mail t fuel server p lastSeen) := by
  induction fuel generalizing server p lastSeen with
  | zero => exact Minted.refl
  | succ fuel ih =>
    refine .bind (.mapError (.bind (.of_noFile (only_existingUids (fun _ _ _ h => nomatch h) _ _))
      fun already => keepsMinted_ingestAll _ _ already _ p)) fun q => ?_
    split_ifs
    · exact .bind (.mapError (.of_noFile (noFile_fetchFrom t _))) fun next => ih next q _
    · exact .pure _

theorem keepsMinted_reconcile (mail : MailCrate) (req : Request) :
    KeepsMinted env (reconcileFolder mail req) := by
  refine .bind (.mapError (.of_noFile (noFile_lookup req))) fun t => ?_
  refine .bind (.mapError (.of_noFile (noFile_openFolder t))) fun o => ?_
  refine .bind (.mapError (.of_noFile (only_knownThreads (fun _ _ h => nomatch h)
    (fun _ _ _ _ h => nomatch h) (fun _ _ h => nomatch h) _))) fun refs => ?_
  exact .bind (keepsMinted_drain _ _ _ _) fun d => .mapError (.of_noFile (noFile_finish t o d))

end Programs

/-- No file lies below a message id that is still to come. -/
def World.FilesMinted (w : World) : Prop := ∀ p ∈ w.files, p.messageId < w.db.nextId

theorem World.FilesMinted.of_minted {w u : World} (h : w.FilesMinted) (hminted : Minted w u) :
    u.FilesMinted := by
  intro p hp
  rcases hminted.files p hp with hold | hnew
  · exact (h p hold).trans_le hminted.ids
  · exact hnew

theorem World.FilesMinted.after_call {w : World} (h : w.FilesMinted) (mail : MailCrate) (c : Call) :
    (c.apply mail w).FilesMinted :=
  h.of_minted (keepsMinted_reconcile mail c.req w)

end Postblox.Sync
