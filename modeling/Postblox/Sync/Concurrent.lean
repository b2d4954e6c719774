import Postblox.Lib.Interleave
import Postblox.Sync.Complete

/-!
# Calls side by side

The background worker and `account.sync_folder` can be in `reconcile_folder` for the
same folder at once: nothing keeps their statements apart. `Undisturbed` says of a
single statement that what its call found out earlier still holds: the row or file it
is about to make is not there yet, and the mark it is about to store is not behind the
stored one. When all statements are like that, every interleaving is as good as one
call after the other.
-/
namespace Postblox.Sync

open Lib Db Imap Mail Attachments

/-! ## Marks -/

/-- The stored mark of a folder. -/
def World.markOf (w : World) (folder : FolderId) : Option Int :=
  (w.db.folders.find? fun f => f.id = folder).bind (·.lastSeenUid)

/-- No mark, or one that is not above the other. -/
def MarkLe (mark mark' : Option Int) : Prop := ∀ m ∈ mark, ∃ m' ∈ mark', m ≤ m'

instance (mark mark' : Option Int) : Decidable (MarkLe mark mark') :=
  match mark, mark' with
  | none, _ => isTrue fun _ h => nomatch h
  | some m, none => isFalse fun h => by
      obtain ⟨m', hm', -⟩ := h m rfl
      cases hm'
  | some m, some m' => decidable_of_iff (m ≤ m') (by simp [MarkLe])

theorem MarkLe.refl (mark : Option Int) : MarkLe mark mark := fun m hm => ⟨m, hm, Int.le_refl m⟩

theorem MarkLe.trans {a b c : Option Int} (h : MarkLe a b) (h' : MarkLe b c) : MarkLe a c := by
  intro m hm
  obtain ⟨m', hm', hle⟩ := h m hm
  obtain ⟨m'', hm'', hle'⟩ := h' m' hm'
  exact ⟨m'', hm'', hle.trans hle'⟩

/-! ## The scene -/

/-- Calls for one folder: the mailbox that each connection shows and its validity, and
the number of connections and the mark when the first of the calls began. -/
structure Scene where
  mail : MailCrate
  account : AccountId
  folder : FolderId
  mailbox : Nat → ServerMailbox
  validity : Option UInt32
  since : Nat
  mark : Option Int

namespace Scene

variable (sc : Scene)

/-- The validity never changes, `UIDNEXT` is advertised, and no attachment is too large. -/
structure Regular : Prop where
  validity : ∀ n, (sc.mailbox n).uidValidity = sc.validity
  next : ∀ n, (sc.mailbox n).uidNext.isSome
  limit : ∀ n, ∀ sm ∈ (sc.mailbox n).messages, WithinLimit sc.mail sm.fetched

/-- Nothing fails of its own, and the connections show the mailbox. -/
structure Serves (env : Env) : Prop where
  clean : env.Clean
  shown : ∀ n, (sc.mailbox n).Shown (env.session n)

/-- A readable message above the first mark that is on the server all the time. -/
structure Due (sm : ServerMessage) : Prop where
  stays : ∀ n, sc.since ≤ n → sm ∈ (sc.mailbox n).messages
  readable : Ingestible sc.mail sm.fetched
  above : ∀ m ∈ sc.mark, m < uidOf sm.fetched

def Stored (w : World) (sm : ServerMessage) : Prop :=
  Messages.UidTaken w.db sc.folder (uidOf sm.fetched)

/-- The stored validity is not another one. -/
def Fits (f : Folder) : Prop := ∀ v ∈ f.uidValidity, ∀ u ∈ sc.validity, v = (u.toNat : Int)

/-- No mail arrives meanwhile: `UIDNEXT` stays where it is. -/
def Still : Prop := ∀ n, sc.since ≤ n → (sc.mailbox n).uidNext = (sc.mailbox sc.since).uidNext

/-- The last UID given out when the calls began. -/
def lastUid : Nat := ((sc.mailbox sc.since).uidNext.getD 0).toNat - 1

/-- The mark is not below the first one, and without new mail not above everything
there is. -/
structure Reached (mark : Option Int) : Prop where
  risen : MarkLe sc.mark mark
  bounded : sc.Still → ∀ m ∈ mark, m ≤ sc.lastUid ∨ ∃ first ∈ sc.mark, m ≤ first

/-- No message that is due lies at or below the stored mark without a row. -/
structure Sound (w : World) : Prop where
  since : sc.since ≤ w.syncs.length
  reached : sc.Reached (w.markOf sc.folder)
  validity : ∀ f ∈ w.db.folders, f.id = sc.folder → sc.Fits f
  covered : ∀ sm, sc.Due sm → (∃ m ∈ w.markOf sc.folder, uidOf sm.fetched ≤ m) → sc.Stored w sm

/-- The request names the folder, and its rows are there. -/
structure Opens (req : Request) (w : World) : Prop where
  account : req.account = sc.account
  credential : req.credential.isEmpty = false
  login : ∃ row, Accounts.get w.db sc.account = some row ∧ ∃ port, portU16 row.imapPort = .ok port
  place : ∃ f, Folders.getByName w.db sc.account req.folderName = some f ∧ f.id = sc.folder

/-- What the call found out before the command still holds. Without new mail all calls
end at the same mark, so that it does not matter which of them stores it last. -/
def Undisturbed : Cmd → World → Prop
  | .createMessage new, w => ¬ Messages.UidTaken w.db new.folderId new.uid
  | .createThread account externalId _, w => ¬ Threads.ExternalTaken w.db account externalId
  | .writeNewFile path, w => path ∉ w.files
  | .updateUidState folder _ _ lastSeenUid, w => sc.Still ∨ MarkLe (w.markOf folder) lastSeenUid
  | _, _ => True

instance [Decidable sc.Still] (c : Cmd) (w : World) : Decidable (sc.Undisturbed c w) :=
  match c with
  | .createMessage new =>
    inferInstanceAs (Decidable (¬ Messages.UidTaken w.db new.folderId new.uid))
  | .createThread account externalId _ =>
    inferInstanceAs (Decidable (¬ Threads.ExternalTaken w.db account externalId))
  | .writeNewFile path => inferInstanceAs (Decidable (path ∉ w.files))
  | .updateUidState folder _ _ lastSeenUid =>
    inferInstanceAs (Decidable (sc.Still ∨ MarkLe (w.markOf folder) lastSeenUid))
  | .now .. | .getAccount .. | .getFolderByName .. | .syncFolder .. | .deleteAllInFolder ..
  | .listRecent .. | .messageIdsByThreads .. | .existingUids .. | .deleteMessage ..
  | .attachmentRoot .. | .createAttachment .. | .getAttachment .. | .touchLastMessageAt ..
  | .refreshAggregates .. | .updateSync .. | .publish .. | .getMessage .. | .listFolders ..
  | .setFolder .. | .recordAudit .. =>
    isTrue trivial

end Scene

/-- What finds a folder and no sync changes. -/
def Folder.place (f : Folder) : FolderId × AccountId × String := (f.id, f.accountId, f.name)

/-- The changes that a call makes: nothing that is there goes away, the mark only moves
up, and what is sound stays so. -/
structure Allowed (sc : Scene) (s t : World) : Prop where
  messages : ∀ m ∈ s.db.messages, m ∈ t.db.messages
  threads : ∀ th ∈ s.db.threads, ∃ th' ∈ t.db.threads, th'.id = th.id
  logins : t.db.accounts.map Account.login = s.db.accounts.map Account.login
  places : t.db.folders.map Folder.place = s.db.folders.map Folder.place
  mark : MarkLe (s.markOf sc.folder) (t.markOf sc.folder)
  sound : sc.Sound s → sc.Sound t

namespace Allowed

variable {sc : Scene} {s t u : World}

theorem refl (s : World) : Allowed sc s s :=
  ⟨fun _ h => h, fun th h => ⟨th, h, rfl⟩, rfl, rfl, .refl _, fun h => h⟩

theorem trans (h : Allowed sc s t) (h' : Allowed sc t u) : Allowed sc s u where
  messages := fun m hm => h'.messages m (h.messages m hm)
  threads := by
    intro th hth
    obtain ⟨th', hth', hid⟩ := h.threads th hth
    obtain ⟨th'', hth'', hid'⟩ := h'.threads th' hth'
    exact ⟨th'', hth'', hid'.trans hid⟩
  logins := h'.logins.trans h.logins
  places := h'.places.trans h.places
  mark := h.mark.trans h'.mark
  sound := fun hs => h'.sound (h.sound hs)

theorem stored (h : Allowed sc s t) {sm : ServerMessage} (hs : sc.Stored s sm) :
    sc.Stored t sm := by
  obtain ⟨m, hm, hkey⟩ := hs
  exact ⟨m, h.messages m hm, hkey⟩

/-- A change that leaves the folders alone. -/
theorem of_folders (hmessages : ∀ m ∈ s.db.messages, m ∈ t.db.messages)
    (hthreads : ∀ th ∈ s.db.threads, ∃ th' ∈ t.db.threads, th'.id = th.id)
    (hlogins : t.db.accounts.map Account.login = s.db.accounts.map Account.login)
    (hfolders : t.db.folders = s.db.folders) (hsyncs : s.syncs.length ≤ t.syncs.length) :
    Allowed sc s t := by
  have hmark : t.markOf sc.folder = s.markOf sc.folder := by
    unfold World.markOf
    rw [hfolders]
  refine ⟨hmessages, hthreads, hlogins, by rw [hfolders], ?_, fun hs => ⟨?_, ?_, ?_, ?_⟩⟩
  · rw [hmark]
    exact .refl _
  · exact hs.since.trans hsyncs
  · rw [hmark]
    exact hs.reached
  · rw [hfolders]
    exact hs.validity
  · intro sm hsm
    rw [hmark]
    intro hbelow
    obtain ⟨m, hm, hkey⟩ := hs.covered sm hsm hbelow
    exact ⟨m, hmessages m hm, hkey⟩

/-- A change of nothing that matters. -/
theorem of_db (hdb : t.db = s.db) (hsyncs : s.syncs.length ≤ t.syncs.length) : Allowed sc s t := by
  refine of_folders ?_ ?_ ?_ ?_ hsyncs
  · rw [hdb]
    exact fun _ h => h
  · rw [hdb]
    exact fun th h => ⟨th, h, rfl⟩
  · rw [hdb]
  · rw [hdb]

end Allowed

/-! ## Single commands -/

/-- The commands of a call that does not wipe and does not take a row back, up to the one
that stores the mark. -/
def Cmd.tame : Cmd → Bool
  | .deleteAllInFolder _ => false
  | .deleteMessage _ => false
  | .setFolder .. => false
  | .updateUidState .. => false
  | _ => true

section Commands

variable {sc : Scene} {env : Env}

theorem allowed_query (hclean : env.Clean) {α : Type} (read : Database → α) (w : World) :
    Allowed sc w (query env read w).2 := by
  rw [query_clean hclean]
  exact .of_db rfl (Nat.le_refl _)

theorem allowed_update (hclean : env.Clean) {α : Type}
    {write : Database → Except DbError (α × Database)} {w : World}
    (hmessages : ∀ a db, write w.db = .ok (a, db) → db.messages = w.db.messages)
    (hthreads : ∀ a db, write w.db = .ok (a, db) →
      ∀ th ∈ w.db.threads, ∃ th' ∈ db.threads, th'.id = th.id)
    (hlogins : ∀ a db, write w.db = .ok (a, db) →
      db.accounts.map Account.login = w.db.accounts.map Account.login)
    (hfolders : ∀ a db, write w.db = .ok (a, db) → db.folders = w.db.folders) :
    Allowed sc w (update env write w).2 := by
  cases hwrite : write w.db with
  | error e =>
    rw [update_refused hclean hwrite]
    exact .of_db rfl (Nat.le_refl _)
  | ok done =>
    obtain ⟨a, db⟩ := done
    rw [update_clean hclean hwrite]
    refine .of_folders ?_ (hthreads a db hwrite) (hlogins a db hwrite) (hfolders a db hwrite)
      (Nat.le_refl _)
    show ∀ m ∈ w.db.messages, m ∈ db.messages
    rw [hmessages a db hwrite]
    exact fun _ h => h

/-- A write that the schema always admits. -/
theorem allowed_write (hclean : env.Clean) {write : Database → Database} {w : World}
    (hmessages : (write w.db).messages = w.db.messages)
    (hthreads : ∀ th ∈ w.db.threads, ∃ th' ∈ (write w.db).threads, th'.id = th.id)
    (hlogins : (write w.db).accounts.map Account.login = w.db.accounts.map Account.login)
    (hfolders : (write w.db).folders = w.db.folders) :
    Allowed sc w (update env (fun db => .ok ((), write db)) w).2 := by
  refine allowed_update hclean ?_ ?_ ?_ ?_
  · rintro _ _ ⟨⟩
    exact hmessages
  · rintro _ _ ⟨⟩
    exact hthreads
  · rintro _ _ ⟨⟩
    exact hlogins
  · rintro _ _ ⟨⟩
    exact hfolders

/-- Thread rows that are rewritten keep their ids. -/
theorem threads_updateWhere {p : Thread → Bool} {f : Thread → Thread} (hf : ∀ th, (f th).id = th.id)
    (threads : List Thread) :
    ∀ th ∈ threads, ∃ th' ∈ updateWhere p f threads, th'.id = th.id := by
  intro th hth
  refine ⟨if p th then f th else th, mem_updateWhere.mpr ⟨th, hth, rfl⟩, ?_⟩
  split_ifs
  · exact hf th
  · rfl

theorem allowed_handle (hclean : env.Clean) {c : Cmd} (hc : c.tame) (w : World) :
    Allowed sc w (handle env c w).2 := by
  have hsame : ∀ {db : Database}, db.threads = w.db.threads →
      ∀ th ∈ w.db.threads, ∃ th' ∈ db.threads, th'.id = th.id := by
    intro db heq
    rw [heq]
    exact fun th hth => ⟨th, hth, rfl⟩
  cases c with
  | now site => exact .refl w
  | getAccount id => exact allowed_query hclean _ w
  | getFolderByName account name => exact allowed_query hclean _ w
  | syncFolder account host port username credential folder fromUid =>
    refine .of_db rfl ?_
    show w.syncs.length ≤ (w.syncs ++ _).length
    rw [List.length_append]
    omega
  | listRecent account limit offset => exact allowed_query hclean _ w
  | messageIdsByThreads threads => exact allowed_query hclean _ w
  | existingUids folder uids => exact allowed_query hclean _ w
  | attachmentRoot => exact allowed_query hclean _ w
  | getAttachment id => exact allowed_query hclean _ w
  | getMessage id => exact allowed_query hclean _ w
  | listFolders account => exact allowed_query hclean _ w
  | recordAudit actor action target folder folderName => exact allowed_query hclean _ w
  | publish event => exact .of_db rfl (Nat.le_refl _)
  | createThread account externalId subject =>
    have hcreate : ∀ a db, Threads.create w.db (env.dbClock w.db.nextId) account externalId subject =
        .ok (a, db) → db.messages = w.db.messages ∧ db.accounts = w.db.accounts ∧
          db.folders = w.db.folders ∧ db.threads = w.db.threads ++ [a] := by
      intro a db h
      unfold Threads.create at h
      split_ifs at h
      cases h
      exact ⟨rfl, rfl, rfl, rfl⟩
    refine allowed_update hclean (fun a db h => (hcreate a db h).1) (fun a db h th hth => ?_)
      (fun a db h => by rw [(hcreate a db h).2.1]) (fun a db h => (hcreate a db h).2.2.1)
    rw [(hcreate a db h).2.2.2]
    exact ⟨th, List.mem_append_left _ hth, rfl⟩
  | createMessage new =>
    show Allowed sc w (insertMessage env new w).2
    cases hcreate : Messages.create w.db new with
    | error e =>
      rw [insertMessage_refused hclean hcreate]
      exact .of_db rfl (Nat.le_refl _)
    | ok done =>
      obtain ⟨row, db⟩ := done
      obtain ⟨-, hmessages, hfolders, haccounts⟩ := Messages.create_ok hcreate
      have hthreads : db.threads = w.db.threads := by
        unfold Messages.create at hcreate
        split_ifs at hcreate
        cases hcreate
        rfl
      rw [insertMessage_clean hclean hcreate]
      refine .of_folders ?_ (hsame hthreads) ?_ hfolders (Nat.le_refl _)
      · show ∀ m ∈ w.db.messages, m ∈ db.messages
        rw [hmessages]
        exact fun m hm => List.mem_append_left _ hm
      · show db.accounts.map _ = _
        rw [haccounts]
  | writeNewFile path =>
    show Allowed sc w (writeFile env path w).2
    by_cases htaken : path ∈ w.files
    · rw [writeFile_refused hclean htaken]
      exact .of_db rfl (Nat.le_refl _)
    · rw [writeFile_clean hclean htaken]
      exact .of_db rfl (Nat.le_refl _)
  | createAttachment new =>
    have hcreate : ∀ a db, Db.Attachments.create w.db new = .ok (a, db) →
        db.messages = w.db.messages ∧ db.threads = w.db.threads ∧
          db.accounts = w.db.accounts ∧ db.folders = w.db.folders := by
      intro a db h
      unfold Db.Attachments.create at h
      split_ifs at h
      cases h
      exact ⟨rfl, rfl, rfl, rfl⟩
    exact allowed_update hclean (fun a db h => (hcreate a db h).1)
      (fun a db h => hsame (hcreate a db h).2.1)
      (fun a db h => by rw [(hcreate a db h).2.2.1]) (fun a db h => (hcreate a db h).2.2.2)
  | touchLastMessageAt thread time =>
    refine allowed_write hclean rfl ?_ rfl rfl
    refine threads_updateWhere ?_ w.db.threads
    exact fun _ => rfl
  | refreshAggregates thread =>
    refine allowed_write hclean rfl ?_ rfl rfl
    refine threads_updateWhere ?_ w.db.threads
    exact fun _ => rfl
  | updateSync account status error lastSyncedAt =>
    refine allowed_write hclean rfl (hsame rfl) ?_ rfl
    refine map_updateWhere ?_ w.db.accounts
    exact fun _ => rfl
  | _ => exact absurd hc Bool.false_ne_true

/-- The mark is replaced, if the folder has a row. -/
theorem markOf_updateUidState (w : World) (folder : FolderId) (uidValidity uidNext : Option Int)
    (mark : Int) :
    (w.wrote (Folders.updateUidState w.db folder uidValidity uidNext (some mark))).markOf folder =
        some mark ∨
      (w.wrote (Folders.updateUidState w.db folder uidValidity uidNext (some mark))).markOf folder =
        w.markOf folder := by
  have hfind : (Folders.updateUidState w.db folder uidValidity uidNext (some mark)).folders.find?
      (fun f => f.id = folder) = (w.db.folders.find? fun f => f.id = folder).map fun f =>
        if f.id = folder then
          { f with uidValidity := uidValidity.orElse fun _ => f.uidValidity
                   uidNext := uidNext.orElse fun _ => f.uidNext
                   lastSeenUid := some mark }
        else f := by
    refine (find?_updateWhere (fun f => ?_) w.db.folders).trans ?_
    · rfl
    · simp only [decide_eq_true_eq]
      rfl
  unfold World.markOf
  show Option.bind ((Folders.updateUidState w.db folder uidValidity uidNext
    (some mark)).folders.find? _) _ = _ ∨ Option.bind ((Folders.updateUidState w.db folder
      uidValidity uidNext (some mark)).folders.find? _) _ = _
  rw [hfind]
  cases hrow : w.db.folders.find? fun f => f.id = folder with
  | none => exact .inr rfl
  | some f =>
    have hfound := List.find?_some hrow
    rw [Option.map_some, if_pos (of_decide_eq_true hfound)]
    exact .inl rfl

/-- The mark that a call has reached may be stored once everything is there. -/
theorem allowed_updateUidState {w : World} (hs : sc.Sound w) (uidNext : Option Int) {mark : Int}
    (hreached : sc.Reached (some mark)) (hlast : sc.Still → sc.lastUid ≤ mark)
    (hok : sc.Still ∨ MarkLe (w.markOf sc.folder) (some mark))
    (hall : ∀ sm, sc.Due sm → sc.Stored w sm) :
    Allowed sc w (w.wrote (Folders.updateUidState w.db sc.folder (widen sc.validity) uidNext
      (some mark))) := by
  have hle : MarkLe (w.markOf sc.folder) (some mark) := by
    rcases hok with hstill | hle
    · intro m hm
      refine ⟨mark, rfl, ?_⟩
      rcases hs.reached.bounded hstill m hm with hend | ⟨first, hfirst, hle⟩
      · exact hend.trans (hlast hstill)
      · obtain ⟨m', hm', hle'⟩ := hreached.risen first hfirst
        obtain rfl := Option.some.inj hm'
        exact hle.trans hle'
    · exact hle
  have hmark := markOf_updateUidState w sc.folder (widen sc.validity) uidNext mark
  refine ⟨fun _ h => h, fun th h => ⟨th, h, rfl⟩, rfl, ?_, ?_, fun _ => ⟨hs.since, ?_, ?_,
    fun sm hdue _ => hall sm hdue⟩⟩
  · refine map_updateWhere ?_ w.db.folders
    exact fun _ => rfl
  · rcases hmark with heq | heq <;> rw [heq]
    · exact hle
    · exact .refl _
  · rcases hmark with heq | heq <;> rw [heq]
    · exact hreached
    · exact hs.reached
  · intro f hf hid
    obtain ⟨g, hg, rfl⟩ := mem_updateWhere.mp hf
    split_ifs at hid ⊢ with hupdated
    · intro v hv u hu
      have hfield : v ∈ (widen sc.validity).orElse fun _ => g.uidValidity := hv
      rw [show sc.validity = some u from hu] at hfield
      exact (Option.some.inj hfield).symm
    · exact hs.validity g hg hid

end Commands

end Postblox.Sync
