import Postblox.Db.Cascades

/-!
# Whose folder and thread a message is in

`messages` repeats the account that its folder and its thread have, and no constraint
ties the columns together. A statement `Keeps` them together when the folder and the
thread it writes into a message row belong to the row's account; every other statement
does so anyway, a deletion of an account included.
-/
namespace Postblox.Db

open Lib

/-- The folder is there and belongs to the account. -/
def OwnsFolder (db : Database) (account : AccountId) (folder : FolderId) : Prop :=
  ∃ f ∈ db.folders, f.id = folder ∧ f.accountId = account

def OwnsThread (db : Database) (account : AccountId) (thread : ThreadId) : Prop :=
  ∃ th ∈ db.threads, th.id = thread ∧ th.accountId = account

/-- Every message lies in a folder, and is part of threads, of its own account. -/
structure Isolated (db : Database) : Prop where
  folder : ∀ m ∈ db.messages, OwnsFolder db m.accountId m.folderId
  thread : ∀ m ∈ db.messages, ∀ id, m.threadId = some id → OwnsThread db m.accountId id

/-- Isolation survives, and no message changes its account. -/
structure Confined (d e : Database) : Prop where
  isolated : Isolated d → Isolated e
  minted : d.nextId ≤ e.nextId
  owners : ∀ m' ∈ e.messages, m'.id < d.nextId →
    ∃ m ∈ d.messages, m.id = m'.id ∧ m.accountId = m'.accountId

/-- Besides, folders and threads stay with their accounts. -/
structure Keeps (d e : Database) : Prop extends Confined d e where
  folders : ∀ account folder, OwnsFolder d account folder → OwnsFolder e account folder
  threads : ∀ account thread, OwnsThread d account thread → OwnsThread e account thread

theorem Confined.refl (d : Database) : Confined d d :=
  ⟨fun h => h, le_refl _, fun m hm _ => ⟨m, hm, rfl, rfl⟩⟩

theorem Confined.trans {d e g : Database} (h : Confined d e) (h' : Confined e g) :
    Confined d g where
  isolated hi := h'.isolated (h.isolated hi)
  minted := h.minted.trans h'.minted
  owners := by
    intro m'' hm'' hlt
    obtain ⟨m', hm', hid', howner'⟩ := h'.owners m'' hm'' (hlt.trans_le h.minted)
    have hold : m'.id < d.nextId := hid' ▸ hlt
    obtain ⟨m, hm, hid, howner⟩ := h.owners m' hm' hold
    exact ⟨m, hm, hid.trans hid', howner.trans howner'⟩

namespace Keeps

variable {d e g : Database}

theorem refl (d : Database) : Keeps d d :=
  ⟨Confined.refl d, fun _ _ h => h, fun _ _ h => h⟩

theorem trans (h : Keeps d e) (h' : Keeps e g) : Keeps d g where
  toConfined := h.toConfined.trans h'.toConfined
  folders account folder hown := h'.folders account folder (h.folders account folder hown)
  threads account thread hown := h'.threads account thread (h.threads account thread hown)

/-- The message rows go on, or some of them go. -/
theorem of_subset (hmessages : ∀ m ∈ e.messages, m ∈ d.messages) (hminted : d.nextId ≤ e.nextId)
    (hfolders : ∀ account folder, OwnsFolder d account folder → OwnsFolder e account folder)
    (hthreads : ∀ account thread, OwnsThread d account thread → OwnsThread e account thread) :
    Keeps d e where
  isolated h := ⟨fun m hm => hfolders _ _ (h.folder m (hmessages m hm)),
    fun m hm id hid => hthreads _ _ (h.thread m (hmessages m hm) id hid)⟩
  minted := hminted
  owners m hm _ := ⟨m, hmessages m hm, rfl, rfl⟩
  folders := hfolders
  threads := hthreads

/-- A statement on other tables. -/
theorem of_same (hmessages : e.messages = d.messages) (hfolders : e.folders = d.folders)
    (hthreads : e.threads = d.threads) (hminted : d.nextId ≤ e.nextId) : Keeps d e := by
  refine of_subset (fun m hm => ?_) hminted (fun account folder h => ?_) (fun account thread h => ?_)
  · rwa [hmessages] at hm
  · unfold OwnsFolder
    rw [hfolders]
    exact h
  · unfold OwnsThread
    rw [hthreads]
    exact h

end Keeps

/-! ## Statements -/

theorem ownsFolder_updateWhere {folders : List Folder} {account : AccountId} {folder : FolderId}
    (p : Folder → Bool) (f : Folder → Folder) (hid : ∀ x, (f x).id = x.id)
    (haccount : ∀ x, (f x).accountId = x.accountId)
    (h : ∃ x ∈ folders, x.id = folder ∧ x.accountId = account) :
    ∃ x ∈ updateWhere p f folders, x.id = folder ∧ x.accountId = account := by
  obtain ⟨x, hx, hxid, hxaccount⟩ := h
  refine ⟨if p x then f x else x, mem_updateWhere.mpr ⟨x, hx, rfl⟩, ?_⟩
  split_ifs
  · rw [hid, haccount]
    exact ⟨hxid, hxaccount⟩
  · exact ⟨hxid, hxaccount⟩

theorem ownsThread_updateWhere {threads : List Thread} {account : AccountId} {thread : ThreadId}
    (p : Thread → Bool) (f : Thread → Thread) (hid : ∀ x, (f x).id = x.id)
    (haccount : ∀ x, (f x).accountId = x.accountId)
    (h : ∃ x ∈ threads, x.id = thread ∧ x.accountId = account) :
    ∃ x ∈ updateWhere p f threads, x.id = thread ∧ x.accountId = account := by
  obtain ⟨x, hx, hxid, hxaccount⟩ := h
  refine ⟨if p x then f x else x, mem_updateWhere.mpr ⟨x, hx, rfl⟩, ?_⟩
  split_ifs
  · rw [hid, haccount]
    exact ⟨hxid, hxaccount⟩
  · exact ⟨hxid, hxaccount⟩

theorem keeps_updateUidState (db : Database) (id : FolderId)
    (uidValidity uidNext lastSeenUid : Option Int) :
    Keeps db (Folders.updateUidState db id uidValidity uidNext lastSeenUid) :=
  .of_subset (fun _ hm => hm) (le_refl _)
    (fun _ _ h => ownsFolder_updateWhere _ _ (fun _ => rfl) (fun _ => rfl) h) (fun _ _ h => h)

theorem keeps_describe (db : Database) (id : FolderId) (role : FolderRole) :
    Keeps db (Folders.describe db id role) :=
  .of_subset (fun _ hm => hm) (le_refl _)
    (fun _ _ h => ownsFolder_updateWhere _ _ (fun _ => rfl) (fun _ => rfl) h) (fun _ _ h => h)

theorem keeps_touch (db : Database) (id : ThreadId) (time : Int) :
    Keeps db (Threads.touchLastMessageAt db id time) :=
  .of_subset (fun _ hm => hm) (le_refl _) (fun _ _ h => h)
    (fun _ _ h => ownsThread_updateWhere _ _ (fun _ => rfl) (fun _ => rfl) h)

theorem keeps_refresh (db : Database) (id : ThreadId) : Keeps db (Threads.refreshAggregates db id) :=
  .of_subset (fun _ hm => hm) (le_refl _) (fun _ _ h => h)
    (fun _ _ h => ownsThread_updateWhere _ _ (fun _ => rfl) (fun _ => rfl) h)

theorem keeps_deleteWhere (db : Database) (p : Message → Bool) :
    Keeps db (Messages.deleteWhere db p) :=
  .of_subset (fun _ hm => (List.mem_filter.mp hm).1) (le_refl _) (fun _ _ h => h) (fun _ _ h => h)

/-- A created thread belongs to the account it was created for. -/
theorem keeps_createThread {db db' : Database} {createdAt : Int} {account : AccountId}
    {externalId subject : Option String} {thread : Thread}
    (h : Threads.create db createdAt account externalId subject = .ok (thread, db')) :
    Keeps db db' ∧ OwnsThread db' account thread.id := by
  unfold Threads.create at h
  split_ifs at h
  cases h
  constructor
  · refine .of_subset (fun _ hm => hm) (Nat.le_succ _) (fun _ _ h => h) ?_
    intro _ _ ⟨th, hth, hid, howner⟩
    exact ⟨th, List.mem_append_left _ hth, hid, howner⟩
  · exact ⟨_, List.mem_append_right _ (List.mem_singleton.mpr rfl), rfl, rfl⟩

theorem keeps_createFolder {db db' : Database} {new : NewFolder} {folder : Folder}
    (h : Folders.create db new = .ok (folder, db')) : Keeps db db' := by
  unfold Folders.create at h
  split_ifs at h
  cases h
  refine .of_subset (fun _ hm => hm) (Nat.le_succ _) ?_ (fun _ _ h => h)
  intro _ _ ⟨f, hf, hid, howner⟩
  exact ⟨f, List.mem_append_left _ hf, hid, howner⟩

theorem keeps_createAccount {db db' : Database} {new : NewAccount} {account : Account}
    (h : Accounts.create db new = .ok (account, db')) : Keeps db db' := by
  unfold Accounts.create at h
  split_ifs at h
  cases h
  exact .of_same rfl rfl rfl (Nat.le_succ _)

theorem keeps_createAttachment {db db' : Database} {new : NewAttachment} {row : Attachment}
    (h : Attachments.create db new = .ok (row, db')) : Keeps db db' := by
  unfold Attachments.create at h
  split_ifs at h
  cases h
  exact .of_same rfl rfl rfl (Nat.le_succ _)

/-- The new row names a folder and threads of its account. -/
def NewMessage.Owned (db : Database) (new : NewMessage) : Prop :=
  OwnsFolder db new.accountId new.folderId ∧
    ∀ id, new.threadId = some id → OwnsThread db new.accountId id

theorem keeps_createMessage {db db' : Database} {new : NewMessage} {row : Message}
    (hnew : new.Owned db) (h : Messages.create db new = .ok (row, db')) : Keeps db db' := by
  unfold Messages.create at h
  split_ifs at h
  cases h
  constructor
  · refine ⟨fun hi => ⟨?_, ?_⟩, Nat.le_succ _, ?_⟩
    · intro m hm
      rcases List.mem_append.mp hm with hold | hrow
      · exact hi.folder m hold
      · rw [List.mem_singleton.mp hrow]
        exact hnew.1
    · intro m hm id hid
      rcases List.mem_append.mp hm with hold | hrow
      · exact hi.thread m hold id hid
      · rw [List.mem_singleton.mp hrow] at hid ⊢
        exact hnew.2 id hid
    · intro m hm hlt
      rcases List.mem_append.mp hm with hold | hrow
      · exact ⟨m, hold, rfl, rfl⟩
      · rw [List.mem_singleton.mp hrow] at hlt
        exact absurd hlt (lt_irrefl _)
  · exact fun _ _ h => h
  · exact fun _ _ h => h

/-- Rewriting messages, each into a folder and threads of its account. -/
theorem keeps_updateMessages {db db' : Database} {p : Message → Bool} {f : Message → Message}
    (hmessages : db'.messages = updateWhere p f db.messages) (hfolders : db'.folders = db.folders)
    (hthreads : db'.threads = db.threads) (hminted : db.nextId ≤ db'.nextId)
    (hid : ∀ m, (f m).id = m.id) (haccount : ∀ m, (f m).accountId = m.accountId)
    (hfolder : ∀ m ∈ db.messages, p m → OwnsFolder db m.accountId m.folderId →
      OwnsFolder db m.accountId (f m).folderId)
    (hthread : ∀ m ∈ db.messages, ∀ id, (f m).threadId = some id → m.threadId = some id) :
    Keeps db db' := by
  have hplace : ∀ account folder, OwnsFolder db account folder → OwnsFolder db' account folder := by
    intro account folder h
    unfold OwnsFolder
    rw [hfolders]
    exact h
  have hgroup : ∀ account thread, OwnsThread db account thread → OwnsThread db' account thread := by
    intro account thread h
    unfold OwnsThread
    rw [hthreads]
    exact h
  refine ⟨⟨fun hi => ⟨?_, ?_⟩, hminted, ?_⟩, hplace, hgroup⟩
  · intro m hm
    rw [hmessages] at hm
    obtain ⟨old, hold, heq⟩ := mem_updateWhere.mp hm
    rw [heq]
    split_ifs with hp
    · rw [haccount]
      exact hplace _ _ (hfolder old hold hp (hi.folder old hold))
    · exact hplace _ _ (hi.folder old hold)
  · intro m hm id
    rw [hmessages] at hm
    obtain ⟨old, hold, heq⟩ := mem_updateWhere.mp hm
    rw [heq]
    split_ifs with hp
    · intro hidf
      rw [haccount]
      exact hgroup _ _ (hi.thread old hold id (hthread old hold id hidf))
    · exact fun hidm => hgroup _ _ (hi.thread old hold id hidm)
  · intro m hm _
    rw [hmessages] at hm
    obtain ⟨old, hold, heq⟩ := mem_updateWhere.mp hm
    refine ⟨old, hold, ?_⟩
    rw [heq]
    split_ifs
    · exact ⟨(hid old).symm, (haccount old).symm⟩
    · exact ⟨rfl, rfl⟩

theorem keeps_setFolder {db db' : Database} {id : MessageId} {folder : FolderId} {found : Bool}
    (htarget : ∀ m ∈ db.messages, m.id = id → OwnsFolder db m.accountId folder)
    (h : Messages.setFolder db id folder = .ok (found, db')) : Keeps db db' := by
  unfold Messages.setFolder at h
  split at h
  · cases h
    exact .refl db
  · split_ifs at h
    cases h
    refine keeps_updateMessages (p := fun m => m.id = id)
      (f := fun m => { m with folderId := folder }) rfl rfl rfl (le_refl _) (fun _ => rfl)
      (fun _ => rfl) (fun m hm hp _ => htarget m hm (of_decide_eq_true hp)) (fun _ _ _ h => h)

/-! ## Deleting an account -/

theorem confined_deleteFolders (db : Database) (p : Folder → Bool) :
    Confined db (Folders.deleteWhere db p) where
  isolated := by
    intro hi
    constructor
    · intro m hm
      obtain ⟨hold, hout⟩ := List.mem_filter.mp hm
      obtain ⟨f, hf, hid, howner⟩ := hi.folder m hold
      refine ⟨f, List.mem_filter.mpr ⟨hf, ?_⟩, hid, howner⟩
      by_contra hgone
      have hin : Messages.inFolder db p m = true := by
        refine List.any_eq_true.mpr ⟨f, hf, ?_⟩
        simpa [hid] using hgone
      rw [hin] at hout
      cases hout
    · intro m hm id hid
      exact hi.thread m (List.mem_filter.mp hm).1 id hid
  minted := le_refl _
  owners m hm _ := ⟨m, (List.mem_filter.mp hm).1, rfl, rfl⟩

theorem confined_deleteThreads (db : Database) (p : Thread → Bool) :
    Confined db (Threads.deleteWhere db p) where
  isolated := by
    intro hi
    constructor
    · intro m hm
      obtain ⟨old, hold, heq⟩ := mem_updateWhere.mp hm
      rw [heq]
      split_ifs
      · exact hi.folder old hold
      · exact hi.folder old hold
    · intro m hm id
      obtain ⟨old, hold, heq⟩ := mem_updateWhere.mp hm
      rw [heq]
      split_ifs with hin
      · intro hid
        cases hid
      · intro hid
        obtain ⟨th, hth, hthid, howner⟩ := hi.thread old hold id hid
        refine ⟨th, List.mem_filter.mpr ⟨hth, ?_⟩, hthid, howner⟩
        by_contra hgone
        refine hin ?_
        unfold Messages.inThread
        rw [hid]
        refine List.any_eq_true.mpr ⟨th, hth, ?_⟩
        simpa [hthid] using hgone
  minted := le_refl _
  owners := by
    intro m hm _
    obtain ⟨old, hold, heq⟩ := mem_updateWhere.mp hm
    refine ⟨old, hold, ?_⟩
    rw [heq]
    split_ifs
    · exact ⟨rfl, rfl⟩
    · exact ⟨rfl, rfl⟩

theorem confined_deleteAccount (db : Database) (id : AccountId) :
    Confined db (Accounts.delete db id).2 := by
  have hcascade : Confined db (Accounts.cascade db id) :=
    ((confined_deleteFolders db _).trans (confined_deleteThreads _ _)).trans
      (keeps_deleteWhere _ _).toConfined
  unfold Accounts.delete
  split_ifs
  · have hrest : Keeps (Accounts.cascade db id) (Accounts.withoutAccount db id) :=
      .of_same rfl rfl rfl (le_refl _)
    exact hcascade.trans hrest.toConfined
  · exact .refl db

end Postblox.Db
