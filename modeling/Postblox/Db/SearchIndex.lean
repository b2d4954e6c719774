import Postblox.Db.Cascades
import Postblox.Ipc.JsonText
import Postblox.Lib.MirroredIndex
import Postblox.Lib.Machine
import Postblox.Utf8

/-!
# The full-text index of the messages

`messages_fts` stores no text of its own. Three triggers on `messages` tell it which
values to index and which to forget, row by row, also when a foreign key deletes or
rewrites the row; `MATCH` looks at the index alone. Every statement that touches a
message is its effect on the tables together with what its triggers do.
-/
namespace Postblox.Db.SearchIndex

open Lib

/-- The columns of `messages_fts`. -/
inductive Column where
  | subject
  | fromAddr
  | toAddrs
  | snippet
  | textBody
  deriving DecidableEq

/-- A token at its place in a column. -/
structure Occurrence where
  column : Column
  position : Nat
  token : String
  deriving DecidableEq

/-- What the index holds: an occurrence in the row with a rowid. -/
abbrev Posting := Int × Occurrence

/-- What SQLite does itself: its tokenizer, and the rowid of a row inserted without one,
which is the rowid of no other row. -/
structure Sqlite where
  tokenize : List UInt8 → List String
  newRowid : List Int → Int
  newRowid_free : ∀ used, newRowid used ∉ used

/-- "One larger than the largest rowid in use." -/
def Sqlite.documented (tokenize : List UInt8 → List String) : Sqlite where
  tokenize := tokenize
  newRowid used := used.foldr max 0 + 1
  newRowid_free used hmem := by
    have hle : ∀ (rows : List Int), ∀ rowid ∈ rows, rowid ≤ rows.foldr max 0 := by
      intro rows
      induction rows with
      | nil => simp
      | cons first rows ih =>
        intro rowid h
        rw [List.foldr_cons]
        rcases List.mem_cons.mp h with rfl | h
        · exact le_max_left _ _
        · exact (ih rowid h).trans (le_max_right _ _)
    have hlargest := hle used _ hmem
    omega

/-- An address list is stored as a JSON array. -/
def addressesText (addrs : List String) : List UInt8 :=
  (Json.Value.array (addrs.map .string)).text fun _ => []

/-- What an indexed column holds; `none` is `NULL`. -/
def content (m : Message) : Column → Option (List UInt8)
  | .subject => m.subject.map utf8
  | .fromAddr => some (utf8 m.fromAddr)
  | .toAddrs => some (addressesText m.toAddrs)
  | .snippet => m.snippet.map utf8
  | .textBody => m.textBody.map utf8

/-- A database with its full-text index. -/
structure Store where
  db : Database
  rowid : MessageId → Int
  fts : Multiset Posting

section Index

variable (sqlite : Sqlite)

def columnOccurrences (m : Message) (column : Column) : Multiset Occurrence :=
  (((content m column).elim [] sqlite.tokenize).zipIdx.map fun t =>
    Occurrence.mk column t.2 t.1 : List Occurrence)

/-- Everything that is indexed of a message. -/
def occurrences (m : Message) : Multiset Occurrence :=
  columnOccurrences sqlite m .subject + columnOccurrences sqlite m .fromAddr +
    columnOccurrences sqlite m .toAddrs + columnOccurrences sqlite m .snippet +
    columnOccurrences sqlite m .textBody

def postings (rowid : MessageId → Int) (m : Message) : Multiset Posting :=
  (occurrences sqlite m).map fun o => (rowid m.id, o)

/-! ## The triggers -/

def messagesAi (rowid : MessageId → Int) (fts : Multiset Posting) (new : Message) :
    Multiset Posting :=
  fts + postings sqlite rowid new

/-- The `'delete'` command takes away the postings of the values it is given. -/
def messagesAd (rowid : MessageId → Int) (fts : Multiset Posting) (old : Message) :
    Multiset Posting :=
  fts - postings sqlite rowid old

def messagesAu (rowid : MessageId → Int) (fts : Multiset Posting) (old new : Message) :
    Multiset Posting :=
  fts - postings sqlite rowid old + postings sqlite rowid new

/-! ## Statements -/

namespace Store

variable (s : Store)

/-- Delete message rows, by a statement or by a foreign key. -/
def deleteWhere (p : Message → Bool) : Store where
  db := Messages.deleteWhere s.db p
  rowid := s.rowid
  fts := (s.db.messages.filter p).foldl (messagesAd sqlite s.rowid) s.fts

/-- Rewrite message rows; `db` holds the rewritten ones. -/
def updateWhere (p : Message → Bool) (f : Message → Message) (db : Database) : Store where
  db := db
  rowid := s.rowid
  fts := (s.db.messages.filter p).foldl (fun fts m => messagesAu sqlite s.rowid fts m (f m)) s.fts

/-- A statement that touches no message row. -/
def withDb (db : Database) : Store := { s with db := db }

def create (new : NewMessage) : Except DbError (Message × Store) :=
  (Messages.create s.db new).map fun (row, db) =>
    let rowid := Function.update s.rowid row.id
      (sqlite.newRowid (s.db.messages.map fun m => s.rowid m.id))
    (row, { db, rowid, fts := messagesAi sqlite rowid s.fts row })

def setFlags (id : MessageId) (flags : List String) : Messages.SetFlagsOutcome × Store :=
  let (outcome, db) := Messages.setFlags s.db id flags
  (outcome, s.updateWhere sqlite (Messages.flagsDiffer id flags) (Messages.withFlags flags) db)

def setFolder (id : MessageId) (folder : FolderId) : Except DbError (Bool × Store) :=
  (Messages.setFolder s.db id folder).map fun (found, db) =>
    (found, s.updateWhere sqlite (fun m => m.id = id) (fun m => { m with folderId := folder }) db)

def delete (id : MessageId) : Bool × Store :=
  (s.db.messages.any fun m => m.id = id, s.deleteWhere sqlite fun m => m.id = id)

def deleteAllInFolder (folder : FolderId) : Nat × Store :=
  (s.db.messages.countP fun m => m.folderId = folder,
    s.deleteWhere sqlite fun m => m.folderId = folder)

def deleteFolders (p : Folder → Bool) : Store :=
  (s.deleteWhere sqlite (Messages.inFolder s.db p)).withDb (Folders.deleteWhere s.db p)

def deleteThreads (p : Thread → Bool) : Store :=
  (s.updateWhere sqlite (Messages.inThread s.db p) Messages.withoutThread
    (Messages.clearThreads s.db p)).withDb (Threads.deleteWhere s.db p)

def deleteAccount (id : AccountId) : Bool × Store :=
  if s.db.accounts.any fun a => a.id = id then
    (true, (((s.deleteFolders sqlite fun f => f.accountId = id).deleteThreads sqlite fun th =>
      th.accountId = id).deleteWhere sqlite fun m => m.accountId = id).withDb
        (Accounts.delete s.db id).2)
  else (false, s)

end Store

/-- Every statement that writes to the mail tables. -/
inductive Statement where
  | createAccount (new : NewAccount)
  | createFolder (new : NewFolder)
  | describeFolder (id : FolderId) (role : FolderRole)
  | updateUidState (id : FolderId) (uidValidity uidNext lastSeenUid : Option Int)
  | updateSync (id : AccountId) (status : SyncStatus) (error : Option String)
      (lastSyncedAt : Option Int)
  | createThread (createdAt : Int) (account : AccountId) (externalId subject : Option String)
  | touchLastMessageAt (id : ThreadId) (time : Int)
  | refreshAggregates (id : ThreadId)
  | createAttachment (new : NewAttachment)
  | createMessage (new : NewMessage)
  | setFlags (id : MessageId) (flags : List String)
  | setFolder (id : MessageId) (folder : FolderId)
  | deleteMessage (id : MessageId)
  | deleteAllInFolder (folder : FolderId)
  | deleteFolder (id : FolderId)
  | deleteThread (id : ThreadId)
  | deleteAccount (id : AccountId)

/-- A statement that fails changes nothing. -/
def settle {α : Type} (s : Store) : Except DbError (α × Store) → Store
  | .ok (_, s') => s'
  | .error _ => s

def Statement.run (s : Store) : Statement → Store
  | .createAccount new => settle s ((Accounts.create s.db new).map fun r => (r.1, s.withDb r.2))
  | .createFolder new => settle s ((Folders.create s.db new).map fun r => (r.1, s.withDb r.2))
  | .describeFolder id role => s.withDb (Folders.describe s.db id role)
  | .updateUidState id uidValidity uidNext lastSeenUid =>
    s.withDb (Folders.updateUidState s.db id uidValidity uidNext lastSeenUid)
  | .updateSync id status error lastSyncedAt =>
    s.withDb (Accounts.updateSync s.db id status error lastSyncedAt)
  | .createThread createdAt account externalId subject =>
    settle s ((Threads.create s.db createdAt account externalId subject).map fun r =>
      (r.1, s.withDb r.2))
  | .touchLastMessageAt id time => s.withDb (Threads.touchLastMessageAt s.db id time)
  | .refreshAggregates id => s.withDb (Threads.refreshAggregates s.db id)
  | .createAttachment new => settle s ((Attachments.create s.db new).map fun r => (r.1, s.withDb r.2))
  | .createMessage new => settle s (s.create sqlite new)
  | .setFlags id flags => (s.setFlags sqlite id flags).2
  | .setFolder id folder => settle s (s.setFolder sqlite id folder)
  | .deleteMessage id => (s.delete sqlite id).2
  | .deleteAllInFolder folder => (s.deleteAllInFolder sqlite folder).2
  | .deleteFolder id => s.deleteFolders sqlite fun f => f.id = id
  | .deleteThread id => s.deleteThreads sqlite fun th => th.id = id
  | .deleteAccount id => (s.deleteAccount sqlite id).2

theorem folderIds_nil : Unique (fun f : Folder => some f.id) [] := Unique.nil

theorem folderNames_nil : Unique (fun f : Folder => some (f.accountId, f.name)) [] := Unique.nil

/-- A database right after the migrations. -/
def Store.migrated : Store where
  db := Database.unsynced [] [] 0 folderIds_nil folderNames_nil
  rowid := fun _ => 0
  fts := 0

def Store.after (statements : List Statement) : Store :=
  statements.foldl (Statement.run sqlite) Store.migrated

end Index

/-! ## The index mirrors the table -/

variable {sqlite : Sqlite}

/-- The index holds the postings of the stored messages, and their rowids differ. -/
structure Mirrors (sqlite : Sqlite) (s : Store) : Prop where
  fts : s.fts = MirroredIndex.of (postings sqlite s.rowid) s.db.messages
  rowids : Unique (fun m : Message => some (s.rowid m.id)) s.db.messages

theorem mirrors_migrated : Mirrors sqlite Store.migrated := ⟨rfl, Unique.nil⟩

namespace Mirrors

variable {s : Store}

theorem withDb (h : Mirrors sqlite s) {db : Database} (hdb : db.messages = s.db.messages) :
    Mirrors sqlite (s.withDb db) := by
  constructor
  · show s.fts = MirroredIndex.of _ db.messages
    rw [hdb]
    exact h.fts
  · show Unique (fun m : Message => some (s.rowid m.id)) db.messages
    rw [hdb]
    exact h.rowids

/-- A statement that may fail and touches no message row. -/
theorem write (h : Mirrors sqlite s) {α : Type} {result : Except DbError (α × Database)}
    (hsame : ∀ a db, result = .ok (a, db) → db.messages = s.db.messages) :
    Mirrors sqlite (settle s (result.map fun r => (r.1, s.withDb r.2))) := by
  cases result with
  | error e => exact h
  | ok r => exact h.withDb (hsame r.1 r.2 rfl)

theorem deleteWhere (h : Mirrors sqlite s) (p : Message → Bool) :
    Mirrors sqlite (s.deleteWhere sqlite p) := by
  constructor
  · show (s.db.messages.filter p).foldl (messagesAd sqlite s.rowid) s.fts = _
    rw [h.fts]
    exact MirroredIndex.delete_where (postings sqlite s.rowid) p s.db.messages
  · exact h.rowids.filter _

theorem updateWhere (h : Mirrors sqlite s) {p : Message → Bool} {f : Message → Message}
    {db : Database} (hid : ∀ m, (f m).id = m.id)
    (hdb : db.messages = Lib.updateWhere p f s.db.messages) :
    Mirrors sqlite (s.updateWhere sqlite p f db) := by
  constructor
  · show (s.db.messages.filter p).foldl (fun fts m => messagesAu sqlite s.rowid fts m (f m)) s.fts =
      MirroredIndex.of (postings sqlite s.rowid) db.messages
    rw [h.fts, hdb]
    exact MirroredIndex.rewrite_where (postings sqlite s.rowid) p f s.db.messages
  · show Unique (fun m : Message => some (s.rowid m.id)) db.messages
    rw [hdb]
    exact h.rowids.update fun m => by rw [hid]

/-- The row that `create` inserts. -/
theorem create_row {db db' : Database} {new : NewMessage} {row : Message}
    (h : Messages.create db new = .ok (row, db')) :
    row.id = db.nextId ∧ db'.messages = db.messages ++ [row] := by
  unfold Messages.create at h
  split_ifs at h
  cases h
  exact ⟨rfl, rfl⟩

theorem create (h : Mirrors sqlite s) (new : NewMessage) :
    Mirrors sqlite (settle s (s.create sqlite new)) := by
  unfold Store.create
  cases hcreate : Messages.create s.db new with
  | error e => exact h
  | ok r =>
    obtain ⟨row, db⟩ := r
    obtain ⟨hrow, hmessages⟩ := create_row hcreate
    -- the rowids of the rows that were there stay
    have hold : ∀ (rowid : Int) (m : Message), m ∈ s.db.messages →
        Function.update s.rowid row.id rowid m.id = s.rowid m.id := by
      intro rowid m hm
      have hlt : m.id < row.id := by
        rw [hrow]
        exact s.db.wf.messagesMinted m hm
      exact Function.update_of_ne hlt.ne _ _
    constructor
    · show s.fts + postings sqlite (Function.update s.rowid row.id _) row =
        MirroredIndex.of (postings sqlite (Function.update s.rowid row.id _)) db.messages
      rw [hmessages, MirroredIndex.of_append, h.fts]
      refine congrArg₂ (· + ·) (MirroredIndex.of_congr fun m hm => ?_) ?_
      · rw [postings, postings, hold _ m hm]
      · rw [MirroredIndex.of_cons, MirroredIndex.of_nil, add_zero]
    · show Unique (fun m : Message => some (Function.update s.rowid row.id
        (sqlite.newRowid (s.db.messages.map fun m => s.rowid m.id)) m.id)) db.messages
      rw [hmessages]
      refine Unique.append_single ?_ ?_
      · have hkeys := h.rowids
        unfold Lib.Unique at hkeys ⊢
        rw [List.filterMap_congr fun m hm => congrArg some (hold _ m hm)]
        exact hkeys
      · intro m hm k hk heq
        rw [hold _ m hm] at heq
        rw [Function.update_self] at hk
        have hfree := sqlite.newRowid_free (s.db.messages.map fun m => s.rowid m.id)
        refine hfree (List.mem_map.mpr ⟨m, hm, ?_⟩)
        exact Option.some.inj (heq.trans hk.symm)

theorem setFolder (h : Mirrors sqlite s) (id : MessageId) (folder : FolderId) :
    Mirrors sqlite (settle s (s.setFolder sqlite id folder)) := by
  unfold Store.setFolder
  cases hset : Messages.setFolder s.db id folder with
  | error e => exact h
  | ok r =>
    refine h.updateWhere (fun _ => rfl) ?_
    unfold Messages.setFolder at hset
    split at hset
    · next hnone =>
      cases hset
      -- no row has the id
      refine (List.map_id _).symm.trans (List.map_congr_left fun m hm => ?_)
      have hne := List.find?_eq_none.mp hnone m hm
      exact (if_neg hne).symm
    · split_ifs at hset
      cases hset
      rfl

theorem deleteFolders (h : Mirrors sqlite s) (p : Folder → Bool) :
    Mirrors sqlite (s.deleteFolders sqlite p) :=
  (h.deleteWhere _).withDb rfl

theorem deleteThreads (h : Mirrors sqlite s) (p : Thread → Bool) :
    Mirrors sqlite (s.deleteThreads sqlite p) :=
  (h.updateWhere (f := Messages.withoutThread) (fun _ => rfl) rfl).withDb rfl

theorem deleteAccount (h : Mirrors sqlite s) (id : AccountId) :
    Mirrors sqlite (s.deleteAccount sqlite id).2 := by
  unfold Store.deleteAccount
  by_cases hfound : (s.db.accounts.any fun a => a.id = id) = true
  · rw [if_pos hfound]
    refine (((h.deleteFolders _).deleteThreads _).deleteWhere _).withDb ?_
    rw [Accounts.delete, if_pos hfound]
    rfl
  · rw [if_neg hfound]
    exact h

/-- No statement lets the index and the table come apart. -/
theorem run (h : Mirrors sqlite s) (statement : Statement) :
    Mirrors sqlite (statement.run sqlite s) := by
  cases statement with
  | createAccount new =>
    refine h.write fun a db hcreate => ?_
    unfold Accounts.create at hcreate
    split_ifs at hcreate
    cases hcreate
    rfl
  | createFolder new =>
    refine h.write fun a db hcreate => ?_
    unfold Folders.create at hcreate
    split_ifs at hcreate
    cases hcreate
    rfl
  | createThread createdAt account externalId subject =>
    refine h.write fun a db hcreate => ?_
    unfold Threads.create at hcreate
    split_ifs at hcreate
    cases hcreate
    rfl
  | createAttachment new =>
    refine h.write fun a db hcreate => ?_
    unfold Attachments.create at hcreate
    split_ifs at hcreate
    cases hcreate
    rfl
  | describeFolder id role => exact h.withDb rfl
  | updateUidState id uidValidity uidNext lastSeenUid => exact h.withDb rfl
  | updateSync id status error lastSyncedAt => exact h.withDb rfl
  | touchLastMessageAt id time => exact h.withDb rfl
  | refreshAggregates id => exact h.withDb rfl
  | createMessage new => exact h.create new
  | setFlags id flags => exact h.updateWhere (fun _ => rfl) rfl
  | setFolder id folder => exact h.setFolder id folder
  | deleteMessage id => exact h.deleteWhere _
  | deleteAllInFolder folder => exact h.deleteWhere _
  | deleteFolder id => exact h.deleteFolders _
  | deleteThread id => exact h.deleteThreads _
  | deleteAccount id => exact h.deleteAccount id

theorem after (statements : List Statement) : Mirrors sqlite (Store.after sqlite statements) := by
  unfold Store.after
  induction statements using List.reverseRecOn with
  | nil => exact mirrors_migrated
  | append_singleton statements statement ih =>
    rw [List.foldl_append]
    exact ih.run statement

end Mirrors

/-! ## MATCH -/

/-- What the index holds of the row with a rowid. -/
def indexed (fts : Multiset Posting) (rowid : Int) : Multiset Occurrence :=
  (fts.filter fun p => p.1 = rowid).map (·.2)

/-- FTS5 evaluates a query on what it holds of a row, and returns no row of which it holds
nothing. -/
def Matches (fts : Multiset Posting) (query : Multiset Occurrence → Prop) (rowid : Int) : Prop :=
  indexed fts rowid ≠ 0 ∧ query (indexed fts rowid)

theorem indexed_add (fts fts' : Multiset Posting) (rowid : Int) :
    indexed (fts + fts') rowid = indexed fts rowid + indexed fts' rowid := by
  rw [indexed, Multiset.filter_add, Multiset.map_add]
  rfl

theorem indexed_postings (rowids : MessageId → Int) (m : Message) (rowid : Int) :
    indexed (postings sqlite rowids m) rowid =
      if rowids m.id = rowid then occurrences sqlite m else 0 := by
  unfold indexed postings
  rw [Multiset.filter_map, Multiset.map_map]
  by_cases h : rowids m.id = rowid
  · have hall : (occurrences sqlite m).filter ((fun p : Posting => p.1 = rowid) ∘
        fun o => (rowids m.id, o)) = occurrences sqlite m :=
      Multiset.filter_eq_self.mpr fun _ _ => h
    rw [if_pos h, hall]
    exact Multiset.map_id _
  · have hnone : (occurrences sqlite m).filter ((fun p : Posting => p.1 = rowid) ∘
        fun o => (rowids m.id, o)) = 0 :=
      Multiset.filter_eq_nil.mpr fun _ _ => h
    rw [if_neg h, hnone]
    rfl

/-- The index knows nothing of a rowid that no message has. -/
theorem indexed_of_absent {rowids : MessageId → Int} {rowid : Int} {rows : List Message}
    (h : ∀ m ∈ rows, rowids m.id ≠ rowid) :
    indexed (MirroredIndex.of (postings sqlite rowids) rows) rowid = 0 := by
  induction rows with
  | nil => rfl
  | cons m rows ih =>
    rw [MirroredIndex.of_cons, indexed_add, indexed_postings,
      if_neg (h m List.mem_cons_self), zero_add]
    exact ih fun m' hm' => h m' (List.mem_cons_of_mem m hm')

/-- Of the rowid of a message it knows what the message says now. -/
theorem indexed_of_mem {rowids : MessageId → Int} {rows : List Message} {m : Message}
    (hrowids : Unique (fun m : Message => some (rowids m.id)) rows) (hm : m ∈ rows) :
    indexed (MirroredIndex.of (postings sqlite rowids) rows) (rowids m.id) =
      occurrences sqlite m := by
  induction rows with
  | nil => cases hm
  | cons first rows ih =>
    obtain ⟨hfirst, hrest⟩ := List.pairwise_cons.mp (Unique.iff_pairwise.mp hrowids)
    rw [MirroredIndex.of_cons, indexed_add, indexed_postings]
    rcases List.mem_cons.mp hm with rfl | hm'
    · rw [if_pos rfl, indexed_of_absent, add_zero]
      intro m' hm' heq
      exact hfirst m' hm' _ rfl _ rfl heq.symm
    · have hne : rowids first.id ≠ rowids m.id := hfirst m hm' _ rfl _ rfl
      rw [if_neg hne, zero_add]
      exact ih (Unique.iff_pairwise.mpr hrest) hm'

/-- After any statements the index holds the postings of the stored messages and nothing
else: `MATCH` returns no rowid without a message, and it judges every message by what its
row says now. -/
theorem index_mirrors_messages (sqlite : Sqlite) (statements : List Statement) :
    let s := Store.after sqlite statements
    s.fts = MirroredIndex.of (postings sqlite s.rowid) s.db.messages ∧
    (∀ query rowid, Matches s.fts query rowid → ∃ m ∈ s.db.messages, s.rowid m.id = rowid) ∧
    ∀ query, ∀ m ∈ s.db.messages,
      (Matches s.fts query (s.rowid m.id) ↔
        occurrences sqlite m ≠ 0 ∧ query (occurrences sqlite m)) := by
  intro s
  have hmirrors : Mirrors sqlite s := .after statements
  refine ⟨hmirrors.fts, ?_, ?_⟩
  · intro query rowid hmatch
    by_contra habsent
    refine hmatch.1 ?_
    rw [hmirrors.fts]
    exact indexed_of_absent fun m hm heq => habsent ⟨m, hm, heq⟩
  · intro query m hm
    unfold Matches
    rw [hmirrors.fts, indexed_of_mem hmirrors.rowids hm]

end Postblox.Db.SearchIndex
