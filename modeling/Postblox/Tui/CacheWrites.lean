import Postblox.Lib.Program
import Postblox.Tui.MailStore

/-!
# What an action leaves in the cache

The rows that are shown are written through to the cache under the selected folder. Each action
is told by three things: the rows it leaves, the entries it leaves, and whether the open messages
are among the rows.
-/
namespace Postblox.Tui

open Lib

/-- The cache after the rows were stored under the key: every other entry is an old one of
another key. -/
structure StoredOver (old new : FolderMessageCache) (key : Option (Uuid × Uuid))
    (rows : List MessageItem) : Prop where
  keyed : new.Keyed
  entries : ∀ entry ∈ new.entries, (some entry.key = key ∧ entry.snapshot.folderMessages = rows) ∨
    (entry ∈ old.entries ∧ some entry.key ≠ key)

theorem StoredOver.trans {old mid new : FolderMessageCache} {key : Option (Uuid × Uuid)}
    {rows rows' : List MessageItem} (h : StoredOver old mid key rows)
    (h' : StoredOver mid new key rows') : StoredOver old new key rows' := by
  refine ⟨h'.keyed, fun entry hentry => ?_⟩
  rcases h'.entries entry hentry with hnew | ⟨hmid, hne⟩
  · exact .inl hnew
  · rcases h.entries entry hmid with ⟨hkey, -⟩ | hold
    · exact absurd hkey hne
    · exact .inr hold

namespace AppState

variable (app : AppState)

def selectedKey : Option (Uuid × Uuid) :=
  app.selectedAccountId.bind fun account => app.selectedFolderId.map fun folder => (account, folder)

/-- The open messages are rows. -/
def Lists : Prop := ∀ m ∈ app.messages, m ∈ app.folderMessages

variable {app}

theorem selectedKey_of_place {app' : AppState} (h : app'.place = app.place) :
    app'.selectedKey = app.selectedKey := by
  rw [selectedKey, selectedAccountId_of_place h, selectedFolderId_of_place h, selectedKey]

theorem selectedKey_eq_some {account folder : Uuid} :
    app.selectedKey = some (account, folder) ↔
      app.selectedAccountId = some account ∧ app.selectedFolderId = some folder := by
  unfold selectedKey
  cases app.selectedAccountId with
  | none => simp
  | some a => cases app.selectedFolderId <;> simp

theorem lists_refreshVisibleMessages : app.refreshVisibleMessages.Lists :=
  fun m hm => (showsThread_refreshVisibleMessages m hm).1

theorem storedOver_storeSelected (hkeyed : app.folderCache.Keyed) (now : Nat) :
    StoredOver app.folderCache
      (app.storeSelectedFolderCache app.selectedAccountId app.selectedFolderId now).folderCache
      app.selectedKey app.folderMessages := by
  have hsame : app.selectedKey = none → StoredOver app.folderCache app.folderCache app.selectedKey
      app.folderMessages := by
    intro hnone
    rw [hnone]
    exact ⟨hkeyed, fun entry hentry => .inr ⟨hentry, Option.some_ne_none _⟩⟩
  cases haccount : app.selectedAccountId with
  | none => exact hsame (by rw [selectedKey, haccount, Option.bind_none])
  | some account =>
    cases hfolder : app.selectedFolderId with
    | none => exact hsame (by rw [selectedKey, haccount, hfolder]; rfl)
    | some folder =>
      have hkey := selectedKey_eq_some.mpr ⟨haccount, hfolder⟩
      rw [storeSelectedFolderCache_some (approvalsFolderSelected_of_folder hfolder), hkey]
      refine ⟨hkeyed.store _ now, fun entry hentry => ?_⟩
      rcases hkeyed.mem_store hentry with rfl | ⟨hold, hne⟩
      · exact .inl ⟨rfl, rfl⟩
      · exact .inr ⟨hold, fun heq => hne (Option.some.inj heq)⟩

/-! ## Flags -/

theorem lists_writeRowFlags (h : app.Lists) (id : Uuid) (flags : List String) (now : Nat) :
    (app.writeRowFlags id flags now).Lists := by
  obtain ⟨folderCache, ⟨hempty, heq⟩ | ⟨-, heq⟩⟩ := app.writeRowFlags_eq id flags now
  · have hmessages : app.messages = [] := by
      rw [List.eq_nil_iff_forall_not_mem]
      intro m hm
      have hlisted := h m hm
      rw [hempty] at hlisted
      cases hlisted
    rw [heq]
    show ∀ m ∈ setRowFlags id flags app.messages, _
    rw [hmessages]
    intro m hm
    cases hm
  · rw [heq]
    exact @lists_refreshVisibleMessages
      ((app.withRowFlags id flags).rebuildThreads app.selectedThreadKey)

theorem storedOver_writeRowFlags (hkeyed : app.folderCache.Keyed) {id : Uuid}
    (hlisted : listsMessage id app.folderMessages = true) (flags : List String) (now : Nat) :
    StoredOver app.folderCache (app.writeRowFlags id flags now).folderCache app.selectedKey
      (setRowFlags id flags app.folderMessages) := by
  have hfull : (setRowFlags id flags app.folderMessages).isEmpty = false := by
    rw [Bool.eq_false_iff, ne_eq, List.isEmpty_iff, setRowFlags_eq_nil]
    rintro heq
    rw [heq] at hlisted
    cases hlisted
  have hstored : app.writeRowFlags id flags now = ((((app.withRowFlags id flags).rebuildThreads
      app.selectedThreadKey).refreshVisibleMessages).storeSelectedFolderCache app.selectedAccountId
      app.selectedFolderId now) := by
    unfold writeRowFlags
    simp only [hfull, hlisted, Bool.false_eq_true, if_false, if_true]
    rfl
  rw [hstored]
  exact @storedOver_storeSelected (((app.withRowFlags id flags).rebuildThreads
    app.selectedThreadKey).refreshVisibleMessages) hkeyed now

/-- In a folder that lists a message once, its row gets the flags. -/
theorem shown_setRowFlags {id : Uuid} {flags : List String} {rows : List MessageItem}
    (hdistinct : (rows.map (·.id)).Nodup) :
    (setRowFlags id flags rows).map MessageItem.shown =
      (rows.map MessageItem.shown).map (MailStore.flagRow id flags) := by
  induction rows with
  | nil => rfl
  | cons m rest ih =>
    obtain ⟨hm, hrest⟩ := List.nodup_cons.mp hdistinct
    rw [setRowFlags, List.map_cons, List.map_cons]
    split_ifs with hid
    · have hnone : ∀ p ∈ rest.map MessageItem.shown, p.1 ≠ id := by
        intro p hp heq
        obtain ⟨other, hother, rfl⟩ := List.mem_map.mp hp
        have hsame : other.id = m.id := heq.trans hid.symm
        exact hm (List.mem_map.mpr ⟨other, hother, hsame⟩)
      rw [List.map_cons, MailStore.map_flagRow_of_not_mem hnone]
      have hfirst : MailStore.flagRow id flags m.shown = ({ m with flags } : MessageItem).shown :=
        if_pos hid
      rw [hfirst]
    · rw [List.map_cons, ih hrest]
      have hfirst : MailStore.flagRow id flags m.shown = m.shown := if_neg hid
      rw [hfirst]

/-- Flags are written to the row of a message and the rows are stored, or the message has no
row and nothing happens. -/
inductive FlagEffect (app app' : AppState) (id : Uuid) (flags : List String) : Prop
  | quiet (rows : app'.folderMessages = app.folderMessages)
      (cache : app'.folderCache = app.folderCache)
      (unlisted : listsMessage id app.folderMessages = false)
  | stored (rows : app'.folderMessages = setRowFlags id flags app.folderMessages)
      (cache : StoredOver app.folderCache app'.folderCache app.selectedKey app'.folderMessages)
      (listed : listsMessage id app.folderMessages = true)

theorem flagEffect_writeRowFlags (hkeyed : app.folderCache.Keyed) (id : Uuid)
    (flags : List String) (now : Nat) :
    FlagEffect app (app.writeRowFlags id flags now) id flags := by
  have hrows := @writeRowFlags_folderMessages app id flags now
  cases hlisted : listsMessage id app.folderMessages with
  | false =>
    refine .quiet ?_ (folderCache_writeRowFlags_of_unlisted hlisted) hlisted
    rw [hrows, setRowFlags_of_unlisted hlisted]
  | true =>
    refine .stored hrows ?_ hlisted
    rw [hrows]
    exact storedOver_writeRowFlags hkeyed hlisted flags now

/-! ## Details -/

/-- The row of a message may get the flags the daemon has; what is selected stays. -/
structure ReadEffect (store : MailStore) (app app' : AppState) : Prop where
  place : app'.place = app.place
  lists : app.Lists → app'.Lists
  effect : app.folderCache.Keyed →
    (app'.folderMessages = app.folderMessages ∧ app'.folderCache = app.folderCache) ∨
      ∃ id m, store.get id = some m ∧ FlagEffect app app' id m.item.flags

variable {store : MailStore} {mailbox : Mailbox} {now : Nat}

/-- Nothing that the cache is about is changed. -/
structure SameRows (app app' : AppState) : Prop where
  place : app'.place = app.place
  messages : app'.messages = app.messages
  rows : app'.folderMessages = app.folderMessages
  cache : app'.folderCache = app.folderCache

theorem SameRows.refl : app.SameRows app := ⟨rfl, rfl, rfl, rfl⟩

theorem sameRows_clearError : app.SameRows app.clearError := ⟨rfl, rfl, rfl, rfl⟩

theorem sameRows_setError (error : String) : app.SameRows (app.setError error) :=
  ⟨rfl, rfl, rfl, rfl⟩

theorem SameRows.lists {app' : AppState} (h : app.SameRows app') (hlists : app.Lists) :
    app'.Lists := by
  unfold Lists
  rw [h.messages, h.rows]
  exact hlists

theorem ReadEffect.quiet {app' : AppState} (h : app.SameRows app') : ReadEffect store app app' :=
  ⟨h.place, h.lists, fun _ => .inl ⟨h.rows, h.cache⟩⟩

theorem ReadEffect.before {old app' : AppState} (h : app.SameRows old)
    (heffect : ReadEffect store old app') : ReadEffect store app app' := by
  refine ⟨heffect.place.trans h.place, fun hlists => heffect.lists (h.lists hlists),
    fun hkeyed => ?_⟩
  rw [← h.cache] at hkeyed
  rcases heffect.effect hkeyed with ⟨hrows, hcache⟩ | ⟨id, m, hget, hflags⟩
  · exact .inl ⟨hrows.trans h.rows, hcache.trans h.cache⟩
  · refine .inr ⟨id, m, hget, ?_⟩
    cases hflags with
    | quiet hrows hcache hunlisted =>
      rw [h.rows] at hunlisted
      exact .quiet (hrows.trans h.rows) (hcache.trans h.cache) hunlisted
    | stored hrows hcache hlisted =>
      rw [h.rows] at hrows hlisted
      rw [h.cache, selectedKey_of_place h.place] at hcache
      exact .stored hrows hcache hlisted

theorem ReadEffect.after {app' app'' : AppState} (heffect : ReadEffect store app app')
    (h : app'.SameRows app'') : ReadEffect store app app'' := by
  refine ⟨h.place.trans heffect.place, fun hlists => h.lists (heffect.lists hlists),
    fun hkeyed => ?_⟩
  rcases heffect.effect hkeyed with ⟨hrows, hcache⟩ | ⟨id, m, hget, hflags⟩
  · exact .inl ⟨h.rows.trans hrows, h.cache.trans hcache⟩
  · refine .inr ⟨id, m, hget, ?_⟩
    cases hflags with
    | quiet hrows hcache hunlisted =>
      exact .quiet (h.rows.trans hrows) (h.cache.trans hcache) hunlisted
    | stored hrows hcache hlisted =>
      refine .stored (h.rows.trans hrows) ?_ hlisted
      rw [h.cache, h.rows]
      exact hcache

theorem readEffect_writeRowFlags {id : Uuid} {m : StoredMessage} (hget : store.get id = some m) :
    ReadEffect store app (app.writeRowFlags id m.item.flags now) where
  place := place_writeRowFlags id m.item.flags
  lists h := lists_writeRowFlags h id m.item.flags now
  effect hkeyed := .inr ⟨id, m, hget, flagEffect_writeRowFlags hkeyed id m.item.flags now⟩

/-- The detail has the flags of the stored message. -/
def Reports (store : MailStore) (detail : MessageDetail) : Prop :=
  ∃ m, store.get detail.id = some m ∧ m.item.flags = detail.flags

theorem readEffect_applyDetail {detail : Option MessageDetail}
    (h : ∀ d, detail = some d → Reports store d) :
    ReadEffect store app (app.applyDetail detail now) := by
  unfold applyDetail
  generalize hold : (if app.detail.map (·.id) = detail.map (·.id) then app
    else app.clearAttachments) = old
  have hsame : app.SameRows old := by
    rw [← hold]
    split_ifs
    · exact .refl
    · exact ⟨rfl, rfl, rfl, rfl⟩
  cases detail with
  | none => exact .before hsame (.quiet ⟨rfl, rfl, rfl, rfl⟩)
  | some detail =>
    obtain ⟨m, hget, hflags⟩ := h detail rfl
    have hwritten := @readEffect_writeRowFlags old store now detail.id m hget
    rw [hflags] at hwritten
    exact .before hsame (hwritten.after ⟨rfl, rfl, rfl, rfl⟩)

theorem readEffect_cacheConversationDetail {detail : MessageDetail} (h : Reports store detail) :
    ReadEffect store app (app.cacheConversationDetail detail now) := by
  obtain ⟨m, hget, hflags⟩ := h
  have hwritten := @readEffect_writeRowFlags app store now detail.id m hget
  rw [hflags] at hwritten
  refine hwritten.after ?_
  unfold cacheConversationDetail
  dsimp only
  split_ifs
  · exact ⟨rfl, rfl, rfl, rfl⟩
  · exact ⟨rfl, rfl, rfl, rfl⟩

theorem sameRows_refreshAttachments : app.SameRows (app.refreshAttachments mailbox) := by
  unfold refreshAttachments
  split
  · exact ⟨rfl, rfl, rfl, rfl⟩
  · split
    · dsimp only
      split_ifs
      · exact ⟨rfl, rfl, rfl, rfl⟩
      · unfold refreshAttachmentPreview
        split
        · exact ⟨rfl, rfl, rfl, rfl⟩
        · split
          · exact ⟨rfl, rfl, rfl, rfl⟩
          · exact ⟨rfl, rfl, rfl, rfl⟩
    · exact ⟨rfl, rfl, rfl, rfl⟩

end AppState

/-- The daemon's answers from the store; `rest` has the texts, and where a call fails. -/
def MailStore.mailbox (store : MailStore) (rest : Mailbox) : Mailbox :=
  { rest with
    listMessages := fun folder => (rest.listMessages folder).map fun _ => store.listByFolder folder
    getMessage := fun id => (rest.getMessage id).map fun found =>
      (store.get id).bind fun m => found.map fun detail => { detail with id, flags := m.item.flags } }

namespace AppState

variable {app : AppState} {store : MailStore} {rest : Mailbox} {now : Nat}

theorem listed_mailbox {folder : Uuid} {messages : List MessageItem}
    (h : (store.mailbox rest).listMessages folder = .ok messages) :
    messages = store.listByFolder folder := by
  obtain ⟨found, -, hlisted⟩ := map_eq_ok.mp h
  exact hlisted.symm

theorem reports_mailbox {id : Uuid} {detail : MessageDetail}
    (h : (store.mailbox rest).getMessage id = .ok (some detail)) : Reports store detail := by
  obtain ⟨found, -, hfound⟩ := map_eq_ok.mp h
  obtain ⟨m, hget, hdetail⟩ := Option.bind_eq_some_iff.mp hfound
  obtain ⟨d, -, rfl⟩ := Option.map_eq_some_iff.mp hdetail
  exact ⟨m, hget, rfl⟩

theorem readEffect_refreshDetail :
    ReadEffect store app (app.refreshDetail (store.mailbox rest) now) := by
  unfold refreshDetail
  split
  · exact readEffect_applyDetail fun d h => nomatch h
  · split
    · next message hmessage detail hdetail =>
      have happlied : ReadEffect store app (app.clearError.applyDetail detail now) := by
        refine .before sameRows_clearError (readEffect_applyDetail ?_)
        rintro d rfl
        exact reports_mailbox hdetail
      dsimp only
      split_ifs
      · exact happlied.after sameRows_refreshAttachments
      · exact happlied
    · exact .quiet (sameRows_setError _)

/-! ## Whole listings -/

/-- The rows are these now, and they are stored. -/
structure RowsEffect (app app' : AppState) (rows : List MessageItem) : Prop where
  place : app'.place = app.place
  lists : app'.Lists
  shown : app'.folderMessages = rows
  cache : app.folderCache.Keyed → StoredOver app.folderCache app'.folderCache app.selectedKey rows

theorem RowsEffect.trans {mid app' : AppState} {rows rows' : List MessageItem}
    (h : RowsEffect app mid rows) (h' : RowsEffect mid app' rows') : RowsEffect app app' rows' where
  place := h'.place.trans h.place
  lists := h'.lists
  shown := h'.shown
  cache hkeyed := by
    have hmid := h.cache hkeyed
    have hnew := h'.cache hmid.keyed
    rw [selectedKey_of_place h.place] at hnew
    exact hmid.trans hnew

/-- An action that takes other steps first, which leave the rows alone. -/
theorem RowsEffect.before {old app' : AppState} {rows : List MessageItem} (h : app.SameRows old)
    (heffect : RowsEffect old app' rows) : RowsEffect app app' rows where
  place := heffect.place.trans h.place
  lists := heffect.lists
  shown := heffect.shown
  cache hkeyed := by
    have hnew := heffect.cache (h.cache ▸ hkeyed)
    rw [h.cache, selectedKey_of_place h.place] at hnew
    exact hnew

theorem RowsEffect.after {app' app'' : AppState} {rows : List MessageItem}
    (heffect : RowsEffect app app' rows) (h : app'.SameRows app'') : RowsEffect app app'' rows where
  place := h.place.trans heffect.place
  lists := h.lists heffect.lists
  shown := h.rows.trans heffect.shown
  cache hkeyed := by
    rw [h.cache]
    exact heffect.cache hkeyed

/-- Flags are written to a message that has a row. -/
theorem rowsEffect_applyMessageFlags (hlists : app.Lists) {id : Uuid}
    (hlisted : listsMessage id app.folderMessages = true) (flags : List String) :
    RowsEffect app (app.applyMessageFlags id flags now)
      (setRowFlags id flags app.folderMessages) := by
  have hsame : app.SameRows { app with detail := app.detail.map fun detail =>
      if detail.id = id then { detail with flags } else detail } := ⟨rfl, rfl, rfl, rfl⟩
  refine .before hsame ?_
  exact {
    place := place_writeRowFlags id flags
    lists := lists_writeRowFlags (hsame.lists hlists) id flags now
    shown := writeRowFlags_folderMessages id flags now
    cache := fun hkeyed => storedOver_writeRowFlags hkeyed hlisted flags now }

/-- The last step of an action that shows rows: they are stored as they are. -/
theorem rowsEffect_store {shown : AppState} {rows : List MessageItem}
    (hplace : shown.place = app.place) (hlists : shown.Lists) (hrows : shown.folderMessages = rows)
    (hcache : shown.folderCache = app.folderCache) :
    RowsEffect app (shown.storeSelectedFolderCache shown.selectedAccountId shown.selectedFolderId
      now) rows := by
  obtain ⟨folderCache, heq⟩ :=
    shown.storeSelectedFolderCache_eq shown.selectedAccountId shown.selectedFolderId now
  refine ⟨(place_storeSelectedFolderCache _ _).trans hplace, ?_, ?_, fun hkeyed => ?_⟩
  · rw [heq]
    exact hlists
  · rw [heq]
    exact hrows
  · rw [← hcache] at hkeyed
    have hstored := @storedOver_storeSelected shown hkeyed now
    rw [hcache, selectedKey_of_place hplace, hrows] at hstored
    exact hstored

theorem rowsEffect_applyFolderMessages (messages : List MessageItem) :
    RowsEffect app (app.applyFolderMessages messages now) messages := by
  have hlists := @lists_refreshVisibleMessages (({ app with folderMessages := messages } :
    AppState).rebuildThreads app.selectedThreadKey)
  exact @rowsEffect_store app now ((({ app with folderMessages := messages } :
    AppState).rebuildThreads
      app.selectedThreadKey).refreshVisibleMessages.normalizeActivePane.clearDetailState)
    messages rfl hlists rfl rfl

theorem rowsEffect_restoreMessageListSnapshot (snapshot : MessageListSnapshot) :
    RowsEffect app (app.restoreMessageListSnapshot snapshot now) snapshot.folderMessages := by
  have hlists := @lists_refreshVisibleMessages { (({ app with
    folderMessages := snapshot.folderMessages } : AppState).rebuildThreads none) with
    selectedThread := clampIndex snapshot.selectedThread (({ app with
      folderMessages := snapshot.folderMessages } : AppState).rebuildThreads none).threads.length }
  unfold restoreMessageListSnapshot
  dsimp only
  exact rowsEffect_store rfl hlists rfl rfl

theorem removeMessageLocally_of_unlisted {id : Uuid}
    (h : listsMessage id app.folderMessages = false) :
    (app.removeMessageLocally id now).1 = app := by
  unfold removeMessageLocally
  rw [h]
  rfl

theorem rowsEffect_removeMessageLocally {id : Uuid}
    (h : listsMessage id app.folderMessages = true) :
    RowsEffect app (app.removeMessageLocally id now).1
      (app.folderMessages.filter fun message => message.id ≠ id) := by
  unfold removeMessageLocally
  rw [h]
  simp only [Bool.not_true, Bool.false_eq_true, if_false]
  have hshown := @lists_refreshVisibleMessages (({ app with
    folderMessages := app.folderMessages.filter fun message => message.id ≠ id } :
      AppState).rebuildThreads app.selectedThreadKey)
  split_ifs
  · exact rowsEffect_store rfl hshown rfl rfl
  · exact rowsEffect_store rfl hshown rfl rfl

theorem lists_restoreFolderSnapshot (snapshot : FolderSnapshot) :
    (app.restoreFolderSnapshot snapshot).Lists :=
  @lists_refreshVisibleMessages (({ app with folderMessages := snapshot.folderMessages } :
    AppState).rebuildThreads snapshot.selectedThreadKey)

end AppState

end Postblox.Tui
