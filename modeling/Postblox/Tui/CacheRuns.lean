import Postblox.Tui.CacheSessions
import Postblox.Tui.FlagRuns

/-!
# The cache along a session

A listing that comes from the cache is the daemon's along every run whose steps take care. Each
action keeps the cache to be trusted: the moves drop rows and no entry, the daemon's changes are
owed an event or touch nothing that is cached, and the client's own writes go through the rows.
-/
namespace Postblox.Tui

open Lib

/-! ## Moves -/

section Moves

variable {store : MailStore} {owed : Uuid × Uuid → Prop} {app : AppState}

theorem moveIndex_le (index len : Nat) (delta : Int) : (moveIndex index len delta).1 ≤ len - 1 := by
  unfold moveIndex
  dsimp only
  split_ifs
  · exact Nat.zero_le _
  · dsimp only
    omega
  · dsimp only
    omega

theorem clampIndex_le (index len : Nat) : clampIndex index len ≤ len - 1 := by
  unfold clampIndex
  split_ifs
  · exact Nat.zero_le _
  · exact Nat.min_le_right _ _

/-- The predefined folder of approvals is no mail folder. -/
theorem kind_of_mem_virtualFolders {folder : FolderItem} (h : folder ∈ virtualFolders) :
    folder.kind ≠ .mail := by
  rw [List.mem_singleton.mp h]
  decide

theorem Trusted.applyAccounts (h : Trusted store owed app) (accounts : List AccountItem) :
    Trusted store owed (app.applyAccounts accounts) := by
  refine h.relocate List.filter_sublist (fun m hm => nomatch hm) ?_ (clampIndex_le _ _)
  intro account _ folder hfolder hmail
  exact absurd hmail (kind_of_mem_virtualFolders hfolder)

theorem Trusted.applyFolders (h : Trusted store owed app) {folders : List FolderItem}
    (howns : ∀ account, app.selectedAccountId = some account →
      ∀ folder ∈ folders, folder.kind = .mail → store.owner folder.id = account) :
    Trusted store owed (app.applyFolders folders) := by
  refine h.relocate (List.Sublist.refl _) (fun m hm => nomatch hm) ?_ h.placed
  intro account haccount folder hfolder hmail
  rcases List.mem_append.mp hfolder with hlisted | hvirtual
  · exact howns account haccount folder (List.mem_of_mem_filter hlisted) hmail
  · exact absurd hmail (kind_of_mem_virtualFolders hvirtual)

theorem Trusted.moveAccount (h : Trusted store owed app) (delta : Int) :
    Trusted store owed (app.moveAccount delta).1 := by
  have hle := moveIndex_le app.selectedAccount app.accounts.length delta
  unfold AppState.moveAccount
  dsimp only
  split_ifs with hchanged
  · refine h.relocate (List.Sublist.refl _) (fun m hm => nomatch hm) ?_ hle
    intro account _ folder hfolder hmail
    exact absurd hmail (kind_of_mem_virtualFolders hfolder)
  · refine h.relocate (List.Sublist.refl _) h.lists ?_ hle
    intro account haccount
    apply h.folders account
    -- the row stays if there is one
    cases hrows : app.accounts with
    | nil =>
      unfold AppState.selectedAccountId at haccount
      rw [hrows] at haccount
      cases haccount
    | cons first rest =>
      have hplaced := h.placed
      rw [hrows, List.length_cons] at hplaced
      have hlt : app.selectedAccount < app.accounts.length := by
        rw [hrows, List.length_cons]
        omega
      have hindex := AppState.moveIndex_unchanged hlt (Bool.eq_false_iff.mpr hchanged)
      unfold AppState.selectedAccountId at haccount ⊢
      dsimp only at haccount
      rw [hindex] at haccount
      exact haccount

theorem Trusted.moveFolder (h : Trusted store owed app) (delta : Int) :
    Trusted store owed (app.moveFolder delta).1 := by
  unfold AppState.moveFolder
  dsimp only
  split_ifs
  · exact h.relocate (List.Sublist.refl _) (fun m hm => nomatch hm) h.folders h.placed
  · exact h.relocate (List.Sublist.refl _) h.lists h.folders h.placed

theorem Trusted.moveThread (h : Trusted store owed app) (delta : Int) :
    Trusted store owed (app.moveThread delta).1 := by
  unfold AppState.moveThread
  dsimp only
  split_ifs
  · refine h.relocate (List.Sublist.refl _) ?_ h.folders h.placed
    exact @AppState.lists_refreshVisibleMessages { app with
      selectedThread := (moveIndex app.selectedThread app.threads.length delta).1
      selectedMessage := 0 }
  · exact h.relocate (List.Sublist.refl _) h.lists h.folders h.placed

theorem Trusted.selectAccountAt (h : Trusted store owed app) {index : Nat}
    (hindex : index < app.accounts.length) : Trusted store owed (app.selectAccountAt index) := by
  unfold AppState.selectAccountAt
  split_ifs
  · exact h
  · refine h.relocate (List.Sublist.refl _) (fun m hm => nomatch hm) ?_ (Nat.le_sub_one_of_lt hindex)
    intro account _ folder hfolder hmail
    exact absurd hmail (kind_of_mem_virtualFolders hfolder)

theorem Trusted.selectFolderAt (h : Trusted store owed app) (index : Nat) :
    Trusted store owed (app.selectFolderAt index) := by
  unfold AppState.selectFolderAt
  split_ifs
  · exact h
  · exact h.relocate (List.Sublist.refl _) (fun m hm => nomatch hm) h.folders h.placed

theorem Trusted.jumpToHit (h : Trusted store owed app) (hit : SearchHit) :
    Trusted store owed (app.jumpToHit hit).1 := by
  unfold AppState.jumpToHit
  split
  · exact h
  · next index hfound =>
    have hlt : index < app.accounts.length := (List.findIdx?_eq_some_iff_getElem.mp hfound).1
    have hmoved : Trusted store owed (app.selectHitAccount index) := by
      unfold AppState.selectHitAccount
      split_ifs
      · exact h
      · refine h.relocate (List.Sublist.refl _) (fun m hm => nomatch hm) ?_
          (Nat.le_sub_one_of_lt hlt)
        intro account _ folder hfolder
        cases hfolder
    exact hmoved.relocate (List.Sublist.refl _) hmoved.lists hmoved.folders hmoved.placed

theorem Trusted.invalidateSelectedFolderCache (h : Trusted store owed app) :
    Trusted store owed app.invalidateSelectedFolderCache := by
  unfold AppState.invalidateSelectedFolderCache
  split
  · exact h.relocate List.filter_sublist h.lists h.folders h.placed
  · exact h

end Moves

/-! ## What the daemon does -/

namespace MailStore

variable {store : MailStore}

theorem shows_setFlags_of_untouched {id folder : Uuid} {flags : List String}
    (h : ¬ store.FlagsTouch id flags folder) :
    (store.setFlags id flags).shows folder = store.shows folder := by
  by_cases hfolder : store.folderOf id = some folder
  · obtain ⟨m, hget, hm⟩ := Option.map_eq_some_iff.mp hfolder
    have hflags : m.item.flags = flags := by
      by_contra hne
      exact h ⟨m, hget, hm, hne⟩
    rw [shows_setFlags, ← hflags, map_flagRow_stored hget]
  · exact shows_setFlags_elsewhere flags hfolder

theorem shows_setFolder_of_untouched {id target folder : Uuid}
    (h : ¬ store.MoveTouches id target folder) :
    (store.setFolder id target).shows folder = store.shows folder := by
  by_cases hself : store.folderOf id = some target
  · rw [setFolder_self fun source hsource => Option.some.inj (hsource.symm.trans hself)]
  · have hother : ¬ (store.folderOf id = some folder ∨ target = folder) := fun hboth =>
      h ⟨hself, hboth⟩
    rw [not_or] at hother
    exact shows_setFolder_elsewhere (Ne.symm hother.2) hother.1

theorem owner_withRows {store' : MailStore} {folder : Uuid} {rows : List StoredMessage}
    (h : store.withRows folder rows = some store') : store'.owner = store.owner := by
  unfold withRows at h
  dsimp only at h
  split_ifs at h
  cases h
  rfl

end MailStore

namespace Session

variable {crates : Crates} {s s' : Session} {id folder target : Uuid} {flags : List String}
  {key : Uuid × Uuid}

theorem owed_append (app : AppState) (store : MailStore) (pending more : List Notice) :
    (⟨app, store, pending ++ more⟩ : Session).Owed crates key ↔
      (⟨app, store, pending⟩ : Session).Owed crates key ∨ ∃ notice ∈ more, notice.Drops crates key := by
  unfold Owed
  constructor
  · rintro ⟨notice, hnotice, hdrops⟩
    rcases List.mem_append.mp hnotice with hold | hnew
    · exact .inl ⟨notice, hold, hdrops⟩
    · exact .inr ⟨notice, hnew, hdrops⟩
  · rintro (⟨notice, hnotice, hdrops⟩ | ⟨notice, hnotice, hdrops⟩)
    · exact ⟨notice, List.mem_append_left _ hnotice, hdrops⟩
    · exact ⟨notice, List.mem_append_right _ hnotice, hdrops⟩

/-- An event that drops nothing is owed to no one. -/
theorem owed_append_silent (app : AppState) (store : MailStore) (pending : List Notice)
    {notice : Notice} (h : ∀ key, ¬ notice.Drops crates key) :
    (⟨app, store, pending ++ [notice]⟩ : Session).Owed crates =
      (⟨app, store, pending⟩ : Session).Owed crates := by
  funext key
  apply propext
  rw [owed_append, or_iff_left]
  rintro ⟨other, hother, hdrops⟩
  rw [List.mem_singleton.mp hother] at hdrops
  exact h key hdrops

/-- What an operation on the flags of a message does, and that its event drops nothing. -/
theorem storeFlags_spec (id : Uuid) (flags : List String) :
    (s.storeFlags id flags).app = s.app ∧
      (s.storeFlags id flags).store = s.store.setFlags id flags ∧
      (s.storeFlags id flags).Owed crates = s.Owed crates := by
  unfold storeFlags
  split_ifs with hchanges
  · exact ⟨rfl, rfl, owed_append_silent s.app _ s.pending fun key => not_drops_flagsUpdated⟩
  · refine ⟨rfl, (MailStore.setFlags_self fun m hget => ?_).symm, rfl⟩
    rw [hget, Option.any_some, decide_eq_true_eq, not_not] at hchanges
    exact hchanges

theorem storeFolder_spec (id target : Uuid) :
    (s.storeFolder id target).app = s.app ∧
      (s.storeFolder id target).store = s.store.setFolder id target ∧
      (s.storeFolder id target).Owed crates = s.Owed crates := by
  unfold storeFolder
  split
  · next hnone =>
    refine ⟨rfl, (MailStore.setFolder_self fun source hsource => ?_).symm, rfl⟩
    rw [hnone] at hsource
    cases hsource
  · next source hsource =>
    split_ifs with hself
    · refine ⟨rfl, (MailStore.setFolder_self fun other hother => ?_).symm, rfl⟩
      rw [hsource] at hother
      rw [← Option.some.inj hother, hself]
    · exact ⟨rfl, rfl, owed_append_silent s.app _ s.pending fun key => not_drops_folderUpdated⟩

/-- A sync changes one folder, and owes it what it announces. -/
theorem storeRows_spec {rows : List StoredMessage} {announced : List Announcement}
    (h : s.storeRows folder rows announced = some s') :
    s'.app = s.app ∧ s'.store.owner = s.store.owner ∧
      (∀ other, other ≠ folder → s'.store.shows other = s.store.shows other) ∧
      (∀ key, s.Owed crates key → s'.Owed crates key) ∧
      (announced ≠ [] → s'.Owed crates (s.store.owner folder, folder)) := by
  obtain ⟨store, hrows, rfl⟩ := Option.map_eq_some_iff.mp h
  refine ⟨rfl, MailStore.owner_withRows hrows,
    fun other hne => MailStore.shows_withRows hrows hne, fun key howed => ?_, fun hsome => ?_⟩
  · exact (owed_append s.app store s.pending _).mpr (.inl howed)
  · obtain ⟨first, rest, rfl⟩ := List.exists_cons_of_ne_nil hsome
    exact (owed_append s.app store s.pending _).mpr (.inr ⟨_, List.mem_cons_self,
      Announcement.drops (s.store.owner folder) folder first⟩)

/-- The cache of the client can be trusted. -/
def Coherent (crates : Crates) (s : Session) : Prop := Trusted s.store (s.Owed crates) s.app

theorem Coherent.storeFlags (h : s.Coherent crates)
    (hspares : s.Spares crates (s.store.FlagsTouch id flags) none) :
    (s.storeFlags id flags).Coherent crates := by
  obtain ⟨happ, hstore, howed⟩ := @storeFlags_spec crates s id flags
  unfold Coherent
  rw [happ, hstore, howed]
  refine h.next rfl fun entry hentry hnot => ⟨hnot, ?_⟩
  exact MailStore.shows_setFlags_of_untouched (hspares entry hentry (Option.some_ne_none _) hnot)

theorem Coherent.storeFolder (h : s.Coherent crates)
    (hspares : s.Spares crates (s.store.MoveTouches id target) none) :
    (s.storeFolder id target).Coherent crates := by
  obtain ⟨happ, hstore, howed⟩ := @storeFolder_spec crates s id target
  unfold Coherent
  rw [happ, hstore, howed]
  refine h.next rfl fun entry hentry hnot => ⟨hnot, ?_⟩
  exact MailStore.shows_setFolder_of_untouched (hspares entry hentry (Option.some_ne_none _) hnot)

/-- A change that is announced. -/
theorem Coherent.storeRows (h : s.Coherent crates) {rows : List StoredMessage}
    {announced : List Announcement} (hsome : announced ≠ [])
    (hstep : s.storeRows folder rows announced = some s') : s'.Coherent crates := by
  obtain ⟨happ, howner, hothers, hmore, howes⟩ := @storeRows_spec crates s s' folder rows announced hstep
  unfold Coherent
  rw [happ]
  refine h.next howner fun entry hentry hnot => ⟨fun howed => hnot (hmore _ howed), ?_⟩
  apply hothers
  rintro rfl
  apply hnot
  have howed := howes hsome
  rw [h.owned entry hentry] at howed
  exact howed

theorem Coherent.notified (h : s.Coherent crates) (notice : Notice) :
    Coherent crates { s with pending := s.pending ++ [notice] } := by
  refine h.next rfl fun entry _ hnot => ⟨fun howed => hnot ?_, rfl⟩
  exact (owed_append s.app s.store s.pending _).mpr (.inl howed)

/-- An event that is handled drops what it was owed to. -/
theorem Coherent.handled {notice : Notice} {pending : List Notice} {app : AppState}
    {store : MailStore} (h : Coherent crates ⟨app, store, notice :: pending⟩) :
    Coherent crates ⟨onDaemonEvent crates app notice, store, pending⟩ := by
  obtain ⟨folderCache, heq, hkeyed⟩ := onDaemonEvent_eq crates app notice
  have hplace : (onDaemonEvent crates app notice).place = app.place := by
    rw [heq]
    rfl
  have hlists : (onDaemonEvent crates app notice).Lists := by
    rw [heq]
    exact h.lists
  have hkeyed' : (onDaemonEvent crates app notice).folderCache.Keyed := by
    rw [heq]
    exact hkeyed h.keyed
  have hentries : ∀ entry ∈ (onDaemonEvent crates app notice).folderCache.entries,
      entry ∈ app.folderCache.entries ∧ ¬ notice.Drops crates entry.key :=
    fun entry hentry => (mem_onDaemonEvent crates).mp hentry
  exact {
    keyed := hkeyed'
    entries := fun entry hentry => by
      obtain ⟨hold, hkept⟩ := hentries entry hentry
      rcases h.entries entry hold with ⟨other, hother, hdrops⟩ | hshown
      · rcases List.mem_cons.mp hother with rfl | hrest
        · exact absurd hdrops hkept
        · exact .inl ⟨other, hrest, hdrops⟩
      · exact .inr hshown
    owned := fun entry hentry => h.owned entry (hentries entry hentry).1
    lists := hlists
    folders := folders_of_place hplace rfl h
    placed := placed_of_place hplace h }

/-! ## What the client writes -/

/-- Rows that are shown, with the flags a message has there written over other ones. -/
theorem shown_revertFlags {rows : List MessageItem} {m : MessageItem} (hm : m ∈ rows)
    {store : MailStore} (hshown : rows.map MessageItem.shown = store.shows folder)
    (flags : List String) :
    (AppState.setRowFlags m.id m.flags (AppState.setRowFlags m.id flags rows)).map
      MessageItem.shown = store.shows folder := by
  have hdistinct := distinct_of_shown hshown
  have hwritten : ((AppState.setRowFlags m.id flags rows).map (·.id)).Nodup := by
    rw [map_id_setRowFlags]
    exact hdistinct
  have hover : MailStore.flagRow m.id m.flags ∘ MailStore.flagRow m.id flags =
      MailStore.flagRow m.id m.flags := by
    funext p
    simp only [Function.comp_apply, MailStore.flagRow]
    split_ifs
    · rfl
    · rfl
  have hrow : m.shown ∈ store.shows folder := hshown ▸ List.mem_map_of_mem hm
  obtain ⟨stored, hget, -, hflags⟩ := MailStore.of_mem_shows hrow
  have hsame : stored.item.flags = m.flags := hflags
  rw [AppState.shown_setRowFlags hwritten, AppState.shown_setRowFlags hdistinct, List.map_map,
    hover, hshown, ← hsame]
  exact map_flagRow_stored hget folder

/-- A flag is set or cleared on the selected row, by a call that is answered. -/
theorem Coherent.flagWrite (h : s.Coherent crates) {flag : String} {enabled : Bool}
    {outcome : Outcome} {now later : Nat} (hshows : s.Shows crates) (hanswered : outcome.Answered)
    (hspares : ∀ update ∈ s.app.selectedMessageFlagUpdate flag enabled,
      s.Spares crates (s.store.FlagsTouch update.1 update.2) s.app.selectedKey)
    (hstep : s.flagWrite flag enabled outcome now later = some s') : s'.Coherent crates := by
  unfold Session.flagWrite at hstep
  cases hupdate : s.app.selectedMessageFlagUpdate flag enabled with
  | none =>
    rw [hupdate] at hstep
    cases hstep
  | some update =>
    obtain ⟨id, flags⟩ := update
    obtain ⟨m, hrow, hpair⟩ := Option.map_eq_some_iff.mp hupdate
    obtain ⟨rfl, -⟩ := Prod.mk.inj hpair
    rw [hupdate, hrow] at hstep
    dsimp only [Option.map_some, Option.getD_some] at hstep
    have hm : m ∈ s.app.folderMessages := by
      apply h.lists
      unfold AppState.messageRow at hrow
      split_ifs at hrow
      exact List.mem_of_getElem? hrow
    have hlisted : AppState.listsMessage m.id s.app.folderMessages = true :=
      List.any_eq_true.mpr ⟨m, hm, decide_eq_true rfl⟩
    have hwrite := (@AppState.rowsEffect_applyMessageFlags s.app.clearError now h.lists m.id
      hlisted flags).before AppState.sameRows_clearError
    cases outcome with
    | lost error => exact hanswered.elim
    | accepted =>
      obtain rfl := Option.some.inj hstep
      obtain ⟨-, hstore, howed⟩ := @storeFlags_spec crates s m.id flags
      show Trusted (s.storeFlags m.id flags).store ((s.storeFlags m.id flags).Owed crates) _
      rw [hstore, howed]
      refine h.write hwrite.place rfl hwrite.lists (hwrite.cache h.keyed) ?_ ?_
      · intro key hkey
        rcases hshows key hkey with hpending | hshown
        · exact .inl hpending
        · right
          rw [MailStore.shows_setFlags, ← hshown]
          exact AppState.shown_setRowFlags (distinct_of_shown hshown)
      · intro entry hentry hne
        by_cases hpending : s.Owed crates entry.key
        · exact .inl hpending
        · right
          have hkept := hspares _ hupdate entry hentry hne hpending
          exact ((h.entries entry hentry).resolve_left hpending).trans
            (MailStore.shows_setFlags_of_untouched hkept).symm
    | refused error =>
      obtain rfl := Option.some.inj hstep
      have hagain : AppState.listsMessage m.id
          (s.app.clearError.applyMessageFlags m.id flags now).folderMessages = true := by
        obtain ⟨row, hmem, hid, -⟩ := exists_mem_setRowFlags m.id flags hm
        rw [hwrite.shown]
        exact List.any_eq_true.mpr ⟨row, hmem, decide_eq_true hid⟩
      have hrevert := hwrite.trans ((@AppState.rowsEffect_applyMessageFlags
        (s.app.clearError.applyMessageFlags m.id flags now) later hwrite.lists m.id hagain
        m.flags).after (AppState.sameRows_setError error))
      refine h.write hrevert.place rfl hrevert.lists (hrevert.cache h.keyed) ?_
        fun entry hentry _ => h.entries entry hentry
      intro key hkey
      rcases hshows key hkey with hpending | hshown
      · exact .inl hpending
      · right
        rw [hwrite.shown]
        exact shown_revertFlags hm hshown flags

/-- The row of a message is taken out, by a call that is answered. -/
theorem Coherent.messageRemove (h : s.Coherent crates) {outcome : Outcome} {now later : Nat}
    (hshows : s.Shows crates) (hanswered : outcome.Answered)
    (haccepted : outcome = .accepted → s.Loses crates id target ∧
      s.Spares crates (s.store.MoveTouches id target) s.app.selectedKey) :
    (s.messageRemove id target outcome now later).Coherent crates := by
  have hcleared := h.same AppState.sameRows_clearError
  have hkept : AppState.listsMessage id s.app.folderMessages = false →
      (s.app.clearError.removeMessageLocally id now).1 = s.app.clearError := fun hunlisted =>
    @AppState.removeMessageLocally_of_unlisted s.app.clearError now id hunlisted
  cases outcome with
  | lost error => exact hanswered.elim
  | accepted =>
    obtain ⟨hloses, hspares⟩ := haccepted rfl
    obtain ⟨-, hstore, howed⟩ := @storeFolder_spec crates s id target
    show Trusted (s.storeFolder id target).store ((s.storeFolder id target).Owed crates)
      (s.app.clearError.removeMessageLocally id now).1
    rw [hstore, howed]
    have hothers : ∀ entry ∈ s.app.folderCache.entries, some entry.key ≠ s.app.selectedKey →
        ¬ s.Owed crates entry.key →
          (s.store.setFolder id target).shows entry.folderId = s.store.shows entry.folderId :=
      fun entry hentry hne hpending =>
        MailStore.shows_setFolder_of_untouched (hspares entry hentry hne hpending)
    cases hlisted : AppState.listsMessage id s.app.folderMessages with
    | false =>
      rw [hkept hlisted]
      refine hcleared.next rfl fun entry hentry hpending => ⟨hpending, ?_⟩
      by_cases hkey : some entry.key = s.app.selectedKey
      · have hloses' := hloses entry.key hkey.symm hpending
        rw [hlisted, if_neg Bool.false_ne_true] at hloses'
        exact MailStore.shows_setFolder_of_untouched hloses'
      · exact hothers entry hentry hkey hpending
    | true =>
      have hremove := (@AppState.rowsEffect_removeMessageLocally s.app.clearError now id
        hlisted).before AppState.sameRows_clearError
      refine h.write hremove.place rfl hremove.lists (hremove.cache h.keyed) ?_ ?_
      · intro key hkey
        by_cases hpending : s.Owed crates key
        · exact .inl hpending
        · right
          have hloses' := hloses key hkey hpending
          rw [hlisted, if_pos rfl] at hloses'
          obtain ⟨hne, hsmall⟩ := hloses'
          rw [MailStore.shows_setFolder_source hne.symm hsmall,
            ← (hshows key hkey).resolve_left hpending, List.filter_map]
          rfl
      · intro entry hentry hne
        by_cases hpending : s.Owed crates entry.key
        · exact .inl hpending
        · right
          exact ((h.entries entry hentry).resolve_left hpending).trans
            (hothers entry hentry hne hpending).symm
  | refused error =>
    have hrestore := @AppState.rowsEffect_restoreMessageListSnapshot
      (s.app.clearError.removeMessageLocally id now).1 later s.app.clearError.snapshotMessageList
    have hboth : AppState.RowsEffect s.app.clearError
        ((s.app.clearError.removeMessageLocally id now).1.restoreMessageListSnapshot
          s.app.clearError.snapshotMessageList later) s.app.folderMessages := by
      cases hlisted : AppState.listsMessage id s.app.folderMessages with
      | false =>
        rw [hkept hlisted] at hrestore ⊢
        exact hrestore
      | true =>
        exact (@AppState.rowsEffect_removeMessageLocally s.app.clearError now id hlisted).trans
          hrestore
    have heffect := (hboth.before AppState.sameRows_clearError).after
      (AppState.sameRows_setError error)
    exact h.write heffect.place rfl heffect.lists (heffect.cache h.keyed) hshows
      fun entry hentry _ => h.entries entry hentry

/-- The selected folder is synced, and dropped from the cache or announced. -/
theorem Coherent.folderSync (h : s.Coherent crates) {rows : List StoredMessage}
    {announced : List Announcement} {outcome : Outcome}
    (hcareful : outcome.Answered ∨ announced ≠ [])
    (hstep : s.folderSync rows announced outcome = some s') : s'.Coherent crates := by
  unfold Session.folderSync at hstep
  cases haccount : s.app.selectedAccountId with
  | none =>
    rw [haccount] at hstep
    cases hstep
  | some account =>
    cases hfolder : s.app.selectedFolderId with
    | none =>
      rw [haccount, hfolder] at hstep
      cases hstep
    | some folder =>
      rw [haccount, hfolder] at hstep
      cases outcome with
      | refused error =>
        obtain rfl := Option.some.inj hstep
        exact h.same (AppState.sameRows_setError error)
      | lost error =>
        obtain ⟨synced, hrows, rfl⟩ := Option.map_eq_some_iff.mp hstep
        have hsynced := h.storeRows (hcareful.resolve_left id) hrows
        have happ := (@storeRows_spec crates s synced folder rows announced hrows).1
        unfold Coherent at hsynced
        rw [happ] at hsynced
        exact hsynced.same (AppState.sameRows_setError error)
      | accepted =>
        obtain ⟨synced, hrows, rfl⟩ := Option.map_eq_some_iff.mp hstep
        obtain ⟨-, howner, hothers, hmore, -⟩ :=
          @storeRows_spec crates s synced folder rows announced hrows
        have hkey := AppState.selectedKey_eq_some.mpr ⟨haccount, hfolder⟩
        have hdropped : s.app.clearError.invalidateSelectedFolderCache =
            s.app.clearError.folderCacheInvalidateFolder account folder := by
          unfold AppState.invalidateSelectedFolderCache
          rw [AppState.selectedAccountId_of_place AppState.sameRows_clearError.place, haccount,
            AppState.selectedFolderId_of_place AppState.sameRows_clearError.place, hfolder]
        have htrusted := (h.same AppState.sameRows_clearError).invalidateSelectedFolderCache
        show Trusted synced.store (synced.Owed crates) _
        rw [hdropped] at htrusted ⊢
        refine htrusted.next howner fun entry hentry hnot =>
          ⟨fun howed => hnot (hmore _ howed), hothers _ ?_⟩
        have hleft := (FolderMessageCache.mem_invalidateFolder.mp hentry).2
        refine htrusted.folder_ne hkey hentry fun heq => ?_
        obtain ⟨hsame, hsame'⟩ := Prod.mk.inj (Option.some.inj (heq.trans hkey))
        rcases hleft with hne | hne
        · exact hne hsame
        · exact hne hsame'

/-! ## Every action, every run -/

theorem coherent_start (store : MailStore) : (start store).Coherent crates where
  keyed := List.nodup_nil
  entries _ hentry := nomatch hentry
  owned _ hentry := nomatch hentry
  lists _ hm := nomatch hm
  folders _ haccount := nomatch haccount
  placed := Nat.le_refl 0

theorem coherent_step (h : s.Coherent crates) {action : SessionAction}
    (hcareful : s.Careful crates action) (hstep : s.step crates action = some s') :
    s'.Coherent crates := by
  cases action with
  | refresh rest now =>
    obtain rfl := Option.some.inj hstep
    exact h.refresh
  | refreshDetail rest now =>
    obtain rfl := Option.some.inj hstep
    exact (h.read hcareful AppState.readEffect_refreshDetail).1
  | fetchDetail id rest now =>
    unfold step at hstep
    dsimp only at hstep
    split at hstep
    · next detail hdetail =>
      obtain rfl := Option.some.inj hstep
      exact (h.read hcareful (.before AppState.sameRows_clearError
        (AppState.readEffect_cacheConversationDetail (AppState.reports_mailbox hdetail)))).1
    · obtain rfl := Option.some.inj hstep
      exact h
    · obtain rfl := Option.some.inj hstep
      exact h.same (AppState.sameRows_setError _)
  | invalidateSelected =>
    obtain rfl := Option.some.inj hstep
    exact h.invalidateSelectedFolderCache
  | applyAccounts accounts =>
    obtain rfl := Option.some.inj hstep
    exact h.applyAccounts accounts
  | applyFolders folders =>
    unfold step at hstep
    dsimp only at hstep
    split_ifs at hstep with howns
    obtain rfl := Option.some.inj hstep
    exact h.applyFolders howns
  | moveAccount delta =>
    obtain rfl := Option.some.inj hstep
    exact h.moveAccount delta
  | moveFolder delta =>
    obtain rfl := Option.some.inj hstep
    exact h.moveFolder delta
  | moveThread delta =>
    obtain rfl := Option.some.inj hstep
    exact h.moveThread delta
  | selectAccount index =>
    unfold step at hstep
    dsimp only at hstep
    split_ifs at hstep with hindex
    obtain rfl := Option.some.inj hstep
    exact h.selectAccountAt hindex
  | selectFolder index =>
    unfold step at hstep
    dsimp only at hstep
    split_ifs at hstep
    obtain rfl := Option.some.inj hstep
    exact h.selectFolderAt index
  | jumpToHit hit =>
    obtain rfl := Option.some.inj hstep
    exact h.jumpToHit hit
  | elsewhere after =>
    unfold step at hstep
    dsimp only at hstep
    split_ifs at hstep with hsame
    obtain rfl := Option.some.inj hstep
    exact h.same hsame
  | flagWrite flag enabled outcome now later =>
    obtain ⟨hshows, hanswered, hspares⟩ := hcareful
    exact h.flagWrite hshows hanswered hspares hstep
  | messageRemove id target outcome now later =>
    obtain ⟨hshows, hanswered, haccepted⟩ := hcareful
    obtain rfl := Option.some.inj hstep
    exact h.messageRemove hshows hanswered haccepted
  | folderSync rows announced outcome => exact h.folderSync hcareful hstep
  | synced folder rows announced => exact h.storeRows (List.cons_ne_nil _ _) hstep
  | flagged id flags =>
    obtain rfl := Option.some.inj hstep
    exact h.storeFlags hcareful
  | moved id target =>
    obtain rfl := Option.some.inj hstep
    exact h.storeFolder hcareful
  | notified notice =>
    obtain rfl := Option.some.inj hstep
    exact h.notified notice
  | handled =>
    obtain ⟨app, store, pending⟩ := s
    cases pending with
    | nil => cases hstep
    | cons notice pending =>
      obtain rfl := Option.some.inj hstep
      exact h.handled

theorem coherent_of_run (h : s.Coherent crates) {actions : List SessionAction}
    (hcareful : Machine.Guarded (step crates) (Careful crates) s actions)
    (hrun : Machine.run (step crates) s actions = some s') : s'.Coherent crates :=
  Machine.guarded_invariant (step crates) h
    (fun _ _ _ hbefore hok hstep => coherent_step hbefore hok hstep) hcareful hrun

end Session

/-- In every state that such a run reaches, rows that a refresh takes from the cache are those of
the daemon, if no event for the folder is on its way. -/
theorem served_rows_are_listed {crates : Crates} {store : MailStore} {s : Session}
    {actions : List SessionAction}
    (hcareful : Machine.Guarded (Session.step crates) (Session.Careful crates) (.start store) actions)
    (hrun : Machine.run (Session.step crates) (.start store) actions = some s)
    {account folder : Uuid} (haccount : s.app.selectedAccountId = some account)
    (hfolder : s.app.selectedFolderId = some folder) {snapshot : FolderSnapshot} {now : Nat}
    (hserved : (s.app.cachedRows now folder).1 = some snapshot)
    (hprocessed : ¬ s.Owed crates (account, folder)) (rest : Mailbox) :
    (s.app.refreshMessages (s.store.mailbox rest) now).folderMessages.map MessageItem.shown =
      s.store.shows folder := by
  have hcoherent := Session.coherent_of_run (Session.coherent_start store) hcareful hrun
  have hshows := @Trusted.served s.store (s.Owed crates) s.app rest now hcoherent folder hfolder
    snapshot hserved
  have hkey : (s.app.refreshMessages (s.store.mailbox rest) now).selectedKey =
      some (account, folder) := by
    rw [AppState.selectedKey_of_place AppState.place_refreshMessages]
    exact AppState.selectedKey_eq_some.mpr ⟨haccount, hfolder⟩
  exact (hshows (account, folder) hkey).resolve_left hprocessed

/-! ## Two folders -/

def lunchInbox : FolderItem := ⟨.mail, .filled 6, "INBOX", "inbox"⟩

def lunchArchive : FolderItem := ⟨.mail, .filled 7, "Archive", "archive"⟩

def lunchAccount : AccountItem := ⟨.filled 5, "Ann", "ann@example.org"⟩

/-- The question and the answer are in the inbox. -/
def lunchStore : MailStore where
  owner _ := lunchAccount.id
  messages := [⟨question, lunchInbox.id, 1⟩, ⟨answer, lunchInbox.id, 2⟩]
  distinct := by decide

/-- No call fails. -/
def answering : Mailbox where
  listFolders _ := .ok [lunchInbox, lunchArchive]
  listMessages _ := .ok []
  getMessage _ := .ok none
  listAttachments _ := .ok []
  previewAttachment _ := .ok ()
  listPendingApprovals := .ok []

/-- The answer is marked seen, the archive is looked at, and the inbox is selected again. -/
def markSeenAndReturn : List SessionAction :=
  [.applyAccounts [lunchAccount], .applyFolders [lunchInbox, lunchArchive], .refresh answering 0,
    .flagWrite seenFlag true .accepted 1 1, .refresh answering 2, .selectFolder 1,
    .refresh answering 3, .selectFolder 0]

/-- The inbox comes from the cache with the answer seen, as the daemon has it. -/
theorem marked_answer_is_listed_seen :
    ∃ s, Machine.run (Session.step .plain) (.start lunchStore) markSeenAndReturn = some s ∧
      (∃ snapshot, (s.app.cachedRows 4 lunchInbox.id).1 = some snapshot) ∧
      (s.app.refreshMessages (s.store.mailbox answering) 4).folderMessages.map MessageItem.shown =
        s.store.shows lunchInbox.id ∧
      s.store.shows lunchInbox.id = [(answer.id, [seenFlag]), (question.id, [])] := by
  have hcareful : Machine.Guarded (Session.step .plain) (Session.Careful .plain)
      (.start lunchStore) markSeenAndReturn := by decide
  have hreached : ∃ s ∈ Machine.run (Session.step .plain) (.start lunchStore) markSeenAndReturn,
      s.app.selectedAccountId = some lunchAccount.id ∧ s.app.selectedFolderId = some lunchInbox.id ∧
        (s.app.cachedRows 4 lunchInbox.id).1.isSome = true ∧
        ¬ s.Owed .plain (lunchAccount.id, lunchInbox.id) ∧
        s.store.shows lunchInbox.id = [(answer.id, [seenFlag]), (question.id, [])] := by decide
  obtain ⟨s, hrun, haccount, hfolder, hcached, howed, hlisted⟩ := hreached
  obtain ⟨snapshot, hserved⟩ := Option.isSome_iff_exists.mp hcached
  exact ⟨s, hrun, ⟨snapshot, hserved⟩, served_rows_are_listed hcareful hrun haccount hfolder hserved
    howed answering, hlisted⟩

/-- The archive is looked at, the answer is archived from the inbox, the event is handled and the
archive is selected again. -/
def archiveAndReturn : List SessionAction :=
  [.applyAccounts [lunchAccount], .applyFolders [lunchInbox, lunchArchive], .selectFolder 1,
    .refresh answering 0, .selectFolder 0, .refresh answering 1,
    .messageRemove answer.id lunchArchive.id .accepted 2 2, .refresh answering 3, .handled,
    .selectFolder 1]

/-- The archive comes from the cache as it was, without the answer. -/
theorem archived_answer_is_not_shown :
    ∃ s, Machine.run (Session.step .plain) (.start lunchStore) archiveAndReturn = some s ∧
      s.pending = [] ∧ s.app.selectedFolderId = some lunchArchive.id ∧
      (s.app.cachedRows 4 lunchArchive.id).1.isSome = true ∧
      (s.app.refreshMessages (s.store.mailbox answering) 4).folderMessages.map MessageItem.shown =
        [] ∧
      s.store.shows lunchArchive.id = [(answer.id, [])] := by
  have hreached : ∃ s ∈ Machine.run (Session.step .plain) (.start lunchStore) archiveAndReturn,
      s.pending.isEmpty = true ∧ s.app.selectedFolderId = some lunchArchive.id ∧
        (s.app.cachedRows 4 lunchArchive.id).1.isSome = true ∧
        (s.app.refreshMessages (s.store.mailbox answering) 4).folderMessages.map
          MessageItem.shown = [] ∧
        s.store.shows lunchArchive.id = [(answer.id, [])] := by decide
  obtain ⟨s, hrun, hpending, hfolder, hcached, hrows, hlisted⟩ := hreached
  exact ⟨s, hrun, List.isEmpty_iff.mp hpending, hfolder, hcached, hrows, hlisted⟩

end Postblox.Tui
