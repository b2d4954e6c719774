import Postblox.Tui.CacheWrites

/-!
# When the cache can be trusted

An entry of the cache has the rows that the daemon lists for its folder, or an event is on its
way that will drop it. What is written through to the cache is to be trusted if the rows that
are shown are.
-/
namespace Postblox.Tui

/-- Rows that the daemon lists for the folder, or of a key that an event is owed for. -/
def Current (store : MailStore) (owed : Uuid × Uuid → Prop) (key : Uuid × Uuid)
    (rows : List MessageItem) : Prop :=
  owed key ∨ rows.map MessageItem.shown = store.shows key.2

/-- The rows of the selected folder are current. -/
def ShowsListing (store : MailStore) (owed : Uuid × Uuid → Prop) (app : AppState) : Prop :=
  ∀ key, app.selectedKey = some key → Current store owed key app.folderMessages

/-- What holds of the client: every entry is current, is for a folder of its account and for no
other entry's folder, and the folders that can be selected are those of the account that is
selected. -/
structure Trusted (store : MailStore) (owed : Uuid × Uuid → Prop) (app : AppState) : Prop where
  keyed : app.folderCache.Keyed
  entries : ∀ entry ∈ app.folderCache.entries,
    Current store owed entry.key entry.snapshot.folderMessages
  owned : ∀ entry ∈ app.folderCache.entries, store.owner entry.folderId = entry.accountId
  lists : app.Lists
  folders : ∀ account, app.selectedAccountId = some account →
    ∀ folder ∈ app.folders, folder.kind = .mail → store.owner folder.id = account
  placed : app.selectedAccount ≤ app.accounts.length - 1

section

variable {store store' : MailStore} {owed : Uuid × Uuid → Prop} {app app' : AppState}

/-- The selected folder belongs to the selected account. -/
theorem Trusted.owner_selected (h : Trusted store owed app) {key : Uuid × Uuid}
    (hkey : app.selectedKey = some key) : store.owner key.2 = key.1 := by
  obtain ⟨haccount, hfolder⟩ := @AppState.selectedKey_eq_some app key.1 key.2 |>.mp hkey
  obtain ⟨row, hrow, hkind⟩ := Option.bind_eq_some_iff.mp hfolder
  cases hmail : row.kind with
  | approvals =>
    rw [hmail] at hkind
    cases hkind
  | mail =>
    rw [hmail] at hkind
    have howner := h.folders key.1 haccount row (List.mem_of_getElem? hrow) hmail
    rwa [Option.some.inj hkind] at howner

/-- An entry of another key is for another folder. -/
theorem Trusted.folder_ne (h : Trusted store owed app) {key : Uuid × Uuid}
    (hkey : app.selectedKey = some key) {entry : FolderCacheEntry}
    (hentry : entry ∈ app.folderCache.entries) (hne : some entry.key ≠ app.selectedKey) :
    entry.folderId ≠ key.2 := by
  intro heq
  apply hne
  have howned := h.owned entry hentry
  rw [heq, h.owner_selected hkey] at howned
  rw [hkey, FolderCacheEntry.key, heq, ← howned]

theorem folders_of_place (hplace : app'.place = app.place) (howner : store'.owner = store.owner)
    (h : Trusted store owed app) : ∀ account, app'.selectedAccountId = some account →
      ∀ folder ∈ app'.folders, folder.kind = .mail → store'.owner folder.id = account := by
  have hfolders : app'.folders = app.folders := by
    simp only [AppState.place, Prod.mk.injEq] at hplace
    exact hplace.2.1
  rw [AppState.selectedAccountId_of_place hplace, hfolders, howner]
  exact h.folders

theorem placed_of_place (hplace : app'.place = app.place) (h : Trusted store owed app) :
    app'.selectedAccount ≤ app'.accounts.length - 1 := by
  simp only [AppState.place, Prod.mk.injEq] at hplace
  rw [hplace.1, hplace.2.2.1]
  exact h.placed

/-- Rows are stored under the selected key, and the other entries stay. -/
theorem Trusted.write (h : Trusted store owed app) (hplace : app'.place = app.place)
    (howner : store'.owner = store.owner) (hlists : app'.Lists) {rows : List MessageItem}
    (hcache : StoredOver app.folderCache app'.folderCache app.selectedKey rows)
    (hrows : ∀ key, app.selectedKey = some key → Current store' owed key rows)
    (hothers : ∀ entry ∈ app.folderCache.entries, some entry.key ≠ app.selectedKey →
      Current store' owed entry.key entry.snapshot.folderMessages) :
    Trusted store' owed app' where
  keyed := hcache.keyed
  entries entry hentry := by
    rcases hcache.entries entry hentry with ⟨hkey, hnew⟩ | ⟨hold, hne⟩
    · rw [hnew]
      exact hrows entry.key hkey.symm
    · exact hothers entry hold hne
  owned entry hentry := by
    rw [howner]
    rcases hcache.entries entry hentry with ⟨hkey, -⟩ | ⟨hold, -⟩
    · exact h.owner_selected hkey.symm
    · exact h.owned entry hold
  lists := hlists
  folders := folders_of_place hplace howner h
  placed := placed_of_place hplace h

/-- Entries may go, and nothing else of the cache changes. -/
theorem Trusted.keep (h : Trusted store owed app) (hplace : app'.place = app.place)
    (howner : store'.owner = store.owner) (hlists : app'.Lists)
    (hkeyed : app'.folderCache.Keyed)
    (hentries : ∀ entry ∈ app'.folderCache.entries, entry ∈ app.folderCache.entries ∧
      Current store' owed entry.key entry.snapshot.folderMessages) :
    Trusted store' owed app' where
  keyed := hkeyed
  entries entry hentry := (hentries entry hentry).2
  owned entry hentry := by
    rw [howner]
    exact h.owned entry (hentries entry hentry).1
  lists := hlists
  folders := folders_of_place hplace howner h
  placed := placed_of_place hplace h

/-- Another place is selected, and no entry is new. -/
theorem Trusted.relocate (h : Trusted store owed app)
    (hentries : app'.folderCache.entries.Sublist app.folderCache.entries) (hlists : app'.Lists)
    (hfolders : ∀ account, app'.selectedAccountId = some account →
      ∀ folder ∈ app'.folders, folder.kind = .mail → store.owner folder.id = account)
    (hplaced : app'.selectedAccount ≤ app'.accounts.length - 1) : Trusted store owed app' where
  keyed := h.keyed.sublist hentries
  entries entry hentry := h.entries entry (hentries.subset hentry)
  owned entry hentry := h.owned entry (hentries.subset hentry)
  lists := hlists
  folders := hfolders
  placed := hplaced

/-- The daemon's messages change, and what is owed: an entry that stays in force is of a folder
whose listing stays. -/
theorem Trusted.next {owed' : Uuid × Uuid → Prop} (h : Trusted store owed app)
    (howner : store'.owner = store.owner)
    (hentries : ∀ entry ∈ app.folderCache.entries, ¬ owed' entry.key →
      ¬ owed entry.key ∧ store'.shows entry.folderId = store.shows entry.folderId) :
    Trusted store' owed' app where
  keyed := h.keyed
  entries entry hentry := by
    by_cases howed : owed' entry.key
    · exact .inl howed
    · obtain ⟨hnot, hshows⟩ := hentries entry hentry howed
      exact .inr (((h.entries entry hentry).resolve_left hnot).trans hshows.symm)
  owned entry hentry := by
    rw [howner]
    exact h.owned entry hentry
  lists := h.lists
  folders := by
    rw [howner]
    exact h.folders
  placed := h.placed

theorem Trusted.same (h : Trusted store owed app) (hsame : app.SameRows app') :
    Trusted store owed app' := by
  refine h.keep hsame.place rfl (hsame.lists h.lists) ?_ fun entry hentry => ?_
  · rw [hsame.cache]
    exact h.keyed
  · rw [hsame.cache] at hentry
    exact ⟨hentry, h.entries entry hentry⟩

/-! ## Reading -/

/-- Flags that the daemon has change no listed row. -/
theorem map_flagRow_stored {id : Uuid} {m : StoredMessage} (hget : store.get id = some m)
    (folder : Uuid) :
    (store.shows folder).map (MailStore.flagRow id m.item.flags) = store.shows folder := by
  conv_rhs => rw [← List.map_id (store.shows folder)]
  refine List.map_congr_left fun p hp => ?_
  unfold MailStore.flagRow
  split_ifs with hid
  · obtain ⟨other, hother, -, hflags⟩ := MailStore.of_mem_shows hp
    rw [hid, hget] at hother
    rw [Option.some.inj hother, hflags]
    rfl
  · rfl

/-- Rows that show a listing have every id once. -/
theorem distinct_of_shown {rows : List MessageItem} {folder : Uuid}
    (h : rows.map MessageItem.shown = store.shows folder) : (rows.map (·.id)).Nodup := by
  have hids := @MailStore.distinct_shows store folder
  rw [← h, List.map_map] at hids
  exact hids

theorem Trusted.read (h : Trusted store owed app) (hshows : ShowsListing store owed app)
    (hread : AppState.ReadEffect store app app') :
    Trusted store owed app' ∧ ShowsListing store owed app' := by
  have hkey := AppState.selectedKey_of_place hread.place
  have hquiet : app'.folderMessages = app.folderMessages →
      app'.folderCache = app.folderCache →
        Trusted store owed app' ∧ ShowsListing store owed app' := by
    intro hrows hcache
    refine ⟨h.keep hread.place rfl (hread.lists h.lists) ?_ fun entry hentry => ?_, ?_⟩
    · rw [hcache]
      exact h.keyed
    · rw [hcache] at hentry
      exact ⟨hentry, h.entries entry hentry⟩
    · unfold ShowsListing
      rw [hkey, hrows]
      exact hshows
  rcases hread.effect h.keyed with ⟨hrows, hcache⟩ | ⟨id, m, hget, heffect⟩
  · exact hquiet hrows hcache
  · cases heffect with
    | quiet hrows hcache _ => exact hquiet hrows hcache
    | stored hrows hcache _ =>
      have hcurrent : ∀ key, app.selectedKey = some key →
          Current store owed key app'.folderMessages := by
        intro key hselected
        rcases hshows key hselected with howed | hshown
        · exact .inl howed
        · right
          rw [hrows, AppState.shown_setRowFlags (distinct_of_shown hshown), hshown,
            map_flagRow_stored hget]
      refine ⟨h.write hread.place rfl (hread.lists h.lists) hcache hcurrent
        fun entry hentry _ => h.entries entry hentry, ?_⟩
      intro key hselected
      exact hcurrent key (hkey ▸ hselected)

/-! ## `refresh_messages` -/

variable {rest : Mailbox} {now : Nat}

theorem Trusted.of_fewer (h : Trusted store owed app) {folderCache : FolderMessageCache}
    (hkeyed : folderCache.Keyed)
    (hfewer : ∀ entry ∈ folderCache.entries, entry ∈ app.folderCache.entries) :
    Trusted store owed { app with folderCache } :=
  h.keep rfl rfl h.lists hkeyed fun entry hentry =>
    ⟨hfewer entry hentry, h.entries entry (hfewer entry hentry)⟩

theorem Trusted.lookup (h : Trusted store owed app) (account folder : Uuid) :
    Trusted store owed (app.folderCacheLookup account folder now).2 :=
  h.of_fewer (h.keyed.lookup now) fun _ => FolderMessageCache.mem_lookup

theorem Trusted.cachedRows (h : Trusted store owed app) (folder : Uuid) :
    Trusted store owed (app.cachedRows now folder).2 := by
  unfold AppState.cachedRows
  split_ifs
  · split
    · exact h.lookup _ folder
    · exact h
  · exact h

/-- A snapshot that is served is that of an entry of the selected folder. -/
theorem cachedRows_hit {folder : Uuid} {snapshot : FolderSnapshot}
    (hserved : (app.cachedRows now folder).1 = some snapshot) :
    ∃ account entry, app.selectedAccountId = some account ∧ entry ∈ app.folderCache.entries ∧
      entry.key = (account, folder) ∧ entry.snapshot = snapshot := by
  unfold AppState.cachedRows at hserved
  split_ifs at hserved
  cases haccount : app.selectedAccountId with
  | none =>
    rw [haccount] at hserved
    cases hserved
  | some account =>
    rw [haccount] at hserved
    obtain ⟨entry, hentry, hkey, hsnapshot⟩ := FolderMessageCache.lookup_hit hserved
    exact ⟨account, entry, rfl, hentry, hkey, hsnapshot⟩

/-- Rows that come from the cache are current. -/
theorem Trusted.restore (h : Trusted store owed app) {folder : Uuid}
    (hfolder : app.selectedFolderId = some folder) {snapshot : FolderSnapshot}
    (hserved : (app.cachedRows now folder).1 = some snapshot) :
    Trusted store owed ((app.cachedRows now folder).2.restoreFolderSnapshot snapshot) ∧
      ShowsListing store owed ((app.cachedRows now folder).2.restoreFolderSnapshot snapshot) := by
  have hlooked : Trusted store owed (app.cachedRows now folder).2 := h.cachedRows folder
  have hplace := @AppState.place_cachedRows now app folder
  obtain ⟨account, entry, haccount, hentry, hkey, rfl⟩ := cachedRows_hit hserved
  generalize (app.cachedRows now folder).2 = looked at hlooked hplace
  refine ⟨hlooked.keep rfl rfl (AppState.lists_restoreFolderSnapshot _) hlooked.keyed
    fun other hother => ⟨hother, hlooked.entries other hother⟩, ?_⟩
  intro key hselected
  have hselected' : looked.selectedKey = some key := hselected
  rw [AppState.selectedKey_of_place hplace,
    AppState.selectedKey_eq_some.mpr ⟨haccount, hfolder⟩] at hselected'
  rw [← Option.some.inj hselected', ← hkey]
  exact h.entries entry hentry

theorem Trusted.load (h : Trusted store owed app) {folder : Uuid}
    (hfolder : app.selectedFolderId = some folder) :
    Trusted store owed (app.loadMessages (store.mailbox rest) now folder) := by
  unfold AppState.loadMessages
  split
  · next messages hmessages =>
    have hlisted := AppState.listed_mailbox hmessages
    have hcleared := @AppState.sameRows_clearError app
    have hwrite := @AppState.rowsEffect_applyFolderMessages app.clearError now messages
    have hcurrent : ∀ key, app.clearError.selectedKey = some key →
        Current store owed key messages := by
      intro key hselected
      have hsame := (AppState.selectedKey_eq_some.mp hselected).2
      rw [AppState.selectedFolderId_of_place hcleared.place, hfolder] at hsame
      right
      rw [hlisted, Option.some.inj hsame]
      rfl
    have htrusted := (h.same hcleared).write hwrite.place rfl hwrite.lists
      (hwrite.cache h.keyed) hcurrent fun entry hentry _ => h.entries entry hentry
    have hshows : ShowsListing store owed (app.clearError.applyFolderMessages messages now) := by
      intro key hselected
      rw [AppState.selectedKey_of_place hwrite.place] at hselected
      rw [hwrite.shown]
      exact hcurrent key hselected
    dsimp only
    split_ifs
    · exact htrusted
    · exact (htrusted.read hshows AppState.readEffect_refreshDetail).1
  · exact h.same (AppState.sameRows_setError _)

theorem sameRows_refreshApprovals {mailbox : Mailbox} :
    app.SameRows (app.refreshApprovals mailbox) := by
  unfold AppState.refreshApprovals
  split
  · exact ⟨rfl, rfl, rfl, rfl⟩
  · exact ⟨rfl, rfl, rfl, rfl⟩

/-- Whatever it serves, a refresh leaves the cache to be trusted. -/
theorem Trusted.refresh (h : Trusted store owed app) :
    Trusted store owed (app.refreshMessages (store.mailbox rest) now) := by
  unfold AppState.refreshMessages
  split_ifs
  · exact h.same sameRows_refreshApprovals
  · cases hfolder : app.selectedFolderId with
    | none =>
      have hwrite := @AppState.rowsEffect_applyFolderMessages app now []
      have hnone : app.selectedKey = none := by
        rw [AppState.selectedKey, hfolder]
        cases app.selectedAccountId <;> rfl
      refine h.write hwrite.place rfl hwrite.lists (hwrite.cache h.keyed) ?_
        fun entry hentry _ => h.entries entry hentry
      intro key hselected
      rw [hnone] at hselected
      cases hselected
    | some folder =>
      have hplace := @AppState.place_cachedRows now app folder
      have hlooked : Trusted store owed (app.cachedRows now folder).2 := h.cachedRows folder
      have hrestored := fun snapshot => @Trusted.restore store owed app now h folder hfolder snapshot
      dsimp only
      cases hrows : app.cachedRows now folder with
      | mk served looked =>
        rw [hrows] at hplace hlooked hrestored
        cases served with
        | none =>
          exact hlooked.load ((AppState.selectedFolderId_of_place hplace).trans hfolder)
        | some snapshot =>
          obtain ⟨htrusted, hshows⟩ := hrestored snapshot rfl
          dsimp only
          split_ifs
          · exact (htrusted.read hshows AppState.readEffect_refreshDetail).1
          · exact htrusted

/-- Rows that a refresh shows from the cache are those of the daemon. -/
theorem Trusted.served (h : Trusted store owed app) {folder : Uuid}
    (hfolder : app.selectedFolderId = some folder) {snapshot : FolderSnapshot}
    (hserved : (app.cachedRows now folder).1 = some snapshot) :
    ShowsListing store owed (app.refreshMessages (store.mailbox rest) now) := by
  have hmail : app.approvalsFolderSelected = false :=
    AppState.approvalsFolderSelected_of_folder hfolder
  have hrestored := h.restore hfolder hserved
  unfold AppState.refreshMessages
  rw [hmail, hfolder]
  simp only [Bool.false_eq_true, if_false]
  cases hrows : app.cachedRows now folder with
  | mk first looked =>
    rw [hrows] at hrestored hserved
    obtain rfl : first = some snapshot := hserved
    obtain ⟨htrusted, hshows⟩ := hrestored
    dsimp only
    split_ifs
    · exact (htrusted.read hshows AppState.readEffect_refreshDetail).2
    · exact hshows

end

end Postblox.Tui
