import Postblox.Tui.Cursor
import Postblox.Tui.FlagRuns
import Postblox.Tui.UndoRemoval

/-!
# Opening a search hit

Enter in the search pane jumps to the account and the folder of the hit and loads them. What
the jump selects is reset by the folder list when it arrives: the folder that is shown is the
one at the old place or the inbox, and the message is the one the listing opens on. When
these are the folder and the message of the hit is what is told here.
-/
namespace Postblox.Tui

open Lib

namespace AppState

variable {mailbox : Mailbox} {now : Nat} {app app' : AppState}

/-! ## Loading the selected message -/

/-- The rows, the cache and the places are the same, and there is no new error. -/
structure SameView (app app' : AppState) : Prop where
  rows : app'.messageList = app.messageList
  folderCache : app'.folderCache = app.folderCache
  place : app'.place = app.place
  error : app.error = none → app'.error = none

theorem SameView.opened (h : SameView app app') (hopened : app.Opened) :
    app'.Opened ∧ app'.cursor = app.cursor := by
  have hrows := h.rows
  simp only [messageList, MessageList.mk.injEq] at hrows
  obtain ⟨hfolder, hthreads, hmessages, hthread, hmessage⟩ := hrows
  have hvisible := visibleMessages_congr hfolder hthreads hthread
  have hcursor : app'.cursor = app.cursor := by
    unfold cursor threadRow
    rw [hthreads, hmessages, hthread, hmessage]
  refine ⟨⟨?_, ?_, ?_, ?_⟩, hcursor⟩
  · rw [hthreads, hfolder]
    exact hopened.threads
  · rw [hmessages, hvisible]
    exact hopened.messages
  · rw [hcursor, hfolder]
    exact hopened.cursor
  · rw [hcursor, hthread]
    exact hopened.start

theorem sameView_refreshAttachments (hanswers : mailbox.Answers) (app : AppState) :
    SameView app (app.refreshAttachments mailbox) := by
  unfold refreshAttachments
  cases app.selectedMessageId with
  | none => exact ⟨rfl, rfl, rfl, id⟩
  | some message =>
    obtain ⟨attachments, hlist⟩ := hanswers.attachments message
    dsimp only
    rw [hlist]
    dsimp only
    split_ifs
    · exact ⟨rfl, rfl, rfl, id⟩
    · unfold refreshAttachmentPreview
      cases (app.applyAttachments attachments).selectedAttachmentId with
      | none => exact ⟨rfl, rfl, rfl, id⟩
      | some attachment =>
        obtain ⟨preview, hpreview⟩ := hanswers.preview attachment
        dsimp only
        rw [hpreview]
        exact ⟨rfl, rfl, rfl, fun _ => rfl⟩

/-- The folder is shown with the cursor, and no error is. -/
structure Showing (account folder : Uuid) (ttl : Nat) (c : Option Cursor) (app : AppState) :
    Prop where
  opened : app.Opened
  cursor : app.cursor = c
  account : app.selectedAccountId = some account
  folder : app.selectedFolderId = some folder
  error : app.error = none
  keyed : app.folderCache.Keyed
  room : app.folderCache.capacity ≠ 0
  ttl : app.folderCache.ttl = ttl

variable {account folder : Uuid} {ttl : Nat} {c : Option Cursor}

theorem Showing.mail (h : Showing account folder ttl c app) : app.approvalsFolderSelected = false :=
  approvalsFolderSelected_of_folder h.folder

theorem Showing.shownSnapshot (h : Showing account folder ttl c app) :
    app.shownSnapshot = ⟨app.folderMessages, c.map (·.thread), c.map (·.message)⟩ := by
  rw [AppState.shownSnapshot, h.opened.selectedThreadKey, h.opened.selectedMessageId h.mail,
    h.cursor]

theorem Showing.of_sameView (h : Showing account folder ttl c app) (hsame : SameView app app') :
    Showing account folder ttl c app' where
  opened := (hsame.opened h.opened).1
  cursor := (hsame.opened h.opened).2.trans h.cursor
  account := (selectedAccountId_of_place hsame.place).trans h.account
  folder := (selectedFolderId_of_place hsame.place).trans h.folder
  error := hsame.error h.error
  keyed := by
    rw [hsame.folderCache]
    exact h.keyed
  room := by
    rw [hsame.folderCache]
    exact h.room
  ttl := by
    rw [hsame.folderCache]
    exact h.ttl

/-- Flags written to the rows that are shown: a row that gets them makes the cache store the
rows. -/
theorem Showing.writeRowFlags (h : Showing account folder ttl c app) (id : Uuid)
    (flags : List String) (now : Nat) :
    Showing account folder ttl c (app.writeRowFlags id flags now) ∧
      (listsMessage id app.folderMessages = true →
        (app.writeRowFlags id flags now).folderCache = app.folderCache.store account folder
          (app.writeRowFlags id flags now).shownSnapshot now) ∧
      (listsMessage id app.folderMessages = false →
        (app.writeRowFlags id flags now).folderCache = app.folderCache ∧
        (app.writeRowFlags id flags now).folderMessages = app.folderMessages) := by
  have hplace := @place_writeRowFlags now app id flags
  have hopened := h.opened.writeRowFlags h.mail id flags now
  have herror : (app.writeRowFlags id flags now).error = none := by
    obtain ⟨folderCache, ⟨-, heq⟩ | ⟨-, heq⟩⟩ := app.writeRowFlags_eq id flags now
    · rw [heq]
      exact h.error
    · rw [heq]
      exact h.error
  have hlisted := @folderCache_writeRowFlags_of_listed app account folder id flags now h.account
    h.folder
  have hcache : (app.writeRowFlags id flags now).folderCache.Keyed ∧
      (app.writeRowFlags id flags now).folderCache.capacity ≠ 0 ∧
      (app.writeRowFlags id flags now).folderCache.ttl = ttl := by
    cases hlists : listsMessage id app.folderMessages with
    | true =>
      rw [hlisted hlists, (FolderMessageCache.store_bounds _ _).1,
        (FolderMessageCache.store_bounds _ _).2]
      exact ⟨h.keyed.store _ _, h.room, h.ttl⟩
    | false =>
      rw [folderCache_writeRowFlags_of_unlisted hlists]
      exact ⟨h.keyed, h.room, h.ttl⟩
  refine ⟨⟨hopened.1, hopened.2.trans h.cursor, ?_, ?_, herror, hcache.1, hcache.2.1, hcache.2.2⟩,
    hlisted, fun hunlisted => ⟨folderCache_writeRowFlags_of_unlisted hunlisted, ?_⟩⟩
  · rw [selectedAccountId_of_place hplace, h.account]
  · rw [selectedFolderId_of_place hplace, h.folder]
  · rw [writeRowFlags_folderMessages]
    exact setRowFlags_of_unlisted hunlisted

theorem sameView_applyDetail_none (app : AppState) (now : Nat) :
    SameView app (app.applyDetail none now) := by
  unfold applyDetail
  generalize hold : (if app.detail.map (·.id) = (none : Option MessageDetail).map (·.id) then app
    else app.clearAttachments) = old
  have hview : SameView app old := by
    rw [← hold]
    split_ifs
    · exact ⟨rfl, rfl, rfl, id⟩
    · exact ⟨rfl, rfl, rfl, id⟩
  exact ⟨hview.rows, hview.folderCache, hview.place, hview.error⟩

theorem sameView_applyDetail_some (app : AppState) (detail : MessageDetail) (now : Nat) :
    ∃ old, SameView app old ∧
      SameView (old.writeRowFlags detail.id detail.flags now) (app.applyDetail (some detail) now) := by
  refine ⟨if app.detail.map (·.id) = (some detail).map (·.id) then app else app.clearAttachments,
    ?_, rfl, rfl, rfl, id⟩
  split_ifs
  · exact ⟨rfl, rfl, rfl, id⟩
  · exact ⟨rfl, rfl, rfl, id⟩

/-- The listing has a row for the detail the daemon sends of the selected message. -/
def readsRow (mailbox : Mailbox) (rows : List MessageItem) (c : Option Cursor) : Bool :=
  c.any fun c =>
    match mailbox.getMessage c.message with
    | .ok (some detail) => listsMessage detail.id rows
    | _ => false

/-- What the cache has of the folder when the detail is loaded: the rows that are shown, if one
was written, else what it had. -/
theorem Showing.refreshDetail (hanswers : mailbox.Answers) (h : Showing account folder ttl c app)
    (now : Nat) :
    Showing account folder ttl c (app.refreshDetail mailbox now) ∧
      (readsRow mailbox app.folderMessages c = true →
        (app.refreshDetail mailbox now).folderCache.entry account folder = some ⟨account, folder,
          ⟨(app.refreshDetail mailbox now).folderMessages, c.map (·.thread), c.map (·.message)⟩,
          now⟩) ∧
      (readsRow mailbox app.folderMessages c = false →
        (app.refreshDetail mailbox now).folderCache = app.folderCache ∧
        (app.refreshDetail mailbox now).folderMessages = app.folderMessages) := by
  have hsame : ∀ app', SameView app app' → Showing account folder ttl c app' ∧
      app'.folderCache = app.folderCache ∧ app'.folderMessages = app.folderMessages :=
    fun app' hview => ⟨h.of_sameView hview, hview.folderCache, congrArg (·.folderMessages) hview.rows⟩
  have hselected : app.selectedMessageId = c.map (·.message) := by
    rw [h.opened.selectedMessageId h.mail, h.cursor]
  unfold AppState.refreshDetail
  rw [hselected]
  cases c with
  | none =>
    obtain ⟨hshown, hkept⟩ := hsame _ (sameView_applyDetail_none app now)
    exact ⟨hshown, fun hreads => (nomatch hreads), fun _ => hkept⟩
  | some x =>
    obtain ⟨detail, hget⟩ := hanswers.detail x.message
    dsimp only [Option.map_some]
    rw [readsRow, Option.any_some, hget]
    cases detail with
    | none =>
      obtain ⟨hshown, hkept⟩ := hsame (app.clearError.applyDetail none now) (by
        have hview := sameView_applyDetail_none app.clearError now
        exact ⟨hview.rows, hview.folderCache, hview.place, fun _ => hview.error rfl⟩)
      exact ⟨hshown, fun hreads => (nomatch hreads), fun _ => hkept⟩
    | some detail =>
      obtain ⟨old, hold, hview⟩ := sameView_applyDetail_some app.clearError detail now
      have hisSome : (app.clearError.applyDetail (some detail) now).detail.isSome = true := rfl
      dsimp only
      rw [if_pos hisSome]
      have hattached := sameView_refreshAttachments hanswers
        (app.clearError.applyDetail (some detail) now)
      have hfrom : SameView app old :=
        ⟨hold.rows, hold.folderCache, hold.place, fun _ => hold.error rfl⟩
      have hrows : old.folderMessages = app.folderMessages := congrArg (·.folderMessages) hfrom.rows
      obtain ⟨hwritten, hlisted, hunlisted⟩ :=
        (h.of_sameView hfrom).writeRowFlags detail.id detail.flags now
      rw [hrows] at hlisted hunlisted
      have hshown := (hwritten.of_sameView hview).of_sameView hattached
      have hend : ((app.clearError.applyDetail (some detail) now).refreshAttachments
          mailbox).folderMessages = (old.writeRowFlags detail.id detail.flags now).folderMessages :=
        (congrArg (·.folderMessages) hattached.rows).trans (congrArg (·.folderMessages) hview.rows)
      refine ⟨hshown, fun hreads => ?_, fun hreads => ?_⟩
      · rw [hattached.folderCache, hview.folderCache, hlisted hreads, hwritten.shownSnapshot, hend]
        exact (h.of_sameView hfrom).keyed.entry_store (h.of_sameView hfrom).room _ now
      · rw [hattached.folderCache, hview.folderCache, (hunlisted hreads).1, hend,
          (hunlisted hreads).2]
        exact ⟨hfrom.folderCache, rfl⟩

/-! ## Loading the folder -/

theorem Showing.withCache (h : Showing account folder ttl c app) {folderCache : FolderMessageCache}
    (hkeyed : folderCache.Keyed) (hbounds : folderCache.capacity = app.folderCache.capacity ∧
      folderCache.ttl = app.folderCache.ttl) :
    Showing account folder ttl c { app with folderCache } where
  opened := h.opened.withCache folderCache
  cursor := h.cursor
  account := h.account
  folder := h.folder
  error := h.error
  keyed := hkeyed
  room := by
    show folderCache.capacity ≠ 0
    rw [hbounds.1]
    exact h.room
  ttl := hbounds.2.trans h.ttl

theorem Showing.looked (h : Showing account folder ttl c app) (now : Nat) :
    Showing account folder ttl c
      { app with folderCache := (app.folderCache.lookup account folder now).2 } :=
  h.withCache (h.keyed.lookup now) (FolderMessageCache.lookup_bounds now)

theorem Showing.cachedRows (h : Showing account folder ttl c app) (now : Nat) :
    app.cachedRows now folder =
      ((app.folderCache.lookup account folder now).1,
        { app with folderCache := (app.folderCache.lookup account folder now).2 }) := by
  rw [AppState.cachedRows, if_pos (by rw [h.error]; rfl), h.account]
  rfl

/-- The rows of another listing, shown in the folder that is selected. -/
theorem Showing.of_rows (h : Showing account folder ttl c app) {app' : AppState} {c' : Option Cursor}
    (hopened : app'.Opened ∧ app'.cursor = c') (hplace : app'.place = app.place)
    (herror : app'.error = app.error) (hcache : app'.folderCache.Keyed ∧
      app'.folderCache.capacity = app.folderCache.capacity ∧
      app'.folderCache.ttl = app.folderCache.ttl) :
    Showing account folder ttl c' app' where
  opened := hopened.1
  cursor := hopened.2
  account := (selectedAccountId_of_place hplace).trans h.account
  folder := (selectedFolderId_of_place hplace).trans h.folder
  error := herror.trans h.error
  keyed := hcache.1
  room := by
    rw [hcache.2.1]
    exact h.room
  ttl := hcache.2.2.trans h.ttl

theorem Showing.applyFolderMessages (h : Showing account folder ttl c app)
    (messages : List MessageItem) (now : Nat) :
    let c' := openRows messages (c.map (·.thread)) (c.elim 0 (·.place)) none (c.map (·.message))
    let applied := app.applyFolderMessages messages now
    Showing account folder ttl c' applied ∧ applied.folderMessages = messages ∧
      applied.folderCache.entry account folder =
        some ⟨account, folder, ⟨messages, c'.map (·.thread), c'.map (·.message)⟩, now⟩ := by
  dsimp only
  have hopened := opened_applyFolderMessages app messages now
  rw [h.opened.selectedThreadKey, h.opened.selectedThread, h.opened.selectedMessageId h.mail,
    h.cursor] at hopened
  let shown := (({ app with folderMessages := messages } : AppState).rebuildThreads
    app.selectedThreadKey).refreshVisibleMessages.normalizeActivePane.clearDetailState
  have hmail : shown.approvalsFolderSelected = false := h.mail
  have happlied : app.applyFolderMessages messages now = { shown with
      folderCache := app.folderCache.store account folder shown.shownSnapshot now } := by
    rw [AppState.applyFolderMessages, h.account, h.folder]
    exact storeSelectedFolderCache_some hmail now
  have hcache : (app.applyFolderMessages messages now).folderCache =
      app.folderCache.store account folder (app.applyFolderMessages messages now).shownSnapshot
        now := by
    rw [happlied]
    rfl
  have hrows : (app.applyFolderMessages messages now).folderMessages = messages := by
    rw [happlied]
    rfl
  have herror : (app.applyFolderMessages messages now).error = app.error := by
    rw [happlied]
    rfl
  have hshowing := h.of_rows hopened (place_applyFolderMessages messages) herror (by
    rw [hcache]
    exact ⟨h.keyed.store _ _, FolderMessageCache.store_bounds _ _⟩)
  refine ⟨hshowing, hrows, ?_⟩
  rw [hcache, hshowing.shownSnapshot, hrows]
  exact h.keyed.entry_store h.room _ now

/-- The listing from the daemon keeps thread and message selected if they are in it, and is
stored. -/
theorem Showing.loadMessages (hanswers : mailbox.Answers) (h : Showing account folder ttl c app)
    {messages : List MessageItem} (hlist : mailbox.listMessages folder = .ok messages) (now : Nat) :
    let c' := openRows messages (c.map (·.thread)) (c.elim 0 (·.place)) none (c.map (·.message))
    let loaded := app.loadMessages mailbox now folder
    Showing account folder ttl c' loaded ∧
      loaded.folderCache.entry account folder =
        some ⟨account, folder, ⟨loaded.folderMessages, c'.map (·.thread), c'.map (·.message)⟩,
          now⟩ := by
  dsimp only
  have hcleared : Showing account folder ttl c app.clearError :=
    h.of_sameView ⟨rfl, rfl, rfl, fun _ => rfl⟩
  obtain ⟨happlied, hrows, hentry⟩ := hcleared.applyFolderMessages messages now
  obtain ⟨hshown, hlisted, hunlisted⟩ := happlied.refreshDetail hanswers now
  unfold AppState.loadMessages
  rw [hlist]
  dsimp only
  split_ifs
  · rw [hrows]
    exact ⟨happlied, hentry⟩
  · refine ⟨hshown, ?_⟩
    cases hreads : readsRow mailbox (app.clearError.applyFolderMessages messages now).folderMessages
        (openRows messages (c.map (·.thread)) (c.elim 0 (·.place)) none (c.map (·.message))) with
    | true => exact hlisted hreads
    | false =>
      rw [(hunlisted hreads).1, (hunlisted hreads).2, hrows]
      exact hentry

/-- A listing from the cache is shown with the cursor it was stored with, as far as that is in
it. -/
theorem Showing.restoreFolderSnapshot (hanswers : mailbox.Answers)
    (h : Showing account folder ttl c app) (entry : FolderCacheEntry)
    (hentry : app.folderCache.entry account folder = some entry) (now : Nat) :
    let rows := entry.snapshot.folderMessages
    let c' := openRows rows entry.snapshot.selectedThreadKey (c.elim 0 (·.place))
      entry.snapshot.selectedMessageId (c.map (·.message))
    let shown := app.restoreFolderSnapshot entry.snapshot
    let restored := if shown.selectedMessageId.isSome then shown.refreshDetail mailbox now else shown
    Showing account folder ttl c' restored ∧
      restored.folderCache.entry account folder = some
        (if readsRow mailbox rows c' then ⟨account, folder,
          ⟨restored.folderMessages, c'.map (·.thread), c'.map (·.message)⟩, now⟩ else entry) := by
  dsimp only
  have hopened := opened_restoreFolderSnapshot app entry.snapshot
  rw [h.opened.selectedThread, h.opened.selectedMessageId h.mail, h.cursor] at hopened
  have hshowing : Showing account folder ttl _ (app.restoreFolderSnapshot entry.snapshot) :=
    h.of_rows hopened rfl rfl ⟨h.keyed, rfl, rfl⟩
  obtain ⟨hshown, hlisted, hunlisted⟩ := hshowing.refreshDetail hanswers now
  have hselected := hshowing.opened.selectedMessageId hshowing.mail
  rw [hshowing.cursor] at hselected
  rw [hselected]
  have hrows : (app.restoreFolderSnapshot entry.snapshot).folderMessages =
      entry.snapshot.folderMessages := rfl
  rw [hrows] at hlisted hunlisted
  generalize openRows entry.snapshot.folderMessages entry.snapshot.selectedThreadKey
    (c.elim 0 (·.place)) entry.snapshot.selectedMessageId (c.map (·.message)) = c' at *
  cases c' with
  | none => exact ⟨hshowing, hentry⟩
  | some x =>
    have hisSome : ((some x).map (·.message)).isSome = true := rfl
    rw [if_pos hisSome]
    refine ⟨hshown, ?_⟩
    cases hreads : readsRow mailbox entry.snapshot.folderMessages (some x) with
    | true => exact hlisted hreads
    | false =>
      rw [(hunlisted hreads).1]
      exact hentry

/-- The folder is not served from the cache. -/
theorem Showing.refreshMessages_load (hanswers : mailbox.Answers)
    (h : Showing account folder ttl c app) {messages : List MessageItem}
    (hlist : mailbox.listMessages folder = .ok messages) {now : Nat}
    (hold : ∀ entry, app.folderCache.entry account folder = some entry →
      ttl < now - entry.storedAt) :
    let c' := openRows messages (c.map (·.thread)) (c.elim 0 (·.place)) none (c.map (·.message))
    let shown := app.refreshMessages mailbox now
    Showing account folder ttl c' shown ∧
      shown.folderCache.entry account folder =
        some ⟨account, folder, ⟨shown.folderMessages, c'.map (·.thread), c'.map (·.message)⟩,
          now⟩ := by
  have hmiss : (app.folderCache.lookup account folder now).1 = none := by
    apply FolderMessageCache.lookup_stale
    rw [h.ttl]
    exact hold
  have hload : app.refreshMessages mailbox now = ({ app with
      folderCache := (app.folderCache.lookup account folder now).2 } : AppState).loadMessages
        mailbox now folder := by
    rw [AppState.refreshMessages, if_neg (by rw [h.mail]; exact Bool.false_ne_true), h.folder]
    dsimp only
    rw [h.cachedRows, hmiss]
  rw [hload]
  exact (h.looked now).loadMessages hanswers hlist now

/-- The folder is served from the cache. -/
theorem Showing.refreshMessages_restore (hanswers : mailbox.Answers)
    (h : Showing account folder ttl c app) {entry : FolderCacheEntry} {now : Nat}
    (hentry : app.folderCache.entry account folder = some entry)
    (hfresh : now - entry.storedAt ≤ ttl) {c' : Option Cursor}
    (hc : openRows entry.snapshot.folderMessages entry.snapshot.selectedThreadKey
      (c.elim 0 (·.place)) entry.snapshot.selectedMessageId (c.map (·.message)) = c') :
    let shown := app.refreshMessages mailbox now
    Showing account folder ttl c' shown ∧
      shown.folderCache.entry account folder = some
        (if readsRow mailbox entry.snapshot.folderMessages c' then ⟨account, folder,
          ⟨shown.folderMessages, c'.map (·.thread), c'.map (·.message)⟩, now⟩ else entry) := by
  subst hc
  rw [← h.ttl] at hfresh
  obtain ⟨hhit, hkept⟩ := h.keyed.lookup_fresh hentry hfresh
  have hrestore : app.refreshMessages mailbox now =
      (let shown := ({ app with folderCache := (app.folderCache.lookup account folder now).2 } :
        AppState).restoreFolderSnapshot entry.snapshot
      if shown.selectedMessageId.isSome then shown.refreshDetail mailbox now else shown) := by
    rw [AppState.refreshMessages, if_neg (by rw [h.mail]; exact Bool.false_ne_true), h.folder]
    dsimp only
    rw [h.cachedRows, hhit]
  rw [hrestore]
  exact (h.looked now).restoreFolderSnapshot hanswers entry hkept now

/-- Loaded from the daemon and then refreshed, from the cache or again from the daemon, the
folder keeps its cursor. -/
theorem Showing.refreshTwice_load (hanswers : mailbox.Answers)
    (h : Showing account folder ttl none app) {messages : List MessageItem}
    (hlist : mailbox.listMessages folder = .ok messages) {t₁ : Nat} (t₂ : Nat)
    (hold : ∀ entry, app.folderCache.entry account folder = some entry →
      ttl < t₁ - entry.storedAt) :
    Showing account folder ttl (openRows messages none 0 none none)
      ((app.refreshMessages mailbox t₁).refreshMessages mailbox t₂) := by
  obtain ⟨hshown, hentry⟩ := h.refreshMessages_load hanswers hlist hold
  have hfits := hshown.opened.fits
  rw [hshown.cursor] at hfits
  by_cases hfresh : t₂ - t₁ ≤ ttl
  · exact (hshown.refreshMessages_restore hanswers hentry hfresh
      (hfits.openRows _ (.inr rfl))).1
  · have hagain := (hshown.refreshMessages_load hanswers hlist fun entry hfound => by
      rw [hentry] at hfound
      obtain rfl := Option.some.inj hfound
      exact Nat.lt_of_not_le hfresh).1
    rwa [(fitsRows_openRows messages _ _ _ _).openRows _ (.inl rfl)] at hagain

/-- Served from the cache and then refreshed, the folder keeps its cursor unless the entry gets
too old in between; then the listing from the daemon is shown at that cursor. -/
theorem Showing.refreshTwice_restore (hanswers : mailbox.Answers)
    (h : Showing account folder ttl none app) {messages : List MessageItem}
    (hlist : mailbox.listMessages folder = .ok messages) {entry : FolderCacheEntry} {t₁ : Nat}
    (t₂ : Nat) (hentry : app.folderCache.entry account folder = some entry)
    (hfresh : t₁ - entry.storedAt ≤ ttl)
    (hc : openRows entry.snapshot.folderMessages entry.snapshot.selectedThreadKey 0
      entry.snapshot.selectedMessageId none = c) :
    Showing account folder ttl
      (if ttl < t₂ - (if readsRow mailbox entry.snapshot.folderMessages c then t₁
          else entry.storedAt) then
        openRows messages (c.map (·.thread)) (c.elim 0 (·.place)) none (c.map (·.message))
      else c)
      ((app.refreshMessages mailbox t₁).refreshMessages mailbox t₂) := by
  obtain ⟨hshown, hkept⟩ := h.refreshMessages_restore hanswers hentry hfresh hc
  have hfits := hshown.opened.fits
  rw [hshown.cursor] at hfits
  -- what the second refresh finds gives the same cursor, whichever of the two it is
  have hagain : ∀ found, (app.refreshMessages mailbox t₁).folderCache.entry account folder =
      some found → openRows found.snapshot.folderMessages found.snapshot.selectedThreadKey
        (c.elim 0 (·.place)) found.snapshot.selectedMessageId (c.map (·.message)) = c := by
    intro found hfound
    rw [hkept] at hfound
    obtain rfl := Option.some.inj hfound
    split_ifs
    · exact hfits.openRows _ (.inr rfl)
    · exact openRows_again hc
  have htime : (if readsRow mailbox entry.snapshot.folderMessages c then t₁ else entry.storedAt) =
      (if readsRow mailbox entry.snapshot.folderMessages c then (⟨account, folder,
        ⟨(app.refreshMessages mailbox t₁).folderMessages, c.map (·.thread), c.map (·.message)⟩,
        t₁⟩ : FolderCacheEntry) else entry).storedAt := by
    split_ifs
    · rfl
    · rfl
  rw [htime]
  generalize (if readsRow mailbox entry.snapshot.folderMessages c then _ else entry) = found at *
  split_ifs with hold
  · refine (hshown.refreshMessages_load hanswers hlist fun other hother => ?_).1
    rw [hkept] at hother
    obtain rfl := Option.some.inj hother
    exact hold
  · exact (hshown.refreshMessages_restore hanswers hkept (Nat.le_of_not_lt hold)
      (hagain found hkept)).1

/-! ## The folder the jump ends on -/

/-- The hit is in the account that is selected. -/
def hitInSelectedAccount (app : AppState) (hit : SearchHit) : Bool :=
  app.accounts.findIdx? (fun account => account.id = hit.accountId) = some app.selectedAccount

/-- The folder rows that are known when the jump is made. -/
def knownFolders (app : AppState) (hit : SearchHit) : List FolderItem :=
  if app.hitInSelectedAccount hit then app.folders else []

/-- The row of the hit's folder if it is known, else the old one. -/
def knownRow (app : AppState) (hit : SearchHit) : Nat :=
  ((app.knownFolders hit).findIdx? fun folder => folder.id = hit.folderId).getD
    (if app.hitInSelectedAccount hit then app.selectedFolder else 0)

/-- The row of the folder list that arrives: the one at the place of the known row, or the inbox
if no folder was known. -/
def arrivingRow (app : AppState) (hit : SearchHit) (folders : List FolderItem) : Nat :=
  if (app.knownFolders hit).any (fun folder => !folder.isApprovalsVirtual) then
    clampIndex (app.knownRow hit) folders.length
  else (folders.findIdx? (·.role = "inbox")).getD 0

/-- The folder list that arrives has the hit's folder at the row that is shown, and the jump did
not start from the approvals. -/
def FolderLands (app : AppState) (hit : SearchHit) (folders : List FolderItem) : Prop :=
  ((app.knownFolders hit)[app.knownRow hit]?).any (·.isApprovalsVirtual) = false ∧
    ∃ folder, (foldersWithApprovals folders)[app.arrivingRow hit
      (foldersWithApprovals folders)]? = some folder ∧
      folder.kind = .mail ∧ folder.id = hit.folderId

theorem jumpToHit_eq {hit : SearchHit} {index : Nat}
    (hindex : app.accounts.findIdx? (fun account => account.id = hit.accountId) = some index) :
    ∃ jumped, app.jumpToHit hit = (jumped, true) ∧ jumped.accounts = app.accounts ∧
      jumped.selectedAccount = index ∧ jumped.folders = app.knownFolders hit ∧
      jumped.selectedFolder = app.knownRow hit ∧ jumped.active = .conversations ∧
      jumped.folderCache = app.folderCache := by
  unfold jumpToHit
  rw [hindex]
  refine ⟨_, rfl, ?_⟩
  unfold knownRow knownFolders hitInSelectedAccount selectHitAccount
  rw [hindex]
  by_cases hsame : app.selectedAccount = index
  · rw [if_pos hsame, if_pos (by simpa using hsame.symm), if_pos (by simpa using hsame.symm)]
    exact ⟨rfl, hsame, rfl, rfl, rfl, rfl⟩
  · rw [if_neg hsame, if_neg (by simpa using Ne.symm hsame), if_neg (by simpa using Ne.symm hsame)]
    exact ⟨rfl, rfl, rfl, rfl, rfl, rfl⟩

theorem selectedFolderId_iff {id : Uuid} : app.selectedFolderId = some id ↔
    ∃ folder, app.folders[app.selectedFolder]? = some folder ∧ folder.kind = .mail ∧
      folder.id = id := by
  rw [selectedFolderId, Option.bind_eq_some_iff]
  refine exists_congr fun row => and_congr_right fun _ => ?_
  cases row.kind with
  | mail => simp
  | approvals => simp

/-- When the folder list arrives, the hit's folder is selected exactly when it lands. -/
theorem selectedFolderId_applyFolders {hit : SearchHit} {jumped : AppState}
    (hfolders : jumped.folders = app.knownFolders hit)
    (hrow : jumped.selectedFolder = app.knownRow hit) (hactive : jumped.active = .conversations)
    (folders : List FolderItem) :
    (jumped.applyFolders folders).selectedFolderId = some hit.folderId ↔
      app.FolderLands hit folders := by
  have happrovals : jumped.approvalsFolderSelected =
      ((app.knownFolders hit)[app.knownRow hit]?).any (·.isApprovalsVirtual) := by
    rw [approvalsFolderSelected, hfolders, hrow]
  have happlied : (jumped.applyFolders folders).folders = foldersWithApprovals folders := rfl
  have hindex : (jumped.applyFolders folders).selectedFolder =
      jumped.appliedFolderIndex (foldersWithApprovals folders) := rfl
  rw [selectedFolderId_iff, happlied, hindex, FolderLands, ← happrovals]
  cases hselected : jumped.approvalsFolderSelected with
  | true =>
    have hlisted : FolderItem.approvalsVirtual ∈ foldersWithApprovals folders :=
      List.mem_append_right _ (List.mem_singleton_self _)
    obtain ⟨i, found, hfound, hget, hvirtual⟩ :=
      exists_getElem?_findIdx? (p := fun folder => folder.isApprovalsVirtual) hlisted rfl
    have hplace : jumped.appliedFolderIndex (foldersWithApprovals folders) = i := by
      rw [appliedFolderIndex, hselected, hactive]
      exact congrArg (·.getD 0) hfound
    rw [hplace, hget]
    constructor
    · rintro ⟨folder, heq, hmail, -⟩
      obtain rfl := Option.some.inj heq
      rw [FolderItem.isApprovalsVirtual, hmail] at hvirtual
      cases hvirtual
    · rintro ⟨hfalse, -⟩
      cases hfalse
  | false =>
    have hplace : jumped.appliedFolderIndex (foldersWithApprovals folders) =
        app.arrivingRow hit (foldersWithApprovals folders) := by
      rw [appliedFolderIndex, hselected, arrivingRow, hfolders, hrow]
      cases (app.knownFolders hit).any fun folder => !folder.isApprovalsVirtual with
      | true => rfl
      | false => rfl
    rw [hplace]
    exact ⟨fun h => ⟨rfl, h⟩, fun h => h.2⟩

/-- The folder that arrives is shown without rows. -/
theorem showing_applyFolders {jumped : AppState} (folders : List FolderItem)
    (haccount : (jumped.applyFolders folders).selectedAccountId = some account)
    (hfolder : (jumped.applyFolders folders).selectedFolderId = some folder)
    (herror : jumped.error = none) (hkeyed : jumped.folderCache.Keyed)
    (hroom : jumped.folderCache.capacity ≠ 0) :
    Showing account folder jumped.folderCache.ttl none (jumped.applyFolders folders) where
  opened := ⟨rfl, rfl, fun _ => rfl, fun _ => rfl⟩
  cursor := rfl
  account := haccount
  folder := hfolder
  error := herror
  keyed := hkeyed
  room := hroom
  ttl := rfl

/-! ## The hit that is opened -/

/-- The message a listing opens on: the newest one of the first conversation. -/
def opensOn (messages : List MessageItem) : Option Uuid :=
  ((buildThreads messages)[0]?.bind fun thread =>
    (threadMessages messages thread.key).getLast?).map (·.id)

theorem opensOn_eq (messages : List MessageItem) :
    opensOn messages = (openRows messages none 0 none none).map (·.message) := by
  have hplace : threadPlace messages none 0 = 0 := by
    rw [threadPlace, Option.bind_none, Option.getD_none, clampIndex]
    split_ifs
    · rfl
    · exact Nat.zero_min _
  rw [opensOn, openRows, hplace]
  cases (buildThreads messages)[0]? with
  | none => rfl
  | some thread =>
    dsimp only [Option.bind_some]
    rw [List.getLast?_eq_getElem?, Option.map_map]
    rfl

/-- The cursor a listing of the cache is opened at. -/
def restoredAt (snapshot : FolderSnapshot) : Option Cursor :=
  openRows snapshot.folderMessages snapshot.selectedThreadKey 0 snapshot.selectedMessageId none

/-- The listing is opened on the message of the hit: as the daemon sends it, or as the cache has
it, then the message the cursor was on; if the cached listing gets too old before it is looked
up again, as the daemon sends it with the cursor kept as far as it can be. -/
def MessageLands (app : AppState) (mailbox : Mailbox) (hit : SearchHit)
    (messages : List MessageItem) (t₁ t₂ : Nat) : Prop :=
  match app.folderCache.entry hit.accountId hit.folderId with
  | none => opensOn messages = some hit.messageId
  | some entry =>
    let c := restoredAt entry.snapshot
    let storedAt :=
      if readsRow mailbox entry.snapshot.folderMessages c then t₁ else entry.storedAt
    if app.folderCache.ttl < t₁ - entry.storedAt then opensOn messages = some hit.messageId
    else if app.folderCache.ttl < t₂ - storedAt then
      (openRows messages (c.map (·.thread)) (c.elim 0 (·.place)) none (c.map (·.message))).map
        (·.message) = some hit.messageId
    else c.map (·.message) = some hit.messageId

/-- Account, folder and message of the hit are selected. -/
def LandsOn (app : AppState) (hit : SearchHit) : Prop :=
  app.selectedAccountId = some hit.accountId ∧ app.selectedFolderId = some hit.folderId ∧
    app.selectedMessageId = some hit.messageId

/-- In the folder of the hit, the message is the one its listing is opened on. -/
theorem Showing.messageLands_iff (hanswers : mailbox.Answers) {hit : SearchHit}
    (h : Showing hit.accountId hit.folderId ttl none app) {messages : List MessageItem}
    (hlist : mailbox.listMessages hit.folderId = .ok messages) (t₁ t₂ t₃ : Nat) :
    (((app.refreshMessages mailbox t₁).refreshMessages mailbox t₂).refreshDetail mailbox t₃).LandsOn
      hit ↔ app.MessageLands mailbox hit messages t₁ t₂ := by
  have hlands : ∀ c, Showing hit.accountId hit.folderId ttl c
      ((app.refreshMessages mailbox t₁).refreshMessages mailbox t₂) →
      ((((app.refreshMessages mailbox t₁).refreshMessages mailbox t₂).refreshDetail mailbox
        t₃).LandsOn hit ↔ c.map (·.message) = some hit.messageId) := by
    intro c hshowing
    have hshown := (hshowing.refreshDetail hanswers t₃).1
    have hselected := hshown.opened.selectedMessageId hshown.mail
    rw [hshown.cursor] at hselected
    rw [LandsOn, hshown.account, hshown.folder, hselected]
    exact ⟨fun h => h.2.2, fun h => ⟨rfl, rfl, h⟩⟩
  unfold MessageLands
  cases hentry : app.folderCache.entry hit.accountId hit.folderId with
  | none =>
    rw [hlands _ (h.refreshTwice_load hanswers hlist t₂ fun entry hfound => by
      rw [hentry] at hfound
      cases hfound), opensOn_eq]
  | some entry =>
    dsimp only
    by_cases hold : app.folderCache.ttl < t₁ - entry.storedAt
    · rw [if_pos hold, opensOn_eq, hlands _ (h.refreshTwice_load hanswers hlist t₂ fun other hother => by
        rw [hentry] at hother
        obtain rfl := Option.some.inj hother
        rwa [← h.ttl])]
    · have hfresh : t₁ - entry.storedAt ≤ ttl := by
        rw [← h.ttl]
        exact Nat.le_of_not_lt hold
      rw [if_neg hold, hlands _ (h.refreshTwice_restore hanswers hlist t₂ hentry hfresh
        (c := restoredAt entry.snapshot) rfl), h.ttl]
      split_ifs
      · rfl
      · rfl
      · rfl
      · rfl

theorem place_refreshFolders {jumped : AppState} {folders : List FolderItem}
    (haccount : jumped.selectedAccountId = some account)
    (hfolders : mailbox.listFolders account = .ok folders) (now : Nat) :
    (jumped.refreshFolders mailbox now).place = (jumped.clearError.applyFolders folders).place := by
  rw [refreshFolders, haccount]
  dsimp only
  rw [hfolders]
  dsimp only
  split_ifs
  · rfl
  · exact place_refreshApprovals
  · exact place_refreshMessages

/-- A hit of a known account is opened exactly when its folder and its message are the ones the
listings open on. -/
theorem enterSearchHit_lands_iff (hanswers : mailbox.Answers) (hkeyed : app.folderCache.Keyed)
    (hroom : app.folderCache.capacity ≠ 0) {hit : SearchHit} (hhit : app.selectedHit = some hit)
    (hknown : ∃ account ∈ app.accounts, account.id = hit.accountId) {folders : List FolderItem}
    (hfolders : mailbox.listFolders hit.accountId = .ok folders) {messages : List MessageItem}
    (hmessages : mailbox.listMessages hit.folderId = .ok messages) (t₁ t₂ t₃ : Nat) :
    (app.enterSearchHit mailbox t₁ t₂ t₃).LandsOn hit ↔
      app.FolderLands hit folders ∧ app.MessageLands mailbox hit messages t₁ t₂ := by
  obtain ⟨known, hmem, hid⟩ := hknown
  obtain ⟨index, found, hindex, hfound, hfoundid⟩ := exists_getElem?_findIdx?
    (p := fun account => account.id = hit.accountId) hmem (by simpa using hid)
  obtain ⟨jumped, hjump, haccounts, hselected, hrows, hrow, hactive, hcache⟩ := jumpToHit_eq hindex
  have haccount : jumped.selectedAccountId = some hit.accountId := by
    rw [selectedAccountId, haccounts, hselected, hfound, Option.map_some, of_decide_eq_true hfoundid]
  let listed := jumped.clearError.applyFolders folders
  have hlisted : listed.selectedAccountId = some hit.accountId := haccount
  have hfolder : listed.selectedFolderId = some hit.folderId ↔ app.FolderLands hit folders :=
    @selectedFolderId_applyFolders app hit jumped.clearError hrows hrow hactive folders
  have henter : app.enterSearchHit mailbox t₁ t₂ t₃ =
      ((jumped.refreshFolders mailbox t₁).refreshMessages mailbox t₂).refreshDetail mailbox t₃ := by
    rw [enterSearchHit, hhit]
    dsimp only
    rw [hjump]
    rfl
  have hplace : (app.enterSearchHit mailbox t₁ t₂ t₃).place = listed.place := by
    rw [henter, place_refreshDetail, place_refreshMessages]
    exact place_refreshFolders haccount hfolders t₁
  by_cases hlands : app.FolderLands hit folders
  · have hshowing : Showing hit.accountId hit.folderId app.folderCache.ttl none listed := by
      rw [← hcache]
      refine @showing_applyFolders _ _ jumped.clearError folders hlisted (hfolder.mpr hlands) rfl
        ?_ ?_
      · show jumped.folderCache.Keyed
        rw [hcache]
        exact hkeyed
      · show jumped.folderCache.capacity ≠ 0
        rw [hcache]
        exact hroom
    have hsome : folders.length ≠ 0 := by
      intro hlength
      obtain ⟨-, row, hget, hmail, -⟩ := hlands
      rw [List.length_eq_zero_iff.mp hlength] at hget
      rw [List.mem_singleton.mp (List.mem_of_getElem? hget)] at hmail
      cases hmail
    have hrefreshed : jumped.refreshFolders mailbox t₁ = listed.refreshMessages mailbox t₁ := by
      rw [refreshFolders, haccount]
      dsimp only
      rw [hfolders]
      dsimp only
      rw [if_neg hsome, if_neg (by rw [hshowing.mail]; exact Bool.false_ne_true)]
    have hmessage := hshowing.messageLands_iff hanswers hmessages t₁ t₂ t₃
    rw [henter, hrefreshed, hmessage]
    have hentry : listed.folderCache = app.folderCache := hcache
    rw [MessageLands, MessageLands, hentry]
    exact (and_iff_right hlands).symm
  · constructor
    · intro h
      rw [LandsOn, selectedFolderId_of_place hplace] at h
      exact absurd (hfolder.mp h.2.1) hlands
    · exact fun h => absurd h.1 hlands

end AppState

/-! ## A hit in the archive -/

/-- Every account has an archive, with a question and its answer, and an empty inbox. -/
def archiveFolders : List FolderItem :=
  [⟨.mail, .filled 22, "Archive", "archive"⟩, ⟨.mail, .filled 21, "Inbox", "inbox"⟩]

def archivedLunch : Mailbox where
  listFolders := fun _ => .ok archiveFolders
  listMessages := fun folder => .ok (if folder = .filled 22 then [answer, question] else [])
  getMessage := fun _ => .ok none
  listAttachments := fun _ => .ok []
  previewAttachment := fun _ => .ok ()
  listPendingApprovals := .ok []

theorem archivedLunch_answers : archivedLunch.Answers :=
  ⟨fun _ => ⟨_, rfl⟩, fun _ => ⟨_, rfl⟩, fun _ => ⟨_, rfl⟩, fun _ => ⟨_, rfl⟩, fun _ => ⟨_, rfl⟩,
    ⟨_, rfl⟩⟩

/-- The answer, in the archive of the second account. -/
def archivedAnswer : SearchHit := ⟨.filled 2, .filled 6, .filled 22⟩

/-- The search pane with that hit, opened from one of the two accounts. -/
def searchedFrom (selectedAccount : Nat) : AppState :=
  { AppState.initial with
    accounts := [⟨.filled 5, "Work", "me@work"⟩, ⟨.filled 6, "Home", "me@home"⟩]
    folders := foldersWithApprovals archiveFolders
    selectedAccount
    search := some ⟨"lunch", none, [archivedAnswer], 0, false, .conversations⟩ }

/-- From the account of the hit, the hit is opened. -/
theorem archived_answer_opened_from_its_account :
    ((searchedFrom 1).enterSearchHit archivedLunch 0 0 0).LandsOn archivedAnswer :=
  (@AppState.enterSearchHit_lands_iff archivedLunch (searchedFrom 1) archivedLunch_answers
    List.nodup_nil (by decide) archivedAnswer rfl
    ⟨⟨.filled 6, "Home", "me@home"⟩, by decide, rfl⟩ archiveFolders rfl [answer, question] rfl
    0 0 0).mpr
    ⟨⟨by decide, archiveFolders.head (by decide), by decide, rfl, rfl⟩,
      (by decide : AppState.opensOn [answer, question] = some (.filled 2))⟩

/-- From the other account, the inbox is. -/
theorem archived_answer_missed_from_other_account :
    archivedLunch.Answers ∧ (searchedFrom 0).folderCache.Keyed ∧
      (searchedFrom 0).selectedHit = some archivedAnswer ∧
      (∃ account ∈ (searchedFrom 0).accounts, account.id = archivedAnswer.accountId) ∧
      (∃ folders, archivedLunch.listFolders archivedAnswer.accountId = .ok folders ∧
        ∃ folder ∈ folders, folder.id = archivedAnswer.folderId) ∧
      (∃ messages, archivedLunch.listMessages archivedAnswer.folderId = .ok messages ∧
        ∃ m ∈ messages, m.id = archivedAnswer.messageId) ∧
      ((searchedFrom 0).enterSearchHit archivedLunch 0 0 0).selectedFolderId = some (.filled 21) ∧
      ¬ ((searchedFrom 0).enterSearchHit archivedLunch 0 0 0).LandsOn archivedAnswer := by
  have hinbox : ((searchedFrom 0).enterSearchHit archivedLunch 0 0 0).selectedFolderId =
      some (.filled 21) := by decide
  refine ⟨archivedLunch_answers, List.nodup_nil, rfl,
    ⟨⟨.filled 6, "Home", "me@home"⟩, by decide, rfl⟩,
    ⟨archiveFolders, rfl, ⟨.mail, .filled 22, "Archive", "archive"⟩, by decide, rfl⟩,
    ⟨[answer, question], rfl, answer, by decide, rfl⟩, hinbox, fun hlands => ?_⟩
  have hfolder := hlands.2.1
  rw [hinbox] at hfolder
  exact absurd hfolder (by decide)

end Postblox.Tui
