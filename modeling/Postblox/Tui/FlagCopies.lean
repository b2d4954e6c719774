import Postblox.Lib.Machine
import Postblox.Tui.Rows

/-!
# The copies of a message's flags

The client holds the flags of a message in the rows of the folder, in the rows of the open
thread, in the open detail and in the details cached for the conversation. The actions write
these in different subsets; `apply_message_flags` leaves the cached details out. The copies
agree along every run that writes no flags to a message whose cached detail has others.
-/
namespace Postblox.Tui

open Lib

/-! ## The four places -/

structure FlagCopies where
  folderMessages : List MessageItem
  messages : List MessageItem
  detail : Option MessageDetail
  detailsById : Uuid → Option MessageDetail

def AppState.flagCopies (app : AppState) : FlagCopies :=
  ⟨app.folderMessages, app.messages, app.detail, app.conversationDetail.detailsById⟩

namespace FlagCopies

variable (c : FlagCopies)

/-- A row of the message has the flags. -/
def Lists (id : Uuid) (flags : List String) : Prop :=
  ∃ m ∈ c.folderMessages, m.id = id ∧ m.flags = flags

/-- A detail of the message, open or cached, has the flags. -/
def Details (id : Uuid) (flags : List String) : Prop :=
  (∃ d, c.detail = some d ∧ d.id = id ∧ d.flags = flags) ∨
    ∃ d, c.detailsById id = some d ∧ d.flags = flags

def Holds (id : Uuid) (flags : List String) : Prop :=
  c.Lists id flags ∨ (∃ m ∈ c.messages, m.id = id ∧ m.flags = flags) ∨ c.Details id flags

/-- The flags of a message are the same in every place. -/
def Agree : Prop := ∀ ⦃id f g⦄, c.Holds id f → c.Holds id g → f = g

variable {c}

/-- The rows of a folder that lists a message once agree among themselves. -/
theorem lists_unique (hdistinct : (c.folderMessages.map (·.id)).Nodup) {id : Uuid}
    {f g : List String} (hf : c.Lists id f) (hg : c.Lists id g) : f = g := by
  obtain ⟨m, hm, hid, rfl⟩ := hf
  obtain ⟨n, hn, hid', rfl⟩ := hg
  rw [List.inj_on_of_nodup_map hdistinct hm hn (hid.trans hid'.symm)]

/-- The rows of the open thread add nothing to those of the folder. -/
theorem agree_of_details (hdistinct : (c.folderMessages.map (·.id)).Nodup)
    (hshown : c.messages ⊆ c.folderMessages)
    (hrows : ∀ id f g, c.Lists id f → c.Details id g → f = g)
    (hdetails : ∀ id f g, c.Details id f → c.Details id g → f = g) : c.Agree := by
  have hsource : ∀ id f, c.Holds id f → c.Lists id f ∨ c.Details id f := by
    rintro id f (hlisted | ⟨m, hm, hflags⟩ | hdetail)
    · exact .inl hlisted
    · exact .inl ⟨m, hshown hm, hflags⟩
    · exact .inr hdetail
  intro id f g hf hg
  rcases hsource id f hf with hf | hf
  · rcases hsource id g hg with hg | hg
    · exact lists_unique hdistinct hf hg
    · exact hrows id f g hf hg
  · rcases hsource id g hg with hg | hg
    · exact (hrows id g f hg hf).symm
    · exact hdetails id f g hf hg

theorem Agree.rows (h : c.Agree) {id : Uuid} {f g : List String} (hf : c.Lists id f)
    (hg : c.Details id g) : f = g := h (.inl hf) (.inr (.inr hg))

theorem Agree.details (h : c.Agree) {id : Uuid} {f g : List String} (hf : c.Details id f)
    (hg : c.Details id g) : f = g := h (.inr (.inr hf)) (.inr (.inr hg))

end FlagCopies

namespace AppState

variable (app : AppState)

/-- The copies agree, and a detail is cached under its own id. -/
structure Coherent : Prop extends ShowsRows app where
  agree : app.flagCopies.Agree
  keyed : ∀ id d, app.conversationDetail.detailsById id = some d → d.id = id

variable {app}

theorem ShowsRows.coherent (h : app.ShowsRows)
    (hkeyed : ∀ id d, app.conversationDetail.detailsById id = some d → d.id = id)
    (hrows : ∀ id f g, app.flagCopies.Lists id f → app.flagCopies.Details id g → f = g)
    (hdetails : ∀ id f g, app.flagCopies.Details id f → app.flagCopies.Details id g → f = g) :
    app.Coherent where
  toShowsRows := h
  agree := FlagCopies.agree_of_details h.distinct (fun m hm => (h.shown m hm).1) hrows hdetails
  keyed := hkeyed

/-! ## What the parts of an action keep -/

/-- Rows alone agree. -/
theorem ShowsRows.coherent_of_unloaded (h : app.ShowsRows) (hdetail : app.detail = none)
    (hcached : ∀ id, app.conversationDetail.detailsById id = none) : app.Coherent := by
  have hnone : ∀ id f, ¬ app.flagCopies.Details id f := by
    rintro id f (⟨d, hd, -⟩ | ⟨d, hd, -⟩)
    · exact absurd (hdetail.symm.trans hd) (by simp)
    · exact absurd ((hcached id).symm.trans hd) (by simp)
  apply h.coherent
  · intro id d hd
    exact absurd ((hcached id).symm.trans hd) (by simp)
  · exact fun id f g _ hg => absurd hg (hnone id g)
  · exact fun id f g _ hg => absurd hg (hnone id g)

theorem ShowsRows.coherent_clearDetailState (h : app.ShowsRows) :
    app.clearDetailState.Coherent := by
  have hcleared : app.clearDetailState.ShowsRows := ⟨h.distinct, h.shown⟩
  exact hcleared.coherent_of_unloaded rfl fun _ => rfl

theorem Coherent.storeSelectedFolderCache (h : app.Coherent) (accountId folderId : Option Uuid)
    (now : Nat) : (app.storeSelectedFolderCache accountId folderId now).Coherent := by
  obtain ⟨folderCache, heq⟩ := app.storeSelectedFolderCache_eq accountId folderId now
  rw [heq]
  exact ⟨⟨h.distinct, h.shown⟩, h.agree, h.keyed⟩

/-- Details that were held before, beside rows that were: nothing new to disagree with. -/
theorem Coherent.of_held (h : app.Coherent) {app' : AppState} (hrows : app'.ShowsRows)
    (hlists : ∀ id f, app'.flagCopies.Lists id f → app.flagCopies.Lists id f)
    (hdetails : ∀ id f, app'.flagCopies.Details id f → app.flagCopies.Details id f)
    (hkeyed : ∀ id d, app'.conversationDetail.detailsById id = some d → d.id = id) :
    app'.Coherent :=
  hrows.coherent hkeyed
    (fun id f g hf hg => h.agree.rows (hlists id f hf) (hdetails id g hg))
    (fun id f g hf hg => h.agree.details (hdetails id f hf) (hdetails id g hg))

/-- Every copy of one message got the same flags, and the copies of others are old ones. -/
theorem Coherent.of_write (h : app.Coherent) {app' : AppState} (hrows : app'.ShowsRows)
    (hkeyed : ∀ id d, app'.conversationDetail.detailsById id = some d → d.id = id) {id : Uuid}
    {flags : List String}
    (hlists : ∀ other f, app'.flagCopies.Lists other f →
      other = id ∧ f = flags ∨ other ≠ id ∧ app.flagCopies.Lists other f)
    (hdetails : ∀ other f, app'.flagCopies.Details other f →
      other = id ∧ f = flags ∨ other ≠ id ∧ app.flagCopies.Details other f) : app'.Coherent := by
  apply hrows.coherent hkeyed
  · intro other f g hf hg
    rcases hlists other f hf with ⟨heq, rfl⟩ | ⟨hne, hf⟩
    · rcases hdetails other g hg with ⟨-, rfl⟩ | ⟨hne, -⟩
      · rfl
      · exact absurd heq hne
    · rcases hdetails other g hg with ⟨heq, -⟩ | ⟨-, hg⟩
      · exact absurd heq hne
      · exact h.agree.rows hf hg
  · intro other f g hf hg
    rcases hdetails other f hf with ⟨heq, rfl⟩ | ⟨hne, hf⟩
    · rcases hdetails other g hg with ⟨-, rfl⟩ | ⟨hne, -⟩
      · rfl
      · exact absurd heq hne
    · rcases hdetails other g hg with ⟨heq, -⟩ | ⟨-, hg⟩
      · exact absurd heq hne
      · exact h.agree.details hf hg

/-! ## The actions -/

theorem coherent_applyFolderMessages {messages : List MessageItem}
    (hdistinct : (messages.map (·.id)).Nodup) (now : Nat) :
    (app.applyFolderMessages messages now).Coherent := by
  have hshown := @showsRows_refreshVisibleMessages
    (({ app with folderMessages := messages } : AppState).rebuildThreads app.selectedThreadKey)
    hdistinct
  have hnormal : (({ app with folderMessages := messages } : AppState).rebuildThreads
      app.selectedThreadKey).refreshVisibleMessages.normalizeActivePane.ShowsRows :=
    ⟨hshown.distinct, hshown.shown⟩
  exact hnormal.coherent_clearDetailState.storeSelectedFolderCache _ _ _

theorem coherent_restoreFolderSnapshot {snapshot : FolderSnapshot}
    (hdistinct : (snapshot.folderMessages.map (·.id)).Nodup) :
    (app.restoreFolderSnapshot snapshot).Coherent := by
  have hshown := @showsRows_refreshVisibleMessages
    (({ app with folderMessages := snapshot.folderMessages } : AppState).rebuildThreads
      snapshot.selectedThreadKey) hdistinct
  have hrestored : (app.restoreFolderSnapshot snapshot).ShowsRows :=
    ⟨hshown.distinct, hshown.shown⟩
  exact hrestored.coherent_of_unloaded rfl fun _ => rfl

/-- After the row of a message got flags, a listed copy is a new one or an old one of another
message. -/
theorem ShowsRows.lists_setRowFlags (h : app.ShowsRows) {c : FlagCopies} {id : Uuid}
    {flags : List String} (hfolder : c.folderMessages = setRowFlags id flags app.folderMessages)
    {other : Uuid} {f : List String} (hlisted : c.Lists other f) :
    other = id ∧ f = flags ∧ (∃ m ∈ app.folderMessages, m.id = id) ∨
      other ≠ id ∧ app.flagCopies.Lists other f := by
  obtain ⟨m, hm, rfl, rfl⟩ := hlisted
  rw [hfolder] at hm
  rcases (mem_setRowFlags h.distinct).mp hm with ⟨hold, hne⟩ | ⟨old, hold, hid, rfl⟩
  · exact .inr ⟨hne, m, hold, rfl, rfl⟩
  · exact .inl ⟨hid, rfl, old, hold, hid⟩

/-- After the flags of a message were applied, an open or cached detail is an old one or the
open detail of that message with the new flags. -/
theorem details_applyMessageFlags {id other : Uuid} {flags f : List String} {now : Nat}
    (hdetail : (app.applyMessageFlags id flags now).flagCopies.Details other f) :
    app.flagCopies.Details other f ∧
        (other = id → ∃ d, app.conversationDetail.detailsById id = some d ∧ d.flags = f) ∨
      other = id ∧ f = flags ∧ ∃ opened, app.detail = some opened ∧ opened.id = id := by
  have hopened : (app.applyMessageFlags id flags now).detail = app.detail.map fun detail =>
      if detail.id = id then { detail with flags } else detail := writeRowFlags_detail id flags now
  have hcached : (app.applyMessageFlags id flags now).conversationDetail =
      app.conversationDetail := writeRowFlags_conversationDetail id flags now
  rcases hdetail with ⟨d, hd, rfl, rfl⟩ | ⟨d, hd, rfl⟩
  · obtain ⟨opened, hold, rfl⟩ := Option.map_eq_some_iff.mp (hopened.symm.trans hd)
    by_cases hid : opened.id = id
    · rw [if_pos hid]
      exact .inr ⟨hid, rfl, opened, hold, hid⟩
    · rw [if_neg hid]
      exact .inl ⟨.inl ⟨opened, hold, rfl, rfl⟩, fun heq => absurd heq hid⟩
  · have hd' : app.conversationDetail.detailsById other = some d := by
      rw [← hcached]
      exact hd
    exact .inl ⟨.inr ⟨d, hd', rfl⟩, fun heq => ⟨d, heq ▸ hd', rfl⟩⟩

theorem Coherent.applyMessageFlags (h : app.Coherent) {id : Uuid} {flags : List String}
    (hcached : ∀ d, app.conversationDetail.detailsById id = some d → d.flags = flags ∨
      (∀ m ∈ app.folderMessages, m.id ≠ id) ∧ ∀ opened, app.detail = some opened → opened.id ≠ id)
    (now : Nat) : (app.applyMessageFlags id flags now).Coherent := by
  have hold : ({ app with detail := app.detail.map fun detail =>
      if detail.id = id then { detail with flags } else detail } : AppState).ShowsRows :=
    ⟨h.distinct, h.shown⟩
  have hshows : (app.applyMessageFlags id flags now).ShowsRows := hold.writeRowFlags id flags now
  have hkeyed : ∀ other d, (app.applyMessageFlags id flags now).conversationDetail.detailsById
      other = some d → d.id = other := by
    intro other d hd
    have hsame : (app.applyMessageFlags id flags now).conversationDetail = app.conversationDetail :=
      writeRowFlags_conversationDetail id flags now
    rw [hsame] at hd
    exact h.keyed other d hd
  have hfolder : (app.applyMessageFlags id flags now).folderMessages =
      setRowFlags id flags app.folderMessages := writeRowFlags_folderMessages id flags now
  by_cases hunheld : (∀ m ∈ app.folderMessages, m.id ≠ id) ∧
      ∀ opened, app.detail = some opened → opened.id ≠ id
  · apply h.of_held hshows _ _ hkeyed
    · intro other f hf
      rcases h.lists_setRowFlags hfolder hf with ⟨-, -, m, hm, hid⟩ | ⟨-, hf⟩
      · exact absurd hid (hunheld.1 m hm)
      · exact hf
    · intro other f hf
      rcases details_applyMessageFlags hf with ⟨hf, -⟩ | ⟨-, -, opened, hopened, hid⟩
      · exact hf
      · exact absurd hid (hunheld.2 opened hopened)
  · have hflags : ∀ d, app.conversationDetail.detailsById id = some d → d.flags = flags :=
      fun d hd => (hcached d hd).resolve_right hunheld
    apply @Coherent.of_write app h _ hshows hkeyed id flags
    · intro other f hf
      rcases h.lists_setRowFlags hfolder hf with ⟨heq, hf, -⟩ | hf
      · exact .inl ⟨heq, hf⟩
      · exact .inr hf
    · intro other f hf
      rcases details_applyMessageFlags hf with ⟨hf, hsame⟩ | ⟨heq, hf, -⟩
      · by_cases heq : other = id
        · obtain ⟨d, hd, rfl⟩ := hsame heq
          exact .inl ⟨heq, hflags d hd⟩
        · exact .inr ⟨heq, hf⟩
      · exact .inl ⟨heq, hf⟩

/-- A focused message stays focused when the rows of a message get flags. -/
theorem ShowsRows.focusedMessageId_writeRowFlags (h : app.ShowsRows) {id focused : Uuid}
    {flags : List String} {now : Nat} (hfocused : app.focusedMessageId = some focused) :
    (app.writeRowFlags id flags now).focusedMessageId = some focused := by
  unfold focusedMessageId at hfocused ⊢
  rw [writeRowFlags_conversationDetail]
  rcases Option.or_eq_some_iff.mp hfocused with hcursor | ⟨hnone, hselected⟩
  · rw [hcursor, Option.some_or]
  · rw [hnone, Option.none_or]
    exact h.shown.selectedMessageId_writeRowFlags hselected

theorem keyed_cacheDetail {conversation : ConversationDetailState}
    (hkeyed : ∀ id d, conversation.detailsById id = some d → d.id = id) (detail : MessageDetail) :
    ∀ id d, (conversation.cacheDetail detail).detailsById id = some d → d.id = id := by
  intro id d hd
  change Function.update conversation.detailsById detail.id (some detail) id = some d at hd
  by_cases heq : id = detail.id
  · subst heq
    rw [Function.update_self] at hd
    rw [Option.some.inj hd]
  · rw [Function.update_of_ne heq] at hd
    exact hkeyed id d hd

/-- A cached detail is the new one or an old one of another message. -/
theorem cached_cacheDetail {conversation : ConversationDetailState} {detail d : MessageDetail}
    {id : Uuid} (hd : (conversation.cacheDetail detail).detailsById id = some d) :
    id = detail.id ∧ d = detail ∨ id ≠ detail.id ∧ conversation.detailsById id = some d := by
  change Function.update conversation.detailsById detail.id (some detail) id = some d at hd
  by_cases heq : id = detail.id
  · rw [heq, Function.update_self] at hd
    exact .inl ⟨heq, (Option.some.inj hd).symm⟩
  · rw [Function.update_of_ne heq] at hd
    exact .inr ⟨heq, hd⟩

/-- The rows of a message get the flags of its detail, the detail is cached, and it or an old
one that does not contradict it is open. -/
theorem Coherent.of_cached (h : app.Coherent) (detail : MessageDetail) {app' : AppState}
    (hrows : app'.ShowsRows)
    (hfolder : app'.folderMessages = setRowFlags detail.id detail.flags app.folderMessages)
    (hcached : app'.conversationDetail = app.conversationDetail.cacheDetail detail)
    (hopened : ∀ opened, app'.detail = some opened → opened = detail ∨
      app.detail = some opened ∧ (opened.id = detail.id → opened.flags = detail.flags)) :
    app'.Coherent := by
  have hkeyed : ∀ id d, app'.conversationDetail.detailsById id = some d → d.id = id := by
    rw [hcached]
    exact keyed_cacheDetail h.keyed detail
  apply @Coherent.of_write app h app' hrows hkeyed detail.id detail.flags
  · intro other f hf
    rcases h.lists_setRowFlags hfolder hf with ⟨heq, hf, -⟩ | hf
    · exact .inl ⟨heq, hf⟩
    · exact .inr hf
  · rintro other f (⟨d, hd, rfl, rfl⟩ | ⟨d, hd, rfl⟩)
    · rcases hopened d hd with rfl | ⟨hold, hsame⟩
      · exact .inl ⟨rfl, rfl⟩
      · by_cases heq : d.id = detail.id
        · exact .inl ⟨heq, hsame heq⟩
        · exact .inr ⟨heq, .inl ⟨d, hold, rfl, rfl⟩⟩
    · have hd' : (app.conversationDetail.cacheDetail detail).detailsById other = some d := by
        rw [← hcached]
        exact hd
      rcases cached_cacheDetail hd' with ⟨heq, rfl⟩ | ⟨hne, hold⟩
      · exact .inl ⟨heq, rfl⟩
      · exact .inr ⟨hne, .inr ⟨d, hold, rfl⟩⟩

theorem Coherent.cacheConversationDetail (h : app.Coherent) {detail : MessageDetail}
    (hopened : app.focusedMessageId = some detail.id ∨ ∀ opened, app.detail = some opened →
      opened.id = detail.id → opened.flags = detail.flags) (now : Nat) :
    (app.cacheConversationDetail detail now).Coherent := by
  have hrows := h.toShowsRows.writeRowFlags detail.id detail.flags now
  have hfolder := @writeRowFlags_folderMessages app detail.id detail.flags now
  have hold := @writeRowFlags_detail app detail.id detail.flags now
  have hconversation := @writeRowFlags_conversationDetail app detail.id detail.flags now
  unfold AppState.cacheConversationDetail updateMessageFlagsFromDetail
  dsimp only
  split_ifs with hfocused
  · refine h.of_cached detail ⟨hrows.distinct, hrows.shown⟩ hfolder ?_ ?_
    · rw [hconversation]
    · intro opened heq
      exact .inl (Option.some.inj heq).symm
  · refine h.of_cached detail ⟨hrows.distinct, hrows.shown⟩ hfolder ?_ ?_
    · rw [hconversation]
    · intro opened heq
      rcases hopened with hbefore | hagree
      · -- the focus would have stayed on the message
        exact absurd (h.toShowsRows.focusedMessageId_writeRowFlags hbefore) hfocused
      · have hsame : app.detail = some opened := hold.symm.trans heq
        exact .inr ⟨hsame, hagree opened hsame⟩

theorem Coherent.clearAttachments (h : app.Coherent) : app.clearAttachments.Coherent :=
  ⟨⟨h.distinct, h.shown⟩, h.agree, h.keyed⟩

theorem Coherent.applyDetail (h : app.Coherent) (detail : Option MessageDetail) (now : Nat) :
    (app.applyDetail detail now).Coherent := by
  unfold AppState.applyDetail
  generalize hold : (if app.detail.map (·.id) = detail.map (·.id) then app
    else app.clearAttachments) = old
  have hcoherent : old.Coherent := by
    rw [← hold]
    split_ifs
    · exact h
    · exact h.clearAttachments
  cases detail with
  | none =>
    have hclosed : ({ old with detail := none } : AppState).Coherent := by
      refine hcoherent.of_held ⟨hcoherent.distinct, hcoherent.shown⟩ (fun _ _ hf => hf) ?_
        hcoherent.keyed
      rintro id f (⟨d, hd, -⟩ | hcached)
      · cases hd
      · exact .inr hcached
    exact ⟨⟨hclosed.distinct, hclosed.shown⟩, hclosed.agree, hclosed.keyed⟩
  | some detail =>
    have hrows := hcoherent.toShowsRows.writeRowFlags detail.id detail.flags now
    have hfolder := @writeRowFlags_folderMessages old detail.id detail.flags now
    have hconversation := @writeRowFlags_conversationDetail old detail.id detail.flags now
    refine hcoherent.of_cached detail ⟨hrows.distinct, hrows.shown⟩ hfolder ?_ ?_
    · show (old.writeRowFlags detail.id detail.flags now).conversationDetail.cacheDetail detail = _
      rw [hconversation]
    · intro opened heq
      exact .inl (Option.some.inj heq).symm

theorem Coherent.moveConversationDetailFocus (h : app.Coherent) (delta : Int) :
    (app.moveConversationDetailFocus delta).1.Coherent := by
  unfold AppState.moveConversationDetailFocus
  dsimp only
  split_ifs
  · exact h
  · exact h
  · split
    · exact h
    · rename_i message _
      refine h.of_held ⟨h.distinct, h.shown⟩ (fun _ _ hf => hf) ?_ h.keyed
      rintro id f (⟨d, hd, rfl, rfl⟩ | hcached)
      · rcases Option.or_eq_some_iff.mp hd with hcached | ⟨-, hopened⟩
        · rw [h.keyed message.id d hcached]
          exact .inr ⟨d, hcached, rfl⟩
        · exact .inl ⟨d, hopened, rfl, rfl⟩
      · exact .inr hcached

/-! ### Selections -/

/-- Without rows and details there is nothing to agree on. -/
theorem coherent_of_empty (hfolder : app.folderMessages = []) (hmessages : app.messages = [])
    (hdetail : app.detail = none) (hcached : ∀ id, app.conversationDetail.detailsById id = none) :
    app.Coherent := by
  have hrows : app.ShowsRows := by
    refine ⟨?_, ?_⟩
    · rw [hfolder]
      exact List.nodup_nil
    · intro m hm
      rw [hmessages] at hm
      cases hm
  exact hrows.coherent_of_unloaded hdetail hcached

theorem Coherent.moveAccount (h : app.Coherent) (delta : Int) :
    (app.moveAccount delta).1.Coherent := by
  unfold AppState.moveAccount
  dsimp only
  split_ifs
  · exact coherent_of_empty rfl rfl rfl fun _ => rfl
  · exact ⟨⟨h.distinct, h.shown⟩, h.agree, h.keyed⟩

theorem Coherent.moveFolder (h : app.Coherent) (delta : Int) :
    (app.moveFolder delta).1.Coherent := by
  unfold AppState.moveFolder
  dsimp only
  split_ifs
  · exact coherent_of_empty rfl rfl rfl fun _ => rfl
  · exact ⟨⟨h.distinct, h.shown⟩, h.agree, h.keyed⟩

theorem moveIndex_unchanged {index len : Nat} {delta : Int} (hindex : index < len)
    (hsame : (moveIndex index len delta).2 = false) : (moveIndex index len delta).1 = index := by
  unfold moveIndex at hsame ⊢
  have hlen : len ≠ 0 := by omega
  rw [if_neg hlen] at hsame ⊢
  have hnext := of_decide_eq_false hsame
  rw [not_not] at hnext
  have hmin : min index (len - 1) = index := by omega
  exact hnext.trans hmin

theorem Coherent.moveThread (h : app.Coherent) (delta : Int) :
    (app.moveThread delta).1.Coherent := by
  unfold AppState.moveThread
  dsimp only
  split_ifs with hchanged
  · have hshown := @showsRows_refreshVisibleMessages
      { app with
        selectedThread := (moveIndex app.selectedThread app.threads.length delta).1
        selectedMessage := 0 } h.distinct
    exact hshown.coherent_clearDetailState
  · -- a thread that shows rows is in range, so it stays the selected one
    refine ⟨⟨h.distinct, ?_⟩, h.agree, h.keyed⟩
    intro m hm
    obtain ⟨hlisted, hkey⟩ := h.shown m hm
    refine ⟨hlisted, ?_⟩
    obtain ⟨thread, hthread, -⟩ := Option.map_eq_some_iff.mp hkey.symm
    obtain ⟨hrange, -⟩ := List.getElem?_eq_some_iff.mp hthread
    have hstay := moveIndex_unchanged hrange (Bool.eq_false_iff.mpr hchanged)
    show some (messageThreadKey m) = (app.threads[(moveIndex _ _ _).1]?).map (·.key)
    rw [hstay]
    exact hkey

theorem Coherent.jumpToHit (h : app.Coherent) (hit : SearchHit) :
    (app.jumpToHit hit).1.Coherent := by
  unfold AppState.jumpToHit
  split
  · exact h
  · rename_i index _
    have hmoved : (app.selectHitAccount index).Coherent := by
      unfold selectHitAccount
      split_ifs
      · exact h
      · exact coherent_of_empty rfl rfl rfl fun _ => rfl
    exact ⟨⟨hmoved.distinct, hmoved.shown⟩, hmoved.agree, hmoved.keyed⟩

/-! ### Removal -/

theorem Coherent.removeMessageLocally (h : app.Coherent) (id : Uuid) (now : Nat) :
    (app.removeMessageLocally id now).1.Coherent := by
  unfold AppState.removeMessageLocally
  dsimp only
  split_ifs with hlisted hopened
  · exact h
  all_goals
    have hdistinct : ((app.folderMessages.filter fun m => m.id ≠ id).map (·.id)).Nodup :=
      h.distinct.sublist (List.filter_sublist.map _)
    have hshown := @showsRows_refreshVisibleMessages
      (({ app with folderMessages := app.folderMessages.filter fun m => m.id ≠ id } :
        AppState).rebuildThreads app.selectedThreadKey) hdistinct
  · apply Coherent.storeSelectedFolderCache
    exact (hshown.coherent_clearDetailState).of_held ⟨hshown.distinct, hshown.shown⟩
      (fun _ _ hf => hf) (fun _ _ hf => hf) hshown.coherent_clearDetailState.keyed
  · apply Coherent.storeSelectedFolderCache
    refine h.of_held ⟨hshown.distinct, hshown.shown⟩ ?_ (fun _ _ hf => hf) h.keyed
    rintro other f ⟨m, hm, hflags⟩
    exact ⟨m, List.mem_of_mem_filter hm, hflags⟩

theorem details_removeMessageLocally {id other : Uuid} {f : List String} {now : Nat}
    (h : (app.removeMessageLocally id now).1.flagCopies.Details other f) :
    app.flagCopies.Details other f := by
  unfold AppState.removeMessageLocally at h
  dsimp only at h
  split_ifs at h with hlisted hopened
  · exact h
  · obtain ⟨folderCache, heq⟩ := storeSelectedFolderCache_eq _ _ _
    rw [heq] at h
    rcases h with ⟨d, hd, -⟩ | ⟨d, hd, -⟩
    · cases hd
    · cases hd
  · obtain ⟨folderCache, heq⟩ := storeSelectedFolderCache_eq _ _ _
    rw [heq] at h
    exact h

theorem Coherent.restoreMessageListSnapshot (h : app.Coherent) {snapshot : MessageListSnapshot}
    (hdistinct : (snapshot.folderMessages.map (·.id)).Nodup)
    (hdetails : ∀ row ∈ snapshot.folderMessages, ∀ flags,
      app.flagCopies.Details row.id flags → row.flags = flags) (now : Nat) :
    (app.restoreMessageListSnapshot snapshot now).Coherent := by
  unfold AppState.restoreMessageListSnapshot
  apply Coherent.storeSelectedFolderCache
  have hshown := @showsRows_refreshVisibleMessages
    { ({ app with folderMessages := snapshot.folderMessages } : AppState).rebuildThreads none with
      selectedThread := clampIndex snapshot.selectedThread
        (({ app with folderMessages := snapshot.folderMessages } : AppState).rebuildThreads
          none).threads.length } hdistinct
  refine ShowsRows.coherent ⟨hshown.distinct, hshown.shown⟩ h.keyed ?_
    fun id f g hf hg => h.agree.details hf hg
  rintro id f g ⟨row, hrow, rfl, rfl⟩ hg
  exact hdetails row hrow g hg

end AppState

end Postblox.Tui
