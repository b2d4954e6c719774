import Postblox.Tui.NewestMessage

/-!
# The conversation list partitions the folder

Every message is in the row of its thread and in no other. What a row counts and marks
depends on which messages the thread has, not on the order they are listed in, and the rows
stand in strict order.
-/
namespace Postblox.Tui

open Lib

namespace ThreadItem

/-- The row says how many messages the thread has, the latest date of them, and whether one
of them is unread or flagged. -/
structure Summarizes (thread : ThreadItem) (members : List MessageItem) : Prop where
  count : thread.messageCount = members.length
  reached : ∃ m ∈ members, m.date = thread.latestDate
  latest : ∀ m ∈ members, m.date ≤ thread.latestDate
  unread : thread.unread = true ↔ ∃ m ∈ members, hasFlag m.flags seenFlag = false
  flagged : thread.flagged = true ↔ ∃ m ∈ members, hasFlag m.flags flaggedFlag = true

theorem summarizes_opening (m : MessageItem) : (opening m).Summarizes [m] where
  count := rfl
  reached := ⟨m, List.mem_singleton_self m, rfl⟩
  latest x hx := by
    rw [List.mem_singleton.mp hx]
    exact le_refl m.date
  unread := by simp [opening]
  flagged := by simp [opening]

theorem latestDate_absorb (thread : ThreadItem) (m : MessageItem) :
    (thread.absorb m).latestDate = max thread.latestDate m.date := by
  unfold absorb
  dsimp only
  split_ifs with hlater
  · exact (max_eq_right hlater.le).symm
  · exact (max_eq_left (not_lt.mp hlater)).symm

theorem counts_absorb (thread : ThreadItem) (m : MessageItem) :
    (thread.absorb m).messageCount = thread.messageCount + 1 ∧
      (thread.absorb m).unread = (thread.unread || !hasFlag m.flags seenFlag) ∧
        (thread.absorb m).flagged = (thread.flagged || hasFlag m.flags flaggedFlag) := by
  unfold absorb
  dsimp only
  split_ifs
  · exact ⟨rfl, rfl, rfl⟩
  · exact ⟨rfl, rfl, rfl⟩

theorem exists_mem_concat {p : MessageItem → Prop} {members : List MessageItem} {m : MessageItem} :
    (∃ x ∈ members ++ [m], p x) ↔ (∃ x ∈ members, p x) ∨ p m := by
  simp only [List.mem_append, List.mem_singleton, or_and_right, exists_or, exists_eq_left]

/-- One more message. -/
theorem Summarizes.absorb {thread : ThreadItem} {members : List MessageItem}
    (h : thread.Summarizes members) (m : MessageItem) :
    (thread.absorb m).Summarizes (members ++ [m]) := by
  obtain ⟨hcount, hunread, hflagged⟩ := counts_absorb thread m
  have hdate := latestDate_absorb thread m
  refine ⟨?_, ?_, ?_, ?_, ?_⟩
  · rw [hcount, h.count, List.length_append, List.length_singleton]
  · rw [hdate, exists_mem_concat]
    rcases le_total thread.latestDate m.date with hle | hle
    · exact .inr (max_eq_right hle).symm
    · rw [max_eq_left hle]
      exact .inl h.reached
  · intro x hx
    rw [hdate]
    rcases List.mem_append.mp hx with hold | hnew
    · exact (h.latest x hold).trans (le_max_left _ _)
    · rw [List.mem_singleton.mp hnew]
      exact le_max_right _ _
  · rw [hunread, Bool.or_eq_true, h.unread, exists_mem_concat, Bool.not_eq_true']
  · rw [hflagged, Bool.or_eq_true, h.flagged, exists_mem_concat]

theorem summarizes_foldl (m : MessageItem) (rest : List MessageItem) :
    (rest.foldl ThreadItem.absorb (.opening m)).Summarizes (m :: rest) := by
  induction rest using List.reverseRecOn with
  | nil => exact summarizes_opening m
  | append_singleton rest x ih =>
    rw [List.foldl_concat, ← List.cons_append]
    exact ih.absorb x

theorem summarizes_of_mem {messages : List MessageItem} {thread : ThreadItem}
    (h : thread ∈ buildThreads messages) :
    thread.Summarizes (messages.filter fun m => messageThreadKey m = thread.key) := by
  rw [mem_buildThreads] at h
  cases hmembers : messages.filter fun m => messageThreadKey m = thread.key with
  | nil => rw [hmembers] at h; cases h
  | cons m rest =>
    rw [hmembers] at h
    rw [← Option.some.inj h]
    exact summarizes_foldl m rest

/-- What a row counts and marks, apart from the message it shows. -/
def figures (thread : ThreadItem) : Uuid × Nat × String × Bool × Bool :=
  (thread.key, thread.messageCount, thread.latestDate, thread.unread, thread.flagged)

/-- Rows of one thread over the same messages in another order have the same figures. -/
theorem Summarizes.figures_eq {a b : ThreadItem} {members members' : List MessageItem}
    (ha : a.Summarizes members) (hb : b.Summarizes members') (hperm : members.Perm members')
    (hkey : a.key = b.key) : a.figures = b.figures := by
  have hcount : a.messageCount = b.messageCount := by
    rw [ha.count, hb.count, hperm.length_eq]
  have hdate : a.latestDate = b.latestDate := by
    obtain ⟨x, hx, hxdate⟩ := ha.reached
    obtain ⟨y, hy, hydate⟩ := hb.reached
    apply le_antisymm
    · rw [← hxdate]
      exact hb.latest x (hperm.mem_iff.mp hx)
    · rw [← hydate]
      exact ha.latest y (hperm.mem_iff.mpr hy)
  have hunread : a.unread = b.unread := by
    rw [Bool.eq_iff_iff, ha.unread, hb.unread]
    simp only [hperm.mem_iff]
  have hflagged : a.flagged = b.flagged := by
    rw [Bool.eq_iff_iff, ha.flagged, hb.flagged]
    simp only [hperm.mem_iff]
  rw [figures, figures, hkey, hcount, hdate, hunread, hflagged]

end ThreadItem

/-! ## The list of rows -/

variable {messages messages' : List MessageItem}

theorem buildThreads_perm (messages : List MessageItem) :
    (buildThreads messages).Perm (ThreadItem.grouping.group messages) := sortByKey_perm _ _

theorem nodup_keys_buildThreads (messages : List MessageItem) :
    ((buildThreads messages).map ThreadItem.key).Nodup :=
  ((buildThreads_perm messages).map ThreadItem.key).nodup_iff.mpr
    (ThreadItem.grouping.nodup_keys_group messages)

theorem mem_keys_buildThreads {key : Uuid} :
    key ∈ (buildThreads messages).map ThreadItem.key ↔
      ∃ m ∈ messages, messageThreadKey m = key := by
  rw [((buildThreads_perm messages).map ThreadItem.key).mem_iff]
  exact ThreadItem.grouping.mem_keys_group messages

theorem sum_counts_buildThreads (messages : List MessageItem) :
    ((buildThreads messages).map ThreadItem.messageCount).sum = messages.length := by
  rw [((buildThreads_perm messages).map ThreadItem.messageCount).sum_eq]
  exact ThreadItem.grouping.sum_size_group ThreadItem.messageCount (fun _ => rfl)
    (fun thread m => (ThreadItem.counts_absorb thread m).1) messages

theorem key_of_sortKey {a b : ThreadItem} (h : a.sortKey = b.sortKey) : a.key = b.key :=
  Uuid.eq_of_digits (congrArg (fun key => (ofLex (ofLex key).2).2) h)

/-- No two rows have the same place in the order. -/
theorem buildThreads_strict (messages : List MessageItem) :
    (buildThreads messages).Pairwise fun a b => a.sortKey < b.sortKey := by
  have hsorted : (buildThreads messages).Pairwise fun a b => a.sortKey ≤ b.sortKey :=
    sortByKey_sorted _ _
  have hkeys := List.pairwise_map.mp (nodup_keys_buildThreads messages)
  exact (hsorted.and hkeys).imp fun h => lt_of_le_of_ne h.1 fun heq => h.2 (key_of_sortKey heq)

theorem figures_subset (hperm : messages.Perm messages') {figures : Uuid × Nat × String × Bool × Bool}
    (h : figures ∈ (buildThreads messages).map ThreadItem.figures) :
    figures ∈ (buildThreads messages').map ThreadItem.figures := by
  obtain ⟨thread, hthread, rfl⟩ := List.mem_map.mp h
  obtain ⟨m, hm, hkey⟩ := mem_keys_buildThreads.mp (List.mem_map_of_mem hthread)
  obtain ⟨other, hother, hsame⟩ :=
    List.mem_map.mp (mem_keys_buildThreads.mpr ⟨m, hperm.mem_iff.mp hm, hkey⟩)
  have hmembers := hperm.filter fun m => messageThreadKey m = thread.key
  have hsummary := ThreadItem.summarizes_of_mem hother
  rw [hsame] at hsummary
  have hfigures := (ThreadItem.summarizes_of_mem hthread).figures_eq hsummary hmembers hsame.symm
  rw [hfigures]
  exact List.mem_map_of_mem hother

theorem nodup_figures (messages : List MessageItem) :
    ((buildThreads messages).map ThreadItem.figures).Nodup := by
  apply List.Nodup.of_map Prod.fst
  rw [List.map_map]
  exact nodup_keys_buildThreads messages

/-- The rows partition the messages: one row for each thread key, which summarizes the
messages of that key, in strict order; another order of the messages changes no figure. -/
theorem threads_partition_messages (messages : List MessageItem) :
    ((buildThreads messages).map ThreadItem.key).Nodup ∧
      (∀ key, key ∈ (buildThreads messages).map ThreadItem.key ↔
        ∃ m ∈ messages, messageThreadKey m = key) ∧
      (∀ thread ∈ buildThreads messages,
        thread.Summarizes (messages.filter fun m => messageThreadKey m = thread.key)) ∧
      ((buildThreads messages).map ThreadItem.messageCount).sum = messages.length ∧
      ((buildThreads messages).Pairwise fun a b => a.sortKey < b.sortKey) ∧
      ∀ messages', messages.Perm messages' →
        ((buildThreads messages).map ThreadItem.figures).Perm
          ((buildThreads messages').map ThreadItem.figures) := by
  refine ⟨nodup_keys_buildThreads messages, fun _ => mem_keys_buildThreads,
    fun _ => ThreadItem.summarizes_of_mem, sum_counts_buildThreads messages,
    buildThreads_strict messages, fun messages' hperm => ?_⟩
  rw [List.perm_ext_iff_of_nodup (nodup_figures messages) (nodup_figures messages')]
  exact fun figures => ⟨figures_subset hperm, figures_subset hperm.symm⟩

/-- The subject of a row may depend on the order, its figures do not. -/
theorem reordered_minute_keeps_figures :
    ((buildThreads (items firstMinute (sameMinute (.filled 3) (.filled 2)))).map
      ThreadItem.figures).Perm
        ((buildThreads (items firstMinute (sameMinute (.filled 3) (.filled 2))).reverse).map
          ThreadItem.figures) :=
  (threads_partition_messages _).2.2.2.2.2 _ (List.reverse_perm _).symm

end Postblox.Tui
