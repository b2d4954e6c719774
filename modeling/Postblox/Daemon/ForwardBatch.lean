import Postblox.Daemon.Refetch
import Postblox.Lib.Slots

/-!
# A batch of forwarded attachments answers for each of its ids

Each position of the request is served from the cache, refused as unknown, or waits for the
message to be fetched again; then it is served or refused. A row leaves the map with its
first use, so an id that is repeated is refused the second time.
-/
namespace Postblox.Daemon.Fetch

open Json (Value)
open Daemon.Args (parseId parseIdArray maxForwardAttachmentBatch)
open Mail (ParsedAttachment)
open Lib (occupied occupied_set free_of_notMem forall₂_occupied pairwise_occupied)

section Account

variable (b : Backend) (message : Message) (rows : List Attachment)

/-- Why an id of the request is refused. -/
inductive Refusal : ForwardFailure → Prop where
  | unknown (id : Uuid) :
      Refusal ⟨id, "", "bad_args", "unknown attachment id for message"⟩
  | unmatched {row : Attachment} (h : row ∈ rows) :
      Refusal (forwardAttachmentFailure row (offline ""))
  | unreachable {row : Attachment} {error : RpcError} (h : row ∈ rows)
      (herror : refetchForwardAttachments b message = .error error) :
      Refusal (forwardAttachmentFailure row error)

/-- What is sent for an id. -/
structure Served (f : Forwarded) : Prop where
  row : f.attachment ∈ rows
  source : f.source = "cache" ∨ f.source = "imap"

/-- The first `start` ids are each served, refused (at the positions `refused`) or waiting. -/
structure Accounts (ids : List Uuid) (start : Nat) (waiting : List (Nat × Attachment))
    (refused : List Nat) (batch : Batch) : Prop where
  slots : batch.attachments.length = ids.length
  listed : ∀ row ∈ batch.messageAttachments, row ∈ rows
  served : ∀ (i : Nat) (f : Forwarded), batch.attachments[i]? = some (some f) →
    ids[i]? = some f.attachment.id ∧ Served rows f
  failures : List.Forall₂
    (fun (i : Nat) (f : ForwardFailure) => ids[i]? = some f.attachmentId ∧ Refusal b message rows f)
    refused batch.failed
  waits : ∀ miss ∈ waiting, ids[miss.1]? = some miss.2.id ∧ miss.2 ∈ rows
  positions : (occupied 0 batch.attachments ++ refused ++ waiting.map (·.1)).Perm
    (List.range start)

variable {b message rows} {ids : List Uuid} {start : Nat} {waiting : List (Nat × Attachment)}
  {refused : List Nat} {batch : Batch}

theorem accounts_start (hrows : ∀ row ∈ byId rows, row ∈ rows) :
    Accounts b message rows ids 0 [] [] (Batch.start rows ids) where
  slots := List.length_replicate
  listed := hrows
  served i f h := by
    have hmem := List.mem_of_getElem? h
    cases (List.mem_replicate.mp hmem).2
  failures := List.Forall₂.nil
  waits _ h := absurd h List.not_mem_nil
  positions := by
    rw [Batch.start, Lib.occupied_replicate_none]
    exact List.Perm.refl _

/-- A position that is not served yet has a free slot. -/
theorem Accounts.free (h : Accounts b message rows ids start waiting refused batch) {i : Nat}
    (hi : i < ids.length) (hnot : i ∉ occupied 0 batch.attachments) :
    batch.attachments[i]? = some none :=
  free_of_notMem (by rw [h.slots]; exact hi) hnot

theorem Accounts.ahead (h : Accounts b message rows ids start waiting refused batch) :
    start ∉ occupied 0 batch.attachments := by
  intro hmem
  have hrange := h.positions.subset
    (List.mem_append_left _ (List.mem_append_left refused hmem))
  exact absurd (List.mem_range.mp hrange) (Nat.lt_irrefl start)

theorem Accounts.waiting_free {i : Nat} {row : Attachment} {rest : List (Nat × Attachment)}
    (h : Accounts b message rows ids start ((i, row) :: rest) refused batch) :
    batch.attachments[i]? = some none := by
  have hlt : i < ids.length :=
    (List.getElem?_eq_some_iff.mp (h.waits (i, row) List.mem_cons_self).1).1
  apply h.free hlt
  intro hmem
  have hnodup := h.positions.nodup_iff.mpr List.nodup_range
  rw [List.nodup_append] at hnodup
  exact hnodup.2.2 i (List.mem_append_left _ hmem) i List.mem_cons_self rfl

/-- A served position leaves the other ones as they are. -/
theorem Accounts.serve (h : Accounts b message rows ids start waiting refused batch) {i : Nat}
    {f : Forwarded} (hid : ids[i]? = some f.attachment.id) (hf : Served rows f) :
    ∀ (j : Nat) (g : Forwarded), (batch.attachments.set i (some f))[j]? = some (some g) →
      ids[j]? = some g.attachment.id ∧ Served rows g := by
  intro j g hg
  by_cases hij : i = j
  · subst hij
    rw [List.getElem?_set_self'] at hg
    cases hslot : batch.attachments[i]? with
    | none => rw [hslot] at hg; cases hg
    | some old =>
      rw [hslot] at hg
      cases hg
      exact ⟨hid, hf⟩
  · rw [List.getElem?_set_ne hij] at hg
    exact h.served j g hg

/-- One id of the request. -/
theorem Accounts.lookUp
    (h : Accounts b message rows ids start batch.cacheMisses refused batch) {id : Uuid}
    (hid : ids[start]? = some id) :
    ∃ refused', Accounts b message rows ids (start + 1) (batch.lookUp b start id).cacheMisses
      refused' (batch.lookUp b start id) := by
  have hlt : start < ids.length := (List.getElem?_eq_some_iff.mp hid).1
  have hfree := h.free hlt h.ahead
  cases hfind : batch.messageAttachments.find? fun a => a.id = id with
  | none =>
    rw [lookUp_unknown start hfind]
    refine ⟨refused ++ [start], h.slots, h.listed, h.served, ?_, h.waits, ?_⟩
    · exact List.rel_append h.failures (.cons ⟨hid, .unknown id⟩ .nil)
    · rw [List.range_succ, ← List.append_assoc, List.append_assoc _ [start]]
      refine (List.perm_append_comm.append_left _).trans ?_
      rw [← List.append_assoc]
      exact h.positions.append_right [start]
  | some row =>
    have hrow := h.listed row (List.mem_of_find?_eq_some hfind)
    have hrowid : row.id = id := by simpa using List.find?_some hfind
    have hlisted : ∀ a ∈ batch.messageAttachments.filter fun a => a.id ≠ id, a ∈ rows :=
      fun a ha => h.listed a (List.mem_filter.mp ha).1
    cases hread : b.readFile row.storagePath with
    | some bytes =>
      rw [lookUp_cached start hfind hread]
      refine ⟨refused, List.length_set.trans h.slots, hlisted,
        h.serve (by rw [hid, hrowid]) ⟨hrow, .inl rfl⟩, h.failures, h.waits, ?_⟩
      have hoccupied := occupied_set hfree 0 (Forwarded.mk row bytes "cache")
      rw [Nat.zero_add] at hoccupied
      rw [List.range_succ, List.append_assoc]
      refine (hoccupied.append_right _).trans ?_
      rw [List.cons_append, ← List.append_assoc]
      exact (h.positions.cons start).trans (List.perm_append_singleton start _).symm
    | none =>
      rw [lookUp_missing start hfind hread]
      refine ⟨refused, h.slots, hlisted, h.served, h.failures, ?_, ?_⟩
      · intro miss hmiss
        rcases List.mem_append.mp hmiss with hold | hnew
        · exact h.waits miss hold
        · rw [List.mem_singleton.mp hnew, hrowid]
          exact ⟨hid, hrow⟩
      · rw [List.map_append, List.range_succ, ← List.append_assoc]
        exact h.positions.append_right [start]

/-- All ids of the request. -/
theorem Accounts.lookUpAll {done later : List Uuid}
    (h : Accounts b message rows ids done.length batch.cacheMisses refused batch)
    (hids : ids = done ++ later) :
    ∃ looked refused',
      (later.zipIdx done.length).foldl (fun batch id => batch.lookUp b id.2 id.1) batch = looked ∧
      Accounts b message rows ids ids.length looked.cacheMisses refused' looked := by
  induction later generalizing done batch refused with
  | nil =>
    rw [List.append_nil] at hids
    exact ⟨batch, refused, rfl, by rwa [hids] at h ⊢⟩
  | cons id later ih =>
    have hid : ids[done.length]? = some id := by
      rw [hids, List.getElem?_append_right (Nat.le_refl _), Nat.sub_self]
      rfl
    obtain ⟨refused', hnext⟩ := h.lookUp hid
    have hlength : (done ++ [id]).length = done.length + 1 := by
      rw [List.length_append, List.length_singleton]
    rw [← hlength] at hnext
    obtain ⟨looked, refused'', hfold, hall⟩ := ih hnext (by rw [hids]; simp)
    refine ⟨looked, refused'', ?_, hall⟩
    rw [List.zipIdx_cons, List.foldl_cons, ← hlength]
    exact hfold

/-- One waiting row, once the message has been fetched again. -/
theorem Accounts.refill {miss : Nat × Attachment} {rest : List (Nat × Attachment)}
    (h : Accounts b message rows ids start (miss :: rest) refused batch)
    (pool : List ParsedAttachment) :
    ∃ refused', Accounts b message rows ids start rest refused'
      (batch.refill pool miss.1 miss.2).1 := by
  obtain ⟨hid, hrow⟩ := h.waits miss List.mem_cons_self
  have hrest : ∀ m ∈ rest, ids[m.1]? = some m.2.id ∧ m.2 ∈ rows :=
    fun m hm => h.waits m (List.mem_cons_of_mem _ hm)
  have hpositions := h.positions
  rw [List.map_cons] at hpositions
  unfold Batch.refill
  split
  · next bytes left hpick =>
    refine ⟨refused, List.length_set.trans h.slots, h.listed, h.serve hid ⟨hrow, .inr rfl⟩, h.failures,
      hrest, ?_⟩
    have hoccupied := occupied_set h.waiting_free 0 (Forwarded.mk miss.2 bytes "imap")
    rw [Nat.zero_add] at hoccupied
    rw [List.append_assoc]
    refine (hoccupied.append_right _).trans ?_
    rw [List.cons_append, ← List.append_assoc]
    exact List.perm_middle.symm.trans hpositions
  · refine ⟨refused ++ [miss.1], h.slots, h.listed, h.served, ?_, hrest, ?_⟩
    · exact List.rel_append h.failures (.cons ⟨hid, .unmatched hrow⟩ .nil)
    · rw [← List.append_assoc, List.append_assoc _ [miss.1]]
      exact hpositions

theorem Accounts.refillAll {pool : List ParsedAttachment}
    (h : Accounts b message rows ids start waiting refused batch) :
    ∃ refused', Accounts b message rows ids start [] refused'
      (waiting.foldl (fun s miss => s.1.refill s.2 miss.1 miss.2) (batch, pool)).1 := by
  induction waiting generalizing batch refused pool with
  | nil => exact ⟨refused, h⟩
  | cons miss rest ih =>
    obtain ⟨refused', hnext⟩ := h.refill pool
    rw [List.foldl_cons]
    exact ih hnext

/-- Without the message every waiting row is refused. -/
theorem Accounts.refuseAll {error : RpcError}
    (h : Accounts b message rows ids start waiting refused batch)
    (herror : refetchForwardAttachments b message = .error error) :
    Accounts b message rows ids start [] (refused ++ waiting.map (·.1))
      { batch with
        failed := batch.failed ++
          waiting.map fun miss => forwardAttachmentFailure miss.2 error } where
  slots := h.slots
  listed := h.listed
  served := h.served
  failures := by
    refine List.rel_append h.failures ?_
    rw [List.forall₂_map_left_iff, List.forall₂_map_right_iff, List.forall₂_same]
    intro miss hmiss
    obtain ⟨hid, hrow⟩ := h.waits miss hmiss
    exact ⟨hid, .unreachable hrow herror⟩
  waits _ hmiss := absurd hmiss List.not_mem_nil
  positions := by
    rw [List.map_nil, List.append_nil, ← List.append_assoc]
    exact h.positions

/-- At the end nothing waits. -/
theorem accounts_settled (b : Backend) (message : Message) (rows : List Attachment)
    (ids : List Uuid) :
    ∃ refused, Accounts b message rows ids ids.length [] refused
      (Batch.settled b message rows ids) := by
  have hstart : Accounts b message rows ids ([] : List Uuid).length
      (Batch.start rows ids).cacheMisses [] (Batch.start rows ids) :=
    accounts_start fun _ hrow => mem_byId hrow
  obtain ⟨looked, refused, hlooked, h⟩ := hstart.lookUpAll (List.nil_append ids).symm
  rw [List.length_nil] at hlooked
  unfold Batch.settled
  rw [hlooked]
  by_cases hempty : looked.cacheMisses.isEmpty = true
  · rw [List.isEmpty_iff.mp hempty] at h
    simp only [if_pos hempty]
    exact ⟨refused, h⟩
  · cases hrefetch : refetchForwardAttachments b message with
    | ok parsed =>
      simp only [if_neg hempty]
      exact h.refillAll
    | error error =>
      simp only [if_neg hempty]
      exact ⟨_, h.refuseAll hrefetch⟩

end Account

/-- The positions of the served and of the refused ids: each position of the request is in
one of the lists, once. -/
structure Positions (ids : List Uuid) (attachments : List Forwarded)
    (failed : List ForwardFailure) (served refused : List Nat) : Prop where
  attachments : List.Forall₂ (fun (i : Nat) (f : Forwarded) => ids[i]? = some f.attachment.id) served attachments
  failed : List.Forall₂ (fun (i : Nat) (f : ForwardFailure) => ids[i]? = some f.attachmentId) refused failed
  inOrder : served.Pairwise (· < ·)
  once : (served ++ refused).Perm (List.range ids.length)

theorem Accounts.toPositions {b : Backend} {message : Message} {rows : List Attachment}
    {ids : List Uuid} {refused : List Nat} {batch : Batch}
    (h : Accounts b message rows ids ids.length [] refused batch) :
    Positions ids (batch.attachments.filterMap fun f => f) batch.failed
      (occupied 0 batch.attachments) refused where
  attachments := forall₂_occupied fun i f hf => by
    rw [Nat.zero_add]
    exact (h.served i f hf).1
  failed := h.failures.imp fun _ _ hf => hf.1
  inOrder := pairwise_occupied 0 _
  once := by simpa using h.positions

end Postblox.Daemon.Fetch
