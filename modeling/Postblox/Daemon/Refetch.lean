import Postblox.Daemon.Fetch
import Postblox.Lib.Program

/-!
# Attachments fetched again

An attachment without a cached copy is taken from the parts of its message, parsed anew,
and the copy is written back. The row keeps a sanitized name, so the part taken is the
first that fits best among those not taken yet. `OwnFirst` says that it carries the bytes
of the row at each turn; a run of requests answers with the bytes that were stored exactly
when every request meets it.
-/
namespace Postblox.Daemon.Fetch

open Json (Value)
open Lib (bind_eq_ok)
open Daemon.Args (parseId parseIdArray maxForwardAttachmentBatch)
open Mail (ParsedAttachment)

/-! ## The part that fits best -/

def sameContentId (row : Attachment) (p : ParsedAttachment) : Bool :=
  (row.contentId.filter (· ≠ "")).isSome && p.contentId = row.contentId

def sameNameAndType (row : Attachment) (p : ParsedAttachment) : Bool :=
  p.filename = row.filename && p.contentType = row.contentType

def sameName (row : Attachment) (p : ParsedAttachment) : Bool := p.filename = row.filename

/-- The parts with the content id of the row if there are any, else those with its name and
type, else those with its name. -/
def bestFit (pool : List ParsedAttachment) (row : Attachment) : ParsedAttachment → Bool :=
  if pool.any (sameContentId row) then sameContentId row
  else if pool.any (sameNameAndType row) then sameNameAndType row
  else sameName row

/-- For each row in turn, the first part left that fits best has the row's own bytes. -/
def OwnFirst (own : Attachment → List UInt8) : List ParsedAttachment → List Attachment → Prop
  | _, [] => True
  | pool, row :: rest =>
    match pool.findIdx? (bestFit pool row) with
    | none => OwnFirst own pool rest
    | some index =>
      (∀ p, pool[index]? = some p → p.data = own row) ∧ OwnFirst own (swapRemove pool index) rest

theorem findIdx?_orElse {α : Type} (l : List α) (p : α → Bool) (other : Option Nat) :
    (l.findIdx? p <|> other) = if l.any p then l.findIdx? p else other := by
  cases hfind : l.findIdx? p with
  | none =>
    have hany : l.any p = false := by
      rw [List.findIdx?_eq_none_iff] at hfind
      rw [List.any_eq_false]
      intro a ha
      rw [hfind a ha]
      exact Bool.false_ne_true
    rw [hany]
    rfl
  | some index =>
    have hany : l.any p = true := by
      rw [List.any_eq_true]
      obtain ⟨hlt, hp, -⟩ := List.findIdx?_eq_some_iff_getElem.mp hfind
      exact ⟨l[index], List.getElem_mem hlt, hp⟩
    rw [hany]
    rfl

/-- The search for the content id of a row. -/
theorem findIdx?_contentId (pool : List ParsedAttachment) (row : Attachment) :
    ((row.contentId.filter (· ≠ "")).bind fun cid =>
      pool.findIdx? fun p => p.contentId = some cid) = pool.findIdx? (sameContentId row) := by
  cases hcid : row.contentId.filter (· ≠ "") with
  | none =>
    have hno : sameContentId row = fun _ => false := by
      funext p
      rw [sameContentId, hcid]
      rfl
    rw [hno, Option.bind_none, eq_comm, List.findIdx?_eq_none_iff]
    exact fun _ _ => rfl
  | some cid =>
    have hrow : row.contentId = some cid := (Option.filter_eq_some_iff.mp hcid).1
    have hyes : sameContentId row = fun p => decide (p.contentId = some cid) := by
      funext p
      rw [sameContentId, hcid, hrow]
      rfl
    rw [hyes, Option.bind_some]

theorem pickAttachmentBytes_eq (pool : List ParsedAttachment) (row : Attachment) :
    pickAttachmentBytes pool row = (pool.findIdx? (bestFit pool row)).bind fun index =>
      pool[index]?.map fun p => (p.data, swapRemove pool index) := by
  have hsearch : (pool.findIdx? (sameContentId row) <|>
      pool.findIdx? (sameNameAndType row) <|> pool.findIdx? (sameName row)) =
      pool.findIdx? (bestFit pool row) := by
    rw [findIdx?_orElse, findIdx?_orElse, bestFit]
    split_ifs
    · rfl
    · rfl
    · rfl
  rw [← hsearch, ← findIdx?_contentId]
  rfl

/-- A row that finds a part takes one of the pool away. -/
theorem pick_cases (pool : List ParsedAttachment) (row : Attachment) :
    (pool.findIdx? (bestFit pool row) = none ∧ pickAttachmentBytes pool row = none) ∨
      ∃ index p, pool.findIdx? (bestFit pool row) = some index ∧ pool[index]? = some p ∧
        pickAttachmentBytes pool row = some (p.data, swapRemove pool index) := by
  rw [pickAttachmentBytes_eq]
  cases hfind : pool.findIdx? (bestFit pool row) with
  | none => exact .inl ⟨rfl, rfl⟩
  | some index =>
    obtain ⟨hlt, -, -⟩ := List.findIdx?_eq_some_iff_getElem.mp hfind
    have hget := List.getElem?_eq_getElem hlt
    refine .inr ⟨index, pool[index], rfl, hget, ?_⟩
    rw [Option.bind_some, hget]
    rfl

theorem ownFirst_of_none {own : Attachment → List UInt8} {pool : List ParsedAttachment}
    {row : Attachment} {rest : List Attachment}
    (h : pool.findIdx? (bestFit pool row) = none) :
    OwnFirst own pool (row :: rest) ↔ OwnFirst own pool rest := by
  rw [OwnFirst, h]

theorem ownFirst_of_some {own : Attachment → List UInt8} {pool : List ParsedAttachment}
    {row : Attachment} {rest : List Attachment} {index : Nat} {p : ParsedAttachment}
    (h : pool.findIdx? (bestFit pool row) = some index) (hp : pool[index]? = some p) :
    OwnFirst own pool (row :: rest) ↔
      p.data = own row ∧ OwnFirst own (swapRemove pool index) rest := by
  rw [OwnFirst, h]
  simp only [hp, Option.some.injEq, forall_eq']

theorem mem_swapRemove {α : Type} {items : List α} {index : Nat} {x : α}
    (h : x ∈ swapRemove items index) : x ∈ items := by
  unfold swapRemove at h
  split at h
  · cases h
  · next last hlast =>
    rcases List.mem_or_eq_of_mem_set (List.mem_of_mem_dropLast h) with hold | rfl
    · exact hold
    · exact List.mem_of_getLast? hlast

/-- The part that fits best has the content id of the row or its name. -/
theorem bestFit_cases {pool : List ParsedAttachment} {row : Attachment} {p : ParsedAttachment}
    (h : bestFit pool row p = true) : sameContentId row p = true ∨ sameName row p = true := by
  unfold bestFit at h
  split_ifs at h
  · exact .inl h
  · unfold sameNameAndType at h
    rw [Bool.and_eq_true] at h
    exact .inr h.1
  · exact .inr h

/-- Parts that could be taken for a row without having its bytes are the only danger. -/
theorem ownFirst_of_apart {own : Attachment → List UInt8} {parts : List ParsedAttachment}
    {rows : List Attachment} (h : ∀ row ∈ rows, ∀ p ∈ parts,
      sameContentId row p = true ∨ sameName row p = true → p.data = own row) :
    OwnFirst own parts rows := by
  induction rows generalizing parts with
  | nil => exact True.intro
  | cons row rest ih =>
    rw [List.forall_mem_cons] at h
    rcases pick_cases parts row with ⟨hnone, -⟩ | ⟨index, p, hsome, hget, -⟩
    · exact (ownFirst_of_none hnone).mpr (ih h.2)
    · obtain ⟨hlt, hfit, -⟩ := List.findIdx?_eq_some_iff_getElem.mp hsome
      obtain ⟨_, rfl⟩ := List.getElem?_eq_some_iff.mp hget
      refine (ownFirst_of_some hsome hget).mpr ⟨h.1 _ (List.getElem_mem hlt) (bestFit_cases hfit), ?_⟩
      exact ih fun a ha q hq => h.2 a ha q (mem_swapRemove hq)

/-! ## One batch -/

section Batch

variable (b : Backend) (own : Attachment → List UInt8)

/-- The rows that a list of ids asks for, each one once. -/
def asked : List Attachment → List Uuid → List Attachment
  | _, [] => []
  | rows, id :: ids =>
    match rows.find? fun a => a.id = id with
    | none => asked rows ids
    | some row => row :: asked (rows.filter fun a => a.id ≠ id) ids

def missed (rows : List Attachment) : List Attachment :=
  rows.filter fun row => (b.readFile row.storagePath).isNone

/-- The slots before `start` are settled, those of the rows without a copy are free. -/
structure Gathered (start : Nat) (batch : Batch) : Prop where
  free : ∀ m ∈ batch.cacheMisses, m.1 < start ∧ batch.attachments[m.1]? = some none
  apart : (batch.cacheMisses.map (·.1)).Nodup
  ahead : ∀ i, start ≤ i → i < batch.attachments.length → batch.attachments[i]? = some none
  right : ∀ f, some f ∈ batch.attachments → f.bytes = own f.attachment
  cached : ∀ row ∈ batch.messageAttachments, ∀ bytes,
    b.readFile row.storagePath = some bytes → bytes = own row

variable {b own}

theorem lookUp_unknown {batch : Batch} {id : Uuid} (index : Nat)
    (h : (batch.messageAttachments.find? fun a => a.id = id) = none) :
    batch.lookUp b index id = { batch with
      failed := batch.failed ++
        [⟨id, "", "bad_args", "unknown attachment id for message"⟩] } := by
  rw [Batch.lookUp, h]

theorem lookUp_cached {batch : Batch} {id : Uuid} {row : Attachment} {bytes : List UInt8}
    (index : Nat) (h : (batch.messageAttachments.find? fun a => a.id = id) = some row)
    (hread : b.readFile row.storagePath = some bytes) :
    batch.lookUp b index id = { batch with
      messageAttachments := batch.messageAttachments.filter fun a => a.id ≠ id
      attachments := batch.attachments.set index (some ⟨row, bytes, "cache"⟩) } := by
  rw [Batch.lookUp, h]
  simp only [hread]

theorem lookUp_missing {batch : Batch} {id : Uuid} {row : Attachment} (index : Nat)
    (h : (batch.messageAttachments.find? fun a => a.id = id) = some row)
    (hread : b.readFile row.storagePath = none) :
    batch.lookUp b index id = { batch with
      messageAttachments := batch.messageAttachments.filter fun a => a.id ≠ id
      cacheMisses := batch.cacheMisses ++ [(index, row)] } := by
  rw [Batch.lookUp, h]
  simp only [hread]

theorem asked_cons {rows : List Attachment} {id : Uuid} {row : Attachment} (ids : List Uuid)
    (h : (rows.find? fun a => a.id = id) = some row) :
    asked rows (id :: ids) = row :: asked (rows.filter fun a => a.id ≠ id) ids := by
  rw [asked, h]

/-- One id of the request settles one slot or leaves it free. -/
theorem Gathered.lookUp {start : Nat} {batch : Batch} (h : Gathered b own start batch)
    (hroom : start < batch.attachments.length) (id : Uuid) :
    Gathered b own (start + 1) (batch.lookUp b start id) ∧
      (batch.lookUp b start id).attachments.length = batch.attachments.length ∧
      ∀ ids, (batch.lookUp b start id).cacheMisses.map (·.2) ++
          missed b (asked (batch.lookUp b start id).messageAttachments ids) =
        batch.cacheMisses.map (·.2) ++ missed b (asked batch.messageAttachments (id :: ids)) := by
  have hahead : ∀ i, start + 1 ≤ i → i < batch.attachments.length →
      batch.attachments[i]? = some none := fun i hi => h.ahead i (by omega)
  have hfree : ∀ m ∈ batch.cacheMisses, m.1 < start + 1 ∧ batch.attachments[m.1]? = some none := by
    intro m hm
    obtain ⟨hlt, hslot⟩ := h.free m hm
    exact ⟨by omega, hslot⟩
  cases hfind : batch.messageAttachments.find? fun a => a.id = id with
  | none =>
    rw [lookUp_unknown start hfind]
    refine ⟨⟨hfree, h.apart, hahead, h.right, h.cached⟩, rfl, ?_⟩
    intro ids
    rw [asked, hfind]
  | some row =>
    have hrow := List.mem_of_find?_eq_some hfind
    have hcached : ∀ a ∈ batch.messageAttachments.filter fun a => a.id ≠ id, ∀ bytes,
        b.readFile a.storagePath = some bytes → bytes = own a :=
      fun a ha => h.cached a (List.mem_filter.mp ha).1
    cases hread : b.readFile row.storagePath with
    | some bytes =>
      rw [lookUp_cached start hfind hread]
      refine ⟨⟨?_, h.apart, ?_, ?_, hcached⟩, List.length_set, ?_⟩
      · intro m hm
        have hlt := (h.free m hm).1
        show _ ∧ (batch.attachments.set start _)[m.1]? = _
        rw [List.getElem?_set_ne (by omega)]
        exact hfree m hm
      · intro i hi hlen
        change i < (batch.attachments.set start _).length at hlen
        show (batch.attachments.set start _)[i]? = _
        rw [List.length_set] at hlen
        rw [List.getElem?_set_ne (by omega), hahead i hi hlen]
      · intro f hf
        rcases List.mem_or_eq_of_mem_set hf with hold | hnew
        · exact h.right f hold
        · cases hnew
          exact h.cached row hrow bytes hread
      · intro ids
        rw [asked_cons ids hfind, missed, missed, List.filter_cons_of_neg (by rw [hread]; simp)]
    | none =>
      rw [lookUp_missing start hfind hread]
      refine ⟨⟨?_, ?_, hahead, h.right, hcached⟩, rfl, ?_⟩
      · intro m hm
        rcases List.mem_append.mp hm with hold | hnew
        · exact hfree m hold
        · rw [List.mem_singleton.mp hnew]
          exact ⟨Nat.lt_succ_self start, h.ahead start (Nat.le_refl _) hroom⟩
      · show ((batch.cacheMisses ++ [(start, row)]).map (·.1)).Nodup
        rw [List.map_append, List.nodup_append]
        refine ⟨h.apart, by simp, ?_⟩
        intro i hi j hj
        obtain ⟨m, hm, rfl⟩ := List.mem_map.mp hi
        have hlt := (h.free m hm).1
        rw [List.map_singleton, List.mem_singleton] at hj
        rw [hj]
        show m.1 ≠ start
        omega
      · intro ids
        rw [asked_cons ids hfind, missed, missed, List.filter_cons_of_pos (by rw [hread]; rfl),
          List.map_append, List.append_assoc]
        rfl

/-- All ids of the request. -/
theorem Gathered.lookUpAll {ids : List Uuid} {start : Nat} {batch : Batch}
    (h : Gathered b own start batch) (hroom : start + ids.length ≤ batch.attachments.length) :
    ∃ done, (ids.zipIdx start).foldl (fun batch id => batch.lookUp b id.2 id.1) batch = done ∧
      Gathered b own (start + ids.length) done ∧
      done.cacheMisses.map (·.2) =
        batch.cacheMisses.map (·.2) ++ missed b (asked batch.messageAttachments ids) := by
  induction ids generalizing start batch with
  | nil => exact ⟨batch, rfl, h, (List.append_nil _).symm⟩
  | cons id ids ih =>
    rw [List.length_cons] at hroom
    obtain ⟨hnext, hlength, hmisses⟩ := h.lookUp (by omega) id
    obtain ⟨done, hdone, hgathered, hall⟩ := ih hnext (by omega)
    refine ⟨done, ?_, ?_, ?_⟩
    · rw [List.zipIdx_cons, List.foldl_cons]
      exact hdone
    · rw [List.length_cons]
      have hlen : start + (ids.length + 1) = start + 1 + ids.length := by omega
      rw [hlen]
      exact hgathered
    · rw [hall, hmisses ids]

/-- The rows without a copy are answered with their own bytes exactly when each finds its
own part first. -/
theorem refill_right_iff {misses : List (Nat × Attachment)} {batch : Batch}
    {pool : List ParsedAttachment}
    (hfree : ∀ m ∈ misses, batch.attachments[m.1]? = some none)
    (hapart : (misses.map (·.1)).Nodup) :
    (∀ f, some f ∈ (misses.foldl (fun s miss => s.1.refill s.2 miss.1 miss.2)
        (batch, pool)).1.attachments → f.bytes = own f.attachment) ↔
      (∀ f, some f ∈ batch.attachments → f.bytes = own f.attachment) ∧
        OwnFirst own pool (misses.map (·.2)) := by
  induction misses generalizing batch pool with
  | nil => exact (and_iff_left True.intro).symm
  | cons miss rest ih =>
    rw [List.map_cons, List.nodup_cons] at hapart
    have hrest : ∀ m ∈ rest, batch.attachments[m.1]? = some none :=
      fun m hm => hfree m (List.mem_cons_of_mem _ hm)
    rw [List.foldl_cons, List.map_cons]
    rcases pick_cases pool miss.2 with ⟨hnone, hpick⟩ | ⟨index, p, hsome, hget, hpick⟩
    · have hstep : batch.refill pool miss.1 miss.2 =
          ({ batch with failed := batch.failed ++ [forwardAttachmentFailure miss.2 (offline "")] },
            pool) := by
        rw [Batch.refill, hpick]
      rw [hstep, ownFirst_of_none hnone]
      exact ih hrest hapart.2
    · have hstep : batch.refill pool miss.1 miss.2 =
          ({ batch with attachments :=
              batch.attachments.set miss.1 (some ⟨miss.2, p.data, "imap"⟩) },
            swapRemove pool index) := by
        rw [Batch.refill, hpick]
      have hslot := hfree miss List.mem_cons_self
      have hfree' : ∀ m ∈ rest,
          (batch.attachments.set miss.1 (some ⟨miss.2, p.data, "imap"⟩))[m.1]? = some none := by
        intro m hm
        have hne : miss.1 ≠ m.1 := fun heq => hapart.1 (heq ▸ List.mem_map_of_mem hm)
        rw [List.getElem?_set_ne hne, hrest m hm]
      have hmem : ∀ f, some f ∈ batch.attachments.set miss.1 (some ⟨miss.2, p.data, "imap"⟩) ↔
          f = ⟨miss.2, p.data, "imap"⟩ ∨ some f ∈ batch.attachments := by
        intro f
        constructor
        · intro hf
          rcases List.mem_or_eq_of_mem_set hf with hold | hnew
          · exact .inr hold
          · exact .inl (Option.some.inj hnew)
        · intro hf
          obtain ⟨hlt, hget⟩ := List.getElem?_eq_some_iff.mp hslot
          rcases hf with rfl | hold
          · exact List.mem_set hlt _
          · obtain ⟨j, hj⟩ := List.mem_iff_getElem?.mp hold
            refine List.mem_iff_getElem?.mpr ⟨j, ?_⟩
            have hne : miss.1 ≠ j := by
              intro heq
              rw [← heq, hslot] at hj
              cases hj
            rw [List.getElem?_set_ne hne, hj]
      rw [hstep, ownFirst_of_some hsome hget]
      refine (ih hfree' hapart.2).trans ?_
      simp only [hmem, forall_eq_or_imp]
      tauto

/-- Everything a batch holds comes from `rows`. -/
structure Within (rows : List Attachment) (batch : Batch) : Prop where
  listed : ∀ row ∈ batch.messageAttachments, row ∈ rows
  answered : ∀ f, some f ∈ batch.attachments → f.attachment ∈ rows
  missing : ∀ m ∈ batch.cacheMisses, m.2 ∈ rows

theorem Within.lookUp {rows : List Attachment} {batch : Batch} (h : Within rows batch)
    (index : Nat) (id : Uuid) : Within rows (batch.lookUp b index id) := by
  cases hfind : batch.messageAttachments.find? fun a => a.id = id with
  | none =>
    rw [lookUp_unknown index hfind]
    exact ⟨h.listed, h.answered, h.missing⟩
  | some row =>
    have hrow := h.listed row (List.mem_of_find?_eq_some hfind)
    have hlisted : ∀ a ∈ batch.messageAttachments.filter fun a => a.id ≠ id, a ∈ rows :=
      fun a ha => h.listed a (List.mem_filter.mp ha).1
    cases hread : b.readFile row.storagePath with
    | some bytes =>
      rw [lookUp_cached index hfind hread]
      refine ⟨hlisted, ?_, h.missing⟩
      intro f hf
      rcases List.mem_or_eq_of_mem_set hf with hold | hnew
      · exact h.answered f hold
      · cases hnew
        exact hrow
    | none =>
      rw [lookUp_missing index hfind hread]
      refine ⟨hlisted, h.answered, ?_⟩
      intro m hm
      rcases List.mem_append.mp hm with hold | hnew
      · exact h.missing m hold
      · rw [List.mem_singleton.mp hnew]
        exact hrow

theorem Within.lookUpAll {rows : List Attachment} {ids : List Uuid} {start : Nat} {batch : Batch}
    (h : Within rows batch) :
    Within rows ((ids.zipIdx start).foldl (fun batch id => batch.lookUp b id.2 id.1) batch) := by
  induction ids generalizing start batch with
  | nil => exact h
  | cons id ids ih =>
    rw [List.zipIdx_cons, List.foldl_cons]
    exact ih (h.lookUp start id)

theorem Within.refillAll {rows : List Attachment} {misses : List (Nat × Attachment)}
    {batch : Batch} {pool : List ParsedAttachment} (h : Within rows batch)
    (hmisses : ∀ m ∈ misses, m.2 ∈ rows) :
    Within rows (misses.foldl (fun s miss => s.1.refill s.2 miss.1 miss.2) (batch, pool)).1 := by
  induction misses generalizing batch pool with
  | nil => exact h
  | cons miss rest ih =>
    rw [List.forall_mem_cons] at hmisses
    rw [List.foldl_cons]
    refine ih ?_ hmisses.2
    show Within rows (batch.refill pool miss.1 miss.2).1
    unfold Batch.refill
    split
    · refine ⟨h.listed, ?_, h.missing⟩
      intro f hf
      rcases List.mem_or_eq_of_mem_set hf with hold | hnew
      · exact h.answered f hold
      · cases hnew
        exact hmisses.1
    · exact ⟨h.listed, h.answered, h.missing⟩

theorem mem_byId {rows : List Attachment} {row : Attachment} (h : row ∈ byId rows) : row ∈ rows := by
  have hfold : ∀ (l map : List Attachment), row ∈ l.foldl (fun map row =>
      map.filter (·.id ≠ row.id) ++ [row]) map → row ∈ map ∨ row ∈ l := by
    intro l
    induction l with
    | nil => exact fun map h => .inl h
    | cons a l ih =>
      intro map h
      rcases ih _ h with hmap | hl
      · rcases List.mem_append.mp hmap with hold | hnew
        · exact .inl (List.mem_filter.mp hold).1
        · exact .inr (List.mem_cons.mpr (.inl (List.mem_singleton.mp hnew)))
      · exact .inr (List.mem_cons_of_mem _ hl)
  rcases hfold rows [] h with hnil | hrows
  · cases hnil
  · exact hrows

end Batch

/-! ## One request -/

/-- A request for bytes, and which copies can be written back. -/
structure Attempt where
  backend : Backend
  batch : Bool
  args : Value
  written : String → Bool

section Attempt

variable (crates : Crates) (own : Attachment → List UInt8)

/-- The payloads of the answer. -/
def Attempt.forwarded (a : Attempt) : List Forwarded :=
  if a.batch then
    match forwardBatchParts crates a.backend a.args with
    | .ok answer => answer.1
    | .error _ => []
  else
    match forwardParts crates a.backend a.args with
    | .ok f => [f]
    | .error _ => []

/-- The message a request is about and the rows it asks for. -/
def Attempt.asks (a : Attempt) : Except RpcError (Message × List Attachment) :=
  if a.batch then do
    let messageId ← parseId crates a.args "message_id"
    let ids ← parseIdArray crates a.args "attachment_ids" maxForwardAttachmentBatch
    let message ← requireMessage a.backend messageId
    let rows ← ctx "attachments::list_for_message" (a.backend.listForMessage messageId)
    return (message, asked (byId rows) ids)
  else do
    let id ← parseId crates a.args "attachment_id"
    let row ← okOr (.badArgs "unknown attachment id")
      (← ctx "attachments::get" (a.backend.getAttachment id))
    let message ← forwardParentMessage a.backend row.messageId
    return (message, [row])

/-- When the message can be fetched again, its parts fit the rows without a copy in turn. -/
def Attempt.Unmixed (parts : List ParsedAttachment) (a : Attempt) : Prop :=
  ∀ message rows parsed, a.asks crates = .ok (message, rows) →
    refetchForwardAttachments a.backend message = .ok parsed →
      OwnFirst own parts (missed a.backend rows)

/-- Files by their path. -/
abbrev Files := String → Option (List UInt8)

/-- `persist_refetched_bytes`. -/
def writeBack (written : String → Bool) (files : Files) (f : Forwarded) : Files :=
  if f.source = "imap" ∧ written f.attachment.storagePath ∧ f.attachment.storagePath ≠ "" then
    Function.update files f.attachment.storagePath (some f.bytes)
  else files

def Attempt.after (files : Files) (a : Attempt) : Files :=
  (a.forwarded crates).foldl (writeBack a.written) files

/-- Every copy is a copy of the row's own bytes. -/
def Kept (rows : List Attachment) (files : Files) : Prop :=
  ∀ row ∈ rows, ∀ bytes, files row.storagePath = some bytes → bytes = own row

/-- The request is about the message whose rows are `rows`; the backend reads these rows and
the files, and the server still has the message `raw` with its `parts`. -/
structure Attempt.Sees (message : Uuid) (rows : List Attachment) (raw : List UInt8)
    (parts : List ParsedAttachment) (files : Files) (a : Attempt) : Prop where
  one : a.batch = false → ∀ id, parseId crates a.args "attachment_id" = .ok id →
    ∃ row ∈ rows, row.id = id
  all : a.batch = true → ∀ id, parseId crates a.args "message_id" = .ok id → id = message
  get : ∀ row ∈ rows, ∀ found, a.backend.getAttachment row.id = .ok found → found = some row
  list : ∀ listed, a.backend.listForMessage message = .ok listed → listed = rows
  reads : ∀ row ∈ rows, ∀ bytes, a.backend.readFile row.storagePath = some bytes →
    files row.storagePath = some bytes
  serves : ∀ account credential folder uid messages m,
    a.backend.syncFolder account credential folder uid = some messages →
      (messages.find? fun m => m.1 = uid) = some m → m.2 = raw
  parses : ∀ parsed, a.backend.parseMail raw = some parsed → parsed = parts

end Attempt

theorem okOr_eq_ok {α : Type} {e : RpcError} {o : Option α} {a : α} :
    okOr e o = .ok a ↔ o = some a := by
  cases o with
  | none => simp [okOr]
  | some b => simp [okOr]

section

variable {crates : Crates} {own : Attachment → List UInt8} {message : Uuid}
  {rows : List Attachment} {raw : List UInt8} {parts : List ParsedAttachment} {files : Files}
  {a : Attempt}

/-- What is fetched again are the parts of the message. -/
theorem Attempt.Sees.refetched (h : a.Sees crates message rows raw parts files) {m : Message}
    {parsed : List ParsedAttachment}
    (hparsed : refetchForwardAttachments a.backend m = .ok parsed) : parsed = parts := by
  unfold refetchForwardAttachments at hparsed
  obtain ⟨found, -, hparsed⟩ := bind_eq_ok.mp hparsed
  obtain ⟨folder, -, hparsed⟩ := bind_eq_ok.mp hparsed
  obtain ⟨account, -, hparsed⟩ := bind_eq_ok.mp hparsed
  obtain ⟨credential, -, hparsed⟩ := bind_eq_ok.mp hparsed
  dsimp only at hparsed
  -- `u32::try_from` and `port_u16` have let the message through
  split_ifs at hparsed
  · cases hparsed
  · cases hparsed
  · cases hparsed
  obtain ⟨messages, hmessages, hparsed⟩ := bind_eq_ok.mp hparsed
  obtain ⟨entry, hentry, hparsed⟩ := bind_eq_ok.mp hparsed
  have hraw := h.serves _ _ _ _ _ _ (okOr_eq_ok.mp hmessages) (okOr_eq_ok.mp hentry)
  rw [okOr_eq_ok, hraw] at hparsed
  exact h.parses _ hparsed

/-- The row that a single request finds. -/
theorem Attempt.Sees.getAttachment (h : a.Sees crates message rows raw parts files)
    (hone : a.batch = false) {id : Uuid} (hid : parseId crates a.args "attachment_id" = .ok id)
    {found : Option Attachment} (hfound : a.backend.getAttachment id = .ok found) :
    ∃ row ∈ rows, found = some row := by
  obtain ⟨row, hrow, rfl⟩ := h.one hone id hid
  exact ⟨row, hrow, h.get row hrow found hfound⟩

theorem ctx_eq_ok {α : Type} {context : String} {x : Except String α} {v : α} :
    ctx context x = .ok v ↔ x = .ok v := by
  cases x with
  | error e => simp [ctx]
  | ok w => simp [ctx]

/-- A single request is answered with the copy, or with the part that fits. -/
theorem forwardParts_ok_iff (b : Backend) (args : Value) (f : Forwarded) :
    forwardParts crates b args = .ok f ↔
      ∃ id row, parseId crates args "attachment_id" = .ok id ∧
        b.getAttachment id = .ok (some row) ∧
        ((∃ bytes, b.readFile row.storagePath = some bytes ∧ f = ⟨row, bytes, "cache"⟩) ∨
          b.readFile row.storagePath = none ∧ ∃ m parsed bytes rest,
            forwardParentMessage b row.messageId = .ok m ∧
            refetchForwardAttachments b m = .ok parsed ∧
            pickAttachmentBytes parsed row = some (bytes, rest) ∧ f = ⟨row, bytes, "imap"⟩) := by
  unfold forwardParts
  constructor
  · intro h
    obtain ⟨id, hid, h⟩ := bind_eq_ok.mp h
    obtain ⟨found, hfound, h⟩ := bind_eq_ok.mp h
    obtain ⟨row, hrow, h⟩ := bind_eq_ok.mp h
    rw [okOr_eq_ok] at hrow
    rw [ctx_eq_ok, hrow] at hfound
    refine ⟨id, row, hid, hfound, ?_⟩
    cases hread : b.readFile row.storagePath with
    | some bytes =>
      rw [hread] at h
      exact .inl ⟨bytes, rfl, (Except.ok.inj h).symm⟩
    | none =>
      rw [hread] at h
      obtain ⟨m, hm, h⟩ := bind_eq_ok.mp h
      obtain ⟨parsed, hparsed, h⟩ := bind_eq_ok.mp h
      obtain ⟨picked, hpicked, h⟩ := bind_eq_ok.mp h
      rw [okOr_eq_ok] at hpicked
      exact .inr ⟨rfl, m, parsed, picked.1, picked.2, hm, hparsed, hpicked,
        (Except.ok.inj h).symm⟩
  · rintro ⟨id, row, hid, hrow, hanswer⟩
    refine bind_eq_ok.mpr ⟨id, hid, bind_eq_ok.mpr ⟨some row, ctx_eq_ok.mpr hrow,
      bind_eq_ok.mpr ⟨row, rfl, ?_⟩⟩⟩
    rcases hanswer with ⟨bytes, hread, rfl⟩ | ⟨hread, m, parsed, bytes, rest, hm, hparsed, hpick, rfl⟩
    · rw [hread]
      rfl
    · rw [hread]
      exact bind_eq_ok.mpr ⟨m, hm, bind_eq_ok.mpr ⟨parsed, hparsed,
        bind_eq_ok.mpr ⟨(bytes, rest), okOr_eq_ok.mpr hpick, rfl⟩⟩⟩

theorem asks_single_iff (hone : a.batch = false) (m : Message) (listed : List Attachment) :
    a.asks crates = .ok (m, listed) ↔
      ∃ id row, parseId crates a.args "attachment_id" = .ok id ∧
        a.backend.getAttachment id = .ok (some row) ∧
        forwardParentMessage a.backend row.messageId = .ok m ∧ listed = [row] := by
  unfold Attempt.asks
  rw [hone, if_neg Bool.false_ne_true]
  constructor
  · intro h
    obtain ⟨id, hid, h⟩ := bind_eq_ok.mp h
    obtain ⟨found, hfound, h⟩ := bind_eq_ok.mp h
    obtain ⟨row, hrow, h⟩ := bind_eq_ok.mp h
    obtain ⟨m', hm, h⟩ := bind_eq_ok.mp h
    rw [okOr_eq_ok] at hrow
    rw [ctx_eq_ok, hrow] at hfound
    cases h
    exact ⟨id, row, hid, hfound, hm, rfl⟩
  · rintro ⟨id, row, hid, hrow, hm, rfl⟩
    exact bind_eq_ok.mpr ⟨id, hid, bind_eq_ok.mpr ⟨some row, ctx_eq_ok.mpr hrow,
      bind_eq_ok.mpr ⟨row, rfl, bind_eq_ok.mpr ⟨m, hm, rfl⟩⟩⟩⟩

theorem mem_forwarded_single (hone : a.batch = false) (f : Forwarded) :
    f ∈ a.forwarded crates ↔ forwardParts crates a.backend a.args = .ok f := by
  unfold Attempt.forwarded
  rw [hone, if_neg Bool.false_ne_true]
  cases forwardParts crates a.backend a.args with
  | error e => simp
  | ok g => simp [eq_comm]

/-- What a single request comes to: a copy, a part, or nothing at all. -/
theorem Attempt.Sees.single (h : a.Sees crates message rows raw parts files)
    (hkept : Kept own rows files) (hone : a.batch = false) :
    (∀ f ∈ a.forwarded crates, f.attachment ∈ rows) ∧
      ((∀ f ∈ a.forwarded crates, f.bytes = own f.attachment) ↔ a.Unmixed crates own parts) := by
  have hrows : ∀ id row, parseId crates a.args "attachment_id" = .ok id →
      a.backend.getAttachment id = .ok (some row) → row ∈ rows := by
    intro id row hid hget
    obtain ⟨row', hrow', heq⟩ := h.getAttachment hone hid hget
    cases heq
    exact hrow'
  refine ⟨?_, ?_, ?_⟩
  · intro f hf
    obtain ⟨id, row, hid, hget, ⟨bytes, -, rfl⟩ | ⟨-, m, parsed, bytes, rest, -, -, -, rfl⟩⟩ :=
      (forwardParts_ok_iff _ _ f).mp ((mem_forwarded_single hone f).mp hf)
    · exact hrows id row hid hget
    · exact hrows id row hid hget
  · intro hright m listed parsed hasks hparsed
    obtain ⟨id, row, hid, hget, hm, rfl⟩ := (asks_single_iff hone m listed).mp hasks
    obtain rfl := h.refetched hparsed
    unfold missed
    cases hread : a.backend.readFile row.storagePath with
    | some bytes =>
      rw [List.filter_cons_of_neg (by rw [hread]; exact Bool.false_ne_true)]
      exact True.intro
    | none =>
      rw [List.filter_cons_of_pos (by rw [hread]; rfl)]
      rcases pick_cases parsed row with ⟨hnone, -⟩ | ⟨index, p, hsome, hget', hpick⟩
      · exact (ownFirst_of_none hnone).mpr True.intro
      · refine (ownFirst_of_some hsome hget').mpr ⟨?_, True.intro⟩
        exact hright ⟨row, p.data, "imap"⟩ ((mem_forwarded_single hone _).mpr
          ((forwardParts_ok_iff _ _ _).mpr ⟨id, row, hid, hget,
            .inr ⟨hread, m, parsed, p.data, _, hm, hparsed, hpick, rfl⟩⟩))
  · intro hunmixed f hf
    obtain ⟨id, row, hid, hget, ⟨bytes, hread, rfl⟩ |
        ⟨hread, m, parsed, bytes, rest, hm, hparsed, hpick, rfl⟩⟩ :=
      (forwardParts_ok_iff _ _ f).mp ((mem_forwarded_single hone f).mp hf)
    · have hrow := hrows id row hid hget
      exact hkept row hrow bytes (h.reads row hrow bytes hread)
    · have hown := hunmixed m [row] parsed ((asks_single_iff hone m [row]).mpr
        ⟨id, row, hid, hget, hm, rfl⟩) hparsed
      obtain rfl := h.refetched hparsed
      unfold missed at hown
      rw [List.filter_cons_of_pos (by rw [hread]; rfl)] at hown
      rcases pick_cases parsed row with ⟨-, hnone⟩ | ⟨index, p, hsome, hget', hsome'⟩
      · rw [hnone] at hpick
        cases hpick
      · rw [hsome'] at hpick
        cases hpick
        exact ((ownFirst_of_some hsome hget').mp hown).1

/-- The batch when all ids are looked up and what was missing is fetched again. -/
def Batch.settled (b : Backend) (m : Message) (rows : List Attachment) (ids : List Uuid) : Batch :=
  let batch := ids.zipIdx.foldl (fun batch id => batch.lookUp b id.2 id.1) (Batch.start rows ids)
  if batch.cacheMisses.isEmpty then batch
  else
    match refetchForwardAttachments b m with
    | .ok parsed =>
      (batch.cacheMisses.foldl (fun s miss => s.1.refill s.2 miss.1 miss.2) (batch, parsed)).1
    | .error error =>
      { batch with
        failed := batch.failed ++
          batch.cacheMisses.map fun miss => forwardAttachmentFailure miss.2 error }

theorem gathered_start {b : Backend} (ids : List Uuid)
    (hcached : ∀ row ∈ rows, ∀ bytes, b.readFile row.storagePath = some bytes → bytes = own row) :
    Gathered b own 0 (Batch.start rows ids) where
  free := fun _ h => absurd h List.not_mem_nil
  apart := List.nodup_nil
  ahead := by
    intro i _ hi
    change i < (List.replicate ids.length none).length at hi
    rw [List.length_replicate] at hi
    exact List.getElem?_replicate_of_lt hi
  right := fun _ hf => by cases (List.mem_replicate.mp hf).2
  cached := fun row hrow => hcached row (mem_byId hrow)

theorem within_start (ids : List Uuid) : Within rows (Batch.start rows ids) where
  listed := fun _ hrow => mem_byId hrow
  answered := fun _ hf => by cases (List.mem_replicate.mp hf).2
  missing := fun _ h => absurd h List.not_mem_nil

/-- A batch of rows is answered with their own bytes exactly when each row without a copy
finds its own part first. -/
theorem settled_right {b : Backend} (m : Message) (ids : List Uuid)
    (hcached : ∀ row ∈ rows, ∀ bytes, b.readFile row.storagePath = some bytes → bytes = own row) :
    (∀ f, some f ∈ (Batch.settled b m rows ids).attachments → f.attachment ∈ rows) ∧
      ((∀ f, some f ∈ (Batch.settled b m rows ids).attachments → f.bytes = own f.attachment) ↔
        ∀ parsed, refetchForwardAttachments b m = .ok parsed →
          OwnFirst own parsed (missed b (asked (byId rows) ids))) := by
  have hroom : 0 + ids.length ≤ (Batch.start rows ids).attachments.length := by
    show 0 + ids.length ≤ (List.replicate ids.length none).length
    rw [List.length_replicate]
    omega
  obtain ⟨done, hdone, hgathered, hmisses⟩ := (gathered_start ids hcached).lookUpAll hroom
  have hwithin : Within rows done := by
    rw [← hdone]
    exact (within_start ids).lookUpAll
  have hmisses' : done.cacheMisses.map (·.2) = missed b (asked (byId rows) ids) := hmisses
  rw [← hmisses']
  by_cases hempty : done.cacheMisses.isEmpty = true
  · have hsettled : Batch.settled b m rows ids = done := by
      unfold Batch.settled
      rw [hdone]
      exact if_pos hempty
    rw [hsettled, List.isEmpty_iff.mp hempty]
    exact ⟨hwithin.answered, fun _ _ _ => True.intro, fun _ => hgathered.right⟩
  · cases hrefetch : refetchForwardAttachments b m with
    | error e =>
      have hsettled : (Batch.settled b m rows ids).attachments = done.attachments := by
        unfold Batch.settled
        rw [hdone]
        simp only [if_neg hempty, hrefetch]
      rw [hsettled]
      refine ⟨hwithin.answered, ?_, fun _ => hgathered.right⟩
      intro _ parsed hparsed
      cases hparsed
    | ok parsed =>
      have hsettled : Batch.settled b m rows ids = (done.cacheMisses.foldl
          (fun s miss => s.1.refill s.2 miss.1 miss.2) (done, parsed)).1 := by
        unfold Batch.settled
        rw [hdone]
        simp only [if_neg hempty, hrefetch]
      have hright := @refill_right_iff own _ _ parsed
        (fun m hm => (hgathered.free m hm).2) hgathered.apart
      rw [hsettled]
      refine ⟨(hwithin.refillAll hwithin.missing).answered, ?_, ?_⟩
      · intro h parsed' heq
        cases heq
        exact (hright.mp h).2
      · intro h
        exact hright.mpr ⟨hgathered.right, h parsed rfl⟩

theorem forwardBatchParts_ok_iff (b : Backend) (args : Value)
    (answer : List Forwarded × List ForwardFailure) :
    forwardBatchParts crates b args = .ok answer ↔
      ∃ id ids m listed, parseId crates args "message_id" = .ok id ∧
        parseIdArray crates args "attachment_ids" maxForwardAttachmentBatch = .ok ids ∧
        requireMessage b id = .ok m ∧ b.listForMessage id = .ok listed ∧
        answer = ((Batch.settled b m listed ids).attachments.filterMap (fun f => f),
          (Batch.settled b m listed ids).failed) := by
  unfold forwardBatchParts
  constructor
  · intro h
    obtain ⟨id, hid, h⟩ := bind_eq_ok.mp h
    obtain ⟨ids, hids, h⟩ := bind_eq_ok.mp h
    obtain ⟨m, hm, h⟩ := bind_eq_ok.mp h
    obtain ⟨listed, hlisted, h⟩ := bind_eq_ok.mp h
    exact ⟨id, ids, m, listed, hid, hids, hm, ctx_eq_ok.mp hlisted, (Except.ok.inj h).symm⟩
  · rintro ⟨id, ids, m, listed, hid, hids, hm, hlisted, rfl⟩
    exact bind_eq_ok.mpr ⟨id, hid, bind_eq_ok.mpr ⟨ids, hids, bind_eq_ok.mpr ⟨m, hm,
      bind_eq_ok.mpr ⟨listed, ctx_eq_ok.mpr hlisted, rfl⟩⟩⟩⟩

theorem asks_batch_iff (hall : a.batch = true) (m : Message) (wanted : List Attachment) :
    a.asks crates = .ok (m, wanted) ↔
      ∃ id ids listed, parseId crates a.args "message_id" = .ok id ∧
        parseIdArray crates a.args "attachment_ids" maxForwardAttachmentBatch = .ok ids ∧
        requireMessage a.backend id = .ok m ∧ a.backend.listForMessage id = .ok listed ∧
        wanted = asked (byId listed) ids := by
  unfold Attempt.asks
  rw [hall, if_pos rfl]
  constructor
  · intro h
    obtain ⟨id, hid, h⟩ := bind_eq_ok.mp h
    obtain ⟨ids, hids, h⟩ := bind_eq_ok.mp h
    obtain ⟨m', hm, h⟩ := bind_eq_ok.mp h
    obtain ⟨listed, hlisted, h⟩ := bind_eq_ok.mp h
    cases h
    exact ⟨id, ids, listed, hid, hids, hm, ctx_eq_ok.mp hlisted, rfl⟩
  · rintro ⟨id, ids, listed, hid, hids, hm, hlisted, rfl⟩
    exact bind_eq_ok.mpr ⟨id, hid, bind_eq_ok.mpr ⟨ids, hids, bind_eq_ok.mpr ⟨m, hm,
      bind_eq_ok.mpr ⟨listed, ctx_eq_ok.mpr hlisted, rfl⟩⟩⟩⟩

/-- What a batch comes to. -/
theorem Attempt.Sees.many (h : a.Sees crates message rows raw parts files)
    (hkept : Kept own rows files) (hall : a.batch = true) :
    (∀ f ∈ a.forwarded crates, f.attachment ∈ rows) ∧
      ((∀ f ∈ a.forwarded crates, f.bytes = own f.attachment) ↔ a.Unmixed crates own parts) := by
  have hcached : ∀ row ∈ rows, ∀ bytes,
      a.backend.readFile row.storagePath = some bytes → bytes = own row :=
    fun row hrow bytes hread => hkept row hrow bytes (h.reads row hrow bytes hread)
  have hforwarded : a.forwarded crates = match forwardBatchParts crates a.backend a.args with
      | .ok answer => answer.1
      | .error _ => [] := by
    rw [Attempt.forwarded, hall, if_pos rfl]
  cases hparts : forwardBatchParts crates a.backend a.args with
  | error e =>
    rw [hparts] at hforwarded
    have hno : ∀ m wanted, a.asks crates ≠ .ok (m, wanted) := by
      intro m wanted hasks
      obtain ⟨id, ids, listed, hid, hids, hm, hlisted, -⟩ := (asks_batch_iff hall m wanted).mp hasks
      have hok := (forwardBatchParts_ok_iff a.backend a.args _).mpr
        ⟨id, ids, m, listed, hid, hids, hm, hlisted, rfl⟩
      rw [hparts] at hok
      cases hok
    rw [hforwarded]
    refine ⟨fun f hf => absurd hf List.not_mem_nil, ?_, fun _ f hf => absurd hf List.not_mem_nil⟩
    intro _ m wanted parsed hasks
    exact absurd hasks (hno m wanted)
  | ok answer =>
    rw [hparts] at hforwarded
    obtain ⟨id, ids, m, listed, hid, hids, hm, hlisted, rfl⟩ :=
      (forwardBatchParts_ok_iff a.backend a.args answer).mp hparts
    obtain rfl := h.all hall id hid
    obtain rfl := h.list listed hlisted
    obtain ⟨hmember, hright⟩ := settled_right m ids hcached
    have hmem : ∀ f, f ∈ a.forwarded crates ↔
        some f ∈ (Batch.settled a.backend m listed ids).attachments := by
      intro f
      rw [hforwarded]
      show f ∈ List.filterMap (fun f => f) _ ↔ _
      rw [List.mem_filterMap]
      simp
    simp only [hmem]
    refine ⟨hmember, hright.trans ?_⟩
    constructor
    · intro hown m' wanted parsed hasks hparsed
      obtain ⟨id', ids', listed', hid', hids', hm', hlisted', rfl⟩ :=
        (asks_batch_iff hall m' wanted).mp hasks
      rw [hid] at hid'
      cases hid'
      rw [hids] at hids'
      cases hids'
      rw [hm] at hm'
      cases hm'
      rw [hlisted] at hlisted'
      cases hlisted'
      obtain rfl := h.refetched hparsed
      exact hown parsed hparsed
    · intro hunmixed parsed hparsed
      have hown := hunmixed m _ parsed ((asks_batch_iff hall m _).mpr
        ⟨id, ids, listed, hid, hids, hm, hlisted, rfl⟩) hparsed
      obtain rfl := h.refetched hparsed
      exact hown

/-- A request answers with the rows' own bytes exactly when its rows find their own parts. -/
theorem Attempt.Sees.right_iff (h : a.Sees crates message rows raw parts files)
    (hkept : Kept own rows files) :
    (∀ f ∈ a.forwarded crates, f.attachment ∈ rows) ∧
      ((∀ f ∈ a.forwarded crates, f.bytes = own f.attachment) ↔ a.Unmixed crates own parts) := by
  cases hbatch : a.batch with
  | false => exact h.single hkept hbatch
  | true => exact h.many hkept hbatch

/-! ## Runs -/

theorem kept_writeBack (hpaths : ∀ row ∈ rows, ∀ row' ∈ rows,
    row.storagePath = row'.storagePath → own row = own row') (written : String → Bool)
    {answer : List Forwarded} (hmember : ∀ f ∈ answer, f.attachment ∈ rows)
    (hright : ∀ f ∈ answer, f.bytes = own f.attachment) (hkept : Kept own rows files) :
    Kept own rows (answer.foldl (writeBack written) files) := by
  induction answer generalizing files with
  | nil => exact hkept
  | cons f answer ih =>
    rw [List.forall_mem_cons] at hmember hright
    rw [List.foldl_cons]
    refine ih hmember.2 hright.2 ?_
    unfold writeBack
    split_ifs
    · intro row hrow bytes hbytes
      by_cases hpath : row.storagePath = f.attachment.storagePath
      · rw [hpath, Function.update_self] at hbytes
        rw [← Option.some.inj hbytes, hright.1]
        exact hpaths _ hmember.1 _ hrow hpath.symm
      · rw [Function.update_of_ne hpath] at hbytes
        exact hkept row hrow bytes hbytes
    · exact hkept

/-- Every payload of the run and every copy on the way are the rows' own bytes. -/
structure Faithful (crates : Crates) (own : Attachment → List UInt8) (rows : List Attachment)
    (files : Files) (attempts : List Attempt) : Prop where
  payloads : ∀ a ∈ attempts, ∀ f ∈ a.forwarded crates, f.bytes = own f.attachment
  copies : ∀ done, done <+: attempts → Kept own rows (done.foldl (Attempt.after crates) files)

/-- Each request sees the files that the requests before it have left. -/
def SeesAll (crates : Crates) (message : Uuid) (rows : List Attachment) (raw : List UInt8)
    (parts : List ParsedAttachment) (files : Files) (attempts : List Attempt) : Prop :=
  ∀ done a, done ++ [a] <+: attempts →
    a.Sees crates message rows raw parts (done.foldl (Attempt.after crates) files)

theorem faithful_iff (hpaths : ∀ row ∈ rows, ∀ row' ∈ rows,
    row.storagePath = row'.storagePath → own row = own row') {attempts : List Attempt}
    (hkept : Kept own rows files) (hsees : SeesAll crates message rows raw parts files attempts) :
    Faithful crates own rows files attempts ↔ ∀ a ∈ attempts, a.Unmixed crates own parts := by
  induction attempts generalizing files with
  | nil =>
    constructor
    · exact fun _ a ha => absurd ha List.not_mem_nil
    · intro _
      refine ⟨fun a ha => absurd ha List.not_mem_nil, ?_⟩
      intro done hdone
      rw [List.prefix_nil.mp hdone]
      exact hkept
  | cons a rest ih =>
    have hfirst := hsees [] a (List.prefix_append [a] rest)
    obtain ⟨hmember, hright⟩ := hfirst.right_iff hkept
    have hrest : SeesAll crates message rows raw parts (a.after crates files) rest := by
      intro done b hdone
      exact hsees (a :: done) b (List.cons_prefix_cons.mpr ⟨rfl, hdone⟩)
    have hstep : (∀ f ∈ a.forwarded crates, f.bytes = own f.attachment) →
        Kept own rows (a.after crates files) :=
      fun hf => kept_writeBack hpaths a.written hmember hf hkept
    rw [List.forall_mem_cons, ← hright]
    constructor
    · intro h
      have hpayload := h.payloads a List.mem_cons_self
      refine ⟨hpayload, (ih (hstep hpayload) hrest).mp ⟨?_, ?_⟩⟩
      · exact fun b hb => h.payloads b (List.mem_cons_of_mem _ hb)
      · intro done hdone
        exact h.copies (a :: done) (List.cons_prefix_cons.mpr ⟨rfl, hdone⟩)
    · rintro ⟨hpayload, hothers⟩
      have hlater := (ih (hstep hpayload) hrest).mpr hothers
      refine ⟨List.forall_mem_cons.mpr ⟨hpayload, hlater.payloads⟩, ?_⟩
      intro done hdone
      cases done with
      | nil => exact hkept
      | cons b done =>
        obtain ⟨rfl, htail⟩ := List.cons_prefix_cons.mp hdone
        exact hlater.copies done htail

end

end Postblox.Daemon.Fetch
