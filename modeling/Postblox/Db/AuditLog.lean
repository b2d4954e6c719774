import Postblox.Json
import Postblox.Lib.Machine
import Postblox.Lib.Lists
import Postblox.Lib.Ranking
import Postblox.Uuid

/-!
# The audit log

Rows are only added. A listing shows the newest first, one page of at most five hundred at
a time, and rows keep being added while somebody pages through it.
-/
namespace Postblox.Db

open Json Lib

structure NewAuditEntry where
  actor : String
  action : String
  target : Option String
  details : Value
  deriving DecidableEq

/-- A row; the time counts milliseconds. -/
structure AuditEntry where
  id : Uuid
  actor : String
  action : String
  target : Option String
  details : Value
  createdAt : Int
  deriving DecidableEq

/-- A row under the number it got when it was added. -/
structure AuditRow where
  rowid : Nat
  entry : AuditEntry

/-- The rows in the order of their numbers. -/
structure AuditLog where
  rows : List AuditRow

namespace AuditLog

variable (log : AuditLog)

def entries : List AuditEntry := log.rows.map (·.entry)

def nextRowid : Nat := (log.rows.getLast?.elim 0 (·.rowid)) + 1

/-- `record`; `none` if the id is taken. -/
def record (id : Uuid) (now : Int) (new : NewAuditEntry) : Option AuditLog :=
  if log.rows.any fun row => row.entry.id = id then none
  else some ⟨log.rows ++ [⟨log.nextRowid,
    ⟨id, new.actor, new.action, new.target, new.details, now⟩⟩]⟩

/-- `ORDER BY created_at DESC, rowid DESC`. -/
def newestKey (row : AuditRow) : ℤ ×ₗ ℤ := toLex (-row.entry.createdAt, -(row.rowid : ℤ))

def newestFirst : List AuditEntry := (sortByKey newestKey log.rows).map (·.entry)

def listRecent (limit offset : Int) : List AuditEntry :=
  page log.newestFirst (max 1 (min limit 500)).toNat (max offset 0).toNat

/-- `op_audit_list`. -/
def opAuditList (args : Value) : List AuditEntry :=
  log.listRecent (((args.get "limit").bind Value.asI64).getD 50)
    (((args.get "offset").bind Value.asI64).getD 0)

end AuditLog

/-! ## Paging through the log -/

/-- What was seen so far, from how many pages, and whether the last one was not full. -/
structure AuditReader where
  log : AuditLog
  seen : List AuditEntry
  pages : Nat
  done : Bool

/-- The arguments for the rows behind the first `skip`. -/
def pageArgs (limit skip : Nat) : Value :=
  .object [("limit", .number (.posInt (.ofNat limit))), ("offset", .number (.posInt (.ofNat skip)))]

inductive AuditAct where
  | record (id : Uuid) (now : Int) (new : NewAuditEntry)
  | nextPage

namespace AuditReader

def begin (log : AuditLog) : AuditReader := ⟨log, [], 0, false⟩

/-- A record that fails leaves the log; the caller only warns of it. -/
def step (limit : Nat) (r : AuditReader) : AuditAct → Option AuditReader
  | .record id now new => some { r with log := (r.log.record id now new).getD r.log }
  | .nextPage =>
    if r.done ∨ Value.i64Max < r.pages * limit then none
    else
      let next := r.log.opAuditList (pageArgs limit (r.pages * limit))
      some ⟨r.log, r.seen ++ next, r.pages + 1, next.length < limit⟩

end AuditReader

/-! ## Nothing is missed -/

section Missing

variable {log log' : AuditLog} {id : Uuid} {now : Int} {new : NewAuditEntry} {limit : Nat}

/-- A new row goes between the others, wherever its time puts it. -/
theorem newestFirst_record (h : log.record id now new = some log') :
    log.newestFirst.Sublist log'.newestFirst := by
  unfold AuditLog.record at h
  split at h
  · cases h
  next hfree =>
    cases h
    have hold : ∀ row ∈ log.rows, decide (row.entry.id ≠ id) = true := by
      intro row hrow
      rw [List.any_eq_true] at hfree
      push Not at hfree
      simpa using hfree row hrow
    have hkept := sortByKey_filter AuditLog.newestKey (fun row => decide (row.entry.id ≠ id))
      (log.rows ++ [⟨log.nextRowid, ⟨id, new.actor, new.action, new.target, new.details, now⟩⟩])
    rw [List.filter_append, List.filter_eq_self.mpr hold] at hkept
    simp only [ne_eq, not_true_eq_false, decide_false, List.filter_cons, List.filter_nil,
      Bool.false_eq_true, if_false, List.append_nil] at hkept
    rw [AuditLog.newestFirst, AuditLog.newestFirst, hkept]
    exact List.filter_sublist.map _

theorem entries_record (h : log.record id now new = some log') : log.entries.Sublist log'.entries := by
  unfold AuditLog.record at h
  split at h
  · cases h
  · cases h
    rw [AuditLog.entries, AuditLog.entries, List.map_append]
    exact List.sublist_append_left _ _

theorem mem_newestFirst {e : AuditEntry} : e ∈ log.newestFirst ↔ e ∈ log.entries :=
  ((sortByKey_perm AuditLog.newestKey log.rows).map _).mem_iff

theorem asI64_ofNat {n : Nat} (h : n ≤ Value.i64Max) :
    Value.asI64 (.number (.posInt (.ofNat n))) = some (n : Int) := by
  have hfits : (UInt64.ofNat n).toNat = n := by
    rw [Value.i64Max] at h
    rw [UInt64.toNat_ofNat']
    omega
  rw [Value.asI64, hfits, if_pos h]

theorem opAuditList_pageArgs {skip : Nat} (hlimit : 1 ≤ limit) (hcap : limit ≤ 500)
    (hskip : skip ≤ Value.i64Max) :
    log.opAuditList (pageArgs limit skip) = page log.newestFirst limit skip := by
  have hfits : limit ≤ Value.i64Max := hcap.trans (by decide)
  have hargs : ((pageArgs limit skip).get "limit").bind Value.asI64 = some (limit : Int) ∧
      ((pageArgs limit skip).get "offset").bind Value.asI64 = some (skip : Int) :=
    ⟨asI64_ofNat hfits, asI64_ofNat hskip⟩
  have hsize : (max 1 (min (limit : Int) 500)).toNat = limit := by omega
  have hpast : (max (skip : Int) 0).toNat = skip := by omega
  rw [AuditLog.opAuditList, hargs.1, hargs.2, Option.getD_some, Option.getD_some,
    AuditLog.listRecent, hsize, hpast]

/-- What the reader has seen is in the log; what was there at the start was seen or is still
to come, and once the reader is done it was seen. -/
structure AuditReader.Follows (limit : Nat) (log : AuditLog) (r : AuditReader) : Prop where
  unmissed : Unmissed log.newestFirst r.seen r.log.newestFirst (r.pages * limit)
  done : r.done = true → log.newestFirst.Sublist r.seen
  real : ∀ e ∈ r.seen, e ∈ r.log.entries

theorem AuditReader.Follows.next {r t : AuditReader} {act : AuditAct} (hlimit : 1 ≤ limit)
    (hcap : limit ≤ 500) (h : r.Follows limit log) (hstep : r.step limit act = some t) :
    t.Follows limit log := by
  cases act with
  | record id now new =>
    cases hstep
    cases hlog : r.log.record id now new with
    | none => exact h
    | some log' =>
      exact ⟨h.unmissed.grow (newestFirst_record hlog), h.done,
        fun e he => (entries_record hlog).subset (h.real e he)⟩
  | nextPage =>
    simp only [step] at hstep
    split at hstep
    · cases hstep
    next hmay =>
      cases hstep
      have hpages : (r.pages + 1) * limit = r.pages * limit + limit := Nat.succ_mul _ _
      rw [not_or, Nat.not_lt] at hmay
      rw [opAuditList_pageArgs hlimit hcap hmay.2]
      refine ⟨?_, fun hdone => ?_, fun e he => ?_⟩
      · rw [hpages]
        exact h.unmissed.read limit
      · exact h.unmissed.all_of_short (of_decide_eq_true hdone)
      · rcases List.mem_append.mp he with hseen | hpage
        · exact h.real e hseen
        · exact mem_newestFirst.mp (List.mem_of_mem_drop (List.mem_of_mem_take hpage))

/-- Whatever is recorded meanwhile, a reader that pages through the log to its end has seen,
newest first, every entry that was there when it began. -/
theorem reading_misses_nothing {acts : List AuditAct} {r : AuditReader} (hlimit : 1 ≤ limit)
    (hcap : limit ≤ 500)
    (hrun : Machine.run (AuditReader.step limit) (AuditReader.begin log) acts = some r) :
    (∀ e ∈ r.seen, e ∈ r.log.entries) ∧ (r.done = true → log.newestFirst.Sublist r.seen) := by
  have hstart : (AuditReader.begin log).Follows limit log := by
    refine ⟨?_, nofun, nofun⟩
    rw [AuditReader.begin, Nat.zero_mul]
    exact .at_start _
  have hend := Machine.invariant (AuditReader.step limit) (I := AuditReader.Follows limit log)
    hstart (fun _ _ _ h hstep => h.next hlimit hcap hstep) hrun
  exact ⟨hend.real, hend.done⟩

def sampleEntry (n : Nat) : NewAuditEntry := ⟨"user", "message.delete", some (toString n), .null⟩

/-- Three rows in the second they were added. -/
def sampleLog : AuditLog :=
  ⟨[⟨1, ⟨.filled 1, "user", "a", none, .null, 100⟩⟩, ⟨2, ⟨.filled 2, "user", "b", none, .null, 100⟩⟩,
    ⟨3, ⟨.filled 3, "user", "c", none, .null, 101⟩⟩]⟩

/-- A row is added between the first page and the second. -/
theorem reading_misses_nothing_three :
    ∃ r, Machine.run (AuditReader.step 2) (AuditReader.begin sampleLog)
        [.nextPage, .record (.filled 4) 102 (sampleEntry 4), .nextPage, .nextPage] = some r ∧
      r.seen.map (·.action) = ["c", "b", "b", "a"] ∧ sampleLog.newestFirst.Sublist r.seen := by
  have hrun : Machine.run (AuditReader.step 2) (AuditReader.begin sampleLog)
      [.nextPage, .record (.filled 4) 102 (sampleEntry 4), .nextPage, .nextPage] = some _ := rfl
  exact ⟨_, hrun, by decide, (reading_misses_nothing (by decide) (by decide) hrun).2 rfl⟩

end Missing

end Postblox.Db
