import Mathlib

/-!
# A bounded broadcast channel

The channel keeps the last values that fit and a receiver has a position of its own. One
that has fallen behind what is kept is told how many values it missed and goes on with the
oldest. `Accounts` says that what a receiver got accounts for a stretch of the log, value
by value, with a count in the place of every gap. A channel `Holds` a log if it keeps the
end of it; what it yields then accounts for the log between the two positions.
-/
namespace Postblox.Lib

variable {α : Type*}

/-- What `recv` yields. -/
inductive Received (α : Type*) where
  | value (a : α)
  | lagged (missed : Nat)
  deriving DecidableEq

/-- `sent` counts all values, `kept` has the last of them, the newest at the end. -/
structure Channel (α : Type*) where
  sent : Nat
  kept : List α

namespace Channel

def empty : Channel α := ⟨0, []⟩

/-- The oldest value goes when all `capacity` places are taken. -/
def send (capacity : Nat) (c : Channel α) (a : α) : Channel α where
  sent := c.sent + 1
  kept := if c.kept.length < capacity then c.kept ++ [a] else c.kept.tail ++ [a]

/-- The position of the oldest value. -/
def oldest (c : Channel α) : Nat := c.sent - c.kept.length

/-- The next value and the position behind it; `none` waits. -/
def recv (c : Channel α) (next : Nat) : Option (Received α × Nat) :=
  if next < c.oldest then some (.lagged (c.oldest - next), c.oldest)
  else c.kept[next - c.oldest]?.map fun a => (.value a, next + 1)

end Channel

/-! ## The log behind a channel -/

/-- The stretch of a list between two positions. -/
def stretch (log : List α) (start stop : Nat) : List α := (log.take stop).drop start

theorem length_stretch {log : List α} {start stop : Nat} (hstop : stop ≤ log.length) :
    (stretch log start stop).length = stop - start := by
  rw [stretch, List.length_drop, List.length_take, Nat.min_eq_left hstop]

/-- More log behind the stretch changes nothing. -/
theorem stretch_append {log : List α} {start stop : Nat} (hstop : stop ≤ log.length)
    (later : List α) : stretch (log ++ later) start stop = stretch log start stop := by
  rw [stretch, stretch, List.take_append_of_le_length hstop]

theorem stretch_self (log : List α) (start : Nat) : stretch log start start = [] :=
  List.drop_eq_nil_of_le (List.length_take_le _ _)

theorem stretch_trans (log : List α) {start mid stop : Nat} (hstart : start ≤ mid)
    (hmid : mid ≤ stop) :
    stretch log start mid ++ stretch log mid stop = stretch log start stop := by
  have htake : log.take mid = (log.take stop).take mid := by
    rw [List.take_take, Nat.min_eq_left hmid]
  unfold stretch
  rw [htake, List.drop_take]
  have hdrop : (log.take stop).drop mid = ((log.take stop).drop start).drop (mid - start) := by
    rw [List.drop_drop]
    congr 1
    omega
  rw [hdrop, List.take_append_drop]

theorem stretch_succ {log : List α} {next : Nat} {a : α} (ha : log[next]? = some a) :
    stretch log next (next + 1) = [a] := by
  have hlt : next < log.length := (List.getElem?_eq_some_iff.mp ha).1
  have hlen : (log.take next).length = next := by
    rw [List.length_take, Nat.min_eq_left hlt.le]
  rw [stretch, List.take_add_one, ha, Option.toList_some, List.drop_append, hlen, Nat.sub_self,
    List.drop_zero, List.drop_eq_nil_of_le hlen.le, List.nil_append]

/-- The channel keeps the end of the log. -/
structure Channel.Holds (capacity : Nat) (c : Channel α) (log : List α) : Prop where
  sent_eq : c.sent = log.length
  kept_eq : c.kept = log.drop (log.length - capacity)

theorem holds_empty (capacity : Nat) : Channel.Holds capacity (Channel.empty : Channel α) [] :=
  ⟨rfl, List.drop_nil.symm⟩

namespace Channel.Holds

variable {capacity : Nat} {c : Channel α} {log : List α}

theorem length_kept (h : c.Holds capacity log) : c.kept.length = min capacity log.length := by
  rw [h.kept_eq, List.length_drop]
  omega

theorem oldest_eq (h : c.Holds capacity log) : c.oldest = log.length - capacity := by
  rw [Channel.oldest, h.sent_eq, h.length_kept]
  omega

theorem send (h : c.Holds capacity log) (hcapacity : 0 < capacity) (a : α) :
    (c.send capacity a).Holds capacity (log ++ [a]) where
  sent_eq := by
    rw [List.length_append, List.length_singleton, ← h.sent_eq]
    rfl
  kept_eq := by
    have hlen := h.length_kept
    rw [List.length_append, List.length_singleton]
    unfold Channel.send
    split_ifs with hroom
    · have hzero : log.length - capacity = 0 := by omega
      have hzero' : log.length + 1 - capacity = 0 := by omega
      rw [h.kept_eq, hzero, hzero', List.drop_zero, List.drop_zero]
    · have hsucc : log.length + 1 - capacity = log.length - capacity + 1 := by omega
      rw [hsucc, List.drop_append_of_le_length (by omega), h.kept_eq, List.tail_drop]

end Channel.Holds

/-! ## What a receiver got -/

/-- What was received accounts for the log. -/
inductive Accounts : List (Received α) → List α → Prop where
  | nil : Accounts [] []
  | value {out : List (Received α)} {log : List α} (a : α) (h : Accounts out log) :
      Accounts (out ++ [.value a]) (log ++ [a])
  | lagged {out : List (Received α)} {log : List α} (missed : List α) (hmissed : missed ≠ [])
      (h : Accounts out log) : Accounts (out ++ [.lagged missed.length]) (log ++ missed)

namespace Accounts

variable {out : List (Received α)} {log : List α}

/-- The values received, in order. -/
def values (out : List (Received α)) : List α :=
  out.filterMap fun
    | .value a => some a
    | .lagged _ => none

/-- The values that one yield stands for. -/
def weight : Received α → Nat
  | .value _ => 1
  | .lagged missed => missed

/-- Nothing is counted twice and nothing is left out. -/
theorem length_eq (h : Accounts out log) : (out.map weight).sum = log.length := by
  induction h with
  | nil => rfl
  | value a _ ih => simp [ih, weight]
  | lagged missed _ _ ih => simp [ih, weight]

/-- The values come in the order of the log, none twice. -/
theorem values_sublist (h : Accounts out log) : (values out).Sublist log := by
  induction h with
  | nil => exact .slnil
  | value a _ ih => simpa [values] using ih.append (List.Sublist.refl [a])
  | lagged missed _ _ ih => simpa [values] using ih.trans (List.sublist_append_left _ missed)

/-- Without a gap the values are the log. -/
theorem eq_of_no_lag (h : Accounts out log) (hlag : ∀ missed, .lagged missed ∉ out) :
    out = log.map .value := by
  induction h with
  | nil => rfl
  | value a h ih =>
    have hfront := ih fun missed hmem => hlag missed (List.mem_append_left _ hmem)
    rw [List.map_append, hfront]
    rfl
  | lagged missed hmissed h => exact absurd (List.mem_append_right _ List.mem_cons_self) (hlag _)

end Accounts

/-- One `recv` goes forward, within the log, and accounts for what it passed. -/
theorem accounts_recv {capacity : Nat} {c : Channel α} {log : List α} {next stop : Nat}
    {r : Received α} (h : c.Holds capacity log) (hrecv : c.recv next = some (r, stop)) :
    next < stop ∧ stop ≤ log.length ∧
      ∀ {out : List (Received α)} {seen : List α}, Accounts out seen →
        Accounts (out ++ [r]) (seen ++ stretch log next stop) := by
  have hold := h.oldest_eq
  unfold Channel.recv at hrecv
  split_ifs at hrecv with hlag
  · obtain ⟨rfl, rfl⟩ := Prod.mk.inj (Option.some.inj hrecv)
    have hle : c.oldest ≤ log.length := by omega
    have hlen : (stretch log next c.oldest).length = c.oldest - next := length_stretch hle
    refine ⟨hlag, hle, fun hacc => ?_⟩
    rw [← hlen]
    exact hacc.lagged _ (List.ne_nil_of_length_pos (by omega))
  · obtain ⟨a, ha, heq⟩ := Option.map_eq_some_iff.mp hrecv
    obtain ⟨rfl, rfl⟩ := Prod.mk.inj heq
    have hat : log[next]? = some a := by
      rw [h.kept_eq, List.getElem?_drop] at ha
      rwa [show log.length - capacity + (next - c.oldest) = next by omega] at ha
    refine ⟨Nat.lt_succ_self next, (List.getElem?_eq_some_iff.mp hat).1, fun hacc => ?_⟩
    rw [stretch_succ hat]
    exact hacc.value a

/-- A receiver that is at most `capacity` values behind misses none. -/
theorem recv_of_near {capacity : Nat} {c : Channel α} {log : List α} {next stop : Nat}
    {r : Received α} (h : c.Holds capacity log) (hnear : log.length ≤ next + capacity)
    (hrecv : c.recv next = some (r, stop)) : ∀ missed, r ≠ .lagged missed := by
  intro missed hr
  have hold := h.oldest_eq
  unfold Channel.recv at hrecv
  split_ifs at hrecv with hlag
  · omega
  · obtain ⟨a, -, heq⟩ := Option.map_eq_some_iff.mp hrecv
    rw [hr] at heq
    cases (Prod.mk.inj heq).1

end Postblox.Lib
