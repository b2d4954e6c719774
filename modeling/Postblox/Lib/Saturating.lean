import Mathlib

/-!
# Saturating arithmetic

`saturatingAdd` and `saturatingSub` stop at the ends of the 32-bit word instead of
wrapping, as `u32::saturating_add` and `u32::saturating_sub` do. Each is related
to the exact sum or difference of naturals. A sum that stops at a greatest value is the
exact sum cut once at the end, and so is repeated doubling.
-/
namespace Postblox.Lib

/-- `u32::MAX`. -/
def u32Max : Nat := 4294967295

theorem toNat_le_u32Max (a : UInt32) : a.toNat ≤ u32Max := by
  have h := a.toNat_lt
  unfold u32Max
  omega

def saturatingAdd (a b : UInt32) : UInt32 :=
  if a.toNat + b.toNat ≤ u32Max then a + b else UInt32.ofNat u32Max

def saturatingSub (a b : UInt32) : UInt32 := if b ≤ a then a - b else 0

theorem toNat_saturatingAdd (a b : UInt32) :
    (saturatingAdd a b).toNat = min (a.toNat + b.toNat) u32Max := by
  unfold saturatingAdd
  split_ifs with h
  · rw [UInt32.toNat_add, Nat.mod_eq_of_lt (by unfold u32Max at h; omega)]
    omega
  · have hmax : (UInt32.ofNat u32Max).toNat = u32Max := by decide
    rw [hmax]
    omega

theorem toNat_saturatingSub (a b : UInt32) :
    (saturatingSub a b).toNat = a.toNat - b.toNat := by
  unfold saturatingSub
  split_ifs with h
  · exact UInt32.toNat_sub_of_le a b h
  · have hlt : a.toNat < b.toNat := UInt32.lt_iff_toNat_lt.mp (UInt32.not_le.mp h)
    have hzero : (0 : UInt32).toNat = 0 := rfl
    omega

/-- `i64::clamp(0, u32::MAX) as u32`. -/
def clampU32 (i : Int) : UInt32 := UInt32.ofNat (min i.toNat u32Max)

theorem toNat_clampU32 (i : Int) : (clampU32 i).toNat = min i.toNat u32Max := by
  unfold clampU32
  refine UInt32.toNat_ofNat_of_lt' ?_
  show min i.toNat u32Max < 4294967296
  unfold u32Max
  omega

/-! ## Sums up to a greatest value -/

/-- A word's `saturating_add`; `top` is the greatest value. -/
def addUpTo (top a b : Nat) : Nat := min (a + b) top

theorem addUpTo_min_left (top a b : Nat) : addUpTo top (min a top) b = min (a + b) top := by
  unfold addUpTo
  omega

/-- Stopping on the way and cutting at the end come to the same. -/
theorem foldl_addUpTo {α : Type*} (top start : Nat) (f : α → Nat) (l : List α) :
    l.foldl (fun sum x => addUpTo top sum (f x)) (min start top) =
      min (start + (l.map f).sum) top := by
  induction l generalizing start with
  | nil => rfl
  | cons x rest ih =>
    rw [List.foldl_cons, addUpTo_min_left, ih, List.map_cons, List.sum_cons, Nat.add_assoc]

/-! ## Doubling up to a bound -/

/-- `saturating_mul(2)` followed by `min(bound)`; `top` is the greatest value. -/
def doubleUpTo (top bound a : Nat) : Nat := min (min (2 * a) top) bound

theorem doubleUpTo_eq {top bound : Nat} (hbound : bound ≤ top) (a : Nat) :
    doubleUpTo top bound a = min (2 * a) bound := by
  unfold doubleUpTo
  omega

/-- Doubling again and again is one power of two, cut once at the bound. -/
theorem iterate_doubleUpTo {top bound : Nat} (hbound : bound ≤ top) (a n : Nat) :
    (doubleUpTo top bound)^[n + 1] a = min (a * 2 ^ (n + 1)) bound := by
  induction n with
  | zero =>
    rw [Function.iterate_one, doubleUpTo_eq hbound, Nat.zero_add, pow_one, Nat.mul_comm]
  | succ n ih =>
    rw [Function.iterate_succ_apply', ih, doubleUpTo_eq hbound, pow_succ 2 (n + 1)]
    have hmul : a * (2 ^ (n + 1) * 2) = 2 * (a * 2 ^ (n + 1)) := by ring
    rw [hmul]
    omega

end Postblox.Lib
