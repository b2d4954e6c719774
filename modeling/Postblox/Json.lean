import Mathlib

/-!
# JSON values as `serde_json` holds them

`Value` follows `serde_json::Value` without the `preserve_order` feature: an
object is a `BTreeMap`, here its entry list, and `Sorted` is the key order such
a map keeps. Equality of values is the derived `PartialEq`; a float is its
numeric value, so `0.0` and `-0.0` are equal as they are in Rust.
-/
namespace Postblox.Json

/-- The three representations of `serde_json::Number`. `negInt m` is `-(m + 1)`:
the crate stores only negative numbers there. -/
inductive Number where
  | posInt (n : UInt64)
  | negInt (m : Fin (2 ^ 63))
  | float (x : Rat)
  deriving DecidableEq

instance neZeroBound : NeZero (2 ^ 63 : Nat) := ⟨by decide⟩

inductive Value where
  | null
  | bool (b : Bool)
  | number (n : Number)
  | string (s : String)
  | array (items : List Value)
  | object (entries : List (String × Value))

instance : Inhabited Value := ⟨.null⟩

/-! ## Equality -/

mutual

def Value.beq : Value → Value → Bool
  | .null, .null => true
  | .bool a, .bool b => a == b
  | .number a, .number b => decide (a = b)
  | .string a, .string b => a == b
  | .array a, .array b => beqItems a b
  | .object a, .object b => beqEntries a b
  | _, _ => false

def beqItems : List Value → List Value → Bool
  | [], [] => true
  | a :: as, b :: bs => a.beq b && beqItems as bs
  | _, _ => false

def beqEntries : List (String × Value) → List (String × Value) → Bool
  | [], [] => true
  | (k, a) :: as, (l, b) :: bs => k == l && a.beq b && beqEntries as bs
  | _, _ => false

end

mutual

theorem Value.beq_iff (a b : Value) : a.beq b = true ↔ a = b := by
  cases a <;> cases b <;> simp [Value.beq, beqItems_iff, beqEntries_iff]

theorem beqItems_iff (as bs : List Value) : beqItems as bs = true ↔ as = bs := by
  cases as with
  | nil => cases bs <;> simp [beqItems]
  | cons a as => cases bs with
    | nil => simp [beqItems]
    | cons b bs => simp [beqItems, Value.beq_iff a b, beqItems_iff as bs]

theorem beqEntries_iff (as bs : List (String × Value)) : beqEntries as bs = true ↔ as = bs := by
  cases as with
  | nil => cases bs <;> simp [beqEntries]
  | cons a as => cases bs with
    | nil => cases a; simp [beqEntries]
    | cons b bs =>
      obtain ⟨k, v⟩ := a
      obtain ⟨l, w⟩ := b
      simp [beqEntries, Value.beq_iff v w, beqEntries_iff as bs]

end

instance : DecidableEq Value := fun a b => decidable_of_iff (a.beq b = true) (Value.beq_iff a b)

/-! ## Accessors -/

namespace Value

/-- `Value::get` with a string key: only objects have one. -/
def get (v : Value) (key : String) : Option Value :=
  match v with
  | .object entries => entries.lookup key
  | _ => none

def asStr : Value → Option String
  | .string s => some s
  | _ => none

def asBool : Value → Option Bool
  | .bool b => some b
  | _ => none

def asArray : Value → Option (List Value)
  | .array items => some items
  | _ => none

def asObject : Value → Option (List (String × Value))
  | .object entries => some entries
  | _ => none

/-- `i64::MAX`. -/
def i64Max : Nat := 9223372036854775807

/-- `Value::as_i64`: integers that fit an `i64`, never floats. -/
def asI64 : Value → Option Int
  | .number (.posInt n) => if n.toNat ≤ i64Max then some n.toNat else none
  | .number (.negInt m) => some (-(m.val + 1))
  | _ => none

/-- `Value::as_u64`: the non-negative integers. -/
def asU64 : Value → Option Nat
  | .number (.posInt n) => some n.toNat
  | _ => none

/-- An object's keys stand in the strictly increasing order of a `BTreeMap`. -/
def Sorted : Value → Prop
  | .object entries => (entries.map Prod.fst).Pairwise (· < ·)
  | _ => True

instance : DecidablePred Sorted
  | .object entries => inferInstanceAs (Decidable ((entries.map Prod.fst).Pairwise (· < ·)))
  | .null | .bool _ | .number _ | .string _ | .array _ => .isTrue trivial

end Value

/-! ## Writing one entry of a map -/

/-- `Map::insert`: replaces the entry of a present key, else keeps the order. -/
def insertEntry (key : String) (value : Value) : List (String × Value) → List (String × Value)
  | [] => [(key, value)]
  | (k, v) :: rest =>
    if key = k then (key, value) :: rest
    else if key < k then (key, value) :: (k, v) :: rest
    else (k, v) :: insertEntry key value rest

/-- `Map::remove`. -/
def removeEntry (key : String) (entries : List (String × Value)) : List (String × Value) :=
  entries.filter (fun e => e.1 ≠ key)

theorem lookup_insertEntry (key k : String) (value : Value) (entries : List (String × Value)) :
    (insertEntry key value entries).lookup k =
      if k = key then some value else entries.lookup k := by
  induction entries with
  | nil =>
    by_cases h : k = key
    · simp [insertEntry, h]
    · simp [insertEntry, List.lookup, h, beq_eq_false_iff_ne.mpr h]
  | cons e rest ih =>
    obtain ⟨k', v'⟩ := e
    unfold insertEntry
    split_ifs <;> grind [List.lookup]

theorem lookup_removeEntry (key k : String) (entries : List (String × Value)) :
    (removeEntry key entries).lookup k = if k = key then none else entries.lookup k := by
  induction entries with
  | nil => simp [removeEntry]
  | cons e rest ih =>
    obtain ⟨k', v'⟩ := e
    unfold removeEntry at ih ⊢
    rw [List.filter_cons]
    split_ifs <;> grind [List.lookup]

theorem mem_insertEntry {key : String} {value : Value} {entries : List (String × Value)}
    {e : String × Value} (h : e ∈ insertEntry key value entries) :
    e = (key, value) ∨ e ∈ entries := by
  induction entries with
  | nil => simpa [insertEntry] using h
  | cons d rest ih =>
    obtain ⟨k, v⟩ := d
    unfold insertEntry at h
    split_ifs at h with h1 h2
    · rcases List.mem_cons.mp h with rfl | h
      · exact .inl rfl
      · exact .inr (List.mem_cons_of_mem _ h)
    · rcases List.mem_cons.mp h with rfl | h
      · exact .inl rfl
      · exact .inr h
    · rcases List.mem_cons.mp h with rfl | h
      · exact .inr List.mem_cons_self
      · rcases ih h with h | h
        · exact .inl h
        · exact .inr (List.mem_cons_of_mem _ h)

/-- The strict key order of a map survives an insertion. -/
theorem sorted_insertEntry (key : String) (value : Value) {entries : List (String × Value)}
    (h : (entries.map Prod.fst).Pairwise (· < ·)) :
    ((insertEntry key value entries).map Prod.fst).Pairwise (· < ·) := by
  induction entries with
  | nil => simp [insertEntry]
  | cons d rest ih =>
    obtain ⟨k, v⟩ := d
    rw [List.map_cons, List.pairwise_cons] at h
    obtain ⟨hk, hrest⟩ := h
    unfold insertEntry
    split_ifs with h1 h2
    · subst h1
      exact List.pairwise_cons.mpr ⟨hk, hrest⟩
    · refine List.pairwise_cons.mpr ⟨?_, List.pairwise_cons.mpr ⟨hk, hrest⟩⟩
      intro l hl
      rcases List.mem_cons.mp hl with rfl | hl
      · exact h2
      · exact lt_trans h2 (hk l hl)
    · refine List.pairwise_cons.mpr ⟨?_, ih hrest⟩
      intro l hl
      obtain ⟨e, he, rfl⟩ := List.mem_map.mp hl
      rcases mem_insertEntry he with rfl | he
      · exact lt_of_le_of_ne (not_lt.mp h2) (Ne.symm h1)
      · exact hk _ (List.mem_map.mpr ⟨e, he, rfl⟩)

theorem sorted_removeEntry (key : String) {entries : List (String × Value)}
    (h : (entries.map Prod.fst).Pairwise (· < ·)) :
    ((removeEntry key entries).map Prod.fst).Pairwise (· < ·) :=
  h.sublist ((List.filter_sublist).map Prod.fst)

end Postblox.Json
