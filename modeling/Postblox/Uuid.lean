import Mathlib

/-!
# UUIDs and their text forms

A `Uuid` is its thirty-two hexadecimal digits. The formatters write the forms
the `uuid` crate documents; its parser is a parameter of the development, with
the two documented facts the bridge relies on, and `documented` is an
executable parser that has them.
-/
namespace Postblox

/-- The 128 bits of a UUID as their hexadecimal digits, most significant first. -/
structure Uuid where
  digits : List (Fin 16)
  size : digits.length = 32
  deriving DecidableEq

instance neZeroRadix : NeZero (16 : Nat) := ⟨by decide⟩

namespace Uuid

/-- One digit throughout. -/
def filled (d : Fin 16) : Uuid := ⟨List.replicate 32 d, List.length_replicate⟩

def hexChar (d : Fin 16) : Char :=
  if d.val < 10 then Char.ofNat (48 + d.val) else Char.ofNat (87 + d.val)

/-- Both letter cases are accepted. -/
def hexVal (c : Char) : Option (Fin 16) :=
  if '0' ≤ c ∧ c ≤ '9' then some (Fin.ofNat 16 (c.toNat - 48))
  else if 'a' ≤ c ∧ c ≤ 'f' then some (Fin.ofNat 16 (c.toNat - 87))
  else if 'A' ≤ c ∧ c ≤ 'F' then some (Fin.ofNat 16 (c.toNat - 55))
  else none

def hex (ds : List (Fin 16)) : List Char := ds.map hexChar

/-- `8-4-4-4-12` groups in lower case. -/
def hyphenatedChars (u : Uuid) : List Char :=
  hex (u.digits.take 8) ++ '-' :: hex ((u.digits.drop 8).take 4) ++
    '-' :: hex ((u.digits.drop 12).take 4) ++ '-' :: hex ((u.digits.drop 16).take 4) ++
    '-' :: hex (u.digits.drop 20)

/-- `Uuid::hyphenated`, also the `Display` form. -/
def hyphenated (u : Uuid) : String := String.ofList u.hyphenatedChars

/-- `Uuid::braced`. -/
def braced (u : Uuid) : String := String.ofList ('{' :: u.hyphenatedChars ++ ['}'])

/-! ## The parser -/

def ofDigits (ds : List (Fin 16)) : Option Uuid :=
  if h : ds.length = 32 then some ⟨ds, h⟩ else none

def parseSimple (cs : List Char) : Option Uuid := (cs.mapM hexVal).bind ofDigits

/-- Hyphens stand exactly at offsets 8, 13, 18 and 23. -/
def parseHyphenated (cs : List Char) : Option Uuid :=
  if cs[8]? = some '-' ∧ cs[13]? = some '-' ∧ cs[18]? = some '-' ∧ cs[23]? = some '-' then
    parseSimple (cs.take 8 ++ (cs.drop 9).take 4 ++ (cs.drop 14).take 4 ++
      (cs.drop 19).take 4 ++ cs.drop 24)
  else none

/-- The input's length decides its form, as in the crate's `try_parse`. -/
def parseStr (s : String) : Option Uuid :=
  let cs := s.toList
  if cs.length = 32 then parseSimple cs
  else if cs.length = 36 then parseHyphenated cs
  else if cs.length = 38 ∧ cs.head? = some '{' ∧ cs.getLast? = some '}' then
    parseHyphenated (cs.drop 1).dropLast
  else if cs.length = 45 ∧ cs.take 9 = "urn:uuid:".toList then parseHyphenated (cs.drop 9)
  else none

@[simp] theorem hexVal_hexChar (d : Fin 16) : hexVal (hexChar d) = some d := by
  revert d; decide

theorem mapM_hexVal_hex (ds : List (Fin 16)) : (hex ds).mapM hexVal = some ds := by
  induction ds with
  | nil => rfl
  | cons d ds ih => simp_all [hex, List.mapM_cons]

theorem ofDigits_digits (u : Uuid) : ofDigits u.digits = some u := by
  simp [ofDigits, u.size]

theorem length_hex (ds : List (Fin 16)) : (hex ds).length = ds.length := by simp [hex]

theorem hex_append (as bs : List (Fin 16)) : hex (as ++ bs) = hex as ++ hex bs := by simp [hex]

theorem length_hyphenatedChars (u : Uuid) : u.hyphenatedChars.length = 36 := by
  simp [hyphenatedChars, length_hex, u.size]

/-- The digits cut at the group bounds and written again are the digits. -/
theorem groups_eq (u : Uuid) :
    u.digits.take 8 ++ (u.digits.drop 8).take 4 ++ (u.digits.drop 12).take 4 ++
      (u.digits.drop 16).take 4 ++ u.digits.drop 20 = u.digits := by
  have h1 := List.take_append_drop 8 u.digits
  have h2 := List.take_append_drop 4 (u.digits.drop 8)
  have h3 := List.take_append_drop 4 (u.digits.drop 12)
  have h4 := List.take_append_drop 4 (u.digits.drop 16)
  simp only [List.drop_drop] at h2 h3 h4
  simp only [List.append_assoc, h4, h3, h2, h1]

/-- Cutting out the four hyphens leaves the five groups. -/
theorem cut_groups (a b c d e : List Char) (ha : a.length = 8) (hb : b.length = 4)
    (hc : c.length = 4) (hd : d.length = 4) :
    let cs := a ++ '-' :: b ++ '-' :: c ++ '-' :: d ++ '-' :: e
    (cs[8]? = some '-' ∧ cs[13]? = some '-' ∧ cs[18]? = some '-' ∧ cs[23]? = some '-') ∧
    cs.take 8 ++ (cs.drop 9).take 4 ++ (cs.drop 14).take 4 ++ (cs.drop 19).take 4 ++
      cs.drop 24 = a ++ b ++ c ++ d ++ e := by
  intro cs
  refine ⟨by simp [cs, List.getElem?_append, ha, hb, hc, hd], ?_⟩
  have h9 : cs.drop 9 = b ++ '-' :: c ++ '-' :: d ++ '-' :: e := by
    simp [cs, List.drop_append, ha]
  have h14 : cs.drop 14 = c ++ '-' :: d ++ '-' :: e := by
    rw [show 14 = 9 + 5 from rfl, ← List.drop_drop, h9]
    simp [List.drop_append, hb]
  have h19 : cs.drop 19 = d ++ '-' :: e := by
    rw [show 19 = 14 + 5 from rfl, ← List.drop_drop, h14]
    simp [List.drop_append, hc]
  have h24 : cs.drop 24 = e := by
    rw [show 24 = 19 + 5 from rfl, ← List.drop_drop, h19]
    simp [List.drop_append, hd]
  rw [h9, h14, h19, h24]
  simp [cs, ha, hb, hc, hd]

theorem parseHyphenated_chars (u : Uuid) : parseHyphenated u.hyphenatedChars = some u := by
  obtain ⟨hsep, hcut⟩ := cut_groups (hex (u.digits.take 8)) (hex ((u.digits.drop 8).take 4))
    (hex ((u.digits.drop 12).take 4)) (hex ((u.digits.drop 16).take 4)) (hex (u.digits.drop 20))
    (by simp [length_hex, u.size]) (by simp [length_hex, u.size]) (by simp [length_hex, u.size])
    (by simp [length_hex, u.size])
  unfold parseHyphenated hyphenatedChars
  rw [if_pos hsep, hcut, ← hex_append, ← hex_append, ← hex_append, ← hex_append, groups_eq,
    parseSimple, mapM_hexVal_hex]
  exact ofDigits_digits u

theorem parseStr_hyphenated (u : Uuid) : parseStr u.hyphenated = some u := by
  simp [parseStr, hyphenated, length_hyphenatedChars, parseHyphenated_chars]

theorem parseStr_braced (u : Uuid) : parseStr u.braced = some u := by
  simp [parseStr, braced, length_hyphenatedChars, parseHyphenated_chars,
    List.getLast?_cons, List.getLast?_append]

/-! ## First and last characters -/

theorem hexChar_ne (d : Fin 16) : hexChar d ≠ '{' ∧ hexChar d ≠ '}' := by
  revert d; decide

theorem head_hyphenatedChars (u : Uuid) : u.hyphenatedChars.head? ≠ some '{' := by
  obtain ⟨ds, hs⟩ := u
  cases ds with
  | nil => simp at hs
  | cons d ds => simpa [hyphenatedChars, hex] using (hexChar_ne d).1

theorem getLast_hyphenatedChars (u : Uuid) : u.hyphenatedChars.getLast? ≠ some '}' := by
  obtain ⟨ds, hs⟩ := u
  have hne : ds.drop 20 ≠ [] := by
    intro h
    have := congrArg List.length h
    simp [hs] at this
  have hx : hex (ds.drop 20) ≠ [] := by simpa [hex] using hne
  have hl : (hyphenatedChars ⟨ds, hs⟩).getLast? = (hex (ds.drop 20)).getLast? := by
    simp [hyphenatedChars, List.getLast?_append, List.getLast?_cons, List.getLast?_eq_some_getLast hx]
  rw [hl, hex, List.getLast?_map]
  cases h : (ds.drop 20).getLast? with
  | none => simp
  | some d => simpa using (hexChar_ne d).2

end Uuid

/-- The `uuid` crate's parser, by the documented behaviour used here: it reads
back the hyphenated form that `Display` writes and the braced form. -/
structure UuidCrate where
  parseStr : String → Option Uuid
  parse_hyphenated : ∀ u : Uuid, parseStr u.hyphenated = some u
  parse_braced : ∀ u : Uuid, parseStr u.braced = some u

namespace UuidCrate

def documented : UuidCrate where
  parseStr := Uuid.parseStr
  parse_hyphenated := Uuid.parseStr_hyphenated
  parse_braced := Uuid.parseStr_braced

end UuidCrate

end Postblox
