import Mathlib

/-!
# The bytes of a text

Texts go out and are indexed in UTF-8. A byte below 128 stands for the ASCII character
only, so what is cut at such bytes is cut between characters.
-/
namespace Postblox

def utf8 (s : String) : List UInt8 := s.toList.flatMap String.utf8EncodeChar

@[simp] theorem utf8_empty : utf8 "" = [] := rfl

@[simp] theorem utf8_append (s t : String) : utf8 (s ++ t) = utf8 s ++ utf8 t := by
  unfold utf8
  rw [String.toList_append, List.flatMap_append]

theorem utf8_join (parts : List String) : utf8 (String.join parts) = parts.flatMap utf8 := by
  induction parts with
  | nil => rfl
  | cons s rest ih => rw [String.join_cons, utf8_append, ih, List.flatMap_cons]

/-- An ASCII byte of a character is that character. -/
theorem eq_of_mem_utf8EncodeChar {c : Char} {b : UInt8} (h : b ∈ String.utf8EncodeChar c)
    (hb : b.toNat < 128) : c.toNat = b.toNat := by
  have hval : c.toNat = c.val.toNat := rfl
  -- lead and continuation bytes are 128 or more
  have hhigh : ∀ n, 128 ≤ n → n < 256 → b ≠ UInt8.ofNat n := by
    intro n hlow hlt heq
    rw [heq, UInt8.toNat_ofNat_of_lt' hlt] at hb
    omega
  unfold String.utf8EncodeChar at h
  dsimp only at h
  split_ifs at h with hone htwo hthree
  · have hlt : c.val.toNat < UInt8.size := by
      show c.val.toNat < 256
      omega
    rw [List.mem_singleton.mp h, UInt8.toNat_ofNat_of_lt' hlt, hval]
  · simp only [List.mem_cons, List.not_mem_nil, or_false] at h
    rcases h with h | h
    · exact absurd h (hhigh _ (by omega) (by omega))
    · exact absurd h (hhigh _ (by omega) (by omega))
  · simp only [List.mem_cons, List.not_mem_nil, or_false] at h
    rcases h with h | h | h
    · exact absurd h (hhigh _ (by omega) (by omega))
    · exact absurd h (hhigh _ (by omega) (by omega))
    · exact absurd h (hhigh _ (by omega) (by omega))
  · simp only [List.mem_cons, List.not_mem_nil, or_false] at h
    rcases h with h | h | h | h
    · exact absurd h (hhigh _ (by omega) (by omega))
    · exact absurd h (hhigh _ (by omega) (by omega))
    · exact absurd h (hhigh _ (by omega) (by omega))
    · exact absurd h (hhigh _ (by omega) (by omega))

theorem mem_utf8 {s : String} {b : UInt8} (h : b ∈ utf8 s) (hb : b.toNat < 128) :
    ∃ c ∈ s.toList, c.toNat = b.toNat := by
  obtain ⟨c, hc, hmem⟩ := List.mem_flatMap.mp h
  exact ⟨c, hc, eq_of_mem_utf8EncodeChar hmem hb⟩

end Postblox
