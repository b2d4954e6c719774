import Postblox.Lib.Fts5Tokens
import Postblox.Lib.LikePatterns

/-!
# What a search is given

A user's or agent's words go into the full-text query as one quoted string, and into the
address filters as a pattern between two `%`. Neither is read as syntax.
-/
namespace Postblox.Db

open Lib
open Lib.Sqlite (beforeNul beforeNul_eq_self)

/-- Each double quote doubled, and quotes around. -/
def quoteTerm (term : String) : String :=
  let escaped := term.toList.flatMap fun c =>
    if c = Char.ofNat 34 then [Char.ofNat 34, Char.ofNat 34] else [c]
  String.ofList (Char.ofNat 34 :: (escaped ++ [Char.ofNat 34]))

/-- The body of the loop. -/
def pushEscaped (out : List Char) (ch : Char) : List Char :=
  let out := if ch = '%' ∨ ch = '_' ∨ ch = '\\' then out ++ ['\\'] else out
  out ++ [ch]

def likePattern (needle : String) : String :=
  String.ofList (needle.toList.foldl pushEscaped ['%'] ++ ['%'])

/-- `haystack LIKE pattern ESCAPE '\'`; SQLite folds the case of ASCII letters only. -/
def sqliteLike (haystack pattern : String) : Bool :=
  likeMatch Char.toLower '\\' (beforeNul pattern.toList) (beforeNul haystack.toList)

theorem quoteTerm_toList (term : String) : (quoteTerm term).toList = Fts5.quoted term.toList :=
  String.toList_ofList

theorem foldl_pushEscaped (out needle : List Char) :
    needle.foldl pushEscaped out = out ++ needle.flatMap (likeLiteral '\\') := by
  induction needle generalizing out with
  | nil => exact (List.append_nil out).symm
  | cons ch needle ih =>
    rw [List.foldl_cons, ih, List.flatMap_cons, ← List.append_assoc, pushEscaped, likeLiteral]
    split_ifs
    · rw [List.append_assoc out]
      rfl
    · rfl

theorem likePattern_toList (needle : String) : (likePattern needle).toList =
    '%' :: (needle.toList.flatMap (likeLiteral '\\') ++ ['%']) := by
  rw [likePattern, String.toList_ofList, foldl_pushEscaped]
  rfl

/-- A pattern has no NUL if the needle has none. -/
theorem not_mem_likePattern {needle : String} (h : Char.ofNat 0 ∉ needle.toList) :
    Char.ofNat 0 ∉ (likePattern needle).toList := by
  rw [likePattern_toList]
  intro hmem
  rcases List.mem_cons.mp hmem with heq | hmem
  · exact absurd heq (by decide)
  rcases List.mem_append.mp hmem with hmem | hmem
  · obtain ⟨c, hc, hliteral⟩ := List.mem_flatMap.mp hmem
    unfold likeLiteral at hliteral
    split_ifs at hliteral
    · rcases List.mem_cons.mp hliteral with heq | hliteral
      · exact absurd heq (by decide)
      · exact h (List.mem_singleton.mp hliteral ▸ hc)
    · exact h (List.mem_singleton.mp hliteral ▸ hc)
  · exact absurd (List.mem_singleton.mp hmem) (by decide)

/-- The query is one string whose value is what was typed, and an address filter holds of a
text that contains the needle up to ASCII case. -/
theorem search_input_is_inert :
    (∀ q : String, Char.ofNat 0 ∉ q.toList →
      Fts5.queryTokens (quoteTerm q).toList = some [.string q.toList]) ∧
    ∀ needle haystack : String, Char.ofNat 0 ∉ needle.toList → Char.ofNat 0 ∉ haystack.toList →
      (sqliteLike haystack (likePattern needle) = true ↔
        needle.toList.map Char.toLower <:+: haystack.toList.map Char.toLower) := by
  constructor
  · intro q hq
    rw [quoteTerm_toList]
    exact Fts5.queryTokens_quoted hq
  · intro needle haystack hneedle hhaystack
    rw [sqliteLike, beforeNul_eq_self (not_mem_likePattern hneedle), beforeNul_eq_self hhaystack,
      likePattern_toList]
    exact likeMatch_infix (by decide)

theorem wildcards_and_quotes_are_inert :
    Fts5.queryTokens (quoteTerm "a\" OR b*").toList = some [.string "a\" OR b*".toList] ∧
      (sqliteLike "alice@ACME.com" (likePattern "%acme%") = true ↔
        "%acme%".toList.map Char.toLower <:+: "alice@ACME.com".toList.map Char.toLower) :=
  ⟨search_input_is_inert.1 "a\" OR b*" (by decide),
    search_input_is_inert.2 "%acme%" "alice@ACME.com" (by decide) (by decide)⟩

example : sqliteLike "x_Yz" (likePattern "_y") = true := by decide

end Postblox.Db
