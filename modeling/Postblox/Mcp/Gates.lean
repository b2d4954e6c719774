import Postblox.Models

/-!
# Gate evaluation for tool calls

The gates of a tool are tried in order and the first that matches decides. A
pattern is compared with the argument object as JSON text: a string with one
`*` matches by prefix and suffix, everything else by equality.
-/
namespace Postblox.Mcp.Gates

open Json (Value)

inductive GateDecision where
  | autoAllow (gateId : Option Uuid)
  | deny (gateId : Option Uuid)
  | require (gateId : Option Uuid)
  deriving DecidableEq

/-- `str::len`, in bytes. -/
def byteLen (cs : List Char) : Nat := (cs.map Char.utf8Size).sum

def wildcardMatches (pattern actual : List Char) : Bool :=
  if pattern = ['*'] then true
  else if pattern.count '*' ≠ 1 then false
  else
    let front := pattern.takeWhile (· ≠ '*')
    let back := (pattern.dropWhile (· ≠ '*')).drop 1
    front.isPrefixOf actual && back.isSuffixOf actual &&
      decide (byteLen front + byteLen back ≤ byteLen actual)

def valueMatches (expected actual : Value) : Bool :=
  match expected.asStr, actual.asStr with
  | some pattern, some text =>
    if '*' ∈ pattern.toList then wildcardMatches pattern.toList text.toList
    else decide (expected = actual)
  | _, _ => decide (expected = actual)

def patternMatches (pattern args : Value) : Bool :=
  match pattern.asObject, args.asObject with
  | some fields, some entries =>
    fields.all fun (field, expected) => (entries.lookup field).any (valueMatches expected)
  | _, _ => false

variable (crates : Crates)

def gateMatches (gate : McpGate) (args : Value) : Bool :=
  match gate.argPattern with
  | none => true
  | some text =>
    match crates.fromStr text with
    | none => false
    | some pattern => patternMatches pattern args

def McpGate.decision (gate : McpGate) : GateDecision :=
  match gate.action with
  | .autoAllow => .autoAllow (some gate.id)
  | .deny => .deny (some gate.id)
  | .require => .require (some gate.id)

def decide : List McpGate → Value → GateDecision
  | [], _ => .require none
  | gate :: gates, args =>
    if gateMatches crates gate args then McpGate.decision gate else decide gates args

/-- The gate that decides a call: the first of the list that matches it. -/
def deciding (gates : List McpGate) (args : Value) : Option McpGate :=
  gates.find? (gateMatches crates · args)

theorem decide_eq_deciding (gates : List McpGate) (args : Value) :
    decide crates gates args =
      ((deciding crates gates args).map McpGate.decision).getD (.require none) := by
  induction gates with
  | nil => rfl
  | cons gate gates ih =>
    cases h : gateMatches crates gate args
    · simpa [decide, deciding, h] using ih
    · simp [decide, deciding, h]

theorem McpGate.decision_injective {g h : McpGate} (he : McpGate.decision g = McpGate.decision h) :
    g.id = h.id := by
  unfold McpGate.decision at he
  cases hg : g.action <;> cases hh : h.action <;> simp_all

theorem McpGate.decision_ne_default (g : McpGate) : McpGate.decision g ≠ .require none := by
  unfold McpGate.decision
  cases g.action <;> simp

/-! ## Matching one value -/

theorem valueMatches_nonString {expected value : Value} (hv : value.asStr = none) :
    valueMatches expected value = true ↔ expected = value := by
  unfold valueMatches
  rw [hv]
  cases expected.asStr <;> simp

theorem nonString_expected {expected value : Value} (he : expected.asStr = none) :
    valueMatches expected value = true ↔ expected = value := by
  unfold valueMatches
  rw [he]
  cases value.asStr <;> simp

theorem gateMatches_iff (gate : McpGate) (entries : List (String × Value)) :
    gateMatches crates gate (.object entries) = true ↔
      gate.argPattern = none ∨ ∃ text fields, gate.argPattern = some text ∧
        crates.fromStr text = some (.object fields) ∧
        ∀ field expected, (field, expected) ∈ fields →
          ∃ value, entries.lookup field = some value ∧ valueMatches expected value = true := by
  unfold gateMatches
  cases gate.argPattern with
  | none => simp
  | some text =>
    cases hf : crates.fromStr text with
    | none => simp [hf]
    | some pattern =>
      cases pattern with
      | object fields =>
        simp [hf, patternMatches, Value.asObject, Option.any_eq_true]
      | _ => simp [hf, patternMatches, Value.asObject]

end Postblox.Mcp.Gates
