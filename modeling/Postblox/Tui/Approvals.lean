import Postblox.Lib.Ranking
import Postblox.Models

/-!
# The list of pending approvals

The rows are sorted newest first and the highlighted one is an index into them.
Daemon events merge, remove and replace rows; only the index is clamped after
that. The index stays on its row as long as the number of rows that sort before
that row stays the same.
-/
namespace Postblox.Tui

open Lib

/-- A pending approval row. The texts that are only rendered are left out. -/
structure ApprovalItem where
  id : Uuid
  tool : String
  createdAt : Int
  deriving DecidableEq

structure ApprovalsState where
  items : List ApprovalItem
  selected : Nat
  pending : Bool
  deriving DecidableEq

def maxLiveApprovals : Nat := 100

/-- Newest first, then by tool, then by id. -/
def ApprovalItem.sortKey (a : ApprovalItem) : Intᵒᵈ ×ₗ String ×ₗ List (Fin 16) :=
  toLex (OrderDual.toDual a.createdAt, toLex (a.tool, a.id.digits))

def sortedApprovals (approvals : List ApprovalItem) : List ApprovalItem :=
  sortByKey ApprovalItem.sortKey approvals

def clampIndex (index len : Nat) : Nat := if len = 0 then 0 else min index (len - 1)

namespace ApprovalsState

variable (s : ApprovalsState)

def applyApprovals (approvals : List ApprovalItem) : ApprovalsState where
  items := sortedApprovals approvals
  selected := clampIndex s.selected (sortedApprovals approvals).length
  pending := false

def selectedApproval : Option ApprovalItem := s.items[s.selected]?

def removeSelectedApproval : Option ApprovalItem × ApprovalsState :=
  if s.items.isEmpty then (none, { s with selected := 0 })
  else
    let index := min s.selected (s.items.length - 1)
    let items := s.items.eraseIdx index
    (s.items[index]?, { s with items, selected := clampIndex s.selected items.length })

/-- The first component tells whether a row was there. -/
def removeApprovalById (id : Uuid) : Bool × ApprovalsState :=
  let items := s.items.filter fun approval => approval.id ≠ id
  if items.length ≠ s.items.length then
    (true, { s with items, selected := clampIndex s.selected items.length })
  else (false, { s with items })

/-- Put a row in the place of the first one with its id, or at the end. -/
def merged (items : List ApprovalItem) (approval : ApprovalItem) : List ApprovalItem :=
  match items with
  | [] => [approval]
  | existing :: rest =>
    if existing.id = approval.id then approval :: rest else existing :: merged rest approval

def mergeApprovalRequest (approval : ApprovalItem) : ApprovalsState :=
  let items := (sortedApprovals (merged s.items approval)).take maxLiveApprovals
  { s with items, selected := clampIndex s.selected items.length }

/-- The id that `run_approval_decision` decides, with whether the approvals folder is
selected. -/
def decidedApproval (approvalsFolderSelected : Bool) : Option Uuid :=
  if approvalsFolderSelected then
    match s.selectedApproval with
    | none => none
    | some _ => s.removeSelectedApproval.1.map (·.id)
  else none

end ApprovalsState

/-- What can happen to the list between two key presses. -/
inductive ApprovalStep where
  | merge (approval : ApprovalItem)
  | remove (id : Uuid)
  | apply (approvals : List ApprovalItem)

def ApprovalStep.run (s : ApprovalsState) : ApprovalStep → ApprovalsState
  | .merge approval => s.mergeApprovalRequest approval
  | .remove id => (s.removeApprovalById id).2
  | .apply approvals => s.applyApprovals approvals

def afterSteps (s : ApprovalsState) (steps : List ApprovalStep) : ApprovalsState :=
  steps.foldl ApprovalStep.run s

/-- The request is still among the rows. -/
def ApprovalsState.Lists (s : ApprovalsState) (id : Uuid) : Prop := ∃ row ∈ s.items, row.id = id

/-- The request is the highlighted one. -/
def ApprovalsState.Highlights (s : ApprovalsState) (id : Uuid) : Prop :=
  ∃ row, s.selectedApproval = some row ∧ row.id = id

/-- As many rows as before come before the highlighted request: no row above it is
removed, and in a list that is sorted anew its rank is the index. -/
def ApprovalStep.KeepsRank (id : Uuid) (s : ApprovalsState) : ApprovalStep → Prop
  | .merge approval => ∀ row ∈ ApprovalsState.merged s.items approval, row.id = id →
      rank ApprovalItem.sortKey row (ApprovalsState.merged s.items approval) = s.selected
  | .remove removed => ∀ row ∈ s.items.take s.selected, row.id ≠ removed
  | .apply approvals => ∀ row ∈ approvals, row.id = id →
      rank ApprovalItem.sortKey row approvals = s.selected

/-! ## One step -/

variable {s : ApprovalsState} {id : Uuid}

theorem id_of_sortKey {a b : ApprovalItem} (h : a.sortKey = b.sortKey) : a.id = b.id := by
  have hkeys := toLex.injective h
  have htail := toLex.injective (Prod.mk.inj hkeys).2
  have hdigits : a.id.digits = b.id.digits := (Prod.mk.inj htail).2
  cases hid : a.id with
  | mk digits size =>
    cases hid' : b.id with
    | mk digits' size' =>
      rw [hid, hid'] at hdigits
      subst hdigits
      rfl

theorem clampIndex_of_getElem? {items : List ApprovalItem} {i : Nat} {row : ApprovalItem}
    (h : items[i]? = some row) : clampIndex i items.length = i := by
  obtain ⟨hlt, -⟩ := List.getElem?_eq_some_iff.mp h
  unfold clampIndex
  rw [if_neg (by omega)]
  omega

/-- A list sorted anew and cut: the index is on the row when it is its rank. -/
theorem highlights_of_rank {approvals : List ApprovalItem} {n : Nat} (pending : Bool)
    (hrank : ∀ row ∈ approvals, row.id = id → rank ApprovalItem.sortKey row approvals = s.selected)
    (hlists : ∃ row ∈ (sortedApprovals approvals).take n, row.id = id) :
    ApprovalsState.Highlights
      { items := (sortedApprovals approvals).take n
        selected := clampIndex s.selected ((sortedApprovals approvals).take n).length
        pending } id := by
  obtain ⟨row, hrow, hid⟩ := hlists
  have hperm := sortByKey_perm ApprovalItem.sortKey approvals
  have hmem : row ∈ approvals := hperm.mem_iff.mp (List.mem_of_mem_take hrow)
  obtain ⟨b, hb, hkey⟩ := getElem?_rank_take (sortByKey_sorted ApprovalItem.sortKey approvals) hrow
  rw [rank_perm _ hperm, hrank row hmem hid] at hb
  have hget : ((sortedApprovals approvals).take n)[s.selected]? = some b := hb
  refine ⟨b, ?_, (id_of_sortKey hkey).trans hid⟩
  show ((sortedApprovals approvals).take n)[clampIndex s.selected _]? = some b
  rw [clampIndex_of_getElem? hget]
  exact hget

theorem filter_getElem? {items : List ApprovalItem} {p : ApprovalItem → Bool} {i : Nat}
    {row : ApprovalItem} (hrow : items[i]? = some row) (hp : p row = true)
    (hbefore : ∀ x ∈ items.take i, p x = true) : (items.filter p)[i]? = some row := by
  obtain ⟨hlt, hget⟩ := List.getElem?_eq_some_iff.mp hrow
  have hsplit : items = items.take i ++ row :: items.drop (i + 1) := by
    rw [← hget, List.getElem_cons_drop, List.take_append_drop]
  have hlen : (items.take i).length = i := List.length_take_of_le hlt.le
  rw [hsplit, List.filter_append, List.filter_eq_self.mpr hbefore, List.filter_cons_of_pos hp,
    List.getElem?_append_right (by omega), hlen, Nat.sub_self]
  rfl

theorem step_keeps (step : ApprovalStep) (hkeeps : step.KeepsRank id s)
    (hinv : s.Lists id → s.Highlights id) : (step.run s).Lists id → (step.run s).Highlights id := by
  cases step with
  | merge approval => exact highlights_of_rank _ hkeeps
  | apply approvals =>
    intro hlists
    have hall : (sortedApprovals approvals).take (sortedApprovals approvals).length =
        sortedApprovals approvals := List.take_length
    have h := highlights_of_rank (s := s) (n := (sortedApprovals approvals).length) false hkeeps
    rw [hall] at h
    exact h hlists
  | remove removed =>
    intro ⟨row, hrow, hid⟩
    have hitems : ((ApprovalStep.remove removed).run s).items =
        s.items.filter fun approval => approval.id ≠ removed := by
      show (s.removeApprovalById removed).2.items = _
      unfold ApprovalsState.removeApprovalById
      dsimp only
      split_ifs <;> rfl
    rw [hitems] at hrow
    obtain ⟨hmem, hne⟩ := List.mem_filter.mp hrow
    obtain ⟨cur, hcur, hcurId⟩ := hinv ⟨row, hmem, hid⟩
    have hne' : (decide (cur.id ≠ removed)) = true := by
      rw [hcurId, ← hid]
      exact hne
    have hget : (s.items.filter fun approval => approval.id ≠ removed)[s.selected]? = some cur :=
      filter_getElem? hcur hne' fun x hx => decide_eq_true (hkeeps x hx)
    refine ⟨cur, ?_, hcurId⟩
    show (s.removeApprovalById removed).2.selectedApproval = some cur
    unfold ApprovalsState.removeApprovalById ApprovalsState.selectedApproval
    dsimp only
    split_ifs
    · rw [clampIndex_of_getElem? hget]
      exact hget
    · exact hget

/-! ## Whole runs -/

/-- Every step of the run keeps the rank of the request in the state it meets. -/
def KeepsRanks (id : Uuid) (s : ApprovalsState) : List ApprovalStep → Prop
  | [] => True
  | step :: rest => step.KeepsRank id s ∧ KeepsRanks id (step.run s) rest

theorem steps_keep {steps : List ApprovalStep} (hkeeps : KeepsRanks id s steps)
    (hinv : s.Lists id → s.Highlights id) :
    (afterSteps s steps).Lists id → (afterSteps s steps).Highlights id := by
  induction steps generalizing s with
  | nil => exact hinv
  | cons step rest ih => exact ih hkeeps.2 (step_keeps step hkeeps.1 hinv)

theorem decided_of_highlights (h : s.Highlights id) : s.decidedApproval true = some id := by
  obtain ⟨row, hrow, hid⟩ := h
  obtain ⟨hlt, -⟩ := List.getElem?_eq_some_iff.mp hrow
  have hne : s.items.isEmpty = false := by
    cases hitems : s.items with
    | nil =>
      rw [hitems] at hlt
      cases hlt
    | cons x rest => rfl
  have hindex : min s.selected (s.items.length - 1) = s.selected := by omega
  have hremoved : s.removeSelectedApproval.1 = some row := by
    unfold ApprovalsState.removeSelectedApproval
    rw [hne, if_neg Bool.false_ne_true]
    show s.items[min s.selected (s.items.length - 1)]? = some row
    rw [hindex]
    exact hrow
  unfold ApprovalsState.decidedApproval
  rw [if_pos rfl, hrow]
  show s.removeSelectedApproval.1.map (·.id) = some id
  rw [hremoved, ← hid]
  rfl

/-- For every state whose index points at a request and every sequence of steps that
all leave as many rows before that request as there were: in every state reached
in which the request is still listed it is the highlighted one, and the decision
goes to it. -/
theorem highlighted_approval_stays {a : ApprovalItem} (hselected : s.selectedApproval = some a)
    {steps : List ApprovalStep} (hkeeps : KeepsRanks a.id s steps)
    (hlisted : (afterSteps s steps).Lists a.id) :
    (afterSteps s steps).Highlights a.id ∧
      (afterSteps s steps).decidedApproval true = some a.id := by
  have hstays := steps_keep hkeeps (fun _ => ⟨a, hselected, rfl⟩) hlisted
  exact ⟨hstays, decided_of_highlights hstays⟩

/-- A UUID with one digit repeated. -/
def sampleId (d : Fin 16) : Uuid := .filled d

def sampleApproval (d : Fin 16) (createdAt : Int) : ApprovalItem :=
  ⟨sampleId d, "postblox_message_send", createdAt⟩

/-- Two pending requests; the older one is highlighted. -/
def ApprovalsState.sample : ApprovalsState :=
  ⟨[sampleApproval 2 20, sampleApproval 1 10], 1, false⟩

/-- An older request arrives and goes again: the highlighted one stays. -/
theorem older_arrival_is_harmless :
    KeepsRanks (sampleId 1) .sample [.merge (sampleApproval 3 5), .remove (sampleId 3)] ∧
      (afterSteps .sample [.merge (sampleApproval 3 5), .remove (sampleId 3)]).decidedApproval true =
        some (sampleId 1) := by
  have hkeeps : KeepsRanks (sampleId 1) .sample
      [.merge (sampleApproval 3 5), .remove (sampleId 3)] := by
    refine ⟨?_, ?_, trivial⟩
    · unfold ApprovalStep.KeepsRank
      decide
    · unfold ApprovalStep.KeepsRank
      decide
  exact ⟨hkeeps, (highlighted_approval_stays (a := sampleApproval 1 10) rfl hkeeps
    ⟨sampleApproval 1 10, by decide, rfl⟩).2⟩

/-- A newer request arrives: it takes the row of the request above, which slides under
the index, and the decision goes to that one though the other is still listed. -/
theorem newer_arrival_moves_the_highlight :
    ApprovalsState.sample.selectedApproval = some (sampleApproval 1 10) ∧
      sampleApproval 1 10 ∈ (afterSteps .sample [.merge (sampleApproval 3 30)]).items ∧
      (afterSteps .sample [.merge (sampleApproval 3 30)]).selectedApproval =
        some (sampleApproval 2 20) ∧
      (afterSteps .sample [.merge (sampleApproval 3 30)]).decidedApproval true =
        some (sampleId 2) := by
  refine ⟨rfl, ?_, ?_, ?_⟩
  · decide
  · decide
  · decide

end Postblox.Tui
