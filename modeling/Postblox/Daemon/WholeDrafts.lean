import Postblox.Daemon.DraftLimits

/-!
# Whether a draft is written as a whole

An update is one transaction. A create inserts the row and then its attachments; when one of
these statements fails it deletes the row again. It leaves part of a draft behind when it is
dropped in between or when that deletion fails.
-/
namespace Postblox.Daemon.Drafts

open Daemon.Args (NewDraft DraftUpdate DraftAttachmentSpec)
open DraftFiles (prepareDraftAttachments maxDraftAttachmentBytes)
open Lib.Machine

variable {s s' : State}

/-- No request that fails or is cancelled leaves part of a draft, and no draft is too large. -/
structure AllOrNothing (db : Db) (acts : List Action) (s : State) : Prop where
  updates : ∀ before t outcome after s₁ s₂ upd specs stage,
    acts = before ++ .resume t outcome :: after → run step (State.init db) before = some s₁ →
    step s₁ (.resume t outcome) = some s₂ → s₁.tasks t = some (.update upd specs stage) →
    s₂.db = s₁.db ∨ ∃ prepared ids old, stage = .transaction prepared ∧
      Committed upd prepared ids old s₁.db s₂.db
  updateFailed : ∀ before t outcome after s₁ s₂ upd specs stage e,
    acts = before ++ .resume t outcome :: after → run step (State.init db) before = some s₁ →
    step s₁ (.resume t outcome) = some s₂ → s₁.tasks t = some (.update upd specs stage) →
    s.tasks t = some (.update upd specs (.finished (.error e))) → s₂.db = s₁.db
  createFailed : ∀ t draft files new specs e, Inserts db acts t draft files →
    s.tasks t = some (.create new specs (.finished (.error e))) →
    s.db.getDraft draft.id = none ∧ s.db.rowsOf draft.id = []
  createCancelled : ∀ t draft files, Inserts db acts t draft files →
    s.tasks t = some .cancelled →
    s.db.getDraft draft.id = none ∧ s.db.rowsOf draft.id = [] ∨
      CompletedIn (State.init db) acts t draft files
  bounded : ∀ d, s.db.aggregateSizeForDraft d ≤ maxDraftAttachmentBytes

/-- An update writes when it commits, and then it is finished. -/
theorem update_writes {t : Nat} {outcome : Outcome} {upd : DraftUpdate}
    {specs : Option (List DraftAttachmentSpec)} {stage : UpdateStage}
    (hstep : step s (.resume t outcome) = some s')
    (htask : s.tasks t = some (.update upd specs stage)) :
    s'.db = s.db ∨ ∃ prepared ids old, stage = .transaction prepared ∧
      Committed upd prepared ids old s.db s'.db ∧
      s'.tasks t = some (.update upd specs (.finished (.ok (some (old.patch upd))))) := by
  cases step_cases hstep with
  | @resume _ _ task task' change db htask' hresume _ hdb =>
    rw [htask] at htask'
    cases htask'
    cases resume_moves hresume with
    | update hmoves =>
      cases hmoves with
      | @commits prepared ids old hdraft _ =>
        obtain ⟨hcommitted, hfinished⟩ := committed htask hdraft hstep
        exact .inr ⟨prepared, ids, old, rfl, hcommitted, hfinished⟩
      | _ =>
        cases hdb
        exact .inl rfl

/-- A request that has ended stays as it is, or is cancelled. -/
theorem ended_stays {t : Nat} {task : Task} (hended : ∀ db outcome, task.resume db outcome = none)
    (htask : s.tasks t = some task) {acts : List Action} (hrun : run step s acts = some s') :
    s'.tasks t = some task ∨ s'.tasks t = some .cancelled := by
  refine invariant step (I := fun s => s.tasks t = some task ∨ s.tasks t = some .cancelled)
    (.inl htask) (fun s₁ a s₂ h hstep => ?_) hrun
  have hnext : ∀ task₁, s₁.tasks t = some task₁ → (∀ db outcome, task₁.resume db outcome = none) →
      s₂.tasks t = some task₁ ∨ s₂.tasks t = some .cancelled := by
    intro task₁ htask₁ hended₁
    cases step_cases hstep with
    | @arrive t₁ _ _ hfree =>
      have hne : t ≠ t₁ := by
        rintro rfl
        rw [hfree] at htask₁
        cases htask₁
      exact .inl ((State.setTask_tasks ..).trans ((if_neg hne).trans htask₁))
    | @resume t₁ outcome task₂ task' change db htask₂ hresume =>
      have hne : t ≠ t₁ := by
        rintro rfl
        rw [htask₁] at htask₂
        cases htask₂
        rw [hended₁] at hresume
        cases hresume
      exact .inl ((resumed_tasks t).trans ((if_neg hne).trans htask₁))
    | @cancel t₁ =>
      rw [State.setTask_tasks]
      split_ifs
      · exact .inr rfl
      · exact .inl htask₁
  rcases h with h | h
  · exact hnext task h hended
  · exact .inr ((hnext .cancelled h fun _ _ => rfl).elim id id)

/-- Under the condition no creation ends halfway. -/
theorem Whole.steady {a : Action} (h : Whole s a) (t : Nat) (d : Uuid) :
    Steady False t d s a where
  unmixed := h.unmixed d
  cancelled heq hcreating := h.uninterrupted t d heq hcreating
  undone e heq hrollback := by
    obtain ⟨new, specs, draft, e', htask⟩ := hrollback
    exact h.undone t new specs draft e' e heq htask

/-- In every run whose steps meet the condition, a draft is written as a whole or not at all,
and the attachments of no draft exceed 25 MiB. -/
theorem draft_writes_are_all_or_nothing {db : Db} (hdb : db.WithinLimit) {acts : List Action}
    (hread : Guarded step FilesRead (State.init db) acts)
    (hguard : Guarded step Whole (State.init db) acts)
    (hrun : run step (State.init db) acts = some s) : AllOrNothing db acts s := by
  have hbounded := bounded_of_run hdb hread hguard hrun
  have hgone : ∀ d, s.db.getDraft d = none ∨ False →
      s.db.getDraft d = none ∧ s.db.rowsOf d = [] := by
    intro d hended
    have hnone := hended.resolve_right id
    exact ⟨hnone, hbounded.owned.parents d hnone⟩
  have hcreation : ∀ t draft files, Inserts db acts t draft files →
      Creation (CompletedIn (State.init db) acts t draft files) False t draft files s :=
    fun t draft files hinserts => creation_of_run hdb.linked
      (Guarded.mono step (fun _ _ hok => hok.steady t draft.id) hguard) hrun hinserts
  refine ⟨?_, ?_, ?_, ?_, hbounded.bounded⟩
  · intro before t outcome after s₁ s₂ upd specs stage _ _ hstep htask
    rcases update_writes hstep htask with hsame | ⟨prepared, ids, old, hstage, hcommitted, -⟩
    · exact .inl hsame
    · exact .inr ⟨prepared, ids, old, hstage, hcommitted⟩
  · intro before t outcome after s₁ s₂ upd specs stage e hacts hbefore hstep htask hfailed
    rcases update_writes hstep htask with hsame | ⟨prepared, ids, old, -, -, hfinished⟩
    · exact hsame
    · rw [hacts] at hrun
      obtain ⟨s₁', hbefore', hrest⟩ := (run_append_iff step).mp hrun
      obtain rfl : s₁ = s₁' := Option.some.inj (hbefore.symm.trans hbefore')
      rw [run_cons, hstep] at hrest
      rcases ended_stays (fun _ _ => rfl) hfinished hrest with hstays | hcancelled
      · cases hfailed.symm.trans hstays
      · cases hfailed.symm.trans hcancelled
  · intro t draft files new specs e hinserts htask
    cases hcreation t draft files hinserts with
    | failed _ hended => exact hgone draft.id hended
    | clears hstage => cases htask.symm.trans hstage
    | attaches hstage => cases htask.symm.trans hstage
    | undoes hstage => cases htask.symm.trans hstage
    | finished hstage => cases htask.symm.trans hstage
    | cancelled hstage => cases htask.symm.trans hstage
  · intro t draft files hinserts htask
    cases hcreation t draft files hinserts with
    | cancelled _ hended =>
      exact hended.imp (fun hnone => hgone draft.id (.inl hnone)) fun h => h.resolve_right id
    | clears hstage => cases htask.symm.trans hstage
    | attaches hstage => cases htask.symm.trans hstage
    | undoes hstage => cases htask.symm.trans hstage
    | finished hstage => cases htask.symm.trans hstage
    | failed hstage => cases htask.symm.trans hstage

/-! ## A create that is cancelled -/

def sampleSpec : DraftAttachmentSpec := ⟨"/tmp/b.pdf", some "application/pdf", none⟩

def sampleFile : PreparedDraftAttachment := ⟨"b.pdf", "application/pdf", [1, 2, 3]⟩

/-- Every path is the same small file. -/
def sampleCalls : DraftFiles.Calls where
  metadata _ := .ok ⟨true, 3⟩
  read _ := .ok [1, 2, 3]
  guess _ := none

def sampleNew : NewDraft :=
  ⟨sampleId 1, none, ["bob@example.org"], [], [], some "plan", some "text", none, none, none⟩

/-- A create with one file, up to the insertion of its attachment. -/
def creatingRun : List Action :=
  [.arrive 0 (.draftCreate sampleNew (some [sampleSpec])), .resume 0 (.files (some [sampleFile])),
    .resume 0 (.minted [(sampleId 5, 0)]), .resume 0 .done]

theorem sampleDb_withinLimit : sampleDb.WithinLimit where
  linked a ha := by cases ha
  bounded d := Nat.zero_le _

theorem sampleFile_prepared :
    prepareDraftAttachments sampleCalls (some [sampleSpec]) = .ok (some [sampleFile]) := by
  decide

/-- The same create to its end. -/
def createdRun : List Action := creatingRun ++ [.resume 0 (.minted [(sampleId 6, 7)])]

theorem createdRun_reads : Guarded step FilesRead (State.init sampleDb) createdRun := by
  refine ⟨trivial, fun s₁ h₁ => ?_⟩
  cases h₁
  refine ⟨?_, fun s₂ h₂ => ?_⟩
  · intro task specs htask hawaits
    cases htask
    cases hawaits
    exact ⟨sampleCalls, congrArg some sampleFile_prepared.symm⟩
  -- the files are read once
  cases h₂
  refine ⟨?_, fun s₃ h₃ => ?_⟩
  · intro task specs htask hawaits
    cases htask
    cases hawaits
  cases h₃
  refine ⟨?_, fun s₄ h₄ => ?_⟩
  · intro task specs htask hawaits
    cases htask
    cases hawaits
  cases h₄
  refine ⟨?_, fun _ _ => trivial⟩
  intro task specs htask hawaits
  cases htask
  cases hawaits

theorem Alone.whole {t₀ : Nat} {a : Action} (h : Alone t₀ s) (ha : IsStepOf t₀ a) :
    Whole s a := by
  rcases ha with ⟨operation, rfl⟩ | ⟨outcome, rfl, hworks⟩
  · refine ⟨?_, ?_, fun _ => trivial⟩
    · intro t d heq
      cases heq
    · intro t new specs draft e e' heq
      cases heq
  · refine ⟨?_, ?_, ?_⟩
    · intro t d heq
      cases heq
    · intro t new specs draft e e' heq
      cases heq
      exact absurd rfl (hworks e')
    · intro d task task' upd files htask hresume _ t' hattaching
      obtain ⟨new, specs, draft, next, rest, htask', -⟩ := hattaching
      have ht' : t' = t₀ := by
        by_contra hne
        rw [h t' hne] at htask'
        cases htask'
      subst ht'
      rw [htask] at htask'
      cases htask'
      -- a create commits no update
      cases resume_moves hresume with
      | create hmoves => cases hmoves

theorem createdRun_steps : ∀ a ∈ createdRun, IsStepOf 0 a := by
  intro a ha
  simp only [createdRun, creatingRun, List.cons_append, List.nil_append, List.mem_cons,
    List.not_mem_nil, or_false] at ha
  rcases ha with rfl | rfl | rfl | rfl | rfl
  · exact .inl ⟨_, rfl⟩
  all_goals exact .inr ⟨_, rfl, fun _ h => by cases h⟩

theorem created_draft_is_whole :
    ∃ s, run step (State.init sampleDb) createdRun = some s ∧
      (s.db.listForDraft (sampleId 5)).map (·.filename) = ["b.pdf"] ∧
      AllOrNothing sampleDb createdRun s := by
  have heval : (run step (State.init sampleDb) createdRun).map
      (fun s => (s.db.listForDraft (sampleId 5)).map (·.filename)) = some ["b.pdf"] := by
    decide
  obtain ⟨s, hrun, hlist⟩ := Option.map_eq_some_iff.mp heval
  have hwhole : Guarded step Whole (State.init sampleDb) createdRun :=
    guarded_of_invariant step (I := Alone 0) (fun _ _ => rfl)
      (fun _ a ha halone => halone.whole (createdRun_steps a ha))
      (fun _ a ha _ halone hstep => halone.step (createdRun_steps a ha) hstep)
  exact ⟨s, hrun, hlist,
    draft_writes_are_all_or_nothing sampleDb_withinLimit createdRun_reads hwhole hrun⟩

/-- The create is cancelled instead. -/
def cancelledRun : List Action := creatingRun ++ [.cancel 0]

/-- A create that is cancelled before it inserts its attachment leaves a draft without it. -/
theorem cancelled_create_leaves_part :
    ∃ s, run step (State.init sampleDb) cancelledRun = some s ∧
      s.db.getDraft (sampleId 5) = some (.new (sampleId 5) sampleNew) ∧
      s.db.listForDraft (sampleId 5) = [] ∧
      ¬ AllOrNothing sampleDb cancelledRun s := by
  have heval : (run step (State.init sampleDb) cancelledRun).map
      (fun s => (s.db.getDraft (sampleId 5), s.db.listForDraft (sampleId 5))) =
      some (some (.new (sampleId 5) sampleNew), []) := by decide
  obtain ⟨s, hrun, hs⟩ := Option.map_eq_some_iff.mp heval
  obtain ⟨hdraft, hlist⟩ := Prod.mk.inj hs
  refine ⟨s, hrun, hdraft, hlist, fun h => ?_⟩
  have hinserts : Inserts sampleDb cancelledRun 0 (.new (sampleId 5) sampleNew)
      [sampleFile] :=
    ⟨creatingRun.take 2, 0, [.resume 0 .done, .cancel 0], _, sampleNew, some [sampleSpec],
      some [sampleFile], rfl, rfl, rfl, rfl, rfl⟩
  have hcancelled : s.tasks 0 = some .cancelled := by
    cases hrun
    rfl
  rcases h.createCancelled 0 _ _ hinserts hcancelled with ⟨hgone, -⟩ | hcompleted
  · cases hdraft.symm.trans hgone
  · obtain ⟨before, after, s₁, hsplit, hbefore, hcreated, -⟩ := hcompleted
    have hprefix : before = cancelledRun.take before.length := by
      rw [hsplit, List.take_left']
      rfl
    have hlength : before.length < 6 := by
      have hsum := congrArg List.length hsplit
      rw [List.length_append] at hsum
      have htotal : cancelledRun.length = 5 := rfl
      omega
    have hnever : ∀ k < 6, ((run step (State.init sampleDb)
        (cancelledRun.take k)).map
          fun s => (s.tasks 0).any Task.hasCreated) ≠ some true := by decide
    refine hnever before.length hlength ?_
    rw [← hprefix, hbefore]
    exact congrArg some hcreated

end Postblox.Daemon.Drafts
