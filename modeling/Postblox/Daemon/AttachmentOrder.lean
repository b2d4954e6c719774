import Postblox.Daemon.WholeDrafts

/-!
# The order of a draft's attachments

The order is not stored: the rows are listed by the timestamp and the id that each insertion
got. What a reader is shown is the order of the request exactly if these stamps came in that
order.
-/
namespace Postblox.Daemon.Drafts

open Daemon.Args (NewDraft DraftUpdate DraftAttachmentSpec parseId)
open DraftFiles (Calls PreparedFrom prepareDraftAttachments prepareDraftAttachments_ok)
open Json (Value)
open Lib.Machine

variable {s s' : State}

/-- What `list_for_draft` sorts by. -/
def DraftAttachment.stamp (a : DraftAttachment) : Lex (Int × String) :=
  toLex (a.createdAt, a.id.hyphenated)

theorem listForDraft_eq (db : Db) (d : Uuid) :
    db.listForDraft d = Lib.sortByKey (·.stamp) (db.rowsOf d) := rfl

theorem listForDraft_eq_rowsOf_iff (db : Db) (d : Uuid) :
    db.listForDraft d = db.rowsOf d ↔ (db.rowsOf d).Pairwise fun a b => a.stamp ≤ b.stamp := by
  rw [listForDraft_eq]
  constructor
  · intro h
    rw [← h]
    exact Lib.sortByKey_sorted _ _
  · exact List.Pairwise.insertionSort_eq

/-! ## The readers -/

/-- The row as `draft.get` selects it. -/
def DraftAttachment.toFetch (a : DraftAttachment) : Fetch.DraftAttachment :=
  ⟨a.id, a.draftId, a.filename, a.contentType, .ofNat a.content.length⟩

/-- The awaited calls of `draft.get` see these tables. -/
structure Serves (b : Fetch.Backend) (db : Db) (d : Uuid) : Prop where
  draft : ∃ row, b.getDraft d = .ok (some row)
  list : b.listForDraft d = .ok ((db.listForDraft d).map (·.toFetch))
  content : ∀ id, b.loadContent id = .ok (db.loadContent id)

/-- `load_draft_mime_attachments` and what follows it, with nothing in between. -/
def sendOn (db : Db) (accountId d : Uuid) : Nat → SendStage → Option SendStage
  | 0, stage => some stage
  | n + 1, stage =>
    (resumeSend db accountId d stage .done).bind fun next => sendOn db accountId d n next.1

/-- Every reader shows these rows in this order. -/
structure ShownInOrder (db : Db) (d : Uuid) (rows : List DraftAttachment) : Prop where
  listed : db.listForDraft d = rows
  fetched : ∀ (crates : Crates) (b : Fetch.Backend) (args : Value), Serves b db d →
    parseId crates args "id" = .ok d → ∃ draft, Fetch.draftGetParts crates b args =
      .ok (some (draft, rows.map fun a => (a.toFetch, a.content)))
  sent : ∀ (accountId : Uuid) (p : Prepared) (credential : Imap.MailCredential)
    (messageId : String), sendOn db accountId d (rows.length + 1)
        (.attachments p credential messageId) =
      some (.smtp (p.request credential messageId (rows.map (·.mime))))

theorem mapM_content {b : Fetch.Backend} {db : Db} {d : Uuid} (h : Serves b db d)
    {rows : List DraftAttachment} (hrows : ∀ a ∈ rows, a ∈ db.listForDraft d) :
    ((rows.map (·.toFetch)).mapM fun row => do
      let content ← Fetch.ctx "draft_attachments::load_content" (b.loadContent row.id)
      return (row, ← Fetch.requireDraftAttachmentContent row.id content)) =
      (.ok (rows.map fun a => (a.toFetch, a.content)) : Except RpcError _) := by
  induction rows with
  | nil => rfl
  | cons a rest ih =>
    rw [List.forall_mem_cons] at hrows
    have hcontent : b.loadContent a.toFetch.id = .ok (some a.content) :=
      (h.content a.id).trans (congrArg _ (loadContent_of_mem hrows.1))
    rw [List.map_cons, List.mapM_cons, hcontent]
    simp only [Fetch.ctx, Fetch.requireDraftAttachmentContent, Fetch.okOr, bind, Except.bind, pure,
      Except.pure] at ih ⊢
    rw [ih hrows.2]
    rfl

theorem draftGetParts_eq {crates : Crates} {b : Fetch.Backend} {db : Db} {d : Uuid} {args : Value}
    (h : Serves b db d) (hid : parseId crates args "id" = .ok d) :
    ∃ draft, Fetch.draftGetParts crates b args =
      .ok (some (draft, (db.listForDraft d).map fun a => (a.toFetch, a.content))) := by
  obtain ⟨draft, hdraft⟩ := h.draft
  have hcontents := mapM_content h fun a ha => ha
  refine ⟨draft, Lib.bind_eq_ok.mpr ⟨d, hid, Lib.bind_eq_ok.mpr
    ⟨some draft, Fetch.ctx_eq_ok.mpr hdraft, Lib.bind_eq_ok.mpr
      ⟨_, Fetch.ctx_eq_ok.mpr h.list, Lib.bind_eq_ok.mpr ⟨_, hcontents, rfl⟩⟩⟩⟩⟩

/-- The rows still to load are loaded in their order. -/
theorem sendOn_next {db : Db} {accountId d : Uuid} {p : Prepared}
    {credential : Imap.MailCredential} {messageId : String} (rows : List DraftAttachment)
    (hrows : ∀ a ∈ rows, a ∈ db.listForDraft d) (loaded : List MimeAttachment) :
    sendOn db accountId d rows.length
        (.next p credential messageId loaded (rows.map (·.row))) =
      some (.smtp (p.request credential messageId (loaded ++ rows.map (·.mime)))) := by
  induction rows generalizing loaded with
  | nil =>
    rw [List.map_nil, List.map_nil, List.append_nil]
    rfl
  | cons a rest ih =>
    rw [List.forall_mem_cons] at hrows
    have hcontent : db.loadContent a.row.id = some a.content := loadContent_of_mem hrows.1
    have hnext := ih hrows.2 (loaded ++ [a.mime])
    rw [List.append_assoc, List.singleton_append] at hnext
    rw [List.length_cons, List.map_cons, List.map_cons, sendOn]
    simp only [SendStage.next, resumeSend, hcontent, Option.bind_some]
    exact hnext

theorem shownInOrder_iff (db : Db) (d : Uuid) :
    ShownInOrder db d (db.rowsOf d) ↔
      (db.rowsOf d).Pairwise fun a b => a.stamp ≤ b.stamp := by
  rw [← listForDraft_eq_rowsOf_iff]
  constructor
  · exact fun h => h.listed
  · intro h
    refine ⟨h, ?_, ?_⟩
    · intro crates b args hserves hid
      have hparts := draftGetParts_eq hserves hid
      rwa [h] at hparts
    · intro accountId p credential messageId
      have hnext := @sendOn_next db accountId d p credential messageId (db.rowsOf d)
        (fun a ha => by rw [h]; exact ha) []
      rw [List.nil_append] at hnext
      rw [← hnext, sendOn, resumeSend, h]
      rfl

/-! ## The writers -/

/-- A stored attachment without its id and its timestamp. -/
def DraftAttachment.prepared (a : DraftAttachment) : PreparedDraftAttachment :=
  ⟨a.filename, a.contentType, a.content⟩

theorem Attached.prepared {files : List PreparedDraftAttachment} {d : Uuid} {db : Db}
    (h : Attached files d db) : (db.rowsOf d).map (·.prepared) = files := by
  obtain ⟨ids, hlength, hrows⟩ := h
  have hfst : (files.zip ids).map ((·.prepared) ∘ newAttachment d) =
      (files.zip ids).map Prod.fst := rfl
  rw [hrows, List.map_map, hfst, List.map_fst_zip hlength.ge]

/-- The specs of a request that is about to write, and what was read for them. -/
def Task.pending : Task →
    Option (Option (List DraftAttachmentSpec) × Option (List PreparedDraftAttachment))
  | .update _ specs (.transaction prepared) | .create _ specs (.insert prepared) =>
    some (specs, prepared)
  | _ => none

/-- What is about to be written was read for the specs of the request. -/
def ReadForSpecs (s : State) : Prop :=
  ∀ t task specs prepared, s.tasks t = some task → task.pending = some (specs, prepared) →
    ∃ calls, prepareDraftAttachments calls specs = .ok prepared

theorem pending_resumed {t : Nat} {outcome : Outcome} {task task' : Task} {change : Change}
    (hread : FilesRead s (.resume t outcome)) (htask : s.tasks t = some task)
    (hresume : task.resume s.db outcome = some (task', change))
    {specs : Option (List DraftAttachmentSpec)} {prepared : Option (List PreparedDraftAttachment)}
    (hpending : task'.pending = some (specs, prepared)) :
    ∃ calls, prepareDraftAttachments calls specs = .ok prepared := by
  have hanswer : task.awaitedFiles = some specs → outcome = .files prepared →
      ∃ calls, prepareDraftAttachments calls specs = .ok prepared := by
    rintro hawaits rfl
    obtain ⟨calls, hcalls⟩ := hread task specs htask hawaits
    exact ⟨calls, (Option.some.inj hcalls).symm⟩
  cases resume_moves hresume with
  | send => cases hpending
  | update hmoves =>
    cases hmoves with
    | reads =>
      cases hpending
      exact hanswer rfl rfl
    | _ => cases hpending
  | create hmoves =>
    cases hmoves with
    | reads =>
      cases hpending
      exact hanswer rfl rfl
    | @clears draft rows => cases rows <;> cases hpending
    | @attaches draft next rest => cases rest <;> cases hpending
    | _ => cases hpending
  | delete => cases hpending

theorem ReadForSpecs.step (h : ReadForSpecs s) {a : Action} (hread : FilesRead s a)
    (hstep : Step s a s') : ReadForSpecs s' := by
  intro t₀ task₀ specs prepared htask hpending
  cases hstep with
  | @arrive t operation task _ hstart =>
    rw [State.setTask_tasks] at htask
    split_ifs at htask
    · cases htask
      cases operation <;> cases hstart <;> cases hpending
    · exact h t₀ task₀ specs prepared htask hpending
  | @resume t outcome task task' change db htask' hresume =>
    rw [resumed_tasks] at htask
    split_ifs at htask
    · cases htask
      exact pending_resumed hread htask' hresume hpending
    · exact h t₀ task₀ specs prepared htask hpending
  | cancel =>
    rw [State.setTask_tasks] at htask
    split_ifs at htask
    · cases htask
      cases hpending
    · exact h t₀ task₀ specs prepared htask hpending

theorem readForSpecs_of_run {db : Db} {acts : List Action}
    (hread : Guarded step FilesRead (State.init db) acts)
    (hrun : run step (State.init db) acts = some s) : ReadForSpecs s :=
  guarded_invariant step (fun _ _ _ _ htask => by cases htask)
    (fun _ _ _ h hok hstep => h.step hok (step_cases hstep)) hread hrun

/-- With the last of these actions a request has stored the attachments its specs name. -/
inductive StoresFor (db : Db) (acts : List Action) (s : State) (specs : List DraftAttachmentSpec)
    (d : Uuid) : Prop where
  | update {before : List Action} {t : Nat} {ids : List (Uuid × Int)} {s₁ : State}
      {upd : DraftUpdate} {prepared : Option (List PreparedDraftAttachment)} {old : Draft}
      (hacts : acts = before ++ [.resume t (.minted ids)])
      (hbefore : run step (State.init db) before = some s₁)
      (htask : s₁.tasks t = some (.update upd (some specs) (.transaction prepared)))
      (hold : s₁.db.getDraft upd.id = some old) (hid : upd.id = d)
  | create {before middle : List Action} {t : Nat} {stamp : Int} {s₁ s₂ : State} {new : NewDraft}
      {prepared : Option (List PreparedDraftAttachment)} {last : Action}
      (hacts : acts = before ++ .resume t (.minted [(d, stamp)]) :: (middle ++ [last]))
      (hbefore : run step (State.init db) before = some s₁)
      (htask : s₁.tasks t = some (.create new (some specs) (.insert prepared)))
      (hmiddle : run step (State.init db) (before ++ .resume t (.minted [(d, stamp)]) :: middle) =
        some s₂)
      (hrunning : ¬ s₂.Created t) (hcreated : s.Created t)
      (hunmixed : Guarded step (Unmixed d) (State.init db) acts)

/-- A create that has just returned has just been complete. -/
theorem completed_now {s₀ s₁ : State} {front : List Action} {last : Action} {t : Nat}
    {draft : Draft} {files : List PreparedDraftAttachment}
    (h : CompletedIn s₀ (front ++ [last]) t draft files) (hrun : run step s₀ (front ++ [last]) = some s)
    (hfront : run step s₀ front = some s₁) (hrunning : ¬ s₁.Created t) (hcreated : s.Created t) :
    Stored draft files s.db := by
  obtain ⟨before, after, s₂, hsplit, hbefore, hthen, hstored⟩ := h
  rcases List.eq_nil_or_concat after with rfl | ⟨middle, final, rfl⟩
  · rw [List.append_nil] at hsplit
    rw [hsplit, hbefore] at hrun
    cases hrun
    exact hstored
  · rw [List.concat_eq_append, ← List.append_assoc] at hsplit
    obtain ⟨rfl, hlast⟩ := List.append_inj' hsplit rfl
    cases hlast
    obtain ⟨s₂', hbefore', hmiddle⟩ := (run_append_iff step).mp hfront
    obtain rfl : s₂ = s₂' := Option.some.inj (hbefore.symm.trans hbefore')
    obtain ⟨s₁', hfront', hlast⟩ := (run_append_iff step).mp hrun
    obtain rfl : s₁ = s₁' := Option.some.inj (hfront.symm.trans hfront')
    obtain ⟨new, specs, row, htask⟩ := task_of_created hthen
    rcases ended_stays (fun _ _ => rfl) htask hmiddle with hstays | hcancelled
    · exact absurd (created_of_task hstays) hrunning
    · rcases ended_stays (fun _ _ => rfl) hcancelled hlast with hgone | hgone
      · exact absurd hcreated (not_created_of_cancelled hgone)
      · exact absurd hcreated (not_created_of_cancelled hgone)

/-- Both requests store the files of the specs in their order. -/
theorem StoresFor.attached {db : Db} (hdb : db.Linked) {acts : List Action}
    {specs : List DraftAttachmentSpec} {d : Uuid} (h : StoresFor db acts s specs d)
    (hread : Guarded step FilesRead (State.init db) acts)
    (hrun : run step (State.init db) acts = some s) :
    ∃ calls files, List.Forall₂ (PreparedFrom calls) specs files ∧ Attached files d s.db := by
  cases h with
  | @update before t ids s₁ upd prepared old hacts hbefore htask hold hid =>
    subst hacts hid
    obtain ⟨s₁', hbefore', hlast⟩ := (run_snoc_iff step).mp hrun
    obtain rfl : s₁ = s₁' := Option.some.inj (hbefore.symm.trans hbefore')
    obtain ⟨hreadBefore, -⟩ := guarded_append step hread hbefore
    obtain ⟨calls, hcalls⟩ :=
      readForSpecs_of_run hreadBefore hbefore t _ (some specs) prepared htask rfl
    obtain ⟨files, rfl, -, hfiles⟩ := prepareDraftAttachments_ok hcalls
    obtain ⟨hcommitted, -⟩ := committed htask hold hlast
    obtain ⟨hlength, hrows⟩ := hcommitted.replaced files rfl
    exact ⟨calls, files, hfiles, ids, hlength.symm, hrows⟩
  | @create before middle t stamp s₁ s₂ new prepared last hacts hbefore htask hmiddle hrunning
      hcreated hunmixed =>
    rw [hacts] at hread
    obtain ⟨hreadBefore, -⟩ := guarded_append step hread hbefore
    obtain ⟨calls, hcalls⟩ :=
      readForSpecs_of_run hreadBefore hbefore t _ (some specs) prepared htask rfl
    obtain ⟨files, rfl, -, hfiles⟩ := prepareDraftAttachments_ok hcalls
    have hinserts : Inserts db acts t (.new d new) files :=
      ⟨before, stamp, middle ++ [last], s₁, new, some specs, some files, hacts, hbefore, htask,
        rfl, rfl⟩
    have hsteady : Guarded step (Steady True t d) (State.init db) acts :=
      Guarded.mono step (fun _ _ hok => ⟨hok, fun _ _ => trivial, fun _ _ _ => trivial⟩) hunmixed
    have hfront : acts = (before ++ .resume t (.minted [(d, stamp)]) :: middle) ++ [last] := by
      rw [hacts, List.append_assoc, List.cons_append]
    obtain ⟨new', specs', row, hfinished⟩ := task_of_created hcreated
    have hcompleted : CompletedIn (State.init db) acts t (.new d new) files := by
      cases creation_of_run hdb hsteady hrun hinserts with
      | finished _ hcompleted => exact hcompleted
      | clears hstage => cases hfinished.symm.trans hstage
      | attaches hstage => cases hfinished.symm.trans hstage
      | undoes hstage => cases hfinished.symm.trans hstage
      | failed hstage => cases hfinished.symm.trans hstage
      | cancelled hstage => cases hfinished.symm.trans hstage
    rw [hfront] at hcompleted hrun
    exact ⟨calls, files, hfiles, (completed_now hcompleted hrun hmiddle hrunning hcreated).2⟩

/-- The readers show the attachments in the order of the request exactly if the insertions got
their timestamps and ids in that order. -/
theorem order_survives_iff {db : Db} (hdb : db.Linked) {acts : List Action}
    {specs : List DraftAttachmentSpec} {d : Uuid}
    (hread : Guarded step FilesRead (State.init db) acts)
    (hrun : run step (State.init db) acts = some s) (hstores : StoresFor db acts s specs d) :
    ∃ calls, List.Forall₂ (PreparedFrom calls) specs ((s.db.rowsOf d).map (·.prepared)) ∧
      (ShownInOrder s.db d (s.db.rowsOf d) ↔
        (s.db.rowsOf d).Pairwise fun a b => a.stamp ≤ b.stamp) := by
  obtain ⟨calls, files, hfiles, hattached⟩ := hstores.attached hdb hread hrun
  rw [← hattached.prepared] at hfiles
  exact ⟨calls, hfiles, shownInOrder_iff s.db d⟩

/-! ## Two files -/

def secondSpec : DraftAttachmentSpec := ⟨"/tmp/c.pdf", some "application/pdf", none⟩

def secondFile : PreparedDraftAttachment := ⟨"c.pdf", "application/pdf", [1, 2, 3]⟩

theorem twoFiles_prepared : prepareDraftAttachments sampleCalls (some [sampleSpec, secondSpec]) =
    .ok (some [sampleFile, secondFile]) := by
  decide

/-- The sample draft is given two files. -/
def attachingRun : List Action :=
  [.arrive 0 (.draftUpdate textUpdate (some [sampleSpec, secondSpec])),
    .resume 0 (.files (some [sampleFile, secondFile]))]

/-- The rows get these ids and timestamps. -/
def attachedRun (first second : Uuid × Int) : List Action :=
  attachingRun ++ [.resume 0 (.minted [first, second])]

theorem attachedRun_reads (first second : Uuid × Int) :
    Guarded step FilesRead (State.init sampleDb) (attachedRun first second) := by
  refine ⟨trivial, fun s₁ h₁ => ?_⟩
  cases h₁
  refine ⟨?_, fun s₂ h₂ => ?_⟩
  · intro task specs htask hawaits
    cases htask
    cases hawaits
    exact ⟨sampleCalls, congrArg some twoFiles_prepared.symm⟩
  cases h₂
  refine ⟨?_, fun _ _ => trivial⟩
  intro task specs htask hawaits
  cases htask
  cases hawaits

theorem attachedRun_stores (first second : Uuid × Int) :
    StoresFor sampleDb (attachedRun first second) s [sampleSpec, secondSpec] (sampleId 2) := by
  have hacts : attachedRun first second =
      attachingRun ++ [.resume 0 (.minted [first, second])] := rfl
  have hold : sampleDb.getDraft (sampleId 2) = some sampleDraft := by decide
  exact .update hacts rfl rfl hold rfl

theorem sampleDb_linked : sampleDb.Linked := sampleDb_withinLimit.linked

/-- The second row is a millisecond younger. -/
theorem two_files_keep_their_order :
    ∃ s, run step (State.init sampleDb) (attachedRun (sampleId 7, 5) (sampleId 6, 6)) = some s ∧
      (s.db.rowsOf (sampleId 2)).map (·.filename) = ["b.pdf", "c.pdf"] ∧
      ShownInOrder s.db (sampleId 2) (s.db.rowsOf (sampleId 2)) := by
  have heval : (run step (State.init sampleDb) (attachedRun (sampleId 7, 5) (sampleId 6, 6))).map
      (fun s => s.db.rowsOf (sampleId 2)) =
      some [newAttachment (sampleId 2) (sampleFile, (sampleId 7, 5)),
        newAttachment (sampleId 2) (secondFile, (sampleId 6, 6))] := by decide
  obtain ⟨s, hrun, hrows⟩ := Option.map_eq_some_iff.mp heval
  obtain ⟨calls, -, hiff⟩ := order_survives_iff sampleDb_linked (attachedRun_reads _ _) hrun
    (attachedRun_stores _ _)
  refine ⟨s, hrun, by rw [hrows]; rfl, hiff.mpr ?_⟩
  rw [hrows, List.pairwise_pair]
  decide

/-- Both rows fall into one millisecond, and the id of the second is smaller. -/
theorem two_files_change_places :
    ∃ s, run step (State.init sampleDb) (attachedRun (sampleId 7, 5) (sampleId 6, 5)) = some s ∧
      (s.db.rowsOf (sampleId 2)).map (·.filename) = ["b.pdf", "c.pdf"] ∧
      (s.db.listForDraft (sampleId 2)).map (·.filename) = ["c.pdf", "b.pdf"] ∧
      ¬ ShownInOrder s.db (sampleId 2) (s.db.rowsOf (sampleId 2)) := by
  have heval : (run step (State.init sampleDb) (attachedRun (sampleId 7, 5) (sampleId 6, 5))).map
      (fun s => ((s.db.rowsOf (sampleId 2)).map (·.filename),
        (s.db.listForDraft (sampleId 2)).map (·.filename))) =
      some (["b.pdf", "c.pdf"], ["c.pdf", "b.pdf"]) := by decide
  obtain ⟨s, hrun, hs⟩ := Option.map_eq_some_iff.mp heval
  obtain ⟨hrows, hlist⟩ := Prod.mk.inj hs
  refine ⟨s, hrun, hrows, hlist, fun h => ?_⟩
  rw [h.listed, hrows] at hlist
  exact absurd hlist (by decide)

end Postblox.Daemon.Drafts
