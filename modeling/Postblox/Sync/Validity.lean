import Postblox.Sync.HighWater

/-!
# Rows and marks of one `UIDVALIDITY`

The validity is compared once per call, against the first answer, and stored from
the last one, while rows are written throughout and stay when a call fails. Runs
keep a folder's rows and its mark under the stored validity as long as the server
keeps to one validity during each call, and a call that finds no reason to wipe
the folder meets the validity under which it was last answered.
-/
namespace Postblox.Sync

open Lib Db Imap Mail

variable {mail : MailCrate} {account : AccountId} {name : String}

/-! ## The history of answers -/

/-- The answers so far to calls for one folder. -/
def answered (account : AccountId) (name : String) (log : List SyncRecord) : List FolderSync :=
  (log.filter fun r => r.account = account ∧ r.folder = name).filterMap fun r => r.answer.toOption

/-- The validity in the latest of these answers. -/
def lastReported (account : AccountId) (name : String) (log : List SyncRecord) :
    Option (Option UInt32) :=
  (answered account name log).getLast?.map (·.uidValidity)

theorem mem_answered {log : List SyncRecord} {a : FolderSync} :
    a ∈ answered account name log ↔
      ∃ r ∈ log, (r.account = account ∧ r.folder = name) ∧ r.answer = .ok a := by
  unfold answered
  simp only [List.mem_filterMap, List.mem_filter, decide_eq_true_eq]
  constructor
  · intro ⟨r, ⟨hr, hfor⟩, ha⟩
    refine ⟨r, hr, hfor, ?_⟩
    cases hanswer : r.answer with
    | error e =>
      rw [hanswer] at ha
      cases ha
    | ok b =>
      rw [hanswer] at ha
      rw [Option.some.inj ha]
  · intro ⟨r, hr, hfor, ha⟩
    refine ⟨r, ⟨hr, hfor⟩, ?_⟩
    rw [ha]
    rfl

theorem lastReported_append (log recs : List SyncRecord) :
    lastReported account name (log ++ recs) =
      (lastReported account name recs).or (lastReported account name log) := by
  unfold lastReported answered
  rw [List.filter_append, List.filterMap_append, List.getLast?_append]
  cases ((recs.filter fun r => r.account = account ∧ r.folder = name).filterMap
    fun r => r.answer.toOption).getLast? with
  | none => rfl
  | some a => rfl

/-- Calls for other folders do not change what was last reported. -/
theorem lastReported_append_other {log recs : List SyncRecord}
    (hother : ∀ r ∈ recs, ¬ (r.account = account ∧ r.folder = name)) :
    lastReported account name (log ++ recs) = lastReported account name log := by
  have hnone : recs.filter (fun r => r.account = account ∧ r.folder = name) = [] := by
    rw [List.filter_eq_nil_iff]
    intro r hr
    rw [decide_eq_true_eq]
    exact hother r hr
  have hrecs : lastReported account name recs = none := by
    unfold lastReported answered
    rw [hnone]
    rfl
  rw [lastReported_append, hrecs, Option.none_or]

/-- Calls whose answers all report one validity. -/
theorem lastReported_append_same (log : List SyncRecord) {recs : List SyncRecord}
    {v : Option UInt32}
    (hsame : ∀ a ∈ answered account name recs, a.uidValidity = v) :
    lastReported account name (log ++ recs) = lastReported account name log ∨
      lastReported account name (log ++ recs) = some v := by
  rw [lastReported_append]
  cases hlast : (answered account name recs).getLast? with
  | none =>
    left
    unfold lastReported
    rw [hlast]
    rfl
  | some a =>
    right
    have hv := hsame a (List.mem_of_getLast? hlast)
    unfold lastReported
    rw [hlast, ← hv]
    rfl

theorem lastReported_append_answered {log recs : List SyncRecord} {v : Option UInt32}
    (hsame : ∀ a ∈ answered account name recs, a.uidValidity = v)
    (hne : answered account name recs ≠ []) :
    lastReported account name (log ++ recs) = some v := by
  rw [lastReported_append]
  cases hlast : (answered account name recs).getLast? with
  | none => exact absurd (List.getLast?_eq_none_iff.mp hlast) hne
  | some a =>
    have hv := hsame a (List.mem_of_getLast? hlast)
    unfold lastReported
    rw [hlast, ← hv]
    rfl

/-! ## The rows of a folder -/

/-- The stored validity is known to be another one. -/
def Differs (f : Folder) (v : UInt32) : Prop := ∃ s, f.uidValidity = some s ∧ s ≠ (v.toNat : Int)

/-- The rows of the folder satisfy `P` for the validity last reported, unless a call
that reports it again wipes them. -/
def RowsInv (P : Message → UInt32 → Prop) (account : AccountId) (name : String) (w : World)
    (f : Folder) : Prop :=
  ∀ row ∈ w.db.messages, row.folderId = f.id →
    ∃ v, lastReported account name w.syncs = some (some v) ∧ (P row v ∨ Differs f v)

/-- The server keeps to the validity `v` during the call, and either the stored
validity is another one, or no call for the folder was answered yet, or the latest
answer to one reported `v` as well. -/
structure Steady (account : AccountId) (name : String) (c : Call) (w : World) (f : Folder)
    (v : UInt32) : Prop where
  reports : ∀ k mb, w.syncs.length ≤ k → (c.env.session k).select = .ok mb →
    mb.uidValidity = some v
  known : Differs f v ∨ lastReported account name w.syncs = none ∨
    lastReported account name w.syncs = some (some v)

variable {c : Call} {w u : World} {f f' : Folder} {v : UInt32} {t : Target} {server : FolderSync}
  {recs : List SyncRecord} {rows : List Message} {r : Except Stop ReconcileReport}
  {P P' : Message → UInt32 → Prop}

/-- The answers of the call all report the validity. -/
theorem Steady.answers (hsteady : Steady account name c w f v) {made : List SyncRecord}
    (hrecorded : Recorded c.env c.req.account c.req.folderName w.syncs.length made) :
    ∀ r ∈ made, ∀ a, r.answer = .ok a → a.uidValidity = some v := by
  intro r hr a ha
  obtain ⟨j, hj⟩ := List.mem_iff_getElem?.mp hr
  obtain ⟨mb, hselect, hvalidity, -⟩ := answer_validity ha
  rw [(hrecorded j r hj).1] at hselect
  rw [hvalidity]
  exact hsteady.reports _ mb (Nat.le_add_right _ _) hselect

theorem Steady.drained (hsteady : Steady account name c w f v) (hfound : Found w c.req t)
    (hdrains : Drains mail c.env t w server recs rows r u) :
    ∀ a ∈ Sync.answers server recs, a.uidValidity = some v := by
  intro a ha
  obtain ⟨rec, hrec, hanswer⟩ := hdrains.answer_call a ha
  exact hsteady.answers (hdrains.recorded hfound) rec hrec a hanswer

/-- A row from before the call is good for the call's validity, or the call wipes it. -/
theorem RowsInv.old_row (hinv : RowsInv P account name w f)
    (hsteady : Steady account name c w f v) {row : Message} (hrow : row ∈ w.db.messages)
    (hfolder : row.folderId = f.id) : P row v ∨ Differs f v := by
  obtain ⟨v', hlast, hrow'⟩ := hinv row hrow hfolder
  rcases hsteady.known with hdiffers | hnone | hsame
  · exact .inr hdiffers
  · rw [hlast] at hnone
    cases hnone
  · rw [hlast] at hsame
    obtain rfl : v' = v := Option.some.inj (Option.some.inj hsame)
    exact hrow'

/-- A call that finds another validity stored wipes the folder. -/
theorem Steady.resyncs (hsteady : Steady account name c w f v) (hfound : Found w c.req t)
    (hfolder : t.folder = f) (hdiffers : Differs f v)
    (hdrains : Drains mail c.env t w server recs rows r u) : resyncs c.env t w = true := by
  obtain ⟨s, hs, hne⟩ := hdiffers
  obtain ⟨a, ha⟩ := hdrains.first
  have hmem : firstCall c.env t w ∈ opening c.env t w ++ recs := by
    obtain ⟨rest, hrest⟩ := opening_eq c.env t w
    rw [hrest]
    exact List.mem_cons_self
  have hv := hsteady.answers (hdrains.recorded hfound) _ hmem a ha
  unfold Sync.resyncs
  rw [ha]
  show needsFullResync t.folder a = true
  unfold needsFullResync
  rw [hfolder, hs, hv]
  simpa using hne

/-- The rows of the folder after a call that reached the loop. -/
theorem RowsInv.of_drains (hinv : RowsInv P account name w f)
    (hsteady : Steady account name c w f v) (hfound : Found w c.req t) (hfolder : t.folder = f)
    (hdrains : Drains mail c.env t w server recs rows r u) (hold : ∀ row v, P row v → P' row v)
    (hnew : ∀ row ∈ rows, P' row v) :
    ∀ row ∈ u.db.messages, row.folderId = f.id → P' row v := by
  intro row hrow hid
  rw [hdrains.messages] at hrow
  rcases List.mem_append.mp hrow with hbefore | hadded
  · unfold survivors at hbefore
    split_ifs at hbefore with hresync
    · have hgone := (List.mem_filter.mp hbefore).2
      rw [hfolder, hid] at hgone
      simp at hgone
    · rcases hinv.old_row hsteady hbefore hid with hrow' | hdiffers
      · exact hold row v hrow'
      · exact absurd (hsteady.resyncs hfound hfolder hdiffers hdrains) hresync
  · exact hnew row hadded

/-- The rows of the folder when the call never reached the loop. -/
theorem RowsInv.of_unopened (hinv : RowsInv P account name w f) (made : List SyncRecord)
    (hsteady : Steady account name c w f v)
    (hrecorded : Recorded c.env c.req.account c.req.folderName w.syncs.length made)
    (hsyncs : u.syncs = w.syncs ++ made) (hmessages : u.db.messages ⊆ w.db.messages)
    (hold : ∀ row v, P row v → P' row v) : RowsInv P' account name u f := by
  have hsame : ∀ a ∈ answered account name made, a.uidValidity = some v := by
    intro a ha
    obtain ⟨r, hr, -, hanswer⟩ := mem_answered.mp ha
    exact hsteady.answers hrecorded r hr a hanswer
  intro row hrow hid
  rw [hsyncs]
  rcases lastReported_append_same w.syncs hsame with hlast | hlast
  · obtain ⟨v', hlast', hrow'⟩ := hinv row (hmessages hrow) hid
    exact ⟨v', hlast.trans hlast', hrow'.imp_left (hold row v')⟩
  · exact ⟨v, hlast, (hinv.old_row hsteady (hmessages hrow) hid).imp_left (hold row v)⟩

/-- The folder row holds the validity last reported. -/
def Current (account : AccountId) (name : String) (w : World) (f : Folder) : Prop :=
  ∃ v : UInt32, f.uidValidity = some (v.toNat : Int) ∧
    lastReported account name w.syncs = some (some v)

theorem lastReported_of_drains (hsteady : Steady account name c w f v)
    (hfor : c.req.isFor account name) (hfound : Found w c.req t)
    (hdrains : Drains mail c.env t w server recs rows r u) :
    lastReported account name u.syncs = some (some v) := by
  have hrecorded := hdrains.recorded hfound
  rw [hdrains.syncs]
  refine lastReported_append_answered ?_ ?_
  · intro a ha
    obtain ⟨rec, hrec, -, hanswer⟩ := mem_answered.mp ha
    exact hsteady.answers hrecorded rec hrec a hanswer
  · obtain ⟨rec, hrec, hanswer⟩ := hdrains.answer_call server List.mem_cons_self
    obtain ⟨j, hj⟩ := List.mem_iff_getElem?.mp hrec
    obtain ⟨-, haccount, hname⟩ := hrecorded j rec hj
    exact List.ne_nil_of_mem (mem_answered.mpr
      ⟨rec, hrec, ⟨haccount.trans hfor.1, hname.trans hfor.2⟩, hanswer⟩)

/-- The validity that a completed loop stores. -/
theorem stored_of_completed (hsteady : Steady account name c w f v) (hfound : Found w c.req t)
    (hdrains : Drains mail c.env t w server recs rows r u) {last : FolderSync}
    (hcompleted : Completed mail c.env t w server recs u last) (mark : Option Int) :
    (stamp last mark f).uidValidity = some (v.toNat : Int) := by
  have hv := hsteady.drained hfound hdrains last (List.mem_of_getLast? hcompleted.isLast)
  unfold stamp widen
  rw [hv]
  rfl

variable (mail) in
/-- A steady call for the folder keeps what its rows satisfy, however it ends, when
the rows it adds satisfy it too. -/
theorem RowsInv.step_for (hf : Folders.getByName w.db account name = some f)
    (hinv : RowsInv P account name w f) (hsteady : Steady account name c w f v)
    (hfor : c.req.isFor account name) (hold : ∀ row v, P row v → P' row v)
    (hnew : ∀ t server recs rows, Found w c.req t →
      Drains mail c.env t w server recs rows (c.result mail w) (c.apply mail w) →
      ∀ row ∈ rows, P' row v) :
    ∃ f', Folders.getByName (c.apply mail w).db account name = some f' ∧
      RowsInv P' account name (c.apply mail w) f' ∧
      ∀ rep, c.result mail w = .ok rep → Current account name (c.apply mail w) f' := by
  have houtcome : Outcome mail c.env c.req w (c.result mail w) (c.apply mail w) :=
    reconcile_outcome mail c.env c.req w
  generalize c.result mail w = r at houtcome hnew
  generalize c.apply mail w = u at houtcome hnew
  cases houtcome with
  | refused quiet =>
    refine ⟨f, (getByName_congr quiet.folders).trans hf, ?_, fun rep h => nomatch h⟩
    refine hinv.of_unopened [] hsteady (Recorded.nil _) ?_ ?_ hold
    · rw [quiet.syncs, List.append_nil]
    · rw [quiet.messages]
      exact List.Subset.refl _
  | unopened found syncs calls messages folders =>
    refine ⟨f, (getByName_congr folders).trans hf, ?_, fun rep h => nomatch h⟩
    refine hinv.of_unopened _ hsteady ((opening_recorded found).of_shorter calls) syncs ?_ hold
    rcases messages with hsame | hwiped
    · rw [hsame]
      exact List.Subset.refl _
    · rw [hwiped]
      exact survivors_subset
  | @drains t server recs rows _ _ found drains fuel =>
    have hfolder : t.folder = f := by
      have hget := found.folder
      rw [hfor.1, hfor.2, hf] at hget
      exact (Option.some.inj hget).symm
    have hrows := hinv.of_drains hsteady found hfolder drains hold
      (hnew t server recs rows found drains)
    have hlast := lastReported_of_drains hsteady hfor found drains
    rcases drains.state with ⟨hfolders, e, he⟩ | ⟨last, hcompleted⟩
    · refine ⟨f, (getByName_congr hfolders).trans hf, ?_, ?_⟩
      · exact fun row hrow hid => ⟨v, hlast, .inl (hrows row hrow hid)⟩
      · intro rep hrep
        rw [he] at hrep
        cases hrep
    · have hget := getByName_stamped account name hcompleted.folders
      rw [hf, hfolder] at hget
      refine ⟨stamp last (markAfter c.env t w server recs) f, ?_, ?_, ?_⟩
      · rw [hget]
        simp
      · exact fun row hrow hid => ⟨v, hlast, .inl (hrows row hrow hid)⟩
      · exact fun _ _ => ⟨v, stored_of_completed hsteady found drains hcompleted _, hlast⟩

theorem lastReported_other (hother : ¬ c.req.isFor account name) :
    lastReported account name (c.apply mail w).syncs = lastReported account name w.syncs := by
  obtain ⟨recs, hsyncs, hrecorded⟩ := recorded_after_call mail c w
  rw [hsyncs]
  refine lastReported_append_other ?_
  intro r hr hfor
  obtain ⟨j, hj⟩ := List.mem_iff_getElem?.mp hr
  obtain ⟨-, haccount, hname⟩ := hrecorded j r hj
  exact hother ⟨haccount.symm.trans hfor.1, hname.symm.trans hfor.2⟩

variable (mail) in
/-- A call for another folder does not concern this one. -/
theorem RowsInv.step_other (hf : Folders.getByName w.db account name = some f)
    (hinv : RowsInv P account name w f) (hother : ¬ c.req.isFor account name)
    (hold : ∀ row v, P row v → P' row v) :
    Folders.getByName (c.apply mail w).db account name = some f ∧
      RowsInv P' account name (c.apply mail w) f := by
  constructor
  · rcases folder_after_call mail c w hf with ⟨hsame, -⟩ | ⟨hfor, -⟩
    · exact hsame
    · exact absurd hfor hother
  · intro row hrow hid
    obtain ⟨v, hv, hrow'⟩ := hinv row (other_rows_after_call hf hother row hrow hid) hid
    exact ⟨v, (lastReported_other hother).trans hv, hrow'.imp_left (hold row v)⟩

/-! ## Rows and mark -/

/-- The row holds a message of an answer under the validity. -/
def FetchedUnder (mail : MailCrate) (w : World) (row : Message) (v : UInt32) : Prop :=
  ∃ r a m, (row.id, some r) ∈ w.origins ∧ r.answer = .ok a ∧ m ∈ a.messages ∧
    RowOf mail row.accountId row.folderId m row ∧ a.uidValidity = some v

/-- The mark was raised by an answer for the folder under the validity. -/
def MarkedUnder (account : AccountId) (name : String) (w : World) (m : Int) (v : UInt32) : Prop :=
  ∃ a ∈ answered account name w.syncs, a.uidValidity = some v ∧ Raises a m

/-- The rows were fetched under the validity last reported, and the mark was raised
under the stored one. -/
structure ValidityInv (mail : MailCrate) (account : AccountId) (name : String) (w : World)
    (f : Folder) : Prop where
  rows : RowsInv (FetchedUnder mail w) account name w f
  mark : ∀ m, f.lastSeenUid = some m →
    ∃ v : UInt32, f.uidValidity = some (v.toNat : Int) ∧ MarkedUnder account name w m v

theorem FetchedUnder.after_call {row : Message} (h : FetchedUnder mail w row v) :
    FetchedUnder mail (c.apply mail w) row v := by
  obtain ⟨r, a, m, horigin, hrest⟩ := h
  exact ⟨r, a, m, origins_after_call mail c w _ horigin, hrest⟩

theorem MarkedUnder.after_call {m : Int} (h : MarkedUnder account name w m v) :
    MarkedUnder account name (c.apply mail w) m v := by
  obtain ⟨a, ha, hrest⟩ := h
  obtain ⟨r, hr, hfor, hanswer⟩ := mem_answered.mp ha
  exact ⟨a, mem_answered.mpr ⟨r, (syncs_after_call mail c w).subset hr, hfor, hanswer⟩, hrest⟩

/-- The rows that the loop adds were fetched under the call's validity. -/
theorem Steady.fetched (hsteady : Steady account name c w f v) (hfound : Found w c.req t)
    (hdrains : Drains mail c.env t w server recs rows r u) :
    ∀ row ∈ rows, FetchedUnder mail u row v := by
  intro row hrow
  obtain ⟨a, ha, m, hm, hof, rec, horigin, hanswer⟩ := hdrains.fetched row hrow
  exact ⟨rec, a, m, horigin, hanswer, hm, hof.own, hsteady.drained hfound hdrains a ha⟩

/-- The mark that a call stores was raised under its validity. -/
theorem mark_of_steady (hinv : ValidityInv mail account name w f)
    (hsteady : Steady account name c w f v) (hfor : c.req.isFor account name)
    {last : FolderSync} (hstores : Stores mail c w f t server recs rows last) {m : Int}
    (hm : (stamp last (markAfter c.env t w server recs) f).lastSeenUid = some m) :
    MarkedUnder account name (c.apply mail w) m v := by
  have hrecorded := hstores.drains.recorded hstores.found
  obtain ⟨m', hm'⟩ := highWater_isSome (startMark c.env t w) server
    (recs.filterMap fun r => r.answer.toOption)
  have hfold : (answers server recs).foldl highWater (startMark c.env t w) = some m' := hm'
  have heq : m' = m := by
    unfold stamp markAfter at hm
    rw [hfold] at hm
    exact Option.some.inj hm
  rw [heq] at hfold
  obtain ⟨hstart | ⟨a, ha, hraises⟩, -, -⟩ := foldl_highWater hfold
  · unfold startMark at hstart
    split_ifs at hstart with hresync
    rw [hstores.folder] at hstart
    obtain ⟨v', hstored, hmarked⟩ := hinv.mark m hstart
    have hv : v' = v := by
      by_contra hne
      have hdiffers : Differs f v := by
        refine ⟨_, hstored, fun heq => hne ?_⟩
        exact UInt32.toNat_inj.mp (Int.ofNat_inj.mp heq)
      exact hresync (hsteady.resyncs hstores.found hstores.folder hdiffers hstores.drains)
    rw [← hv]
    exact hmarked.after_call
  · obtain ⟨rec, hrec, hanswer⟩ := hstores.drains.answer_call a ha
    obtain ⟨j, hj⟩ := List.mem_iff_getElem?.mp hrec
    obtain ⟨-, haccount, hname⟩ := hrecorded j rec hj
    refine ⟨a, mem_answered.mpr ⟨rec, ?_, ⟨haccount.trans hfor.1, hname.trans hfor.2⟩, hanswer⟩,
      hsteady.drained hstores.found hstores.drains a ha, hraises⟩
    rw [hstores.drains.syncs]
    exact List.mem_append_right _ hrec

/-- A steady call for the folder keeps the invariant, however it ends. -/
theorem ValidityInv.step_for (hf : Folders.getByName w.db account name = some f)
    (hinv : ValidityInv mail account name w f) (hsteady : Steady account name c w f v)
    (hfor : c.req.isFor account name) :
    ∃ f', Folders.getByName (c.apply mail w).db account name = some f' ∧
      ValidityInv mail account name (c.apply mail w) f' ∧
      ∀ rep, c.result mail w = .ok rep → Current account name (c.apply mail w) f' := by
  obtain ⟨f', hf', hrows, hcurrent⟩ := hinv.rows.step_for mail hf hsteady hfor
    (fun _ _ h => h.after_call) (fun _ _ _ _ hfound hdrains => hsteady.fetched hfound hdrains)
  refine ⟨f', hf', ⟨hrows, ?_⟩, hcurrent⟩
  intro m hm
  rcases folder_after_call mail c w hf with ⟨hsame, -⟩ |
    ⟨-, t, server, recs, rows, last, hstores, hget⟩
  · obtain rfl : f = f' := Option.some.inj (hsame.symm.trans hf')
    obtain ⟨v', hstored, hmarked⟩ := hinv.mark m hm
    exact ⟨v', hstored, hmarked.after_call⟩
  · obtain rfl := Option.some.inj (hget.symm.trans hf')
    exact ⟨v, stored_of_completed hsteady hstores.found hstores.drains hstores.completed _,
      mark_of_steady hinv hsteady hfor hstores hm⟩

theorem ValidityInv.step_other (hf : Folders.getByName w.db account name = some f)
    (hinv : ValidityInv mail account name w f) (hother : ¬ c.req.isFor account name) :
    Folders.getByName (c.apply mail w).db account name = some f ∧
      ValidityInv mail account name (c.apply mail w) f := by
  obtain ⟨hf', hrows⟩ := hinv.rows.step_other mail hf hother 
    (fun _ _ h => h.after_call)
  refine ⟨hf', hrows, ?_⟩
  intro m hm
  obtain ⟨v, hstored, hmarked⟩ := hinv.mark m hm
  exact ⟨v, hstored, hmarked.after_call⟩

/-! ## Whole runs -/

/-- Every call of the run that is made for the folder is steady. -/
def SteadyRun (mail : MailCrate) (account : AccountId) (name : String) :
    World → List Call → Prop
  | _, [] => True
  | w, c :: rest =>
    (c.req.isFor account name → ∀ f, Folders.getByName w.db account name = some f →
      ∃ v, Steady account name c w f v) ∧ SteadyRun mail account name (c.apply mail w) rest

theorem ValidityInv.step (hf : Folders.getByName w.db account name = some f)
    (hinv : ValidityInv mail account name w f)
    (hsteady : c.req.isFor account name → ∀ f, Folders.getByName w.db account name = some f →
      ∃ v, Steady account name c w f v) :
    ∃ f', Folders.getByName (c.apply mail w).db account name = some f' ∧
      ValidityInv mail account name (c.apply mail w) f' ∧
      (c.req.isFor account name → ∀ rep, c.result mail w = .ok rep →
        Current account name (c.apply mail w) f') := by
  by_cases hfor : c.req.isFor account name
  · obtain ⟨v, hv⟩ := hsteady hfor f hf
    obtain ⟨f', hf', hinv', hcurrent⟩ := hinv.step_for hf hv hfor
    exact ⟨f', hf', hinv', fun _ => hcurrent⟩
  · obtain ⟨hf', hinv'⟩ := hinv.step_other hf hfor
    exact ⟨f, hf', hinv', fun h => absurd h hfor⟩

theorem ValidityInv.run {calls : List Call} (hf : Folders.getByName w.db account name = some f)
    (hinv : ValidityInv mail account name w f) (hrun : SteadyRun mail account name w calls) :
    ∃ f', Folders.getByName (afterCalls mail w calls).db account name = some f' ∧
      ValidityInv mail account name (afterCalls mail w calls) f' := by
  induction calls generalizing w f with
  | nil => exact ⟨f, hf, hinv⟩
  | cons c rest ih =>
    obtain ⟨f', hf', hinv', -⟩ := hinv.step hf hrun.1
    exact ih hf' hinv' hrun.2

theorem SteadyRun.append {calls later : List Call}
    (hrun : SteadyRun mail account name w (calls ++ later)) :
    SteadyRun mail account name w calls ∧
      SteadyRun mail account name (afterCalls mail w calls) later := by
  induction calls generalizing w with
  | nil => exact ⟨trivial, hrun⟩
  | cons c rest ih =>
    obtain ⟨hcalls, hlater⟩ := ih hrun.2
    exact ⟨⟨hrun.1, hcalls⟩, hlater⟩

/-- In a run of steady calls on a folder that starts without rows and mark, after
every call that returns well all rows of the folder were fetched under the stored
validity and its mark was raised under it. -/
theorem rows_of_stored_validity (hf : Folders.getByName w.db account name = some f)
    (hrows : ∀ row ∈ w.db.messages, row.folderId ≠ f.id) (hmark : f.lastSeenUid = none)
    {before : List Call} (hrun : SteadyRun mail account name w (before ++ [c]))
    (hfor : c.req.isFor account name) {rep : ReconcileReport}
    (hok : c.result mail (afterCalls mail w before) = .ok rep) :
    ∃ f' v, Folders.getByName (afterCalls mail w (before ++ [c])).db account name = some f' ∧
      f'.uidValidity = some ((v : UInt32).toNat : Int) ∧
      (∀ row ∈ (afterCalls mail w (before ++ [c])).db.messages, row.folderId = f'.id →
        FetchedUnder mail (afterCalls mail w (before ++ [c])) row v) ∧
      ∀ m, f'.lastSeenUid = some m →
        MarkedUnder account name (afterCalls mail w (before ++ [c])) m v := by
  have hinv₀ : ValidityInv mail account name w f := by
    refine ⟨fun row hrow hid => absurd hid (hrows row hrow), fun m hm => ?_⟩
    rw [hmark] at hm
    cases hm
  obtain ⟨hbefore, hlast⟩ := hrun.append
  obtain ⟨f₀, hf₀, hinv⟩ := hinv₀.run hf hbefore
  obtain ⟨f', hf', hinv', hcurrent⟩ := hinv.step hf₀ hlast.1
  obtain ⟨v, hstored, hreported⟩ := hcurrent hfor rep hok
  rw [afterCalls_append]
  refine ⟨f', v, hf', hstored, ?_, ?_⟩
  · intro row hrow hid
    obtain ⟨v', hreported', hunder⟩ := hinv'.rows row hrow hid
    have hv : v' = v :=
      Option.some.inj (Option.some.inj (hreported'.symm.trans hreported))
    rw [hv] at hunder
    rcases hunder with hunder | ⟨s, hs, hne⟩
    · exact hunder
    · exact absurd (Option.some.inj (hs.symm.trans hstored)) hne
  · intro m hm
    obtain ⟨v', hstored', hmarked⟩ := hinv'.mark m hm
    have hv : v' = v :=
      UInt32.toNat_inj.mp (Int.ofNat_inj.mp (Option.some.inj (hstored'.symm.trans hstored)))
    rw [hv] at hmarked
    exact hmarked

/-! ## A mailbox that takes two windows -/

/-- A mailbox with one message, whose `UIDNEXT` is more than a window away. -/
def oneMessage (v uid : UInt32) (id : String) : Session where
  connect := .ok ()
  select := .ok ⟨some v, some 700, 1⟩
  uidFetch lo hi :=
    .ok ⟨if lo ≤ uid ∧ uid ≤ hi then [.ok ⟨some uid, [], some 0, some (idMessage id)⟩] else [],
      false⟩

def oneMessageCall (v uid : UInt32) (id : String) : Call :=
  .calm "INBOX" fun _ => oneMessage v uid id

/-- A call under validity 1, then one under validity 2, which wipes the folder. -/
theorem rows_of_stored_validity_after_change :
    ∃ f', Folders.getByName (afterCalls .idOnly .small
        [oneMessageCall 1 1 "a", oneMessageCall 2 600 "b"]).db 0 "INBOX" = some f' ∧
      f'.uidValidity = some 2 ∧
      ∀ row ∈ (afterCalls .idOnly .small
          [oneMessageCall 1 1 "a", oneMessageCall 2 600 "b"]).db.messages, row.folderId = f'.id →
        FetchedUnder .idOnly (afterCalls .idOnly .small
          [oneMessageCall 1 1 "a", oneMessageCall 2 600 "b"]) row 2 := by
  have hf : Folders.getByName World.small.db 0 "INBOX" =
      some ⟨1, 0, "INBOX", .inbox, none, none, none⟩ := by decide
  have hf₁ : Folders.getByName ((oneMessageCall 1 1 "a").apply .idOnly .small).db 0 "INBOX" =
      some ⟨1, 0, "INBOX", .inbox, some 1, some 700, some 699⟩ := by decide
  have hf₂ : Folders.getByName (afterCalls .idOnly .small
      ([oneMessageCall 1 1 "a"] ++ [oneMessageCall 2 600 "b"])).db 0 "INBOX" =
      some ⟨1, 0, "INBOX", .inbox, some 2, some 700, some 699⟩ := by decide
  have hok : (oneMessageCall 2 600 "b").result .idOnly
      (afterCalls .idOnly .small [oneMessageCall 1 1 "a"]) =
      .ok ⟨1, 1, 1, some 2, some 700, some 699⟩ := by decide
  have hreports : ∀ v uid id mb, (oneMessage v uid id).select = .ok mb →
      mb.uidValidity = some v := by
    intro v uid id mb hmb
    rw [← Except.ok.inj hmb]
  have hrun : SteadyRun .idOnly 0 "INBOX" .small
      ([oneMessageCall 1 1 "a"] ++ [oneMessageCall 2 600 "b"]) := by
    refine ⟨fun _ f _ => ⟨1, fun k mb _ hmb => hreports 1 1 "a" mb hmb, .inr (.inl rfl)⟩,
      fun _ f hget => ⟨2, fun k mb _ hmb => hreports 2 600 "b" mb hmb, .inl ?_⟩, trivial⟩
    obtain rfl := Option.some.inj (hf₁.symm.trans hget)
    exact ⟨1, rfl, by decide⟩
  obtain ⟨f', v, hget, hstored, hrows, -⟩ :=
    rows_of_stored_validity hf (fun _ h => nomatch h) rfl hrun ⟨rfl, rfl⟩ hok
  obtain rfl := Option.some.inj (hf₂.symm.trans hget)
  have hv : v = 2 := by
    have htoNat : (2 : Int) = v.toNat := Option.some.inj hstored
    exact UInt32.toNat_inj.mp (by
      show v.toNat = 2
      omega)
  rw [hv] at hrows
  exact ⟨_, hget, rfl, hrows⟩

/-- The validity changes between the two windows of one call: the call returns well
and stores validity 2, and the row of UID 1 was fetched under validity 1. -/
theorem rows_of_two_validities :
    (Call.calm "INBOX" fun k => if k = 0 then oneMessage 1 1 "a" else oneMessage 2 600 "b").result
        .idOnly .small = .ok ⟨1, 2, 0, some 2, some 700, some 699⟩ ∧
    (Folders.getByName ((Call.calm "INBOX" fun k => if k = 0 then oneMessage 1 1 "a"
        else oneMessage 2 600 "b").apply .idOnly .small).db 0 "INBOX").bind (·.uidValidity) =
      some 2 ∧
    ((Call.calm "INBOX" fun k => if k = 0 then oneMessage 1 1 "a"
        else oneMessage 2 600 "b").apply .idOnly .small).db.messages.map
          (fun row => (row.id, row.folderId, row.uid)) = [(4, 1, 1), (6, 1, 600)] ∧
    ((Call.calm "INBOX" fun k => if k = 0 then oneMessage 1 1 "a"
        else oneMessage 2 600 "b").apply .idOnly .small).origins.map
          (fun o => (o.1, o.2.bind fun r => r.answer.toOption.bind (·.uidValidity))) =
      [(4, some 1), (6, some 2)] := by
  refine ⟨?_, ?_, ?_, ?_⟩
  · decide
  · decide
  · decide
  · decide

end Postblox.Sync
