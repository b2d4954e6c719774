import Postblox.Sync.Windows

/-!
# Runs of calls

A run is a list of `reconcile_folder` calls, each with its own environment and on
any folder. A call changes the row of at most one folder, the one it was made
for, and only when its loop came to an end.
-/
namespace Postblox.Sync

open Lib Db Imap Mail

structure Call where
  env : Env
  req : Request

/-- The world after one call. -/
def Call.apply (mail : MailCrate) (c : Call) (w : World) : World :=
  (reconcile mail c.env c.req w).2

/-- How the call ends. -/
def Call.result (mail : MailCrate) (c : Call) (w : World) : Except Stop ReconcileReport :=
  (reconcile mail c.env c.req w).1

def afterCalls (mail : MailCrate) (w : World) (calls : List Call) : World :=
  calls.foldl (fun w c => c.apply mail w) w

theorem afterCalls_append (mail : MailCrate) (w : World) (calls later : List Call) :
    afterCalls mail w (calls ++ later) = afterCalls mail (afterCalls mail w calls) later :=
  List.foldl_append

/-- The call is for the given folder. -/
def Request.isFor (req : Request) (account : AccountId) (name : String) : Prop :=
  req.account = account ∧ req.folderName = name

instance (req : Request) (account : AccountId) (name : String) :
    Decidable (req.isFor account name) :=
  inferInstanceAs (Decidable (_ ∧ _))

variable {env : Env} {mail : MailCrate} {req : Request} {account : AccountId} {name : String}

theorem Found.isFor {w : World} {t : Target} (h : Found w req t) :
    t.account.id = req.account ∧ t.folder.accountId = req.account ∧
      t.folder.name = req.folderName := by
  have haccount := List.find?_some h.account
  have hfolder := List.find?_some h.folder
  simp only [decide_eq_true_eq] at haccount hfolder
  exact ⟨haccount, hfolder⟩

/-- Two rows of the folder table with one id are one row. -/
theorem folder_eq_of_id {db : Database} {f g : Folder} {a b : AccountId} {n m : String}
    (hf : Folders.getByName db a n = some f) (hg : Folders.getByName db b m = some g)
    (hid : f.id = g.id) : f = g :=
  db.wf.folderIds.eq_of_key (List.mem_of_find?_eq_some hf) (List.mem_of_find?_eq_some hg) rfl
    (by rw [hid])

theorem getByName_congr {db db' : Database} (h : db'.folders = db.folders) :
    Folders.getByName db' account name = Folders.getByName db account name := by
  unfold Folders.getByName
  rw [h]

variable (account name) in
theorem getByName_stamped {db db' : Database} {id : FolderId} {last : FolderSync}
    {mark : Option Int} (h : db'.folders = stamped id last mark db.folders) :
    Folders.getByName db' account name =
      (Folders.getByName db account name).map
        (fun f => if f.id = id then stamp last mark f else f) := by
  unfold Folders.getByName
  rw [h]
  refine (find?_updateWhere (f := stamp last mark) (fun _ => rfl) db.folders).trans ?_
  simp only [decide_eq_true_eq]

/-- A call that stored a new UID state for a folder, ending with the answer `last`. -/
structure Stores (mail : MailCrate) (c : Call) (w : World) (f : Folder) (t : Target)
    (server : FolderSync) (recs : List SyncRecord) (rows : List Message) (last : FolderSync) :
    Prop where
  found : Found w c.req t
  folder : t.folder = f
  drains : Drains mail c.env t w server recs rows (c.result mail w) (c.apply mail w)
  completed : Completed mail c.env t w server recs (c.apply mail w) last

/-- A call changes the row of a folder only when it is made for it. -/
theorem Found.ne_of_other {c : Call} {w : World} {t : Target} {f : Folder}
    (hfound : Found w c.req t) (hf : Folders.getByName w.db account name = some f)
    (hother : ¬ c.req.isFor account name) : f.id ≠ t.folder.id := by
  intro hid
  obtain ⟨-, hfaccount, hfname⟩ := hfound.isFor
  rw [← folder_eq_of_id hf hfound.folder hid] at hfaccount hfname
  have hkey := List.find?_some hf
  simp only [decide_eq_true_eq] at hkey
  exact hother ⟨hfaccount.symm.trans hkey.1, hfname.symm.trans hkey.2⟩

/-- What a call does to the row of any one folder. -/
theorem folder_after_call (mail : MailCrate) (c : Call) (w : World) {f : Folder}
    (hf : Folders.getByName w.db account name = some f) :
    (Folders.getByName (c.apply mail w).db account name = some f ∧
        ∀ rep, c.result mail w = .ok rep → ¬ c.req.isFor account name) ∨
      (c.req.isFor account name ∧ ∃ t server recs rows last,
        Stores mail c w f t server recs rows last ∧
        Folders.getByName (c.apply mail w).db account name =
          some (stamp last (markAfter c.env t w server recs) f)) := by
  have houtcome : Outcome mail c.env c.req w (c.result mail w) (c.apply mail w) :=
    reconcile_outcome mail c.env c.req w
  generalize hr : c.result mail w = r at houtcome
  generalize hu : c.apply mail w = u at houtcome
  cases houtcome with
  | refused quiet =>
    exact .inl ⟨(getByName_congr quiet.folders).trans hf, fun rep h => nomatch h⟩
  | unopened found syncs calls messages folders =>
    exact .inl ⟨(getByName_congr folders).trans hf, fun rep h => nomatch h⟩
  | @drains t server recs rows _ _ found drains fuel =>
    rcases drains.state with ⟨hfolders, e, he⟩ | ⟨last, hcompleted⟩
    · refine .inl ⟨(getByName_congr hfolders).trans hf, fun rep h => ?_⟩
      rw [he] at h
      cases h
    · have hget := getByName_stamped account name hcompleted.folders
      rw [hf] at hget
      by_cases hfor : c.req.isFor account name
      · have hsame : t.folder = f := by
          have hfound := found.folder
          rw [hfor.1, hfor.2, hf] at hfound
          exact (Option.some.inj hfound).symm
        refine .inr ⟨hfor, t, server, recs, rows, last, ⟨found, hsame, ?_, ?_⟩, ?_⟩
        · rw [hr, hu]
          exact drains
        · rw [hu]
          exact hcompleted
        · rw [hget, hsame]
          simp
      · have hne := found.ne_of_other hf hfor
        refine .inl ⟨?_, fun rep _ => hfor⟩
        rw [hget]
        simp [hne]

/-- A call that returned well stored a state for the folder it was made for. -/
theorem stores_of_ok {c : Call} {w : World} {rep : ReconcileReport}
    (hok : c.result mail w = .ok rep) :
    ∃ t server recs rows last, Stores mail c w t.folder t server recs rows last ∧
      Folders.getByName (c.apply mail w).db c.req.account c.req.folderName =
        some (stamp last (markAfter c.env t w server recs) t.folder) := by
  have hfound : ∃ t, Found w c.req t := by
    have houtcome : Outcome mail c.env c.req w (c.result mail w) (c.apply mail w) :=
      reconcile_outcome mail c.env c.req w
    generalize c.result mail w = r at houtcome hok
    cases houtcome with
    | refused quiet => cases hok
    | unopened => cases hok
    | drains found => exact ⟨_, found⟩
  obtain ⟨t₀, hfound⟩ := hfound
  rcases folder_after_call mail c w hfound.folder with ⟨-, hnot⟩ |
    ⟨-, t, server, recs, rows, last, hstores, hget⟩
  · exact absurd ⟨rfl, rfl⟩ (hnot rep hok)
  · have hfolder := hstores.folder
    rw [← hfolder] at hstores hget
    exact ⟨t, server, recs, rows, last, hstores, hget⟩

/-- IMAP calls made for one folder, on the connections from the `n`-th on. -/
def Recorded (env : Env) (account : AccountId) (name : String) (n : Nat)
    (recs : List SyncRecord) : Prop :=
  ∀ j rec, recs[j]? = some rec →
    rec.session = env.session (n + j) ∧ rec.account = account ∧ rec.folder = name

theorem Recorded.cons {n : Nat} {r : SyncRecord} {recs : List SyncRecord}
    (hsession : r.session = env.session n) (haccount : r.account = account)
    (hname : r.folder = name) (h : Recorded env account name (n + 1) recs) :
    Recorded env account name n (r :: recs) := by
  intro j rec hj
  cases j with
  | zero =>
    obtain rfl : r = rec := Option.some.inj hj
    exact ⟨hsession, haccount, hname⟩
  | succ j =>
    have hrec := h j rec hj
    rwa [show n + 1 + j = n + (j + 1) by omega] at hrec

theorem Recorded.nil (n : Nat) : Recorded env account name n [] := by
  intro j rec hj
  cases hj

theorem chained_recorded {n : Nat} {server : FolderSync} {recs : List SyncRecord}
    (hchained : Chained env account name n server recs) : Recorded env account name n recs := by
  induction recs generalizing n server with
  | nil => exact .nil n
  | cons next rest ih =>
    obtain ⟨-, hnext, hrest⟩ := hchained
    have htail : Recorded env account name (n + 1) rest := by
      cases hanswer : next.answer with
      | error e =>
        rw [hanswer] at hrest
        rw [hrest]
        exact .nil _
      | ok server' =>
        rw [hanswer] at hrest
        exact ih hrest
    refine .cons ?_ ?_ ?_ htail
    · rw [hnext]
    · rw [hnext]
    · rw [hnext]

theorem opening_recorded {w : World} {t : Target} (hfound : Found w req t) :
    Recorded env req.account req.folderName w.syncs.length (opening env t w) := by
  obtain ⟨haccount, -, hname⟩ := hfound.isFor
  unfold opening
  split_ifs
  · exact .cons rfl haccount hname (.cons rfl haccount hname (.nil _))
  · exact .cons rfl haccount hname (.nil _)

theorem Recorded.append {n : Nat} {recs recs' : List SyncRecord}
    (h : Recorded env account name n recs)
    (h' : Recorded env account name (n + recs.length) recs') :
    Recorded env account name n (recs ++ recs') := by
  intro j rec hj
  by_cases hlt : j < recs.length
  · rw [List.getElem?_append_left hlt] at hj
    exact h j rec hj
  · rw [List.getElem?_append_right (by omega)] at hj
    have hrec := h' _ rec hj
    rwa [show n + recs.length + (j - recs.length) = n + j by omega] at hrec

theorem Recorded.of_shorter {n : Nat} {recs recs' : List SyncRecord}
    (h : Recorded env account name n recs') (hshorter : recs <+: recs') :
    Recorded env account name n recs := by
  obtain ⟨rest, rfl⟩ := hshorter
  intro j rec hj
  refine h j rec ?_
  rw [List.getElem?_append_left (List.getElem?_eq_some_iff.mp hj).1]
  exact hj

theorem Drains.recorded {w u : World} {t : Target} {server : FolderSync}
    {recs : List SyncRecord} {rows : List Message} {r : Except Stop ReconcileReport}
    (hdrains : Drains mail env t w server recs rows r u) (hfound : Found w req t) :
    Recorded env req.account req.folderName w.syncs.length (opening env t w ++ recs) := by
  obtain ⟨haccount, -, hname⟩ := hfound.isFor
  have hchained := hdrains.chained
  rw [haccount, hname] at hchained
  exact (opening_recorded hfound).append (chained_recorded hchained)

/-- Every answer of the loop came from one of the call's IMAP calls. -/
theorem Drains.answer_call {w u : World} {t : Target} {server : FolderSync}
    {recs : List SyncRecord} {rows : List Message} {r : Except Stop ReconcileReport}
    (hdrains : Drains mail env t w server recs rows r u) :
    ∀ a ∈ answers server recs, ∃ rec ∈ opening env t w ++ recs, rec.answer = .ok a := by
  intro a ha
  rcases List.mem_cons.mp ha with rfl | hmem
  · obtain ⟨rec, hlast, hanswer⟩ := hdrains.opened
    exact ⟨rec, List.mem_append_left _ (List.mem_of_getLast? hlast), hanswer⟩
  · obtain ⟨rec, hrec, hsome⟩ := List.mem_filterMap.mp hmem
    refine ⟨rec, List.mem_append_right _ hrec, ?_⟩
    cases hanswer : rec.answer with
    | error e =>
      rw [hanswer] at hsome
      cases hsome
    | ok b =>
      rw [hanswer] at hsome
      rw [Option.some.inj hsome]

/-- The IMAP calls that one call adds to the history. -/
theorem recorded_after_call (mail : MailCrate) (c : Call) (w : World) :
    ∃ recs, (c.apply mail w).syncs = w.syncs ++ recs ∧
      Recorded c.env c.req.account c.req.folderName w.syncs.length recs := by
  have houtcome : Outcome mail c.env c.req w (c.result mail w) (c.apply mail w) :=
    reconcile_outcome mail c.env c.req w
  generalize c.result mail w = r at houtcome
  generalize c.apply mail w = u at houtcome
  cases houtcome with
  | refused quiet => exact ⟨[], by rw [quiet.syncs, List.append_nil], .nil _⟩
  | unopened found syncs calls => exact ⟨_, syncs, (opening_recorded found).of_shorter calls⟩
  | drains found drains => exact ⟨_, drains.syncs, drains.recorded found⟩

theorem survivors_subset {w : World} {t : Target} : survivors env t w ⊆ w.db.messages := by
  unfold survivors
  split_ifs
  · exact List.filter_subset_self _
  · exact List.Subset.refl _

/-- A call for another folder adds no row to this one. -/
theorem other_rows_after_call {c : Call} {w : World} {f : Folder}
    (hf : Folders.getByName w.db account name = some f) (hother : ¬ c.req.isFor account name) :
    ∀ row ∈ (c.apply mail w).db.messages, row.folderId = f.id → row ∈ w.db.messages := by
  have houtcome : Outcome mail c.env c.req w (c.result mail w) (c.apply mail w) :=
    reconcile_outcome mail c.env c.req w
  generalize c.result mail w = r at houtcome
  generalize c.apply mail w = u at houtcome
  intro row hrow hid
  cases houtcome with
  | refused quiet => rwa [quiet.messages] at hrow
  | unopened found syncs calls messages =>
    rcases messages with hsame | hwiped
    · rwa [hsame] at hrow
    · rw [hwiped] at hrow
      exact survivors_subset hrow
  | drains found drains =>
    rw [drains.messages] at hrow
    rcases List.mem_append.mp hrow with hold | hnew
    · exact survivors_subset hold
    · obtain ⟨a, -, m, -, hof, -⟩ := drains.fetched row hnew
      exact absurd (hid.symm.trans hof.folderId) (found.ne_of_other hf hother)

theorem origins_after_call (mail : MailCrate) (c : Call) (w : World) :
    ∀ o ∈ w.origins, o ∈ (c.apply mail w).origins := by
  have houtcome : Outcome mail c.env c.req w (c.result mail w) (c.apply mail w) :=
    reconcile_outcome mail c.env c.req w
  generalize c.result mail w = r at houtcome
  generalize c.apply mail w = u at houtcome
  cases houtcome with
  | refused quiet =>
    rw [quiet.origins]
    exact fun _ h => h
  | unopened found syncs calls messages folders accounts origins =>
    rw [origins]
    exact fun _ h => h
  | drains found drains => exact drains.origins

/-- A call only adds to the history of IMAP calls. -/
theorem syncs_after_call (mail : MailCrate) (c : Call) (w : World) :
    w.syncs <+: (c.apply mail w).syncs := by
  obtain ⟨recs, hsyncs, -⟩ := recorded_after_call mail c w
  exact ⟨recs, hsyncs.symm⟩

theorem syncs_afterCalls (mail : MailCrate) (w : World) (calls : List Call) :
    w.syncs <+: (afterCalls mail w calls).syncs := by
  induction calls generalizing w with
  | nil => exact List.prefix_rfl
  | cons c rest ih => exact (syncs_after_call mail c w).trans (ih (c.apply mail w))

/-- Every IMAP call of a run was made by one of its calls, on that call's connection. -/
theorem recorded_afterCalls {mail : MailCrate} {w : World} {calls : List Call} {k : Nat}
    {rec : SyncRecord} (hk : w.syncs.length ≤ k)
    (hrec : (afterCalls mail w calls).syncs[k]? = some rec) :
    ∃ c ∈ calls, rec.session = c.env.session k ∧ c.req.isFor rec.account rec.folder := by
  induction calls generalizing w with
  | nil =>
    have hlt := (List.getElem?_eq_some_iff.mp hrec).1
    have hlen : k < w.syncs.length := hlt
    omega
  | cons c rest ih =>
    by_cases hlater : (c.apply mail w).syncs.length ≤ k
    · obtain ⟨c', hc', hmade⟩ := ih hlater hrec
      exact ⟨c', List.mem_cons_of_mem _ hc', hmade⟩
    · obtain ⟨recs, hsyncs, hrecorded⟩ := recorded_after_call mail c w
      obtain ⟨later, hafter⟩ := syncs_afterCalls mail (c.apply mail w) rest
      have hrec' : (afterCalls mail (c.apply mail w) rest).syncs[k]? = some rec := hrec
      rw [← hafter, List.getElem?_append_left (by omega), hsyncs,
        List.getElem?_append_right hk] at hrec'
      obtain ⟨hsession, haccount, hname⟩ := hrecorded _ rec hrec'
      rw [show w.syncs.length + (k - w.syncs.length) = k by omega] at hsession
      exact ⟨c, List.mem_cons_self, hsession, haccount.symm, hname.symm⟩

/-! ## A small account -/

/-- A parser for messages that consist of a `Message-ID` header and nothing else. -/
def MailCrate.idOnly : MailCrate where
  parse raw :=
    (stripIgnoreAsciiCase "message-id: <".toList (raw.map fun b => Char.ofNat b.toNat)).map
      fun rest =>
        { messageId := some (String.ofList (rest.takeWhile fun c => c ≠ '>'))
          inReplyTo := none, references := [], fromAddr := "", toAddrs := [], ccAddrs := []
          subject := none, textBody := none, htmlBody := none, attachments := [] }
  caseMap := .ascii

/-- Such a message. -/
def idMessage (id : String) : List UInt8 :=
  ("Message-ID: <" ++ id ++ ">\r\n\r\n").toList.map fun c => UInt8.ofNat c.toNat

/-- An account with two folders and no mail yet. -/
def World.small : World where
  db := .unsynced [⟨0, "me@host", "imap.host", 993, .idle, none, none⟩]
    [⟨1, 0, "INBOX", .inbox, none, none, none⟩, ⟨2, 0, "Archive", .archive, none, none, none⟩] 3
    (by decide) (by decide)
  files := []
  events := []
  ops := 0
  syncs := []
  origins := []

/-- Nothing fails but what the server does. -/
def Env.calm (session : Nat → Session) : Env where
  attachmentRoot := "attachments"
  clock _ := 0
  dbClock _ := 0
  fault _ := none
  session := session

def Call.calm (folder : String) (session : Nat → Session) : Call where
  env := .calm session
  req := ⟨0, folder, .password "secret"⟩

end Postblox.Sync
