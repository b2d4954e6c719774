import Postblox.Daemon.Refetch
import Postblox.Sync.Aggregates
import Postblox.Sync.Complete

/-!
# From a parsed message to its attachments and back

`persist_parsed_for_message` leaves one row for each attachment, in order; the ops that
forward attachments read these rows. A run of them answers with the bytes that were stored
exactly when each request's rows find their own parts first.
-/
namespace Postblox.Daemon.Fetch

open Lib Mail Sync Attachments
open Json (Value)
open Daemon.Args (parseId)

/-! ## The rows that persisting leaves -/

/-- The rows made for `parts`, the first of which has the number `index`. -/
structure Made (root : String) (message : Db.MessageId) (index : Nat)
    (parts : List ParsedAttachment) (w u : World) (made : List Db.Attachment) : Prop where
  rows : u.db.attachments = w.db.attachments ++ made
  content : made.map (·.toNewAttachment) = (parts.zipIdx index).map fun p =>
    newAttachment message (storedAttachmentPath root message p.2 p.1.filename) p.1

theorem create_eq_ok {db db' : Db.Database} {new : Db.NewAttachment} {a : Db.Attachment}
    (h : Db.Attachments.create db new = .ok (a, db')) :
    a = { new with id := db.nextId } ∧ db'.attachments = db.attachments ++ [a] := by
  unfold Db.Attachments.create at h
  split_ifs at h
  cases h
  exact ⟨rfl, rfl⟩

variable {env : Env} {root : String} {message : Db.MessageId}

/-- One attachment makes one row. -/
theorem wp_persistOne_made (index : Nat) (part : ParsedAttachment) (w : World) :
    Fallible.wp (handle env) (persistOne root message index part) w (fun r u =>
      r = .ok () → ∃ a, u.db.attachments = w.db.attachments ++ [a] ∧ a.toNewAttachment =
          newAttachment message (storedAttachmentPath root message index part.filename) part) := by
  unfold persistOne
  split_ifs
  · intro h
    cases h
  refine Fallible.wp_ask_bind _ ?_
  have hfile := @writeFile_db env (storedAttachmentPath root message index part.filename) w
  show Fallible.wp (handle env) (Persist.ofIo (writeFile env _ w).1 >>= _) (writeFile env _ w).2 _
  generalize writeFile env (storedAttachmentPath root message index part.filename) w = done at hfile
  obtain ⟨r, t⟩ := done
  cases r with
  | error e =>
    intro h
    cases h
  | ok _ =>
    refine Fallible.wp_ask_bind _ ?_
    show Fallible.wp (handle env) (Persist.ofDb (update env _ t).1 >>= _) (update env _ t).2 _
    rcases update_cases env (Db.Attachments.create · (newAttachment message
      (storedAttachmentPath root message index part.filename) part)) t with
      ⟨e, heq, -⟩ | ⟨a, db, hcreate, heq | heq⟩
    · rw [heq]
      intro h
      cases h
    · rw [heq]
      refine Fallible.wp_ask_bind _ ?_
      obtain ⟨hrow, hrows⟩ := create_eq_ok hcreate
      have htable : t.db = w.db := hfile
      show Fallible.wp (handle env) (Persist.ofDb (query env _ (t.wrote db)).1)
        (query env _ (t.wrote db)).2 _
      rcases query_cases env (fun _ => ()) (t.wrote db) with ⟨e, hquery⟩ | hquery
      · rw [hquery]
        intro h
        cases h
      · rw [hquery]
        intro _
        refine ⟨a, ?_, ?_⟩
        · rw [← htable]
          exact hrows
        · rw [hrow]
    · rw [heq]
      intro h
      cases h

theorem wp_persistFrom_made (parts : List ParsedAttachment) (index : Nat) (w : World) :
    Fallible.wp (handle env) (persistFrom root message index parts) w (fun r u =>
      r = .ok () → ∃ made, Made root message index parts w u made) := by
  induction parts generalizing index w with
  | nil =>
    intro _
    exact ⟨[], (List.append_nil _).symm, rfl⟩
  | cons part rest ih =>
    refine Fallible.wp_bind _ (Fallible.wp_mono _ (wp_persistOne_made index part w) ?_)
    intro r t hone
    constructor
    · intro _ hr
      obtain ⟨a, hrows, hcontent⟩ := hone hr
      refine Fallible.wp_mono _ (ih (index + 1) t) ?_
      intro r' u hrest hr'
      obtain ⟨made, hmade⟩ := hrest hr'
      refine ⟨a :: made, ?_, ?_⟩
      · rw [hmade.rows, hrows, List.append_assoc, List.singleton_append]
      · rw [List.map_cons, List.zipIdx_cons, List.map_cons, hmade.content, hcontent]
    · intro e hr h
      cases h

/-- A message that is persisted to the end has one row for each of its attachments. -/
theorem made_of_persist {parts : List ParsedAttachment} {w u : World}
    (h : Fallible.exec (handle env) (persistParsedForMessage message parts) w = (.ok (), u)) :
    ∃ made, Made env.attachmentRoot message 0 parts w u made := by
  have hwp : Fallible.wp (handle env) (persistParsedForMessage message parts) w (fun r u =>
      r = .ok () → ∃ made, Made env.attachmentRoot message 0 parts w u made) := by
    unfold persistParsedForMessage
    split_ifs with hempty
    · intro _
      rw [List.isEmpty_iff.mp hempty]
      exact wp_persistFrom_made [] 0 w rfl
    · refine Fallible.wp_ask_bind _ ?_
      show Fallible.wp (handle env) (Persist.ofDb (query env _ w).1 >>= _) (query env _ w).2 _
      rcases query_cases env (fun _ => env.attachmentRoot) w with ⟨e, heq⟩ | heq
      · rw [heq]
        intro h
        cases h
      · rw [heq]
        show Fallible.wp (handle env) (persistFrom env.attachmentRoot message 0 parts) w.tick _
        refine Fallible.wp_mono _ (wp_persistFrom_made parts 0 w.tick) ?_
        intro r u hmade hr
        obtain ⟨made, h⟩ := hmade hr
        exact ⟨made, h.rows, h.content⟩
  unfold Fallible.wp at hwp
  rw [h] at hwp
  exact hwp rfl

/-! ## The rows as the ops read them -/

/-- How the ids of the tables are written. -/
structure Names where
  attachment : Db.AttachmentId → Uuid
  message : Db.MessageId → Uuid

/-- `path.display()`. -/
def Names.display (names : Names) (path : Db.StoredPath) : String :=
  path.root ++ "/" ++ (names.message path.messageId).hyphenated ++ "/" ++ path.leaf

def Names.row (names : Names) (a : Db.Attachment) : Attachment where
  id := names.attachment a.id
  messageId := names.message a.messageId
  filename := a.filename
  contentType := a.contentType
  contentId := a.contentId
  storagePath := names.display a.storagePath

/-- `attachments::list_for_message`. -/
def Names.rowsOf (names : Names) (w : World) (message : Db.MessageId) : List Attachment :=
  (w.db.attachments.filter fun a => a.messageId = message).map names.row

/-- The bytes that were stored for the attachment with the id of `row`. -/
def storedBytes (rows : List Attachment) (parts : List ParsedAttachment) (row : Attachment) :
    List UInt8 :=
  (((rows.zip parts).find? fun s => s.1.id = row.id).map (·.2.data)).getD []

variable {parts : List ParsedAttachment} {w u : World} {made : List Db.Attachment} {index : Nat}

theorem Made.length_eq (h : Made root message index parts w u made) :
    made.length = parts.length := by
  have hlength := congrArg List.length h.content
  simpa using hlength

theorem Made.getElem (h : Made root message index parts w u made) {i : Nat} (hi : i < made.length)
    (hi' : i < parts.length) :
    (made[i]).toNewAttachment = newAttachment message
      (storedAttachmentPath root message (index + i) parts[i].filename) parts[i] := by
  have hget := congrArg (fun l => l[i]?) h.content
  simpa [List.getElem?_zipIdx, hi, hi'] using hget

theorem Made.rowsOf (h : Made root message index parts w u made) (names : Names)
    (hfresh : ∀ a ∈ w.db.attachments, a.messageId ≠ message) :
    names.rowsOf u message = made.map names.row := by
  have hold : (w.db.attachments.filter fun a => a.messageId = message) = [] :=
    List.filter_eq_nil_iff.mpr fun a ha => by simpa using hfresh a ha
  have hnew : (made.filter fun a => a.messageId = message) = made := by
    refine List.filter_eq_self.mpr fun a ha => ?_
    obtain ⟨i, hi, rfl⟩ := List.mem_iff_getElem.mp ha
    rw [h.getElem hi (h.length_eq ▸ hi)]
    exact decide_eq_true rfl
  rw [Names.rowsOf, h.rows, List.filter_append, hold, hnew, List.nil_append]

/-- The bytes stored for a row are those of the part it was made for. -/
theorem storedBytes_row (names : Names) {made : List Db.Attachment}
    (hids : ((made.map names.row).map (·.id)).Nodup) {i : Nat} (hi : i < made.length)
    (hi' : i < parts.length) :
    storedBytes (made.map names.row) parts (names.row made[i]) = parts[i].data := by
  have hzip : ∀ s ∈ (made.map names.row).zip parts, s.1.id = (names.row made[i]).id →
      s.2 = parts[i] := by
    intro s hs hid
    obtain ⟨j, hj, rfl⟩ := List.mem_iff_getElem.mp hs
    have hj' : j < made.length := by
      rw [List.length_zip, List.length_map] at hj
      omega
    rw [List.getElem_zip, List.getElem_map] at hid
    have hij : j = i := by
      have hlen : ∀ k, k < made.length → k < ((made.map names.row).map (·.id)).length := by
        intro k hk
        rwa [List.length_map, List.length_map]
      have heq : ((made.map names.row).map (·.id)).get ⟨j, hlen j hj'⟩ =
          ((made.map names.row).map (·.id)).get ⟨i, hlen i hi⟩ := by
        simpa using hid
      exact Fin.mk.inj (List.nodup_iff_injective_get.mp hids heq)
    rw [List.getElem_zip]
    simp only [hij]
  have hfound : (((made.map names.row).zip parts).find? fun s =>
      s.1.id = (names.row made[i]).id).isSome := by
    rw [List.find?_isSome]
    refine ⟨(names.row made[i], parts[i]), ?_, decide_eq_true rfl⟩
    refine List.mem_iff_getElem.mpr ⟨i, ?_, ?_⟩
    · rw [List.length_zip, List.length_map]
      omega
    · rw [List.getElem_zip, List.getElem_map]
  obtain ⟨s, hs⟩ := Option.isSome_iff_exists.mp hfound
  have hmem := List.mem_of_find?_eq_some hs
  have hid := List.find?_some hs
  rw [Fetch.storedBytes, hs, Option.map_some, Option.getD_some,
    hzip s hmem (of_decide_eq_true hid)]

theorem display_leaf {names : Names} {p q : Db.StoredPath} (hroot : p.root = q.root)
    (hmessage : p.messageId = q.messageId) (h : names.display p = names.display q) : p = q := by
  unfold Names.display at h
  rw [hroot, hmessage] at h
  have hlist := congrArg String.toList h
  simp only [String.toList_append, List.append_cancel_left_eq] at hlist
  have hleaf : p.leaf = q.leaf := String.toList_inj.mp hlist
  cases p
  cases q
  cases hroot
  cases hmessage
  cases hleaf
  rfl

/-- The running number keeps the copies of two rows apart. -/
theorem Made.paths (h : Made root message index parts w u made) (names : Names) :
    ∀ row ∈ made.map names.row, ∀ row' ∈ made.map names.row,
      row.storagePath = row'.storagePath → Fetch.storedBytes (made.map names.row) parts row =
        Fetch.storedBytes (made.map names.row) parts row' := by
  intro row hrow row' hrow' hpath
  obtain ⟨a, ha, rfl⟩ := List.mem_map.mp hrow
  obtain ⟨a', ha', rfl⟩ := List.mem_map.mp hrow'
  obtain ⟨i, hi, rfl⟩ := List.mem_iff_getElem.mp ha
  obtain ⟨j, hj, rfl⟩ := List.mem_iff_getElem.mp ha'
  have hi' : i < parts.length := h.length_eq ▸ hi
  have hj' : j < parts.length := h.length_eq ▸ hj
  have hpi : made[i].storagePath =
      storedAttachmentPath root message (index + i) parts[i].filename :=
    congrArg (·.storagePath) (h.getElem hi hi')
  have hpj : made[j].storagePath =
      storedAttachmentPath root message (index + j) parts[j].filename :=
    congrArg (·.storagePath) (h.getElem hj hj')
  have hsame : made[i].storagePath = made[j].storagePath := by
    refine display_leaf ?_ ?_ hpath
    · rw [hpi, hpj]
      rfl
    · rw [hpi, hpj]
      rfl
  rw [hpi, hpj] at hsame
  have hij : i = j := by
    have hnumber := storedAttachmentPath_inj hsame
    omega
  subst hij
  rfl

/-- No part has the content id or the stored name of another without having its bytes. -/
def Apart (parts : List ParsedAttachment) : Prop :=
  ∀ p ∈ parts, ∀ q ∈ parts,
    (p.contentId.filter (· ≠ "")).isSome ∧ q.contentId = p.contentId ∨
      q.filename = sanitizeFilename p.filename → q.data = p.data

theorem mem_asked {rows : List Attachment} {ids : List Uuid} {row : Attachment}
    (h : row ∈ asked rows ids) : row ∈ rows := by
  fun_induction asked rows ids with
  | case1 => cases h
  | case2 rows id ids hnone ih => exact ih h
  | case3 rows id ids found hfound ih =>
    rcases List.mem_cons.mp h with rfl | hrest
    · exact List.mem_of_find?_eq_some hfound
    · exact (List.mem_filter.mp (ih hrest)).1

/-- The rows that a request asks for are rows of its message. -/
theorem Attempt.Sees.asked_mem {crates : Crates} {id : Uuid} {rows : List Attachment}
    {raw : List UInt8} {files : Files} {a : Attempt} (h : a.Sees crates id rows raw parts files)
    {m : Message} {wanted : List Attachment} (hasks : a.asks crates = .ok (m, wanted)) :
    ∀ row ∈ wanted, row ∈ rows := by
  cases hbatch : a.batch with
  | false =>
    obtain ⟨id, row, hid, hget, -, rfl⟩ := (asks_single_iff hbatch m wanted).mp hasks
    obtain ⟨row', hrow', heq⟩ := h.getAttachment hbatch hid hget
    cases heq
    exact List.forall_mem_singleton.mpr hrow'
  | true =>
    obtain ⟨id, ids, listed, hid, -, -, hlisted, rfl⟩ := (asks_batch_iff hbatch m wanted).mp hasks
    obtain rfl := h.all hbatch id hid
    obtain rfl := h.list listed hlisted
    exact fun row hrow => mem_byId (mem_asked hrow)

/-- Where the parts are told apart by content id and stored name, every run is faithful. -/
theorem unmixed_of_apart (names : Names) (crates : Crates) {raw : List UInt8}
    (hpersist : Fallible.exec (handle env) (persistParsedForMessage message parts) w = (.ok (), u))
    (hnew : ∀ a ∈ w.db.attachments, a.messageId ≠ message)
    (hids : ((names.rowsOf u message).map (·.id)).Nodup) (hapart : Apart parts) {files : Files}
    {a : Attempt} (hsees : a.Sees crates (names.message message) (names.rowsOf u message) raw parts
      files) : a.Unmixed crates (storedBytes (names.rowsOf u message) parts) parts := by
  obtain ⟨made, hmade⟩ := made_of_persist hpersist
  rw [hmade.rowsOf names hnew] at hids hsees ⊢
  intro m wanted parsed hasks _
  refine ownFirst_of_apart fun row hrow q hq hfit => ?_
  have hwanted : row ∈ wanted := (List.mem_filter.mp hrow).1
  obtain ⟨stored, hstored, rfl⟩ := List.mem_map.mp (hsees.asked_mem hasks row hwanted)
  obtain ⟨i, hi, rfl⟩ := List.mem_iff_getElem.mp hstored
  have hi' : i < parts.length := hmade.length_eq ▸ hi
  have hcontent := hmade.getElem hi hi'
  rw [storedBytes_row names hids hi hi']
  refine hapart parts[i] (List.getElem_mem hi') q hq ?_
  have hcid : (names.row made[i]).contentId = parts[i].contentId := by
    show made[i].toNewAttachment.contentId = _
    simp only [hcontent, newAttachment]
  have hname : (names.row made[i]).filename = sanitizeFilename parts[i].filename := by
    show made[i].toNewAttachment.filename = _
    simp only [hcontent, newAttachment]
  rcases hfit with hfit | hfit
  · unfold sameContentId at hfit
    rw [hcid, Bool.and_eq_true] at hfit
    exact .inl ⟨hfit.1, of_decide_eq_true hfit.2⟩
  · unfold sameName at hfit
    rw [hname] at hfit
    exact .inr (of_decide_eq_true hfit)

/-! ## One message without its copies -/

def note (filename : String) (data : List UInt8) : ParsedAttachment :=
  ⟨filename, "text/plain", data, .attachment, none⟩

def noteNames : Names where
  attachment id := .filled (Fin.ofNat 16 id)
  message id := .filled (Fin.ofNat 16 id)

/-- The store after the notes of the message in the inbox are persisted. -/
def noted (parts : List ParsedAttachment) : Except AttachmentError Unit × World :=
  Fallible.exec (handle (.calm fun _ => (singleMailbox 7 "a").session))
    (persistParsedForMessage 4 parts) .inboxSynced

def notedRows (parts : List ParsedAttachment) : List Attachment :=
  noteNames.rowsOf (noted parts).2 4

/-- The server still has the message, and no copy is left. -/
def noteBackend (parts : List ParsedAttachment) : Backend where
  getDraft _ := .ok none
  listForDraft _ := .ok []
  loadContent _ := .ok none
  getAttachment id := .ok ((notedRows parts).find? fun row => row.id = id)
  listForMessage _ := .ok (notedRows parts)
  getMessage _ := .ok (some ⟨.filled 1, .filled 0, 1⟩)
  getFolderAndAccount _ _ := .ok (some ⟨"INBOX"⟩, some ⟨"imap.host", 993, "me@host"⟩)
  readFile _ := none
  credentialFor _ := some (.password "secret")
  syncFolder _ _ _ _ := some [(1, [])]
  parseMail _ := some parts
  select _ _ := .ok []
  find _ _ := .ok none
  perform _ _ := .error (.badArgs "")

/-- A request for the attachment with the given id. -/
def noteFetch (parts : List ParsedAttachment) (id : Uuid) : Attempt where
  backend := noteBackend parts
  batch := false
  args := .object [("attachment_id", .string id.hyphenated)]
  written _ := true

theorem find?_of_nodup {rows : List Attachment} (h : (rows.map (·.id)).Nodup) {row : Attachment}
    (hrow : row ∈ rows) : (rows.find? fun a => a.id = row.id) = some row := by
  induction rows with
  | nil => cases hrow
  | cons first rest ih =>
    rw [List.map_cons, List.nodup_cons] at h
    rcases List.mem_cons.mp hrow with rfl | hrest
    · exact List.find?_cons_of_pos (decide_eq_true rfl)
    · have hne : first.id ≠ row.id := fun heq => h.1 (heq ▸ List.mem_map_of_mem hrest)
      rw [List.find?_cons_of_neg (by simpa using hne)]
      exact ih h.2 hrest

theorem sees_noteFetch {parts : List ParsedAttachment} {id : Uuid}
    (hids : ((notedRows parts).map (·.id)).Nodup) (hid : id ∈ (notedRows parts).map (·.id)) :
    SeesAll .plain (noteNames.message 4) (notedRows parts) [] parts (fun _ => none)
      [noteFetch parts id] := by
  intro done a hdone
  have hnil : done = [] ∧ a = noteFetch parts id := by
    cases done with
    | nil => exact ⟨rfl, (List.cons_prefix_cons.mp hdone).1⟩
    | cons b done =>
      have hlength := hdone.length_le
      simp at hlength
  obtain ⟨rfl, rfl⟩ := hnil
  have hparse : parseId .plain (noteFetch parts id).args "attachment_id" = .ok id := by
    have hget : (noteFetch parts id).args.get "attachment_id" = some (.string id.hyphenated) := rfl
    simp only [parseId, hget, Option.bind_some, Value.asStr, UuidCrate.parse_hyphenated]
  refine ⟨?_, fun h => (by cases h), ?_, ?_, fun _ _ _ h => (by cases h), ?_, ?_⟩
  · intro _ id' hid'
    rw [hparse] at hid'
    cases hid'
    obtain ⟨row, hrow, heq⟩ := List.mem_map.mp hid
    exact ⟨row, hrow, heq⟩
  · intro row hrow found hfound
    rw [← Except.ok.inj hfound]
    exact find?_of_nodup hids hrow
  · intro listed hlisted
    exact (Except.ok.inj hlisted).symm
  · intro _ _ _ uid messages m hmessages hm
    rw [← Option.some.inj hmessages] at hm
    have hmem := List.mem_of_find?_eq_some hm
    rw [List.mem_singleton.mp hmem]
  · intro parsed hparsed
    exact (Option.some.inj hparsed).symm

/-- Of two notes the first is stored under the name that the second has. -/
def twoNotes : List ParsedAttachment := [note "a/b.txt" [1], note "b.txt" [2]]

end Postblox.Daemon.Fetch
