import Postblox.Tui.Requests

/-!
# The client and the daemon read the same arguments

Every request the client can issue decodes to what it means, the decision of an
approval apart: its `decided_by` is not on the daemon's list of actors.
-/
namespace Postblox.Tui

open Json (Value)
open Daemon.Args
open Mcp.Bridge (DecideRequest decodeDecide)

variable (crates : Crates)

/-! ## Reading back one field -/

theorem parseId_of_get {args : Value} {key : String} {id : Uuid}
    (h : args.get key = some (idValue id)) : parseId crates args key = .ok id := by
  simp only [parseId, h, idValue, Option.bind_some, Value.asStr, crates.uuid.parse_hyphenated]

theorem uuidValue_idValue (id : Uuid) : uuidValue crates (idValue id) = some id :=
  crates.uuid.parse_hyphenated id

theorem stringVec_strings (l : List String) : stringVec (strings l) = some l := by
  show (l.map Value.string).mapM Value.asStr = some l
  induction l with
  | nil => rfl
  | cons s rest ih =>
    rw [List.map_cons, List.mapM_cons, ih]
    rfl

theorem requiredField_of_get {α : Type} {read : Value → Option α} {args value : Value}
    {key : String} {a : α} (h : args.get key = some value) (hread : read value = some a) :
    requiredField read args key = some a := by
  unfold requiredField
  rw [h]
  exact hread

theorem defaultedField_of_get {α : Type} {read : Value → Option (List α)} {args value : Value}
    {key : String} {l : List α} (h : args.get key = some value) (hread : read value = some l) :
    defaultedField read args key = some l := by
  unfold defaultedField
  rw [h]
  exact hread

/-- An `Option` field: what `json!` writes for it is read back. -/
theorem optionField_of_get {α : Type} {read : Value → Option α} {write : α → Value}
    (hread : ∀ a, read (write a) = some a) (hnull : ∀ a, write a ≠ .null) {args : Value}
    {key : String} {o : Option α} (h : args.get key = some (optional write o)) :
    optionField read args key = some o := by
  unfold optionField
  rw [h]
  cases o with
  | none => rfl
  | some a =>
    split
    · next hnone => cases hnone
    · next hvalue => exact absurd (Option.some.inj hvalue) (hnull a)
    · next hvalue =>
      rw [← Option.some.inj hvalue]
      exact congrArg (Option.map some) (hread a)

theorem optionField_string {args : Value} {key : String} {o : Option String}
    (h : args.get key = some (optional .string o)) :
    optionField Value.asStr args key = some o := by
  have hnull : ∀ s, Value.string s ≠ .null := fun _ => by simp
  exact optionField_of_get (fun s => show (Value.string s).asStr = some s from rfl) hnull h

theorem optionField_id {args : Value} {key : String} {o : Option Uuid}
    (h : args.get key = some (optional idValue o)) :
    optionField (uuidValue crates) args key = some o := by
  have hnull : ∀ id, idValue id ≠ .null := fun id => by simp [idValue]
  exact optionField_of_get (uuidValue_idValue crates) hnull h

/-! ## Lists of specs and ids -/

theorem takeAttachmentSpecs_of_get {args : Value} {draft : ComposerDraft}
    (h : args.get "attachments" = some (draftAttachmentSpecs draft)) :
    takeAttachmentSpecs crates args = .ok (some draft.specs) := by
  have hread : ∀ l : List ComposerAttachment,
      (l.map fun a => Value.object
        [("content_type", .string a.contentType), ("filename", .string a.filename),
          ("path", .string a.path)]).mapM draftAttachmentSpec =
        some (l.map fun a => ⟨a.path, some a.contentType, some a.filename⟩) := by
    intro l
    induction l with
    | nil => rfl
    | cons a rest ih =>
      rw [List.map_cons, List.mapM_cons, ih]
      rfl
  simp only [takeAttachmentSpecs, h, draftAttachmentSpecs, Value.asArray, Option.bind_some, hread]
  rfl

theorem parseIdsFrom_ids (key : String) (index : Nat) (ids : List Uuid) :
    parseIdsFrom crates key index (ids.map idValue) = .ok ids := by
  induction ids generalizing index with
  | nil => rfl
  | cons id rest ih =>
    have hid : parseIdAt crates key index (idValue id) = .ok id := by
      simp only [parseIdAt, idValue, Value.asStr, crates.uuid.parse_hyphenated]
    rw [List.map_cons, parseIdsFrom, hid, ih]
    rfl

theorem parseIdArray_of_get {args : Value} {key : String} {ids : List Uuid} {maxLen : Nat}
    (h : args.get key = some (.array (ids.map idValue))) (hsome : ids ≠ [])
    (hmax : ids.length ≤ maxLen) : parseIdArray crates args key maxLen = .ok ids := by
  unfold parseIdArray
  rw [h]
  show (if (ids.map idValue).isEmpty then _ else _) = _
  rw [if_neg (by simp [hsome]), if_neg (by rw [List.length_map]; omega)]
  exact parseIdsFrom_ids crates key 0 ids

theorem parseStr_of_get {args : Value} {key s : String} (h : args.get key = some (.string s))
    (hs : s ≠ "") : parseStr args key = .ok s := by
  have hkept : (some s).filter (fun s => s ≠ "") = some s := by
    rw [Option.filter_some, if_pos (by simpa using hs)]
  simp only [parseStr, h, Option.bind_some, Value.asStr, hkept]

/-! ## Queries -/

theorem mem_dropWhile_of_not {p : Char → Bool} {c : Char} {l : List Char} (h : c ∈ l)
    (hc : p c = false) : c ∈ l.dropWhile p := by
  rw [← List.takeWhile_append_dropWhile (p := p) (l := l)] at h
  rcases List.mem_append.mp h with htake | hdrop
  · rw [List.mem_takeWhile_imp htake] at hc
    cases hc
  · exact hdrop

/-- Only white space is trimmed away. -/
theorem mem_trim_of_not {c : Char} {l : List Char} (h : c ∈ l)
    (hc : Mail.isWhitespace c = false) : c ∈ Mail.trim l := by
  unfold Mail.trim Mail.trimStart
  rw [List.mem_reverse]
  refine mem_dropWhile_of_not ?_ hc
  rw [List.mem_reverse]
  exact mem_dropWhile_of_not h hc

theorem trim_trim_ne_nil {l : List Char} (h : Mail.trim l ≠ []) :
    Mail.trim (Mail.trim l) ≠ [] := by
  obtain ⟨c, hc, hblack⟩ : ∃ c ∈ l, Mail.isWhitespace c = false := by
    by_contra hnone
    push Not at hnone
    refine h ?_
    have hall : ∀ c ∈ l, Mail.isWhitespace c = true := fun c hc =>
      Bool.not_eq_false _ ▸ hnone c hc
    unfold Mail.trim Mail.trimStart
    rw [List.dropWhile_eq_nil_iff.mpr hall]
    rfl
  exact List.ne_nil_of_mem (mem_trim_of_not (mem_trim_of_not hc hblack) hblack)

/-! ## Agreement -/

/-- What the client can hold when it sends a request: folder names and paths are not
empty, a query is what remains of the typed one, ids are fetched in the batches of
`forward_attachment_batches`, and a decision is terminal. -/
def Issuable : Request → Prop
  | .syncFolder _ folderName | .startSync _ folderName | .stopSync _ folderName
  | .moveMessage _ folderName => folderName ≠ ""
  | .exportAttachment _ destinationPath => destinationPath ≠ ""
  | .search query _ => query ≠ "" ∧ ∃ typed, query = String.ofList (Mail.trim typed)
  | .decideApproval _ state => state ≠ .pending
  | .fetchAttachmentsForForward _ ids => ∃ metas, ids ∈ forwardAttachmentBatches metas
  | _ => True

/-- The request is the decision of an approval. -/
def Decides : Request → Prop
  | .decideApproval _ _ => True
  | _ => False

/-- The daemon accepts the arguments and reads what the client means. -/
def Agrees (r : Request) : Prop := decode crates r.op r.args = .ok r.intended

/-- The handler a request is for. -/
def Request.handler : Request → Op
  | listAccounts => .accountList
  | listFolders _ => .folderList
  | listMessages _ => .messageListByFolder
  | getMessage _ => .messageGet
  | syncFolder _ _ => .accountSyncFolder
  | startSync _ _ => .accountStartSync
  | stopSync _ _ => .accountStopSync
  | setFlags _ _ => .messageSetFlags
  | archiveMessage _ => .messageArchive
  | deleteMessage _ => .messageDelete
  | moveMessage _ _ => .messageMove
  | listAttachments _ => .attachmentList
  | previewAttachment _ => .attachmentPreview
  | exportAttachment _ _ => .attachmentExport
  | createDraft _ => .draftCreate
  | updateDraft _ _ => .draftUpdate
  | sendDraft _ _ => .messageSend
  | listDrafts _ => .draftList
  | getDraft _ => .draftGet
  | deleteDraft _ => .draftDelete
  | search _ _ => .search
  | listPendingApprovals => .mcpApprovalList
  | decideApproval _ _ => .mcpApprovalDecide
  | prepareReply _ _ => .messagePrepareReply
  | prepareForward _ => .messagePrepareForward
  | fetchAttachmentForForward _ => .attachmentFetchForForward
  | fetchAttachmentsForForward _ _ => .attachmentFetchForForwardBatch

theorem fromStr_asStr (op : Op) : Op.fromStr op.asStr = some op := by
  cases op <;> decide

theorem decode_request (r : Request) :
    decode crates r.op r.args = decodeArgs crates r.handler r.args := by
  have hop : r.op = r.handler.asStr := by
    cases r <;> rfl
  unfold decode
  rw [hop, fromStr_asStr]

/-- Most handlers read one id. -/
theorem map_parseId {args : Value} {key : String} {id : Uuid} (f : Uuid → Decoded)
    (h : args.get key = some (idValue id)) : (parseId crates args key).map f = .ok (f id) := by
  rw [parseId_of_get crates h]
  rfl

/-- The client's actor is refused, whatever the approval and the decision. -/
theorem decode_decision (id : Uuid) {state : ApprovalState} (h : state ≠ .pending) :
    decode crates (Request.decideApproval id state).op (Request.decideApproval id state).args =
      .error (.badArgs "invalid 'decided_by'") := by
  rw [decode_request]
  show (decodeDecide crates (approvalDecideArgs id state)).map Decoded.mcpApprovalDecide = _
  have hid : parseId crates (approvalDecideArgs id state) "id" = .ok id :=
    parseId_of_get crates rfl
  have hstate : parseStr (approvalDecideArgs id state) "state" = .ok state.asStr :=
    parseStr_of_get rfl (by cases state <;> decide)
  have hactor : actorIsAllowed "tui" = false := by decide
  have hby : ((approvalDecideArgs id state).get "decided_by").bind Value.asStr = some "tui" := rfl
  unfold decodeDecide
  rw [hid, hstate]
  simp only [bind, Except.bind, ApprovalState.fromStr_asStr]
  rw [if_neg h, hby]
  dsimp only
  rw [hactor]
  rfl

theorem createDraft_decodes (draft : ComposerDraft) :
    decodeArgs crates .draftCreate (draftCreateArgs draft) =
      .ok (Request.createDraft draft).intended := by
  show (Daemon.Args.draftCreateArgs crates (draftCreateArgs draft)).map Decoded.operation = _
  have hspecs : takeAttachmentSpecs crates (draftCreateArgs draft) = .ok (some draft.specs) :=
    takeAttachmentSpecs_of_get crates rfl
  have hnew : newDraft crates (draftCreateArgs draft) =
      some ⟨draft.accountId, draft.inReplyToMsg, draft.toAddrs, draft.ccAddrs, draft.bccAddrs,
        draft.subject, draft.textBody, draft.htmlBody, draft.inReplyTo,
        draft.referencesHeader⟩ := by
    have hreply : optionField (uuidValue crates) (draftCreateArgs draft) "in_reply_to_msg" =
        some draft.inReplyToMsg := optionField_id crates rfl
    have htext : ∀ (key : String) (o : Option String),
        (draftCreateArgs draft).get key = some (optional .string o) →
        optionField Value.asStr (draftCreateArgs draft) key = some o :=
      fun key o hget => optionField_string hget
    unfold newDraft
    rw [requiredField_of_get rfl (uuidValue_idValue crates draft.accountId), hreply,
      requiredField_of_get rfl (stringVec_strings draft.toAddrs),
      requiredField_of_get rfl (stringVec_strings draft.ccAddrs),
      requiredField_of_get rfl (stringVec_strings draft.bccAddrs),
      htext "subject" draft.subject rfl, htext "text_body" draft.textBody rfl,
      htext "html_body" draft.htmlBody rfl, htext "in_reply_to" draft.inReplyTo rfl,
      htext "references_header" draft.referencesHeader rfl]
    rfl
  unfold Daemon.Args.draftCreateArgs
  rw [hspecs]
  simp only [bind, Except.bind, hnew]
  rfl

theorem updateDraft_decodes (draftId : Uuid) (draft : ComposerDraft) :
    decodeArgs crates .draftUpdate (draftUpdateArgs draftId draft) =
      .ok (Request.updateDraft draftId draft).intended := by
  show (Daemon.Args.draftUpdateArgs crates (draftUpdateArgs draftId draft)).map
    Decoded.operation = _
  have hspecs : takeAttachmentSpecs crates (draftUpdateArgs draftId draft) =
      .ok (some draft.specs) := takeAttachmentSpecs_of_get crates rfl
  have hupd : draftUpdate crates (draftUpdateArgs draftId draft) =
      some ⟨draftId, draft.toAddrs, draft.ccAddrs, draft.bccAddrs, draft.subject,
        draft.textBody, draft.htmlBody⟩ := by
    have htext : ∀ (key : String) (o : Option String),
        (draftUpdateArgs draftId draft).get key = some (optional .string o) →
        optionField Value.asStr (draftUpdateArgs draftId draft) key = some o :=
      fun key o hget => optionField_string hget
    unfold draftUpdate
    rw [requiredField_of_get rfl (uuidValue_idValue crates draftId),
      defaultedField_of_get rfl (stringVec_strings draft.toAddrs),
      defaultedField_of_get rfl (stringVec_strings draft.ccAddrs),
      defaultedField_of_get rfl (stringVec_strings draft.bccAddrs),
      htext "subject" draft.subject rfl, htext "text_body" draft.textBody rfl,
      htext "html_body" draft.htmlBody rfl]
    rfl
  unfold Daemon.Args.draftUpdateArgs
  rw [hspecs]
  simp only [bind, Except.bind, hupd]
  rfl

theorem search_decodes {query : String} {accountId : Option Uuid}
    (h : Issuable (.search query accountId)) :
    decodeArgs crates .search (searchArgs query accountId) =
      .ok (Request.search query accountId).intended := by
  obtain ⟨hne, typed, hquery⟩ := h
  have htrim : Mail.trim query.toList ≠ [] := by
    rw [hquery, String.toList_ofList]
    refine trim_trim_ne_nil fun hnil => hne ?_
    rw [hquery, hnil]
  have hq : ((searchArgs query accountId).get "q").bind Value.asStr = some query := by
    cases accountId <;> rfl
  have hfilters : searchFilters crates (searchArgs query accountId) =
      .ok (noFilters accountId) := by
    cases accountId with
    | none => rfl
    | some id =>
      have hid : optionalId crates (searchArgs query (some id)) "account_id" =
          .ok (some id) := by
        show (parseId crates (searchArgs query (some id)) "account_id").map some = _
        rw [parseId_of_get crates (show (searchArgs query (some id)).get "account_id" =
          some (idValue id) from rfl)]
        rfl
      unfold searchFilters
      rw [hid]
      rfl
  show Daemon.Args.searchArgs crates (searchArgs query accountId) = _
  unfold Daemon.Args.searchArgs
  rw [hq]
  dsimp only
  rw [if_neg htrim, hfilters]
  cases accountId <;> rfl

theorem setFlags_decodes (messageId : Uuid) (flags : List String) :
    decodeArgs crates .messageSetFlags (setFlagsArgs messageId flags) =
      .ok (Request.setFlags messageId flags).intended := by
  have hid : parseId crates (setFlagsArgs messageId flags) "id" = .ok messageId :=
    parseId_of_get crates rfl
  have hflags : parseMessageFlags (strings flags) = .ok flags := by
    unfold parseMessageFlags
    rw [stringVec_strings]
  show (messageSetFlagsArgs crates (setFlagsArgs messageId flags)).map Decoded.operation = _
  unfold messageSetFlagsArgs
  rw [hid]
  show (do return Operation.messageSetFlags messageId (← parseMessageFlags (strings flags)) :
    Except RpcError Operation).map Decoded.operation = _
  rw [hflags]
  rfl

/-- The handlers that read an id and a name that must not be empty. -/
theorem idAndName_decodes {args : Value} {idKey nameKey name : String} {id : Uuid}
    (f : Uuid → String → Decoded) (hid : args.get idKey = some (idValue id))
    (hname : args.get nameKey = some (.string name)) (hne : name ≠ "") :
    (do return f (← parseId crates args idKey) (← parseStr args nameKey) :
      Except RpcError Decoded) = .ok (f id name) := by
  rw [parseId_of_get crates hid, parseStr_of_get hname hne]
  rfl

/-- The three sync handlers. -/
theorem accountFolder_decodes (f : Uuid → String → Decoded) (accountId : Uuid) (name : String) :
    (do
      return f (← parseId crates (accountFolderArgs accountId name) "account_id")
        (← folderName (accountFolderArgs accountId name)) : Except RpcError Decoded) =
      .ok (f accountId name) := by
  rw [parseId_of_get crates (show (accountFolderArgs accountId name).get "account_id" =
    some (idValue accountId) from rfl)]
  rfl

/-- Every request but a decision is read as it is meant. -/
theorem decodes {r : Request} (h : Issuable r) (hdecide : ¬ Decides r) :
    decodeArgs crates r.handler r.args = .ok r.intended := by
  cases r with
  | listAccounts => rfl
  | listFolders accountId => exact map_parseId crates _ rfl
  | listMessages folderId =>
    exact map_parseId crates (fun id => .messageListByFolder id 100 0)
      (show (Request.listMessages folderId).args.get "folder_id" = some (idValue folderId) from rfl)
  | getMessage messageId => exact map_parseId crates _ rfl
  | syncFolder accountId folderName => exact accountFolder_decodes crates _ accountId folderName
  | startSync accountId folderName => exact accountFolder_decodes crates _ accountId folderName
  | stopSync accountId folderName => exact accountFolder_decodes crates _ accountId folderName
  | setFlags messageId flags => exact setFlags_decodes crates messageId flags
  | archiveMessage messageId => exact map_parseId crates _ rfl
  | deleteMessage messageId => exact map_parseId crates _ rfl
  | moveMessage messageId folderName => exact idAndName_decodes crates _ rfl rfl h
  | listAttachments messageId => exact map_parseId crates _ rfl
  | previewAttachment attachmentId => exact map_parseId crates _ rfl
  | exportAttachment attachmentId destinationPath => exact idAndName_decodes crates _ rfl rfl h
  | createDraft draft => exact createDraft_decodes crates draft
  | updateDraft id draft => exact updateDraft_decodes crates id draft
  | sendDraft accountId draftId =>
    have haccount : parseId crates (messageSendArgs accountId draftId) "account_id" =
        .ok accountId := parseId_of_get crates rfl
    have hdraft : parseId crates (messageSendArgs accountId draftId) "draft_id" = .ok draftId :=
      parseId_of_get crates rfl
    unfold Request.handler decodeArgs
    dsimp only [Request.args]
    rw [haccount]
    dsimp only [bind, Except.bind]
    rw [hdraft]
    rfl
  | listDrafts accountId => exact map_parseId crates _ rfl
  | getDraft draftId => exact map_parseId crates _ rfl
  | deleteDraft draftId => exact map_parseId crates _ rfl
  | search query accountId => exact search_decodes crates h
  | listPendingApprovals => rfl
  | decideApproval approvalId state => exact absurd trivial hdecide
  | prepareReply messageId replyAll =>
    exact map_parseId crates (fun id => .messagePrepareReply id replyAll)
      (show (Request.prepareReply messageId replyAll).args.get "message_id" =
        some (idValue messageId) from rfl)
  | prepareForward messageId => exact map_parseId crates _ rfl
  | fetchAttachmentForForward attachmentId => exact map_parseId crates _ rfl
  | fetchAttachmentsForForward messageId attachmentIds =>
    obtain ⟨metas, hbatch⟩ := h
    obtain ⟨hsome, hmax⟩ := forwardAttachmentBatches_size metas attachmentIds hbatch
    have hmessage : parseId crates
        (Request.fetchAttachmentsForForward messageId attachmentIds).args "message_id" =
        .ok messageId := parseId_of_get crates rfl
    have hids : parseIdArray crates
        (Request.fetchAttachmentsForForward messageId attachmentIds).args "attachment_ids"
        maxForwardAttachmentBatch = .ok attachmentIds :=
      parseIdArray_of_get crates rfl hsome hmax
    unfold Request.handler decodeArgs
    dsimp only
    rw [hmessage]
    dsimp only [bind, Except.bind]
    rw [hids]
    rfl

/-- Every request but a decision agrees; a decision never does. -/
theorem requests_agree_iff {r : Request} (h : Issuable r) : Agrees crates r ↔ ¬ Decides r := by
  unfold Agrees
  constructor
  · intro hagrees hdecides
    cases r with
    | decideApproval approvalId state =>
      rw [decode_decision crates approvalId h] at hagrees
      cases hagrees
    | _ => exact hdecides
  · intro hdecides
    rw [decode_request]
    exact decodes crates h hdecides

/-- A message is moved to the folder the user named. -/
theorem requests_agree_iff_move :
    Agrees Crates.plain (.moveMessage (.filled 1) "Archive") := by
  have hissuable : Issuable (.moveMessage (.filled 1) "Archive") :=
    show "Archive" ≠ "" by decide
  exact (requests_agree_iff Crates.plain hissuable).mpr id

/-- No approval can be allowed from the client: its actor is refused. -/
theorem approval_from_client_is_refused :
    Issuable (.decideApproval (.filled 1) .allowed) ∧
      ¬ Agrees Crates.plain (.decideApproval (.filled 1) .allowed) ∧
      decode Crates.plain "mcp.approval.decide"
          (approvalDecideArgs (.filled 1) .allowed) =
        .error (.badArgs "invalid 'decided_by'") := by
  have hissuable : Issuable (.decideApproval (.filled 1) .allowed) :=
    fun h => nomatch h
  have herror := decode_decision Crates.plain (.filled 1) hissuable
  refine ⟨hissuable, fun hagrees => ?_, herror⟩
  unfold Agrees at hagrees
  rw [herror] at hagrees
  cases hagrees

end Postblox.Tui
