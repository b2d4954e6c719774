import Postblox.Mail.Reply
import Postblox.Lib.Strip

/-!
# References along a chain of replies

Every reply carries the references of the message it answers and that message's id, cut
down to the root and the most recent ones. The cut is made again at every step; cutting
once at the end gives the same list. A header is read back word by word, so an id with a
blank inside counts as one where it is appended and as its words from then on.
-/
namespace Postblox.Mail

open Lib

/-- Not empty, and no blank in it. -/
def Unbroken (word : String) : Prop := word ≠ "" ∧ ∀ c ∈ word.toList, isWhitespace c = false

instance (word : String) : Decidable (Unbroken word) :=
  decidable_of_iff (word ≠ "" ∧ (word.toList.all fun c => !isWhitespace c) = true)
    (by simp [Unbroken])

section Words

variable {a b w : String} {ids : List String}

theorem splitWhitespace_empty : splitWhitespace "" = [] := by decide

theorem splitWhitespace_append_blank (a b : String) :
    splitWhitespace (a ++ " " ++ b) = splitWhitespace a ++ splitWhitespace b := by
  have hblank : isWhitespace ' ' = true := by decide
  have hlist : (a ++ " " ++ b).toList = a.toList ++ ' ' :: b.toList := by
    rw [String.append_assoc, String.toList_append, String.toList_append]
    rfl
  rw [splitWhitespace, hlist, List.splitOnP_append_cons _ _ hblank, List.filter_append,
    List.map_append]
  rfl

theorem splitWhitespace_unbroken (h : Unbroken w) : splitWhitespace w = [w] := by
  have hne : w.toList ≠ [] := by simpa using h.1
  rw [splitWhitespace, List.splitOnP_eq_singleton h.2,
    List.filter_cons_of_pos (by simpa using hne)]
  simp

theorem unbroken_of_mem_splitWhitespace (h : w ∈ splitWhitespace a) : Unbroken w := by
  obtain ⟨piece, hpiece, rfl⟩ := List.mem_map.mp h
  rw [List.mem_filter] at hpiece
  refine ⟨by simpa using hpiece.2, ?_⟩
  rw [String.toList_ofList]
  exact fun c hc => not_of_mem_splitOnP hpiece.1 hc

theorem splitWhitespace_intercalate (ids : List String) :
    splitWhitespace (" ".intercalate ids) = ids.flatMap splitWhitespace := by
  induction ids with
  | nil => exact splitWhitespace_empty
  | cons a rest ih =>
    cases rest with
    | nil => rw [String.intercalate_singleton, List.flatMap_singleton]
    | cons b rest =>
      rw [String.intercalate_cons_cons, splitWhitespace_append_blank, ih, ← List.flatMap_cons]

theorem flatMap_unbroken (h : ∀ w ∈ ids, Unbroken w) : ids.flatMap splitWhitespace = ids := by
  induction ids with
  | nil => rfl
  | cons a rest ih =>
    obtain ⟨ha, hrest⟩ := List.forall_mem_cons.mp h
    rw [List.flatMap_cons, splitWhitespace_unbroken ha, ih hrest, List.singleton_append]

theorem unbroken_of_mem_flatMap (h : w ∈ ids.flatMap splitWhitespace) : Unbroken w := by
  obtain ⟨id, -, hw⟩ := List.mem_flatMap.mp h
  exact unbroken_of_mem_splitWhitespace hw

theorem trimmed_unbroken (h : Unbroken w) : trimmed w = w := by
  have hstart : ∀ l : List Char, (∀ c ∈ l, isWhitespace c = false) → trimStart l = l := by
    intro l hl
    cases l with
    | nil => rfl
    | cons c rest => exact trimStart_of_not (hl c List.mem_cons_self)
  have hback : ∀ c ∈ w.toList.reverse, isWhitespace c = false :=
    fun c hc => h.2 c (List.mem_reverse.mp hc)
  rw [trimmed, trim, hstart _ h.2, hstart _ hback, List.reverse_reverse, String.ofList_toList]

theorem angleWrap_unbroken (h : Unbroken w) : Unbroken (angleWrap w) := by
  simp only [angleWrap, trimmed_unbroken h]
  split
  · exact h
  · refine ⟨by simp, ?_⟩
    intro c hc
    have hangle : isWhitespace '<' = false ∧ isWhitespace '>' = false := by decide
    simp only [String.toList_append, List.mem_append] at hc
    rcases hc with (hfirst | hmid) | hlast
    · rw [List.mem_singleton.mp hfirst]
      exact hangle.1
    · exact h.2 c hmid
    · rw [List.mem_singleton.mp hlast]
      exact hangle.2

/-- A wrapped id is at least one word. -/
theorem splitWhitespace_angleWrap_ne_nil (id : String) : splitWhitespace (angleWrap id) ≠ [] := by
  have hangle : isWhitespace '<' = false := by decide
  have hhead : (angleWrap id).toList.head? = some '<' := by
    simp only [angleWrap]
    split
    next h => exact h.1
    next => rw [String.append_assoc, String.toList_append]; rfl
  obtain ⟨word, words, h, -⟩ := splitWhitespace_of_head hhead hangle
  rw [h]
  exact List.cons_ne_nil word words

end Words

section Cap

variable {ids more : List String} {k : Nat}

theorem capReferences_of_le (h : ids.length ≤ 100) : capReferences ids = ids := by
  have hcap : ¬ referencesMessageIdCap < ids.length := by
    rw [referencesMessageIdCap]
    omega
  rw [capReferences, if_neg hcap]

theorem capReferences_of_lt (h : 100 < ids.length) :
    capReferences ids = ids.take 1 ++ ids.drop (ids.length - 99) := by
  have hcap : referencesMessageIdCap < ids.length := h
  rw [capReferences, if_pos hcap]
  rfl

theorem capReferences_subset (ids : List String) : capReferences ids ⊆ ids := by
  intro id h
  by_cases hlong : ids.length ≤ 100
  · rwa [capReferences_of_le hlong] at h
  · rw [capReferences_of_lt (by omega), List.mem_append] at h
    cases h with
    | inl hroot => exact List.mem_of_mem_take hroot
    | inr hrecent => exact List.mem_of_mem_drop hrecent

/-- What a later cut would drop may be dropped before. -/
theorem capReferences_keep (hk : k < ids.length) (hmore : 100 ≤ k + more.length) :
    capReferences (ids.take 1 ++ ids.drop (ids.length - k) ++ more) =
      capReferences (ids ++ more) := by
  have hone : (ids.take 1).length = 1 := by
    rw [List.length_take]
    omega
  have hkept : (ids.take 1 ++ ids.drop (ids.length - k) ++ more).length = 1 + k + more.length := by
    rw [List.length_append, List.length_append, List.length_drop, hone]
    omega
  have hall : (ids ++ more).length = ids.length + more.length := List.length_append
  rw [capReferences_of_lt (by omega), capReferences_of_lt (by omega), hkept, hall]
  congr 1
  · rw [List.append_assoc, List.take_append_of_le_length (by omega), List.take_take,
      List.take_append_of_le_length (by omega), Nat.min_self]
  · have hskip : 1 + k + more.length - 99 = (ids.take 1).length + (k + more.length - 99) := by
      omega
    have hlast : ids.length + more.length - 99 = (ids.length - k) + (k + more.length - 99) := by
      omega
    have hrest : (ids ++ more).drop (ids.length - k) = ids.drop (ids.length - k) ++ more :=
      List.drop_append_of_le_length (by omega)
    rw [List.append_assoc, hskip, List.drop_length_add_append, hlast, ← List.drop_drop, hrest]

theorem capReferences_append (ids : List String) (hmore : more ≠ []) :
    capReferences (capReferences ids ++ more) = capReferences (ids ++ more) := by
  by_cases h : ids.length ≤ 100
  · rw [capReferences_of_le h]
  · have hpos := List.length_pos_iff.mpr hmore
    have hlong : 100 < ids.length := by omega
    have hkeep : 99 < ids.length := by omega
    rw [capReferences_of_lt hlong]
    exact capReferences_keep hkeep (by omega)

/-- The first cut counts an id with blanks inside as one, the later ones count its words. -/
theorem capReferences_words {front own : List String} (hfront : ∀ w ∈ front, Unbroken w)
    (hown : ∀ id ∈ own, splitWhitespace id ≠ []) (hone : own.length ≤ 1) (hmore : more ≠ []) :
    capReferences ((capReferences (front ++ own)).flatMap splitWhitespace ++ more) =
      capReferences ((front ++ own).flatMap splitWhitespace ++ more) := by
  have hpos := List.length_pos_iff.mpr hmore
  have hall : (front ++ own).length = front.length + own.length := List.length_append
  by_cases h : (front ++ own).length ≤ 100
  · rw [capReferences_of_le h]
  · have hwords : own.length ≤ (own.flatMap splitWhitespace).length := by
      cases own with
      | nil => exact Nat.le_refl 0
      | cons id rest =>
        have hrest : rest = [] := by
          rw [List.length_cons] at hone
          exact List.length_eq_zero_iff.mp (by omega)
        have hid := List.length_pos_iff.mpr (hown id List.mem_cons_self)
        rw [hrest, List.flatMap_singleton, List.length_singleton]
        exact hid
    have hkept : capReferences (front ++ own) =
        front.take 1 ++ front.drop (front.length - (99 - own.length)) ++ own := by
      have hskip : front.length + own.length - 99 = front.length - (99 - own.length) := by omega
      rw [capReferences_of_lt (by omega), hall, hskip, List.take_append_of_le_length (by omega),
        List.drop_append_of_le_length (by omega), List.append_assoc]
    have hsplit : (front.take 1 ++ front.drop (front.length - (99 - own.length))).flatMap
        splitWhitespace = front.take 1 ++ front.drop (front.length - (99 - own.length)) := by
      apply flatMap_unbroken
      intro w hw
      rw [List.mem_append] at hw
      cases hw with
      | inl hroot => exact hfront w (List.mem_of_mem_take hroot)
      | inr hlate => exact hfront w (List.mem_of_mem_drop hlate)
    have hmany : (own.flatMap splitWhitespace ++ more).length =
        (own.flatMap splitWhitespace).length + more.length := List.length_append
    have hkeep : capReferences (front.take 1 ++ front.drop (front.length - (99 - own.length)) ++
        (own.flatMap splitWhitespace ++ more)) =
          capReferences (front ++ (own.flatMap splitWhitespace ++ more)) :=
      capReferences_keep (by omega) (by omega)
    rw [hkept, List.flatMap_append, hsplit, List.flatMap_append, flatMap_unbroken hfront]
    simpa only [List.append_assoc] using hkeep

end Cap

/-- `next` arrived as a reply to `message`: it carries the references of the draft, and an
id of its own. -/
structure IsReplyTo (formatRfc2822 : Int → RenderedDate) (message next : MessageView)
    (id : String) : Prop where
  references : ∃ accountEmail replyAll, next.referencesHeader.getD "" =
    (replyDraft formatRfc2822 message accountEmail replyAll).references
  messageId : next.messageIdHeader = some id
  unbroken : Unbroken id

/-- The messages that answer one another from `start` on, by the ids of the replies. -/
inductive ReplyChain (formatRfc2822 : Int → RenderedDate) (start : MessageView) :
    List String → MessageView → Prop
  | start : ReplyChain formatRfc2822 start [] start
  | reply {ids message next id} : ReplyChain formatRfc2822 start ids message →
      IsReplyTo formatRfc2822 message next id → ReplyChain formatRfc2822 start (ids ++ [id]) next

/-- The ids the first reply refers to. -/
def startIds (start : MessageView) : List String :=
  referenceIds start.referencesHeader start.messageIdHeader

/-- The ids of a chain, oldest first. Those of its start are read back word by word once
there is a reply. -/
def chainIds (start : MessageView) (ids : List String) : List String :=
  if ids = [] then startIds start
  else (startIds start).flatMap splitWhitespace ++ ids.map angleWrap

/-- Up to a hundred ids as they are, of more the first and the last 99. -/
def rootAndRecent (ids : List String) : List String :=
  if ids.length ≤ 100 then ids else ids.take 1 ++ ids.rtake 99

theorem capReferences_eq (ids : List String) : capReferences ids = rootAndRecent ids := by
  unfold rootAndRecent
  split
  next h => exact capReferences_of_le h
  next h =>
    rw [capReferences_of_lt (by omega), List.rtake]

section Chain

variable {formatRfc2822 : Int → RenderedDate} {start last message next : MessageView}
  {ids : List String} {id : String}

theorem ReplyChain.unbroken (h : ReplyChain formatRfc2822 start ids last) :
    ∀ id ∈ ids, Unbroken id := by
  induction h with
  | start => exact fun id hid => absurd hid List.not_mem_nil
  | reply _ hnext ih =>
    intro id hid
    rw [List.mem_append, List.mem_singleton] at hid
    cases hid with
    | inl hbefore => exact ih id hbefore
    | inr hlast => exact hlast ▸ hnext.unbroken

theorem replyDraft_references (formatRfc2822 : Int → RenderedDate) (message : MessageView)
    (accountEmail : String) (replyAll : Bool) :
    (replyDraft formatRfc2822 message accountEmail replyAll).references =
      buildReferences message.referencesHeader message.messageIdHeader := rfl

theorem splitWhitespace_getD (header : Option String) :
    (header.map splitWhitespace).getD [] = splitWhitespace (header.getD "") := by
  cases header with
  | none => exact splitWhitespace_empty.symm
  | some text => rfl

/-- What a reply to a reply refers to: the references of that one, read back, and its id. -/
theorem referenceIds_reply (h : IsReplyTo formatRfc2822 message next id) :
    referenceIds next.referencesHeader next.messageIdHeader =
      (capReferences (startIds message)).flatMap splitWhitespace ++ [angleWrap id] := by
  obtain ⟨accountEmail, replyAll, hreferences⟩ := h.references
  have hid : trimmed id ≠ "" := by
    rw [trimmed_unbroken h.unbroken]
    exact h.unbroken.1
  have hown : ((next.messageIdHeader.map trimmed).filter (· ≠ "")).toList = [id] := by
    rw [h.messageId, Option.map_some, Option.filter_some, if_pos (by simpa using hid),
      trimmed_unbroken h.unbroken]
    rfl
  rw [referenceIds, hown, List.map_singleton, splitWhitespace_getD, hreferences]
  rw [replyDraft_references, buildReferences, splitWhitespace_intercalate]
  rfl

theorem startIds_cap_words (message : MessageView) {more : List String} (hmore : more ≠ []) :
    capReferences ((capReferences (startIds message)).flatMap splitWhitespace ++ more) =
      capReferences ((startIds message).flatMap splitWhitespace ++ more) := by
  unfold startIds referenceIds
  apply capReferences_words _ _ _ hmore
  · rw [splitWhitespace_getD]
    exact fun w hw => unbroken_of_mem_splitWhitespace hw
  · intro id hid
    obtain ⟨text, -, rfl⟩ := List.mem_map.mp hid
    exact splitWhitespace_angleWrap_ne_nil text
  · rw [List.length_map, Option.length_toList]
    split
    · exact Nat.le_refl 1
    · exact Nat.zero_le 1

theorem chainIds_unbroken (h : ReplyChain formatRfc2822 start ids last) (hids : ids ≠ []) :
    ∀ w ∈ chainIds start ids, Unbroken w := by
  intro w hw
  rw [chainIds, if_neg hids, List.mem_append] at hw
  cases hw with
  | inl hstart => exact unbroken_of_mem_flatMap hstart
  | inr hreply =>
    obtain ⟨id, hid, rfl⟩ := List.mem_map.mp hreply
    exact angleWrap_unbroken (h.unbroken id hid)

theorem chainIds_concat (hids : ids ≠ []) :
    chainIds start (ids ++ [id]) = chainIds start ids ++ [angleWrap id] := by
  rw [chainIds, chainIds, if_neg hids, if_neg (by simp), List.map_append, List.map_singleton,
    List.append_assoc]

theorem chainIds_singleton :
    chainIds start [id] = (startIds start).flatMap splitWhitespace ++ [angleWrap id] := by
  rw [chainIds, if_neg (List.cons_ne_nil id []), List.map_singleton]

/-- Cutting at every step gives what one cut of the whole chain gives. -/
theorem capReferences_chain (h : ReplyChain formatRfc2822 start ids last) :
    capReferences (startIds last) = capReferences (chainIds start ids) := by
  induction h with
  | start => rfl
  | reply hchain hnext ih =>
    rename_i before message next id
    have hstep : startIds next =
        (capReferences (startIds message)).flatMap splitWhitespace ++ [angleWrap id] :=
      referenceIds_reply hnext
    by_cases hfirst : before = []
    · cases hchain with
      | start =>
        rw [hstep, startIds_cap_words _ (List.cons_ne_nil _ []), List.nil_append,
          chainIds_singleton]
      | reply => simp at hfirst
    · have hwords : (capReferences (chainIds start before)).flatMap splitWhitespace =
          capReferences (chainIds start before) := by
        apply flatMap_unbroken
        intro w hw
        exact chainIds_unbroken hchain hfirst w (capReferences_subset _ hw)
      rw [hstep, ih, hwords, capReferences_append _ (List.cons_ne_nil _ []),
        chainIds_concat hfirst]

/-- The references of the reply that ends a chain are the ids of the whole chain, or when
they are more than a hundred the first and the last 99 of them. -/
theorem chain_references (h : ReplyChain formatRfc2822 start ids last) (accountEmail : String)
    (replyAll : Bool) :
    (replyDraft formatRfc2822 last accountEmail replyAll).references =
        " ".intercalate (rootAndRecent (chainIds start ids)) ∧
      ((∀ id ∈ startIds start, Unbroken id) →
        chainIds start ids = startIds start ++ ids.map angleWrap) := by
  constructor
  · rw [replyDraft_references, buildReferences, ← startIds, capReferences_chain h, capReferences_eq]
  · intro hwhole
    unfold chainIds
    split
    next hnil => rw [hnil, List.map_nil, List.append_nil]
    next => rw [flatMap_unbroken hwhole]

end Chain

/-- A message with 99 references, and a blank inside its own id. -/
def brokenStart : MessageView where
  fromAddr := "ada@example.com"
  replyTo := none
  subject := none
  messageIdHeader := some "<a b>"
  referencesHeader := some (" ".intercalate (List.replicate 99 "<r>"))
  toAddrs := []
  ccAddrs := []
  textBody := none
  htmlBody := none
  internalDate := 0

def brokenReply : MessageView :=
  { brokenStart with
    messageIdHeader := some "<c>"
    referencesHeader :=
      some (buildReferences brokenStart.referencesHeader brokenStart.messageIdHeader) }

def undated (_ : Int) : RenderedDate where
  text := ""
  oneLine := by decide

theorem broken_chain : ReplyChain undated brokenStart ["<c>"] brokenReply := by
  have hheader : brokenReply.referencesHeader =
      some (buildReferences brokenStart.referencesHeader brokenStart.messageIdHeader) := rfl
  have hreferences : brokenReply.referencesHeader.getD "" =
      (replyDraft undated brokenStart "" false).references := by
    rw [hheader, Option.getD_some, replyDraft_references]
  have hreply : IsReplyTo undated brokenStart brokenReply "<c>" :=
    ⟨⟨"", false, hreferences⟩, rfl, by decide⟩
  exact ReplyChain.reply ReplyChain.start hreply

theorem flatMap_replicate (n : ℕ) (rest : List String) :
    (List.replicate n "<r>" ++ rest).flatMap splitWhitespace =
      List.replicate n "<r>" ++ rest.flatMap splitWhitespace := by
  have hword : ∀ w ∈ List.replicate n "<r>", Unbroken w := by
    intro w hw
    rw [(List.mem_replicate.mp hw).2]
    decide
  rw [List.flatMap_append, flatMap_unbroken hword]

theorem startIds_brokenStart : startIds brokenStart = List.replicate 99 "<r>" ++ ["<a b>"] := by
  have hown : ((brokenStart.messageIdHeader.map trimmed).filter (· ≠ "")).toList.map angleWrap =
      ["<a b>"] := by decide
  have hheader : brokenStart.referencesHeader.getD "" =
      " ".intercalate (List.replicate 99 "<r>" ++ []) := by
    simp only [brokenStart, Option.getD_some, List.append_nil]
  rw [startIds, referenceIds, hown, splitWhitespace_getD, hheader, splitWhitespace_intercalate,
    flatMap_replicate, List.flatMap_nil, List.append_nil]

theorem splitWhitespace_broken : splitWhitespace "<a b>" = ["<a", "b>"] := by decide

/-- Neither as one id nor as its words does a broken id of the start count all along. -/
theorem broken_start_id_counts_twice :
    ¬ (∀ formatRfc2822 start ids last, ReplyChain formatRfc2822 start ids last →
        ∀ accountEmail replyAll,
          (replyDraft formatRfc2822 last accountEmail replyAll).references =
            " ".intercalate (rootAndRecent (startIds start ++ ids.map angleWrap))) ∧
      ¬ (∀ formatRfc2822 start ids last, ReplyChain formatRfc2822 start ids last →
        ∀ accountEmail replyAll,
          (replyDraft formatRfc2822 last accountEmail replyAll).references =
            " ".intercalate (rootAndRecent ((startIds start).flatMap splitWhitespace ++
              ids.map angleWrap))) := by
  constructor
  · intro h
    have hone := h undated brokenStart ["<c>"] brokenReply broken_chain "" false
    rw [replyDraft_references, buildReferences, ← startIds, capReferences_chain broken_chain,
      capReferences_eq, chainIds_singleton, startIds_brokenStart] at hone
    have hid : angleWrap "<c>" = "<c>" := by decide
    have hkept : rootAndRecent (List.replicate 99 "<r>" ++ ["<a", "b>"] ++ ["<c>"]) =
        List.replicate 97 "<r>" ++ ["<a", "b>", "<c>"] := rfl
    have hclaimed : rootAndRecent (List.replicate 99 "<r>" ++ ["<a b>"] ++ ["<c>"]) =
        List.replicate 98 "<r>" ++ ["<a b>", "<c>"] := rfl
    rw [flatMap_replicate, List.flatMap_singleton, splitWhitespace_broken, List.map_singleton,
      hid, hkept, hclaimed] at hone
    have hwords := congrArg (fun text => (splitWhitespace text).length) hone
    simp only [splitWhitespace_intercalate, flatMap_replicate, List.length_append,
      List.length_replicate] at hwords
    revert hwords
    decide
  · intro h
    have hone := h undated brokenStart [] brokenStart ReplyChain.start "" false
    have hkept : rootAndRecent (List.replicate 99 "<r>" ++ ["<a b>"]) =
        List.replicate 99 "<r>" ++ ["<a b>"] := rfl
    have hclaimed : rootAndRecent (List.replicate 99 "<r>" ++ ["<a", "b>"]) =
        List.replicate 98 "<r>" ++ ["<a", "b>"] := rfl
    rw [replyDraft_references, buildReferences, ← startIds, capReferences_eq,
      startIds_brokenStart, flatMap_replicate, List.flatMap_singleton, splitWhitespace_broken,
      List.map_nil, List.append_nil, hkept, hclaimed] at hone
    have hwords := congrArg (fun text => (splitWhitespace text).length) hone
    simp only [splitWhitespace_intercalate, flatMap_replicate, List.length_append,
      List.length_replicate] at hwords
    revert hwords
    decide

theorem broken_chain_references :
    (replyDraft undated brokenReply "" false).references =
        " ".intercalate (rootAndRecent (chainIds brokenStart ["<c>"])) ∧
      ((∀ id ∈ startIds brokenStart, Unbroken id) →
        chainIds brokenStart ["<c>"] = startIds brokenStart ++ ["<c>"].map angleWrap) :=
  chain_references broken_chain "" false

end Postblox.Mail
