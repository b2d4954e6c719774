import Postblox.Lib.Machine
import Postblox.Tui.FlagCopies

/-!
# Runs of the actions that touch flags

The copies of a message's flags agree along every run whose steps contradict no detail that
stays behind. `apply_message_flags` does contradict one: it writes the rows and the open
detail, and the cached detail keeps the old flags until the focus returns to it.
-/
namespace Postblox.Tui

open Lib

inductive FlagAction where
  | applyFolderMessages (messages : List MessageItem) (now : Nat)
  | restoreFolderSnapshot (snapshot : FolderSnapshot)
  | applyDetail (detail : Option MessageDetail) (now : Nat)
  | cacheConversationDetail (detail : MessageDetail) (now : Nat)
  | applyMessageFlags (id : Uuid) (flags : List String) (now : Nat)
  | moveConversationDetailFocus (delta : Int)
  | moveThread (delta : Int)
  | moveFolder (delta : Int)
  | moveAccount (delta : Int)
  | jumpToHit (hit : SearchHit)
  | removeMessageLocally (id : Uuid) (now : Nat)
  | restoreMessageListSnapshot (snapshot : MessageListSnapshot) (now : Nat)

namespace FlagAction

def perform (app : AppState) : FlagAction → AppState
  | .applyFolderMessages messages now => app.applyFolderMessages messages now
  | .restoreFolderSnapshot snapshot => app.restoreFolderSnapshot snapshot
  | .applyDetail detail now => app.applyDetail detail now
  | .cacheConversationDetail detail now => app.cacheConversationDetail detail now
  | .applyMessageFlags id flags now => app.applyMessageFlags id flags now
  | .moveConversationDetailFocus delta => (app.moveConversationDetailFocus delta).1
  | .moveThread delta => (app.moveThread delta).1
  | .moveFolder delta => (app.moveFolder delta).1
  | .moveAccount delta => (app.moveAccount delta).1
  | .jumpToHit hit => (app.jumpToHit hit).1
  | .removeMessageLocally id now => (app.removeMessageLocally id now).1
  | .restoreMessageListSnapshot snapshot now => app.restoreMessageListSnapshot snapshot now

def step (app : AppState) (action : FlagAction) : Option AppState := some (action.perform app)

/-- A listing has a message once; flags are written to a message whose cached detail has them
or that is held nowhere else; a detail that stays open is not contradicted by a fetched one or
by the rows of a snapshot. -/
def Keeps (app : AppState) : FlagAction → Prop
  | .applyFolderMessages messages _ => (messages.map (·.id)).Nodup
  | .restoreFolderSnapshot snapshot => (snapshot.folderMessages.map (·.id)).Nodup
  | .cacheConversationDetail detail _ =>
    app.focusedMessageId = some detail.id ∨
      ∀ opened ∈ app.detail, opened.id = detail.id → opened.flags = detail.flags
  | .applyMessageFlags id flags _ =>
    ∀ cached ∈ app.conversationDetail.detailsById id, cached.flags = flags ∨
      (∀ m ∈ app.folderMessages, m.id ≠ id) ∧ ∀ opened ∈ app.detail, opened.id ≠ id
  | .restoreMessageListSnapshot snapshot _ =>
    (snapshot.folderMessages.map (·.id)).Nodup ∧
      ∀ row ∈ snapshot.folderMessages,
        (∀ opened ∈ app.detail, opened.id = row.id → opened.flags = row.flags) ∧
        ∀ cached ∈ app.conversationDetail.detailsById row.id, cached.flags = row.flags
  | _ => True

instance Keeps.instDecidable (app : AppState) : ∀ action : FlagAction, Decidable (action.Keeps app)
  | .applyFolderMessages _ _ => inferInstanceAs (Decidable (List.Nodup _))
  | .restoreFolderSnapshot _ => inferInstanceAs (Decidable (List.Nodup _))
  | .cacheConversationDetail _ _ => inferInstanceAs (Decidable (_ ∨ ∀ opened ∈ app.detail, _ → _))
  | .applyMessageFlags id _ _ =>
    inferInstanceAs (Decidable (∀ cached ∈ app.conversationDetail.detailsById id, _ ∨ _))
  | .restoreMessageListSnapshot snapshot _ =>
    inferInstanceAs (Decidable (List.Nodup _ ∧ ∀ row ∈ snapshot.folderMessages, _ ∧ _))
  | .applyDetail _ _ => isTrue trivial
  | .moveConversationDetailFocus _ => isTrue trivial
  | .moveThread _ => isTrue trivial
  | .moveFolder _ => isTrue trivial
  | .moveAccount _ => isTrue trivial
  | .jumpToHit _ => isTrue trivial
  | .removeMessageLocally _ _ => isTrue trivial

/-! ## Every action, every run -/

theorem coherent_perform {app : AppState} (h : app.Coherent) {action : FlagAction}
    (hkeeps : action.Keeps app) : (action.perform app).Coherent := by
  cases action with
  | applyFolderMessages messages now => exact AppState.coherent_applyFolderMessages hkeeps now
  | restoreFolderSnapshot snapshot => exact AppState.coherent_restoreFolderSnapshot hkeeps
  | applyDetail detail now => exact h.applyDetail detail now
  | cacheConversationDetail detail now => exact h.cacheConversationDetail hkeeps now
  | applyMessageFlags id flags now => exact h.applyMessageFlags hkeeps now
  | moveConversationDetailFocus delta => exact h.moveConversationDetailFocus delta
  | moveThread delta => exact h.moveThread delta
  | moveFolder delta => exact h.moveFolder delta
  | moveAccount delta => exact h.moveAccount delta
  | jumpToHit hit => exact h.jumpToHit hit
  | removeMessageLocally id now => exact h.removeMessageLocally id now
  | restoreMessageListSnapshot snapshot now =>
    obtain ⟨hdistinct, hagree⟩ := hkeeps
    apply h.restoreMessageListSnapshot hdistinct _ now
    rintro row hrow flags (⟨d, hopened, hid, rfl⟩ | ⟨d, hcached, rfl⟩)
    · exact ((hagree row hrow).1 d hopened hid).symm
    · exact ((hagree row hrow).2 d hcached).symm

theorem coherent_of_run {app app' : AppState} (h : app.Coherent) {actions : List FlagAction}
    (hkeeps : Machine.Guarded step Keeps app actions)
    (hrun : Machine.run step app actions = some app') : app'.Coherent := by
  apply Machine.guarded_invariant step h _ hkeeps hrun
  intro before action after hbefore hok hstep
  rw [← Option.some.inj hstep]
  exact coherent_perform hbefore hok

/-- What a removal took out may be put back. -/
theorem keeps_restore_of_remove {app : AppState} (h : app.Coherent) (id : Uuid) (now now' : Nat) :
    (restoreMessageListSnapshot app.snapshotMessageList now').Keeps
      ((removeMessageLocally id now).perform app) := by
  have hheld : ∀ row ∈ app.folderMessages, ∀ f,
      ((removeMessageLocally id now).perform app).flagCopies.Details row.id f → f = row.flags := by
    intro row hrow f hdetail
    exact (h.agree.rows ⟨row, hrow, rfl, rfl⟩ (AppState.details_removeMessageLocally hdetail)).symm
  refine ⟨h.distinct, fun row hrow => ⟨fun opened hopened hid => ?_, fun cached hcached => ?_⟩⟩
  · exact hheld row hrow _ (.inl ⟨opened, hopened, hid, rfl⟩)
  · exact hheld row hrow _ (.inr ⟨cached, hcached, rfl⟩)

end FlagAction

theorem AppState.coherent_initial : AppState.initial.Coherent :=
  coherent_of_empty rfl rfl rfl fun _ => rfl

/-- In every state that such a run reaches, the flags of a message are the same in every place,
and a toggle of the selected message starts from them. -/
theorem flags_agree_of_careful_run {app app' : AppState} (h : app.Coherent)
    {actions : List FlagAction} (hkeeps : Machine.Guarded FlagAction.step FlagAction.Keeps app actions)
    (hrun : Machine.run FlagAction.step app actions = some app') :
    app'.flagCopies.Agree ∧
      ∀ id flags flag enabled update, app'.flagCopies.Holds id flags →
        app'.selectedMessageFlagUpdate flag enabled = some (id, update) →
        update = setFlagPreserving flags flag enabled := by
  have hagree := (FlagAction.coherent_of_run h hkeeps hrun).agree
  refine ⟨hagree, ?_⟩
  intro id flags flag enabled update hholds htoggle
  obtain ⟨m, hrow, hupdate⟩ := Option.map_eq_some_iff.mp htoggle
  have hid : m.id = id := congrArg Prod.fst hupdate
  have hmem : m ∈ app'.messages := by
    unfold AppState.messageRow at hrow
    split_ifs at hrow
    exact List.mem_of_getElem? hrow
  rw [hagree hholds (.inr (.inl ⟨m, hmem, hid, rfl⟩))]
  exact (congrArg Prod.snd hupdate).symm

/-! ## Two messages -/

def question : MessageItem :=
  ⟨.filled 1, some (.filled 9), "Lunch", "ann@example.org", "2026-05-01 09:00", "", []⟩

def answer : MessageItem :=
  ⟨.filled 2, some (.filled 9), "Re: Lunch", "bob@example.org", "2026-05-02 09:00", "", []⟩

def answerDetail : MessageDetail := ⟨.filled 2, "Re: Lunch", "bob@example.org", "", "Yes.", []⟩

def questionDetail : MessageDetail :=
  ⟨.filled 1, "Lunch", "ann@example.org", "", "Today?", [seenFlag]⟩

/-- The answer is opened, the question is read and comes in as seen; the answer is removed and
put back. -/
def readAndRestore : List FlagAction :=
  [.applyFolderMessages [question, answer] 0, .applyDetail (some answerDetail) 0,
    .moveConversationDetailFocus (-1), .cacheConversationDetail questionDetail 1,
    .removeMessageLocally (.filled 2) 2,
    .restoreMessageListSnapshot ⟨[{ question with flags := [seenFlag] }, answer], 0, 0⟩ 3]

theorem read_question_is_seen_everywhere :
    ∃ app, Machine.run FlagAction.step .initial readAndRestore = some app ∧
      app.flagCopies.Agree ∧ app.selectedMessageFlagUpdate seenFlag false = some (.filled 1, []) ∧
      app.detail.map (fun d => (d.id, d.flags)) = some (.filled 1, [seenFlag]) := by
  have hkeeps : Machine.Guarded FlagAction.step FlagAction.Keeps .initial readAndRestore := by
    decide
  have hshown : (Machine.run FlagAction.step .initial readAndRestore).map (fun app =>
      (app.selectedMessageFlagUpdate seenFlag false, app.detail.map fun d => (d.id, d.flags))) =
      some (some (.filled 1, []), some (.filled 1, [seenFlag])) := by
    decide
  obtain ⟨app, hrun, hflags⟩ := Option.map_eq_some_iff.mp hshown
  obtain ⟨htoggle, hdetail⟩ := Prod.mk.inj hflags
  exact ⟨app, hrun, (flags_agree_of_careful_run AppState.coherent_initial hkeeps hrun).1, htoggle,
    hdetail⟩

/-- The answer is opened and marked seen; the focus goes to the question and back. -/
def markAndReturn : List FlagAction :=
  [.applyFolderMessages [question, answer] 0, .applyDetail (some answerDetail) 0,
    .applyMessageFlags (.filled 2) [seenFlag] 1, .moveConversationDetailFocus (-1),
    .moveConversationDetailFocus 1]

/-- The row of the answer is seen and its open detail is not. -/
theorem marked_answer_shows_old_flags :
    ∃ app, Machine.run FlagAction.step .initial markAndReturn = some app ∧
      app.messageRow.map (fun m => (m.id, m.flags)) = some (.filled 2, [seenFlag]) ∧
      app.detail.map (fun d => (d.id, d.flags)) = some (.filled 2, []) ∧ ¬ app.flagCopies.Agree := by
  have hshown : (Machine.run FlagAction.step .initial markAndReturn).map (fun app =>
      (app.messages.map fun m => (m.id, m.flags),
        app.messageRow.map fun m => (m.id, m.flags), app.detail.map fun d => (d.id, d.flags))) =
      some ([(.filled 1, []), (.filled 2, [seenFlag])], some (.filled 2, [seenFlag]),
        some (.filled 2, [])) := by
    decide
  obtain ⟨app, hrun, hflags⟩ := Option.map_eq_some_iff.mp hshown
  obtain ⟨hrows, hflags⟩ := Prod.mk.inj hflags
  obtain ⟨hrow, hdetail⟩ := Prod.mk.inj hflags
  refine ⟨app, hrun, hrow, hdetail, fun hagree => ?_⟩
  obtain ⟨d, hopened, hd⟩ := Option.map_eq_some_iff.mp hdetail
  obtain ⟨m, hm, hmflags⟩ : ∃ m ∈ app.messages, (m.id, m.flags) = (.filled 2, [seenFlag]) := by
    rw [← List.mem_map, hrows]
    decide
  obtain ⟨hdid, hdflags⟩ := Prod.mk.inj hd
  obtain ⟨hmid, hmflags⟩ := Prod.mk.inj hmflags
  have hsame := hagree (.inr (.inl ⟨m, hm, hmid, hmflags⟩))
    (.inr (.inr (.inl ⟨d, hopened, hdid, hdflags⟩)))
  cases hsame

end Postblox.Tui
