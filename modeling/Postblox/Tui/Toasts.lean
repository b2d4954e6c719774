import Postblox.Lib.Lists
import Postblox.Tui.Announcements
import Postblox.Tui.DraftTempFiles

/-!
# Toasts and the states of the accounts

What the user is told about the accounts: the state of each, and short messages at the
bottom of the screen that go away after a time, at most three of them at once. A text that
is still up is refreshed and not put up again.
-/
namespace Postblox.Tui

open Json (Value)
open Lib Lib.Machine

/-! ## Toasts -/

inductive ToastKind where
  | info
  | success
  | warn
  | error
  deriving DecidableEq

def toastTtlInfo : Nat := 3000000000

def toastTtlError : Nat := 6000000000

def ToastKind.ttl : ToastKind → Nat
  | .error => toastTtlError
  | .info | .success | .warn => toastTtlInfo

def maxToasts : Nat := 3

def coalesceAccountSynced : Nat := 5000000000

def coalesceSyncError : Nat := 10000000000

def coalescePaneRefusal : Nat := 3000000000

/-- Times are nanoseconds of the monotonic clock. -/
structure Toast where
  id : UInt64
  kind : ToastKind
  text : String
  expiresAt : Nat
  deriving DecidableEq

def Toast.Shows (toast : Toast) (kind : ToastKind) (text : String) : Prop :=
  toast.kind = kind ∧ toast.text = text

instance (toast : Toast) (kind : ToastKind) (text : String) : Decidable (toast.Shows kind text) :=
  inferInstanceAs (Decidable (_ ∧ _))

/-- It shows the text, and was put up or refreshed within the window. -/
def Toast.Recent (toast : Toast) (kind : ToastKind) (text : String) (now window : Nat) : Prop :=
  toast.Shows kind text ∧ now + kind.ttl ≤ toast.expiresAt + window

instance (toast : Toast) (kind : ToastKind) (text : String) (now window : Nat) :
    Decidable (toast.Recent kind text now window) := inferInstanceAs (Decidable (_ ∧ _))

/-- The last toast that is found gets a new expiry. -/
def refreshLast (found : Toast → Bool) (expiresAt : Nat) : List Toast → Option (List Toast)
  | [] => none
  | toast :: rest =>
    match refreshLast found expiresAt rest with
    | some rest => some (toast :: rest)
    | none => if found toast then some ({ toast with expiresAt } :: rest) else none

/-- The fields `toasts`, the oldest first, and `next_toast_id`. -/
structure ToastQueue where
  toasts : List Toast
  nextToastId : UInt64
  deriving DecidableEq

namespace ToastQueue

def empty : ToastQueue := ⟨[], 0⟩

variable (queue : ToastQueue) (kind : ToastKind) (text : String) (now : Nat)

def pushToast : ToastQueue where
  toasts := (if maxToasts ≤ queue.toasts.length then queue.toasts.tail else queue.toasts) ++
    [⟨queue.nextToastId, kind, text, now + kind.ttl⟩]
  nextToastId := queue.nextToastId + 1

/-- `none` if there is nothing to refresh. -/
def coalesceToast (window : Nat) : Option ToastQueue :=
  (refreshLast (fun toast => toast.Recent kind text now window) (now + kind.ttl)
    queue.toasts).map fun toasts => { queue with toasts }

def coalesceOrPush (window : Nat) : ToastQueue :=
  (queue.coalesceToast kind text now window).getD (queue.pushToast kind text now)

def dismissNewestToast : ToastQueue := { queue with toasts := queue.toasts.dropLast }

def clearToasts : ToastQueue := { queue with toasts := [] }

def tickToasts : ToastQueue :=
  { queue with toasts := queue.toasts.filter fun toast => now < toast.expiresAt }

end ToastQueue

/-! ## The states of the accounts -/

inductive SyncStateUi where
  | idle
  | polling
  | syncing
  | error
  deriving DecidableEq

def parseSyncStateStr (text : String) : Option SyncStateUi :=
  if text = "idle" then some .idle
  else if text = "polling" then some .polling
  else if text = "syncing" then some .syncing
  else if text = "error" then some .error
  else none

structure AccountStatus where
  state : SyncStateUi
  lastError : Option String
  deriving DecidableEq

/-- The client with its toasts and the states of its accounts. -/
structure StatusPane where
  app : AppState
  queue : ToastQueue
  accountStates : Uuid → Option AccountStatus

def shortId (id : Uuid) : String := String.ofList ((simpleText id).toList.take 8)

/-- The status that is entered for a state. -/
def AccountStatus.entered (state : SyncStateUi) (lastError : Option String) : AccountStatus where
  state := state
  lastError := if state = .error then some (lastError.getD "sync error") else none

namespace StatusPane

/-- `AppState::default`. -/
def initial : StatusPane := ⟨.initial, .empty, fun _ => none⟩

variable (pane : StatusPane)

def accountLabelForToast (account : Uuid) : String :=
  ((pane.app.accounts.find? fun row => row.id = account).map (·.label)).getD (shortId account)

/-- The text of a failed sync. -/
def failureText (account : Uuid) (lastError : Option String) : String :=
  pane.accountLabelForToast account ++ ": " ++ lastError.getD "sync error"

def applySyncState (account : Uuid) (state : SyncStateUi) (lastError : Option String) (now : Nat) :
    StatusPane :=
  { pane with
    queue :=
      if state = .error then
        pane.queue.coalesceOrPush .error (pane.failureText account lastError) now coalesceSyncError
      else pane.queue
    accountStates :=
      Function.update pane.accountStates account (some (.entered state lastError)) }

def mailNewText (account : Uuid) (folder : Option Uuid) : String :=
  let name := ((folder.bind fun id => pane.app.folders.find? fun row => row.id = id).map
    (·.name)).getD "folder"
  "New mail in " ++ name ++ " (" ++ pane.accountLabelForToast account ++ ")"

def pushMailNewToast (account : Uuid) (folder : Option Uuid) (now : Nat) : StatusPane :=
  { pane with queue := pane.queue.pushToast .info (pane.mailNewText account folder) now }

def syncedText (account : Uuid) : String := "Synced " ++ pane.accountLabelForToast account

def pushAccountSyncedToast (account : Uuid) (now : Nat) : StatusPane :=
  { pane with
    queue := pane.queue.coalesceOrPush .info (pane.syncedText account) now coalesceAccountSynced }

/-- The text also goes to the status row, which is only drawn. -/
def pushPaneRefusalToast (text : String) (now : Nat) : StatusPane :=
  { pane with queue := pane.queue.coalesceOrPush .info text now coalescePaneRefusal }

def applyAccounts (accounts : List AccountItem) : StatusPane :=
  { pane with
    app := pane.app.applyAccounts accounts
    accountStates := fun id =>
      if id ∈ accounts.map (·.id) then pane.accountStates id else none }

variable (crates : Crates)

/-- What the handler of an event does to the toasts and the states. -/
def announce (notice : Notice) (now : Nat) : StatusPane :=
  match notice.uuid crates "account_id" with
  | none => pane
  | some account =>
    if notice.topic = "mail.new" then
      pane.pushMailNewToast account (notice.uuid crates "folder_id") now
    else if notice.topic = "account.synced" then pane.pushAccountSyncedToast account now
    else if notice.topic = "sync.state" then
      match ((notice.data.get "state").bind Value.asStr).bind parseSyncStateStr with
      | none => pane
      | some state =>
        pane.applySyncState account state ((notice.data.get "last_error").bind Value.asStr) now
    else pane

/-- `on_daemon_event`; the requests for approval are a list of their own. -/
def onDaemonEvent (notice : Notice) (now : Nat) : StatusPane :=
  let announced := pane.announce crates notice now
  { announced with app := Tui.onDaemonEvent crates announced.app notice }

end StatusPane

/-! ## Steps of the client -/

inductive PaneAction where
  | event (notice : Notice) (now : Nat)
  | tick (now : Nat)
  | dismiss
  | clear
  /-- The other handlers push without a look at what is there. -/
  | toast (kind : ToastKind) (text : String) (now : Nat)
  | refuse (text : String) (now : Nat)
  | accounts (accounts : List AccountItem)
  /-- Whatever another handler does to the panes; it leaves the accounts. -/
  | panes (app : AppState)

def PaneAction.time : PaneAction → Option Nat
  | .event _ now | .tick now | .toast _ _ now | .refuse _ now => some now
  | .dismiss | .clear | .accounts _ | .panes _ => none

/-- It may put one toast behind the others. -/
def PaneAction.toasts : PaneAction → Bool
  | .event .. | .toast .. | .refuse .. => true
  | .tick _ | .dismiss | .clear | .accounts _ | .panes _ => false

namespace StatusPane

variable (crates : Crates)

def step (pane : StatusPane) : PaneAction → Option StatusPane
  | .event notice now => some (pane.onDaemonEvent crates notice now)
  | .tick now => some { pane with queue := pane.queue.tickToasts now }
  | .dismiss => some { pane with queue := pane.queue.dismissNewestToast }
  | .clear => some { pane with queue := pane.queue.clearToasts }
  | .toast kind text now => some { pane with queue := pane.queue.pushToast kind text now }
  | .refuse text now => some (pane.pushPaneRefusalToast text now)
  | .accounts accounts => some (pane.applyAccounts accounts)
  | .panes app => if app.accounts = pane.app.accounts then some { pane with app } else none

/-- What a step does to the toasts. -/
inductive ToastAction where
  | push (kind : ToastKind) (text : String) (now : Nat)
  | coalesce (kind : ToastKind) (text : String) (now window : Nat)
  | tick (now : Nat)
  | dismiss
  | clear

def ToastAction.time : ToastAction → Option Nat
  | .push _ _ now | .coalesce _ _ now _ | .tick now => some now
  | .dismiss | .clear => none

/-- It puts this up without a look at what is there. -/
def ToastAction.Pushes (action : ToastAction) (kind : ToastKind) (text : String) : Prop :=
  match action with
  | .push kind' text' _ => kind' = kind ∧ text' = text
  | _ => False

/-- No toast that is up is coalesced away too early. -/
def ToastAction.Waits (action : ToastAction) : Prop :=
  match action with
  | .coalesce kind _ _ window => kind.ttl ≤ window
  | _ => True

end StatusPane

namespace ToastQueue

open StatusPane (ToastAction)

def act (queue : ToastQueue) : ToastAction → ToastQueue
  | .push kind text now => queue.pushToast kind text now
  | .coalesce kind text now window => queue.coalesceOrPush kind text now window
  | .tick now => queue.tickToasts now
  | .dismiss => queue.dismissNewestToast
  | .clear => queue.clearToasts

end ToastQueue

namespace StatusPane

variable (crates : Crates)

/-- The toast of an event. -/
def noticeToast (pane : StatusPane) (notice : Notice) (now : Nat) : Option ToastAction :=
  (notice.uuid crates "account_id").bind fun account =>
    if notice.topic = "mail.new" then
      some (.push .info (pane.mailNewText account (notice.uuid crates "folder_id")) now)
    else if notice.topic = "account.synced" then
      some (.coalesce .info (pane.syncedText account) now coalesceAccountSynced)
    else if notice.topic = "sync.state" ∧
        ((notice.data.get "state").bind Value.asStr).bind parseSyncStateStr = some .error then
      some (.coalesce .error
        (pane.failureText account ((notice.data.get "last_error").bind Value.asStr)) now
        coalesceSyncError)
    else none

def toastAction (pane : StatusPane) : PaneAction → Option ToastAction
  | .event notice now => pane.noticeToast crates notice now
  | .tick now => some (.tick now)
  | .dismiss => some .dismiss
  | .clear => some .clear
  | .toast kind text now => some (.push kind text now)
  | .refuse text now => some (.coalesce .info text now coalescePaneRefusal)
  | .accounts _ | .panes _ => none

variable {crates} {pane pane' : StatusPane} {a : PaneAction}

theorem queue_announce (notice : Notice) (now : Nat) :
    (pane.announce crates notice now).queue =
      (pane.noticeToast crates notice now).elim pane.queue pane.queue.act := by
  unfold announce noticeToast
  cases notice.uuid crates "account_id" with
  | none => rfl
  | some account =>
    simp only [Option.bind_some]
    split_ifs with hmail hsynced hsync herror herror
    · rfl
    · rfl
    · rw [herror.2]
      rfl
    · cases hstate : ((notice.data.get "state").bind Value.asStr).bind parseSyncStateStr with
      | none => rfl
      | some state =>
        have hne : state ≠ .error := fun heq => herror ⟨hsync, by rw [hstate, heq]⟩
        simp [applySyncState, hne]
    · exact absurd herror.1 hsync
    · rfl

/-- Every step changes the queue by at most one action. -/
theorem queue_of_step (hstep : pane.step crates a = some pane') :
    pane'.queue = (pane.toastAction crates a).elim pane.queue pane.queue.act := by
  cases a with
  | event notice now =>
    cases hstep
    exact queue_announce notice now
  | panes app =>
    simp only [step] at hstep
    split_ifs at hstep
    cases hstep
    rfl
  | tick | dismiss | clear | toast | refuse | accounts =>
    cases hstep
    rfl

end StatusPane

/-! ## The queue of toasts -/

section Refresh

variable {found : Toast → Bool} {expiresAt : Nat} {toasts refreshed : List Toast}

theorem not_found_of_refreshLast (h : refreshLast found expiresAt toasts = none) :
    ∀ toast ∈ toasts, found toast = false := by
  induction toasts with
  | nil => exact fun _ hmem => nomatch hmem
  | cons toast rest ih =>
    simp only [refreshLast] at h
    cases hrest : refreshLast found expiresAt rest with
    | some rest' => simp [hrest] at h
    | none =>
      have hnot : found toast = false := by simpa [hrest] using h
      exact List.forall_mem_cons.mpr ⟨hnot, ih hrest⟩

theorem refreshLast_split (h : refreshLast found expiresAt toasts = some refreshed) :
    ∃ front toast back, toasts = front ++ toast :: back ∧ found toast = true ∧
      (∀ later ∈ back, found later = false) ∧
      refreshed = front ++ { toast with expiresAt } :: back := by
  induction toasts generalizing refreshed with
  | nil => cases h
  | cons toast rest ih =>
    simp only [refreshLast] at h
    cases hrest : refreshLast found expiresAt rest with
    | some rest' =>
      rw [hrest] at h
      cases h
      obtain ⟨front, toast', back, rfl, hfound, hback, rfl⟩ := ih hrest
      exact ⟨toast :: front, toast', back, rfl, hfound, hback, rfl⟩
    | none =>
      simp only [hrest, Option.ite_none_right_eq_some, Option.some.injEq] at h
      obtain ⟨hfound, rfl⟩ := h
      exact ⟨[], toast, rest, rfl, hfound, not_found_of_refreshLast hrest, rfl⟩

end Refresh

namespace ToastQueue

open StatusPane (ToastAction)

variable {queue : ToastQueue} {kind : ToastKind} {text : String} {now window : Nat}

/-- The last recent toast is refreshed in its place; if there is none, one is pushed. -/
theorem coalesceOrPush_cases (queue : ToastQueue) (kind : ToastKind) (text : String)
    (now window : Nat) :
    (∃ front toast back, queue.toasts = front ++ toast :: back ∧
      toast.Recent kind text now window ∧
      (∀ later ∈ back, ¬ later.Recent kind text now window) ∧
      queue.coalesceOrPush kind text now window = { queue with
        toasts := front ++ { toast with expiresAt := now + kind.ttl } :: back }) ∨
    (∀ toast ∈ queue.toasts, ¬ toast.Recent kind text now window) ∧
      queue.coalesceOrPush kind text now window = queue.pushToast kind text now := by
  unfold coalesceOrPush coalesceToast
  cases h : refreshLast (fun toast => toast.Recent kind text now window) (now + kind.ttl)
    queue.toasts with
  | none =>
    refine .inr ⟨fun toast hmem hrecent => ?_, rfl⟩
    exact of_decide_eq_false (not_found_of_refreshLast h toast hmem) hrecent
  | some refreshed =>
    obtain ⟨front, toast, back, hsplit, hfound, hback, rfl⟩ := refreshLast_split h
    refine .inl ⟨front, toast, back, hsplit, of_decide_eq_true hfound, fun later hmem => ?_, rfl⟩
    exact of_decide_eq_false (hback later hmem)

/-- At most three toasts, each up for its time from some moment on, with ascending ids. `n`
bounds the toasts pushed so far. -/
structure Orderly (times : List Nat) (n : Nat) (queue : ToastQueue) : Prop where
  short : queue.toasts.length ≤ maxToasts
  timed : ∀ toast ∈ queue.toasts, ∃ time ∈ times, toast.expiresAt = time + toast.kind.ttl
  ascending : (queue.toasts.map fun toast => toast.id.toNat).Pairwise (· < ·)
  older : ∀ toast ∈ queue.toasts, toast.id.toNat < queue.nextToastId.toNat
  count : queue.nextToastId.toNat ≤ n

variable {times : List Nat} {n : Nat}

theorem Orderly.mono (h : queue.Orderly times n) {times' : List Nat} {n' : Nat}
    (htimes : ∀ time ∈ times, time ∈ times') (hle : n ≤ n') : queue.Orderly times' n' where
  short := h.short
  timed := fun toast hmem => by
    obtain ⟨time, htime, hexpires⟩ := h.timed toast hmem
    exact ⟨time, htimes time htime, hexpires⟩
  ascending := h.ascending
  older := h.older
  count := h.count.trans hle

/-- Toasts go. -/
theorem Orderly.sublist (h : queue.Orderly times n) {toasts : List Toast}
    (hsub : toasts.Sublist queue.toasts) : Orderly times n { queue with toasts } where
  short := hsub.length_le.trans h.short
  timed := fun toast hmem => h.timed toast (hsub.subset hmem)
  ascending := h.ascending.sublist (hsub.map _)
  older := fun toast hmem => h.older toast (hsub.subset hmem)
  count := h.count

theorem Orderly.pushToast (h : queue.Orderly times n) (hnow : now ∈ times)
    (hroom : n + 1 < 2 ^ 64) : (queue.pushToast kind text now).Orderly times (n + 1) := by
  have hcount := h.count
  have hshort := h.short
  have hmax : maxToasts = 3 := rfl
  have hnext : (queue.nextToastId + 1).toNat = queue.nextToastId.toNat + 1 := by
    rw [UInt64.toNat_add]
    exact Nat.mod_eq_of_lt (by show queue.nextToastId.toNat + 1 < 2 ^ 64; omega)
  have hsub : (if maxToasts ≤ queue.toasts.length then queue.toasts.tail
      else queue.toasts).Sublist queue.toasts := by
    split_ifs
    · exact List.tail_sublist _
    · exact List.Sublist.refl _
  have hkept := h.sublist hsub
  refine ⟨?_, fun toast hmem => ?_, ?_, fun toast hmem => ?_, ?_⟩
  · simp only [ToastQueue.pushToast, List.length_append, List.length_singleton]
    split_ifs with hfull
    · rw [List.length_tail]
      omega
    · omega
  · rcases List.mem_append.mp hmem with hmem | hmem
    · exact hkept.timed toast hmem
    · rw [List.mem_singleton.mp hmem]
      exact ⟨now, hnow, rfl⟩
  · simp only [ToastQueue.pushToast, List.map_append, List.map_singleton, List.pairwise_append]
    refine ⟨hkept.ascending, List.pairwise_singleton _ _, fun id hid id' hid' => ?_⟩
    obtain ⟨toast, hmem, rfl⟩ := List.mem_map.mp hid
    rw [List.mem_singleton.mp hid']
    exact hkept.older toast hmem
  · show toast.id.toNat < (queue.nextToastId + 1).toNat
    rw [hnext]
    rcases List.mem_append.mp hmem with hmem | hmem
    · exact (hkept.older toast hmem).trans (Nat.lt_succ_self _)
    · rw [List.mem_singleton.mp hmem]
      exact Nat.lt_succ_self _
  · show (queue.nextToastId + 1).toNat ≤ n + 1
    omega

theorem Orderly.refresh (h : queue.Orderly times n) {front back : List Toast} {toast : Toast}
    (hsplit : queue.toasts = front ++ toast :: back) (hnow : now ∈ times) :
    Orderly times n { queue with
      toasts := front ++ { toast with expiresAt := now + toast.kind.ttl } :: back } := by
  have hids : (front ++ { toast with expiresAt := now + toast.kind.ttl } :: back).map
      (fun toast => toast.id.toNat) = queue.toasts.map fun toast => toast.id.toNat := by
    simp [hsplit]
  have hold : ∀ other ∈ front ++ { toast with expiresAt := now + toast.kind.ttl } :: back,
      other ∈ queue.toasts ∨ other = { toast with expiresAt := now + toast.kind.ttl } := by
    intro other hmem
    rw [hsplit]
    simp only [List.mem_append, List.mem_cons] at hmem ⊢
    tauto
  refine ⟨?_, fun other hmem => ?_, hids ▸ h.ascending, fun other hmem => ?_, h.count⟩
  · have hshort := h.short
    rw [hsplit] at hshort
    simpa using hshort
  · rcases hold other hmem with hmem | rfl
    · exact h.timed other hmem
    · exact ⟨now, hnow, rfl⟩
  · rcases hold other hmem with hmem | rfl
    · exact h.older other hmem
    · exact h.older toast (by simp [hsplit])

theorem Orderly.coalesceOrPush (h : queue.Orderly times n) (hnow : now ∈ times)
    (hroom : n + 1 < 2 ^ 64) :
    (queue.coalesceOrPush kind text now window).Orderly times (n + 1) := by
  rcases coalesceOrPush_cases queue kind text now window with
    ⟨front, toast, back, hsplit, hrecent, -, heq⟩ | ⟨-, heq⟩
  · rw [heq, ← hrecent.1.1]
    exact (h.refresh hsplit hnow).mono (fun _ => id) (Nat.le_succ n)
  · rw [heq]
    exact h.pushToast hnow hroom

/-- Of the toasts with one text only the last can be alive, and it is the last to expire. -/
def Single (kind : ToastKind) (text : String) (now : Nat) (queue : ToastQueue) : Prop :=
  queue.toasts.Pairwise fun older newer => older.Shows kind text → newer.Shows kind text →
    older.expiresAt ≤ now ∧ older.expiresAt ≤ newer.expiresAt

theorem Single.mono (h : queue.Single kind text now) {now' : Nat} (hle : now ≤ now') :
    queue.Single kind text now' :=
  List.Pairwise.imp (fun hpair hold hnew => ⟨(hpair hold hnew).1.trans hle, (hpair hold hnew).2⟩) h

theorem Single.pushToast (h : queue.Single kind text now) {kind' : ToastKind} {text' : String}
    (hgone : kind' = kind → text' = text →
      ∀ toast ∈ queue.toasts, toast.Shows kind text → toast.expiresAt ≤ now) :
    (queue.pushToast kind' text' now).Single kind text now := by
  unfold Single ToastQueue.pushToast
  refine List.pairwise_append.mpr ⟨?_, List.pairwise_singleton _ _, ?_⟩
  · split_ifs
    · exact h.sublist (List.tail_sublist _)
    · exact h
  · intro older hmem newer hnewer holder hshows
    rw [List.mem_singleton] at hnewer
    subst hnewer
    have hold : older ∈ queue.toasts := by
      split_ifs at hmem
      · exact List.mem_of_mem_tail hmem
      · exact hmem
    have hle := hgone hshows.1 hshows.2 older hold holder
    exact ⟨hle, hle.trans (Nat.le_add_right _ _)⟩

theorem Single.coalesceOrPush (h : queue.Single kind text now) {kind' : ToastKind} {text' : String}
    (hwindow : kind'.ttl ≤ window) :
    (queue.coalesceOrPush kind' text' now window).Single kind text now := by
  rcases coalesceOrPush_cases queue kind' text' now window with
    ⟨front, toast, back, hsplit, hrecent, hback, heq⟩ | ⟨hnone, heq⟩
  · rw [heq]
    unfold Single at h ⊢
    rw [hsplit, List.pairwise_append, List.pairwise_cons] at h
    obtain ⟨hfront, ⟨htoast, hrest⟩, hcross⟩ := h
    refine List.pairwise_append.mpr ⟨hfront, List.pairwise_cons.mpr ⟨?_, hrest⟩, ?_⟩
    · -- A later toast of the same text would have been the one that is found.
      intro later hmem hshows hlater
      have hshows' : toast.Shows kind text := hshows
      obtain ⟨-, hle⟩ := htoast later hmem hshows' hlater
      have hkind : kind' = kind := hrecent.1.1.symm.trans hshows'.1
      have htext : text' = text := hrecent.1.2.symm.trans hshows'.2
      refine absurd ⟨?_, hrecent.2.trans (Nat.add_le_add_right hle _)⟩ (hback later hmem)
      rw [hkind, htext]
      exact hlater
    · intro older hmem newer hnewer holder hshows
      rcases List.mem_cons.mp hnewer with rfl | hnewer
      · obtain ⟨hle, -⟩ := hcross older hmem toast List.mem_cons_self holder hshows
        exact ⟨hle, hle.trans (Nat.le_add_right _ _)⟩
      · exact hcross older hmem newer (List.mem_cons_of_mem _ hnewer) holder hshows
  · rw [heq]
    refine h.pushToast fun hkind htext toast hmem hshows => ?_
    have hnot := hnone toast hmem
    rw [Toast.Recent, hkind, htext, not_and] at hnot
    have hlate := hnot hshows
    rw [hkind] at hwindow
    omega

theorem Single.sublist (h : queue.Single kind text now) {toasts : List Toast}
    (hsub : toasts.Sublist queue.toasts) : Single kind text now { queue with toasts } :=
  List.Pairwise.sublist hsub h

/-- At most one of them is alive. -/
theorem Single.alive_le_one (h : queue.Single kind text now) :
    (queue.toasts.filter fun toast =>
      decide (toast.Shows kind text) && decide (now < toast.expiresAt)).length ≤ 1 := by
  have hpairs := List.Pairwise.filter (fun toast =>
    decide (toast.Shows kind text) && decide (now < toast.expiresAt)) h
  cases hlive : queue.toasts.filter fun toast =>
      decide (toast.Shows kind text) && decide (now < toast.expiresAt) with
  | nil => exact Nat.zero_le _
  | cons first rest =>
    cases rest with
    | nil => exact le_rfl
    | cons second rest =>
      have hfirst : first ∈ queue.toasts.filter fun toast =>
          decide (toast.Shows kind text) && decide (now < toast.expiresAt) := by simp [hlive]
      have hsecond : second ∈ queue.toasts.filter fun toast =>
          decide (toast.Shows kind text) && decide (now < toast.expiresAt) := by simp [hlive]
      simp only [List.mem_filter, Bool.and_eq_true, decide_eq_true_eq] at hfirst hsecond
      rw [hlive, List.pairwise_cons] at hpairs
      obtain ⟨hle, -⟩ := hpairs.1 second List.mem_cons_self hfirst.2.1 hsecond.2.1
      omega

variable {action : ToastAction} {clock : Nat}

theorem Orderly.act (h : queue.Orderly times n) (htime : ∀ now ∈ action.time, now ∈ times)
    (hroom : n + 1 < 2 ^ 64) : (queue.act action).Orderly times (n + 1) := by
  have hmore : ∀ {queue' : ToastQueue}, queue'.Orderly times n → queue'.Orderly times (n + 1) :=
    fun h' => h'.mono (fun _ => id) (Nat.le_succ n)
  cases action with
  | push kind text now => exact h.pushToast (htime now rfl) hroom
  | coalesce kind text now window => exact h.coalesceOrPush (htime now rfl) hroom
  | tick now => exact hmore (h.sublist List.filter_sublist)
  | dismiss => exact hmore (h.sublist (List.dropLast_sublist _))
  | clear => exact hmore (h.sublist (List.nil_sublist _))

theorem Single.act (h : queue.Single kind text clock) (htime : ∀ time ∈ action.time, clock ≤ time)
    (hpush : ¬ action.Pushes kind text) (hwaits : action.Waits) :
    (queue.act action).Single kind text (action.time.getD clock) := by
  cases action with
  | push kind' text' now =>
    exact (h.mono (htime now rfl)).pushToast fun hkind htext => absurd ⟨hkind, htext⟩ hpush
  | coalesce kind' text' now window => exact (h.mono (htime now rfl)).coalesceOrPush hwaits
  | tick now => exact (h.mono (htime now rfl)).sublist List.filter_sublist
  | dismiss => exact h.sublist (List.dropLast_sublist _)
  | clear => exact h.sublist (List.nil_sublist _)

end ToastQueue

namespace StatusPane

variable {crates : Crates} {pane pane' : StatusPane} {a : PaneAction} {acts : List PaneAction}

/-- When the client did something. -/
def times (acts : List PaneAction) : List Nat := acts.filterMap PaneAction.time

theorem times_snoc (acts : List PaneAction) (a : PaneAction) :
    times (acts ++ [a]) = times acts ++ a.time.toList := by
  unfold times
  rw [List.filterMap_append]
  cases h : a.time <;> simp [h]

theorem noticeToast_cases {notice : Notice} {now : Nat} {action : ToastAction}
    (h : pane.noticeToast crates notice now = some action) :
    action.time = some now ∧ action.Waits := by
  unfold noticeToast at h
  obtain ⟨account, -, h⟩ := Option.bind_eq_some_iff.mp h
  split_ifs at h <;> cases h <;> refine ⟨rfl, ?_⟩
  · trivial
  · show toastTtlInfo ≤ coalesceAccountSynced
    decide
  · show toastTtlError ≤ coalesceSyncError
    decide

theorem toastAction_cases {action : ToastAction} (h : pane.toastAction crates a = some action) :
    action.time = a.time ∧ action.Waits := by
  cases a with
  | event notice now => exact noticeToast_cases h
  | refuse text now =>
    cases h
    refine ⟨rfl, ?_⟩
    show toastTtlInfo ≤ coalescePaneRefusal
    decide
  | tick | dismiss | clear | toast =>
    cases h
    exact ⟨rfl, trivial⟩
  | accounts | panes => cases h

theorem orderly_of_run (hlength : acts.length < 2 ^ 64)
    (hrun : run (step crates) initial acts = some pane) :
    pane.queue.Orderly (times acts) acts.length := by
  revert hlength
  refine history_invariant (step crates) (P := fun acts pane =>
    acts.length < 2 ^ 64 → pane.queue.Orderly (times acts) acts.length) ?_ ?_ hrun
  · intro _
    refine ⟨Nat.zero_le _, ?_, List.Pairwise.nil, ?_, Nat.zero_le _⟩ <;>
      exact fun toast hmem => nomatch hmem
  · intro acts pane a pane' _ ih hstep hlength
    rw [List.length_append, List.length_singleton] at hlength ⊢
    have htimes : ∀ time ∈ times acts, time ∈ times (acts ++ [a]) := by
      intro time hmem
      rw [times_snoc]
      exact List.mem_append_left _ hmem
    have hbefore := (ih (by omega)).mono htimes le_rfl
    rw [queue_of_step hstep]
    cases haction : pane.toastAction crates a with
    | none => exact hbefore.mono (fun _ => id) (Nat.le_succ _)
    | some action =>
      refine hbefore.act (fun now hnow => ?_) hlength
      rw [(toastAction_cases haction).1] at hnow
      rw [times_snoc, hnow]
      exact List.mem_append_right _ (List.mem_singleton_self now)

/-- The step does not put this text up without a look at what is there. -/
def Coalesces (crates : Crates) (kind : ToastKind) (text : String) (pane : StatusPane)
    (a : PaneAction) : Prop :=
  ∀ action ∈ pane.toastAction crates a, ¬ action.Pushes kind text

theorem single_of_run {kind : ToastKind} {text : String} (hclock : (times acts).Pairwise (· ≤ ·))
    (hguard : Guarded (step crates) (Coalesces crates kind text) initial acts)
    (hrun : run (step crates) initial acts = some pane) :
    pane.queue.Single kind text ((times acts).getLast?.getD 0) := by
  revert hclock
  refine guarded_history (step crates) (P := fun acts pane => (times acts).Pairwise (· ≤ ·) →
    pane.queue.Single kind text ((times acts).getLast?.getD 0)) ?_ ?_ hguard hrun
  · exact fun _ => List.Pairwise.nil
  · intro acts pane a pane' _ ih hok hstep hclock
    rw [times_snoc, List.pairwise_append] at hclock
    obtain ⟨hacts, -, hlast⟩ := hclock
    have hlate : ∀ time ∈ a.time, (times acts).getLast?.getD 0 ≤ time := by
      intro time htime
      cases hbefore : (times acts).getLast? with
      | none => exact Nat.zero_le _
      | some last =>
        exact hlast last (List.mem_of_getLast? hbefore) time (by simp [Option.mem_def.mp htime])
    have hnow : (times (acts ++ [a])).getLast?.getD 0 =
        a.time.getD ((times acts).getLast?.getD 0) := by
      rw [times_snoc]
      cases a.time <;> simp
    have hbefore := ih hacts
    rw [hnow, queue_of_step hstep]
    cases haction : pane.toastAction crates a with
    | none =>
      cases htime : a.time with
      | none => exact hbefore
      | some now => exact hbefore.mono (hlate now htime)
    | some action =>
      obtain ⟨htime, hwaits⟩ := toastAction_cases haction
      rw [← htime] at hlate ⊢
      exact hbefore.act hlate (hok action haction) hwaits

/-- In every run at most three toasts are up, in the order of their ids; each was put up or
refreshed at some moment of the run and expires its kind's time later. Once the clock is past
what happened, no text that is always coalesced is up twice and alive. -/
theorem toasts_orderly (hclock : (times acts).Pairwise (· ≤ ·)) (hlength : acts.length < 2 ^ 64)
    (hrun : run (step crates) initial acts = some pane) :
    pane.queue.Orderly (times acts) acts.length ∧
    ∀ kind text now, Guarded (step crates) (Coalesces crates kind text) initial acts →
      (∀ time ∈ times acts, time ≤ now) →
      (pane.queue.toasts.filter fun toast =>
        decide (toast.Shows kind text) && decide (now < toast.expiresAt)).length ≤ 1 := by
  refine ⟨orderly_of_run hlength hrun, fun kind text now hguard hnow => ?_⟩
  refine ((single_of_run hclock hguard hrun).mono ?_).alive_le_one
  cases hlast : (times acts).getLast? with
  | none => exact Nat.zero_le _
  | some last => exact hnow last (List.mem_of_getLast? hlast)

/-! The wrong key is pressed twice, with another toast in between. -/

def wrongKeys : List PaneAction :=
  [.refuse "a approves" 1, .toast .warn "no file" 2, .refuse "a approves" 3]

theorem toasts_orderly_wrongKeys : ∃ pane, run (step .plain) initial wrongKeys = some pane ∧
    pane.queue.toasts.map Toast.text = ["a approves", "no file"] ∧
    pane.queue.Orderly (times wrongKeys) wrongKeys.length ∧
    (pane.queue.toasts.filter fun toast =>
      decide (toast.Shows .info "a approves") && decide (3 < toast.expiresAt)).length ≤ 1 := by
  refine ⟨_, rfl, rfl, ?_⟩
  have hrun : run (step .plain) initial wrongKeys = some _ := rfl
  obtain ⟨horderly, hone⟩ := toasts_orderly (by decide) (by decide) hrun
  refine ⟨horderly, hone .info "a approves" 3 ?_ (by decide)⟩
  simp [wrongKeys, Guarded, Coalesces, toastAction, ToastAction.Pushes, step]

end StatusPane

/-! ## How long a failure is up -/

namespace ToastQueue

open StatusPane (ToastAction)

variable {queue : ToastQueue} {toast : Toast} {room : Nat}

/-- The toast, or what a refresh has made of it, is up with at most `room` toasts behind it. -/
def Stands (toast : Toast) (room : Nat) (queue : ToastQueue) : Prop :=
  ∃ front kept back, queue.toasts = front ++ kept :: back ∧ kept.id = toast.id ∧
    kept.Shows toast.kind toast.text ∧ toast.expiresAt ≤ kept.expiresAt ∧ back.length ≤ room

theorem Stands.mono (h : queue.Stands toast room) {room' : Nat} (hle : room ≤ room') :
    queue.Stands toast room' := by
  obtain ⟨front, kept, back, hsplit, hid, hshows, hexpires, hback⟩ := h
  exact ⟨front, kept, back, hsplit, hid, hshows, hexpires, hback.trans hle⟩

/-- The oldest toast goes only if there are three; ours has fewer than two behind it. -/
theorem Stands.pushToast (h : queue.Stands toast room) (hroom : room + 1 < maxToasts)
    (kind : ToastKind) (text : String) (now : Nat) :
    (queue.pushToast kind text now).Stands toast (room + 1) := by
  obtain ⟨front, kept, back, hsplit, hid, hshows, hexpires, hback⟩ := h
  have hlength : ∀ new : Toast, (back ++ [new]).length ≤ room + 1 := by
    intro new
    rw [List.length_append, List.length_singleton]
    omega
  unfold ToastQueue.pushToast Stands
  rw [hsplit]
  split_ifs with hfull
  · cases front with
    | nil =>
      rw [List.nil_append, List.length_cons] at hfull
      omega
    | cons oldest front =>
      exact ⟨front, kept, back ++ [_], List.append_assoc .., hid, hshows, hexpires, hlength _⟩
  · exact ⟨front, kept, back ++ [_], List.append_assoc .., hid, hshows, hexpires, hlength _⟩

theorem Stands.coalesceOrPush (h : queue.Stands toast room) (hroom : room + 1 < maxToasts)
    (kind : ToastKind) (text : String) {now : Nat} (window : Nat)
    (hlate : toast.expiresAt ≤ now + toast.kind.ttl) :
    (queue.coalesceOrPush kind text now window).Stands toast (room + 1) := by
  rcases coalesceOrPush_cases queue kind text now window with
    ⟨front', found, back', hsplit', hrecent, -, heq⟩ | ⟨-, heq⟩
  · rw [heq]
    refine Stands.mono ?_ (Nat.le_succ room)
    obtain ⟨front, kept, back, hsplit, hid, hshows, hexpires, hback⟩ := h
    rcases split_of_replaced (hsplit.symm.trans hsplit')
        { found with expiresAt := now + kind.ttl } with ⟨rfl, rfl, rfl⟩ | ⟨front₂, back₂, hnew, hlen⟩
    · refine ⟨front, _, back, rfl, hid, hshows, ?_, hback⟩
      have hkind : toast.kind = kind := hshows.1.symm.trans hrecent.1.1
      exact hkind ▸ hlate
    · exact ⟨front₂, kept, back₂, hnew, hid, hshows, hexpires, hlen ▸ hback⟩
  · rw [heq]
    exact h.pushToast hroom kind text now

theorem Stands.tickToasts (h : queue.Stands toast room) {now : Nat}
    (halive : now < toast.expiresAt) : (queue.tickToasts now).Stands toast room := by
  obtain ⟨front, kept, back, hsplit, hid, hshows, hexpires, hback⟩ := h
  have hkept : now < kept.expiresAt := halive.trans_le hexpires
  refine ⟨front.filter fun toast => now < toast.expiresAt, kept,
    back.filter fun toast => now < toast.expiresAt, ?_, hid, hshows, hexpires,
    (List.length_filter_le _ _).trans hback⟩
  simp [ToastQueue.tickToasts, hsplit, hkept]

end ToastQueue

namespace StatusPane

variable {crates : Crates} {pane pane' : StatusPane} {a : PaneAction} {acts : List PaneAction}

/-- From `start` on and for less than the time of a failure, and no toast is taken away. -/
def Leaves (start : Nat) (a : PaneAction) : Prop :=
  a ≠ .dismiss ∧ a ≠ .clear ∧ ∀ time ∈ a.time, start ≤ time ∧ time < start + toastTtlError

theorem toasts_of_push {action : ToastAction} (haction : pane.toastAction crates a = some action)
    (hpush : (∃ kind text now, action = .push kind text now) ∨
      ∃ kind text now window, action = .coalesce kind text now window) : a.toasts = true := by
  cases a with
  | event | toast | refuse => rfl
  | tick | dismiss | clear =>
    cases haction
    rcases hpush with ⟨_, _, _, h⟩ | ⟨_, _, _, _, h⟩ <;> cases h
  | accounts | panes => cases haction

theorem removes_of_timeless {action : ToastAction}
    (haction : pane.toastAction crates a = some action) (htimeless : action.time = none) :
    a = .dismiss ∨ a = .clear := by
  have htime := (toastAction_cases haction).1.symm.trans htimeless
  cases a with
  | dismiss => exact .inl rfl
  | clear => exact .inr rfl
  | event | tick | toast | refuse => cases htime
  | accounts | panes => cases haction

theorem stands_of_step {start room : Nat} {toast : Toast} (hkind : toast.kind = .error)
    (hexpires : toast.expiresAt = start + toastTtlError) (h : pane.queue.Stands toast room)
    (hleaves : Leaves start a) (hroom : room + (if a.toasts then 1 else 0) < maxToasts)
    (hstep : pane.step crates a = some pane') :
    pane'.queue.Stands toast (room + if a.toasts then 1 else 0) := by
  obtain ⟨hdismiss, hclear, htime⟩ := hleaves
  rw [queue_of_step hstep]
  cases haction : pane.toastAction crates a with
  | none => exact h.mono (Nat.le_add_right _ _)
  | some action =>
    rw [← (toastAction_cases haction).1] at htime
    cases action with
    | push kind text now =>
      have htoasts := toasts_of_push haction (.inl ⟨_, _, _, rfl⟩)
      rw [htoasts] at hroom ⊢
      exact h.pushToast hroom kind text now
    | coalesce kind text now window =>
      have htoasts := toasts_of_push haction (.inr ⟨_, _, _, _, rfl⟩)
      rw [htoasts] at hroom ⊢
      refine h.coalesceOrPush hroom kind text window ?_
      rw [hexpires, hkind]
      exact Nat.add_le_add_right (htime now rfl).1 _
    | tick now =>
      refine ToastQueue.Stands.mono (h.tickToasts ?_) (Nat.le_add_right _ _)
      rw [hexpires]
      exact (htime now rfl).2
    | dismiss | clear =>
      rcases removes_of_timeless haction rfl with heq | heq
      · exact absurd heq hdismiss
      · exact absurd heq hclear

theorem stands_of_run {start room : Nat} {toast : Toast} (hkind : toast.kind = .error)
    (hexpires : toast.expiresAt = start + toastTtlError) (h : pane.queue.Stands toast room)
    (hleaves : ∀ a ∈ acts, Leaves start a) (hroom : room + acts.countP PaneAction.toasts < maxToasts)
    (hrun : run (step crates) pane acts = some pane') :
    pane'.queue.Stands toast (room + acts.countP PaneAction.toasts) := by
  revert hleaves hroom
  refine history_invariant (step crates) (P := fun acts pane' => (∀ a ∈ acts, Leaves start a) →
    room + acts.countP PaneAction.toasts < maxToasts →
    pane'.queue.Stands toast (room + acts.countP PaneAction.toasts)) (fun _ _ => h) ?_ hrun
  intro acts s a t _ ih hstep hleaves hroom
  rw [List.countP_append, List.countP_singleton, ← Nat.add_assoc] at hroom ⊢
  have hbefore := ih (fun a ha => hleaves a (List.mem_append_left _ ha)) (by omega)
  exact stands_of_step hkind hexpires hbefore (hleaves a (by simp)) hroom hstep

end StatusPane

end Postblox.Tui
