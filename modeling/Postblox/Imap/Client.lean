import Postblox.Lib.Saturating

/-!
# One folder fetch over IMAP

`fetchUidRange` selects a folder, plans one window of at most `fetchWindow` UIDs
and reads the `UID FETCH` stream of that window. Everything the server can do is
a `Session`: each phase may fail, and the stream is any list of items, good or
errored. Texts of errors come from the transport and are only passed on.
-/
namespace Postblox.Imap

open Lib

/-- Credential carrier shared by the IMAP and SMTP clients. -/
inductive MailCredential where
  | password (secret : String)
  | oauth2Bearer (accessToken : String)
  deriving DecidableEq

def MailCredential.secret : MailCredential → String
  | .password secret => secret
  | .oauth2Bearer accessToken => accessToken

def MailCredential.isEmpty (c : MailCredential) : Bool := c.secret.isEmpty

inductive ImapError where
  | io (error : String)
  | tls (error : String)
  | protocol (error : String)
  | auth (error : String)
  | unsupported (what : String)
  | invalidName (host : String)
  | invalidPort (raw : Int)
  | timeout (phase : String)
  deriving DecidableEq

def portU16 (raw : Int) : Except ImapError UInt16 :=
  if 0 ≤ raw ∧ raw ≤ 65535 then .ok (UInt16.ofNat raw.toNat) else .error (.invalidPort raw)

inductive Flag where
  | seen
  | answered
  | flagged
  | deleted
  | draft
  | recent
  | mayCreate
  | custom (c : String)
  deriving DecidableEq

/-- The wire form of a flag. -/
def flagName : Flag → String
  | .seen => "\\Seen"
  | .answered => "\\Answered"
  | .flagged => "\\Flagged"
  | .deleted => "\\Deleted"
  | .draft => "\\Draft"
  | .recent => "\\Recent"
  | .mayCreate => "\\*"
  | .custom c => c

/-- What the client reads from a `SELECT` response. -/
structure Mailbox where
  uidValidity : Option UInt32
  uidNext : Option UInt32
  existsCount : UInt32
  deriving DecidableEq

/-- One item of a `UID FETCH` stream. -/
structure Fetch where
  uid : Option UInt32
  flags : List Flag
  internalDate : Option Int
  body : Option (List UInt8)
  deriving DecidableEq

structure FetchStream where
  items : List (Except ImapError Fetch)
  /-- Reading the items ran into the network deadline. -/
  timedOut : Bool

/-- Everything the server does on one connection. -/
structure Session where
  connect : Except ImapError Unit
  select : Except ImapError Mailbox
  uidFetch : UInt32 → UInt32 → Except ImapError FetchStream

structure FetchedMessage where
  uid : UInt32
  flags : List String
  internalDate : Option Int
  raw : List UInt8
  deriving DecidableEq

structure FolderSync where
  uidValidity : Option UInt32
  uidNext : Option UInt32
  existsCount : UInt32
  messages : List FetchedMessage
  windowHi : UInt32
  hasMore : Bool
  deriving DecidableEq

def fetchWindow : UInt32 := 500

/-- The window of one fetch: nothing to pull, or a range of UIDs. -/
inductive Window where
  | caughtUp (windowHi : UInt32)
  | range (lo hi : UInt32) (hasMore : Bool)
  deriving DecidableEq

def window (mailbox : Mailbox) (fromUid : UInt32) : Window :=
  let lo := max fromUid 1
  let serverHi := mailbox.uidNext.map (saturatingSub · 1)
  let windowTop := saturatingAdd lo (fetchWindow - 1)
  if mailbox.existsCount = 0 ∨ serverHi.any (fun hi => hi < lo) then
    .caughtUp (serverHi.getD (saturatingSub lo 1))
  else
    match serverHi with
    | some hi => if windowTop < hi then .range lo windowTop true else .range lo hi false
    | none => .range lo windowTop false

/-- Keep the items that carry a UID and a body; errored items are dropped. -/
def fetchedMessage (item : Except ImapError Fetch) : Option FetchedMessage :=
  match item with
  | .error _ => none
  | .ok f =>
    match f.uid, f.body with
    | some uid, some raw =>
      some { uid, flags := f.flags.map flagName, internalDate := f.internalDate, raw }
    | _, _ => none

def fetchUidRange (session : Session) (fromUid : UInt32) : Except ImapError FolderSync := do
  let mailbox ← session.select
  match window mailbox fromUid with
  | .caughtUp windowHi =>
    return { uidValidity := mailbox.uidValidity, uidNext := mailbox.uidNext,
             existsCount := mailbox.existsCount, messages := [], windowHi, hasMore := false }
  | .range lo hi hasMore =>
    let stream ← session.uidFetch lo hi
    if stream.timedOut then .error (.timeout "uid_fetch body")
    else
      return { uidValidity := mailbox.uidValidity, uidNext := mailbox.uidNext,
               existsCount := mailbox.existsCount,
               messages := stream.items.filterMap fetchedMessage, windowHi := hi, hasMore }

/-- `ImapSync::sync_folder`: a fresh connection, one fetch, a logout whose outcome
is ignored. -/
def syncFolder (session : Session) (fromUid : UInt32) : Except ImapError FolderSync := do
  session.connect
  fetchUidRange session fromUid

/-! ## What a window covers -/

section Window

variable {mailbox : Mailbox} {fromUid lo hi windowHi n : UInt32} {hasMore : Bool}

theorem toNat_max_one (a : UInt32) : (max a 1).toNat = max a.toNat 1 := by
  have hdef : max a 1 = if a ≤ 1 then 1 else a := rfl
  have hone : (1 : UInt32).toNat = 1 := rfl
  rw [hdef]
  split_ifs with h
  · have hle := UInt32.le_iff_toNat_le.mp h
    omega
  · have hlt := UInt32.lt_iff_toNat_lt.mp (UInt32.not_le.mp h)
    omega

private theorem toNat_windowTop (a : UInt32) :
    (saturatingAdd a (fetchWindow - 1)).toNat = min (a.toNat + 499) u32Max :=
  toNat_saturatingAdd a _

private theorem toNat_serverHi (a : UInt32) : (saturatingSub a 1).toNat = a.toNat - 1 :=
  toNat_saturatingSub a 1

/-- With an advertised `UIDNEXT` a window ends with the highest assigned UID, or
short of it with more to come. -/
theorem window_range_of_next (hn : mailbox.uidNext = some n)
    (h : window mailbox fromUid = .range lo hi hasMore) :
    mailbox.existsCount ≠ 0 ∧ lo.toNat = max fromUid.toNat 1 ∧ lo.toNat ≤ hi.toNat ∧
      hi.toNat ≤ lo.toNat + 499 ∧
      if hasMore then hi.toNat + 1 < n.toNat else hi.toNat + 1 = n.toNat := by
  unfold window at h
  simp only [hn, Option.map_some, Option.any_some, decide_eq_true_eq] at h
  split_ifs at h with hdone htop
  · obtain ⟨hexists, -⟩ := not_or.mp hdone
    have hlt := UInt32.lt_iff_toNat_lt.mp htop
    rw [toNat_windowTop, toNat_serverHi] at hlt
    have hn' := toNat_le_u32Max n
    cases h
    rw [toNat_windowTop, toNat_max_one] at *
    refine ⟨hexists, rfl, ?_, ?_, ?_⟩
    · omega
    · omega
    · simp only [if_true]
      omega
  · obtain ⟨hexists, hle⟩ := not_or.mp hdone
    have hle' := UInt32.le_iff_toNat_le.mp (UInt32.not_lt.mp htop)
    have hlo := UInt32.le_iff_toNat_le.mp (UInt32.not_lt.mp hle)
    rw [toNat_windowTop] at hle'
    rw [toNat_serverHi] at hle' hlo
    have hn' := toNat_le_u32Max n
    cases h
    rw [toNat_serverHi, toNat_max_one] at *
    refine ⟨hexists, rfl, hlo, ?_, ?_⟩
    · omega
    · simp only [Bool.false_eq_true, if_false]
      omega

/-- Without `UIDNEXT` a single window of `fetchWindow` UIDs is asked for. -/
theorem window_range_of_unknown (hn : mailbox.uidNext = none)
    (h : window mailbox fromUid = .range lo hi hasMore) :
    mailbox.existsCount ≠ 0 ∧ lo.toNat = max fromUid.toNat 1 ∧
      hi.toNat = min (lo.toNat + 499) u32Max ∧ hasMore = false := by
  unfold window at h
  simp only [hn, Option.map_none, Option.any_none, Bool.false_eq_true, or_false] at h
  split_ifs at h with hexists
  cases h
  exact ⟨hexists, toNat_max_one fromUid, toNat_windowTop _, rfl⟩

theorem window_caughtUp_of_next (hn : mailbox.uidNext = some n)
    (h : window mailbox fromUid = .caughtUp windowHi) :
    windowHi.toNat = n.toNat - 1 ∧
      (mailbox.existsCount = 0 ∨ n.toNat ≤ max fromUid.toNat 1) := by
  unfold window at h
  simp only [hn, Option.map_some, Option.any_some, decide_eq_true_eq, Option.getD_some] at h
  split_ifs at h with hdone htop
  cases h
  refine ⟨toNat_serverHi n, hdone.imp_right fun hlt => ?_⟩
  have hlt' := UInt32.lt_iff_toNat_lt.mp hlt
  rw [toNat_serverHi, toNat_max_one] at hlt'
  omega

theorem window_caughtUp_of_unknown (hn : mailbox.uidNext = none)
    (h : window mailbox fromUid = .caughtUp windowHi) :
    mailbox.existsCount = 0 ∧ windowHi.toNat = max fromUid.toNat 1 - 1 := by
  unfold window at h
  simp only [hn, Option.map_none, Option.any_none, Bool.false_eq_true, or_false,
    Option.getD_none] at h
  split_ifs at h with hexists
  cases h
  rw [toNat_serverHi, toNat_max_one]
  exact ⟨hexists, rfl⟩

/-- Whatever the server reports, a window starts where it was asked to, spans at
most `fetchWindow` UIDs, and one with more to come ends before `u32::MAX`. -/
theorem window_range (h : window mailbox fromUid = .range lo hi hasMore) :
    lo.toNat = max fromUid.toNat 1 ∧ lo.toNat ≤ hi.toNat ∧ hi.toNat ≤ lo.toNat + 499 ∧
      (hasMore = true → hi.toNat + 1 < u32Max) := by
  cases hn : mailbox.uidNext with
  | none =>
    obtain ⟨-, hlo, hhi, hmore⟩ := window_range_of_unknown hn h
    have hmax := toNat_le_u32Max lo
    refine ⟨hlo, by omega, by omega, ?_⟩
    rw [hmore]
    exact fun habs => absurd habs Bool.false_ne_true
  | some n =>
    obtain ⟨-, hlo, hle, hspan, hmore⟩ := window_range_of_next hn h
    refine ⟨hlo, hle, hspan, fun htrue => ?_⟩
    have hn' := toNat_le_u32Max n
    rw [htrue, if_pos rfl] at hmore
    omega

end Window

/-- The range of UIDs a call of `syncFolder` asks the server for, if it comes to
that. -/
def requestedRange (session : Session) (fromUid : UInt32) : Option (UInt32 × UInt32) :=
  match session.connect, session.select with
  | .ok _, .ok mailbox =>
    match window mailbox fromUid with
    | .caughtUp _ => none
    | .range lo hi _ => some (lo, hi)
  | _, _ => none

/-- An answer without a fetch. -/
def FolderSync.nothing (mailbox : Mailbox) (windowHi : UInt32) : FolderSync :=
  { uidValidity := mailbox.uidValidity, uidNext := mailbox.uidNext,
    existsCount := mailbox.existsCount, messages := [], windowHi, hasMore := false }

/-- An answer with the items of one range. -/
def FolderSync.ofStream (mailbox : Mailbox) (items : List (Except ImapError Fetch))
    (windowHi : UInt32) (hasMore : Bool) : FolderSync :=
  { uidValidity := mailbox.uidValidity, uidNext := mailbox.uidNext,
    existsCount := mailbox.existsCount, messages := items.filterMap fetchedMessage,
    windowHi, hasMore }

/-- The two ways `syncFolder` answers. -/
theorem syncFolder_ok {session : Session} {fromUid : UInt32} {server : FolderSync}
    (h : syncFolder session fromUid = .ok server) :
    ∃ mailbox, session.select = .ok mailbox ∧
      ((∃ windowHi, window mailbox fromUid = .caughtUp windowHi ∧
          server = .nothing mailbox windowHi ∧ requestedRange session fromUid = none) ∨
        ∃ lo hi hasMore stream, window mailbox fromUid = .range lo hi hasMore ∧
          session.uidFetch lo hi = .ok stream ∧ stream.timedOut = false ∧
          server = .ofStream mailbox stream.items hi hasMore ∧
          requestedRange session fromUid = some (lo, hi)) := by
  unfold syncFolder at h
  cases hconnect : session.connect with
  | error e =>
    rw [hconnect] at h
    cases h
  | ok u =>
    cases hselect : session.select with
    | error e =>
      simp only [hconnect, fetchUidRange, hselect, bind, Except.bind, reduceCtorEq] at h
    | ok mailbox =>
      simp only [hconnect, fetchUidRange, hselect, bind, Except.bind] at h
      refine ⟨mailbox, rfl, ?_⟩
      cases hwindow : window mailbox fromUid with
      | caughtUp windowHi =>
        rw [hwindow] at h
        cases h
        refine .inl ⟨windowHi, rfl, rfl, ?_⟩
        simp only [requestedRange, hconnect, hselect, hwindow]
      | range lo hi hasMore =>
        cases hfetch : session.uidFetch lo hi with
        | error e =>
          simp only [hwindow, hfetch, reduceCtorEq] at h
        | ok stream =>
          simp only [hwindow, hfetch] at h
          split_ifs at h with htimeout
          cases h
          refine .inr ⟨lo, hi, hasMore, stream, rfl, hfetch, eq_false_of_ne_true htimeout, rfl, ?_⟩
          simp only [requestedRange, hconnect, hselect, hwindow]

/-- A kept item came in good order, with a UID and a body. -/
theorem fetchedMessage_eq_some {item : Except ImapError Fetch} {m : FetchedMessage}
    (h : fetchedMessage item = some m) :
    ∃ f, item = .ok f ∧ f.uid = some m.uid ∧ f.body = some m.raw := by
  cases item with
  | error e => cases h
  | ok f =>
    unfold fetchedMessage at h
    dsimp only at h
    split at h
    · next uid raw huid hbody =>
      cases h
      exact ⟨f, rfl, huid, hbody⟩
    · cases h

end Postblox.Imap
