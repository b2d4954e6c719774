import Postblox.Daemon.Args
import Postblox.Lib.Machine
import Postblox.Mail.Threading

/-!
# Accounts and their secrets

The two stores of the daemon, the rows of `accounts` and the secrets, and the operations
that touch them. Each operation works on one store at a time; `calls` are the requests
between two of their steps. A request fails or is dropped wherever it waits.
-/
namespace Postblox.Daemon.Secrets

open Json (Value)
open Args (parseId parseStr)
open Lib.Machine

inductive AuthKind where
  | password
  | oauth2Google
  deriving DecidableEq

/-- The columns of `accounts` that the operations here read or write. -/
structure Account where
  id : Uuid
  authKind : AuthKind
  secretRef : Option String
  deriving DecidableEq

/-- The operations that tell their caller that a secret is stored or removed. -/
inductive SecretOp where
  | setSecret
  | deleteSecret
  | googleComplete
  deriving DecidableEq

/-- A request by what it does next: store a password, store the tokens it waits for, write
refreshed tokens back, or note the reference of what it has stored or removed. -/
inductive Call where
  | setting (id : Uuid) (password : String)
  | exchanging (id : Uuid)
  | refreshing (id : Uuid)
  | stored (id : Uuid) (op : SecretOp)
  | removed (id : Uuid)
  deriving DecidableEq

/-- `acks` are the secret operations that have returned `Ok`, latest first. -/
structure Vault where
  accounts : List Account
  secrets : Uuid → Option String
  calls : List Call
  acks : List (Uuid × SecretOp)

def Vault.empty : Vault where
  accounts := []
  secrets _ := none
  calls := []
  acks := []

namespace Vault

variable (crates : Crates)

/-- `accounts::get`. -/
def account (v : Vault) (id : Uuid) : Option Account := v.accounts.find? (·.id = id)

def lastAck (v : Vault) (id : Uuid) : Option SecretOp := v.acks.lookup id

/-! ## The checks -/

/-- `op_account_set_secret` up to `secrets.put`. -/
def setSecretArgs (v : Vault) (args : Value) : Except RpcError (Uuid × String) := do
  let id ← parseId crates args "account_id"
  let password ← match (args.get "password").bind Value.asStr with
    | none => throw (.badArgs "missing 'password'")
    | some password => pure password
  if password = "" then throw (.badArgs "'password' must be non-empty")
  match v.account id with
  | none => throw (.badArgs "unknown account_id")
  | some account =>
    if account.authKind ≠ .password then
      throw (.badArgs "account.set_secret only supports password accounts")
    return (id, password)

def ensureOauthGoogleAccount (v : Vault) (id : Uuid) : Except RpcError Unit :=
  match v.account id with
  | none => throw (.badArgs "unknown account_id")
  | some account =>
    if account.authKind ≠ .oauth2Google then
      throw (.badArgs "account auth_kind must be oauth2_google")
    else pure ()

/-- `GMAIL_SCOPE`. -/
def gmailScope : String := "https://mail.google.com/"

def parseScope (value : Value) : Except RpcError String := do
  match value.asStr with
  | none => throw (.badArgs "'scopes' must contain strings")
  | some text =>
    let scope := String.ofList (Mail.trim text.toList)
    if scope = "" then throw (.badArgs "'scopes' must not contain empty strings")
    return scope

def parseOptionalScopes (args : Value) : Except RpcError (Option (List String)) :=
  match args.get "scopes" with
  | none => pure none
  | some value =>
    match value.asArray with
    | none => throw (.badArgs "'scopes' must be an array")
    | some values => some <$> values.mapM parseScope

def ensureRequestedScopesAreGmail (args : Value) : Except RpcError Unit := do
  match ← parseOptionalScopes args with
  | none => pure ()
  | some scopes =>
    if scopes = [gmailScope] then pure ()
    else throw (.badArgs "only the Gmail OAuth scope is supported")

/-- `op_oauth_google_complete` up to `exchange_code`. -/
def googleCompleteArgs (v : Vault) (args : Value) : Except RpcError Uuid := do
  let id ← parseId crates args "account_id"
  let _ ← parseStr args "client_id"
  let _ ← parseStr args "client_secret"
  let _ ← parseStr args "redirect_uri"
  let _ ← parseStr args "code"
  let state ← parseStr args "state"
  let expectedState ← parseStr args "expected_state"
  if state ≠ expectedState then throw (.badArgs "'state' does not match 'expected_state'")
  v.ensureOauthGoogleAccount id
  ensureRequestedScopesAreGmail args
  return id

/-! ## The steps -/

/-- `SecretStore::secret_ref`. -/
def secretRef (id : Uuid) : String := s!"account:{id.hyphenated}"

/-- `accounts::set_secret_ref`. -/
def setSecretRef (v : Vault) (id : Uuid) (ref : Option String) : List Account :=
  v.accounts.map fun a => if a.id = id then { a with secretRef := ref } else a

inductive Action where
  | accountCreate (id : Uuid) (kind : AuthKind)
  | accountDelete (args : Value)
  | setSecret (args : Value)
  | deleteSecret (args : Value)
  | googleComplete (args : Value)
  | credentialFor (account : Account)
  | put (call : Call)
  | putTokens (call : Call) (stored : String)
  | acknowledge (call : Call)
  | fail (call : Call)

/-- An operation that its check refuses changes nothing. The id of a new account is a fresh
UUID; `credentialFor` has an account its caller has loaded before, and is a step only where
it goes on to a refresh. -/
def step (v : Vault) : Action → Option Vault
  | .accountCreate id kind =>
    if (v.account id).isSome then none
    else some { v with accounts := v.accounts ++ [⟨id, kind, none⟩] }
  | .accountDelete args =>
    match parseId crates args "id" with
    | .error _ => some v
    | .ok id => some { v with accounts := v.accounts.filter (·.id ≠ id) }
  | .setSecret args =>
    match v.setSecretArgs crates args with
    | .error _ => some v
    | .ok (id, password) => some { v with calls := .setting id password :: v.calls }
  | .deleteSecret args =>
    match parseId crates args "account_id" with
    | .error _ => some v
    | .ok id => some { v with
        secrets := Function.update v.secrets id none, calls := .removed id :: v.calls }
  | .googleComplete args =>
    match v.googleCompleteArgs crates args with
    | .error _ => some v
    | .ok id => some { v with calls := .exchanging id :: v.calls }
  | .credentialFor account =>
    if account.authKind = .oauth2Google && (v.secrets account.id).isSome then
      some { v with calls := .refreshing account.id :: v.calls }
    else none
  | .put call =>
    match call with
    | .setting id password =>
      if call ∈ v.calls then
        some { v with
          secrets := Function.update v.secrets id (some password)
          calls := .stored id .setSecret :: v.calls.erase call }
      else none
    | _ => none
  | .putTokens call stored =>
    match call with
    | .exchanging id =>
      if call ∈ v.calls then
        some { v with
          secrets := Function.update v.secrets id (some stored)
          calls := .stored id .googleComplete :: v.calls.erase call }
      else none
    | .refreshing id =>
      if call ∈ v.calls then
        some { v with
          secrets := Function.update v.secrets id (some stored), calls := v.calls.erase call }
      else none
    | _ => none
  | .acknowledge call =>
    match call with
    | .stored id op =>
      if call ∈ v.calls then
        some { v with
          accounts := v.setSecretRef id (some (secretRef id)), calls := v.calls.erase call
          acks := (id, op) :: v.acks }
      else none
    | .removed id =>
      if call ∈ v.calls then
        some { v with
          accounts := v.setSecretRef id none, calls := v.calls.erase call
          acks := (id, .deleteSecret) :: v.acks }
      else none
    | _ => none
  | .fail call => if call ∈ v.calls then some { v with calls := v.calls.erase call } else none

/-! ## No orphan secrets -/

/-- In a state with no request in progress, secrets belong to accounts, and there is none
where the last acknowledged operation has removed it. -/
def NoOrphans (v : Vault) : Prop :=
  v.calls = [] → ∀ id, v.secrets id ≠ none →
    (v.account id).isSome ∧ v.lastAck id ≠ some .deleteSecret

/-- The steps that leave no orphan: an account goes after its secret, a secret is stored
while its account is there and no removal of it is about to be acknowledged, refreshed
tokens are written back to an entry that is still there, and what is stored after an
acknowledged removal is acknowledged too. -/
def Orderly (v : Vault) : Action → Prop
  | .accountDelete args =>
    match parseId crates args "id" with
    | .ok id => v.secrets id = none
    | .error _ => True
  | .put (.setting id _) | .putTokens (.exchanging id) _ =>
    (v.account id).isSome ∧ .removed id ∉ v.calls
  | .putTokens (.refreshing id) _ => v.secrets id ≠ none
  | .fail (.stored id _) => v.lastAck id = some .deleteSecret → v.secrets id = none
  | _ => True

instance (v : Vault) : (a : Action) → Decidable (v.Orderly crates a)
  | .accountDelete args =>
    match hid : parseId crates args "id" with
    | .ok id => decidable_of_iff (v.secrets id = none) (by simp [Orderly, hid])
    | .error _ => isTrue (by simp [Orderly, hid])
  | .put (.setting id _) | .putTokens (.exchanging id) _ =>
    inferInstanceAs (Decidable ((v.account id).isSome = true ∧ Call.removed id ∉ v.calls))
  | .putTokens (.refreshing id) _ => inferInstanceAs (Decidable (v.secrets id ≠ none))
  | .fail (.stored id _) =>
    inferInstanceAs (Decidable (v.lastAck id = some .deleteSecret → v.secrets id = none))
  | .accountCreate _ _ | .setSecret _ | .deleteSecret _ | .googleComplete _ | .credentialFor _
  | .acknowledge _ | .put (.exchanging _) | .put (.refreshing _) | .put (.stored _ _)
  | .put (.removed _) | .putTokens (.setting _ _) _ | .putTokens (.stored _ _) _
  | .putTokens (.removed _) _ | .fail (.setting _ _) | .fail (.exchanging _)
  | .fail (.refreshing _) | .fail (.removed _) => inferInstanceAs (Decidable True)

/-! ## Every run -/

/-- `pending`: a secret whose removal is acknowledged is gone, or an operation that has
stored it again is still to be acknowledged. -/
structure Kept (v : Vault) : Prop where
  owned : ∀ id, v.secrets id ≠ none → (v.account id).isSome
  removed : ∀ id, .removed id ∈ v.calls → v.secrets id = none
  stores : ∀ id op, .stored id op ∈ v.calls → op ≠ .deleteSecret
  pending : ∀ id, v.lastAck id = some .deleteSecret → v.secrets id ≠ none →
    ∃ op, .stored id op ∈ v.calls

variable {crates} {v w : Vault}

theorem account_isSome {id : Uuid} : (v.account id).isSome ↔ ∃ a ∈ v.accounts, a.id = id := by
  simp [account, List.find?_isSome]

theorem isSome_setSecretRef {id id' : Uuid} {ref : Option String} {calls : List Call}
    {acks : List (Uuid × SecretOp)} (h : (v.account id').isSome) :
    (({ v with accounts := v.setSecretRef id ref, calls, acks } : Vault).account id').isSome := by
  obtain ⟨a, ha, rfl⟩ := account_isSome.mp h
  refine account_isSome.mpr ⟨_, List.mem_map_of_mem ha, ?_⟩
  split_ifs <;> rfl

theorem ne_none_of_update {secrets : Uuid → Option String} {id id' : Uuid} {secret : Option String}
    (hid : id' ≠ id) (h : Function.update secrets id secret id' ≠ none) : secrets id' ≠ none := by
  rwa [Function.update_of_ne hid] at h

/-- A new request. -/
theorem Kept.begin (h : v.Kept) {call : Call} (hremoved : ∀ id, call ≠ .removed id)
    (hstored : ∀ id op, call ≠ .stored id op) : Kept { v with calls := call :: v.calls } where
  owned := h.owned
  removed := by
    intro id hmem
    exact h.removed id ((List.mem_cons.mp hmem).resolve_left (hremoved id).symm)
  stores := by
    intro id op hmem
    exact h.stores id op ((List.mem_cons.mp hmem).resolve_left (hstored id op).symm)
  pending := by
    intro id hlast hsecret
    obtain ⟨op, hmem⟩ := h.pending id hlast hsecret
    exact ⟨op, List.mem_cons_of_mem _ hmem⟩

/-- A request that ends. -/
theorem Kept.erase (h : v.Kept) (call : Call)
    (hstored : ∀ id op, call = .stored id op → v.lastAck id = some .deleteSecret →
      v.secrets id = none) : Kept { v with calls := v.calls.erase call } where
  owned := h.owned
  removed := fun id hmem => h.removed id (List.mem_of_mem_erase hmem)
  stores := fun id op hmem => h.stores id op (List.mem_of_mem_erase hmem)
  pending := by
    intro id hlast hsecret
    obtain ⟨op, hmem⟩ := h.pending id hlast hsecret
    refine ⟨op, (List.mem_erase_of_ne ?_).mpr hmem⟩
    rintro rfl
    exact hsecret (hstored id op rfl hlast)

/-- A secret is stored by an operation that will be acknowledged. -/
theorem Kept.store (h : v.Kept) {id : Uuid} {call : Call} {op : SecretOp} (secret : String)
    (hop : op ≠ .deleteSecret) (haccount : (v.account id).isSome) (hremoved : .removed id ∉ v.calls)
    (hcall : ∀ id op, call ≠ .stored id op) :
    Kept { v with
      secrets := Function.update v.secrets id (some secret)
      calls := .stored id op :: v.calls.erase call } where
  owned := by
    intro id' hsecret
    by_cases hid : id' = id
    · exact hid ▸ haccount
    · exact h.owned id' (ne_none_of_update hid hsecret)
  removed := by
    intro id' hmem
    have hmem' : .removed id' ∈ v.calls :=
      List.mem_of_mem_erase ((List.mem_cons.mp hmem).resolve_left (fun heq => nomatch heq))
    have hid : id' ≠ id := by
      rintro rfl
      exact hremoved hmem'
    exact (Function.update_of_ne hid _ _).trans (h.removed id' hmem')
  stores := by
    intro id' op' hmem
    rcases List.mem_cons.mp hmem with hmem | hmem
    · cases hmem
      exact hop
    · exact h.stores id' op' (List.mem_of_mem_erase hmem)
  pending := by
    intro id' hlast hsecret
    by_cases hid : id' = id
    · exact ⟨op, hid ▸ List.mem_cons_self⟩
    · obtain ⟨op', hmem⟩ := h.pending id' hlast (ne_none_of_update hid hsecret)
      exact ⟨op', List.mem_cons_of_mem _ ((List.mem_erase_of_ne (hcall id' op').symm).mpr hmem)⟩

/-- Refreshed tokens go to an entry that is there. -/
theorem Kept.writeBack (h : v.Kept) {id : Uuid} (stored : String) (hentry : v.secrets id ≠ none) :
    Kept { v with
      secrets := Function.update v.secrets id (some stored)
      calls := v.calls.erase (.refreshing id) } := by
  have hsame : ∀ id', Function.update v.secrets id (some stored) id' ≠ none → v.secrets id' ≠ none := by
    intro id' hsecret
    by_cases hid : id' = id
    · exact hid ▸ hentry
    · exact ne_none_of_update hid hsecret
  have h' := h.erase (.refreshing id) (fun _ _ heq => (nomatch heq))
  refine ⟨fun id' hsecret => h.owned id' (hsame id' hsecret), fun id' hmem => ?_, h'.stores,
    fun id' hlast hsecret => h'.pending id' hlast (hsame id' hsecret)⟩
  have hid : id' ≠ id := by
    rintro rfl
    exact hentry (h'.removed id' hmem)
  exact (Function.update_of_ne hid _ _).trans (h'.removed id' hmem)

/-- The secret of an account is removed. -/
theorem Kept.remove (h : v.Kept) (id : Uuid) :
    Kept { v with
      secrets := Function.update v.secrets id none, calls := .removed id :: v.calls } := by
  have hne : ∀ id', Function.update v.secrets id none id' ≠ none → id' ≠ id := by
    rintro id' hsecret rfl
    exact hsecret (Function.update_self ..)
  refine ⟨fun id' hsecret => ?_, fun id' hmem => ?_, fun id' op hmem => ?_, fun id' hlast hsecret => ?_⟩
  · exact h.owned id' (ne_none_of_update (hne id' hsecret) hsecret)
  · by_cases hid : id' = id
    · exact hid ▸ Function.update_self ..
    · have hmem' := (List.mem_cons.mp hmem).resolve_left (fun heq => hid (by cases heq; rfl))
      exact (Function.update_of_ne hid _ _).trans (h.removed id' hmem')
  · exact h.stores id' op ((List.mem_cons.mp hmem).resolve_left (fun heq => nomatch heq))
  · obtain ⟨op, hmem⟩ := h.pending id' hlast (ne_none_of_update (hne id' hsecret) hsecret)
    exact ⟨op, List.mem_cons_of_mem _ hmem⟩

/-- An operation is acknowledged: what it has removed is gone. -/
theorem Kept.acknowledge (h : v.Kept) {id : Uuid} {op : SecretOp} {call : Call}
    (ref : Option String) (hcall : ∀ id' op', call = .stored id' op' → id' = id)
    (hgone : op = .deleteSecret → v.secrets id = none) :
    Kept { v with
      accounts := v.setSecretRef id ref, calls := v.calls.erase call, acks := (id, op) :: v.acks } where
  owned := fun id' hsecret => isSome_setSecretRef (h.owned id' hsecret)
  removed := fun id' hmem => h.removed id' (List.mem_of_mem_erase hmem)
  stores := fun id' op' hmem => h.stores id' op' (List.mem_of_mem_erase hmem)
  pending := by
    intro id' hlast hsecret
    by_cases hid : id' = id
    · subst hid
      have hop : op = .deleteSecret := by simpa [lastAck] using hlast
      exact absurd (hgone hop) hsecret
    · have hlast' : v.lastAck id' = some .deleteSecret := by
        simpa [lastAck, List.lookup_cons, beq_eq_false_iff_ne.mpr hid] using hlast
      obtain ⟨op', hmem⟩ := h.pending id' hlast' hsecret
      refine ⟨op', (List.mem_erase_of_ne ?_).mpr hmem⟩
      intro heq
      exact hid (hcall id' op' heq.symm)

theorem Kept.of_step {a : Action} (h : v.Kept) (hok : v.Orderly crates a)
    (hstep : v.step crates a = some w) : w.Kept := by
  cases a with
  | accountCreate id kind =>
    simp only [step] at hstep
    split_ifs at hstep
    cases hstep
    refine { h with owned := fun id' hsecret => ?_ }
    obtain ⟨a, ha, hid⟩ := account_isSome.mp (h.owned id' hsecret)
    exact account_isSome.mpr ⟨a, List.mem_append_left _ ha, hid⟩
  | accountDelete args =>
    simp only [step] at hstep
    split at hstep
    · cases hstep
      exact h
    · next id hid =>
      cases hstep
      simp only [Orderly, hid] at hok
      refine { h with owned := fun id' hsecret => ?_ }
      obtain ⟨a, ha, rfl⟩ := account_isSome.mp (h.owned id' hsecret)
      have hne : a.id ≠ id := by
        rintro rfl
        exact hsecret hok
      exact account_isSome.mpr ⟨a, List.mem_filter.mpr ⟨ha, decide_eq_true hne⟩, rfl⟩
  | setSecret args =>
    simp only [step] at hstep
    split at hstep
    · cases hstep
      exact h
    · cases hstep
      exact h.begin (fun _ heq => (nomatch heq)) (fun _ _ heq => (nomatch heq))
  | deleteSecret args =>
    simp only [step] at hstep
    split at hstep
    · cases hstep
      exact h
    · next id hid =>
      cases hstep
      exact h.remove id
  | googleComplete args =>
    simp only [step] at hstep
    split at hstep
    · cases hstep
      exact h
    · cases hstep
      exact h.begin (fun _ heq => (nomatch heq)) (fun _ _ heq => (nomatch heq))
  | credentialFor account =>
    simp only [step] at hstep
    split_ifs at hstep
    cases hstep
    exact h.begin (fun _ heq => (nomatch heq)) (fun _ _ heq => (nomatch heq))
  | put call =>
    cases call <;> simp only [step] at hstep <;> try cases hstep
    split_ifs at hstep
    cases hstep
    exact h.store _ (by decide) hok.1 hok.2 (fun _ _ heq => (nomatch heq))
  | putTokens call stored =>
    cases call <;> simp only [step] at hstep <;> try cases hstep
    · split_ifs at hstep
      cases hstep
      exact h.store stored (by decide) hok.1 hok.2 (fun _ _ heq => (nomatch heq))
    · split_ifs at hstep
      cases hstep
      exact h.writeBack stored hok
  | acknowledge call =>
    cases call <;> simp only [step] at hstep <;> try cases hstep
    · next id op =>
      split_ifs at hstep with hmem
      cases hstep
      refine h.acknowledge _ (fun id' op' heq => ?_) (fun hop => absurd hop (h.stores id op hmem))
      cases heq
      rfl
    · next id =>
      split_ifs at hstep with hmem
      cases hstep
      exact h.acknowledge none (fun _ _ heq => (nomatch heq)) (fun _ => h.removed id hmem)
  | fail call =>
    simp only [step] at hstep
    split_ifs at hstep
    cases hstep
    refine h.erase call fun id op heq hlast => ?_
    subst heq
    exact hok hlast

variable (crates)

/-- In every run of such steps, in whatever order the requests take them. -/
theorem no_orphans_of_orderly_run {acts : List Action} {v : Vault}
    (horderly : Guarded (step crates) (Orderly crates) .empty acts)
    (hrun : run (step crates) .empty acts = some v) : v.NoOrphans := by
  have hkept : v.Kept := by
    refine guarded_invariant (step crates) (I := Kept) ?_
      (fun _ _ _ h hok hstep => h.of_step hok hstep) horderly hrun
    constructor <;> simp [Vault.empty, lastAck]
  intro hquiet id hsecret
  refine ⟨hkept.owned id hsecret, fun hlast => ?_⟩
  obtain ⟨op, hmem⟩ := hkept.pending id hlast hsecret
  rw [hquiet] at hmem
  cases hmem

/-! Two password accounts, one of which is deleted after its secret; then an account that is
deleted with its secret, one that is deleted while its secret is being stored, tokens that
come back after `account.delete_secret`, and a secret that is stored during it. -/

def ada : Uuid := .filled 1

def bob : Uuid := .filled 2

def idArgs (key : String) (id : Uuid) : Value := .object [(key, .string id.hyphenated)]

def passwordArgs (id : Uuid) (password : String) : Value :=
  .object [("account_id", .string id.hyphenated), ("password", .string password)]

def completeArgs (id : Uuid) : Value :=
  .object [("account_id", .string id.hyphenated), ("client_id", .string "app"),
    ("client_secret", .string "s"), ("redirect_uri", .string "http://localhost"),
    ("code", .string "c"), ("state", .string "x"), ("expected_state", .string "x")]

def storePassword (id : Uuid) (password : String) : List Action :=
  [.setSecret (passwordArgs id password), .put (.setting id password),
    .acknowledge (.stored id .setSecret)]

def deleteStored (id : Uuid) : List Action :=
  [.deleteSecret (idArgs "account_id" id), .acknowledge (.removed id)]

def tidyRun : List Action :=
  [.accountCreate ada .password, .accountCreate bob .password] ++ storePassword ada "hunter2" ++
    storePassword bob "tulips" ++ deleteStored bob ++ [.accountDelete (idArgs "id" bob)]

theorem tidy_run_has_no_orphans :
    Guarded (step .plain) (Orderly .plain) .empty tidyRun ∧
    ∃ v, run (step .plain) .empty tidyRun = some v ∧ v.calls = [] ∧
      v.secrets ada = some "hunter2" ∧ v.NoOrphans := by
  have horderly : Guarded (step .plain) (Orderly .plain) .empty tidyRun := by decide
  have hend : (run (step .plain) .empty tidyRun).any (fun v => v.calls.isEmpty &&
      v.secrets ada = some "hunter2") = true := by decide
  rw [Option.any_eq_true] at hend
  obtain ⟨v, hv, hquiet⟩ := hend
  rw [Bool.and_eq_true, List.isEmpty_iff, decide_eq_true_iff] at hquiet
  exact ⟨horderly, v, hv, hquiet.1, hquiet.2, no_orphans_of_orderly_run .plain horderly hv⟩

/-- The secret of `id` is an orphan, and nothing is in progress. -/
def hasOrphan (v : Vault) (id : Uuid) : Bool :=
  v.calls.isEmpty && (v.secrets id).isSome &&
    ((v.account id).isNone || v.lastAck id = some .deleteSecret)

theorem not_noOrphans_of_hasOrphan {v : Vault} {id : Uuid} (h : v.hasOrphan id = true) :
    ¬ v.NoOrphans := by
  simp only [hasOrphan, Bool.and_eq_true, Bool.or_eq_true, List.isEmpty_iff, decide_eq_true_iff] at h
  intro hno
  obtain ⟨hsome, hlast⟩ := hno h.1.1 id (by simpa [Option.isSome_iff_ne_none] using h.1.2)
  rcases h.2 with hnone | hlast'
  · simp [Option.isNone_iff_eq_none.mp hnone] at hsome
  · exact hlast hlast'

theorem secrets_are_orphaned :
    (∃ v, run (step .plain) .empty ([.accountCreate ada .password] ++ storePassword ada "hunter2" ++
      [.accountDelete (idArgs "id" ada)]) = some v ∧ ¬ v.NoOrphans) ∧
    (∃ v, run (step .plain) .empty [.accountCreate ada .password,
      .setSecret (passwordArgs ada "hunter2"), .accountDelete (idArgs "id" ada),
      .put (.setting ada "hunter2"), .acknowledge (.stored ada .setSecret)] = some v ∧
      ¬ v.NoOrphans) ∧
    (∃ v, run (step .plain) .empty ([.accountCreate bob .oauth2Google,
      .googleComplete (completeArgs bob), .putTokens (.exchanging bob) "first",
      .acknowledge (.stored bob .googleComplete), .credentialFor ⟨bob, .oauth2Google, none⟩] ++
      deleteStored bob ++ [.putTokens (.refreshing bob) "second"]) = some v ∧ ¬ v.NoOrphans) ∧
    (∃ v, run (step .plain) .empty [.accountCreate ada .password,
      .deleteSecret (idArgs "account_id" ada), .setSecret (passwordArgs ada "hunter2"),
      .put (.setting ada "hunter2"), .acknowledge (.stored ada .setSecret),
      .acknowledge (.removed ada)] = some v ∧ ¬ v.NoOrphans) := by
  have horphan : ∀ {acts : List Action} (id : Uuid),
      (run (step .plain) .empty acts).any (·.hasOrphan id) = true →
      ∃ v, run (step .plain) .empty acts = some v ∧ ¬ v.NoOrphans := by
    intro acts id h
    obtain ⟨v, hv, horphan⟩ := (Option.any_eq_true _ _).mp h
    exact ⟨v, hv, not_noOrphans_of_hasOrphan horphan⟩
  exact ⟨horphan ada (by decide), horphan ada (by decide +kernel),
    horphan bob (by decide), horphan ada (by decide +kernel)⟩

end Vault

end Postblox.Daemon.Secrets
