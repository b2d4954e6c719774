import Postblox.Daemon.Fetch
import Postblox.Daemon.Secrets
import Postblox.Oauth.Tokens

/-!
# The credential of an account

`credential_for_account`: a password as it is stored, or a bearer token that is refreshed
first when it is about to expire. A call reads the clock up to three times, asks the token
endpoint at most once, and writes the secret only after a refresh that succeeded.
-/
namespace Postblox.Daemon.Credentials

open Imap (MailCredential)
open Oauth
open Secrets (AuthKind)

/-- `serde_json` on a bundle: what it writes it reads back. -/
structure BundleJson where
  toString : StoredGoogleOAuth → Except String String
  fromStr : String → Except String StoredGoogleOAuth
  reads_back : ∀ {stored : StoredGoogleOAuth} {json : String},
    toString stored = .ok json → fromStr json = .ok stored

/-- What a write of the secret comes to. A backend may fail after it has replaced the value. -/
inductive PutOutcome where
  | stored
  | failed (error : String) (replaced : Bool)

/-- What one call meets. -/
structure CredentialCall where
  getError : Option String
  /-- The clock when it is decided whether to refresh. -/
  now : DateTime
  reply : TokenReply
  /-- The clock when a response becomes a token. -/
  answered : DateTime
  /-- The clock when a refresh has failed. -/
  failed : DateTime
  put : PutOutcome

/-- The readings of the clock. -/
def CredentialCall.readings (call : CredentialCall) : List DateTime :=
  [call.now, call.answered, call.failed]

def isOauthReauth : GoogleOAuthError → Bool
  | .httpStatus status => status = 400 || status = 401 || status = 403
  | .missingRefreshToken => true
  | _ => false

def mapOauthError : GoogleOAuthError → RpcError
  | .invalidInput message => .badArgs message
  | .missingRefreshToken => ⟨.oauthReauthRequired,
      "OAuth response did not include a refresh token; re-authentication required"⟩
  | .httpStatus status =>
    if status = 400 ∨ status = 401 ∨ status = 403 then
      ⟨.oauthReauthRequired,
        s!"OAuth refresh rejected (status {status}); re-authentication required"⟩
    else ⟨.oauthFailed, s!"OAuth token endpoint returned status {status}"⟩
  | .http _ => ⟨.oauthFailed, "OAuth token endpoint request failed"⟩
  | .secret error => Fetch.internalCtx "oauth secrets" error
  | .decode message => Fetch.internalCtx "oauth decode" message

section Code

variable (serde : BundleJson)

def loadStoredOauth (secret : Option String) : Except GoogleOAuthError (Option StoredGoogleOAuth) :=
  match secret with
  | none => .ok none
  | some json =>
    match serde.fromStr json with
    | .error e => .error (.decode ("stored oauth json: " ++ e))
    | .ok stored => .ok (some stored)

def storeStoredOauth (put : PutOutcome) (stored : StoredGoogleOAuth) (secret : Option String) :
    Except GoogleOAuthError Unit × Option String :=
  match serde.toString stored with
  | .error e => (.error (.decode ("stored oauth json: " ++ e)), secret)
  | .ok json =>
    match put with
    | .stored => (.ok (), some json)
    | .failed error replaced => (.error (.secret error), if replaced then some json else secret)

/-- The bearer of a bundle that is not about to expire, or of what a refresh comes to; `none`
is a panic. -/
def bearerFor (call : CredentialCall) (stored : StoredGoogleOAuth) (secret : Option String) :
    Option (Except RpcError MailCredential × Option String) :=
  match stored.token.needsRefresh call.now with
  | none => none
  | some false => some (.ok (.oauth2Bearer stored.token.accessToken), secret)
  | some true =>
    match refreshToken stored.config stored.token call.reply call.answered with
    | none => none
    | some (.ok refreshed) =>
      match storeStoredOauth serde call.put { stored with token := refreshed } secret with
      | (.error e, secret) => some (.error (mapOauthError e), secret)
      | (.ok (), secret) => some (.ok (.oauth2Bearer refreshed.accessToken), secret)
    | some (.error err) =>
      if ¬ isOauthReauth err ∧ call.failed.nanos < stored.token.expiresAt.nanos then
        some (.ok (.oauth2Bearer stored.token.accessToken), secret)
      else some (.error (mapOauthError err), secret)

/-- The reply, and the secret afterwards. -/
def credentialForAccount (kind : AuthKind) (call : CredentialCall) (secret : Option String) :
    Option (Except RpcError MailCredential × Option String) :=
  match kind with
  | .password =>
    match call.getError, secret with
    | some e, _ => some (.error (Fetch.internalCtx "secrets::get" e), secret)
    | none, none => some (.error ⟨.missingSecret, "no stored secret for account"⟩, secret)
    | none, some password => some (.ok (.password password), secret)
  | .oauth2Google =>
    match call.getError with
    | some e => some (.error (mapOauthError (.secret e)), secret)
    | none =>
      match loadStoredOauth serde secret with
      | .error e => some (.error (mapOauthError e), secret)
      | .ok none => some (.error ⟨.missingSecret, "no stored OAuth token for account"⟩, secret)
      | .ok (some stored) => bearerFor serde call stored secret

/-- The secret after calls one after the other. -/
def afterCalls (kind : AuthKind) (secret : Option String) : List CredentialCall →
    Option (Option String)
  | [] => some secret
  | call :: calls => do
    let result ← credentialForAccount serde kind call secret
    afterCalls kind result.2 calls

end Code

/-! ## What a call does -/

/-- The token a bearer credential is of, and the reading of the clock that was decided on. -/
inductive Decision (call : CredentialCall) (stored : StoredGoogleOAuth) :
    GoogleOAuthToken → DateTime → Prop where
  | cached (hfresh : stored.token.needsRefresh call.now = some false) :
      Decision call stored stored.token call.now
  | refreshed {token : GoogleOAuthToken} (hold : stored.token.needsRefresh call.now = some true)
      (hrefresh : refreshToken stored.config stored.token call.reply call.answered =
        some (.ok token)) :
      Decision call stored token call.answered
  | kept {e : GoogleOAuthError} (hold : stored.token.needsRefresh call.now = some true)
      (hrefresh : refreshToken stored.config stored.token call.reply call.answered =
        some (.error e)) (htransient : isOauthReauth e = false) :
      Decision call stored stored.token call.failed

section Calls

variable {serde : BundleJson} {call : CredentialCall} {secret : Option String}

/-- The stored bundle is about to expire, and the endpoint hands out a token for it. -/
def Refreshes (serde : BundleJson) (call : CredentialCall) (secret : Option String) : Prop :=
  ∃ stored token, loadStoredOauth serde secret = .ok (some stored) ∧
    stored.token.needsRefresh call.now = some true ∧
    refreshToken stored.config stored.token call.reply call.answered = some (.ok token)

/-- The secret is a bundle for the configuration with a refresh token. -/
def HoldsBundle (serde : BundleJson) (config : GoogleOAuthConfig) (secret : Option String) : Prop :=
  ∃ stored, loadStoredOauth serde secret = .ok (some stored) ∧ stored.config = config ∧
    stored.token.refreshToken ≠ ""

/-- What a call may do to the secret, and which bearers it may return. -/
structure CallSound (serde : BundleJson) (call : CredentialCall) (secret : Option String)
    (reply : Except RpcError MailCredential) (secret' : Option String) : Prop where
  usable : ∀ bearer, reply = .ok (.oauth2Bearer bearer) → ∃ stored token time,
    loadStoredOauth serde secret = .ok (some stored) ∧ Decision call stored token time ∧
      token.accessToken = bearer ∧ time.nanos < token.expiresAt.nanos
  unchanged : ¬ Refreshes serde call secret → secret' = secret
  kept : ∀ config, HoldsBundle serde config secret → HoldsBundle serde config secret'

/-- A call that returns no bearer and leaves the secret. -/
theorem callSound_of_same {reply : Except RpcError MailCredential}
    (hreply : ∀ bearer, reply ≠ .ok (.oauth2Bearer bearer)) :
    CallSound serde call secret reply secret where
  usable bearer h := absurd h (hreply bearer)
  unchanged _ := rfl
  kept _ h := h

/-- After a write the secret is the old one or the bundle. -/
theorem storeStoredOauth_secret (put : PutOutcome) (stored : StoredGoogleOAuth) :
    (storeStoredOauth serde put stored secret).2 = secret ∨
      loadStoredOauth serde (storeStoredOauth serde put stored secret).2 = .ok (some stored) := by
  unfold storeStoredOauth
  cases htext : serde.toString stored with
  | error e => exact .inl rfl
  | ok json =>
    have hload : loadStoredOauth serde (some json) = .ok (some stored) := by
      rw [loadStoredOauth, serde.reads_back htext]
    cases put with
    | stored => exact .inr hload
    | failed error replaced =>
      cases replaced with
      | false => exact .inl rfl
      | true => exact .inr hload

/-- A refreshed bundle has the configuration of the old one and a token to renew it. -/
theorem holdsBundle_store {stored : StoredGoogleOAuth} {token : GoogleOAuthToken}
    (hload : loadStoredOauth serde secret = .ok (some stored)) (htoken : token.refreshToken ≠ "")
    (put : PutOutcome) {config : GoogleOAuthConfig} (h : HoldsBundle serde config secret) :
    HoldsBundle serde config
      (storeStoredOauth serde put { stored with token := token } secret).2 := by
  rcases storeStoredOauth_secret put { stored with token := token } with hsame | hnew
  · rw [hsame]
    exact h
  · obtain ⟨stored', hload', hconfig, -⟩ := h
    rw [hload] at hload'
    obtain rfl := Option.some.inj (Except.ok.inj hload')
    exact ⟨_, hnew, hconfig, htoken⟩

theorem bearerFor_sound {stored : StoredGoogleOAuth} (hclock : call.now.OnClock)
    (hload : loadStoredOauth serde secret = .ok (some stored)) :
    ∃ reply secret', bearerFor serde call stored secret = some (reply, secret') ∧
      CallSound serde call secret reply secret' := by
  have hneeds := needsRefresh_onClock stored.token hclock
  unfold bearerFor
  by_cases hold : stored.token.expiresAt.nanos ≤ call.now.nanos + 60 * nanosPerSecond
  · rw [decide_eq_true hold] at hneeds
    rw [hneeds]
    dsimp only
    obtain ⟨result, hresult, hrenewable⟩ := requestToken_spec _ _ call.reply call.answered
    have hrefresh : refreshToken stored.config stored.token call.reply call.answered =
        some result := hresult
    rw [hrefresh]
    cases result with
    | ok token =>
      obtain ⟨hunexpired, hrefreshable⟩ := hrenewable token rfl
      have hkept := fun config => @holdsBundle_store serde secret stored token hload hrefreshable
        call.put config
      have hrefreshes : Refreshes serde call secret := ⟨stored, token, hload, hneeds, hrefresh⟩
      dsimp only
      generalize storeStoredOauth serde call.put { stored with token := token } secret = written
        at hkept
      obtain ⟨written, secret'⟩ := written
      cases written with
      | error e =>
        refine ⟨_, _, rfl, ?_, fun h => absurd hrefreshes h, hkept⟩
        intro bearer h
        cases h
      | ok _ =>
        refine ⟨_, _, rfl, ?_, fun h => absurd hrefreshes h, hkept⟩
        intro bearer h
        cases h
        exact ⟨stored, token, call.answered, hload, .refreshed hneeds hrefresh, rfl, hunexpired⟩
    | error e =>
      dsimp only
      by_cases hkeep : ¬ isOauthReauth e ∧ call.failed.nanos < stored.token.expiresAt.nanos
      · rw [if_pos hkeep]
        refine ⟨_, _, rfl, ?_, fun _ => rfl, fun _ h => h⟩
        intro bearer h
        cases h
        have htransient := Bool.eq_false_iff.mpr hkeep.1
        exact ⟨stored, stored.token, call.failed, hload, .kept hneeds hrefresh htransient, rfl,
          hkeep.2⟩
      · rw [if_neg hkeep]
        exact ⟨_, _, rfl, callSound_of_same fun bearer h => by cases h⟩
  · rw [decide_eq_false hold] at hneeds
    rw [hneeds]
    refine ⟨_, _, rfl, ?_, fun _ => rfl, fun _ h => h⟩
    intro bearer h
    cases h
    refine ⟨stored, stored.token, call.now, hload, .cached hneeds, rfl, ?_⟩
    unfold nanosPerSecond at hold
    omega

theorem credentialForAccount_sound (kind : AuthKind) (secret : Option String)
    (hclock : call.now.OnClock) :
    ∃ reply secret', credentialForAccount serde kind call secret = some (reply, secret') ∧
      CallSound serde call secret reply secret' := by
  unfold credentialForAccount
  cases kind with
  | password =>
    cases call.getError with
    | some e => exact ⟨_, _, rfl, callSound_of_same fun bearer h => by cases h⟩
    | none =>
      cases secret with
      | none => exact ⟨_, _, rfl, callSound_of_same fun bearer h => by cases h⟩
      | some password => exact ⟨_, _, rfl, callSound_of_same fun bearer h => by cases h⟩
  | oauth2Google =>
    cases call.getError with
    | some e => exact ⟨_, _, rfl, callSound_of_same fun bearer h => by cases h⟩
    | none =>
      cases hload : loadStoredOauth serde secret with
      | error e => exact ⟨_, _, rfl, callSound_of_same fun bearer h => by cases h⟩
      | ok found =>
        cases found with
        | none => exact ⟨_, _, rfl, callSound_of_same fun bearer h => by cases h⟩
        | some stored => exact bearerFor_sound hclock hload

/-- The bundle of a completed authorization has a refresh token. -/
theorem holdsBundle_exchanged {config : GoogleOAuthConfig} {code : String} {reply : TokenReply}
    {now : DateTime} {token : GoogleOAuthToken} {json : String}
    (hexchange : exchangeCode config code reply now = some (.ok token))
    (htext : serde.toString (.new config token) = .ok json) :
    HoldsBundle serde config (some json) := by
  obtain ⟨result, hresult, hrenewable⟩ := requestToken_spec _ none reply now
  have hsame := hexchange.symm.trans hresult
  refine ⟨.new config token, ?_, rfl, (hrenewable token (Option.some.inj hsame).symm).refreshable⟩
  rw [loadStoredOauth, serde.reads_back htext]

/-! ## Runs of calls -/

/-- In every run of calls on a clock with 64 bits of nanoseconds, no call panics; each bearer
is of a token unexpired when it was decided on; the secret changes only where a refresh
succeeds; and a bundle keeps its configuration and a refresh token from the first call on. -/
theorem oauth_tokens_stay_usable (serde : BundleJson) (kind : AuthKind) (start : Option String)
    (calls : List CredentialCall) (hclock : ∀ call ∈ calls, ∀ t ∈ call.readings, t.OnClock) :
    ∀ front call back, calls = front ++ call :: back →
      ∃ secret reply secret', afterCalls serde kind start front = some secret ∧
        credentialForAccount serde kind call secret = some (reply, secret') ∧
        CallSound serde call secret reply secret' ∧
        ∀ config, HoldsBundle serde config start →
          HoldsBundle serde config secret ∧ HoldsBundle serde config secret' := by
  intro front
  induction front generalizing start calls with
  | nil =>
    rintro call back rfl
    have hnow : call.now.OnClock := hclock call List.mem_cons_self call.now List.mem_cons_self
    obtain ⟨reply, secret', hcall, hsound⟩ := credentialForAccount_sound kind start hnow
    exact ⟨start, reply, secret', rfl, hcall, hsound, fun config h => ⟨h, hsound.kept config h⟩⟩
  | cons first front ih =>
    rintro call back rfl
    have hnow : first.now.OnClock := hclock first List.mem_cons_self first.now List.mem_cons_self
    obtain ⟨reply₀, secret₀, hfirst, hsound₀⟩ :=
      @credentialForAccount_sound serde first kind start hnow
    obtain ⟨secret, reply, secret', hafter, hcall, hsound, hholds⟩ :=
      ih secret₀ (front ++ call :: back) (fun c hc => hclock c (List.mem_cons_of_mem _ hc)) call
        back rfl
    refine ⟨secret, reply, secret', ?_, hcall, hsound, fun config h => ?_⟩
    · rw [afterCalls, hfirst]
      exact hafter
    · exact hholds config (hsound₀.kept config h)

/-- A bundle whose token expires at ten, as it is written. -/
def sampleBundle : StoredGoogleOAuth :=
  .new (.gmail "client" "secret" "http://127.0.0.1/callback")
    ⟨"access", "refresh", ⟨1777629600 * nanosPerSecond, by decide, by decide⟩, "Bearer", none⟩

def sampleJson : String :=
  "\x7b\"client_id\":\"client\",\"client_secret\":\"secret\"," ++
    "\"redirect_uri\":\"http://127.0.0.1/callback\",\"scopes\":[\"https://mail.google.com/\"]," ++
    "\"token\":\x7b\"access_token\":\"access\",\"refresh_token\":\"refresh\"," ++
    "\"expires_at\":\"2026-05-01T10:00:00Z\",\"token_type\":\"Bearer\",\"scope\":null\x7d\x7d"

def sampleSerde : BundleJson where
  toString stored := if stored = sampleBundle then .ok sampleJson else .error ""
  fromStr json := if json = sampleJson then .ok sampleBundle else .error "expected value"
  reads_back := by
    intro stored json h
    split_ifs at h with hstored
    obtain rfl := Except.ok.inj h
    rw [if_pos rfl, hstored]

/-- Half a minute before ten the endpoint is unavailable. -/
def unavailableCall : CredentialCall where
  getError := none
  now := ⟨1777629570 * nanosPerSecond, by decide, by decide⟩
  reply := .answered 503 none
  answered := ⟨1777629571 * nanosPerSecond, by decide, by decide⟩
  failed := ⟨1777629571 * nanosPerSecond, by decide, by decide⟩
  put := .stored

theorem unavailable_endpoint_keeps_token :
    ∃ secret reply secret',
      afterCalls sampleSerde .oauth2Google (some sampleJson) [] = some secret ∧
      credentialForAccount sampleSerde .oauth2Google unavailableCall secret =
        some (reply, secret') ∧
      CallSound sampleSerde unavailableCall secret reply secret' ∧
      ∀ config, HoldsBundle sampleSerde config (some sampleJson) →
        HoldsBundle sampleSerde config secret ∧ HoldsBundle sampleSerde config secret' :=
  oauth_tokens_stay_usable sampleSerde .oauth2Google (some sampleJson) [unavailableCall]
    (by unfold DateTime.OnClock; decide) [] unavailableCall [] rfl

end Calls

end Postblox.Daemon.Credentials
