import Postblox.Json
import Postblox.Oauth.Google

/-!
# Tokens and the token endpoint

A bundle of a client's configuration and its tokens, when a token is to be refreshed, and
what becomes of each answer of the endpoint. Arithmetic on times panics where `chrono` does:
`none` in front of a result.
-/
namespace Postblox.Oauth

open Json (Value)

/-! ## Times -/

def nanosPerSecond : Int := 1000000000

/-- `DateTime::<Utc>::MIN_UTC`, the start of the year -262143. -/
def minUtc : Int := -8334601228800 * nanosPerSecond

/-- `DateTime::<Utc>::MAX_UTC`, the end of the year 262142. -/
def maxUtc : Int := 8210266876800 * nanosPerSecond - 1

/-- An instant of `chrono`'s calendar, in nanoseconds since 1970. -/
structure DateTime where
  nanos : Int
  lower : minUtc ≤ nanos
  upper : nanos ≤ maxUtc
  deriving DecidableEq

/-- `Duration::seconds`: panics where the milliseconds leave an `i64`. -/
def durationSeconds (seconds : Int) : Option Int :=
  if -(9223372036854775807 / 1000) ≤ seconds ∧ seconds ≤ 9223372036854775807 / 1000 then
    some (seconds * nanosPerSecond)
  else none

/-- `checked_add_signed`; the operator `+` panics instead. -/
def DateTime.checkedAddSigned (t : DateTime) (duration : Int) : Option DateTime :=
  if h : minUtc ≤ t.nanos + duration ∧ t.nanos + duration ≤ maxUtc then
    some ⟨t.nanos + duration, h.1, h.2⟩
  else none

/-- What a clock with 64 bits of nanoseconds reads, as the kernel's is. -/
def DateTime.OnClock (t : DateTime) : Prop := t.nanos < 2 ^ 63

/-! ## Tokens -/

def refreshSkewSeconds : Int := 60

def maxExpiresInSeconds : Int := 24 * 60 * 60

structure GoogleOAuthToken where
  accessToken : String
  refreshToken : String
  expiresAt : DateTime
  tokenType : String
  scope : Option String
  deriving DecidableEq

def GoogleOAuthToken.needsRefresh (token : GoogleOAuthToken) (now : DateTime) : Option Bool := do
  let skew ← durationSeconds refreshSkewSeconds
  let limit ← now.checkedAddSigned skew
  return decide (token.expiresAt.nanos ≤ limit.nanos)

structure StoredGoogleOAuth where
  clientId : String
  clientSecret : String
  redirectUri : String
  scopes : List String
  token : GoogleOAuthToken
  deriving DecidableEq

def StoredGoogleOAuth.new (config : GoogleOAuthConfig) (token : GoogleOAuthToken) :
    StoredGoogleOAuth :=
  ⟨config.clientId, config.clientSecret, config.redirectUri, config.scopes, token⟩

def StoredGoogleOAuth.config (stored : StoredGoogleOAuth) : GoogleOAuthConfig :=
  ⟨stored.clientId, stored.clientSecret, stored.redirectUri, stored.scopes⟩

/-! ## The endpoint -/

structure TokenEndpointResponse where
  accessToken : String
  expiresIn : Int
  refreshToken : Option String
  tokenType : String
  scope : Option String

/-- A field of a derived `Deserialize`: by name in an object, by place in an array. -/
def field (body : Value) (name : String) (place : Nat) : Option Value :=
  match body with
  | .object entries => entries.lookup name
  | .array items => items[place]?
  | _ => none

/-- `#[serde(default)]` on an `Option<String>`; `none` is an error. -/
def optionalText : Option Value → Option (Option String)
  | none => some none
  | some .null => some none
  | some value => value.asStr.map some

def defaultTokenType : Option Value → Option String
  | none => some "Bearer"
  | some value => value.asStr

def TokenEndpointResponse.fromJson (body : Value) : Option TokenEndpointResponse :=
  if 5 < (body.asArray.getD []).length then none
  else do
    let accessToken ← (field body "access_token" 0).bind Value.asStr
    let expiresIn ← (field body "expires_in" 1).bind Value.asI64
    let refreshToken ← optionalText (field body "refresh_token" 2)
    let tokenType ← defaultTokenType (field body "token_type" 3)
    let scope ← optionalText (field body "scope" 4)
    return ⟨accessToken, expiresIn, refreshToken, tokenType, scope⟩

/-- The new refresh token, or else the one there was. -/
def carriedRefreshToken (refreshToken existing : Option String) : Option String :=
  match refreshToken.filter (· ≠ "") with
  | some new => some new
  | none => existing.filter (· ≠ "")

def TokenEndpointResponse.intoToken (response : TokenEndpointResponse) (existing : Option String)
    (now : DateTime) : Option (Except GoogleOAuthError GoogleOAuthToken) :=
  match validateNonEmpty "access_token" response.accessToken with
  | .error e => some (.error e)
  | .ok () =>
    if response.expiresIn ≤ 0 then some (.error (.invalidInput "expires_in must be positive"))
    else
      match durationSeconds (min response.expiresIn maxExpiresInSeconds) with
      | none => none
      | some lifetime =>
        match now.checkedAddSigned lifetime with
        | none => some (.error (.invalidInput "expires_in out of range"))
        | some expiresAt =>
          match carriedRefreshToken response.refreshToken existing with
          | none => some (.error .missingRefreshToken)
          | some refreshToken => some (.ok
              ⟨response.accessToken, refreshToken, expiresAt, response.tokenType, response.scope⟩)

/-- What a request to the endpoint comes to: it fails, or there is a status with a body,
which may be no JSON. -/
inductive TokenReply where
  | failed (error : String)
  | answered (status : Nat) (body : Option Value)

def postTokenForm : TokenReply → Except GoogleOAuthError TokenEndpointResponse
  | .failed error => .error (.http error)
  | .answered status body =>
    if ¬ (200 ≤ status ∧ status < 300) then .error (.httpStatus status)
    else
      match body.bind TokenEndpointResponse.fromJson with
      | none => .error (.http "error decoding response body")
      | some response => .ok response

/-- What both requests do with a reply, once their input is valid. -/
def requestToken (valid : Except GoogleOAuthError Unit) (existing : Option String)
    (reply : TokenReply) (now : DateTime) : Option (Except GoogleOAuthError GoogleOAuthToken) :=
  match valid with
  | .error e => some (.error e)
  | .ok () =>
    match postTokenForm reply with
    | .error e => some (.error e)
    | .ok response => response.intoToken existing now

def exchangeCode (config : GoogleOAuthConfig) (code : String) (reply : TokenReply)
    (now : DateTime) : Option (Except GoogleOAuthError GoogleOAuthToken) :=
  requestToken (do config.validateForTokenRequest; validateNonEmpty "code" code) none reply now

def refreshToken (config : GoogleOAuthConfig) (token : GoogleOAuthToken) (reply : TokenReply)
    (now : DateTime) : Option (Except GoogleOAuthError GoogleOAuthToken) :=
  requestToken (do config.validateForTokenRequest; validateNonEmpty "refresh_token" token.refreshToken)
    (some token.refreshToken) reply now

/-! ## What a request gives -/

theorem durationSeconds_small {seconds : Int} (hlow : 0 ≤ seconds) (hhigh : seconds ≤ 86400) :
    durationSeconds seconds = some (seconds * nanosPerSecond) := by
  unfold durationSeconds
  rw [if_pos (by omega)]

/-- A time on the clock is far from the end of the calendar. -/
theorem DateTime.OnClock.add {t : DateTime} (h : t.OnClock) {seconds : Int} (hlow : 0 ≤ seconds)
    (hhigh : seconds ≤ 86400) :
    ∃ later, t.checkedAddSigned (seconds * nanosPerSecond) = some later ∧
      later.nanos = t.nanos + seconds * nanosPerSecond := by
  have hlower := t.lower
  unfold DateTime.OnClock at h
  have hrange : minUtc ≤ t.nanos + seconds * nanosPerSecond ∧
      t.nanos + seconds * nanosPerSecond ≤ maxUtc := by
    unfold minUtc maxUtc nanosPerSecond at *
    omega
  exact ⟨_, dif_pos hrange, rfl⟩

theorem needsRefresh_onClock (token : GoogleOAuthToken) {now : DateTime} (h : now.OnClock) :
    token.needsRefresh now =
      some (decide (token.expiresAt.nanos ≤ now.nanos + 60 * nanosPerSecond)) := by
  obtain ⟨limit, hlimit, hnanos⟩ := h.add (by omega : (0 : Int) ≤ 60) (by omega)
  rw [GoogleOAuthToken.needsRefresh, refreshSkewSeconds, durationSeconds_small (by omega) (by omega),
    Option.bind_eq_bind, Option.bind_some, hlimit, ← hnanos]
  rfl

theorem carriedRefreshToken_ne {refreshToken existing : Option String} {carried : String}
    (h : carriedRefreshToken refreshToken existing = some carried) : carried ≠ "" := by
  unfold carriedRefreshToken at h
  cases hnew : refreshToken.filter (· ≠ "") with
  | some new =>
    rw [hnew] at h
    obtain rfl := Option.some.inj h
    exact of_decide_eq_true (Option.filter_eq_some_iff.mp hnew).2
  | none =>
    rw [hnew] at h
    exact of_decide_eq_true (Option.filter_eq_some_iff.mp h).2

/-- A token that is handed out is for later use and can be renewed. -/
structure Renewable (token : GoogleOAuthToken) (now : DateTime) : Prop where
  unexpired : now.nanos < token.expiresAt.nanos
  refreshable : token.refreshToken ≠ ""

/-- No lifetime an endpoint names makes the arithmetic panic. -/
theorem intoToken_spec (response : TokenEndpointResponse) (existing : Option String)
    (now : DateTime) : ∃ result, response.intoToken existing now = some result ∧
      ∀ token, result = .ok token → Renewable token now := by
  unfold TokenEndpointResponse.intoToken
  cases validateNonEmpty "access_token" response.accessToken with
  | error e => exact ⟨_, rfl, fun token h => by cases h⟩
  | ok _ =>
    by_cases hpositive : response.expiresIn ≤ 0
    · exact ⟨_, if_pos hpositive, fun token h => by cases h⟩
    · have hlow : 0 < min response.expiresIn maxExpiresInSeconds := by
        unfold maxExpiresInSeconds
        omega
      have hhigh : min response.expiresIn maxExpiresInSeconds ≤ 86400 := by
        unfold maxExpiresInSeconds
        omega
      dsimp only
      rw [if_neg hpositive, durationSeconds_small hlow.le hhigh]
      dsimp only
      generalize hlifetime : min response.expiresIn maxExpiresInSeconds * nanosPerSecond = lifetime
      have hlong : 0 < lifetime := by
        rw [← hlifetime]
        exact Int.mul_pos hlow (by decide)
      cases hadd : now.checkedAddSigned lifetime with
      | none => exact ⟨_, rfl, fun token h => by cases h⟩
      | some expiresAt =>
        have hnanos : expiresAt.nanos = now.nanos + lifetime := by
          unfold DateTime.checkedAddSigned at hadd
          split_ifs at hadd
          rw [← Option.some.inj hadd]
        dsimp only
        cases hcarried : carriedRefreshToken response.refreshToken existing with
        | none => exact ⟨_, rfl, fun token h => by cases h⟩
        | some refreshToken =>
          refine ⟨_, rfl, fun token h => ?_⟩
          cases h
          refine ⟨?_, carriedRefreshToken_ne hcarried⟩
          show now.nanos < expiresAt.nanos
          omega

theorem requestToken_spec (valid : Except GoogleOAuthError Unit) (existing : Option String)
    (reply : TokenReply) (now : DateTime) : ∃ result, requestToken valid existing reply now = some result ∧
      ∀ token, result = .ok token → Renewable token now := by
  unfold requestToken
  cases valid with
  | error e => exact ⟨_, rfl, fun token h => by cases h⟩
  | ok _ =>
    dsimp only
    cases postTokenForm reply with
    | error e => exact ⟨_, rfl, fun token h => by cases h⟩
    | ok response => exact intoToken_spec response existing now

end Postblox.Oauth
