import Postblox.Lib.PercentEncoding
import Postblox.Oauth.Google
import Postblox.Utf8

/-!
# The authorization URL

Seven parameters, each percent-encoded, behind the address of the endpoint. Whatever the
client identifier, the redirect URI and the state are, they are read back as they were.
-/
namespace Postblox.Oauth

open Lib

def percentEncode (input : String) : List Char := Percent.encode (utf8 input)

/-- The parameters of the request in their order. -/
def authParams (config : GoogleOAuthConfig) (state : String) : List (String × String) :=
  [("client_id", config.clientId), ("redirect_uri", config.redirectUri), ("response_type", "code"),
    ("scope", " ".intercalate config.scopes), ("state", state), ("access_type", "offline"),
    ("prompt", "consent")]

def authorizationUrl (config : GoogleOAuthConfig) (state : String) :
    Except GoogleOAuthError String := do
  config.validateForAuthUrl state
  let query := (authParams config state).map fun param =>
    percentEncode param.1 ++ '=' :: percentEncode param.2
  return authEndpoint ++ "?" ++ String.ofList (['&'].intercalate query)

/-- What is behind the first question mark. -/
def queryPart (url : String) : List Char := (url.toList.dropWhile (· ≠ '?')).drop 1

/-- The seven parameters as the user agent is to see them. -/
def intendedParams (config : GoogleOAuthConfig) (state : String) : List (List Char × List Char) :=
  [("client_id".toList, config.clientId.toList), ("redirect_uri".toList, config.redirectUri.toList),
    ("response_type".toList, "code".toList), ("scope".toList, gmailScope.toList),
    ("state".toList, state.toList), ("access_type".toList, "offline".toList),
    ("prompt".toList, "consent".toList)]

theorem queryPart_authEndpoint (query : List Char) :
    queryPart (authEndpoint ++ "?" ++ String.ofList query) = query := by
  have hno : ∀ c ∈ authEndpoint.toList, decide (c ≠ '?') = true := by
    simp [authEndpoint]
  have hmark : (authEndpoint ++ "?" ++ String.ofList query).toList =
      authEndpoint.toList ++ '?' :: query := by
    rw [String.toList_append, String.toList_append, String.toList_ofList, List.append_assoc,
      String.toList_ofList]
    rfl
  rw [queryPart, hmark, List.dropWhile_append_of_pos hno, List.dropWhile_cons_of_neg (by decide)]
  rfl

/-- What validation accepts is encoded as a query of the intended pairs. -/
theorem authorizationUrl_eq {config : GoogleOAuthConfig} {state : String}
    (h : config.validateForAuthUrl state = .ok ()) :
    authorizationUrl config state = .ok (authEndpoint ++ "?" ++
      String.ofList (Percent.writeQuery (intendedParams config state))) := by
  have hscopes := GoogleOAuthConfig.scopes_of_validateForAuthUrl h
  rw [authorizationUrl, h]
  unfold authParams
  rw [hscopes]
  rfl

/-- Splitting at `&` and the first `=` and decoding gives the seven pairs, and the query is
unreserved characters, escapes, `=` and `&`. -/
theorem authorization_url_is_lossless (config : GoogleOAuthConfig) (state : String)
    (h : config.validateForAuthUrl state = .ok ()) :
    ∃ url, authorizationUrl config state = .ok url ∧
      Percent.readQuery (queryPart url) = some (intendedParams config state) ∧
      Percent.Escaped Percent.QueryChar (queryPart url) := by
  refine ⟨_, authorizationUrl_eq h, ?_, ?_⟩
  · rw [queryPart_authEndpoint]
    exact Percent.readQuery_writeQuery (List.cons_ne_nil _ _)
  · rw [queryPart_authEndpoint]
    exact Percent.escaped_writeQuery _

def sampleConfig : GoogleOAuthConfig := .gmail "client id" "" "http://127.0.0.1/callback"

theorem state_with_separators_is_read_back :
    ∃ url, authorizationUrl sampleConfig "a&state=é" = .ok url ∧
      Percent.readQuery (queryPart url) = some (intendedParams sampleConfig "a&state=é") ∧
      Percent.Escaped Percent.QueryChar (queryPart url) :=
  authorization_url_is_lossless sampleConfig "a&state=é" (by decide)

end Postblox.Oauth
