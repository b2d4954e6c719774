import Postblox.Models
import Postblox.Mail.Text

/-!
# The client of Google's OAuth endpoints

The configuration of a client, the checks made before each use of it, and the errors.
-/
namespace Postblox.Oauth

def authEndpoint : String := "https://accounts.google.com/o/oauth2/v2/auth"

def gmailScope : String := "https://mail.google.com/"

structure GoogleOAuthConfig where
  clientId : String
  clientSecret : String
  redirectUri : String
  scopes : List String
  deriving DecidableEq

/-- The variants; those of other crates carry the text they are displayed with. -/
inductive GoogleOAuthError where
  | invalidInput (message : String)
  | missingRefreshToken
  | httpStatus (status : Nat)
  | http (error : String)
  | secret (error : String)
  | decode (message : String)
  deriving DecidableEq

def validateNonEmpty (field value : String) : Except GoogleOAuthError Unit :=
  if (Mail.trim value.toList).isEmpty then .error (.invalidInput (field ++ " must be non-empty"))
  else .ok ()

namespace GoogleOAuthConfig

/-- Built for the Gmail scope. -/
def gmail (clientId clientSecret redirectUri : String) : GoogleOAuthConfig :=
  ⟨clientId, clientSecret, redirectUri, [gmailScope]⟩

def validateGmailScope (config : GoogleOAuthConfig) : Except GoogleOAuthError Unit :=
  if config.scopes = [gmailScope] then .ok ()
  else .error (.invalidInput "only the Gmail OAuth scope is supported")

def validateForAuthUrl (config : GoogleOAuthConfig) (state : String) :
    Except GoogleOAuthError Unit := do
  validateNonEmpty "client_id" config.clientId
  validateNonEmpty "redirect_uri" config.redirectUri
  validateNonEmpty "state" state
  config.validateGmailScope

def validateForTokenRequest (config : GoogleOAuthConfig) : Except GoogleOAuthError Unit := do
  validateNonEmpty "client_id" config.clientId
  validateNonEmpty "client_secret" config.clientSecret
  validateNonEmpty "redirect_uri" config.redirectUri
  config.validateGmailScope

theorem scopes_of_validateGmailScope {config : GoogleOAuthConfig}
    (h : config.validateGmailScope = .ok ()) : config.scopes = [gmailScope] := by
  unfold validateGmailScope at h
  split_ifs at h with hscopes
  exact hscopes

/-- The scope is checked last. -/
theorem scopes_of_validateForAuthUrl {config : GoogleOAuthConfig} {state : String}
    (h : config.validateForAuthUrl state = .ok ()) : config.scopes = [gmailScope] := by
  unfold validateForAuthUrl at h
  cases hclient : validateNonEmpty "client_id" config.clientId with
  | error e => rw [hclient] at h; cases h
  | ok _ =>
    cases hredirect : validateNonEmpty "redirect_uri" config.redirectUri with
    | error e => rw [hclient, hredirect] at h; cases h
    | ok _ =>
      cases hstate : validateNonEmpty "state" state with
      | error e => rw [hclient, hredirect, hstate] at h; cases h
      | ok _ =>
        rw [hclient, hredirect, hstate] at h
        exact scopes_of_validateGmailScope h

end GoogleOAuthConfig

end Postblox.Oauth
