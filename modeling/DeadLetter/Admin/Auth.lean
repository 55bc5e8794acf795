import DeadLetter.Admin.Environment
import DeadLetter.Admin.Failure
import DeadLetter.Text.Segment

/-!
# The token check

A request passes with the header `Authorization: Bearer` and the token of the service. Of several such headers the first
counts, and one that is not plain ASCII text counts as missing. Without a token no request passes.
-/

namespace DeadLetter.Admin

set_option autoImplicit false

/-- The headers of a request in order. -/
abbrev Headers := List (String × String)

/-- What the token check needs. -/
structure Auth where
  token : Option String
  disabled : Bool
deriving DecidableEq, Repr

namespace Auth

/-- The token check that an environment asks for. -/
def ofEnvironment (e : Environment) : Auth := ⟨e.adminToken, e.disableAuth⟩

def isConfigured (a : Auth) : Bool := a.disabled || a.token.isSome

/-- Whether a header value consists of tabs and printable ASCII characters. -/
def isPlainText (value : String) : Bool :=
  value.toList.all fun c => c == '\t' || (32 ≤ c.toNat && c.toNat < 127)

/-- The value of the first `Authorization` header. -/
def authorization? (headers : Headers) : Option String :=
  (headers.find? fun h => h.1.toLower == "authorization").map (·.2)

/-- The token that a request brings. -/
def bearer? (headers : Headers) : Option String := do
  let value ← authorization? headers
  if isPlainText value then Text.dropPrefix? value "Bearer " else none

def missingToken : Failure :=
  ⟨401, "missing_token", "Authorization header must contain a valid Bearer token", false⟩

def invalidToken : Failure := ⟨401, "invalid_token", "Admin token is not valid", false⟩

/-- Checks the token of a request. -/
def check (a : Auth) (headers : Headers) : Except Failure Unit :=
  if a.disabled then .ok ()
  else match bearer? headers with
    | none => .error missingToken
    | some token => if a.token = some token then .ok () else .error invalidToken

end Auth

end DeadLetter.Admin
