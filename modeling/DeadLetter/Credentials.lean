/-!
# Static credentials

An access key id and its secret belong together: half a pair is none.
-/

namespace DeadLetter

set_option autoImplicit false

/-- An access key id with its secret. -/
structure Credentials where
  accessKeyId : String
  secretAccessKey : String
deriving DecidableEq, Repr

/-- The credentials of a pair, if both parts are there. -/
def Credentials.ofPair? : Option String → Option String → Option Credentials
  | some key, some secret => some ⟨key, secret⟩
  | _, _ => none

end DeadLetter
