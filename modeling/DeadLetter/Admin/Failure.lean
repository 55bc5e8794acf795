import DeadLetter.Json.Value
import DeadLetter.QueueError

/-!
# Failures told to clients

A failure is answered with a status, a code, a message and whether it is worth trying again. Of a failure of the
provider the client learns only whether the provider is at fault.
-/

namespace DeadLetter.Admin

set_option autoImplicit false

/-- A failure as it is told to a client. -/
structure Failure where
  status : Nat
  code : String
  message : String
  retry : Bool
deriving DecidableEq, Repr

namespace Failure

def notFound (message : String) : Failure := ⟨404, "not_found", message, false⟩

/-- The failure that an error of the provider is told as. -/
def ofQueueError (e : QueueError) : Failure :=
  if e.providerAtFault then ⟨503, "upstream_error", "Queue provider temporarily unavailable", true⟩
  else ⟨500, "internal_error", "Internal server error", true⟩

def toJson (f : Failure) : Json :=
  .ofMembers [("allowRetry", .bool f.retry),
    ("error", .ofMembers [("code", .string f.code), ("message", .string f.message)])]

end Failure

end DeadLetter.Admin
