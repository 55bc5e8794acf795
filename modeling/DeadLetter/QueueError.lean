/-!
# Failures of the provider

Each cause is a constructor and `message` holds the wording. Only a provider that answered with a fault of its own is at
fault.
-/

namespace DeadLetter

set_option autoImplicit false

/-- Why an operation on queues, topics or buckets failed. -/
inductive QueueError where
  | provider (operation message : String) (atFault : Bool)
  | missingField (operation field : String)
  | serialization
  | invalidMessage (reason : String)
  | missingGroup (destination : String)
deriving DecidableEq, Repr

namespace QueueError

def message : QueueError → String
  | provider operation message _ => operation ++ " failed: " ++ message
  | missingField operation field => operation ++ " response is missing " ++ field
  | serialization => "Failed to serialize message: not a redrive policy"
  | invalidMessage reason => "Invalid message format: " ++ reason
  | missingGroup destination => "Message group ID required for FIFO destination " ++ destination

def providerAtFault : QueueError → Bool
  | provider _ _ atFault => atFault
  | _ => false

end QueueError

end DeadLetter
