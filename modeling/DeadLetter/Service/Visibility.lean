import DeadLetter.EventType
import DeadLetter.Service.Lookup

/-!
# Hiding messages that failed

`hideFailed` asks the provider to hide a message for the time that the backoff policy picks, and returns that time. A
failure of the provider only means that the message reappears in the queue's own time.
-/

namespace DeadLetter

set_option autoImplicit false

open Attempt

def BackoffPolicy.timeoutOf (b : BackoffPolicy) (q : QueueHandle) (m : Received) (maxReceiveCount : Option Nat) : Int :=
  b.nextTimeout q.schedules (eventType? m.body m.attributes) m.deliveryCount maxReceiveCount

/-- Hides a message whose handling failed. -/
def QueueHandle.hideFailed (q : QueueHandle) (b : BackoffPolicy) (m : Received) : Routine Int := do
  let limit ← q.maxReceiveCount.result
  let timeout := b.timeoutOf q m (limit.toOption.getD none)
  match ← q.url.result with
  | .error _ => return timeout
  | .ok url =>
    let _ ← (call (.changeVisibility url m.handle timeout)).result
    return timeout

end DeadLetter
