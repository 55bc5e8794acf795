import DeadLetter.Provider.Routine
import DeadLetter.Registry.Basic

/-!
# Facts about a queue that are looked up once

The URLs of a queue and of its dead letter queue and the limit of its redrive policy are asked for until the provider
answers, and kept from then on. A failure is not kept.
-/

namespace DeadLetter.QueueHandle

set_option autoImplicit false

open Attempt

def url (q : QueueHandle) : Attempt String := do
  match (← facts q.slot).url with
  | some url => return url
  | none =>
    let url ← call (.queueUrl q.name)
    learn q.slot (.url url)
    return url

def urlOfDlq (q : QueueHandle) (dlq : String) : Attempt String := do
  match (← facts q.slot).dlqUrl with
  | some url => return url
  | none =>
    let url ← call (.queueUrl dlq)
    learn q.slot (.dlqUrl url)
    return url

def dlqUrl (q : QueueHandle) : Attempt (Option String) :=
  match q.dlq with
  | none => return none
  | some dlq => return some (← q.urlOfDlq dlq.name)

/-- The number of deliveries after which a message goes to the dead letter queue, if the provider knows one. -/
def maxReceiveCount (q : QueueHandle) : Attempt (Option Nat) := do
  if q.dlq.isNone then return none
  match (← facts q.slot).maxReceiveCount with
  | some count => return count
  | none =>
    let url ← q.url
    let attributes ← call (.queueAttributes url)
    let count := attributes.redrive.map (·.maxReceiveCount)
    learn q.slot (.maxReceiveCount count)
    return count

end DeadLetter.QueueHandle
