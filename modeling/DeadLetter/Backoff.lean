import DeadLetter.Dict

/-!
# Backoff schedules

A message whose handling failed is hidden for a number of seconds. The number comes from a schedule by the delivery that
failed: that of the event type, else that of the queue, else the default one, where an empty schedule counts as none.
The last delivery before a message goes to the dead letter queue is not delayed.
-/

namespace DeadLetter

set_option autoImplicit false

/-- The schedules of a queue, for all events and for single event types. -/
structure Schedules where
  queue : List Int
  events : Dict (List Int)
deriving DecidableEq, Repr, Inhabited

/-- The schedule used where a queue has none. -/
structure BackoffPolicy where
  fallback : List Int
deriving DecidableEq, Repr, Inhabited

namespace BackoffPolicy

def scheduleFor (p : BackoffPolicy) (s : Schedules) (eventType : Option String) : List Int :=
  match eventType.bind s.events.get? with
  | some (t :: ts) => t :: ts
  | _ => if s.queue.isEmpty then p.fallback else s.queue

/-- The seconds to hide a message whose `deliveries`-th delivery failed. -/
def nextTimeout (p : BackoffPolicy) (s : Schedules) (eventType : Option String) (deliveries : Nat)
    (maxReceiveCount : Option Nat) : Int :=
  if maxReceiveCount = some deliveries then 0
  else
    let schedule := p.scheduleFor s eventType
    (schedule[max deliveries 1 - 1]? <|> schedule.getLast?).getD 0

end BackoffPolicy

end DeadLetter
