import DeadLetter.Service.Retry

/-!
# Sweeps

A sweep retries every dead letter queue and counts the messages moved. `sweepUntil` sweeps at every whole multiple of an
interval before a moment.
-/

namespace DeadLetter.Registry

set_option autoImplicit false

def moved : List RetryReport → Nat
  | [] => 0
  | r :: rs => r.messages.length + moved rs

/-- Retries all queues, counts the sweep, and returns the number of messages moved. -/
def sweep (r : Registry) (p : NumberPolicy) : Routine Nat := do
  let reports ← r.retryAll p
  Routine.perform .countSweep
  return moved reports

def sweeps (r : Registry) (p : NumberPolicy) : Nat → Routine Unit
  | 0 => return ()
  | n + 1 => do
    let _ ← r.sweep p
    r.sweeps p n

/-- Sweeps at every whole multiple of `interval` that comes before `stop`. -/
def sweepUntil (r : Registry) (p : NumberPolicy) (interval stop : Nat) : Routine Unit :=
  r.sweeps p ((stop - 1) / interval)

end DeadLetter.Registry
