import DeadLetter.Service.Lookup
import DeadLetter.Service.Report

/-!
# Reading dead letter queues

An inspection receives messages in batches without deleting them, until it has as many as were asked for and found, or a
batch is empty.
-/

namespace DeadLetter

set_option autoImplicit false

open Attempt

namespace QueueHandle

/-- Receives up to `wanted` messages in batches. -/
def collect (dlqUrl : String) (wanted : Nat) : Attempt (List Received) := do
  if wanted = 0 then return []
  match ← call (.receive dlqUrl (min wanted Call.maxBatch) 0) with
  | [] => return []
  | m :: ms =>
    let rest ← collect dlqUrl (wanted - (m :: ms).length)
    return m :: ms ++ rest
termination_by wanted
decreasing_by simp; omega

def inspect (q : QueueHandle) (p : NumberPolicy) (limit : Int) : Attempt InspectionReport := do
  match q.dlq with
  | none => return ⟨0, 0, []⟩
  | some dlq =>
    let dlqUrl ← q.urlOfDlq dlq.name
    let found := (← call (.queueAttributes dlqUrl)).messages
    let messages ← collect dlqUrl (min found limit).toNat
    return ⟨found, messages.length, messages.map (·.report p)⟩

end QueueHandle

end DeadLetter
