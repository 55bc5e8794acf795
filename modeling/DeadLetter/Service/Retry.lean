import DeadLetter.Service.Lookup
import DeadLetter.Service.Report

/-!
# Moving messages back from dead letter queues

A retry makes as many attempts as there were messages on the dead letter queue at its start, unless the deadline passes
first. Each attempt receives a message, sends a copy to the main queue and only then deletes it; one that fails is
passed over. `retryAll` retries the queues of a registry in order and reports nothing moved for those that fail.
-/

namespace DeadLetter

set_option autoImplicit false

open Attempt

def RetryReport.empty : RetryReport := ⟨0, []⟩

namespace QueueHandle

/-- The copy of a message that goes to the main queue. On an ordered queue it keeps its group and is never a repeat. -/
def copyOf (q : QueueHandle) (m : Received) : Attempt Outbound := do
  if q.isFifo then
    let id ← generateId
    return { body := m.body, attributes := m.attributes, group := m.group, deduplication := some id }
  else return { body := m.body, attributes := m.attributes }

/-- Moves a message back, if the dead letter queue has one. -/
def moveOne (q : QueueHandle) (dlqUrl url : String) : Attempt (Option Received) := do
  match ← call (.receive dlqUrl 1 0) with
  | [] => return none
  | m :: _ =>
    let copy ← q.copyOf m
    let _ ← call (.send url copy)
    call (.delete dlqUrl m.handle)
    return some m

/-- Makes up to `attempts` attempts to move a message back, and returns those moved. -/
def drain (q : QueueHandle) (dlqUrl url : String) : Nat → Routine (List Received)
  | 0 => return []
  | attempts + 1 => do
    if ← Routine.perform .isLate then return []
    match ← (q.moveOne dlqUrl url).result with
    | .ok (some m) => return m :: (← q.drain dlqUrl url attempts)
    | .ok none | .error _ => q.drain dlqUrl url attempts

def retryEvent (dlq : String) (found : Int) (moved : Nat) : Event where
  name := "RetryDLQ"
  properties := Dict.ofList [("dlq-name", dlq), ("messages-found", Text.intText found),
    ("messages-retried", Text.natText moved)]

/-- Moves the messages of the dead letter queue back to the main queue. -/
def retry (q : QueueHandle) (p : NumberPolicy) : Attempt RetryReport := do
  match q.dlq with
  | none => return .empty
  | some dlq =>
    let dlqUrl ← q.urlOfDlq dlq.name
    let found := (← call (.queueAttributes dlqUrl)).messages
    if found ≤ 0 then return ⟨found, []⟩
    let url ← q.url
    let moved ← ExceptT.lift (q.drain dlqUrl url found.toNat)
    track (retryEvent dlq.name found moved.length)
    return ⟨found, moved.map (·.report p)⟩

end QueueHandle

def retryEach (p : NumberPolicy) : List QueueHandle → Routine (List RetryReport)
  | [] => return []
  | q :: qs => do
    let report ← (q.retry p).result
    let reports ← retryEach p qs
    return report.toOption.getD .empty :: reports

def Registry.retryAll (r : Registry) (p : NumberPolicy) : Routine (List RetryReport) := retryEach p r.queues

end DeadLetter
