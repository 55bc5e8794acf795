import DeadLetter.Service.Lookup
import DeadLetter.Service.Report

/-!
# Purging queues

A purge names a queue by its main name, or else by its name as a dead letter queue. A queue that looks empty is left
alone.
-/

namespace DeadLetter

set_option autoImplicit false

open Attempt

/-- A queue to purge. -/
structure PurgeRequest where
  queue : String
  url : String
  client : Nat
deriving DecidableEq, Repr

def purgeEvent (queue : String) (found : Int) : Event where
  name := "PurgeQueue"
  properties := Dict.ofList [("queue-name", queue), ("messages-found", Text.intText found)]

/-- Purges a queue unless it looks empty. -/
def PurgeRequest.purge (r : PurgeRequest) : Attempt PurgeReport := do
  let found := (← call (.queueAttributes r.url)).messages
  if 0 < found then
    call (.purge r.url)
    track (purgeEvent r.queue found)
  return ⟨found⟩

/-- The request to purge the dead letter queue, if the queue has one. -/
def QueueHandle.dlqPurge? (q : QueueHandle) : Attempt (Option PurgeRequest) :=
  match q.dlq with
  | none => return none
  | some dlq => return some ⟨dlq.name, ← q.urlOfDlq dlq.name, dlq.client⟩

/-- Purges the dead letter queue. Without one there is nothing to purge. -/
def QueueHandle.purgeDlq (q : QueueHandle) : Attempt PurgeReport := do
  match ← q.dlqPurge? with
  | some request => request.purge
  | none => return ⟨0⟩

/-- The request to purge the queue of a name, if there is one. -/
def Registry.purgeOf? (r : Registry) (name : String) : Attempt (Option PurgeRequest) :=
  match r.queueByName? name with
  | some q => return some ⟨q.name, ← q.url, q.client⟩
  | none =>
    match r.queueByDlqName? name with
    | some q => q.dlqPurge?
    | none => return none

end DeadLetter
