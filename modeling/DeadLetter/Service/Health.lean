import DeadLetter.Service.Lookup
import DeadLetter.Json.Value

/-!
# Health

The health of a component is up or down, with details. A check never fails: a failure of the provider turns the
component down and is told under `error`. A report is up only if all its components are.
-/

namespace DeadLetter

set_option autoImplicit false

open Attempt

/-- Whether a component works. -/
inductive HealthStatus where
  | up
  | down
deriving DecidableEq, Repr

def HealthStatus.name : HealthStatus → String
  | up => "UP"
  | down => "DOWN"

/-- The health of a component. -/
structure Health where
  status : HealthStatus
  details : Dict Json
deriving Repr, BEq

/-- The health of all components, by their ids. -/
structure HealthReport where
  status : HealthStatus
  components : Dict Health
deriving Repr, BEq

namespace Health

/-- A component that works, with its name. -/
def start (key name : String) : Health := ⟨.up, [(key, .string name)]⟩

def detail (h : Health) (key : String) (value : Json) : Health := { h with details := h.details.put key value }

/-- Turns a component down, and tells why. -/
def fail (h : Health) (reason : String) : Health := { h with status := .down }.detail "error" (.string reason)

def toJson (h : Health) : Json := .ofMembers [("status", .string h.status.name), ("details", .object h.details)]

end Health

def QueueHandle.attributes (q : QueueHandle) : Attempt QueueAttributes := do call (.queueAttributes (← q.url))

def QueueHandle.dlqAttributes (q : QueueHandle) (dlq : String) : Attempt QueueAttributes := do
  call (.queueAttributes (← q.urlOfDlq dlq))

def QueueHandle.addDlqHealth (q : QueueHandle) (dlq : String) (h : Health) : Routine Health := do
  match ← (q.dlqAttributes dlq).result with
  | .ok attributes =>
    return (h.detail "dlqStatus" (.string HealthStatus.up.name)).detail "messagesOnDlq" (.int attributes.messages)
  | .error e => return (h.detail "dlqStatus" (.string HealthStatus.down.name)).fail e.message

def QueueHandle.health (q : QueueHandle) : Routine Health := do
  let attributes ← q.attributes.result
  let h := Health.start "queueName" q.name
  let h := match attributes with
    | .ok a => (h.detail "messagesOnQueue" (.int a.messages)).detail "messagesInFlight" (.int a.inFlight)
    | .error e => h.fail e.message
  match q.dlq with
  | none => return h
  | some dlq =>
    let h := h.detail "dlqName" (.string dlq.name)
    match attributes with
    | .ok { redrive := none, .. } =>
      return (h.detail "dlqStatus" (.string HealthStatus.down.name)).fail "The main queue has no redrive policy"
    | _ => q.addDlqHealth dlq.name h

def TopicHandle.health (t : TopicHandle) : Routine Health := do
  let h := Health.start "topicArn" t.arn
  match ← (call (.topicAttributes t.arn)).result with
  | .ok a =>
    return (h.detail "subscriptionsConfirmed" (.int a.confirmed)).detail "subscriptionsPending" (.int a.pending)
  | .error e => return h.fail e.message

def BucketHandle.health (b : BucketHandle) : Routine Health := do
  let h := Health.start "bucketName" b.name
  match ← (call (.headBucket b.name)).result with
  | .ok _ => return h
  | .error e => return h.fail e.message

/-- Checks components in order, a later one replacing an earlier one with its id. -/
def checkEach : List (String × Routine Health) → Dict Health → Routine (Dict Health)
  | [], done => return done
  | (id, check) :: rest, done => do checkEach rest (done.put id (← check))

/-- The checks of a registry: queues, topics, buckets. -/
def Registry.checks (r : Registry) : List (String × Routine Health) :=
  r.queues.map (fun q => (q.id, q.health)) ++ r.topics.map (fun t => (t.id, t.health)) ++
    r.buckets.map (fun b => (b.id, b.health))

def Registry.health (r : Registry) : Routine HealthReport := do
  let components ← checkEach r.checks []
  return ⟨if components.values.all (·.status = .up) then .up else .down, components⟩

def HealthReport.toJson (r : HealthReport) : Json :=
  .ofMembers [("status", .string r.status.name),
    ("components", .ofMembers (r.components.map fun (id, h) => (id, h.toJson)))]

end DeadLetter
