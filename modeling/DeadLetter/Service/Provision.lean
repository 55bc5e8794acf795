import DeadLetter.Config.Properties
import DeadLetter.Provider.Routine
import DeadLetter.Registry.Basic

/-!
# Provisioning

`provision` creates what a configuration names: topics first, then each dead letter queue ahead of its queue, and the
subscription of the queue to its topic. It stops at the first failure.
-/

namespace DeadLetter

set_option autoImplicit false

open Attempt

namespace Provision

def fifoAttributes (fifo : Bool) : List (String × String) := if fifo then [("FifoQueue", "true")] else []

def arnOf (url : String) : Attempt String := do
  match (← call (.queueAttributes url)).arn with
  | some arn => return arn
  | none => throw (.missingField "GetQueueAttributes" "QueueArn")

/-- Creates the dead letter queue, and returns the attributes that it gives its queue. -/
def dlq (q : QueueHandle) (p : QueueProperties) : Attempt (List (String × String)) :=
  match q.dlq with
  | none => return []
  | some dlq => do
    let url ← call (.createQueue dlq.name (Dict.ofList (fifoAttributes p.isFifo)))
    let arn ← arnOf url
    return [("RedrivePolicy", RedrivePolicy.text ⟨arn, p.dlqMaxReceiveCount⟩)]

def throughputAttributes (p : QueueProperties) : List (String × String) :=
  match p.isFifo, p.fifoThroughputLimit with
  | true, some limit =>
    ("FifoThroughputLimit", limit) ::
      if limit = "perMessageGroupId" then [("DeduplicationScope", "messageGroup")] else []
  | _, _ => []

/-- Creates a queue and subscribes it to its topic. -/
def queue (r : Registry) (q : QueueHandle) (p : QueueProperties) : Attempt Unit := do
  let redrive ← dlq q p
  let url ← call (.createQueue q.name (Dict.ofList
    (("VisibilityTimeout", Text.intText p.visibilityTimeout) :: redrive ++ fifoAttributes p.isFifo ++
      throughputAttributes p)))
  match p.subscribeTopicId.bind r.topicById? with
  | none => return ()
  | some topic =>
    let arn ← arnOf url
    let _ ← call (.subscribe topic.arn arn p.subscribeFilter)

def topics (r : Registry) : List (String × TopicProperties) → Attempt Unit
  | [] => return ()
  | (id, t) :: rest => do
    if let some topic := r.topicById? id then
      let _ ← call (.createTopic t.name (Dict.ofList (if topic.isFifo then [("FifoTopic", "true")] else [])))
    topics r rest

def queues (r : Registry) : List (String × QueueProperties) → Attempt Unit
  | [] => return ()
  | (id, p) :: rest => do
    if let some q := r.queueById? id then queue r q p
    queues r rest

end Provision

/-- Creates the topics, queues and subscriptions of a configuration. -/
def Registry.provision (r : Registry) (p : Properties) : Attempt Unit := do
  Provision.topics r p.topics
  Provision.queues r p.queues

end DeadLetter
