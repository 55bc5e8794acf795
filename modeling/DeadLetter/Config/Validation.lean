import DeadLetter.Config.Error
import DeadLetter.Config.Properties
import DeadLetter.Json.Draft
import DeadLetter.Text.Blank
import DeadLetter.Text.Casing

/-!
# Validation of a configuration

`validate` returns the first rule that is broken: ids first, then each queue in turn and what queues share, then topics,
then buckets.
-/

namespace DeadLetter

set_option autoImplicit false

namespace Validation

/-- Fails with an error if a condition holds. -/
def refuse (broken : Bool) (e : ConfigError) : Except ConfigError Unit := if broken then .error e else .ok ()

/-- The longest visibility timeout that the provider accepts, in seconds. -/
def maxVisibilityTimeout : Int := 43200

def isTimeout (t : Int) : Bool := 0 ≤ t && t ≤ maxVisibilityTimeout

/-- Checks timeouts, naming the queue they are set for. -/
def checkTimeouts (id : String) (ts : List Int) : Except ConfigError Unit :=
  ts.forM fun t => refuse (!isTimeout t) (.invalidVisibilityTimeout id t)

/-- The first value that stands in the list before, or in `seen`. -/
def firstRepeat? (seen : List String) : List String → Option String
  | [] => none
  | v :: vs => if v ∈ seen then some v else firstRepeat? (v :: seen) vs

/-- Checks that no value of a field occurs twice. -/
def checkDistinct (field : String) (values : List String) : Except ConfigError Unit :=
  match firstRepeat? [] values with
  | some v => .error (.duplicate field v)
  | none => .ok ()

/-- Checks that an id is in lower case. -/
def checkId (id : String) : Except ConfigError Unit := refuse (Text.lower id != id) (.idNotLowercase id)

/-- Checks the name of a dead letter queue. -/
def checkDlqName (id : String) (q : QueueProperties) : Except ConfigError Unit :=
  match q.dlqName with
  | none => .ok ()
  | some dlq => do
    refuse (Text.allBlank dlq) (.blank .queue id "dlq_name")
    refuse (q.isFifo != isFifo dlq) (.fifoMismatch id q.queueName dlq)

def checkThroughputLimit (id : String) (q : QueueProperties) : Except ConfigError Unit :=
  match q.fifoThroughputLimit with
  | none => .ok ()
  | some limit => do
    refuse (!q.isFifo) (.throughputLimitOnStandardQueue id)
    refuse (limit != "perQueue" && limit != "perMessageGroupId") (.invalidThroughputLimit id limit)

def checkSubscription (p : Properties) (id : String) (q : QueueProperties) : Except ConfigError Unit :=
  match q.subscribeTopicId, q.subscribeFilter with
  | some topicId, _ =>
    match p.topic? topicId with
    | none => .error (.unknownTopic id topicId)
    | some topic => refuse (topic.isFifo && !q.isFifo) (.fifoTopicStandardQueue id topicId)
  | none, some _ => .error (.filterWithoutTopic id)
  | none, none => .ok ()

/-- Checks that a subscription filter is a JSON object. -/
def checkFilter (id : String) (q : QueueProperties) : Except ConfigError Unit :=
  match q.subscribeFilter with
  | none => .ok ()
  | some filter =>
    match Json.read? filter with
    | some (.object _) => .ok ()
    | some _ => .error (.invalidFilter id .notObject)
    | none => .error (.invalidFilter id .notJson)

def checkQueue (p : Properties) (id : String) (q : QueueProperties) : Except ConfigError Unit := do
  refuse (Text.allBlank q.queueName) (.blank .queue id "queue_name")
  checkDlqName id q
  checkThroughputLimit id q
  checkSubscription p id q
  checkFilter id q
  checkTimeouts id (q.visibilityTimeout :: q.errorVisibilityTimeout ++ q.eventErrorVisibilityTimeout.values.flatten)
  refuse (q.dlqMaxReceiveCount == 0) (.invalidMaxReceiveCount id)
  refuse (q.queueAccessKeyId.isSome != q.queueSecretAccessKey.isSome ||
    q.dlqAccessKeyId.isSome != q.dlqSecretAccessKey.isSome) (.incompleteCredentials .queue id)

def checkQueues (p : Properties) : Except ConfigError Unit := do
  p.queues.forM fun (id, q) => checkQueue p id q
  checkTimeouts "default" p.defaultErrorVisibilityTimeout
  let queues := p.queues.map (·.2)
  checkDistinct "queue_name" (queues.map (·.queueName))
  checkDistinct "dlq_name" (queues.filterMap (·.dlqName))
  checkDistinct "queue_access_key_id" (queues.filterMap (·.queueAccessKeyId))
  checkDistinct "dlq_access_key_id" (queues.filterMap (·.dlqAccessKeyId))

/-- What the resource names of a region's topics begin with. -/
def topicArnStart (region : String) : String := "arn:aws:sns:" ++ region ++ ":"

def checkTopic (p : Properties) (id : String) (t : TopicProperties) : Except ConfigError Unit := do
  refuse (Text.allBlank t.arn) (.blank .topic id "arn")
  refuse (t.accessKeyId.isSome != t.secretAccessKey.isSome) (.incompleteCredentials .topic id)
  refuse (p.provider == .localstack && !Text.hasPrefix t.arn (topicArnStart p.region))
    (.topicRegionMismatch id t.arn p.region)

def checkTopics (p : Properties) : Except ConfigError Unit := do
  p.topics.forM fun (id, t) => checkTopic p id t
  let topics := p.topics.map (·.2)
  checkDistinct "topic arn" (topics.map (·.arn))
  checkDistinct "topic access_key_id" (topics.filterMap (·.accessKeyId))

def checkBuckets (p : Properties) : Except ConfigError Unit := do
  p.buckets.forM fun (id, b) => refuse (Text.allBlank b.bucketName) (.blank .bucket id "bucket_name")
  checkDistinct "bucket_name" (p.buckets.map (·.2.bucketName))

end Validation

open Validation in
/-- The first rule that a configuration breaks. -/
def validate (p : Properties) : Except ConfigError Unit := do
  (p.queues.map (·.1) ++ p.topics.map (·.1) ++ p.buckets.map (·.1)).forM checkId
  checkQueues p
  checkTopics p
  checkBuckets p

end DeadLetter
