import DeadLetter.Backoff
import DeadLetter.Credentials
import DeadLetter.Naming

/-!
# Configuration

Queues, topics and buckets are configured under ids, in the order of the document. Every setting but the names has a
default.
-/

namespace DeadLetter

set_option autoImplicit false

/-- Which endpoints the clients talk to. -/
inductive ProviderKind where
  | aws
  | localstack
deriving DecidableEq, Repr, Inhabited

namespace ProviderKind

def name : ProviderKind → String
  | aws => "aws"
  | localstack => "localstack"

def ofName? (s : String) : Option ProviderKind :=
  if s = "aws" then some aws else if s = "localstack" then some localstack else none

end ProviderKind

/-- The settings of a queue and its dead letter queue. -/
structure QueueProperties where
  queueName : String
  dlqName : Option String := none
  subscribeTopicId : Option String := none
  subscribeFilter : Option String := none
  dlqMaxReceiveCount : Nat := 5
  visibilityTimeout : Int := 30
  errorVisibilityTimeout : List Int := []
  eventErrorVisibilityTimeout : Dict (List Int) := []
  fifoThroughputLimit : Option String := none
  queueAccessKeyId : Option String := none
  queueSecretAccessKey : Option String := none
  dlqAccessKeyId : Option String := none
  dlqSecretAccessKey : Option String := none
deriving DecidableEq, Repr

namespace QueueProperties

def isFifo (q : QueueProperties) : Bool := DeadLetter.isFifo q.queueName

def schedules (q : QueueProperties) : Schedules := ⟨q.errorVisibilityTimeout, q.eventErrorVisibilityTimeout⟩

def credentials? (q : QueueProperties) : Option Credentials :=
  Credentials.ofPair? q.queueAccessKeyId q.queueSecretAccessKey

def dlqCredentials? (q : QueueProperties) : Option Credentials :=
  Credentials.ofPair? q.dlqAccessKeyId q.dlqSecretAccessKey

end QueueProperties

/-- The settings of a topic. -/
structure TopicProperties where
  arn : String
  accessKeyId : Option String := none
  secretAccessKey : Option String := none
deriving DecidableEq, Repr

namespace TopicProperties

def name (t : TopicProperties) : String := nameOfArn t.arn

def isFifo (t : TopicProperties) : Bool := DeadLetter.isFifo t.arn

def credentials? (t : TopicProperties) : Option Credentials := Credentials.ofPair? t.accessKeyId t.secretAccessKey

end TopicProperties

/-- The settings of a bucket. -/
structure BucketProperties where
  bucketName : String
deriving DecidableEq, Repr

/-- A whole configuration. -/
structure Properties where
  provider : ProviderKind := .aws
  region : String := "eu-west-2"
  localstackUrl : String := "http://localhost:4566"
  defaultErrorVisibilityTimeout : List Int := []
  queues : List (String × QueueProperties) := []
  topics : List (String × TopicProperties) := []
  buckets : List (String × BucketProperties) := []
deriving DecidableEq, Repr

namespace Properties

def topic? (p : Properties) (id : String) : Option TopicProperties := p.topics.lookup id

def backoff (p : Properties) : BackoffPolicy := ⟨p.defaultErrorVisibilityTimeout⟩

end Properties

end DeadLetter
