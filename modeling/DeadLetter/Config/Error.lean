import DeadLetter.Text.Numeral

/-!
# Configuration errors

Each rule that a configuration can break is a constructor; `message` holds the wording.
-/

namespace DeadLetter

set_option autoImplicit false

/-- The kinds of entries of a configuration. -/
inductive EntryKind where
  | queue
  | topic
  | bucket
deriving DecidableEq, Repr

def EntryKind.name : EntryKind → String
  | queue => "Queue"
  | topic => "Topic"
  | bucket => "Bucket"

/-- What is wrong with a subscription filter. -/
inductive FilterProblem where
  | notJson
  | notObject
deriving DecidableEq, Repr

def FilterProblem.reason : FilterProblem → String
  | notJson => "not JSON"
  | notObject => "filter policy must be a JSON object"

/-- Why a configuration is refused. -/
inductive ConfigError where
  | unreadable (path : String)
  | malformed
  | idNotLowercase (id : String)
  | blank (kind : EntryKind) (id field : String)
  | duplicate (field value : String)
  | fifoMismatch (id queueName dlqName : String)
  | throughputLimitOnStandardQueue (id : String)
  | invalidThroughputLimit (id value : String)
  | unknownTopic (id topicId : String)
  | fifoTopicStandardQueue (id topicId : String)
  | filterWithoutTopic (id : String)
  | invalidFilter (id : String) (problem : FilterProblem)
  | invalidVisibilityTimeout (id : String) (value : Int)
  | invalidMaxReceiveCount (id : String)
  | incompleteCredentials (kind : EntryKind) (id : String)
  | topicRegionMismatch (id arn region : String)
deriving DecidableEq, Repr

def ConfigError.message : ConfigError → String
  | unreadable path => "Unable to read configuration " ++ path
  | malformed => "Malformed configuration"
  | idNotLowercase id => "Id " ++ id ++ " must be lowercase"
  | blank kind id field => kind.name ++ " " ++ id ++ " has an empty " ++ field
  | duplicate field value => "Found duplicated " ++ field ++ " " ++ value
  | fifoMismatch id queueName dlqName =>
    "Queue " ++ id ++ " mixes FIFO and standard names: " ++ queueName ++ " / " ++ dlqName
  | throughputLimitOnStandardQueue id =>
    "Queue " ++ id ++ " declares fifo_throughput_limit but is not a FIFO queue"
  | invalidThroughputLimit id value => "Queue " ++ id ++ " has an invalid fifo_throughput_limit " ++ value
  | unknownTopic id topicId => "Queue " ++ id ++ " wants to subscribe to " ++ topicId ++ " but it does not exist"
  | fifoTopicStandardQueue id topicId => "Queue " ++ id ++ " is not FIFO but subscribes to FIFO topic " ++ topicId
  | filterWithoutTopic id => "Queue " ++ id ++ " has a subscribe_filter but no subscribe_topic_id"
  | invalidFilter id problem => "Queue " ++ id ++ " has an invalid subscribe_filter: " ++ problem.reason
  | invalidVisibilityTimeout id value => "Queue " ++ id ++ " has an invalid visibility timeout " ++ Text.intText value
  | invalidMaxReceiveCount id => "Queue " ++ id ++ " must have a dlq_max_receive_count of at least 1"
  | incompleteCredentials kind id =>
    kind.name ++ " " ++ id ++ " has an access key id without a secret access key or vice versa"
  | topicRegionMismatch id arn region => "Topic " ++ id ++ " ARN " ++ arn ++ " does not match region " ++ region

end DeadLetter
