import DeadLetter.Message
import DeadLetter.QueueError
import DeadLetter.RedrivePolicy

/-!
# Calls to the provider

`Call` lists what can be asked of the provider of queues, topics and buckets, and `Call.Reply` what a successful call
returns. `Operation` names the kinds of calls on queues and topics, by which they are counted and made to fail.
-/

namespace DeadLetter

set_option autoImplicit false

/-- The operations of the provider. -/
inductive Operation where
  | getQueueUrl
  | getQueueAttributes
  | receiveMessage
  | sendMessage
  | deleteMessage
  | purgeQueue
  | changeMessageVisibility
  | createQueue
  | publish
  | subscribe
  | getTopicAttributes
  | createTopic
  | headBucket
deriving DecidableEq, Repr

namespace Operation

def name : Operation → String
  | getQueueUrl => "GetQueueUrl"
  | getQueueAttributes => "GetQueueAttributes"
  | receiveMessage => "ReceiveMessage"
  | sendMessage => "SendMessage"
  | deleteMessage => "DeleteMessage"
  | purgeQueue => "PurgeQueue"
  | changeMessageVisibility => "ChangeMessageVisibility"
  | createQueue => "CreateQueue"
  | publish => "Publish"
  | subscribe => "Subscribe"
  | getTopicAttributes => "GetTopicAttributes"
  | createTopic => "CreateTopic"
  | headBucket => "HeadBucket"

def onQueues : List Operation :=
  [getQueueUrl, getQueueAttributes, receiveMessage, sendMessage, deleteMessage, purgeQueue, changeMessageVisibility,
    createQueue]

def onTopics : List Operation := [publish, subscribe, getTopicAttributes, createTopic]

def ofName? (s : String) : Option Operation := (onQueues ++ onTopics ++ [headBucket]).find? (·.name == s)

end Operation

/-- What the provider knows about a queue. -/
structure QueueAttributes where
  arn : Option String
  messages : Int
  inFlight : Int
  redrive : Option RedrivePolicy
deriving DecidableEq, Repr

/-- What the provider knows about the subscriptions of a topic. -/
structure TopicAttributes where
  confirmed : Int
  pending : Int
deriving DecidableEq, Repr

/-- A call to the provider. -/
inductive Call where
  | queueUrl (queue : String)
  | queueAttributes (url : String)
  | receive (url : String) (limit : Nat) (wait : Int)
  | send (url : String) (message : Outbound)
  | delete (url handle : String)
  | purge (url : String)
  | changeVisibility (url handle : String) (seconds : Int)
  | createQueue (queue : String) (attributes : Dict String)
  | publish (arn : String) (message : Outbound)
  | subscribe (arn queueArn : String) (filter : Option String)
  | topicAttributes (arn : String)
  | createTopic (topic : String) (attributes : Dict String)
  | headBucket (bucket : String)
deriving DecidableEq, Repr

namespace Call

/-- What a successful call returns. -/
abbrev Reply : Call → Type
  | queueUrl _ => String
  | queueAttributes _ => QueueAttributes
  | receive .. => List Received
  | send .. => String
  | delete .. => Unit
  | purge _ => Unit
  | changeVisibility .. => Unit
  | createQueue .. => String
  | publish .. => String
  | subscribe .. => String
  | topicAttributes _ => TopicAttributes
  | createTopic .. => String
  | headBucket _ => Unit

/-- The most messages that one receive returns. -/
def maxBatch : Nat := 10

/-- A receive of at most `limit` messages, of which one is asked for at least and ten at most. -/
def receiveUpTo (url : String) (limit wait : Int) : Call := .receive url (max 1 (min limit maxBatch)).toNat wait

end Call

end DeadLetter
