import DeadLetter.Provider.TopicStore

/-!
# A provider in memory

Queues, topics and buckets together. `perform` is the meaning of a call; what is published reaches the queues unless
delivery is off.
-/

namespace DeadLetter

set_option autoImplicit false

/-- The state of the provider. -/
structure Memory where
  queues : QueueStore := {}
  topics : TopicStore := {}
  buckets : List String := []
  delivers : Bool := true
deriving DecidableEq, Repr, Inhabited

namespace Memory

/-- Publishes a message and delivers its notification to the queues. -/
def publish (p : Memory) (arn : String) (m : Outbound) : Except QueueError String × Memory :=
  match p.topics.publish arn m with
  | (.error e, topics) => (.error e, { p with topics := topics })
  | (.ok publication, topics) =>
    let deliver (s : QueueStore) (queue : String) : QueueStore :=
      (s.seed queue { body := publication.body, group := m.group }).2
    (.ok publication.id, { p with
      topics := topics
      queues := if p.delivers then publication.queues.foldl deliver p.queues else p.queues })

def headBucket (p : Memory) (bucket : String) : Except QueueError Unit :=
  if bucket ∈ p.buckets then .ok () else .error (QueueStore.missing .headBucket bucket)

def onQueues {α : Type} (p : Memory) (f : QueueStore → α × QueueStore) : α × Memory :=
  let (a, queues) := f p.queues
  (a, { p with queues := queues })

def onTopics {α : Type} (p : Memory) (f : TopicStore → α × TopicStore) : α × Memory :=
  let (a, topics) := f p.topics
  (a, { p with topics := topics })

/-- What a call returns and leaves behind. -/
def perform (p : Memory) : (c : Call) → Except QueueError c.Reply × Memory
  | .queueUrl queue => p.onQueues (·.queueUrl queue)
  | .queueAttributes url => p.onQueues (·.queueAttributes url)
  | .receive url limit _ => p.onQueues (·.receive url limit)
  | .send url m => p.onQueues (·.send url m)
  | .delete url handle => p.onQueues (·.delete url handle)
  | .purge url => p.onQueues (·.purge url)
  | .changeVisibility url handle seconds => p.onQueues (·.changeVisibility url handle seconds)
  | .createQueue queue attributes => p.onQueues (·.createQueue queue attributes)
  | .publish arn m => p.publish arn m
  | .subscribe arn queueArn filter => p.onTopics (·.subscribe arn queueArn filter)
  | .topicAttributes arn => p.onTopics (·.topicAttributes arn)
  | .createTopic topic attributes => p.onTopics (·.createTopic topic attributes)
  | .headBucket bucket => (p.headBucket bucket, p)

end Memory

end DeadLetter
