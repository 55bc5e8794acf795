import DeadLetter.Provider.QueueStore
import DeadLetter.Json.Draft
import DeadLetter.Json.Printer

/-!
# Topics in memory

A topic keeps its subscriptions in order, each with an optional filter, and everything published. A published message is
wrapped into a notification and handed on to every subscription whose filter it matches.
-/

namespace DeadLetter

set_option autoImplicit false

/-- A subscription of a queue to a topic. -/
structure Subscription where
  queueArn : String
  filter : Option String
deriving DecidableEq, Repr

/-- A topic. -/
structure TopicState where
  attributes : Dict String := []
  subscriptions : List Subscription := []
  published : List Outbound := []
  pending : Int := 0
deriving DecidableEq, Repr, Inhabited

/-- All topics, with what is recorded about the calls. -/
structure TopicStore where
  topics : Dict TopicState := []
  calls : Dict Nat := []
  failingOperations : List Operation := []
  lastId : Nat := 0
deriving DecidableEq, Repr, Inhabited

/-- Whether attributes pass a filter: a JSON object each key of which names an attribute whose text is listed there. -/
def filterMatches (filter : String) (attributes : Attributes) : Bool :=
  match Json.read? filter with
  | some (.object policy) =>
    policy.all fun (name, allowed) =>
      match (attributes.get? name).bind (·.stringValue), allowed with
      | some value, .array items => items.any (·.string? == some value)
      | _, _ => false
  | _ => false

/-- Whether a message with these attributes goes to a subscription. -/
def Subscription.accepts (s : Subscription) (attributes : Attributes) : Bool :=
  match s.filter with
  | none => true
  | some filter => filterMatches filter attributes

/-- The notification of a published message. -/
def notification (arn id : String) (m : Outbound) : Json :=
  .ofMembers [
    ("Type", .string "Notification"),
    ("MessageId", .string id),
    ("TopicArn", .string arn),
    ("Message", .string m.body),
    ("MessageAttributes", .ofMembers (m.attributes.map fun (name, a) =>
      (name, .ofMembers [("Type", .string a.dataType), ("Value", .ofText? a.stringValue)])))]

namespace TopicStore

def arnOf (topic : String) : String := "arn:aws:sns:eu-west-2:" ++ QueueStore.account ++ ":" ++ topic

/-- Changes a topic, creating it if it is not there. -/
def adjust (s : TopicStore) (arn : String) (f : TopicState → TopicState) : TopicStore :=
  { s with topics := s.topics.put arn (f ((s.topics.get? arn).getD {})) }

def setPending (s : TopicStore) (arn : String) (pending : Int) : TopicStore :=
  s.adjust arn fun t => { t with pending := pending }

def failOperation (s : TopicStore) (op : Operation) : TopicStore :=
  { s with failingOperations := op :: s.failingOperations }

def counted (s : TopicStore) (op : Operation) : TopicStore :=
  { s with calls := s.calls.put op.name ((s.calls.get? op.name).getD 0 + 1) }

/-- Counts a call, and goes on unless it is made to fail. -/
def attempt {α : Type} (s : TopicStore) (op : Operation) (go : TopicStore → Except QueueError α × TopicStore) :
    Except QueueError α × TopicStore :=
  if op ∈ s.failingOperations then (.error (QueueStore.injected op), s.counted op) else go (s.counted op)

/-- Goes on with a topic that must be there. -/
def locate {α : Type} (s : TopicStore) (op : Operation) (arn : String)
    (go : TopicState → Except QueueError α × TopicStore) : Except QueueError α × TopicStore :=
  match s.topics.get? arn with
  | some t => go t
  | none => (.error (QueueStore.missing op arn), s)

/-- The same store with another state of a topic. -/
def withTopic (s : TopicStore) (arn : String) (t : TopicState) : TopicStore :=
  { s with topics := s.topics.put arn t }

/-- What a publication hands on: its id, the text of the notification and the queues that get it. -/
structure Publication where
  id : String
  body : String
  queues : List String
deriving DecidableEq, Repr

def publish (s : TopicStore) (arn : String) (m : Outbound) : Except QueueError Publication × TopicStore :=
  s.attempt .publish fun s =>
    let id := "sns-" ++ Text.natText (s.lastId + 1)
    let s := { s with lastId := s.lastId + 1 }
    s.locate .publish arn fun t =>
      (.ok {
        id := id
        body := (notification arn id m).compact
        queues := (t.subscriptions.filter (·.accepts m.attributes)).map (nameOfArn ·.queueArn) },
        s.withTopic arn { t with published := t.published ++ [m] })

def subscribe (s : TopicStore) (arn queueArn : String) (filter : Option String) :
    Except QueueError String × TopicStore :=
  s.attempt .subscribe fun s => s.locate .subscribe arn fun t =>
    (.ok (arn ++ ":sub-" ++ Text.natText (t.subscriptions.length + 1)),
      s.withTopic arn { t with subscriptions := t.subscriptions ++ [⟨queueArn, filter⟩] })

def topicAttributes (s : TopicStore) (arn : String) : Except QueueError TopicAttributes × TopicStore :=
  s.attempt .getTopicAttributes fun s => s.locate .getTopicAttributes arn fun t =>
    (.ok ⟨min t.subscriptions.length QueueStore.maxCount, t.pending⟩, s)

/-- Creates a topic. The attributes of a topic that has some stay as they are. -/
def createTopic (s : TopicStore) (topic : String) (attributes : Dict String) :
    Except QueueError String × TopicStore :=
  s.attempt .createTopic fun s =>
    (.ok (arnOf topic), s.adjust (arnOf topic) fun t =>
      if t.attributes.isEmpty then { t with attributes := attributes } else t)

end TopicStore

end DeadLetter
