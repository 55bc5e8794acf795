import DeadLetter.Dict
import DeadLetter.Xml.Element

/-!
# What topics answer

The body of an answer about topics is an XML document with one element for the operation and, first in it, one for its
result. All fields that the result is known to have must be readable; of two with one name the later counts.
-/

namespace DeadLetter.Aws

set_option autoImplicit false

open Xml (Element Walk)

/-- Reads the elements of the result of an operation. -/
def result {α : Type} (operation : String) (read : α → Element → Walk α) (a : α) : Walk α := do
  let root ← Xml.root
  guard (root.name.own = operation ++ "Response")
  let result ← (← root.next)
  guard (result.name.own = operation ++ "Result")
  result.each read a

/-- Reads an element that is a field of one of these names, and passes over any other. -/
def readField (names : List String) (fields : Dict String) (e : Element) : Walk (Dict String) := do
  if e.name.own ∈ names then
    return fields.put e.name.own (← e.data)
  else
    e.leave
    return fields

def resultFields? (operation : String) (names : List String) (body : String) : Option (Dict String) :=
  Xml.walk? (result operation (readField names) []) body

def publishedId? (body : String) : Option (Option String) :=
  (resultFields? "Publish" ["MessageId", "SequenceNumber"] body).map (·.get? "MessageId")

def subscriptionArn? (body : String) : Option (Option String) :=
  (resultFields? "Subscribe" ["SubscriptionArn"] body).map (·.get? "SubscriptionArn")

def createdArn? (body : String) : Option (Option String) :=
  (resultFields? "CreateTopic" ["TopicArn"] body).map (·.get? "TopicArn")

/-- Reads an entry of a map, which has a key and a value, and passes over any other element. -/
def readEntry (entries : Dict String) (e : Element) : Walk (Dict String) := do
  if e.name.own = "entry" then
    let fields ← e.each (readField ["key", "value"]) []
    return entries.put (← fields.get? "key") (← fields.get? "value")
  else
    e.leave
    return entries

/-- Reads the attributes of a topic, and passes over any other element. -/
def readSettings (settings : Option (Dict String)) (e : Element) : Walk (Option (Dict String)) := do
  if e.name.own = "Attributes" then
    return some (← e.each readEntry [])
  else
    e.leave
    return settings

def topicSettings? (body : String) : Option (Option (Dict String)) :=
  Xml.walk? (result "GetTopicAttributes" readSettings none) body

end DeadLetter.Aws
