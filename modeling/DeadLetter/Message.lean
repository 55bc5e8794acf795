import DeadLetter.Dict
import DeadLetter.Text.Numeral

/-!
# Messages

A message is written as `Outbound`, held by the provider as `Stored`, and handed to a consumer as `Received`, with a
receipt handle and the system attributes that tell how often it was delivered and to which group it belongs.
-/

namespace DeadLetter

set_option autoImplicit false

/-- A typed message attribute. -/
structure AttributeValue where
  dataType : String
  stringValue : Option String
  binaryValue : Option (List UInt8)
deriving DecidableEq, Repr, Inhabited

def AttributeValue.ofText (s : String) : AttributeValue := ⟨"String", some s, none⟩

abbrev Attributes := Dict AttributeValue

/-- The attribute that carries the type of an event. -/
def eventTypeAttribute : String := "eventType"

/-- What the provider recognises a repeated message by: an id of the sender's choice, or the `n`-th one made here. -/
inductive DeduplicationId where
  | given (id : String)
  | generated (n : Nat)
deriving DecidableEq, Repr

/-- A message to send to a queue or to publish to a topic. -/
structure Outbound where
  body : String
  attributes : Attributes := []
  group : Option String := none
  deduplication : Option DeduplicationId := none
deriving DecidableEq, Repr

/-- A message on a queue. The number of its deliveries has no bound. It stands for a count of 32 bits, which is the same
below `2 ^ 32`, and is at most the number of all deliveries (`QueueStore.Tally.deliveries_le`). -/
structure Stored where
  id : String
  body : String
  attributes : Attributes
  group : Option String
  deduplication : Option DeduplicationId
  deliveries : Nat
deriving DecidableEq, Repr

/-- A message as a consumer receives it. -/
structure Received where
  id : String
  handle : String
  body : String
  system : Dict String
  attributes : Attributes
deriving DecidableEq, Repr

/-- The system attribute that carries the number of deliveries. -/
def deliveryCountAttribute : String := "ApproximateReceiveCount"

/-- The system attribute that carries the group of an ordered message. -/
def groupAttribute : String := "MessageGroupId"

/-- How often the message was delivered, at least once. -/
def Received.deliveryCount (m : Received) : Nat :=
  match (m.system.get? deliveryCountAttribute).bind (Text.readNat? 0xFFFFFFFF) with
  | some n => max n 1
  | none => 1

def Received.group (m : Received) : Option String := m.system.get? groupAttribute

/-- A message that is put on a queue under an id. -/
def Outbound.store (m : Outbound) (id : String) : Stored :=
  ⟨id, m.body, m.attributes, m.group, m.deduplication, 0⟩

/-- The delivery of a message under a receipt handle. -/
def Stored.deliver (m : Stored) (handle : String) : Received where
  id := m.id
  handle := handle
  body := m.body
  system :=
    let counted := Dict.put [] deliveryCountAttribute (Text.natText m.deliveries)
    match m.group with
    | some g => counted.put groupAttribute g
    | none => counted
  attributes := m.attributes

end DeadLetter
