import DeadLetter.Provider.Call

/-!
# Messages in the types of a client library

A client library for the service has types of its own for the names of system attributes and for message attributes.
`Sdk` is what is asked of it: to read these, and to build an attribute, which may fail. `received?` turns its messages
into received ones, `buildAttributes` turns message attributes back, and `outbound` makes the input of a send.
`Sdk.plain` is the library over plain records that `reply` and `request` go by.
-/

namespace DeadLetter.Aws

set_option autoImplicit false

/-- What a message attribute is built from. What is not set is missing. -/
structure AttributeBuilder where
  dataType : Option String := none
  stringValue : Option String := none
  binaryValue : Option (List UInt8) := none

/-- A client library, with its types of names of system attributes and of message attributes. -/
structure Sdk (Name Value : Type) where
  nameText : Name → String
  dataType : Value → String
  stringValue : Value → Option String
  binaryValue : Value → Option (List UInt8)
  build : AttributeBuilder → Except String Value

/-- A message of an answer. Its maps are lists of entries, in any order. -/
structure Delivery (Name Value : Type) where
  id : Option String
  handle : Option String
  body : Option String
  system : Option (List (Name × String))
  attributes : Option (List (String × Value))
deriving DecidableEq, Repr

/-- A message to send or to publish. -/
structure Dispatch (Value : Type) where
  body : String
  attributes : Option (List (String × Value))
  group : Option String
  deduplication : Option String

def deduplicationText : DeduplicationId → String
  | .given id => id
  | .generated n => Text.natText n

namespace Sdk
variable {Name Value : Type} (sdk : Sdk Name Value)

def readAttribute (v : Value) : AttributeValue := ⟨sdk.dataType v, sdk.stringValue v, sdk.binaryValue v⟩

/-- The message that is received. It must have an id and a receipt handle. -/
def received? (d : Delivery Name Value) : Option Received := do
  let id ← d.id
  let handle ← d.handle
  some {
    id := id
    handle := handle
    body := d.body.getD ""
    system := Dict.ofList ((d.system.getD []).map fun (name, text) => (sdk.nameText name, text))
    attributes := Dict.ofList ((d.attributes.getD []).map fun (name, v) => (name, sdk.readAttribute v)) }

/-- What a receive returns, given the answer. -/
def receive (answer : Except QueueError (List (Delivery Name Value))) : Except QueueError (List Received) :=
  answer.map (·.filterMap sdk.received?)

def buildAttribute (a : AttributeValue) : Except QueueError Value :=
  match sdk.build { dataType := some a.dataType, stringValue := a.stringValue, binaryValue := a.binaryValue } with
  | .ok v => .ok v
  | .error e => .error (.invalidMessage e)

/-- The attributes of a message to send. If one cannot be built the message is invalid. -/
def buildAttributes (attributes : Attributes) : Except QueueError (List (String × Value)) :=
  attributes.mapM fun (name, a) => do return (name, ← sdk.buildAttribute a)

def outbound (m : Outbound) : Except QueueError (Dispatch Value) := do
  let attributes ← sdk.buildAttributes m.attributes
  return {
    body := m.body
    attributes := if attributes.isEmpty then none else some attributes
    group := m.group
    deduplication := m.deduplication.map deduplicationText }

/-- A message attribute as a record of what it was built from. -/
structure PlainAttribute where
  dataType : String
  stringValue : Option String
  binaryValue : Option (List UInt8)
deriving DecidableEq, Repr

def plain : Sdk String PlainAttribute where
  nameText name := name
  dataType := (·.dataType)
  stringValue := (·.stringValue)
  binaryValue := (·.binaryValue)
  build
    | ⟨some dataType, stringValue, binaryValue⟩ => .ok ⟨dataType, stringValue, binaryValue⟩
    | ⟨none, _, _⟩ => .error "an attribute without a type"

end Sdk

end DeadLetter.Aws
