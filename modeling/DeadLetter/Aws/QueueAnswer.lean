import DeadLetter.Aws.Sdk
import DeadLetter.Json.Draft
import DeadLetter.Text.Base64

/-!
# What queues answer

The bodies of answers about queues are JSON objects, loosely written; an empty body is an empty object. A member that is
null is as good as none, and of two members with one name the later counts, but lists and maps hold no nulls. Members of
other names are passed over, if nothing in them nests too deep. This is the wire format as documented, over `Sdk.plain`; what
becomes of the messages is in `DeadLetter.Aws.Sdk`, for any library, and does not depend on it.
-/

namespace DeadLetter.Aws

set_option autoImplicit false

open Json (Draft)

abbrev Members := List (String × Draft)

/-- How deep arrays and objects nest at most in what is passed over. -/
def passedDepth : Nat := 512

def nullable? {α : Type} (read? : Draft → Option α) : Draft → Option (Option α)
  | .null => some none
  | d => (read? d).map some

def text? : Draft → Option String
  | .string w => Json.decodeText? w
  | _ => none

/-- The bytes of a string in base64, whose digits cannot be escaped. -/
def bytes? : Draft → Option (List UInt8)
  | .string w => Text.Base64.decode w
  | _ => none

def list? {α : Type} (read? : Draft → Option α) : Draft → Option (List α)
  | .array items => items.mapM read?
  | _ => none

def map? {α : Type} (read? : Draft → Option α) : Draft → Option (Dict α)
  | .object members => members.foldlM (fun d (w, v) => do
      let name ← Json.decodeText? w
      let a ← read? v
      some (d.put name a)) []
  | _ => none

/-- The members of an object, of which some names are known. -/
def members? (known : List String) : Draft → Option Members
  | .object members => members.mapM fun (w, v) => do
      let name ← Json.decodeText? w
      guard (name ∈ known || v.depth ≤ passedDepth)
      some (name, v)
  | _ => none

def member? {α : Type} (members : Members) (name : String) (read? : Draft → Option α) : Option (Option α) :=
  members.foldlM (fun found (k, d) => if k = name then nullable? read? d else some found) none

/-! ## Messages -/

/-- A message attribute of an answer. Its lists of values are read and dropped. -/
def attribute? (d : Draft) : Option Sdk.PlainAttribute := do
  let members ← members? ["DataType", "StringValue", "BinaryValue", "StringListValues", "BinaryListValues"] d
  let dataType ← member? members "DataType" text?
  let stringValue ← member? members "StringValue" text?
  let binaryValue ← member? members "BinaryValue" bytes?
  let _ ← member? members "StringListValues" (list? text?)
  let _ ← member? members "BinaryListValues" (list? bytes?)
  some ⟨dataType.getD "", stringValue, binaryValue⟩

def delivery? (d : Draft) : Option (Delivery String Sdk.PlainAttribute) := do
  let members ← members? ["MessageId", "ReceiptHandle", "Body", "Attributes", "MessageAttributes", "MD5OfBody",
    "MD5OfMessageAttributes"] d
  let id ← member? members "MessageId" text?
  let handle ← member? members "ReceiptHandle" text?
  let body ← member? members "Body" text?
  let system ← member? members "Attributes" (map? text?)
  let attributes ← member? members "MessageAttributes" (map? attribute?)
  let _ ← member? members "MD5OfBody" text?
  let _ ← member? members "MD5OfMessageAttributes" text?
  some ⟨id, handle, body, system, attributes⟩

/-! ## Bodies -/

/-- The members of a body, of which some names are known. -/
def bodyMembers? (known : List String) (body : String) : Option Members :=
  if body = "" then some [] else Json.Draft.readLoose? body >>= members? known

def bodyMember? {α : Type} (name : String) (read? : Draft → Option α) (body : String) : Option (Option α) := do
  member? (← bodyMembers? [name] body) name read?

def queueUrl? : String → Option (Option String) := bodyMember? "QueueUrl" text?

/-- The members of an answer to a message that was sent, all of them texts. -/
def sentNames : List String :=
  ["MessageId", "MD5OfMessageBody", "MD5OfMessageAttributes", "MD5OfMessageSystemAttributes", "SequenceNumber"]

def sentId? (body : String) : Option (Option String) := do
  let members ← bodyMembers? sentNames body
  for name in sentNames do
    let _ ← member? members name text?
  member? members "MessageId" text?

def deliveries? (body : String) : Option (List (Delivery String Sdk.PlainAttribute)) :=
  (bodyMember? "Messages" (list? delivery?) body).map (·.getD [])

def settings? : String → Option (Option (Dict String)) := bodyMember? "Attributes" (map? text?)

/-- A number that an attribute holds, or zero. -/
def count (settings : Dict String) (name : String) : Int :=
  match settings.get? name with
  | none => 0
  | some s =>
    match Text.readInt32 s with
    | .ok n => n
    | .error _ => 0

/-- What the attributes tell about a queue. A redrive policy has to be readable. -/
def queueAttributes (settings : Dict String) : Except QueueError QueueAttributes := do
  let redrive ← match settings.get? "RedrivePolicy" with
    | none => pure none
    | some text =>
      match RedrivePolicy.read? text with
      | some policy => pure (some policy)
      | none => throw (.invalidMessage ("Unreadable RedrivePolicy " ++ text))
  return {
    arn := settings.get? "QueueArn"
    messages := count settings "ApproximateNumberOfMessages"
    inFlight := count settings "ApproximateNumberOfMessagesNotVisible"
    redrive := redrive }

end DeadLetter.Aws
