import DeadLetter.Aws.Answer
import DeadLetter.Aws.Sdk
import DeadLetter.Json.Value
import DeadLetter.Text.Base64
import DeadLetter.Text.Percent
import DeadLetter.Text.Segment

/-!
# Requests to AWS

How each call is put to its service: queues take a target and a JSON object, topics the fields of a form, buckets a bare
`HEAD`. Byte values travel in base64. What is optional and missing is left out. There is no request for a message whose
attributes cannot be built, nor for a bucket that has no address.
-/

namespace DeadLetter.Aws

set_option autoImplicit false

/-- A request. -/
inductive Request where
  | json (target : String) (body : Json)
  | form (fields : Dict String)
  | head (host path : String)
deriving Repr, BEq

def optional {α : Type} (name : String) (value : Option α) (write : α → Json) : List (String × Json) :=
  match value with
  | some v => [(name, write v)]
  | none => []

def bytesText (bytes : List UInt8) : String := .ofList (Text.Base64.encode bytes)

/-! ## Queues -/

def attributeJson (a : Sdk.PlainAttribute) : Json :=
  .ofMembers (("DataType", .string a.dataType) :: (optional "StringValue" a.stringValue .string ++
    optional "BinaryValue" a.binaryValue fun bytes => .string (bytesText bytes)))

def attributesJson (attributes : List (String × Sdk.PlainAttribute)) : Json :=
  .object (attributes.map fun (name, a) => (name, attributeJson a))

def onQueue (op : Operation) (members : List (String × Json)) : Request :=
  .json ("AmazonSQS." ++ op.name) (.ofMembers members)

def everything : Json := .array [.string "All"]

def messageMembers (m : Dispatch Sdk.PlainAttribute) : List (String × Json) :=
  ("MessageBody", .string m.body) ::
    (optional "MessageAttributes" m.attributes attributesJson ++ optional "MessageGroupId" m.group .string ++
      optional "MessageDeduplicationId" m.deduplication .string)

/-! ## Topics -/

def onTopic (op : Operation) (fields : List (String × String)) : Request :=
  .form (Dict.ofList (("Action", op.name) :: fields))

def optionalField (name : String) (value : Option String) : List (String × String) :=
  (value.map fun v => [(name, v)]).getD []

/-- The entries of a list, numbered from one. -/
def numbered {α : Type} (name : String) (entries : List α) (write : String → α → List (String × String)) :
    List (String × String) :=
  entries.zipIdx.flatMap fun (e, i) => write (name ++ ".entry." ++ Text.natText (i + 1)) e

def attributeFields (attributes : List (String × Sdk.PlainAttribute)) : List (String × String) :=
  numbered "MessageAttributes" attributes fun entry (name, a) =>
    [(entry ++ ".Name", name), (entry ++ ".Value.DataType", a.dataType)] ++
      optionalField (entry ++ ".Value.StringValue") a.stringValue ++
      optionalField (entry ++ ".Value.BinaryValue") (a.binaryValue.map bytesText)

def messageFields (m : Dispatch Sdk.PlainAttribute) : List (String × String) :=
  [("Message", m.body)] ++ attributeFields (m.attributes.getD []) ++ optionalField "MessageGroupId" m.group ++
    optionalField "MessageDeduplicationId" m.deduplication

def settingFields (settings : Dict String) : List (String × String) :=
  numbered "Attributes" settings fun entry (name, value) => [(entry ++ ".key", name), (entry ++ ".value", value)]

/-! ## Buckets -/

/-- Whether a character of a bucket's name can stand at the ends of a part of a host. -/
def isHostChar (c : Char) : Bool := c.isLower || c.isDigit

/-- Whether a bucket's name can be part of a host: 3 to 63 small letters, digits and hyphens, with no hyphen at the
ends. -/
def isHostPart (bucket : String) : Bool :=
  let cs := bucket.toList
  3 ≤ cs.length && cs.length ≤ 63 && cs.all (fun c => isHostChar c || c = '-') && cs.head?.any isHostChar &&
    cs.getLast?.any isHostChar

/-- Whether a bucket is reached in another way than by its name alone: it has none, or it is named by an ARN or lies in
a directory. -/
def isSpecialBucket (bucket : String) : Bool :=
  bucket = "" || Text.hasPrefix bucket "arn:" || Text.hasSuffix bucket "--x-s3" || Text.hasSuffix bucket "--xa-s3"

/-- The request for a bucket. A name that cannot be part of the host goes into the path. -/
def onBucket? (region bucket : String) : Option Request :=
  let host := "s3." ++ region ++ ".amazonaws.com"
  if isSpecialBucket bucket then none
  else if isHostPart bucket then some (.head (bucket ++ "." ++ host) "/")
  else some (.head host ("/" ++ Text.Percent.encode bucket ++ "/"))

/-! ## Calls -/

/-- The request of a call in a region, or why there is none. -/
def request (region : String) : Call → Except QueueError Request
  | .queueUrl queue => .ok (onQueue .getQueueUrl [("QueueName", .string queue)])
  | .queueAttributes url => .ok (onQueue .getQueueAttributes [("QueueUrl", .string url), ("AttributeNames", everything)])
  | .receive url limit wait => .ok (onQueue .receiveMessage
      [("QueueUrl", .string url), ("MaxNumberOfMessages", .int limit), ("WaitTimeSeconds", .int wait),
        ("MessageAttributeNames", everything), ("MessageSystemAttributeNames", everything)])
  | .send url m => do return onQueue .sendMessage (("QueueUrl", .string url) :: messageMembers (← Sdk.plain.outbound m))
  | .delete url handle => .ok (onQueue .deleteMessage [("QueueUrl", .string url), ("ReceiptHandle", .string handle)])
  | .purge url => .ok (onQueue .purgeQueue [("QueueUrl", .string url)])
  | .changeVisibility url handle seconds => .ok (onQueue .changeMessageVisibility
      [("QueueUrl", .string url), ("ReceiptHandle", .string handle), ("VisibilityTimeout", .int seconds)])
  | .createQueue queue settings => .ok (onQueue .createQueue
      [("QueueName", .string queue), ("Attributes", .object (settings.map fun (k, v) => (k, .string v)))])
  | .publish arn m => do return onTopic .publish (("TopicArn", arn) :: messageFields (← Sdk.plain.outbound m))
  | .subscribe arn queueArn filter => .ok (onTopic .subscribe
      ([("TopicArn", arn), ("Protocol", "sqs"), ("Endpoint", queueArn)] ++
        settingFields ((filter.map fun f => [("FilterPolicy", f)]).getD [])))
  | .topicAttributes arn => .ok (onTopic .getTopicAttributes [("TopicArn", arn)])
  | .createTopic topic settings => .ok (onTopic .createTopic (("Name", topic) :: settingFields settings))
  | .headBucket bucket =>
    match onBucket? region bucket with
    | some r => .ok r
    | none => .error (unanswered .headBucket)

def request? (region : String) (c : Call) : Option Request := (request region c).toOption

end DeadLetter.Aws
