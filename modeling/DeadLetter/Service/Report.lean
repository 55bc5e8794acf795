import DeadLetter.BodyDecoder
import DeadLetter.Message

/-!
# What operators are told

Messages of a dead letter queue are reported with their bodies decoded, next to the number of messages found at the
start.
-/

namespace DeadLetter

set_option autoImplicit false

/-- A message of a dead letter queue. -/
structure ReportedMessage where
  body : Dict Json
  id : String
  attributes : Attributes
deriving Repr, BEq

/-- The outcome of moving messages back. -/
structure RetryReport where
  found : Int
  messages : List ReportedMessage
deriving Repr, BEq, Inhabited

/-- The outcome of purging a queue. -/
structure PurgeReport where
  found : Int
deriving Repr, DecidableEq

/-- Messages read without removing them. -/
structure InspectionReport where
  found : Int
  returned : Int
  messages : List ReportedMessage
deriving Repr, BEq

def Received.report (m : Received) (p : NumberPolicy) : ReportedMessage := ⟨decodeBody p m.body, m.id, m.attributes⟩

def AttributeValue.toJson (a : AttributeValue) : Json :=
  .ofMembers (("dataType", .string a.dataType) ::
    (a.stringValue.map fun s => ("stringValue", Json.string s)).toList ++
    (a.binaryValue.map fun b => ("binaryValue", Json.array (b.map fun x => .int x.toNat))).toList)

def Attributes.toJson (attributes : Attributes) : Json := .ofMembers (attributes.map fun (k, a) => (k, a.toJson))

/-- A message in a report. Attributes are left out if there are none. -/
def ReportedMessage.toJson (m : ReportedMessage) : Json :=
  .ofMembers ([("body", .object m.body), ("messageId", .string m.id)] ++
    if m.attributes.isEmpty then [] else [("messageAttributes", Attributes.toJson m.attributes)])

def RetryReport.toJson (r : RetryReport) : Json :=
  .ofMembers [("messagesFoundCount", .int r.found), ("messages", .array (r.messages.map (·.toJson)))]

def PurgeReport.toJson (r : PurgeReport) : Json := .ofMembers [("messagesFoundCount", .int r.found)]

def InspectionReport.toJson (r : InspectionReport) : Json :=
  .ofMembers [("messagesFoundCount", .int r.found), ("messagesReturnedCount", .int r.returned),
    ("messages", .array (r.messages.map (·.toJson)))]

end DeadLetter
