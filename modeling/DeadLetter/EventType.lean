import DeadLetter.Json.Draft
import DeadLetter.Message

/-!
# The event type of a message

A notification carries the attributes of its event in the body, under `MessageAttributes`; a message that was sent as it
is carries them as its own. The body wins.
-/

namespace DeadLetter

set_option autoImplicit false

/-- The event type that a notification names. -/
def eventTypeOfBody? (body : String) : Option String := do
  let attributes ← (← Json.read? body).get? "MessageAttributes"
  (← (← attributes.get? eventTypeAttribute).get? "Value").string?

def eventType? (body : String) (attributes : Attributes) : Option String :=
  eventTypeOfBody? body <|> (attributes.get? eventTypeAttribute).bind (·.stringValue)

end DeadLetter
