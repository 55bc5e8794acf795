import DeadLetter.Provider.Routine
import DeadLetter.Registry.Basic

/-!
# Publishing events

A message that is published through a topic carries the type of its event as an attribute. An ordered topic takes only
messages with a group, and each is given a deduplication id of its own.
-/

namespace DeadLetter

set_option autoImplicit false

open Attempt

def TopicHandle.publish (t : TopicHandle) (eventType body : String) (attributes : Attributes) (group : Option String) :
    Attempt String := do
  let tagged : Attributes := attributes.put eventTypeAttribute (.ofText eventType)
  if t.isFifo then
    if group.isNone then throw (.missingGroup t.arn)
    let id ← generateId
    call (.publish t.arn { body := body, attributes := tagged, group := group, deduplication := some id })
  else call (.publish t.arn { body := body, attributes := tagged, group := group })

end DeadLetter
