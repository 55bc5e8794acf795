import DeadLetter.Text.Segment

/-!
# Names of queues and topics

The suffix of a name or address tells an ordered queue or topic from a standard one. A queue is addressed by a URL that
ends in its name, and queues and topics by resource names whose last part is theirs. The last part of an address has the
suffix just if the address does (`isFifo_queueNameOfUrl`, `isFifo_nameOfArn`).
-/

namespace DeadLetter

set_option autoImplicit false

def fifoSuffix : String := ".fifo"

/-- Whether a name or address is that of an ordered queue or topic. -/
def isFifo (name : String) : Bool := Text.hasSuffix name fifoSuffix

/-- The queue that a URL addresses. -/
def queueNameOfUrl (url : String) : String := Text.afterLast '/' url

/-- The queue or topic that a resource name ends in. -/
def nameOfArn (arn : String) : String := Text.afterLast ':' arn

theorem isFifo_queueNameOfUrl (url : String) : isFifo (queueNameOfUrl url) = isFifo url :=
  Text.hasSuffix_afterLast (by decide) url

theorem isFifo_nameOfArn (arn : String) : isFifo (nameOfArn arn) = isFifo arn :=
  Text.hasSuffix_afterLast (by decide) arn

end DeadLetter
