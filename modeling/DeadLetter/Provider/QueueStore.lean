import DeadLetter.Naming
import DeadLetter.Provider.Call

/-!
# Queues in memory

A queue holds its visible messages in order and, under receipt handles, those that are in flight. Receiving moves
messages from the first to the second and counts their deliveries; a handle stays good until its message is deleted or
becomes visible again. One counter numbers sent messages and receipt handles alike. Calls are counted before anything
else, and fail on purpose while their operation or queue is listed as failing.
-/

namespace DeadLetter

set_option autoImplicit false

/-- A queue. -/
structure QueueState where
  attributes : Dict String := []
  visible : List Stored := []
  inFlight : List (String × Stored) := []
  redrive : Option RedrivePolicy := none
  reportedCount : Option Int := none
deriving DecidableEq, Repr, Inhabited

/-- A change of the visibility of a message in flight. -/
structure VisibilityChange where
  queue : String
  handle : String
  seconds : Int
deriving DecidableEq, Repr

/-- All queues, with what is recorded about the calls. -/
structure QueueStore where
  queues : Dict QueueState := []
  calls : Dict Nat := []
  failingOperations : List Operation := []
  failingQueues : List String := []
  visibilityChanges : List VisibilityChange := []
  lastId : Nat := 0
deriving DecidableEq, Repr, Inhabited

namespace QueueStore

def account : String := "000000000000"

def urlOf (queue : String) : String := "http://localhost:4566/" ++ account ++ "/" ++ queue

def arnOf (queue : String) : String := "arn:aws:sqs:eu-west-2:" ++ account ++ ":" ++ queue

def messageId (n : Nat) : String := "msg-" ++ Text.natText n

/-- The receipt handle of the `n`-th delivery. -/
def handleOf (queue id : String) (n : Nat) : String := queue ++ "-" ++ id ++ "-" ++ Text.natText n

def injected (op : Operation) : QueueError := .provider op.name "injected failure" true

/-- The failure of a call about something that is not there. -/
def missing (op : Operation) (what : String) : QueueError := .provider op.name (what ++ " does not exist") false

def maxCount : Nat := 0x7FFFFFFF

def visible (s : QueueStore) (queue : String) : List Stored := ((s.queues.get? queue).map (·.visible)).getD []

/-! ## Changes from outside -/

def create (s : QueueStore) (queue : String) : QueueStore := { s with queues := s.queues.ensure queue {} }

/-- Changes a queue, creating it if it is not there. -/
def adjust (s : QueueStore) (queue : String) (f : QueueState → QueueState) : QueueStore :=
  { s with queues := s.queues.put queue (f ((s.queues.get? queue).getD {})) }

def createWithRedrive (s : QueueStore) (queue dlq : String) (count : Nat) : QueueStore :=
  s.adjust queue fun q => { q with redrive := some ⟨arnOf dlq, count⟩ }

/-- Puts a message on a queue without a call, and returns its id. -/
def seed (s : QueueStore) (queue : String) (m : Outbound) : String × QueueStore :=
  let id := messageId (s.lastId + 1)
  (id, { s with lastId := s.lastId + 1 }.adjust queue fun q => { q with visible := q.visible ++ [m.store id] })

/-- Makes a queue report a number of messages that need not be its own. -/
def reportCount (s : QueueStore) (queue : String) (count : Int) : QueueStore :=
  s.adjust queue fun q => { q with reportedCount := some count }

/-- Makes all messages in flight visible again. -/
def expire (s : QueueStore) (queue : String) : QueueStore :=
  { s with queues := s.queues.change queue fun q =>
      { q with visible := q.visible ++ q.inFlight.map (·.2), inFlight := [] } }

def failOperation (s : QueueStore) (op : Operation) : QueueStore :=
  { s with failingOperations := op :: s.failingOperations }

def failQueue (s : QueueStore) (queue : String) : QueueStore :=
  { s with failingQueues := queue :: s.failingQueues }

def clearFailures (s : QueueStore) : QueueStore := { s with failingOperations := [], failingQueues := [] }

/-! ## Calls -/

def counted (s : QueueStore) (op : Operation) : QueueStore :=
  { s with calls := s.calls.put op.name ((s.calls.get? op.name).getD 0 + 1) }

def fails (s : QueueStore) (op : Operation) (queue : String) : Bool :=
  op ∈ s.failingOperations || queue ∈ s.failingQueues

/-- Counts a call on a queue, and goes on unless it is made to fail. -/
def attempt {α : Type} (s : QueueStore) (op : Operation) (queue : String)
    (go : QueueStore → Except QueueError α × QueueStore) : Except QueueError α × QueueStore :=
  if s.fails op queue then (.error (injected op), s.counted op) else go (s.counted op)

/-- Goes on with a queue that must be there. -/
def locate {α : Type} (s : QueueStore) (op : Operation) (queue : String)
    (go : QueueState → Except QueueError α × QueueStore) : Except QueueError α × QueueStore :=
  match s.queues.get? queue with
  | some q => go q
  | none => (.error (missing op queue), s)

/-- The same store with another state of a queue. -/
def withQueue (s : QueueStore) (queue : String) (q : QueueState) : QueueStore :=
  { s with queues := s.queues.put queue q }

/-- The same store with the next number drawn. -/
def drawn (s : QueueStore) : QueueStore := { s with lastId := s.lastId + 1 }

def queueUrl (s : QueueStore) (queue : String) : Except QueueError String × QueueStore :=
  s.attempt .getQueueUrl queue fun s => s.locate .getQueueUrl queue fun _ => (.ok (urlOf queue), s)

def queueAttributes (s : QueueStore) (url : String) : Except QueueError QueueAttributes × QueueStore :=
  let queue := queueNameOfUrl url
  s.attempt .getQueueAttributes queue fun s => s.locate .getQueueAttributes queue fun q =>
    (.ok {
      arn := some (arnOf queue)
      messages := q.reportedCount.getD (min q.visible.length maxCount)
      inFlight := min q.inFlight.length maxCount
      redrive := q.redrive }, s)

/-- Takes up to `limit` messages from the front of a queue. A number is drawn for each attempt. Delivery `2 ^ 32` of one
message is counted like any other, where a count of 32 bits overflows. -/
def take (s : QueueStore) (queue : String) : Nat → Except QueueError (List Received) × QueueStore
  | 0 => (.ok [], s)
  | limit + 1 =>
    let n := s.lastId + 1
    let s := s.drawn
    s.locate .receiveMessage queue fun q =>
      match q.visible with
      | [] => (.ok [], s)
      | m :: rest =>
        let m := { m with deliveries := m.deliveries + 1 }
        let handle := handleOf queue m.id n
        let q := { q with visible := rest, inFlight := q.inFlight ++ [(handle, m)] }
        let (result, s) := (s.withQueue queue q).take queue limit
        (result.map (m.deliver handle :: ·), s)

def receive (s : QueueStore) (url : String) (limit : Nat) : Except QueueError (List Received) × QueueStore :=
  let queue := queueNameOfUrl url
  s.attempt .receiveMessage queue fun s => s.take queue limit

/-- Sends a message. An ordered queue takes only messages with a group. -/
def send (s : QueueStore) (url : String) (m : Outbound) : Except QueueError String × QueueStore :=
  let queue := queueNameOfUrl url
  s.attempt .sendMessage queue fun s =>
    if isFifo queue ∧ m.group = none then (.error (.missingGroup queue), s)
    else
      let id := messageId (s.lastId + 1)
      let s := s.drawn
      s.locate .sendMessage queue fun q =>
        (.ok id, s.withQueue queue { q with visible := q.visible ++ [m.store id] })

/-- Goes on with the message in flight under a receipt handle, and with what is in flight besides it. -/
def locateInFlight {α : Type} (s : QueueStore) (op : Operation) (q : QueueState) (handle : String)
    (go : Stored → List (String × Stored) → Except QueueError α × QueueStore) : Except QueueError α × QueueStore :=
  match q.inFlight.lookup handle with
  | some m => go m (q.inFlight.eraseP (·.1 == handle))
  | none => (.error (missing op handle), s)

def delete (s : QueueStore) (url handle : String) : Except QueueError Unit × QueueStore :=
  let queue := queueNameOfUrl url
  s.attempt .deleteMessage queue fun s => s.locate .deleteMessage queue fun q =>
    s.locateInFlight .deleteMessage q handle fun _ others => (.ok (), s.withQueue queue { q with inFlight := others })

def purge (s : QueueStore) (url : String) : Except QueueError Unit × QueueStore :=
  let queue := queueNameOfUrl url
  s.attempt .purgeQueue queue fun s => s.locate .purgeQueue queue fun q =>
    (.ok (), s.withQueue queue { q with visible := [], inFlight := [] })

/-- Records how long a message in flight is to stay hidden. With no time left it is visible at once. -/
def changeVisibility (s : QueueStore) (url handle : String) (seconds : Int) : Except QueueError Unit × QueueStore :=
  let queue := queueNameOfUrl url
  s.attempt .changeMessageVisibility queue fun s => s.locate .changeMessageVisibility queue fun q =>
    s.locateInFlight .changeMessageVisibility q handle fun m others =>
      let q := if seconds = 0 then { q with visible := q.visible ++ [m], inFlight := others } else q
      (.ok (), { s.withQueue queue q with visibilityChanges := s.visibilityChanges ++ [⟨queue, handle, seconds⟩] })

def redriveAttribute : String := "RedrivePolicy"

/-- Creates a queue. The attributes of a queue that has some stay as they are. -/
def createQueue (s : QueueStore) (queue : String) (attributes : Dict String) :
    Except QueueError String × QueueStore :=
  s.attempt .createQueue queue fun s =>
    let create (redrive : Option RedrivePolicy) : Except QueueError String × QueueStore :=
      let q := (s.queues.get? queue).getD {}
      let q := if q.attributes.isEmpty then { q with attributes := attributes, redrive := redrive } else q
      (.ok (urlOf queue), s.withQueue queue q)
    match attributes.get? redriveAttribute with
    | none => create none
    | some text =>
      match RedrivePolicy.read? text with
      | some policy => create (some policy)
      | none => (.error .serialization, s)

end QueueStore

end DeadLetter
