import DeadLetter.Backoff
import DeadLetter.Naming

/-!
# The registry

After startup every configured queue, topic and bucket is held by a handle, in the order of the configuration. Look-ups
go by tables of places. Ids and names may repeat: a table has the place of the last entry that has them.
-/

namespace DeadLetter

set_option autoImplicit false

/-- The dead letter queue of a queue, and the client that reaches it. -/
structure DlqHandle where
  name : String
  client : Nat
deriving DecidableEq, Repr

/-- A queue, its place in the registry and the client that reaches it. -/
structure QueueHandle where
  slot : Nat := 0
  id : String
  name : String
  client : Nat
  dlq : Option DlqHandle := none
  schedules : Schedules := ⟨[], []⟩
deriving DecidableEq, Repr

namespace QueueHandle

def isFifo (q : QueueHandle) : Bool := DeadLetter.isFifo q.name

def dlqName? (q : QueueHandle) : Option String := q.dlq.map (·.name)

end QueueHandle

/-- A topic, and the client that reaches it. -/
structure TopicHandle where
  id : String
  arn : String
  client : Nat
deriving DecidableEq, Repr

def TopicHandle.isFifo (t : TopicHandle) : Bool := DeadLetter.isFifo t.arn

/-- A bucket. -/
structure BucketHandle where
  id : String
  name : String
deriving DecidableEq, Repr

/-- All handles, and the backoff policy for messages that fail. -/
structure Registry where
  queues : List QueueHandle := []
  topics : List TopicHandle := []
  buckets : List BucketHandle := []
  backoff : BackoffPolicy := ⟨[]⟩
deriving DecidableEq, Repr, Inhabited

namespace Registry

/-- The places of entries by their keys. An entry without a key has none, and of entries with one key the last counts. -/
def places {α : Type} (key : α → Option String) (entries : List α) : Dict Nat :=
  Dict.ofList (entries.zipIdx.filterMap fun (entry, place) => (key entry).map (·, place))

/-- The entry at the place of a key. -/
def findBy? {α : Type} (key : α → Option String) (entries : List α) (name : String) : Option α :=
  ((places key entries).get? name).bind (entries[·]?)

/-- A registry of handles in order. Each queue gets its place. -/
def ofHandles (queues : List QueueHandle) (topics : List TopicHandle) (buckets : List BucketHandle)
    (backoff : BackoffPolicy) : Registry where
  queues := queues.mapIdx fun i q => { q with slot := i }
  topics := topics
  buckets := buckets
  backoff := backoff

def queueById? (r : Registry) (id : String) : Option QueueHandle := findBy? (some ·.id) r.queues id

def queueByName? (r : Registry) (name : String) : Option QueueHandle := findBy? (some ·.name) r.queues name

def queueByDlqName? (r : Registry) (name : String) : Option QueueHandle := findBy? (·.dlqName?) r.queues name

def topicById? (r : Registry) (id : String) : Option TopicHandle := findBy? (some ·.id) r.topics id

def bucketById? (r : Registry) (id : String) : Option BucketHandle := findBy? (some ·.id) r.buckets id

end Registry

end DeadLetter
