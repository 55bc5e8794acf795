import DeadLetter.ClientCache
import DeadLetter.Config.Validation
import DeadLetter.Registry.Basic

/-!
# Building the registry

`Registry.build` validates a configuration and makes a handle for every entry. Queues and dead letter queues with the
same credentials share a client, and so do topics; `Factory` records the credentials that each client was made with.
-/

namespace DeadLetter

set_option autoImplicit false

/-- The clients made so far: each is the place of its credentials in the list of its kind. -/
structure Factory where
  queueClients : List (Option Credentials) := []
  topicClients : List (Option Credentials) := []
  bucketClients : Nat := 0
deriving DecidableEq, Repr, Inhabited

namespace Factory

def queueClient (credentials : Option Credentials) (f : Factory) : Nat × Factory :=
  (f.queueClients.length, { f with queueClients := f.queueClients ++ [credentials] })

def topicClient (credentials : Option Credentials) (f : Factory) : Nat × Factory :=
  (f.topicClients.length, { f with topicClients := f.topicClients ++ [credentials] })

end Factory

/-- The key under which the client for credentials is kept. -/
def clientKey : Option Credentials → String
  | some c => c.accessKeyId
  | none => "default"

namespace Registry

/-- The clients of one kind and the factory that makes them. -/
structure Wiring where
  cache : ClientCache Nat
  factory : Factory
deriving DecidableEq, Repr

namespace Wiring

def queueClient (w : Wiring) (credentials : Option Credentials) : Nat × Wiring :=
  let (client, cache, factory) :=
    w.cache.getOrCreate (clientKey credentials) (Factory.queueClient credentials) w.factory
  (client, ⟨cache, factory⟩)

def topicClient (w : Wiring) (credentials : Option Credentials) : Nat × Wiring :=
  let (client, cache, factory) :=
    w.cache.getOrCreate (clientKey credentials) (Factory.topicClient credentials) w.factory
  (client, ⟨cache, factory⟩)

def queue (w : Wiring) (id : String) (q : QueueProperties) : QueueHandle × Wiring :=
  let (client, w) := w.queueClient q.credentials?
  let handle : QueueHandle := { id := id, name := q.queueName, client := client, schedules := q.schedules }
  match q.dlqName with
  | none => (handle, w)
  | some dlqName =>
    let (dlqClient, w) := w.queueClient q.dlqCredentials?
    ({ handle with dlq := some ⟨dlqName, dlqClient⟩ }, w)

def queues (w : Wiring) : List (String × QueueProperties) → List QueueHandle × Wiring
  | [] => ([], w)
  | (id, q) :: rest =>
    let (handle, w) := w.queue id q
    let (handles, w) := w.queues rest
    (handle :: handles, w)

def topics (w : Wiring) : List (String × TopicProperties) → List TopicHandle × Wiring
  | [] => ([], w)
  | (id, t) :: rest =>
    let (client, w) := w.topicClient t.credentials?
    let (handles, w) := w.topics rest
    (⟨id, t.arn, client⟩ :: handles, w)

end Wiring

/-- Validates a configuration and makes its handles. All buckets share one client. -/
def build (p : Properties) (f : Factory) : Except ConfigError (Registry × Factory) := do
  validate p
  let (queues, w) := Wiring.queues ⟨.empty, f⟩ p.queues
  let (topics, w) := Wiring.topics ⟨.empty, w.factory⟩ p.topics
  let f := if p.buckets.isEmpty then w.factory else { w.factory with bucketClients := w.factory.bucketClients + 1 }
  return (ofHandles queues topics (p.buckets.map fun (id, b) => ⟨id, b.bucketName⟩) p.backoff, f)

end Registry

end DeadLetter
