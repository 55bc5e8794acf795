import DeadLetter.Config.Validation
import DeadLetter.Toml.Document

/-!
# Reading a configuration

`Properties.ofEntries?` gives a settings document its meaning: every name must be known, every value of its kind and in
its range. The settings of an entry may also be listed without their names. `readProperties` reads and validates a
document.
-/

namespace DeadLetter

set_option autoImplicit false

open Toml (Value)

namespace Reader

def text? : Value → Option String
  | .text s => some s
  | _ => none

/-- The integer of a range that a value is. -/
def integer? (low high : Int) : Value → Option Int
  | .integer n => if low ≤ n ∧ n ≤ high then some n else none
  | _ => none

def int32? : Value → Option Int := integer? (-0x80000000) 0x7FFFFFFF

def schedule? : Value → Option (List Int)
  | .list items => items.mapM int32?
  | _ => none

/-- A table whose values are read alike. -/
def table? {α : Type} (read? : Value → Option α) : Value → Option (List (String × α))
  | .table entries => entries.mapM fun (k, v) => (read? v).map (k, ·)
  | _ => none

/-- The settings of an entry by name. Listed without names they stand in the order given, and what is left over is not
looked at. -/
def settings? (names : List String) : Value → Option (List (String × Value))
  | .table entries => if entries.all (·.1 ∈ names) then some entries else none
  | .list items => some (names.zip items)
  | _ => none

/-- A setting that may be absent, with its default. -/
def optional? {α : Type} (settings : List (String × Value)) (name : String) (read? : Value → Option α)
    (default : α) : Option α :=
  match settings.lookup name with
  | some v => read? v
  | none => some default

def required? {α : Type} (settings : List (String × Value)) (name : String) (read? : Value → Option α) : Option α :=
  settings.lookup name >>= read?

def optionalText? (settings : List (String × Value)) (name : String) : Option (Option String) :=
  optional? settings name (fun v => (text? v).map some) none

def queueSettings : List String :=
  ["queue_name", "dlq_name", "subscribe_topic_id", "subscribe_filter", "dlq_max_receive_count", "visibility_timeout",
    "error_visibility_timeout", "event_error_visibility_timeout", "fifo_throughput_limit", "queue_access_key_id",
    "queue_secret_access_key", "dlq_access_key_id", "dlq_secret_access_key"]

def queue? (v : Value) : Option QueueProperties := do
  let s ← settings? queueSettings v
  some {
    queueName := ← required? s "queue_name" text?
    dlqName := ← optionalText? s "dlq_name"
    subscribeTopicId := ← optionalText? s "subscribe_topic_id"
    subscribeFilter := ← optionalText? s "subscribe_filter"
    dlqMaxReceiveCount := (← optional? s "dlq_max_receive_count" (integer? 0 0xFFFFFFFF) 5).toNat
    visibilityTimeout := ← optional? s "visibility_timeout" int32? 30
    errorVisibilityTimeout := ← optional? s "error_visibility_timeout" schedule? []
    eventErrorVisibilityTimeout := Dict.ofList (← optional? s "event_error_visibility_timeout" (table? schedule?) [])
    fifoThroughputLimit := ← optionalText? s "fifo_throughput_limit"
    queueAccessKeyId := ← optionalText? s "queue_access_key_id"
    queueSecretAccessKey := ← optionalText? s "queue_secret_access_key"
    dlqAccessKeyId := ← optionalText? s "dlq_access_key_id"
    dlqSecretAccessKey := ← optionalText? s "dlq_secret_access_key" }

def topic? (v : Value) : Option TopicProperties := do
  let s ← settings? ["arn", "access_key_id", "secret_access_key"] v
  some {
    arn := ← required? s "arn" text?
    accessKeyId := ← optionalText? s "access_key_id"
    secretAccessKey := ← optionalText? s "secret_access_key" }

def bucket? (v : Value) : Option BucketProperties := do
  let s ← settings? ["bucket_name"] v
  some { bucketName := ← required? s "bucket_name" text? }

/-- A provider: its name, or a table whose only key is its name, with nothing under it. -/
def provider? : Value → Option ProviderKind
  | .text s => ProviderKind.ofName? s
  | .table [(s, .table [])] | .table [(s, .list [])] => ProviderKind.ofName? s
  | _ => none

end Reader

open Reader in
/-- The configuration of a document's entries. -/
def Properties.ofEntries? (entries : List (String × Value)) : Option Properties := do
  let s ← settings? ["provider", "region", "localstack_url", "default_error_visibility_timeout", "queues", "topics",
    "buckets"] (.table entries)
  some {
    provider := ← optional? s "provider" provider? .aws
    region := ← optional? s "region" text? "eu-west-2"
    localstackUrl := ← optional? s "localstack_url" text? "http://localhost:4566"
    defaultErrorVisibilityTimeout := ← optional? s "default_error_visibility_timeout" schedule? []
    queues := ← optional? s "queues" (table? Reader.queue?) []
    topics := ← optional? s "topics" (table? Reader.topic?) []
    buckets := ← optional? s "buckets" (table? Reader.bucket?) [] }

def readProperties (document : String) : Except ConfigError Properties :=
  match Toml.read? document >>= Properties.ofEntries? with
  | none => .error .malformed
  | some p => do
    validate p
    return p

/-- Reads and validates the configuration of a file, given its content unless it cannot be read. -/
def readPropertiesFile (path : String) (content : Option String) : Except ConfigError Properties :=
  match content with
  | none => .error (.unreadable path)
  | some document => readProperties document

end DeadLetter
