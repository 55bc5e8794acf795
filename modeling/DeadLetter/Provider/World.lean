import DeadLetter.Provider.Memory

/-!
# The world that routines run in

Besides the provider the world holds what this process keeps: the facts it has learnt about its queues, the telemetry
record, a supply of deduplication ids and a clock. An `Action` is one step a routine can take in it, `World.perform` its
meaning.
-/

namespace DeadLetter

set_option autoImplicit false

/-- What is known about a queue after the first successful look-up of each. -/
structure Known where
  url : Option String := none
  dlqUrl : Option String := none
  maxReceiveCount : Option (Option Nat) := none
deriving DecidableEq, Repr, Inhabited

/-- A fact about a queue. -/
inductive Fact where
  | url (url : String)
  | dlqUrl (url : String)
  | maxReceiveCount (count : Option Nat)
deriving DecidableEq, Repr

/-- Adds a fact. What is known already stays. -/
def Known.learn (k : Known) : Fact → Known
  | .url url => { k with url := k.url <|> some url }
  | .dlqUrl url => { k with dlqUrl := k.dlqUrl <|> some url }
  | .maxReceiveCount count => { k with maxReceiveCount := k.maxReceiveCount <|> some count }

/-- A telemetry event. -/
structure Event where
  name : String
  properties : Dict String
deriving DecidableEq, Repr

/-- The provider and the state of this process. -/
structure World where
  /-- The queues, topics and buckets. -/
  provider : Memory := {}
  /-- The facts about each queue of the registry, by its place there. -/
  known : Nat → Known := fun _ => {}
  /-- The telemetry events in order. -/
  events : List Event := []
  /-- The number of sweeps. -/
  sweeps : Nat := 0
  /-- The number of deduplication ids made. -/
  generated : Nat := 0
  /-- Whether the deadline has passed at each look at the clock. -/
  late : Nat → Bool := fun _ => false
  /-- The number of looks at the clock. -/
  looks : Nat := 0

instance : Inhabited World := ⟨{}⟩

/-- A step of a routine. -/
inductive Action where
  | call (c : Call)
  | facts (slot : Nat)
  | learn (slot : Nat) (fact : Fact)
  | track (event : Event)
  | countSweep
  | generateId
  | isLate
deriving DecidableEq, Repr

/-- What a step returns. -/
abbrev Action.Reply : Action → Type
  | call c => Except QueueError c.Reply
  | facts _ => Known
  | learn .. => Unit
  | track _ => Unit
  | countSweep => Unit
  | generateId => DeduplicationId
  | isLate => Bool

/-- What a step returns and leaves behind. -/
def World.perform (w : World) : (a : Action) → a.Reply × World
  | .call c =>
    let (reply, provider) := w.provider.perform c
    (reply, { w with provider := provider })
  | .facts slot => (w.known slot, w)
  | .learn slot fact => ((), { w with known := fun i => if i = slot then (w.known i).learn fact else w.known i })
  | .track event => ((), { w with events := w.events ++ [event] })
  | .countSweep => ((), { w with sweeps := w.sweeps + 1 })
  | .generateId => (.generated w.generated, { w with generated := w.generated + 1 })
  | .isLate => (w.late w.looks, { w with looks := w.looks + 1 })

end DeadLetter
