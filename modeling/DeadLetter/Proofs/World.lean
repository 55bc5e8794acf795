import DeadLetter.Proofs.Service.Surplus

/-!
# The worlds that a registry is used in

`World.Reachable r` : what the actions of routines and changes from outside make of a fresh process over a reachable
provider, where the queues of `r` learn only what is true of them: their own URLs and those of their dead letter queues.
In such a world the queues are sound (`Reachable.sound`) and all that is known agrees with `Registry.lore`
(`Reachable.known`), whose facts lead each queue to its own addresses (`addressed_of_url`, `addressed_of_dlqUrl`) where
the registry gives its queues different places (`Registry.Placed`). Retries lead to such worlds again
(`QueueHandle.retry_reachable`).
-/

namespace DeadLetter

set_option autoImplicit false

open QueueStore

/-- Whether a fact is true of a queue. -/
def QueueHandle.Tells (q : QueueHandle) : Fact → Prop
  | .url u => u = urlOf q.name
  | .dlqUrl u => ∃ d, q.dlq = some d ∧ u = urlOf d.name
  | .maxReceiveCount _ => True

/-- A queue that is `main`, with a dead letter queue that is `dlq`, by the names they address. -/
structure QueueHandle.Drains (q : QueueHandle) (dlq main : String) : Prop where
  dlq : ∃ d, q.dlq = some d ∧ addressed d.name = dlq
  main : addressed q.name = main

/-- What may be known of the queues of a registry: what is true of them. -/
def Registry.lore (r : Registry) (smooth : Prop) : Lore where
  fact slot f := ∀ q ∈ r.queues, q.slot = slot → q.Tells f
  url queue u := u = urlOf queue
  smooth := smooth

/-- What routines and changes from outside make of a fresh process. -/
inductive World.Reachable (r : Registry) : World → Prop
  | start {p : Memory} (hp : p.Reachable) (late : Nat → Bool) : Reachable r { provider := p, late := late }
  | act {w : World} (a : Action) (ha : ∀ slot f, a = .learn slot f → (r.lore False).fact slot f)
      (h : Reachable r w) : Reachable r (w.perform a).2
  | control {w : World} (c : Memory.Control) (h : Reachable r w) :
      Reachable r { w with provider := c.apply w.provider }

theorem World.Reachable.sound {r : Registry} {w : World} (h : w.Reachable r) : Sound w.provider.queues := by
  induction h with
  | start hp late => exact hp.sound
  | act a ha _ ih => exact (World.perform_turns _ a).sound ih
  | control c _ ih => exact (Memory.Control.apply_shifts _ c).turns.sound ih

theorem World.Reachable.known {r : Registry} {w : World} (h : w.Reachable r) (smooth : Prop) :
    (r.lore smooth).Known w := by
  induction h with
  | start hp late => exact fun _ => .nothing
  | act a ha _ ih => exact ih.perform ha
  | control c _ ih => exact ih

namespace Registry

/-- Handles at different places of a registry have different slots. -/
def Placed (r : Registry) : Prop := ∀ q ∈ r.queues, ∀ q' ∈ r.queues, q'.slot = q.slot → q' = q

theorem placed_ofHandles (queues : List QueueHandle) (topics : List TopicHandle) (buckets : List BucketHandle)
    (backoff : BackoffPolicy) : (ofHandles queues topics buckets backoff).Placed := by
  intro q hq q' hq' h
  obtain ⟨i, hi, rfl⟩ := List.mem_mapIdx.mp hq
  obtain ⟨j, hj, rfl⟩ := List.mem_mapIdx.mp hq'
  have hij : j = i := h
  subst hij
  rfl

variable {r : Registry} {q : QueueHandle} {smooth : Prop}

theorem lore_covers (hr : r.Placed) (hq : q ∈ r.queues) (smooth : Prop) : (r.lore smooth).Covers q where
  url u hu q' hq' hslot := by
    rw [hr q hq q' hq' hslot]
    exact hu
  dlqUrl d u hd hu q' hq' hslot := by
    rw [hr q hq q' hq' hslot]
    exact ⟨d, hd, hu⟩
  maxReceiveCount _ _ _ _ := trivial

theorem addressed_of_url {u : String} (hq : q ∈ r.queues)
    (h : (r.lore smooth).fact q.slot (.url u)) : queueNameOfUrl u = addressed q.name := by
  have hu : u = urlOf q.name := h q hq rfl
  rw [hu, addressed]

theorem addressed_of_dlqUrl {d : DlqHandle} {u : String} (hq : q ∈ r.queues)
    (hd : q.dlq = some d) (h : (r.lore smooth).fact q.slot (.dlqUrl u)) : queueNameOfUrl u = addressed d.name := by
  obtain ⟨d', hd', hu⟩ := h q hq rfl
  rw [hd] at hd'
  cases hd'
  rw [hu, addressed]

theorem lore_truthful {w : World} (h : (r.lore smooth).Known w) (a : Action) :
    (r.lore smooth).Truthful a (w.perform a).1 :=
  Lore.truthful_perform (fun _ => rfl) h a

end Registry

section Retry
variable {r : Registry} {q : QueueHandle} {w : World} {p : NumberPolicy}

/-- A retry stays within the reachable worlds, and keeps what its steps keep. -/
theorem QueueHandle.retry_keeps (hr : r.Placed) (hq : q ∈ r.queues) {I : Transfer → World → Prop}
    (hstep : ∀ s w a st, I s w → Transfer.Step (r.lore False) q.slot s a (w.perform a).1 st → I st (w.perform a).2)
    (hw : w.Reachable r) (hi : I {} w) :
    ((q.retry p).result.run w).2.Reachable r ∧ ∃ st, I st ((q.retry p).result.run w).2 := by
  have hfollows := q.retry_follows (Registry.lore_covers hr hq False) p
  obtain ⟨st, _, hreachable, hinv⟩ := hfollows.run (P := Transfer.protocol (r.lore False) q.slot)
    (I := fun s w => w.Reachable r ∧ I s w)
    (fun _ _ a hi => ⟨Registry.lore_truthful (hi.1.known False) a, False.elim⟩)
    (fun s w a st hi h => ⟨.act a (fun i f ha => (h.learns i f ha).2) hi.1, hstep s w a st hi.2 h⟩) ⟨hw, hi⟩
  exact ⟨hreachable, st, hinv⟩

theorem QueueHandle.retry_reachable (hr : r.Placed) (hq : q ∈ r.queues) (hw : w.Reachable r) :
    ((q.retry p).result.run w).2.Reachable r :=
  (retry_keeps (I := fun _ _ => True) hr hq (fun _ _ _ _ _ _ => trivial) hw trivial).1

theorem QueueHandle.retry_of_none (hd : q.dlq = none) (p : NumberPolicy) (w : World) :
    (q.retry p).result.run w = (.ok .empty, w) := by
  unfold retry
  rw [hd]
  rfl

theorem retryEach_cons (p : NumberPolicy) (q : QueueHandle) (qs : List QueueHandle) (w : World) :
    (retryEach p (q :: qs)).run w =
      let first := (q.retry p).result.run w
      let rest := (retryEach p qs).run first.2
      (first.1.toOption.getD .empty :: rest.1, rest.2) := by
  rw [retryEach, Routine.run_bind, Routine.run_bind]
  rfl

theorem retryEach_reachable {qs : List QueueHandle} (hr : r.Placed) (hqs : ∀ q ∈ qs, q ∈ r.queues)
    (hw : w.Reachable r) : ((retryEach p qs).run w).2.Reachable r := by
  induction qs generalizing w with
  | nil => exact hw
  | cons q qs ih =>
    obtain ⟨hq, hqs⟩ := List.forall_mem_cons.mp hqs
    rw [retryEach_cons]
    exact ih hqs (QueueHandle.retry_reachable hr hq hw)

end Retry

end DeadLetter
