import DeadLetter.Proofs.Registry.Handles
import DeadLetter.Proofs.Service.Stages

/-!
# The components of a registry

A component is a queue, a topic or a bucket of a registry. A report has for each id what the last component with that id
reports on its own (`Registry.health_components`), and is up if all that it has are up (`Registry.health_up_iff`). So it
is up if all components are (`Registry.up_of_allUp`), and only then where ids do not repeat (`Registry.allUp_of_up`).
-/

namespace DeadLetter

set_option autoImplicit false

/-! ## Components -/

/-- A component that is checked. -/
inductive Component where
  | queue (q : QueueHandle)
  | topic (t : TopicHandle)
  | bucket (b : BucketHandle)
deriving DecidableEq

namespace Component

def id : Component → String
  | queue q => q.id
  | topic t => t.id
  | bucket b => b.id

def health : Component → Routine Health
  | queue q => q.health
  | topic t => t.health
  | bucket b => b.health

def Up (w : World) (c : Component) : Prop := (c.health.run w).1.status = .up

end Component

namespace Registry

/-- The components of a registry, in the order in which they are checked. -/
def components (r : Registry) : List Component :=
  r.queues.map .queue ++ r.topics.map .topic ++ r.buckets.map .bucket

/-- The check of each queue, topic and bucket finds it up. -/
structure AllUp (r : Registry) (w : World) : Prop where
  queues : ∀ q ∈ r.queues, (q.health.run w).1.status = .up
  topics : ∀ t ∈ r.topics, (t.health.run w).1.status = .up
  buckets : ∀ b ∈ r.buckets, (b.health.run w).1.status = .up

variable {r : Registry} {w : World}

theorem checks_eq (r : Registry) : r.checks = r.components.map fun c => (c.id, c.health) := by
  unfold checks components
  rw [List.map_append, List.map_append, List.map_map, List.map_map, List.map_map]
  rfl

theorem allUp_iff : r.AllUp w ↔ ∀ c ∈ r.components, c.Up w := by
  unfold components
  constructor
  · intro h c hc
    rcases List.mem_append.mp hc with hc | hc
    · rcases List.mem_append.mp hc with hc | hc
      · obtain ⟨q, hq, rfl⟩ := List.mem_map.mp hc
        exact h.queues q hq
      · obtain ⟨t, ht, rfl⟩ := List.mem_map.mp hc
        exact h.topics t ht
    · obtain ⟨b, hb, rfl⟩ := List.mem_map.mp hc
      exact h.buckets b hb
  · intro h
    refine ⟨fun q hq => h (.queue q) ?_, fun t ht => h (.topic t) ?_, fun b hb => h (.bucket b) ?_⟩
    · exact List.mem_append_left _ (List.mem_append_left _ (List.mem_map_of_mem hq))
    · exact List.mem_append_left _ (List.mem_append_right _ (List.mem_map_of_mem ht))
    · exact List.mem_append_right _ (List.mem_map_of_mem hb)

/-! ## Reports -/

/-- A report has what each component reports on its own, and of those with one id the last. -/
theorem health_components (hslots : (r.queues.map (·.slot)).Nodup) (w : World) :
    (r.health.run w).1.components = Dict.ofList (r.components.map fun c => (c.id, (c.health.run w).1)) := by
  have hrun := checkEach_run (checks_pairwise hslots) [] w
  rw [checks_eq, List.map_map] at hrun
  unfold Registry.health
  rw [Routine.run_bind, checks_eq]
  exact hrun

theorem health_up_iff (r : Registry) (w : World) :
    (r.health.run w).1.status = .up ↔ ∀ e ∈ (r.health.run w).1.components, e.2.status = .up := by
  unfold Registry.health
  rw [Routine.run_bind]
  generalize (checkEach r.checks []).run w = ran
  obtain ⟨found, w'⟩ := ran
  show (if found.values.all (·.status = .up) then HealthStatus.up else .down) = .up ↔ ∀ e ∈ found, e.2.status = .up
  unfold Dict.values
  rw [List.all_map]
  cases hall : found.all ((fun h : Health => decide (h.status = .up)) ∘ fun e => e.2) with
  | true =>
    rw [if_pos rfl]
    rw [List.all_eq_true] at hall
    exact ⟨fun _ e he => decide_eq_true_iff.mp (hall e he), fun _ => rfl⟩
  | false =>
    rw [if_neg Bool.false_ne_true]
    rw [List.all_eq_false] at hall
    obtain ⟨e, he, hdown⟩ := hall
    refine ⟨nofun, fun hup => absurd (decide_eq_true (hup e he)) hdown⟩

/-- Components that displace all others decide whether a report is up. -/
theorem up_of_forall (hslots : (r.queues.map (·.slot)).Nodup)
    (h : ∀ id c, r.components.reverse.find? (·.id == id) = some c → c.Up w) : (r.health.run w).1.status = .up := by
  rw [health_up_iff, health_components hslots]
  intro e he
  have hget := Dict.get?_of_mem (Dict.ordered_ofList _) he
  rw [Dict.get?_ofList, ← List.map_reverse, List.find?_map] at hget
  obtain ⟨c', hfound, hvalue⟩ := Option.map_eq_some_iff.mp hget
  obtain ⟨c, hc, rfl⟩ := Option.map_eq_some_iff.mp hfound
  rw [← hvalue]
  exact h e.1 c hc

theorem up_of_allUp (hslots : (r.queues.map (·.slot)).Nodup) (h : r.AllUp w) : (r.health.run w).1.status = .up :=
  up_of_forall hslots fun _ c hc => allUp_iff.mp h c (List.mem_reverse.mp (List.mem_of_find?_eq_some hc))

theorem allUp_of_up (hslots : (r.queues.map (·.slot)).Nodup) (hids : (r.components.map (·.id)).Nodup)
    (h : (r.health.run w).1.status = .up) : r.AllUp w := by
  rw [health_up_iff, health_components hslots] at h
  rw [allUp_iff]
  intro c hc
  -- no other component has the id of this one
  have hfound : r.components.reverse.find? (·.id == c.id) = some c := findLast?_eq_some hids hc
  have hget : (Dict.ofList (r.components.map fun c => (c.id, (c.health.run w).1))).get? c.id =
      some (c.health.run w).1 := by
    rw [Dict.get?_ofList, ← List.map_reverse, List.find?_map]
    show Option.map _ (Option.map _ (r.components.reverse.find? (·.id == c.id))) = _
    rw [hfound]
    rfl
  exact h _ (Dict.mem_of_get? hget)

end Registry

end DeadLetter
