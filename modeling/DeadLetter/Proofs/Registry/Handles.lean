import DeadLetter.Proofs.Registry.Places
import DeadLetter.Proofs.Validation
import DeadLetter.Proofs.World
import DeadLetter.Registry.Build
import Mathlib.Data.List.Nodup

/-!
# The handles of a configuration

`Registry.Holds` : a registry has a handle for each entry of a configuration, in order, under the configured id and
names. `build_holds` : a valid configuration can be built, and what is built holds it, with the schedules that are
configured (`schedules_of_build`). A look-up by id finds something
under each configured id (`Holds.isSome_queueById?`, `Holds.isSome_topicById?`), and where ids do not repeat it finds
the handle of the entry that has it (`Holds.queueById?_of_mem`, `Holds.topicById?_of_mem`).
-/

namespace DeadLetter

set_option autoImplicit false

namespace Registry

/-! ## Look-ups -/

section Names
variable {r : Registry} {name : String} {q : QueueHandle}

theorem queueByName?_eq_some_iff : r.queueByName? name = some q ↔ IsLast (·.name = name) r.queues q := by
  unfold queueByName?
  rw [findBy?_eq_some_iff]
  simp only [Option.some.injEq]

theorem queueByName?_eq_none_iff : r.queueByName? name = none ↔ ∀ q ∈ r.queues, q.name ≠ name := by
  unfold queueByName?
  rw [findBy?_eq_none_iff]
  simp only [ne_eq, Option.some.injEq]

theorem queueByDlqName?_eq_some_iff :
    r.queueByDlqName? name = some q ↔ IsLast (·.dlqName? = some name) r.queues q := findBy?_eq_some_iff

theorem queueByDlqName?_eq_none_iff : r.queueByDlqName? name = none ↔ ∀ q ∈ r.queues, q.dlqName? ≠ some name :=
  findBy?_eq_none_iff

end Names

/-! ## Handles -/

/-- A registry has a handle for each entry of a configuration. -/
structure Holds (r : Registry) (config : Properties) : Prop where
  slots : (r.queues.map (·.slot)).Nodup
  queues : r.queues.map (fun q => (q.id, q.name, q.dlqName?)) =
    config.queues.map fun e => (e.1, e.2.queueName, e.2.dlqName)
  topics : r.topics.map (fun t => (t.id, t.arn)) = config.topics.map fun e => (e.1, e.2.arn)
  buckets : r.buckets.map (fun b => (b.id, b.name)) = config.buckets.map fun e => (e.1, e.2.bucketName)

theorem Wiring.queue_names (w : Wiring) (i : String) (q : QueueProperties) :
    (w.queue i q).1.id = i ∧ (w.queue i q).1.name = q.queueName ∧ (w.queue i q).1.dlqName? = q.dlqName := by
  unfold Wiring.queue
  cases hd : q.dlqName with
  | none => exact ⟨rfl, rfl, rfl⟩
  | some d => exact ⟨rfl, rfl, rfl⟩

/-- What is the same for a handle and its entry, whatever the clients, is the same for all of them. -/
theorem Wiring.map_queues {β : Type} {g : QueueHandle → β} {k : String → QueueProperties → β}
    (hg : ∀ (w : Wiring) i q, g (w.queue i q).1 = k i q) (w : Wiring) (entries : List (String × QueueProperties)) :
    (w.queues entries).1.map g = entries.map fun e => k e.1 e.2 := by
  induction entries generalizing w with
  | nil => rfl
  | cons e entries ih =>
    obtain ⟨i, q⟩ := e
    unfold Wiring.queues
    dsimp only
    rw [List.map_cons, List.map_cons, ih, hg]

theorem Wiring.queues_names (w : Wiring) (entries : List (String × QueueProperties)) :
    (w.queues entries).1.map (fun q => (q.id, q.name, q.dlqName?)) =
      entries.map fun e => (e.1, e.2.queueName, e.2.dlqName) := by
  refine Wiring.map_queues (k := fun i q => (i, q.queueName, q.dlqName)) (fun w i q => ?_) w entries
  obtain ⟨hid, hname, hdlq⟩ := w.queue_names i q
  rw [hid, hname, hdlq]

theorem Wiring.topics_names (w : Wiring) (entries : List (String × TopicProperties)) :
    (w.topics entries).1.map (fun t => (t.id, t.arn)) = entries.map fun e => (e.1, e.2.arn) := by
  induction entries generalizing w with
  | nil => rfl
  | cons e entries ih =>
    obtain ⟨i, t⟩ := e
    unfold Wiring.topics
    dsimp only
    rw [List.map_cons, List.map_cons, ih]

/-- Placing handles changes nothing that does not read their places. -/
theorem map_queues_ofHandles {β : Type} (g : QueueHandle → β) (hg : ∀ q i, g { q with slot := i } = g q)
    (queues : List QueueHandle) (topics : List TopicHandle) (buckets : List BucketHandle) (backoff : BackoffPolicy) :
    (ofHandles queues topics buckets backoff).queues.map g = queues.map g := by
  unfold ofHandles
  refine List.ext_getElem? fun i => ?_
  rw [List.getElem?_map, List.getElem?_mapIdx, List.getElem?_map, Option.map_map]
  exact congrArg (fun f => Option.map f queues[i]?) (funext fun q => hg q i)

theorem slots_ofHandles (queues : List QueueHandle) (topics : List TopicHandle) (buckets : List BucketHandle)
    (backoff : BackoffPolicy) :
    (ofHandles queues topics buckets backoff).queues.map (·.slot) = List.range queues.length := by
  unfold ofHandles
  refine List.ext_getElem? fun i => ?_
  rw [List.getElem?_map, List.getElem?_mapIdx, Option.map_map]
  by_cases hi : i < queues.length
  · rw [List.getElem?_eq_getElem hi, List.getElem?_range hi]
    rfl
  · rw [List.getElem?_eq_none (by omega), List.getElem?_eq_none (by simpa using hi)]
    rfl

theorem build_holds {config : Properties} (hvalid : validate config = .ok ()) (f : Factory) :
    ∃ r f', build config f = .ok (r, f') ∧ r.Holds config := by
  unfold build
  rw [hvalid]
  refine ⟨_, _, rfl, ?_, ?_, Wiring.topics_names _ _, ?_⟩
  · rw [slots_ofHandles]
    exact List.nodup_range
  · rw [map_queues_ofHandles _ fun _ _ => rfl, Wiring.queues_names]
  · show (config.buckets.map _).map _ = _
    rw [List.map_map]
    rfl

/-- The handles of a configuration have its schedules. -/
theorem schedules_of_build {config : Properties} {f f' : Factory} {r : Registry}
    (h : build config f = .ok (r, f')) :
    r.queues.map (fun q => (q.id, q.name, q.schedules)) =
        config.queues.map (fun e => (e.1, e.2.queueName, e.2.schedules)) ∧
      r.backoff = config.backoff := by
  unfold build at h
  cases hvalid : validate config with
  | error e =>
    rw [hvalid] at h
    cases h
  | ok _ =>
    rw [hvalid] at h
    obtain ⟨rfl, rfl⟩ := Prod.mk.inj (Except.ok.inj h)
    refine ⟨?_, rfl⟩
    have hqueue (w : Wiring) (i : String) (q : QueueProperties) :
        ((w.queue i q).1.id, (w.queue i q).1.name, (w.queue i q).1.schedules) = (i, q.queueName, q.schedules) := by
      unfold Wiring.queue
      cases q.dlqName <;> rfl
    rw [map_queues_ofHandles _ fun _ _ => rfl]
    exact Wiring.map_queues (k := fun i q => (i, q.queueName, q.schedules)) hqueue _ _

namespace Holds
variable {r : Registry} {config : Properties}

theorem placed (h : r.Holds config) : r.Placed :=
  fun _ hq _ hq' hslot => List.inj_on_of_nodup_map h.slots hq' hq hslot

theorem exists_queue (h : r.Holds config) {e : String × QueueProperties} (he : e ∈ config.queues) :
    ∃ q ∈ r.queues, q.id = e.1 ∧ q.name = e.2.queueName ∧ q.dlqName? = e.2.dlqName := by
  have hmem := List.mem_map_of_mem (f := fun e => (e.1, e.2.queueName, e.2.dlqName)) he
  rw [← h.queues] at hmem
  obtain ⟨q, hq, heq⟩ := List.mem_map.mp hmem
  simp only [Prod.mk.injEq] at heq
  exact ⟨q, hq, heq⟩

theorem exists_entry (h : r.Holds config) {q : QueueHandle} (hq : q ∈ r.queues) :
    ∃ e ∈ config.queues, q.id = e.1 ∧ q.name = e.2.queueName ∧ q.dlqName? = e.2.dlqName := by
  have hmem := List.mem_map_of_mem (f := fun q : QueueHandle => (q.id, q.name, q.dlqName?)) hq
  rw [h.queues] at hmem
  obtain ⟨e, he, heq⟩ := List.mem_map.mp hmem
  simp only [Prod.mk.injEq] at heq
  exact ⟨e, he, heq.1.symm, heq.2.1.symm, heq.2.2.symm⟩

theorem exists_topic (h : r.Holds config) {e : String × TopicProperties} (he : e ∈ config.topics) :
    ∃ t ∈ r.topics, t.id = e.1 ∧ t.arn = e.2.arn := by
  have hmem := List.mem_map_of_mem (f := fun e => (e.1, e.2.arn)) he
  rw [← h.topics] at hmem
  obtain ⟨t, ht, heq⟩ := List.mem_map.mp hmem
  simp only [Prod.mk.injEq] at heq
  exact ⟨t, ht, heq⟩

theorem exists_topicEntry (h : r.Holds config) {t : TopicHandle} (ht : t ∈ r.topics) :
    ∃ e ∈ config.topics, t.arn = e.2.arn := by
  have hmem := List.mem_map_of_mem (f := fun t : TopicHandle => (t.id, t.arn)) ht
  rw [h.topics] at hmem
  obtain ⟨e, he, heq⟩ := List.mem_map.mp hmem
  simp only [Prod.mk.injEq] at heq
  exact ⟨e, he, heq.2.symm⟩

theorem isSome_queueById? (h : r.Holds config) {e : String × QueueProperties} (he : e ∈ config.queues) :
    (r.queueById? e.1).isSome := by
  obtain ⟨q, hq, hid, _⟩ := h.exists_queue he
  exact isSome_findBy? hq (congrArg some hid)

theorem isSome_topicById? (h : r.Holds config) {e : String × TopicProperties} (he : e ∈ config.topics) :
    (r.topicById? e.1).isSome := by
  obtain ⟨t, ht, hid, _⟩ := h.exists_topic he
  exact isSome_findBy? ht (congrArg some hid)

/-- The topic that a configured queue is to be subscribed to has a handle. -/
theorem isSome_topic (h : r.Holds config) (hsound : config.Sound) {e : String × QueueProperties}
    (he : e ∈ config.queues) {topicId : String} (ht : e.2.subscribeTopicId = some topicId) :
    (r.topicById? topicId).isSome := by
  obtain ⟨t, ht⟩ := hsound.exists_topic he ht
  exact h.isSome_topicById? ht

/-- Where ids do not repeat, the handle that is found by the id of a queue is that of the queue. -/
theorem queueById?_of_mem (h : r.Holds config) (hkeyed : config.Keyed) {e : String × QueueProperties}
    (he : e ∈ config.queues) :
    ∃ q ∈ r.queues, r.queueById? e.1 = some q ∧ q.name = e.2.queueName ∧ q.dlqName? = e.2.dlqName := by
  obtain ⟨q, hq, hid, hnames⟩ := h.exists_queue he
  have hids : r.queues.map (·.id) = config.queues.map (·.1) := by
    have hfst := congrArg (List.map (·.1)) h.queues
    rwa [List.map_map, List.map_map] at hfst
  have hnodup : (r.queues.map (·.id)).Nodup := hids ▸ hkeyed.queues
  rw [← List.filterMap_eq_map'] at hnodup
  exact ⟨q, hq, findBy?_eq_some hnodup hq (congrArg some hid), hnames⟩

theorem topicById?_of_mem (h : r.Holds config) (hkeyed : config.Keyed) {e : String × TopicProperties}
    (he : e ∈ config.topics) : ∃ t, r.topicById? e.1 = some t ∧ t.arn = e.2.arn := by
  obtain ⟨t, ht, hid, harn⟩ := h.exists_topic he
  have hids : r.topics.map (·.id) = config.topics.map (·.1) := by
    have hfst := congrArg (List.map (·.1)) h.topics
    rwa [List.map_map, List.map_map] at hfst
  have hnodup : (r.topics.map (·.id)).Nodup := hids ▸ hkeyed.topics
  rw [← List.filterMap_eq_map'] at hnodup
  exact ⟨t, findBy?_eq_some hnodup ht (congrArg some hid), harn⟩

end Holds

end Registry

end DeadLetter
