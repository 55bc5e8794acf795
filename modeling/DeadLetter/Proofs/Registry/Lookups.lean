import DeadLetter.Proofs.Registry.Handles
import Mathlib.Data.List.Forall2

/-!
# Look-ups and the configuration

`Registry.Tables` : each look-up of a registry finds the last entry with a key, and the entries are those that were
given, in order. `Registry.Inverts` : a registry has one handle for each entry of a configuration, in order, and finds
it under each key of the entry. `Registry.lookups_invert` : the first holds of all handles whatsoever, the second of
what is built from a valid configuration.
-/

namespace DeadLetter

set_option autoImplicit false

namespace Registry

/-! ## Look-ups of any handles -/

/-- A look-up finds the last entry with a key, and nothing only if no entry has the key. -/
structure FindsLast {α : Type} (find : String → Option α) (key : α → Option String) (as : List α) : Prop where
  found : ∀ name a, find name = some a ↔ IsLast (key · = some name) as a
  nothing : ∀ name, find name = none ↔ ∀ a ∈ as, key a ≠ some name

theorem findsLast_findBy? {α : Type} (key : α → Option String) (as : List α) : FindsLast (findBy? key as) key as :=
  ⟨fun _ _ => findBy?_eq_some_iff, fun _ => findBy?_eq_none_iff⟩

/-- A registry keeps the handles that it was given in order, each queue with its place, and its look-ups find the last
one with a key. -/
structure Tables (r : Registry) (queues : List QueueHandle) (topics : List TopicHandle) (buckets : List BucketHandle) :
    Prop where
  queues : ∀ i : Nat, r.queues[i]? = queues[i]?.map fun q => { q with slot := i }
  topics : r.topics = topics
  buckets : r.buckets = buckets
  queueById : FindsLast r.queueById? (some ·.id) r.queues
  queueByName : FindsLast r.queueByName? (some ·.name) r.queues
  queueByDlqName : FindsLast r.queueByDlqName? (·.dlqName?) r.queues
  topicById : FindsLast r.topicById? (some ·.id) r.topics
  bucketById : FindsLast r.bucketById? (some ·.id) r.buckets

theorem tables_ofHandles (queues : List QueueHandle) (topics : List TopicHandle) (buckets : List BucketHandle)
    (backoff : BackoffPolicy) : (ofHandles queues topics buckets backoff).Tables queues topics buckets where
  queues _ := List.getElem?_mapIdx
  topics := rfl
  buckets := rfl
  queueById := findsLast_findBy? _ _
  queueByName := findsLast_findBy? _ _
  queueByDlqName := findsLast_findBy? _ _
  topicById := findsLast_findBy? _ _
  bucketById := findsLast_findBy? _ _

/-! ## Look-ups of configured handles -/

/-- A queue is that of an entry of the configuration, and is found under each of its keys. -/
structure IsQueueOf (r : Registry) (q : QueueHandle) (e : String × QueueProperties) : Prop where
  id : q.id = e.1
  name : q.name = e.2.queueName
  dlqName : q.dlqName? = e.2.dlqName
  schedule : q.schedules.queue = e.2.errorVisibilityTimeout
  eventSchedules : q.schedules.events = e.2.eventErrorVisibilityTimeout
  byId : r.queueById? e.1 = some q
  byName : r.queueByName? e.2.queueName = some q
  byDlqName : ∀ name, e.2.dlqName = some name → r.queueByDlqName? name = some q

/-- A topic is that of an entry of the configuration, and is found under its id. -/
structure IsTopicOf (r : Registry) (t : TopicHandle) (e : String × TopicProperties) : Prop where
  id : t.id = e.1
  arn : t.arn = e.2.arn
  byId : r.topicById? e.1 = some t

/-- A bucket is that of an entry of the configuration, and is found under its id. -/
structure IsBucketOf (r : Registry) (b : BucketHandle) (e : String × BucketProperties) : Prop where
  id : b.id = e.1
  name : b.name = e.2.bucketName
  byId : r.bucketById? e.1 = some b

/-- A registry has the handle of each entry of a configuration, in order. -/
structure Inverts (r : Registry) (config : Properties) : Prop where
  queues : List.Forall₂ r.IsQueueOf r.queues config.queues
  topics : List.Forall₂ r.IsTopicOf r.topics config.topics
  buckets : List.Forall₂ r.IsBucketOf r.buckets config.buckets
  defaultSchedule : r.backoff.fallback = config.defaultErrorVisibilityTimeout

section Lists
variable {α β γ : Type} {as : List α} {bs : List β} {g : α → γ} {k : β → γ}

/-- Lists with the same values have them in pairs. -/
theorem forall₂_of_map_eq (h : as.map g = bs.map k) : List.Forall₂ (fun a b => a ∈ as ∧ g a = k b) as bs := by
  rw [← List.forall₂_eq_eq_eq] at h
  have hpairs := List.forall₂_map_right_iff.mp (List.forall₂_map_left_iff.mp h)
  exact (List.forall₂_and_left _ _).mpr ⟨fun _ ha => ha, hpairs⟩

end Lists

section Configured
variable {r : Registry} {config : Properties}

/-! Keys that differ for the entries of a configuration differ for its handles. -/

theorem Holds.filterMap_queues {β : Type} (h : r.Holds config) (g : String × String × Option String → Option β) :
    r.queues.filterMap (fun q => g (q.id, q.name, q.dlqName?)) =
      config.queues.filterMap fun e => g (e.1, e.2.queueName, e.2.dlqName) := by
  have hkeys := congrArg (List.filterMap g) h.queues
  rwa [List.filterMap_map, List.filterMap_map] at hkeys

theorem Holds.nodup_topicIds (h : r.Holds config) (hkeyed : config.Keyed) :
    (r.topics.filterMap (some ·.id)).Nodup := by
  have hids := congrArg (List.map Prod.fst) h.topics
  rw [List.map_map, List.map_map] at hids
  rw [List.filterMap_eq_map']
  exact hids ▸ hkeyed.topics

theorem Holds.nodup_bucketIds (h : r.Holds config) (hbuckets : (config.buckets.map (·.1)).Nodup) :
    (r.buckets.filterMap (some ·.id)).Nodup := by
  have hids := congrArg (List.map Prod.fst) h.buckets
  rw [List.map_map, List.map_map] at hids
  rw [List.filterMap_eq_map']
  exact hids ▸ hbuckets

/-- A queue that has the keys of an entry is found under each of them. -/
theorem Holds.isQueueOf (h : r.Holds config) (hsound : config.Sound) (hkeyed : config.Keyed) {q : QueueHandle}
    (hq : q ∈ r.queues) {e : String × QueueProperties}
    (hnames : (q.id, q.name, q.dlqName?) = (e.1, e.2.queueName, e.2.dlqName))
    (hschedules : q.schedules = ⟨e.2.errorVisibilityTimeout, e.2.eventErrorVisibilityTimeout⟩) : r.IsQueueOf q e := by
  simp only [Prod.mk.injEq] at hnames
  obtain ⟨hid, hname, hdlq⟩ := hnames
  refine ⟨hid, hname, hdlq, by rw [hschedules], by rw [hschedules], ?_, ?_, fun name hd => ?_⟩
  · refine findBy?_eq_some ?_ hq (congrArg some hid)
    rw [h.filterMap_queues fun keys => some keys.1, List.filterMap_eq_map']
    exact hkeyed.queues
  · refine findBy?_eq_some ?_ hq (congrArg some hname)
    rw [h.filterMap_queues fun keys => some keys.2.1, List.filterMap_eq_map']
    exact hsound.queueNames
  · refine findBy?_eq_some ?_ hq (hdlq.trans hd)
    rw [h.filterMap_queues fun keys => keys.2.2]
    exact hsound.dlqNames

theorem Holds.inverts (h : r.Holds config) (hsound : config.Sound) (hkeyed : config.Keyed)
    (hbuckets : (config.buckets.map (·.1)).Nodup)
    (hschedules : r.queues.map (fun q => (q.id, q.name, q.schedules)) =
      config.queues.map fun e => (e.1, e.2.queueName, e.2.schedules))
    (hbackoff : r.backoff.fallback = config.defaultErrorVisibilityTimeout) : r.Inverts config where
  queues := by
    refine List.Forall₂.mp ?_ (forall₂_of_map_eq h.queues) (forall₂_of_map_eq hschedules)
    rintro q e ⟨hq, hnames⟩ ⟨_, hschedule⟩
    simp only [Prod.mk.injEq] at hschedule
    exact h.isQueueOf hsound hkeyed hq hnames hschedule.2.2
  topics := by
    refine (forall₂_of_map_eq h.topics).imp ?_
    rintro t e ⟨ht, hnames⟩
    simp only [Prod.mk.injEq] at hnames
    obtain ⟨hid, harn⟩ := hnames
    exact ⟨hid, harn, findBy?_eq_some (h.nodup_topicIds hkeyed) ht (congrArg some hid)⟩
  buckets := by
    refine (forall₂_of_map_eq h.buckets).imp ?_
    rintro b e ⟨hb, hnames⟩
    simp only [Prod.mk.injEq] at hnames
    obtain ⟨hid, hname⟩ := hnames
    exact ⟨hid, hname, findBy?_eq_some (h.nodup_bucketIds hbuckets) hb (congrArg some hid)⟩
  defaultSchedule := hbackoff

end Configured

/-- Look-ups invert the lists that they are made from. Whatever handles a registry is made of, it keeps them in order,
and each of its look-ups finds the last one with a key, or nothing where none has it. What is built from a valid
configuration has the handle of each entry, in order and with the configured names and schedules, and finds it under
every key of the entry. -/
theorem lookups_invert :
    (∀ queues topics buckets backoff, (ofHandles queues topics buckets backoff).Tables queues topics buckets) ∧
    ∀ (config : Properties) (f : Factory), validate config = .ok () → config.Keyed →
      (config.buckets.map (·.1)).Nodup → ∃ r f', build config f = .ok (r, f') ∧ r.Inverts config := by
  refine ⟨tables_ofHandles, fun config f hvalid hkeyed hbuckets => ?_⟩
  obtain ⟨r, f', hbuild, hholds⟩ := build_holds hvalid f
  obtain ⟨hschedules, hbackoff⟩ := schedules_of_build hbuild
  have hsound := Properties.sound_of_validate hvalid
  exact ⟨r, f', hbuild, hholds.inverts hsound hkeyed hbuckets hschedules (congrArg (·.fallback) hbackoff)⟩

/-- A name that is that of a queue and of the dead letter queue of another one, and an id that three queues have. Each
kind of schedule is configured once. -/
theorem lookups_invert_overlapping :
    let config : Properties := {
      defaultErrorVisibilityTimeout := [7]
      queues := [
        ("z", { queueName := "x", dlqName := some "y", errorVisibilityTimeout := [1, 2] }),
        ("a", { queueName := "y", eventErrorVisibilityTimeout := [("created", [3])] })]
      buckets := [("a", { bucketName := "b" })] }
    let named (name : String) : QueueHandle := { id := "a", name := name, client := 0 }
    validate config = .ok () ∧ config.Keyed ∧ (config.buckets.map (·.1)).Nodup ∧
      (∃ r f', build config {} = .ok (r, f') ∧ r.Inverts config ∧
        r.queueByName? "y" = r.queueById? "a" ∧ r.queueByDlqName? "y" = r.queueById? "z" ∧
        (r.queueById? "z").map (·.schedules) = some ⟨[1, 2], []⟩ ∧
        (r.queueById? "a").map (·.schedules) = some ⟨[], [("created", [3])]⟩ ∧ r.backoff = ⟨[7]⟩) ∧
      (ofHandles [named "x", named "y", named "x"] [] [] ⟨[]⟩).queueById? "a" = some { named "x" with slot := 2 } ∧
      (ofHandles [named "x", named "y", named "x"] [] [] ⟨[]⟩).queueByName? "y" =
        some { named "y" with slot := 1 } := by
  intro config named
  have hvalid : validate config = .ok () := by decide +kernel
  have hkeyed : config.Keyed := ⟨by decide, by decide⟩
  obtain ⟨htables, hinverts⟩ := lookups_invert
  have hrepeated := htables [named "x", named "y", named "x"] [] [] ⟨[]⟩
  refine ⟨hvalid, hkeyed, by decide, ?_, ?_, ?_⟩
  · obtain ⟨r, f', hbuild, hr⟩ := hinverts config {} hvalid hkeyed (by decide)
    obtain ⟨_, _, hz, hrest, _⟩ := List.forall₂_cons_right_iff.mp hr.queues
    obtain ⟨_, _, ha, _⟩ := List.forall₂_cons_right_iff.mp hrest
    refine ⟨r, f', hbuild, hr, ha.byName.trans ha.byId.symm, (hz.byDlqName "y" rfl).trans hz.byId.symm, ?_, ?_, ?_⟩
    · rw [hz.byId]
      exact congrArg some (congrArg₂ Schedules.mk hz.schedule hz.eventSchedules)
    · rw [ha.byId]
      exact congrArg some (congrArg₂ Schedules.mk ha.schedule ha.eventSchedules)
    · exact congrArg BackoffPolicy.mk hr.defaultSchedule
  · exact (hrepeated.queueById.found _ _).mpr
      ⟨[named "x", { named "y" with slot := 1 }], [], rfl, rfl, nofun⟩
  · refine (hrepeated.queueByName.found _ _).mpr ⟨[named "x"], [{ named "x" with slot := 2 }], rfl, rfl, ?_⟩
    decide

end Registry

end DeadLetter
