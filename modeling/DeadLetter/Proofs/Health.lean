import DeadLetter.Admin.Router
import DeadLetter.Proofs.Service.Outage
import DeadLetter.Proofs.Validation

/-!
# What a health report tells

Validation tells ids apart only within queues, topics and buckets, and a report has one entry for each id. Where an id
stands for two components, a reachable world hides that the first one is down (`Registry.exists_hidden`).
`health_hides_nothing_iff` : a report hides nothing if and only if no id does.
-/

namespace DeadLetter

set_option autoImplicit false

open Admin

/-- The ids of all components. -/
def Properties.ids (config : Properties) : List String :=
  config.queues.map (·.1) ++ config.topics.map (·.1) ++ config.buckets.map (·.1)

namespace Registry
variable {r : Registry} {config : Properties}

theorem Holds.ids_components (h : r.Holds config) : r.components.map (·.id) = config.ids := by
  have hqueues := congrArg (List.map Prod.fst) h.queues
  have htopics := congrArg (List.map Prod.fst) h.topics
  have hbuckets := congrArg (List.map Prod.fst) h.buckets
  rw [List.map_map, List.map_map] at hqueues htopics hbuckets
  unfold components Properties.ids
  rw [List.map_append, List.map_append, List.map_map, List.map_map, List.map_map]
  exact congrArg₂ _ (congrArg₂ _ hqueues htopics) hbuckets

theorem Holds.nodup_arns (h : r.Holds config) (hsound : config.Sound) : (r.topics.map (·.arn)).Nodup := by
  have harns := congrArg (List.map Prod.snd) h.topics
  rw [List.map_map, List.map_map] at harns
  rw [show r.topics.map (·.arn) = config.topics.map (·.2.arn) from harns]
  exact hsound.topicArns

theorem Holds.nodup_bucketNames (h : r.Holds config) (hsound : config.Sound) : (r.buckets.map (·.name)).Nodup := by
  have hnames := congrArg (List.map Prod.snd) h.buckets
  rw [List.map_map, List.map_map] at hnames
  rw [show r.buckets.map (·.name) = config.buckets.map (·.2.bucketName) from hnames]
  exact hsound.bucketNames

/-- Different handles of a configuration are different components. -/
theorem Holds.nodup_components (h : r.Holds config) (hsound : config.Sound) : r.components.Nodup := by
  have hqueues : r.queues.Nodup := h.slots.of_map _
  have htopics : r.topics.Nodup := (h.nodup_arns hsound).of_map _
  have hbuckets : r.buckets.Nodup := (h.nodup_bucketNames hsound).of_map _
  unfold components
  refine List.nodup_append.mpr ⟨List.nodup_append.mpr ⟨?_, ?_, ?_⟩, ?_, ?_⟩
  · exact hqueues.map fun _ _ heq => Component.queue.inj heq
  · exact htopics.map fun _ _ heq => Component.topic.inj heq
  · rintro a ha b hb rfl
    obtain ⟨q, _, rfl⟩ := List.mem_map.mp ha
    obtain ⟨t, _, heq⟩ := List.mem_map.mp hb
    cases heq
  · exact hbuckets.map fun _ _ heq => Component.bucket.inj heq
  · rintro a ha b hb rfl
    obtain ⟨b, _, rfl⟩ := List.mem_map.mp hb
    rcases List.mem_append.mp ha with ha | ha
    · obtain ⟨q, _, heq⟩ := List.mem_map.mp ha
      cases heq
    · obtain ⟨t, _, heq⟩ := List.mem_map.mp ha
      cases heq

theorem exists_displaced {cs : List Component} (h : ¬ (cs.map (·.id)).Nodup) :
    ∃ before c after, cs = before ++ c :: after ∧ ∃ c' ∈ after, c'.id = c.id := by
  induction cs with
  | nil => exact absurd List.nodup_nil h
  | cons c cs ih =>
    by_cases hc : ∃ c' ∈ cs, c'.id = c.id
    · exact ⟨[], c, cs, rfl, hc⟩
    · have hrest : ¬ (cs.map (·.id)).Nodup := fun hnodup =>
        h (List.nodup_cons.mpr ⟨fun hmem => hc (List.mem_map.mp hmem), hnodup⟩)
      obtain ⟨before, c', after, rfl, hdisplaced⟩ := ih hrest
      exact ⟨c :: before, c', after, rfl, hdisplaced⟩

/-- If an id stands for two components, a reachable world hides that one is down. -/
theorem exists_hidden (hslots : (r.queues.map (·.slot)).Nodup) (harns : (r.topics.map (·.arn)).Nodup)
    (hnames : (r.buckets.map (·.name)).Nodup) (hnodup : r.components.Nodup)
    (hids : ¬ (r.components.map (·.id)).Nodup) :
    ∃ w : World, w.Reachable r ∧ (r.health.run w).1.status = .up ∧ ¬ r.AllUp w := by
  obtain ⟨before, c, after, hsplit, c', hc', hid⟩ := exists_displaced hids
  have hc : c ∈ r.components := by
    rw [hsplit]
    exact List.mem_append_right _ List.mem_cons_self
  have hnotin : c ∉ after := by
    rw [hsplit] at hnodup
    exact (List.nodup_cons.mp (List.nodup_append.mp hnodup).2.1).1
  obtain ⟨w, hw, hdown, hothers⟩ := exists_only_down hslots harns hnames hc
  refine ⟨w, hw, up_of_forall hslots fun id found hfound => ?_, fun hall => hdown (allUp_iff.mp hall c hc)⟩
  refine hothers found (List.mem_reverse.mp (List.mem_of_find?_eq_some hfound)) ?_
  rintro rfl
  -- the component that is down is not found under its id, as a later one is
  have hself : found.id = id := eq_of_beq (List.find?_some (p := fun c : Component => c.id == id) hfound)
  have hsome : (findLast? (fun c : Component => c.id == id) after).isSome :=
    isSome_findLast? hc' (beq_iff_eq.mpr (hid.trans hself))
  obtain ⟨later, hlater⟩ := Option.isSome_iff_exists.mp hsome
  unfold findLast? at hlater
  rw [hsplit, List.reverse_append, List.reverse_cons, List.append_assoc, List.find?_append, hlater] at hfound
  have heq : later = found := Option.some.inj hfound
  rw [← heq] at hnotin
  exact hnotin (List.mem_reverse.mp (List.mem_of_find?_eq_some hlater))

end Registry

/-! ## Reports over the admin interface -/

/-- The public health route tells whether the report is up by its status. -/
theorem Admin.App.respond_health {app : App} {req : Request} (hmethod : req.method = "GET")
    (hpath : req.path = "/health") (w : World) :
    ((app.respond req).run w).1.status = if (app.registry.health.run w).1.status = .up then 200 else 503 := by
  have hroute : Route.ofPath? "/health" = some .health := by decide
  unfold respond
  rw [hpath, hroute]
  show ((app.dispatch req .health).run w).1.status = _
  have hget : req.method = Route.health.method.name := hmethod
  unfold dispatch handle
  rw [if_pos hget, Routine.run_bind]
  rfl

/-- A valid configuration can be built. A report has for each id what the last component with that id reports on its
own, is up if all components are up, and gives the health route its status. If no id stands for two components, it is up
only if all components are; if an id does, there is a reachable world in which it is up and a component is down. -/
theorem health_hides_nothing_iff {config : Properties} (hvalid : validate config = .ok ()) (f : Factory) :
    ∃ r f', Registry.build config f = .ok (r, f') ∧ r.Holds config ∧
      (∀ w, (r.health.run w).1.components = .ofList (r.components.map fun c => (c.id, (c.health.run w).1))) ∧
      (∀ (app : App) (req : Request) (w : World), app.registry = r → req.method = "GET" → req.path = "/health" →
        ((app.respond req).run w).1.status = if (r.health.run w).1.status = .up then 200 else 503) ∧
      (∀ w, r.AllUp w → (r.health.run w).1.status = .up) ∧
      (config.ids.Nodup → ∀ w, (r.health.run w).1.status = .up → r.AllUp w) ∧
      (¬ config.ids.Nodup → ∃ w : World, w.Reachable r ∧ (r.health.run w).1.status = .up ∧ ¬ r.AllUp w) := by
  obtain ⟨r, f', hbuild, hholds⟩ := Registry.build_holds hvalid f
  have hsound := Properties.sound_of_validate hvalid
  have hids := hholds.ids_components
  refine ⟨r, f', hbuild, hholds, r.health_components hholds.slots, ?_, fun w => r.up_of_allUp hholds.slots, ?_, ?_⟩
  · rintro app req w rfl hmethod hpath
    exact Admin.App.respond_health hmethod hpath w
  · intro hnodup w hup
    rw [← hids] at hnodup
    exact Registry.allUp_of_up hholds.slots hnodup hup
  · intro hrepeats
    rw [← hids] at hrepeats
    exact Registry.exists_hidden hholds.slots (hholds.nodup_arns hsound) (hholds.nodup_bucketNames hsound)
      (hholds.nodup_components hsound) hrepeats

/-- A queue and a topic with the id `a`: the health route answers that all is well while the queue is down. -/
theorem health_hides_nothing_iff_repeated :
    let config : Properties := {
      queues := [("a", { queueName := "a" })]
      topics := [("a", { arn := "arn:aws:sns:eu-west-2:000000000000:t" })] }
    validate config = .ok () ∧ ∃ r f', Registry.build config {} = .ok (r, f') ∧
      ∃ w : World, w.Reachable r ∧ ¬ r.AllUp w ∧ ∀ (app : App) (req : Request), app.registry = r →
        req.method = "GET" → req.path = "/health" → ((app.respond req).run w).1.status = 200 := by
  intro config
  have hvalid : validate config = .ok () := by decide +kernel
  have hrepeats : ¬ config.ids.Nodup := by decide
  obtain ⟨r, f', hbuild, _, _, hroute, _, _, hhides⟩ := health_hides_nothing_iff hvalid {}
  obtain ⟨w, hw, hup, hdown⟩ := hhides hrepeats
  refine ⟨hvalid, r, f', hbuild, w, hw, hdown, fun app req hregistry hmethod hpath => ?_⟩
  rw [hroute app req w hregistry hmethod hpath, if_pos hup]

end DeadLetter
