import DeadLetter.Proofs.Service.Components

/-!
# Worlds in which one component is down

For each component of a registry there is a reachable world in which it is the only one that is down
(`Registry.exists_only_down`). In it the other topics and buckets are there, and queues too, but no URLs are given out:
every other queue knows the ones that it needs.
-/

namespace DeadLetter

set_option autoImplicit false

open QueueStore

/-- Nothing is made to fail but look-ups of URLs; queues with redrive policies have the given names, and these are the
topics and buckets. -/
structure Memory.Stocks (p : Memory) (names arns buckets : List String) : Prop where
  reachable : p.Reachable
  operations : p.queues.failingOperations = [.getQueueUrl]
  failing : p.queues.failingQueues = []
  topicOperations : p.topics.failingOperations = []
  queues : ∀ n ∈ names, ∃ s, p.queues.queues.get? n = some s ∧ s.redrive.isSome
  topics : ∀ arn, (p.topics.topics.get? arn).isSome ↔ arn ∈ arns
  buckets_eq : p.buckets = buckets

theorem Memory.exists_stocks (names arns buckets : List String) : ∃ p : Memory, p.Stocks names arns buckets := by
  induction names with
  | nil =>
    induction arns with
    | nil =>
      induction buckets with
      | nil =>
        exact ⟨_, .control (.failOperation .getQueueUrl) (.start true), rfl, rfl, rfl, nofun,
          by simp [Control.apply, Dict.get?], rfl⟩
      | cons b buckets ih =>
        obtain ⟨p, hp⟩ := ih
        exact ⟨_, .control (.createBucket b) hp.reachable, hp.operations, hp.failing, hp.topicOperations, hp.queues,
          hp.topics, congrArg (List.cons b) hp.buckets_eq⟩
    | cons arn arns ih =>
      obtain ⟨p, hp⟩ := ih
      refine ⟨_, .control (.createTopic arn) hp.reachable, hp.operations, hp.failing, hp.topicOperations, hp.queues,
        fun arn' => ?_, hp.buckets_eq⟩
      show ((p.topics.topics.put arn _).get? arn').isSome ↔ _
      rw [Dict.get?_put, List.mem_cons, ← hp.topics arn']
      by_cases harn : arn' = arn
      · simp [harn]
      · simp [harn]
  | cons n names ih =>
    obtain ⟨p, hp⟩ := ih
    refine ⟨_, .control (.createWithRedrive n n 1) hp.reachable, hp.operations, hp.failing, hp.topicOperations,
      fun n' hn' => ?_, hp.topics, hp.buckets_eq⟩
    have hput := puts_adjust p.queues n fun q => { q with redrive := some ⟨QueueStore.arnOf n, 1⟩ }
    show ∃ s, (p.queues.createWithRedrive n n 1).queues.get? n' = some s ∧ _
    unfold createWithRedrive
    rw [hput.get?]
    by_cases hname : n' = n
    · rw [if_pos hname]
      exact ⟨_, rfl, rfl⟩
    · rw [if_neg hname]
      exact hp.queues n' ((List.mem_cons.mp hn').resolve_left hname)

/-- A queue knows where it and its dead letter queue are. -/
structure QueueHandle.Located (q : QueueHandle) (w : World) : Prop where
  url : (w.known q.slot).url = some (urlOf q.name)
  dlqUrl : ∀ d, q.dlq = some d → (w.known q.slot).dlqUrl = some (urlOf d.name)

namespace Registry
variable {r : Registry} {w : World}

/-- A queue of which nothing is known can learn where it and its dead letter queue are. -/
theorem exists_located (hr : r.Placed) {q : QueueHandle} (hq : q ∈ r.queues) (hw : w.Reachable r)
    (hknown : w.known q.slot = {}) :
    ∃ w' : World, w'.Reachable r ∧ w'.provider = w.provider ∧ q.Located w' ∧
      ∀ i, i ≠ q.slot → w'.known i = w.known i := by
  have hself (q' : QueueHandle) (hq' : q' ∈ r.queues) (hslot : q'.slot = q.slot) : q' = q := hr q hq q' hq' hslot
  have hurl : World.Reachable r (w.perform (.learn q.slot (.url (urlOf q.name)))).2 := by
    refine .act _ ?_ hw
    rintro _ _ ⟨⟩ q' hq' hslot
    rw [hself q' hq' hslot]
    rfl
  have hknown' : (w.perform (.learn q.slot (.url (urlOf q.name)))).2.known q.slot = { url := some (urlOf q.name) } := by
    show (if q.slot = q.slot then (w.known q.slot).learn _ else _) = _
    rw [if_pos rfl, hknown]
    rfl
  generalize hw₁ : (w.perform (.learn q.slot (.url (urlOf q.name)))).2 = w₁ at hurl hknown'
  have hprovider : w₁.provider = w.provider := by rw [← hw₁]; rfl
  have hothers (i : Nat) (hi : i ≠ q.slot) : w₁.known i = w.known i := by
    rw [← hw₁]
    exact if_neg hi
  cases hd : q.dlq with
  | none => exact ⟨w₁, hurl, hprovider, ⟨by rw [hknown'], fun d hd' => by rw [hd] at hd'; cases hd'⟩, hothers⟩
  | some d =>
    refine ⟨_, .act (.learn q.slot (.dlqUrl (urlOf d.name))) ?_ hurl, hprovider, ⟨?_, fun d' hd' => ?_⟩, fun i hi => ?_⟩
    · rintro _ _ ⟨⟩ q' hq' hslot
      rw [hself q' hq' hslot]
      exact ⟨d, hd, rfl⟩
    · show (if q.slot = q.slot then (w₁.known q.slot).learn _ else _).url = _
      rw [if_pos rfl, hknown']
      rfl
    · rw [hd] at hd'
      cases hd'
      show (if q.slot = q.slot then (w₁.known q.slot).learn _ else _).dlqUrl = _
      rw [if_pos rfl, hknown']
      rfl
    · rw [← hothers i hi]
      exact if_neg hi

theorem exists_all_located (hr : r.Placed) (qs : List QueueHandle) (hqs : ∀ q ∈ qs, q ∈ r.queues)
    (hnodup : qs.Nodup) (hw : w.Reachable r) (hknown : ∀ i, w.known i = {}) :
    ∃ w' : World, w'.Reachable r ∧ w'.provider = w.provider ∧ (∀ q ∈ qs, q.Located w') ∧
      ∀ i, (∀ q ∈ qs, i ≠ q.slot) → w'.known i = {} := by
  induction qs with
  | nil => exact ⟨w, hw, rfl, nofun, fun i _ => hknown i⟩
  | cons q qs ih =>
    obtain ⟨hq, hqs⟩ := List.forall_mem_cons.mp hqs
    obtain ⟨hnotin, hnodup⟩ := List.nodup_cons.mp hnodup
    have hapart (q' : QueueHandle) (hq' : q' ∈ qs) : q'.slot ≠ q.slot := by
      intro hslot
      rw [hr q hq q' (hqs q' hq') hslot] at hq'
      exact hnotin hq'
    obtain ⟨w₁, hw₁, hprovider₁, hlocated₁, hknown₁⟩ := ih hqs hnodup
    obtain ⟨w₂, hw₂, hprovider₂, hlocated₂, hknown₂⟩ :=
      exists_located hr hq hw₁ (hknown₁ q.slot fun q' hq' => (hapart q' hq').symm)
    refine ⟨w₂, hw₂, hprovider₂.trans hprovider₁, fun q' hq' => ?_, fun i hi => ?_⟩
    · rcases List.mem_cons.mp hq' with rfl | hq'
      · exact hlocated₂
      · have hsame := hknown₂ q'.slot (hapart q' hq')
        exact ⟨hsame ▸ (hlocated₁ q' hq').url, fun d hd => hsame ▸ (hlocated₁ q' hq').dlqUrl d hd⟩
    · obtain ⟨hne, hi⟩ := List.forall_mem_cons.mp hi
      rw [hknown₂ i hne]
      exact hknown₁ i hi

/-- The names that URLs of queues and dead letter queues lead to. -/
def addresses (r : Registry) : List String :=
  r.queues.flatMap fun q => addressed q.name :: (q.dlq.map fun d => addressed d.name).toList

/-- A queue that knows where it and its dead letter queue are works while they are there. -/
theorem works_of_located {q : QueueHandle} (hq : q ∈ r.queues) (hlocated : q.Located w) {arns buckets : List String}
    (hstocks : w.provider.Stocks r.addresses arns buckets) : q.Works w := by
  have hfails (name : String) : w.provider.queues.fails .getQueueAttributes (addressed name) = false := by
    unfold QueueStore.fails
    rw [hstocks.operations, hstocks.failing]
    rfl
  have hmem : addressed q.name ∈ r.addresses := List.mem_flatMap.mpr ⟨q, hq, List.mem_cons_self⟩
  obtain ⟨s, hs, hredrive⟩ := hstocks.queues _ hmem
  have hmain : q.attributesIn? w = some (attributesOf (addressed q.name) s) := by
    unfold QueueHandle.attributesIn? World.urlFor?
    rw [hlocated.url]
    exact World.attributesAt?_urlOf (hfails q.name) hs
  refine ⟨by rw [hmain]; rfl, fun _ a ha => ?_, fun d hd => ?_⟩
  · rw [hmain] at ha
    cases ha
    exact hredrive
  · have hmem' : addressed d.name ∈ r.addresses :=
      List.mem_flatMap.mpr ⟨q, hq, List.mem_cons_of_mem _ (by rw [hd]; exact List.mem_singleton_self _)⟩
    obtain ⟨s', hs', _⟩ := hstocks.queues _ hmem'
    unfold QueueHandle.dlqAttributesIn? World.urlFor?
    rw [hlocated.dlqUrl d hd]
    show (w.attributesAt? (urlOf d.name)).isSome
    rw [World.attributesAt?_urlOf (hfails d.name) hs']
    rfl

/-- Each component can be the only one that is down. -/
theorem exists_only_down (hslots : (r.queues.map (·.slot)).Nodup) (harns : (r.topics.map (·.arn)).Nodup)
    (hnames : (r.buckets.map (·.name)).Nodup) {c : Component} (hc : c ∈ r.components) :
    ∃ w : World, w.Reachable r ∧ ¬ c.Up w ∧ ∀ c' ∈ r.components, c' ≠ c → c'.Up w := by
  have hr : r.Placed := fun q hq q' hq' hslot => List.inj_on_of_nodup_map hslots hq' hq hslot
  obtain ⟨p, hp⟩ := Memory.exists_stocks r.addresses ((r.topics.filter fun t => decide (.topic t ≠ c)).map (·.arn))
    ((r.buckets.filter fun b => decide (.bucket b ≠ c)).map (·.name))
  obtain ⟨w, hw, hprovider, hlocated, hknown⟩ := exists_all_located (w := { provider := p }) hr
    (r.queues.filter fun q => decide (.queue q ≠ c)) (fun q hq => (List.mem_filter.mp hq).1)
    ((hslots.of_map _).filter _) (.start hp.reachable _) (fun _ => rfl)
  have hstocks := hp
  rw [← show w.provider = p from hprovider] at hstocks
  refine ⟨w, hw, ?_, fun c' hc' hne => ?_⟩
  · intro hup
    unfold components at hc
    cases c with
    | queue q =>
      have hq : q ∈ r.queues := by simpa using hc
      -- its URL is not known and cannot be looked up
      have hunknown : w.known q.slot = {} := by
        refine hknown q.slot fun q' hq' hslot => ?_
        obtain ⟨hq', hother⟩ := List.mem_filter.mp hq'
        rw [hr q hq q' hq' hslot.symm] at hother
        simp at hother
      have hfails : w.provider.queues.fails .getQueueUrl q.name = true := by
        unfold QueueStore.fails
        rw [hstocks.operations]
        rfl
      have hmain := ((q.health_up_iff w).mp hup).main
      unfold QueueHandle.attributesIn? World.urlFor? at hmain
      rw [hunknown, queueUrl_eq, hfails] at hmain
      cases hmain
    | topic t =>
      have ht : t ∈ r.topics := by simpa using hc
      have hsome := (t.health_up_iff w).mp hup
      rw [TopicStore.topicAttributes_eq] at hsome
      have habsent : w.provider.topics.topics.get? t.arn = none := by
        rw [← Option.not_isSome_iff_eq_none, hstocks.topics]
        intro hmem
        obtain ⟨t', ht', harn⟩ := List.mem_map.mp hmem
        obtain ⟨ht', hother⟩ := List.mem_filter.mp ht'
        rw [List.inj_on_of_nodup_map harns ht' ht harn] at hother
        simp at hother
      rw [habsent] at hsome
      dsimp only at hsome
      split at hsome <;> cases hsome
    | bucket b =>
      have hb : b ∈ r.buckets := by simpa using hc
      have hmem := (b.health_up_iff w).mp hup
      rw [hstocks.buckets_eq] at hmem
      obtain ⟨b', hb', hname⟩ := List.mem_map.mp hmem
      obtain ⟨hb', hother⟩ := List.mem_filter.mp hb'
      rw [List.inj_on_of_nodup_map hnames hb' hb hname] at hother
      simp at hother
  · unfold components at hc'
    cases c' with
    | queue q =>
      have hq : q ∈ r.queues := by simpa using hc'
      have hmem : q ∈ r.queues.filter fun q => decide (.queue q ≠ c) :=
        List.mem_filter.mpr ⟨hq, decide_eq_true hne⟩
      exact (q.health_up_iff w).mpr (works_of_located hq (hlocated q hmem) hstocks)
    | topic t =>
      have ht : t ∈ r.topics := by simpa using hc'
      have hmem : t ∈ r.topics.filter fun t => decide (.topic t ≠ c) :=
        List.mem_filter.mpr ⟨ht, decide_eq_true hne⟩
      have hpresent := (hstocks.topics t.arn).mpr (List.mem_map_of_mem hmem)
      obtain ⟨s, hs⟩ := Option.isSome_iff_exists.mp hpresent
      refine (t.health_up_iff w).mpr ?_
      rw [TopicStore.topicAttributes_eq, hstocks.topicOperations, hs]
      rfl
    | bucket b =>
      have hb : b ∈ r.buckets := by simpa using hc'
      have hmem : b ∈ r.buckets.filter fun b => decide (.bucket b ≠ c) :=
        List.mem_filter.mpr ⟨hb, decide_eq_true hne⟩
      refine (b.health_up_iff w).mpr ?_
      rw [hstocks.buckets_eq]
      exact List.mem_map_of_mem hmem

end Registry

end DeadLetter
