import DeadLetter.Proofs.Provisioning.Creations
import DeadLetter.Proofs.Service.Answered
import DeadLetter.Proofs.Service.Stages

/-!
# What provisioning establishes

`provision_establishes` : where provisioning succeeds on a fresh provider, the queues are those of the configuration,
each with its redrive policy and attributes, the topics have the subscriptions that are configured, in order, and every
queue is up (`Registry.Established`).
-/

namespace DeadLetter

set_option autoImplicit false

open QueueStore

/-! ## Fresh worlds -/

/-- Nothing is there, nothing is known of any queue, and nothing is made to fail. -/
structure World.Fresh (w : World) : Prop where
  smooth : w.provider.Smooth
  queues : w.provider.queues.queues = []
  topics : w.provider.topics.topics = []
  known : ∀ slot, w.known slot = {}

theorem World.read_of_get? {w : World} (hw : w.provider.Smooth) {name : String} (hname : '/' ∉ name.toList)
    {s : QueueState} (hs : w.provider.queues.queues.get? name = some s) :
    (w.urlFor? none name).bind w.attributesAt? = some (attributesOf name s) := by
  have haddressed := addressed_of_notMem hname
  have hurl : w.urlFor? none name = some (urlOf name) := by
    unfold World.urlFor?
    rw [queueUrl_eq, hw.fails, if_neg Bool.false_ne_true, hs, Option.isSome_some, if_pos rfl]
    rfl
  rw [hurl, Option.bind_some, World.attributesAt?_urlOf (hw.fails _ _) (haddressed.symm ▸ hs), haddressed]

/-! ## Subscriptions -/

/-- A call that subscribes nothing to a topic leaves its subscriptions as they are. -/
theorem Call.subscriptions_onTopic {arn : String} {c : Call} (hc : c.subscription? arn = none) (t : Option TopicState) :
    ((onTopic arn t c).getD {}).subscriptions = (t.getD {}).subscriptions := by
  cases c with
  | createTopic name a =>
    rw [onTopic]
    split
    · show (TopicStore.tagged.established (t.getD {}) a).subscriptions = _
      unfold Tagged.established
      split <;> rfl
    · rfl
  | subscribe topic queueArn filter => rw [onTopic, if_neg (topic_ne_of_subscription? hc)]
  | _ => rfl

theorem Call.subscriptions_foldl_onTopic {arn : String} {cs : List Call} (h : ∀ c ∈ cs, c.subscription? arn = none)
    (t : Option TopicState) : ((cs.foldl (onTopic arn) t).getD {}).subscriptions = (t.getD {}).subscriptions := by
  induction cs generalizing t with
  | nil => rfl
  | cons c cs ih =>
    obtain ⟨hc, hcs⟩ := List.forall_mem_cons.mp h
    rw [List.foldl_cons, ih hcs, subscriptions_onTopic hc]

/-- Provisioning leaves each topic with what the configuration subscribes to it. -/
theorem Registry.subscriptions_of_script {r : Registry} {config : Properties} {p : Memory} {arn : String}
    (hpermits : ∀ c ∈ r.script config, p.Permits c)
    (htopics : p.topics.topics.get? arn = (r.script config).foldl (Call.onTopic arn) none) :
    (p.topics.state arn).subscriptions = r.subscriptionsTo config arn := by
  have hpresent : ∀ x ∈ r.subscriptionsTo config arn, (p.topics.topics.get? arn).isSome :=
    fun x hx => isSome_topic_of_subscription hpermits hx
  have hcreated := Call.subscriptions_foldl_onTopic
    (List.filterMap_eq_nil_iff.mp (r.filterMap_topicScripts config arn)) none
  rw [foldl_onTopic_script] at htopics
  generalize (config.topics.flatMap (Provision.topicScript r)).foldl (Call.onTopic arn) none = t at htopics hcreated
  unfold TopicStore.state
  rw [htopics]
  cases t with
  | some t => exact congrArg (· ++ r.subscriptionsTo config arn) hcreated
  | none =>
    -- a subscription would need the topic
    cases hxs : r.subscriptionsTo config arn with
    | nil => rfl
    | cons x xs =>
      have hsome := hpresent x (hxs ▸ List.mem_cons_self)
      rw [htopics] at hsome
      cases hsome

/-- The queues that a configuration subscribes to the topic with an id, in order. -/
def Properties.subscriptionsTo (config : Properties) (topicId : String) : List Subscription :=
  config.queues.filterMap fun e =>
    if e.2.subscribeTopicId = some topicId then some ⟨arnOf e.2.queueName, e.2.subscribeFilter⟩ else none

namespace Registry
variable {r : Registry} {config : Properties} {w : World}

theorem Holds.subscriptionsTo_eq (hr : r.Holds config) (hsound : config.Sound) (hkeyed : config.Keyed)
    (htidy : config.Tidy) {e : String × TopicProperties} (he : e ∈ config.topics) :
    r.subscriptionsTo config e.2.arn = config.subscriptionsTo e.1 := by
  refine List.filterMap_congr fun e' he' => ?_
  obtain ⟨q, _, hq, hname, _⟩ := hr.queueById?_of_mem hkeyed he'
  unfold subscriptionOf?
  rw [hq, Option.bind_some, hname, addressed_of_notMem (htidy.queueNames e' he')]
  cases hsubscribe : e'.2.subscribeTopicId with
  | none => rfl
  | some topicId =>
    obtain ⟨properties, hmem⟩ := hsound.exists_topic he' hsubscribe
    obtain ⟨t, ht, harn⟩ := hr.topicById?_of_mem hkeyed hmem
    rw [Option.bind_some, ht, Option.bind_some, harn]
    -- the id and the resource name each tell the topic
    have hiff : properties.arn = e.2.arn ↔ some topicId = some e.1 := by
      constructor
      · intro heq
        rw [← List.inj_on_of_nodup_map hsound.topicArns hmem he heq]
      · intro heq
        rw [← List.inj_on_of_nodup_map hkeyed.topics hmem he (Option.some.inj heq)]
    simp only [hiff]

/-- What is subscribed to a topic are the queues that are configured with it. -/
theorem Holds.mem_subscriptionsTo_iff (hr : r.Holds config) (hsound : config.Sound) (hkeyed : config.Keyed)
    {arn : String} {x : Subscription} :
    x ∈ r.subscriptionsTo config arn ↔ ∃ q ∈ config.queues, ∃ t ∈ config.topics,
      q.2.subscribeTopicId = some t.1 ∧ t.2.arn = arn ∧ x = ⟨arnOf (addressed q.2.queueName), q.2.subscribeFilter⟩ := by
  unfold subscriptionsTo
  rw [List.mem_filterMap]
  refine exists_congr fun q => and_congr_right fun hq => ?_
  obtain ⟨handle, _, hfind, hname, _⟩ := hr.queueById?_of_mem hkeyed hq
  unfold subscriptionOf?
  rw [hfind, Option.bind_some, hname]
  constructor
  · intro hx
    obtain ⟨topic, htopic, hx⟩ := Option.bind_eq_some_iff.mp hx
    obtain ⟨topicId, hsubscribe, htopic⟩ := Option.bind_eq_some_iff.mp htopic
    obtain ⟨t, ht⟩ := hsound.exists_topic hq hsubscribe
    obtain ⟨topic', htopic', harn⟩ := hr.topicById?_of_mem hkeyed ht
    obtain rfl : topic' = topic := Option.some.inj (htopic'.symm.trans htopic)
    split at hx
    · next heq => exact ⟨(topicId, t), ht, hsubscribe, harn.symm.trans heq, (Option.some.inj hx).symm⟩
    · cases hx
  · rintro ⟨t, ht, hsubscribe, harn, rfl⟩
    obtain ⟨topic, htopic, htopicArn⟩ := hr.topicById?_of_mem hkeyed ht
    rw [hsubscribe, Option.bind_some, htopic, Option.bind_some, if_pos (htopicArn.trans harn)]

/-! ## What is there afterwards -/

/-- What provisioning establishes: the configured queues, each with its dead letter queue and attributes, the configured
subscriptions of each topic, and handles that work. -/
structure Established (r : Registry) (config : Properties) (w : World) : Prop where
  queues : ∀ n, (w.provider.queues.queues.get? n).isSome ↔
    ∃ e ∈ config.queues, e.2.queueName = n ∨ e.2.dlqName = some n
  redrive : ∀ e ∈ config.queues, (w.provider.queues.state e.2.queueName).redrive =
    e.2.dlqName.map fun d => ⟨arnOf d, e.2.dlqMaxReceiveCount⟩
  dlqRedrive : ∀ e ∈ config.queues, ∀ d, e.2.dlqName = some d → (w.provider.queues.state d).redrive = none
  maxReceiveCount : ∀ e ∈ config.queues, ∃ q ∈ r.queues, r.queueById? e.1 = some q ∧
    (q.maxReceiveCount.result.run w).1 = .ok (e.2.dlqName.map fun _ => e.2.dlqMaxReceiveCount)
  fifo : ∀ e ∈ config.queues, (w.provider.queues.state e.2.queueName).attributes.get? "FifoQueue" =
    if e.2.isFifo then some "true" else none
  dlqFifo : ∀ e ∈ config.queues, ∀ d, e.2.dlqName = some d →
    (w.provider.queues.state d).attributes.get? "FifoQueue" = if e.2.isFifo then some "true" else none
  subscriptions : ∀ e ∈ config.topics,
    (w.provider.topics.state e.2.arn).subscriptions = config.subscriptionsTo e.1
  health : ∀ q ∈ r.queues, (q.health.run w).1.status = .up

/-- The world that the calls of provisioning left, for a tidy configuration and a fresh provider. -/
structure Provisioned (r : Registry) (config : Properties) (w : World) : Prop where
  holds : r.Holds config
  sound : config.Sound
  keyed : config.Keyed
  tidy : config.Tidy
  queues : ∀ n, w.provider.queues.queues.get? n = (r.script config).foldl (Call.onQueue n) none
  topics : ∀ arn, w.provider.topics.topics.get? arn = (r.script config).foldl (Call.onTopic arn) none
  permits : ∀ c ∈ r.script config, w.provider.Permits c
  smooth : w.provider.Smooth
  known : ∀ slot, w.known slot = {}

namespace Provisioned
variable (h : r.Provisioned config w)
include h

theorem get?_of_creation {e : String × Dict String} (he : e ∈ config.creations) :
    w.provider.queues.queues.get? e.1 = some (QueueStore.tagged.established {} e.2) := by
  have hnodup := h.tidy.nodup_creations h.sound
  rw [← h.holds.filterMap_creation_script h.keyed] at he hnodup
  rw [h.queues]
  exact Call.foldl_onQueue_of_mem hnodup he

theorem get?_of_no_creation {n : String} (hn : n ∉ config.creations.map (·.1)) :
    w.provider.queues.queues.get? n = none := by
  rw [← h.holds.filterMap_creation_script h.keyed] at hn
  rw [h.queues]
  exact Call.foldl_onQueue_of_notMem hn none

theorem readable_of_creation {e : String × Dict String} (he : e ∈ config.creations) : Readable e.2 := by
  rw [← h.holds.filterMap_creation_script h.keyed] at he
  obtain ⟨c, hc, hcreation⟩ := List.mem_filterMap.mp he
  have hpermitted := h.permits c hc
  cases c with
  | createQueue name a =>
    cases hcreation
    exact hpermitted
  | _ => cases hcreation

theorem queue_of_mem {e : String × QueueProperties} (he : e ∈ config.queues) :
    ∃ s, w.provider.queues.queues.get? e.2.queueName = some s ∧
      s.redrive = (e.2.dlqName.map fun d => ⟨arnOf d, e.2.dlqMaxReceiveCount⟩) ∧
      s.attributes.get? "FifoQueue" = if e.2.isFifo then some "true" else none := by
  have hmem : (e.2.queueName, Dict.ofList (Provision.attributes e.2.dlqName e.2)) ∈ config.creations :=
    List.mem_flatMap.mpr ⟨e, he, List.mem_append_right _ (List.mem_singleton_self _)⟩
  refine ⟨_, h.get?_of_creation hmem, ?_, Provision.get?_fifo_attributes⟩
  refine (Provision.redriveIn_attributes (h.readable_of_creation hmem)).trans ?_
  cases hd : e.2.dlqName with
  | none => rw [Option.map_none, Option.map_none]
  | some d => rw [Option.map_some, Option.map_some, addressed_of_notMem (h.tidy.dlqNames e he d hd)]

theorem dlq_of_mem {e : String × QueueProperties} (he : e ∈ config.queues) {d : String} (hd : e.2.dlqName = some d) :
    ∃ s, w.provider.queues.queues.get? d = some s ∧ s.redrive = none ∧
      s.attributes.get? "FifoQueue" = if e.2.isFifo then some "true" else none := by
  have hmem : (d, Dict.ofList (Provision.fifoAttributes e.2.isFifo)) ∈ config.creations := by
    refine List.mem_flatMap.mpr ⟨e, he, List.mem_append_left _ ?_⟩
    rw [hd]
    exact List.mem_singleton_self _
  exact ⟨_, h.get?_of_creation hmem, Provision.redriveIn_fifoAttributes _, Provision.get?_fifoAttributes _⟩

theorem isSome_get?_iff (n : String) : (w.provider.queues.queues.get? n).isSome ↔
    ∃ e ∈ config.queues, e.2.queueName = n ∨ e.2.dlqName = some n := by
  constructor
  · intro hsome
    by_contra hnone
    have hnot : n ∉ config.creations.map (·.1) := by
      intro hn
      obtain ⟨c, hc, rfl⟩ := List.mem_map.mp hn
      obtain ⟨e, he, hc⟩ := List.mem_flatMap.mp hc
      rcases List.mem_append.mp hc with hc | hc
      · obtain ⟨d, hd, rfl⟩ := Option.map_eq_some_iff.mp (Option.mem_toList.mp hc)
        exact hnone ⟨e, he, Or.inr hd⟩
      · rw [List.mem_singleton.mp hc] at hnone
        exact hnone ⟨e, he, Or.inl rfl⟩
    rw [h.get?_of_no_creation hnot] at hsome
    cases hsome
  · rintro ⟨e, he, rfl | hd⟩
    · obtain ⟨s, hs, _⟩ := h.queue_of_mem he
      rw [hs]
      rfl
    · obtain ⟨s, hs, _⟩ := h.dlq_of_mem he hd
      rw [hs]
      rfl

theorem run_maxReceiveCount {e : String × QueueProperties} (he : e ∈ config.queues) :
    ∃ q ∈ r.queues, r.queueById? e.1 = some q ∧
      (q.maxReceiveCount.result.run w).1 = .ok (e.2.dlqName.map fun _ => e.2.dlqMaxReceiveCount) := by
  obtain ⟨q, hq, hfind, hname, hdlq⟩ := h.holds.queueById?_of_mem h.keyed he
  obtain ⟨s, hs, hredrive, _⟩ := h.queue_of_mem he
  rw [← hname] at hs
  have haddressed : addressed q.name = q.name := addressed_of_notMem (hname ▸ h.tidy.queueNames e he)
  have hanswered : q.Answered w := {
    operations := h.smooth.operations
    failing := h.smooth.failing
    present := by rw [hs]; rfl
    url := fun u hu => by rw [h.known] at hu; cases hu }
  obtain ⟨w', hrun, _⟩ := hanswered.run_maxReceiveCount (haddressed.symm ▸ hs)
  refine ⟨q, hq, hfind, ?_⟩
  rw [hrun]
  unfold QueueHandle.limitIn
  rw [h.known, haddressed, state_of_get? hs, hredrive, ← hdlq]
  unfold QueueHandle.dlqName?
  cases q.dlq <;> rfl

theorem subscriptions_of_mem {e : String × TopicProperties} (he : e ∈ config.topics) :
    (w.provider.topics.state e.2.arn).subscriptions = config.subscriptionsTo e.1 := by
  rw [← h.holds.subscriptionsTo_eq h.sound h.keyed h.tidy he]
  exact subscriptions_of_script h.permits (h.topics e.2.arn)

theorem health_up {q : QueueHandle} (hq : q ∈ r.queues) : (q.health.run w).1.status = .up := by
  obtain ⟨e, he, _, hname, hdlq⟩ := h.holds.exists_entry hq
  obtain ⟨s, hs, hredrive, _⟩ := h.queue_of_mem he
  have hmain : q.attributesIn? w = some (attributesOf q.name s) := by
    unfold QueueHandle.attributesIn?
    rw [h.known, hname]
    exact World.read_of_get? h.smooth (h.tidy.queueNames e he) hs
  refine (q.health_up_iff w).mpr ⟨?_, ?_, ?_⟩
  · rw [hmain]
    rfl
  · intro hsome a ha
    rw [hmain] at ha
    cases ha
    show s.redrive.isSome
    rw [hredrive, Option.isSome_map, ← hdlq, QueueHandle.dlqName?, Option.isSome_map]
    exact hsome
  · intro d hd
    have hname : e.2.dlqName = some d.name := by
      rw [← hdlq, QueueHandle.dlqName?, hd]
      rfl
    obtain ⟨s, hs, _⟩ := h.dlq_of_mem he hname
    unfold QueueHandle.dlqAttributesIn?
    rw [h.known, World.read_of_get? h.smooth (h.tidy.dlqNames e he d.name hname) hs]
    rfl

theorem established : r.Established config w where
  queues := h.isSome_get?_iff
  redrive e he := by
    obtain ⟨s, hs, hredrive, _⟩ := h.queue_of_mem he
    rw [state_of_get? hs, hredrive]
  dlqRedrive e he d hd := by
    obtain ⟨s, hs, hredrive, _⟩ := h.dlq_of_mem he hd
    rw [state_of_get? hs, hredrive]
  maxReceiveCount e he := h.run_maxReceiveCount he
  fifo e he := by
    obtain ⟨s, hs, _, hfifo⟩ := h.queue_of_mem he
    rw [state_of_get? hs, hfifo]
  dlqFifo e he d hd := by
    obtain ⟨s, hs, _, hfifo⟩ := h.dlq_of_mem he hd
    rw [state_of_get? hs, hfifo]
  subscriptions e he := h.subscriptions_of_mem he
  health q hq := h.health_up hq

end Provisioned

/-- A registry that is built from a valid configuration, with names that address themselves and dead letter queues apart
from queues, establishes what the configuration says if it is provisioned on a fresh provider. -/
theorem provision_establishes (hvalid : validate config = .ok ()) (hkeyed : config.Keyed) (htidy : config.Tidy)
    (f : Factory) :
    ∃ r f', build config f = .ok (r, f') ∧ r.Holds config ∧ ∀ w w₁ : World, w.Fresh →
      (r.provision config).result.run w = (.ok (), w₁) → r.Established config w₁ := by
  obtain ⟨r, f', hbuild, hholds⟩ := build_holds hvalid f
  refine ⟨r, f', hbuild, hholds, fun w w₁ hw hrun => ?_⟩
  obtain ⟨hbrings, hpermits, hknown⟩ := provision_brings hw.smooth hrun
  have hprovisioned : r.Provisioned config w₁ := {
    holds := hholds
    sound := Properties.sound_of_validate hvalid
    keyed := hkeyed
    tidy := htidy
    queues := fun n => by rw [hbrings.queues, hw.queues]; rfl
    topics := fun arn => by rw [hbrings.topics, hw.topics]; rfl
    permits := hpermits
    smooth := hbrings.smooth hw.smooth
    known := fun slot => by rw [hknown, hw.known] }
  exact hprovisioned.established

/-- A queue with a dead letter queue and a filtered subscription, and an ordered one with an ordered dead letter
queue. -/
theorem provision_establishes_two :
    let arn := "arn:aws:sns:eu-west-2:000000000000:t"
    let config : Properties := {
      queues := [
        ("a", {
          queueName := "a"
          dlqName := some "a-dlq"
          dlqMaxReceiveCount := 3
          subscribeTopicId := some "t"
          subscribeFilter := some "\x7b\"eventType\":[\"created\"]\x7d" }),
        ("b", { queueName := "b.fifo", dlqName := some "b-dlq.fifo" })]
      topics := [("t", { arn := arn })] }
    validate config = .ok () ∧ config.Keyed ∧ config.Tidy ∧ ∃ r f', build config {} = .ok (r, f') ∧
      ∃ w₁, (r.provision config).result.run {} = (.ok (), w₁) ∧ r.Established config w₁ := by
  intro arn config
  have hvalid : validate config = .ok () := by decide +kernel
  have hkeyed : config.Keyed := ⟨by decide, by decide⟩
  have htidy : config.Tidy := by
    refine ⟨by decide, fun e he d hd => ?_, by decide⟩
    rcases List.mem_cons.mp he with rfl | he
    · cases hd
      decide
    · rw [List.mem_singleton.mp he] at hd
      cases hd
      decide
  obtain ⟨r, f', hbuild, _, hestablishes⟩ := provision_establishes hvalid hkeyed htidy {}
  have hok : (build config {}).toOption.map (fun built => ((built.1.provision config).result.run {}).1) =
      some (.ok ()) := by decide +kernel
  rw [hbuild] at hok
  have hok : ((r.provision config).result.run {}).1 = .ok () := Option.some.inj hok
  have hfresh : World.Fresh {} := ⟨⟨rfl, rfl, rfl⟩, rfl, rfl, fun _ => rfl⟩
  have hrun : (r.provision config).result.run {} = (.ok (), ((r.provision config).result.run {}).2) := by
    rw [← hok]
  exact ⟨hvalid, hkeyed, htidy, r, f', hbuild, _, hrun, hestablishes {} _ hfresh hrun⟩

end Registry

end DeadLetter
