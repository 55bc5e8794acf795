import DeadLetter.Proofs.Provisioning.Established

/-!
# When provisioning succeeds

A topic is created by the last part of its resource name, and comes to be under the name that the provider gives it; it
is subscribed to and looked up under the one that is configured. `NativeArn` : the two agree.

`provision_succeeds_iff` : on a fresh provider, provisioning a valid configuration succeeds just if they agree for each
topic that a queue is to be subscribed to, and then the topics that are up are those for which they agree. Nothing else
can fail: what each call needs is there from the start or was created before it (`Provision.queueCalls_succeed`).
-/

namespace DeadLetter

set_option autoImplicit false

open QueueStore

/-! ## Resource names of topics -/

/-- The resource names that the provider gives to topics. -/
def NativeArn (arn : String) : Prop :=
  ∃ name : String, ':' ∉ name.toList ∧ arn = "arn:aws:sns:eu-west-2:000000000000:" ++ name

theorem nameOfArn_arnOf {name : String} (h : ':' ∉ name.toList) : nameOfArn (TopicStore.arnOf name) = name := by
  have hsplit : TopicStore.arnOf name = "arn:aws:sns:eu-west-2:000000000000" ++ .singleton ':' ++ name := rfl
  rw [nameOfArn, hsplit, Text.afterLast_append, Text.afterLast_eq_self ':' name h]

/-- Creating a topic by the last part of a resource name gives it that resource name just if it is a native one. -/
theorem arnOf_nameOfArn_iff {arn : String} : TopicStore.arnOf (nameOfArn arn) = arn ↔ NativeArn arn := by
  constructor
  · intro h
    exact ⟨nameOfArn arn, Text.notMem_afterLast ':' arn, h.symm⟩
  · rintro ⟨name, hname, rfl⟩
    exact congrArg TopicStore.arnOf (nameOfArn_arnOf hname)

/-! ## Topics in a row of calls -/

namespace Call
variable {arn : String}

theorem isSome_onTopic_iff {t : Option TopicState} {c : Call} :
    (onTopic arn t c).isSome ↔ t.isSome ∨ ∃ name a, c = .createTopic name a ∧ TopicStore.arnOf name = arn := by
  cases c with
  | createTopic name a =>
    by_cases hn : TopicStore.arnOf name = arn
    · simp [onTopic, hn]
    · simp [onTopic, hn]
  | subscribe topic queueArn filter =>
    by_cases ht : topic = arn
    · simp [onTopic, ht]
    · simp [onTopic, ht]
  | _ => simp [onTopic]

/-- The topics that a row of calls leaves are those that were there and those that it creates. -/
theorem isSome_foldl_onTopic_iff {t : Option TopicState} {cs : List Call} :
    (cs.foldl (onTopic arn) t).isSome ↔
      t.isSome ∨ ∃ name a, .createTopic name a ∈ cs ∧ TopicStore.arnOf name = arn := by
  induction cs generalizing t with
  | nil => simp
  | cons c cs ih =>
    rw [List.foldl_cons, ih, isSome_onTopic_iff]
    constructor
    · rintro ((ht | ⟨name, a, rfl, harn⟩) | ⟨name, a, hmem, harn⟩)
      · exact Or.inl ht
      · exact Or.inr ⟨name, a, List.mem_cons_self, harn⟩
      · exact Or.inr ⟨name, a, List.mem_cons_of_mem _ hmem, harn⟩
    · rintro (ht | ⟨name, a, hmem, harn⟩)
      · exact Or.inl (Or.inl ht)
      · rcases List.mem_cons.mp hmem with rfl | hmem
        · exact Or.inl (Or.inr ⟨name, a, rfl, harn⟩)
        · exact Or.inr ⟨name, a, hmem, harn⟩

end Call

/-! ## Queues -/

/-- A queue can be read once it is created, if its name addresses it. -/
theorem Memory.Brings.permits_read {p p' : Memory} {name : String} {a : Dict String}
    (h : p.Brings [.createQueue name a] p') (hname : '/' ∉ name.toList) : p'.Permits (.queueAttributes (urlOf name)) := by
  show (p'.queues.queues.get? (addressed name)).isSome
  rw [addressed_of_notMem hname, h.queues]
  show (if name = name then some _ else _).isSome
  rw [if_pos rfl]
  rfl

/-- Names of queues address themselves, and a redrive policy can hold the count of deliveries. -/
structure QueueProperties.Provisionable (q : QueueProperties) : Prop where
  queueName : '/' ∉ q.queueName.toList
  dlqName : ∀ d, q.dlqName = some d → '/' ∉ d.toList
  maxReceiveCount : q.dlqMaxReceiveCount ≤ 0xFFFFFFFF

namespace Provision
variable {r : Registry} {q : QueueHandle} {e : QueueProperties} {p : Memory}

theorem readable_fifoAttributes (fifo : Bool) : Readable (Dict.ofList (fifoAttributes fifo)) := by
  intro text htext
  cases fifo <;> cases htext

theorem readable_attributes (h : e.dlqMaxReceiveCount ≤ 0xFFFFFFFF) (dlq? : Option String) :
    Readable (Dict.ofList (attributes dlq? e)) := by
  intro text htext
  rw [get?_redrive_attributes] at htext
  obtain ⟨d, _, rfl⟩ := Option.map_eq_some_iff.mp htext
  rw [RedrivePolicy.read?_text, if_pos h]
  rfl

theorem dlqCalls_succeed (hp : p.Smooth) {dlq? : Option String} (hname : ∀ d, dlq? = some d → '/' ∉ d.toList) :
    p.Succeeds (dlqCalls dlq? e) := by
  unfold dlqCalls
  cases dlq? with
  | none => exact .nil p
  | some d =>
    refine .cons hp (readable_fifoAttributes _) fun p₁ h₁ => ?_
    exact .cons (h₁.smooth hp) (h₁.permits_read (hname d rfl)) fun p₂ _ => .nil p₂

/-- The calls for a queue succeed if the topic that they subscribe it to is there. -/
theorem queueCalls_succeed (hp : p.Smooth) (he : e.Provisionable) (hname : q.name = e.queueName)
    (hdlq : q.dlqName? = e.dlqName)
    (htopic : ∀ t, e.subscribeTopicId.bind r.topicById? = some t → (p.topics.topics.get? t.arn).isSome) :
    p.Succeeds (queueCalls r q e) := by
  refine (dlqCalls_succeed hp (hdlq ▸ he.dlqName)).append fun p₁ h₁ => ?_
  have hp₁ := h₁.smooth hp
  refine .cons hp₁ (readable_attributes he.maxReceiveCount _) fun p₂ h₂ => ?_
  have hp₂ := h₂.smooth hp₁
  unfold subscribeCalls
  cases ht : e.subscribeTopicId.bind r.topicById? with
  | none => exact .nil p₂
  | some t =>
    have hsubscribe : p.Permits (.subscribe t.arn (QueueStore.arnOf (addressed q.name)) e.subscribeFilter) := htopic t ht
    refine .cons hp₂ (h₂.permits_read (hname ▸ he.queueName)) fun p₃ h₃ => ?_
    exact .cons (h₃.smooth hp₂) (h₃.permits (h₂.permits (h₁.permits hsubscribe))) fun p₄ _ => .nil p₄

end Provision

/-! ## Whole configurations -/

/-- All topics that a queue is to be subscribed to have native resource names. -/
def Properties.SubscribesNatively (config : Properties) : Prop :=
  ∀ q ∈ config.queues, ∀ t ∈ config.topics, q.2.subscribeTopicId = some t.1 → NativeArn t.2.arn

namespace Registry
variable {r : Registry} {config : Properties} {p p' : Memory}

/-- Creating the topics leaves each configured topic under the native resource name with its last part. -/
theorem Holds.isSome_topicScripts_iff (hr : r.Holds config) (arn : String) :
    ((config.topics.flatMap (Provision.topicScript r)).foldl (Call.onTopic arn) none).isSome ↔
      ∃ e ∈ config.topics, TopicStore.arnOf e.2.name = arn := by
  rw [Call.isSome_foldl_onTopic_iff]
  constructor
  · rintro (hnone | ⟨name, a, hmem, harn⟩)
    · cases hnone
    · obtain ⟨e, he, hmem⟩ := List.mem_flatMap.mp hmem
      unfold Provision.topicScript at hmem
      split at hmem
      · cases hmem
      · cases List.mem_singleton.mp hmem
        exact ⟨e, he, harn⟩
  · rintro ⟨e, he, harn⟩
    obtain ⟨t, ht⟩ := Option.isSome_iff_exists.mp (hr.isSome_topicById? he)
    have hcall : ∃ a, .createTopic e.2.name a ∈ Provision.topicScript r e := by
      unfold Provision.topicScript
      rw [ht]
      exact ⟨_, List.mem_singleton_self _⟩
    obtain ⟨a, hcall⟩ := hcall
    exact Or.inr ⟨e.2.name, a, List.mem_flatMap.mpr ⟨e, he, hcall⟩, harn⟩

/-- Of the configured topics, those under native resource names are there once the topics are created. -/
theorem Holds.isSome_topic_iff_native (hr : r.Holds config) {e : String × TopicProperties} (he : e ∈ config.topics) :
    ((config.topics.flatMap (Provision.topicScript r)).foldl (Call.onTopic e.2.arn) none).isSome ↔
      NativeArn e.2.arn := by
  rw [hr.isSome_topicScripts_iff, ← arnOf_nameOfArn_iff]
  constructor
  · rintro ⟨e', _, harn⟩
    rw [← harn]
    exact congrArg TopicStore.arnOf (nameOfArn_arnOf (Text.notMem_afterLast ':' e'.2.arn))
  · intro harn
    exact ⟨e, he, harn⟩

/-- What is left of the topics after all calls. -/
theorem Holds.isSome_script_iff_native (hr : r.Holds config) (hp : p.topics.topics = [])
    (h : p.Brings (r.script config) p') {e : String × TopicProperties} (he : e ∈ config.topics) :
    (p'.topics.topics.get? e.2.arn).isSome ↔ NativeArn e.2.arn := by
  rw [h.topics, hp, foldl_onTopic_script, Option.isSome_map]
  exact hr.isSome_topic_iff_native he

theorem Holds.script_succeeds (hr : r.Holds config) (hsound : config.Sound) (hkeyed : config.Keyed)
    (hprovisionable : ∀ e ∈ config.queues, e.2.Provisionable) (hnative : config.SubscribesNatively) (hp : p.Smooth)
    (hnone : p.topics.topics = []) : p.Succeeds (r.script config) := by
  have hcreations : ∀ c ∈ config.topics.flatMap (Provision.topicScript r), p.Permits c := by
    intro c hc
    obtain ⟨e, _, hc⟩ := List.mem_flatMap.mp hc
    unfold Provision.topicScript at hc
    split at hc
    · cases hc
    · cases List.mem_singleton.mp hc
      trivial
  unfold script
  refine (Memory.performAll_of_permits hp hcreations).append fun p₁ h₁ => .flatMap fun e he cs p₂ h₂ => ?_
  obtain ⟨q, _, hq, hname, hdlq⟩ := hr.queueById?_of_mem hkeyed he
  unfold Provision.queueScript
  rw [hq]
  refine Provision.queueCalls_succeed (h₂.smooth (h₁.smooth hp)) (hprovisionable e he) hname hdlq fun t ht => ?_
  obtain ⟨topicId, hsubscribe, hfind⟩ := Option.bind_eq_some_iff.mp ht
  obtain ⟨topic, hmem⟩ := hsound.exists_topic he hsubscribe
  obtain ⟨t', hfind', harn⟩ := hr.topicById?_of_mem hkeyed hmem
  obtain rfl : t' = t := Option.some.inj (hfind'.symm.trans hfind)
  -- the topic was created with the others, and later calls keep it
  have hcreated : p₁.Permits (.subscribe topic.arn "" none) := by
    show (p₁.topics.topics.get? topic.arn).isSome
    rw [h₁.topics, hnone]
    exact (hr.isSome_topic_iff_native hmem).mpr (hnative e he _ hmem hsubscribe)
  rw [harn]
  exact h₂.permits hcreated

end Registry

/-- A topic is up while it is there and nothing is made to fail. -/
theorem TopicHandle.health_up_iff_of_smooth (t : TopicHandle) {w : World} (hw : w.provider.Smooth) :
    (t.health.run w).1.status = .up ↔ (w.provider.topics.topics.get? t.arn).isSome := by
  rw [t.health_up_iff, TopicStore.topicAttributes_eq]
  dsimp only
  rw [if_neg (hw.notMem _)]
  cases w.provider.topics.topics.get? t.arn with
  | some topic => exact ⟨fun _ => rfl, fun _ => rfl⟩
  | none => exact ⟨nofun, nofun⟩

namespace Registry
variable {r : Registry} {config : Properties}

/-- A registry that is built from a valid configuration can be provisioned on a fresh provider if and only if all topics
that a queue is to be subscribed to have native resource names. The topics that are up afterwards are those with native
resource names. So provisioning succeeds and leaves every configured topic up if and only if all of them have one. -/
theorem provision_succeeds_iff (hvalid : validate config = .ok ()) (hkeyed : config.Keyed)
    (hprovisionable : ∀ e ∈ config.queues, e.2.Provisionable) (f : Factory) :
    ∃ r f', build config f = .ok (r, f') ∧ r.Holds config ∧ ∀ w : World, w.Fresh →
      let run := (r.provision config).result.run w
      (run.1 = .ok () ↔ config.SubscribesNatively) ∧
      (run.1 = .ok () → ∀ t ∈ r.topics, ((t.health.run run.2).1.status = .up ↔ NativeArn t.arn)) ∧
      ((run.1 = .ok () ∧ ∀ t ∈ r.topics, (t.health.run run.2).1.status = .up) ↔
        ∀ e ∈ config.topics, NativeArn e.2.arn) := by
  obtain ⟨r, f', hbuild, hr⟩ := build_holds hvalid f
  have hsound := Properties.sound_of_validate hvalid
  refine ⟨r, f', hbuild, hr, fun w hw => ?_⟩
  intro run
  have hruns : config.SubscribesNatively → run.1 = .ok () := by
    intro hnative
    obtain ⟨p, hrun, _⟩ := hr.script_succeeds hsound hkeyed hprovisionable hnative hw.smooth hw.topics
    show ((r.provision config).result.run w).1 = _
    rw [r.provision_calls config w, hrun]
    rfl
  have hbrings (hok : run.1 = .ok ()) : w.provider.Brings (r.script config) run.2.provider ∧
      ∀ c ∈ r.script config, run.2.provider.Permits c := by
    obtain ⟨hbrings, hpermits, _⟩ := provision_brings hw.smooth (Prod.ext hok rfl)
    exact ⟨hbrings, hpermits⟩
  have hup (hok : run.1 = .ok ()) : ∀ t ∈ r.topics, ((t.health.run run.2).1.status = .up ↔ NativeArn t.arn) := by
    intro t ht
    obtain ⟨e, he, harn⟩ := hr.exists_topicEntry ht
    have hafter := (hbrings hok).1
    rw [t.health_up_iff_of_smooth (hafter.smooth hw.smooth), harn]
    exact hr.isSome_script_iff_native hw.topics hafter he
  have hsubscribes : run.1 = .ok () → config.SubscribesNatively := by
    intro hok q hq t ht hsubscribe
    obtain ⟨hafter, hpermits⟩ := hbrings hok
    rw [← hr.isSome_script_iff_native hw.topics hafter ht]
    exact isSome_topic_of_subscription hpermits
      ((hr.mem_subscriptionsTo_iff hsound hkeyed).mpr ⟨q, hq, t, ht, hsubscribe, rfl, rfl⟩)
  refine ⟨⟨hsubscribes, hruns⟩, hup, ?_, ?_⟩
  · rintro ⟨hok, hall⟩ e he
    obtain ⟨t, ht, _, harn⟩ := hr.exists_topic he
    rw [← harn]
    exact (hup hok t ht).mp (hall t ht)
  · intro hnative
    have hok := hruns fun _ _ t ht _ => hnative t ht
    refine ⟨hok, fun t ht => ?_⟩
    obtain ⟨e, he, harn⟩ := hr.exists_topicEntry ht
    exact (hup hok t ht).mpr (harn ▸ hnative e he)

/-- A queue that is configured with a topic of another account: the configuration is accepted, the topic is created under
the provider's own account, and the subscription to the configured one fails. -/
theorem provision_succeeds_iff_foreign :
    let config : Properties := {
      provider := .localstack
      queues := [("a", { queueName := "a", subscribeTopicId := some "t" })]
      topics := [("t", { arn := "arn:aws:sns:eu-west-2:123456789012:t" })] }
    validate config = .ok () ∧ config.Keyed ∧ (∀ e ∈ config.queues, e.2.Provisionable) ∧ World.Fresh {} ∧
      ∃ r f', build config {} = .ok (r, f') ∧ ((r.provision config).result.run {}).1 ≠ .ok () := by
  intro config
  have hvalid : validate config = .ok () := by decide +kernel
  have hkeyed : config.Keyed := ⟨by decide, by decide⟩
  have hprovisionable : ∀ e ∈ config.queues, e.2.Provisionable := by
    intro e he
    rw [List.mem_singleton.mp he]
    exact ⟨by decide, nofun, by decide⟩
  have hfresh : World.Fresh {} := ⟨⟨rfl, rfl, rfl⟩, rfl, rfl, fun _ => rfl⟩
  have hforeign : ¬ NativeArn "arn:aws:sns:eu-west-2:123456789012:t" := by
    rw [← arnOf_nameOfArn_iff]
    decide +kernel
  obtain ⟨r, f', hbuild, _, hruns⟩ := provision_succeeds_iff hvalid hkeyed hprovisionable {}
  refine ⟨hvalid, hkeyed, hprovisionable, hfresh, r, f', hbuild, fun hok => hforeign ?_⟩
  have hnative := (hruns {} hfresh).1.mp hok
  exact hnative _ (List.mem_singleton_self _) _ (List.mem_singleton_self _) rfl

end Registry

end DeadLetter
