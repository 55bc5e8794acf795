import DeadLetter.Proofs.Provisioning.Script
import DeadLetter.Proofs.Publishing
import DeadLetter.Proofs.Registry.Handles

/-!
# Provisioning that is repeated

`provision_again` : where provisioning succeeds without failures made on purpose, it succeeds again. The second run
leaves queues as they are, and topics but for their subscriptions, each of which is there once more. An event that is
published afterwards arrives once more for each of them that wants it (`TopicHandle.publish_arrives`).
-/

namespace DeadLetter

set_option autoImplicit false

open QueueStore

/-! ## Arrivals -/

/-- How many of some subscriptions lead a message with these attributes to a queue. -/
def arrivals (xs : List Subscription) (attributes : Attributes) (n : String) : Nat :=
  ((xs.filter fun s => decide (s.Wants attributes)).map (nameOfArn ·.queueArn)).count n

theorem arrivals_append (xs ys : List Subscription) (attributes : Attributes) (n : String) :
    arrivals (xs ++ ys) attributes n = arrivals xs attributes n + arrivals ys attributes n := by
  unfold arrivals
  rw [List.filter_append, List.map_append, List.count_append]

theorem length_addressedTo (n : String) (sent : List (String × Stored)) :
    (addressedTo n sent).length = (sent.map (·.1)).count n := by
  unfold addressedTo
  rw [List.length_map, ← List.countP_eq_length_filter, List.count, List.countP_map]
  refine List.countP_congr fun e _ => ?_
  simp

/-- While nothing is made to fail, a message that is published on a topic that is there arrives. -/
theorem Memory.publish_arrives {p : Memory} (hp : p.Smooth) (hdelivers : p.delivers = true) {arn : String}
    {topic : TopicState} (htopic : p.topics.topics.get? arn = some topic) (m : Outbound) :
    ∃ id p', p.publish arn m = (.ok id, p') ∧ ∀ n, (p'.queues.state n).visible.length =
      (p.queues.state n).visible.length + arrivals topic.subscriptions m.attributes n := by
  obtain ⟨id, p', hpublish, hstate⟩ := Memory.publish_of_not_failing (hp.notMem _) htopic hdelivers m
  refine ⟨id, p', hpublish, fun n => ?_⟩
  rw [hstate, extended, List.length_append, length_addressedTo, copiesOf_map_name]
  rfl

theorem Memory.publish_of_none {p : Memory} {arn : String} (h : p.topics.topics.get? arn = none) (m : Outbound) :
    ∃ e, (p.publish arn m).1 = .error e := by
  have hfails : ∃ e t, p.topics.publish arn m = (.error e, t) := by
    have hcounted : (p.topics.counted .publish).topics = p.topics.topics := rfl
    unfold TopicStore.publish TopicStore.attempt
    split
    · exact ⟨_, _, rfl⟩
    · dsimp only
      rw [TopicStore.locate_of_none (hcounted ▸ h)]
      exact ⟨_, _, rfl⟩
  obtain ⟨e, t, hpublish⟩ := hfails
  unfold publish
  rw [hpublish]
  exact ⟨e, rfl⟩

namespace TopicHandle
variable {t : TopicHandle} {eventType body : String} {attributes : Attributes} {group : Option String}

/-- An event that can be published has the group that its topic asks for, and its topic is there. -/
theorem of_publish_ok {w : World} {id : String}
    (h : ((t.publish eventType body attributes group).result.run w).1 = .ok id) :
    (t.isFifo = true → group.isSome) ∧ (w.provider.topics.topics.get? t.arn).isSome := by
  have hgroup : t.isFifo = true → group.isSome := by
    intro hfifo
    cases group with
    | none =>
      rw [publish_of_isFifo hfifo] at h
      cases h
    | some g => rfl
  refine ⟨hgroup, ?_⟩
  obtain ⟨m, generated, _, _, _, hrun⟩ := publish_of_group hgroup eventType body attributes w
  cases htopic : w.provider.topics.topics.get? t.arn with
  | some topic => rfl
  | none =>
    obtain ⟨e, hpublish⟩ := Memory.publish_of_none htopic m
    rw [hrun, hpublish] at h
    cases h

/-- While nothing is made to fail, an event that is published on a topic that is there arrives. -/
theorem publish_arrives (hgroup : t.isFifo = true → group.isSome) {w : World} (hw : w.provider.Smooth)
    (hdelivers : w.provider.delivers = true) {topic : TopicState}
    (htopic : w.provider.topics.topics.get? t.arn = some topic) :
    (∃ id, ((t.publish eventType body attributes group).result.run w).1 = .ok id) ∧
    ∀ n, (((t.publish eventType body attributes group).result.run w).2.provider.queues.state n).visible.length =
      (w.provider.queues.state n).visible.length +
        arrivals topic.subscriptions (attributes.put eventTypeAttribute (.ofText eventType)) n := by
  obtain ⟨m, generated, _, htagged, _, hrun⟩ := publish_of_group hgroup eventType body attributes w
  obtain ⟨id, p, hpublish, harrive⟩ := Memory.publish_arrives hw hdelivers htopic m
  rw [hrun, hpublish, ← htagged]
  exact ⟨⟨id, rfl⟩, harrive⟩

/-- Of two worlds with the same queues, an event that can be published in the one can be published in the other, and
arrives there once more for each further subscription to its topic that wants it. -/
theorem publish_further {w w' : World} (hw : w.provider.Smooth) (hw' : w'.provider.Smooth)
    (hdelivers : w.provider.delivers = true) (hdelivers' : w'.provider.delivers = true)
    (hqueues : ∀ n, w'.provider.queues.queues.get? n = w.provider.queues.queues.get? n) {xs : List Subscription}
    (htopic : w'.provider.topics.topics.get? t.arn =
      (w.provider.topics.topics.get? t.arn).map (TopicStore.subscribed · xs)) {id : String}
    (hok : ((t.publish eventType body attributes group).result.run w).1 = .ok id) :
    (∃ id', ((t.publish eventType body attributes group).result.run w').1 = .ok id') ∧
    ∀ n, (((t.publish eventType body attributes group).result.run w').2.provider.queues.state n).visible.length =
      (((t.publish eventType body attributes group).result.run w).2.provider.queues.state n).visible.length +
        arrivals xs (attributes.put eventTypeAttribute (.ofText eventType)) n := by
  obtain ⟨hgroup, hsome⟩ := of_publish_ok hok
  obtain ⟨topic, hold⟩ := Option.isSome_iff_exists.mp hsome
  rw [hold, Option.map_some] at htopic
  obtain ⟨_, harrive⟩ := publish_arrives hgroup hw hdelivers hold
  obtain ⟨hok', harrive'⟩ := publish_arrives hgroup hw' hdelivers' htopic
  refine ⟨hok', fun n => ?_⟩
  have hstate : w'.provider.queues.state n = w.provider.queues.state n :=
    congrArg (fun q : Option QueueState => q.getD {}) (hqueues n)
  rw [harrive', harrive, hstate, Nat.add_assoc]
  exact congrArg (_ + ·) (arrivals_append topic.subscriptions xs _ n)

end TopicHandle

/-! ## The second run -/

/-- Calls made again leave queues as they are, and topics but for their subscriptions. -/
theorem Memory.Brings.again {p p' p'' : Memory} {cs : List Call} (h : p.Brings cs p') (h' : p'.Brings cs p'') :
    (∀ n, p''.queues.queues.get? n = p'.queues.queues.get? n) ∧
    ∀ arn, p''.topics.topics.get? arn = (p'.topics.topics.get? arn).map
      (TopicStore.subscribed · (cs.filterMap (Call.subscription? arn))) := by
  constructor
  · intro n
    rw [h'.queues, h.queues, Call.foldl_onQueue_again]
  · intro arn
    rw [h'.topics, h.topics, Call.foldl_onTopic_again]

namespace Registry
variable {config : Properties} {r : Registry}

/-- Each configured subscription is to a topic of the registry. -/
theorem Holds.exists_subscription (hr : r.Holds config) (hsound : config.Sound) {e : String × QueueProperties}
    (he : e ∈ config.queues) {topicId : String} (h : e.2.subscribeTopicId = some topicId) :
    ∃ arn x, x ∈ r.subscriptionsTo config arn := by
  obtain ⟨q, hq⟩ := Option.isSome_iff_exists.mp (hr.isSome_queueById? he)
  obtain ⟨t, ht⟩ := Option.isSome_iff_exists.mp (hr.isSome_topic hsound he h)
  refine ⟨t.arn, ⟨QueueStore.arnOf (addressed q.name), e.2.subscribeFilter⟩, List.mem_filterMap.mpr ⟨e, he, ?_⟩⟩
  unfold subscriptionOf?
  rw [hq, h, Option.bind_some, Option.bind_some, ht, Option.bind_some, if_pos rfl]

/-- Subscribing everything once more changes no topic if and only if there is nothing to subscribe. -/
theorem topics_again_iff (hr : r.Holds config) (hsound : config.Sound) {p p' : Memory}
    (hpermits : ∀ c ∈ r.script config, p.Permits c)
    (htopics : ∀ arn, p'.topics.topics.get? arn =
      (p.topics.topics.get? arn).map (TopicStore.subscribed · (r.subscriptionsTo config arn))) :
    (∀ arn, p'.topics.topics.get? arn = p.topics.topics.get? arn) ↔
      ∀ e ∈ config.queues, e.2.subscribeTopicId = none := by
  constructor
  · intro hsame e he
    cases hsubscribe : e.2.subscribeTopicId with
    | none => rfl
    | some topicId =>
      obtain ⟨arn, x, hx⟩ := hr.exists_subscription hsound he hsubscribe
      obtain ⟨topic, htopic⟩ := Option.isSome_iff_exists.mp (isSome_topic_of_subscription hpermits hx)
      have hfixed := (htopics arn).symm.trans (hsame arn)
      rw [htopic] at hfixed
      have hlength := congrArg (List.length ·.subscriptions) (Option.some.inj hfixed)
      have hpos := List.length_pos_of_mem hx
      simp only [TopicStore.subscribed, List.length_append] at hlength
      omega
  · intro hnone arn
    have hnil : r.subscriptionsTo config arn = [] := by
      refine List.filterMap_eq_nil_iff.mpr fun e he => ?_
      unfold subscriptionOf?
      rw [hnone e he]
      cases r.queueById? e.1 <;> rfl
    rw [htopics arn, hnil]
    cases p.topics.topics.get? arn with
    | none => rfl
    | some topic => exact congrArg some (TopicStore.subscribed_nil topic)

/-- A registry that is built from a valid configuration can be provisioned again after it was provisioned. This leaves
every queue as it is. It subscribes every queue to its topic once more: topics stay as they are if and only if no queue
is configured with one. An event that can be published after the first run can be published after the second, and then
arrives once more for each configured subscription that wants it. -/
theorem provision_again (hvalid : validate config = .ok ()) (f : Factory) :
    ∃ r f', build config f = .ok (r, f') ∧ r.Holds config ∧ ∀ w w₁ : World, w.provider.Smooth →
      (r.provision config).result.run w = (.ok (), w₁) → ∃ w₂, (r.provision config).result.run w₁ = (.ok (), w₂) ∧
        (∀ n, w₂.provider.queues.queues.get? n = w₁.provider.queues.queues.get? n) ∧
        (∀ arn, w₂.provider.topics.topics.get? arn =
          (w₁.provider.topics.topics.get? arn).map (TopicStore.subscribed · (r.subscriptionsTo config arn))) ∧
        ((∀ arn, w₂.provider.topics.topics.get? arn = w₁.provider.topics.topics.get? arn) ↔
          ∀ e ∈ config.queues, e.2.subscribeTopicId = none) ∧
        ∀ (t : TopicHandle) (eventType body : String) (attributes : Attributes) (group : Option String) (id : String),
          w.provider.delivers = true → ((t.publish eventType body attributes group).result.run w₁).1 = .ok id →
          (∃ id', ((t.publish eventType body attributes group).result.run w₂).1 = .ok id') ∧
          ∀ n, (((t.publish eventType body attributes group).result.run w₂).2.provider.queues.state n).visible.length =
            (((t.publish eventType body attributes group).result.run w₁).2.provider.queues.state n).visible.length +
              arrivals (r.subscriptionsTo config t.arn) (attributes.put eventTypeAttribute (.ofText eventType)) n := by
  obtain ⟨r, f', hbuild, hholds⟩ := build_holds hvalid f
  refine ⟨r, f', hbuild, hholds, fun w w₁ hw hrun => ?_⟩
  obtain ⟨hbrings, hpermits, _⟩ := provision_brings hw hrun
  have hw₁ := hbrings.smooth hw
  obtain ⟨p, hperform, hbrings'⟩ := Memory.performAll_of_permits hw₁ hpermits
  obtain ⟨hqueues, htopics⟩ := hbrings.again hbrings'
  simp only [filterMap_script] at htopics
  refine ⟨{ w₁ with provider := p }, ?_, hqueues, htopics, ?_, ?_⟩
  · rw [r.provision_calls config w₁, hperform]
    rfl
  · exact topics_again_iff hholds (Properties.sound_of_validate hvalid) hpermits htopics
  · intro t eventType body attributes group id hdelivers hok
    have hdelivers₁ : w₁.provider.delivers = true := hbrings.delivers.trans hdelivers
    exact TopicHandle.publish_further hw₁ (hbrings'.smooth hw₁) hdelivers₁ (hbrings'.delivers.trans hdelivers₁) hqueues
      (htopics t.arn) hok

/-- A queue that is configured with a topic has two subscriptions after the second run, and gets each event twice. -/
theorem provision_again_subscribed :
    let arn := "arn:aws:sns:eu-west-2:000000000000:t"
    let config : Properties := {
      queues := [("a", { queueName := "a", subscribeTopicId := some "t" })]
      topics := [("t", { arn := arn })] }
    let r : Registry := {
      queues := [{ id := "a", name := "a", client := 0 }]
      topics := [⟨"t", arn, 0⟩] }
    let publication := TopicHandle.publish ⟨"t", arn, 0⟩ "created" "x" [] none
    validate config = .ok () ∧ (build config {}).toOption.map (·.1) = some r ∧ ∃ w₁ w₂,
      (r.provision config).result.run {} = (.ok (), w₁) ∧ (r.provision config).result.run w₁ = (.ok (), w₂) ∧
      (w₁.provider.topics.topics.get? arn).map (·.subscriptions.length) = some 1 ∧
      (w₂.provider.topics.topics.get? arn).map (·.subscriptions.length) = some 2 ∧
      ((publication.result.run w₁).2.provider.queues.state "a").visible.length = 1 ∧
      ((publication.result.run w₂).2.provider.queues.state "a").visible.length = 2 := by
  intro arn config r publication
  have hvalid : validate config = .ok () := by decide +kernel
  have hbuilt : (build config {}).toOption.map (·.1) = some r := by decide +kernel
  obtain ⟨r', f', hbuild, _, hagain⟩ := provision_again hvalid {}
  obtain rfl : r' = r := by
    rw [hbuild] at hbuilt
    exact Option.some.inj hbuilt
  -- the first run is evaluated; what the second does follows from it
  have hok : ((r.provision config).result.run {}).1 = .ok () := by decide +kernel
  obtain ⟨w₁, hrun, hsubscriptions, hpublished, harrived⟩ : ∃ w₁, (r.provision config).result.run {} = (.ok (), w₁) ∧
      (w₁.provider.topics.topics.get? arn).map (·.subscriptions.length) = some 1 ∧
      (publication.result.run w₁).1 = .ok "sns-1" ∧
      ((publication.result.run w₁).2.provider.queues.state "a").visible.length = 1 := by
    refine ⟨((r.provision config).result.run {}).2, ?_, by decide +kernel⟩
    rw [← hok]
  have hadded : (r.subscriptionsTo config arn).length = 1 ∧
      arrivals (r.subscriptionsTo config arn) [(eventTypeAttribute, .ofText "created")] "a" = 1 := by decide +kernel
  obtain ⟨w₂, hrun₂, _, htopics, _, hfurther⟩ := hagain {} w₁ ⟨rfl, rfl, rfl⟩ hrun
  obtain ⟨_, harrives⟩ := hfurther ⟨"t", arn, 0⟩ "created" "x" [] none "sns-1" rfl hpublished
  refine ⟨hvalid, hbuilt, w₁, w₂, hrun, hrun₂, hsubscriptions, ?_, harrived, ?_⟩
  · obtain ⟨topic, htopic, hlength⟩ := Option.map_eq_some_iff.mp hsubscriptions
    rw [htopics, htopic]
    show some (topic.subscriptions ++ r.subscriptionsTo config arn).length = _
    rw [List.length_append, hlength, hadded.1]
  · exact (harrives "a").trans (congrArg₂ (· + ·) harrived hadded.2)

end Registry

end DeadLetter
