import DeadLetter.Proofs.Provisioning.Series
import DeadLetter.Proofs.Store.Stamps
import DeadLetter.Service.Provision

/-!
# The calls of provisioning

What provisioning asks of the provider depends on the registry and the configuration alone: creation returns the URL of
what is created, and reading attributes the resource name, whatever the provider holds. So `Registry.script` lists the
calls beforehand, and `Registry.provision_calls` : provisioning performs them in order, up to the first that fails.
-/

namespace DeadLetter

set_option autoImplicit false

open QueueStore

namespace Provision

def dlqCalls (dlq? : Option String) (p : QueueProperties) : List Call :=
  match dlq? with
  | none => []
  | some d => [.createQueue d (Dict.ofList (fifoAttributes p.isFifo)), .queueAttributes (urlOf d)]

/-- The attributes that a queue gets from its dead letter queue. -/
def redriveAttributes (dlq? : Option String) (p : QueueProperties) : List (String × String) :=
  match dlq? with
  | none => []
  | some d => [("RedrivePolicy", RedrivePolicy.text ⟨QueueStore.arnOf (addressed d), p.dlqMaxReceiveCount⟩)]

/-- The attributes of a queue. -/
def attributes (dlq? : Option String) (p : QueueProperties) : List (String × String) :=
  ("VisibilityTimeout", Text.intText p.visibilityTimeout) :: redriveAttributes dlq? p ++ fifoAttributes p.isFifo ++
    throughputAttributes p

def subscribeCalls (r : Registry) (name : String) (p : QueueProperties) : List Call :=
  match p.subscribeTopicId.bind r.topicById? with
  | none => []
  | some t => [.queueAttributes (urlOf name), .subscribe t.arn (QueueStore.arnOf (addressed name)) p.subscribeFilter]

def queueCalls (r : Registry) (q : QueueHandle) (p : QueueProperties) : List Call :=
  dlqCalls q.dlqName? p ++ .createQueue q.name (Dict.ofList (attributes q.dlqName? p)) :: subscribeCalls r q.name p

def topicScript (r : Registry) (e : String × TopicProperties) : List Call :=
  match r.topicById? e.1 with
  | none => []
  | some t => [.createTopic e.2.name (Dict.ofList (if t.isFifo then [("FifoTopic", "true")] else []))]

def queueScript (r : Registry) (e : String × QueueProperties) : List Call :=
  match r.queueById? e.1 with
  | none => []
  | some q => queueCalls r q e.2

end Provision

def Registry.script (r : Registry) (config : Properties) : List Call :=
  config.topics.flatMap (Provision.topicScript r) ++ config.queues.flatMap (Provision.queueScript r)

/-! ## Provisioning performs them -/

theorem Memory.url_of_createQueue {p : Memory} {name : String} {a : Dict String} {url : String}
    (h : (p.perform (.createQueue name a)).1 = .ok url) : url = urlOf name := by
  have hreply : (p.queues.createQueue name a).1 = .ok url := h
  rcases createQueue_cases p.queues name a with ⟨e, t, hrun, _⟩ | ⟨q, t, hrun, _⟩
  · rw [hrun] at hreply
    cases hreply
  · rw [hrun] at hreply
    cases hreply
    rfl

/-- Reading the attributes of a queue returns its resource name among them. -/
theorem Memory.arn_of_queueAttributes {p : Memory} {url : String} {a : QueueAttributes}
    (h : (p.perform (.queueAttributes url)).1 = .ok a) : a.arn = some (QueueStore.arnOf (queueNameOfUrl url)) := by
  have hreply : (p.queues.queueAttributes url).1 = .ok a := h
  rw [queueAttributes_eq] at hreply
  dsimp only at hreply
  split at hreply
  · cases hreply
  · split at hreply
    · cases hreply
      rfl
    · cases hreply

namespace Provision
variable {r : Registry} {p : QueueProperties}

open Attempt

theorem arnOf_calls (name : String) :
    Calls (arnOf (urlOf name)) [.queueAttributes (urlOf name)] (QueueStore.arnOf (addressed name)) := by
  refine .call_bind fun m a ha => ?_
  rw [Memory.arn_of_queueAttributes ha]
  exact .pure _

theorem dlq_calls (q : QueueHandle) (p : QueueProperties) :
    Calls (dlq q p) (dlqCalls q.dlqName? p) (redriveAttributes q.dlqName? p) := by
  unfold dlq dlqCalls redriveAttributes QueueHandle.dlqName?
  cases q.dlq with
  | none => exact .pure _
  | some d =>
    refine .call_bind fun m url hurl => ?_
    rw [Memory.url_of_createQueue hurl]
    exact (arnOf_calls d.name).bind (.pure _)

theorem queue_calls (r : Registry) (q : QueueHandle) (p : QueueProperties) :
    Calls (queue r q p) (queueCalls r q p) () := by
  unfold queue queueCalls
  refine (dlq_calls q p).bind (.call_bind fun m url hurl => ?_)
  rw [Memory.url_of_createQueue hurl]
  unfold subscribeCalls
  cases p.subscribeTopicId.bind r.topicById? with
  | none => exact .pure _
  | some t => exact (arnOf_calls q.name).bind (.call_bind fun _ _ _ => .pure _)

theorem topics_calls (r : Registry) (entries : List (String × TopicProperties)) :
    Calls (topics r entries) (entries.flatMap (topicScript r)) () := by
  induction entries with
  | nil => exact .pure ()
  | cons e entries ih =>
    rw [List.flatMap_cons]
    unfold topics topicScript
    cases r.topicById? e.1 with
    | none => exact ih
    | some t => exact .call_bind fun _ _ _ => ih

theorem queues_calls (r : Registry) (entries : List (String × QueueProperties)) :
    Calls (queues r entries) (entries.flatMap (queueScript r)) () := by
  induction entries with
  | nil => exact .pure ()
  | cons e entries ih =>
    rw [List.flatMap_cons]
    unfold queues queueScript
    cases r.queueById? e.1 with
    | none => exact ih
    | some q => exact (queue_calls r q e.2).bind ih

/-! ## What they are -/

theorem provisions_dlqCalls {dlq? : Option String} : ∀ c ∈ dlqCalls dlq? p, c.provisions = true := by
  unfold dlqCalls
  cases dlq? with
  | none => exact nofun
  | some d => simp [Call.provisions]

theorem provisions_subscribeCalls {name : String} : ∀ c ∈ subscribeCalls r name p, c.provisions = true := by
  unfold subscribeCalls
  cases p.subscribeTopicId.bind r.topicById? with
  | none => exact nofun
  | some t => simp [Call.provisions]

theorem provisions_topicScript (e : String × TopicProperties) : ∀ c ∈ topicScript r e, c.provisions = true := by
  unfold topicScript
  cases r.topicById? e.1 with
  | none => exact nofun
  | some t => simp [Call.provisions]

theorem provisions_queueScript (e : String × QueueProperties) : ∀ c ∈ queueScript r e, c.provisions = true := by
  unfold queueScript
  cases r.queueById? e.1 with
  | none => exact nofun
  | some q =>
    intro c hc
    rcases List.mem_append.mp hc with hc | hc
    · exact provisions_dlqCalls c hc
    rcases List.mem_cons.mp hc with rfl | hc
    · rfl
    · exact provisions_subscribeCalls c hc

/-- The calls for queues create no topic. -/
theorem onTopic_queueScript {e : String × QueueProperties} {c : Call}
    (hc : c ∈ queueScript r e) {arn : String} (hnone : c.subscription? arn = none) (t : Option TopicState) :
    Call.onTopic arn t c = t := by
  cases c with
  | createTopic name a =>
    unfold queueScript queueCalls dlqCalls subscribeCalls at hc
    cases hq : r.queueById? e.1 with
    | none => simp [hq] at hc
    | some q =>
      cases hd : q.dlqName? <;> cases ht : e.2.subscribeTopicId.bind r.topicById? <;> simp [hq, hd, ht] at hc
  | subscribe topic queueArn filter => rw [Call.onTopic, if_neg (Call.topic_ne_of_subscription? hnone)]
  | _ => rfl

end Provision

namespace Registry

theorem provision_calls (r : Registry) (config : Properties) :
    (r.provision config).Calls (r.script config) () :=
  (Provision.topics_calls r config.topics).bind (Provision.queues_calls r config.queues)

theorem provisions_script (r : Registry) (config : Properties) : ∀ c ∈ r.script config, c.provisions = true := by
  intro c hc
  rcases List.mem_append.mp hc with hc | hc
  · obtain ⟨e, _, hc⟩ := List.mem_flatMap.mp hc
    exact Provision.provisions_topicScript e c hc
  · obtain ⟨e, _, hc⟩ := List.mem_flatMap.mp hc
    exact Provision.provisions_queueScript e c hc

/-- What a run of provisioning that succeeds leaves behind. -/
theorem provision_brings {r : Registry} {config : Properties} {w w' : World} (hw : w.provider.Smooth)
    (h : (r.provision config).result.run w = (.ok (), w')) :
    w.provider.Brings (r.script config) w'.provider ∧ (∀ c ∈ r.script config, w'.provider.Permits c) ∧
      w'.known = w.known := by
  rw [r.provision_calls config w] at h
  cases hrun : w.provider.performAll (r.script config) with
  | mk o p =>
    rw [hrun] at h
    cases o with
    | error e => cases h
    | ok u =>
      cases h
      obtain ⟨hbrings, hpermits⟩ := Memory.performAll_brings hw (r.provisions_script config) hrun
      exact ⟨hbrings, hpermits, rfl⟩

/-! ## Subscriptions -/

/-- What the entry of a queue subscribes to a topic. -/
def subscriptionOf? (r : Registry) (arn : String) (e : String × QueueProperties) : Option Subscription :=
  (r.queueById? e.1).bind fun q => (e.2.subscribeTopicId.bind r.topicById?).bind fun t =>
    if t.arn = arn then some ⟨QueueStore.arnOf (addressed q.name), e.2.subscribeFilter⟩ else none

/-- What a configuration subscribes to a topic, in order. -/
def subscriptionsTo (r : Registry) (config : Properties) (arn : String) : List Subscription :=
  config.queues.filterMap (r.subscriptionOf? arn)

theorem filterMap_topicScript (r : Registry) (arn : String) (e : String × TopicProperties) :
    (Provision.topicScript r e).filterMap (Call.subscription? arn) = [] := by
  unfold Provision.topicScript
  cases r.topicById? e.1 with
  | none => rfl
  | some t => rfl

theorem filterMap_queueScript (r : Registry) (arn : String) (e : String × QueueProperties) :
    (Provision.queueScript r e).filterMap (Call.subscription? arn) = (r.subscriptionOf? arn e).toList := by
  unfold Provision.queueScript subscriptionOf?
  cases r.queueById? e.1 with
  | none => rfl
  | some q =>
    have hdlq : (Provision.dlqCalls q.dlqName? e.2).filterMap (Call.subscription? arn) = [] := by
      unfold Provision.dlqCalls
      cases q.dlqName? <;> rfl
    show (Provision.queueCalls r q e.2).filterMap _ = _
    unfold Provision.queueCalls Provision.subscribeCalls
    rw [List.filterMap_append, hdlq, List.nil_append, List.filterMap_cons_none rfl, Option.bind_some]
    cases e.2.subscribeTopicId.bind r.topicById? with
    | none => rfl
    | some t =>
      dsimp only
      rw [List.filterMap_cons_none rfl, Option.bind_some]
      by_cases harn : t.arn = arn
      · simp [Call.subscription?, harn]
      · simp [Call.subscription?, harn]

/-- The calls for topics subscribe nothing. -/
theorem filterMap_topicScripts (r : Registry) (config : Properties) (arn : String) :
    (config.topics.flatMap (Provision.topicScript r)).filterMap (Call.subscription? arn) = [] := by
  rw [List.filterMap_flatMap]
  exact List.flatMap_eq_nil_iff.mpr fun e _ => r.filterMap_topicScript arn e

theorem filterMap_queueScripts (r : Registry) (config : Properties) (arn : String) :
    (config.queues.flatMap (Provision.queueScript r)).filterMap (Call.subscription? arn) =
      r.subscriptionsTo config arn := by
  rw [List.filterMap_flatMap, subscriptionsTo, List.filterMap_eq_flatMap_toList]
  simp only [filterMap_queueScript]

theorem filterMap_script (r : Registry) (config : Properties) (arn : String) :
    (r.script config).filterMap (Call.subscription? arn) = r.subscriptionsTo config arn := by
  rw [script, List.filterMap_append, filterMap_topicScripts, List.nil_append, filterMap_queueScripts]

/-- The topics are created first. After that calls only subscribe. -/
theorem foldl_onTopic_script (r : Registry) (config : Properties) (arn : String) (t : Option TopicState) :
    (r.script config).foldl (Call.onTopic arn) t =
      ((config.topics.flatMap (Provision.topicScript r)).foldl (Call.onTopic arn) t).map
        (TopicStore.subscribed · (r.subscriptionsTo config arn)) := by
  rw [script, List.foldl_append, ← filterMap_queueScripts]
  refine Call.foldl_onTopic_of_still fun c hc hnone => ?_
  obtain ⟨e, _, hc⟩ := List.mem_flatMap.mp hc
  exact Provision.onTopic_queueScript hc hnone _

/-- The topics that provisioning subscribes queues to are there afterwards. -/
theorem isSome_topic_of_subscription {r : Registry} {config : Properties} {p : Memory}
    (h : ∀ c ∈ r.script config, p.Permits c) {arn : String} {x : Subscription}
    (hx : x ∈ r.subscriptionsTo config arn) : (p.topics.topics.get? arn).isSome := by
  rw [← filterMap_script] at hx
  obtain ⟨c, hc, hcall⟩ := List.mem_filterMap.mp hx
  have hpermits := h c hc
  rw [Call.eq_subscribe_of_subscription? hcall] at hpermits
  exact hpermits

end Registry

end DeadLetter
