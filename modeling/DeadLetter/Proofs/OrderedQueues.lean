import DeadLetter.Proofs.Json.Reading
import DeadLetter.Proofs.Provisioning.Established
import DeadLetter.Proofs.Publishing
import DeadLetter.Proofs.Service.Grouping

/-!
# What ordered queues hold

`Registry.Uses` lists what is done with a registry in use: its topics are published on, queues are called, messages
become visible again, and its queues are retried. `Registry.InUse` : every message on an ordered queue has a group, and
topics have the configured subscriptions. Provisioning establishes it (`inUse_of_provision`), and every use keeps it
while ordered queues are kept apart from standard topics (`InUse.uses`). An ordered queue that is not gets the first
event that its filter lets through without a group (`InUse.exists_ungrouped`).

`ordered_grouped_iff` : so every message on an ordered queue has a group, whatever is done, just if the configuration
keeps ordered queues apart from standard topics (`Properties.Separates`). That is a rule which validation does not have.
-/

namespace DeadLetter

set_option autoImplicit false

open QueueStore

/-! ## Filters that let something through -/

/-- A filter that lets some event through: none at all, or a JSON object with a text under each of its keys. -/
def LetsThrough (filter? : Option String) : Prop :=
  ∀ filter, filter? = some filter → ∃ policy, Json.read? filter = some (.object policy) ∧
    ∀ e ∈ policy, ∃ items value, e.2 = .array items ∧ .string value ∈ items

/-- The first text of an array. -/
def Json.firstText : Json → String
  | .array items => (items.findSome? (·.string?)).getD ""
  | _ => ""

theorem Json.firstText_mem {items : List Json} {value : String} (h : .string value ∈ items) :
    .string (Json.array items).firstText ∈ items := by
  have hsome : (items.findSome? (·.string?)).isSome := by
    rw [List.findSome?_isSome_iff]
    exact ⟨_, h, rfl⟩
  obtain ⟨text, htext⟩ := Option.isSome_iff_exists.mp hsome
  obtain ⟨item, hitem, hstring⟩ := List.exists_of_findSome?_eq_some htext
  rw [firstText, htext, Option.getD_some]
  cases item <;> cases hstring
  exact hitem

/-- An event type that a policy lists, if it lists any. -/
def listedEventType (policy : Dict Json) : String :=
  ((Dict.get? policy eventTypeAttribute).map Json.firstText).getD ""

/-- Attributes with a text that a policy lists for each. -/
def listedAttributes (policy : Dict Json) : Attributes := policy.map fun e => (e.1, .ofText e.2.firstText)

/-- Tagged with the listed event type, the listed attributes have a text that is listed under every key. -/
theorem text_listed {policy : Dict Json} (h : policy.Ordered) {e : String × Json} (he : e ∈ policy) :
    (((listedAttributes policy).put eventTypeAttribute (.ofText (listedEventType policy))).get? e.1).bind
      (·.stringValue) = some e.2.firstText := by
  have hget := Dict.get?_of_mem h he
  by_cases hkey : e.1 = eventTypeAttribute
  · rw [hkey] at hget
    rw [hkey, Dict.get?_put_self, listedEventType, hget]
    rfl
  · have hlisted : Dict.get? (listedAttributes policy) e.1 = some (.ofText e.2.firstText) := by
      show Dict.get? (policy.map fun e => (e.1, AttributeValue.ofText e.2.firstText)) e.1 = _
      rw [Dict.get?_map policy (fun v : Json => AttributeValue.ofText v.firstText), hget]
      rfl
    rw [Dict.get?_put_of_ne _ _ hkey, hlisted]
    rfl

/-- Some event goes to a subscription just if its filter lets one through. -/
theorem Subscription.exists_wants_iff (s : Subscription) :
    (∃ (eventType : String) (attributes : Attributes),
      attributes.Ordered ∧ s.Wants (attributes.put eventTypeAttribute (.ofText eventType))) ↔ LetsThrough s.filter := by
  constructor
  · rintro ⟨eventType, attributes, _, hwants⟩ filter hfilter
    obtain ⟨policy, hread, hentries⟩ := hwants filter hfilter
    refine ⟨policy, hread, fun e he => ?_⟩
    obtain ⟨value, items, _, hitems, hvalue⟩ := hentries e he
    exact ⟨items, value, hitems, hvalue⟩
  · intro h
    unfold Wants
    cases hfilter : s.filter with
    | none => exact ⟨"", [], Dict.ordered_nil, nofun⟩
    | some filter =>
      obtain ⟨policy, hread, hentries⟩ := h filter hfilter
      have hordered := Json.ordered_of_read? hread
      refine ⟨listedEventType policy, listedAttributes policy, Dict.ordered_map hordered _, ?_⟩
      rintro _ ⟨⟩
      refine ⟨policy, hread, fun e he => ?_⟩
      obtain ⟨items, value, hitems, hvalue⟩ := hentries e he
      exact ⟨e.2.firstText, items, text_listed hordered he, hitems, hitems ▸ Json.firstText_mem hvalue⟩

/-- No ordered queue is subscribed to a standard topic, unless under a filter that lets no event through. -/
def Properties.Separates (config : Properties) : Prop :=
  ∀ q ∈ config.queues, ∀ t ∈ config.topics, q.2.subscribeTopicId = some t.1 → q.2.isFifo = true → t.2.isFifo = false →
    ¬ LetsThrough q.2.subscribeFilter

namespace Registry
variable {r : Registry} {config : Properties} {w w' : World}

/-- One use of a registry. -/
inductive Uses (r : Registry) : World → World → Prop
  | publish {w : World} {t : TopicHandle} (ht : t ∈ r.topics) (eventType body : String) {attributes : Attributes}
      (hattributes : attributes.Ordered) (group : Option String) :
      Uses r w ((t.publish eventType body attributes group).result.run w).2
  | call {w : World} {c : Call} (hc : c.asksQueues = true) : Uses r w (w.perform (.call c)).2
  | expire {w : World} (queue : String) :
      Uses r w { w with provider := (Memory.Control.expire queue).apply w.provider }
  | retry {w : World} {q : QueueHandle} (hq : q ∈ r.queues) (p : NumberPolicy) :
      Uses r w ((q.retry p).result.run w).2

/-- A world in which every message on an ordered queue has a group, and topics have the configured subscriptions. -/
structure InUse (r : Registry) (config : Properties) (w : World) : Prop where
  orderly : w.Orderly (r.lore False)
  subscriptions : ∀ arn, (w.provider.topics.state arn).subscriptions = r.subscriptionsTo config arn

/-! ## What every use keeps -/

/-- The dead letter queue of a queue is ordered if the queue is. -/
theorem Holds.isFifo_dlq (hr : r.Holds config) (hsound : config.Sound) {q : QueueHandle} (hq : q ∈ r.queues)
    {d : DlqHandle} (hd : q.dlq = some d) : isFifo d.name = q.isFifo := by
  obtain ⟨e, he, _, hname, hdlq⟩ := hr.exists_entry hq
  unfold QueueHandle.dlqName? at hdlq
  rw [hd] at hdlq
  rw [QueueHandle.isFifo, hname]
  exact hsound.isFifo e he d.name hdlq.symm

section Separates
variable (hr : r.Holds config) (hsound : config.Sound) (hkeyed : config.Keyed) (hseparates : config.Separates)
include hr hsound hkeyed hseparates

/-- Where ordered queues are kept apart from standard topics, an event that goes to an ordered queue has a group. -/
theorem InUse.publish (h : r.InUse config w) {t : TopicHandle} {eventType body : String} {attributes : Attributes}
    (hattributes : attributes.Ordered) (group : Option String) :
    r.InUse config ((t.publish eventType body attributes group).result.run w).2 := by
  by_cases hgroup : t.isFifo = true → group.isSome
  · obtain ⟨m, generated, _, htagged, hgroupOf, hrun⟩ := TopicHandle.publish_of_group hgroup eventType body attributes w
    rw [hrun]
    refine ⟨⟨Memory.publish_grouped h.orderly.grouped fun x hx haccepts hfifo => ?_, h.orderly.known⟩, fun arn => ?_⟩
    · rw [h.subscriptions, hr.mem_subscriptionsTo_iff hsound hkeyed] at hx
      obtain ⟨q, hq, topic, htopic, hsubscribe, harn, rfl⟩ := hx
      rw [isFifo_nameOfArn_arnOf, isFifo_addressed] at hfifo
      rw [Subscription.accepts_iff, htagged] at haccepts
      rw [hgroupOf]
      refine hgroup ?_
      -- the queue of a standard topic would not be subscribed, or not under a filter that lets the event through
      by_contra hstandard
      have htopicStandard : topic.2.isFifo = false := by
        rw [TopicProperties.isFifo, harn]
        exact Bool.eq_false_iff.mpr hstandard
      have hfilter := (Subscription.exists_wants_iff _).mp ⟨eventType, attributes, hattributes, haccepts⟩
      exact hseparates q hq topic htopic hsubscribe hfifo htopicStandard hfilter
    · rw [Memory.subscriptions_publish]
      exact h.subscriptions arn
  · obtain ⟨hfifo, hnone⟩ := Classical.not_imp.mp hgroup
    rw [Option.not_isSome_iff_eq_none.mp hnone, TopicHandle.publish_of_isFifo hfifo]
    exact h

theorem InUse.uses (h : r.InUse config w) (huse : r.Uses w w') : r.InUse config w' := by
  cases huse with
  | publish ht eventType body hattributes group => exact h.publish hr hsound hkeyed hseparates hattributes group
  | @call c hc =>
    refine ⟨⟨Memory.perform_grouped h.orderly.grouped hc, h.orderly.known⟩, fun arn => ?_⟩
    show ((w.provider.perform c).2.topics.state arn).subscriptions = _
    rw [Memory.topics_perform hc]
    exact h.subscriptions arn
  | expire queue => exact ⟨⟨h.orderly.grouped.expire queue, h.orderly.known⟩, h.subscriptions⟩
  | @retry q hq p =>
    obtain ⟨horderly, htopics, _⟩ := q.retry_keeps_groups hr.placed hq (fun _ => hr.isFifo_dlq hsound hq) h.orderly p
    refine ⟨horderly, fun arn => ?_⟩
    rw [htopics]
    exact h.subscriptions arn

theorem InUse.uses_all (h : r.InUse config w) (huses : Relation.ReflTransGen r.Uses w w') : r.InUse config w' := by
  induction huses with
  | refl => exact h
  | tail _ huse ih => exact ih.uses hr hsound hkeyed hseparates huse

end Separates

/-! ## What gets past the groups -/

/-- A subscription from an ordered queue to a standard topic delivers some event without a group. -/
theorem ungrouped_of_letsThrough (hw : w.provider.Smooth) (hdelivers : w.provider.delivers = true) {t : TopicHandle}
    (hstandard : t.isFifo = false) {x : Subscription} (hx : x ∈ (w.provider.topics.state t.arn).subscriptions)
    (hfifo : isFifo (nameOfArn x.queueArn) = true) (hfilter : LetsThrough x.filter) :
    ∃ (eventType : String) (attributes : Attributes), attributes.Ordered ∧
      ¬ ((t.publish eventType "" attributes none).result.run w).2.provider.queues.Grouped := by
  obtain ⟨eventType, attributes, hordered, hwants⟩ := x.exists_wants_iff.mpr hfilter
  refine ⟨eventType, attributes, hordered, fun hgrouped => ?_⟩
  have hgroup : t.isFifo = true → (none : Option String).isSome := by
    rw [hstandard]
    nofun
  obtain ⟨m, generated, _, htagged, hnone, hrun⟩ := TopicHandle.publish_of_group hgroup eventType "" attributes w
  obtain ⟨topic, htopic⟩ : ∃ topic, w.provider.topics.topics.get? t.arn = some topic := by
    refine Option.ne_none_iff_exists'.mp fun hmissing => ?_
    rw [TopicStore.state, hmissing] at hx
    cases hx
  rw [TopicStore.state, htopic, Option.getD_some] at hx
  obtain ⟨id, p, hpublish, hstate⟩ := Memory.publish_of_not_failing (hw.notMem _) htopic hdelivers m
  have hname : nameOfArn x.queueArn ∈
      (topic.subscriptions.filter fun s => decide (s.Wants m.attributes)).map (nameOfArn ·.queueArn) := by
    refine List.mem_map_of_mem (List.mem_filter.mpr ⟨hx, decide_eq_true ?_⟩)
    rw [htagged]
    exact hwants
  obtain ⟨copy, hcopy⟩ := exists_mem_addressedTo
    { body := (notification t.arn id m).compact, group := m.group } (n := w.provider.queues.lastId) hname
  rw [hrun, hpublish] at hgrouped
  have hqueue := hgrouped _ hfifo
  rw [hstate] at hqueue
  have hsome := (QueueState.Grouped.iff_parts.mp hqueue).1 _ (List.mem_append_right _ hcopy)
  rw [Outbound.store, hnone] at hsome
  cases hsome

/-- In use, an ordered queue that is not kept apart from a standard topic gets a message without a group. -/
theorem InUse.exists_ungrouped (h : r.InUse config w) (hr : r.Holds config) (hsound : config.Sound)
    (hkeyed : config.Keyed) (hw : w.provider.Smooth) (hdelivers : w.provider.delivers = true)
    {q : String × QueueProperties} (hq : q ∈ config.queues) {t : String × TopicProperties} (ht : t ∈ config.topics)
    (hsubscribe : q.2.subscribeTopicId = some t.1) (hfifo : q.2.isFifo = true) (hstandard : t.2.isFifo = false)
    (hfilter : LetsThrough q.2.subscribeFilter) : ∃ w', r.Uses w w' ∧ ¬ w'.provider.queues.Grouped := by
  obtain ⟨topic, htopic, _, harn⟩ := hr.exists_topic ht
  have hx := (hr.mem_subscriptionsTo_iff hsound hkeyed).mpr ⟨q, hq, t, ht, hsubscribe, rfl, rfl⟩
  rw [← h.subscriptions, ← harn] at hx
  have htopicStandard : topic.isFifo = false := by
    rw [TopicHandle.isFifo, harn]
    exact hstandard
  have hqueue : isFifo (nameOfArn (arnOf (addressed q.2.queueName))) = true := by
    rw [isFifo_nameOfArn_arnOf, isFifo_addressed]
    exact hfifo
  obtain ⟨eventType, attributes, hordered, hungrouped⟩ :=
    ungrouped_of_letsThrough hw hdelivers htopicStandard hx hqueue hfilter
  exact ⟨_, .publish htopic eventType "" hordered none, hungrouped⟩

end Registry

/-! ## Provisioning -/

theorem Call.grouped_onQueue {n : String} {q : Option QueueState} (h : (q.getD {}).Grouped) (c : Call) :
    ((c.onQueue n q).getD {}).Grouped := by
  cases c with
  | createQueue name a =>
    show ((if name = n then some (QueueStore.tagged.established (q.getD {}) a) else q).getD {}).Grouped
    unfold Tagged.established
    split
    · split <;> exact h
    · exact h
  | _ => exact h

namespace Registry
variable {r : Registry} {config : Properties} {w w' : World}

theorem inUse_of_provision (hw : w.Fresh) (hrun : (r.provision config).result.run w = (.ok (), w')) :
    r.InUse config w' := by
  obtain ⟨hbrings, hpermits, hknown⟩ := provision_brings hw.smooth hrun
  refine ⟨⟨fun n _ => ?_, fun slot => ?_⟩, fun arn => subscriptions_of_script hpermits ?_⟩
  · rw [state, hbrings.queues, hw.queues]
    show (((r.script config).foldl (Call.onQueue n) none).getD {}).Grouped
    exact List.foldlRecOn (motive := fun q : Option QueueState => (q.getD {}).Grouped) _ _ QueueState.Grouped.empty
      fun _ hq c _ => c.grouped_onQueue hq
  · rw [hknown, hw.known]
    exact .nothing
  · rw [hbrings.topics, hw.topics]
    rfl

/-- A registry that is built from a valid configuration and provisioned on a fresh provider that delivers: whatever is
published, sent, received, made visible again and retried, every message on an ordered queue has a group, just if the
configuration keeps ordered queues apart from standard topics. Then no retry is refused a message for want of one. -/
theorem ordered_grouped_iff (hvalid : validate config = .ok ()) (hkeyed : config.Keyed) (f : Factory) :
    ∃ r f', build config f = .ok (r, f') ∧ r.Holds config ∧ ∀ w w₁ : World, w.Fresh → w.provider.delivers = true →
      (r.provision config).result.run w = (.ok (), w₁) →
      ((∀ w₂, Relation.ReflTransGen r.Uses w₁ w₂ → w₂.provider.queues.Grouped) ↔ config.Separates) ∧
      (config.Separates → ∀ w₂, Relation.ReflTransGen r.Uses w₁ w₂ → ∀ q ∈ r.queues, ∀ p : NumberPolicy,
        ∀ e ∈ (q.retry p).result.journal w₂, ¬ e.LacksGroup) := by
  obtain ⟨r, f', hbuild, hr⟩ := build_holds hvalid f
  have hsound := Properties.sound_of_validate hvalid
  refine ⟨r, f', hbuild, hr, fun w w₁ hw hdelivers hrun => ?_⟩
  have hstart := inUse_of_provision hw hrun
  refine ⟨⟨fun hgrouped => ?_, fun hseparates w₂ huses => ?_⟩, fun hseparates w₂ huses q hq p => ?_⟩
  · obtain ⟨hbrings, _⟩ := provision_brings hw.smooth hrun
    intro q hq t ht hsubscribe hfifo hstandard hfilter
    obtain ⟨w₂, huse, hungrouped⟩ := hstart.exists_ungrouped hr hsound hkeyed (hbrings.smooth hw.smooth)
      (hbrings.delivers.trans hdelivers) hq ht hsubscribe hfifo hstandard hfilter
    exact hungrouped (hgrouped w₂ (.single huse))
  · exact (hstart.uses_all hr hsound hkeyed hseparates huses).orderly.grouped
  · have hinUse := hstart.uses_all hr hsound hkeyed hseparates huses
    exact (q.retry_keeps_groups hr.placed hq (fun _ => hr.isFifo_dlq hsound hq) hinUse.orderly p).2.2

/-- An ordered queue that is configured with a standard topic: the configuration is accepted and provisioned, and yet a
message without a group gets onto the queue. -/
theorem ordered_grouped_iff_standard :
    let config : Properties := {
      provider := .localstack
      queues := [("a", { queueName := "a.fifo", subscribeTopicId := some "t" })]
      topics := [("t", { arn := "arn:aws:sns:eu-west-2:000000000000:t" })] }
    validate config = .ok () ∧ config.Keyed ∧ World.Fresh {} ∧ ∃ r f', build config {} = .ok (r, f') ∧
      ∃ w₁, (r.provision config).result.run {} = (.ok (), w₁) ∧
        ∃ w₂, Relation.ReflTransGen r.Uses w₁ w₂ ∧ ¬ w₂.provider.queues.Grouped := by
  intro config
  have hvalid : validate config = .ok () := by decide +kernel
  have hkeyed : config.Keyed := ⟨by decide, by decide⟩
  have hfresh : World.Fresh {} := ⟨⟨rfl, rfl, rfl⟩, rfl, rfl, fun _ => rfl⟩
  obtain ⟨r, f', hbuild, _, hgrouped⟩ := ordered_grouped_iff hvalid hkeyed {}
  have hok : (build config {}).toOption.map (fun built => ((built.1.provision config).result.run {}).1) =
      some (.ok ()) := by decide +kernel
  rw [hbuild] at hok
  have hok : ((r.provision config).result.run {}).1 = .ok () := Option.some.inj hok
  have hrun : (r.provision config).result.run {} = (.ok (), ((r.provision config).result.run {}).2) := by
    rw [← hok]
  have hjoined : ¬ config.Separates := by
    intro hseparates
    exact hseparates _ (List.mem_singleton_self _) _ (List.mem_singleton_self _) rfl (by decide +kernel)
      (by decide +kernel) nofun
  have hsome := mt (hgrouped {} _ hfresh rfl hrun).1.mp hjoined
  simp only [not_forall] at hsome
  obtain ⟨w₂, huses, hungrouped⟩ := hsome
  exact ⟨hvalid, hkeyed, hfresh, r, f', hbuild, _, hrun, w₂, huses, hungrouped⟩

end Registry

end DeadLetter
