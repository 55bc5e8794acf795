import DeadLetter.EventType
import DeadLetter.Proofs.Json.RoundTrip
import DeadLetter.Proofs.Routine.Journal
import DeadLetter.Proofs.Store.Effects
import DeadLetter.Proofs.Store.Topics
import DeadLetter.Service.Publish

/-!
# What is published arrives

`Subscription.accepts_iff` : which messages a subscription wants. `state_foldl_seed` : putting a message on queues in
order adds a copy for each to the queue named, and nothing else. `eventTypeOfBody?_notification` and
`message_notification` : the notification of a message reads back to its event type and body. `publish_fanout` puts them
together: a published event arrives once for each subscription that wants it, and a publication that fails leaves no
trace.
-/

namespace DeadLetter

set_option autoImplicit false

/-! ## Filters -/

/-- A subscription without a filter wants every message. A filter is a JSON object whose keys name attributes; each must
have a text, and that text be listed under the key. -/
def Subscription.Wants (s : Subscription) (attributes : Attributes) : Prop :=
  ∀ filter, s.filter = some filter → ∃ policy, Json.read? filter = some (.object policy) ∧
    ∀ e ∈ policy, ∃ value items, (attributes.get? e.1).bind (·.stringValue) = some value ∧
      e.2 = .array items ∧ .string value ∈ items

theorem Json.any_string_iff (items : List Json) (value : String) :
    (items.any (·.string? == some value)) = true ↔ .string value ∈ items := by
  rw [List.any_eq_true]
  constructor
  · rintro ⟨item, hitem, h⟩
    cases item <;> simp [Json.string?] at h
    rwa [← h]
  · exact fun h => ⟨_, h, beq_self_eq_true _⟩

theorem filterMatches_iff (filter : String) (attributes : Attributes) :
    filterMatches filter attributes = true ↔ ∃ policy, Json.read? filter = some (.object policy) ∧
      ∀ e ∈ policy, ∃ value items, (attributes.get? e.1).bind (·.stringValue) = some value ∧
        e.2 = .array items ∧ .string value ∈ items := by
  unfold filterMatches
  split
  · next policy hread =>
    simp only [hread, Option.some.injEq, Json.object.injEq, exists_eq_left', List.all_eq_true]
    refine forall₂_congr fun e he => ?_
    obtain ⟨name, allowed⟩ := e
    clear he
    dsimp only
    split
    · next value items hvalue =>
      rw [Json.any_string_iff]
      constructor
      · exact fun h => ⟨value, items, hvalue, rfl, h⟩
      · rintro ⟨value', _, hvalue', ⟨⟩, h⟩
        rw [hvalue, Option.some.injEq] at hvalue'
        rwa [hvalue']
    · next hother =>
      constructor
      · nofun
      · rintro ⟨value, items, hvalue, rfl, _⟩
        exact absurd rfl (hother value items hvalue)
  · next hread =>
    constructor
    · nofun
    · rintro ⟨policy, hpolicy, _⟩
      exact absurd hpolicy (hread policy)

theorem Subscription.accepts_iff (s : Subscription) (attributes : Attributes) :
    s.accepts attributes = true ↔ s.Wants attributes := by
  unfold accepts Wants
  cases s.filter with
  | none => simp
  | some filter => simpa using filterMatches_iff filter attributes

instance (s : Subscription) (attributes : Attributes) : Decidable (s.Wants attributes) :=
  decidable_of_iff _ (s.accepts_iff attributes)

/-! ## Notifications -/

/-- An attribute as it stands in a notification. -/
def AttributeValue.notified (a : AttributeValue) : Json :=
  .ofMembers [("Type", .string a.dataType), ("Value", .ofText? a.stringValue)]

theorem AttributeValue.notified_plain (a : AttributeValue) : Json.Plain 1 a.notified := by
  refine .ofMembers fun e he => ?_
  simp only [List.mem_cons, List.not_mem_nil, or_false] at he
  rcases he with rfl | rfl
  · exact .string _
  · cases a.stringValue with
    | none => exact .null
    | some s => exact .string s

theorem notification_plain (arn id : String) (m : Outbound) : Json.Plain 3 (notification arn id m) := by
  refine .ofMembers fun e he => ?_
  simp only [List.mem_cons, List.not_mem_nil, or_false] at he
  rcases he with rfl | rfl | rfl | rfl | rfl
  · exact .string _
  · exact .string _
  · exact .string _
  · exact .string _
  · refine .ofMembers fun e he => ?_
    obtain ⟨⟨name, a⟩, _, rfl⟩ := List.mem_map.mp he
    exact a.notified_plain

theorem read?_notification (arn id : String) (m : Outbound) :
    Json.read? (notification arn id m).compact = some (notification arn id m) :=
  Json.read?_compact ((notification_plain arn id m).mono (by decide))

theorem message_notification (arn id : String) (m : Outbound) :
    (notification arn id m).get? "Message" = some (.string m.body) := by
  simp [notification, Json.ofMembers, Json.get?, Dict.ofList, Dict.get?_put]

theorem attributes_notification {arn id : String} {m : Outbound} (hordered : m.attributes.Ordered) :
    (notification arn id m).get? "MessageAttributes" =
      some (.object (m.attributes.map fun e => (e.1, e.2.notified))) := by
  have hmap : Dict.ofList (m.attributes.map fun e => (e.1, e.2.notified)) =
      m.attributes.map fun e => (e.1, e.2.notified) :=
    Dict.ofList_of_ordered (Dict.ordered_map hordered fun e => e.2.notified)
  rw [← hmap]
  simp [notification, AttributeValue.notified, Json.ofMembers, Json.get?, Dict.ofList, Dict.get?_put]

theorem value_notified {a : AttributeValue} {text : String} (h : a.stringValue = some text) :
    a.notified.get? "Value" = some (.string text) := by
  simp [AttributeValue.notified, Json.ofMembers, Json.get?, Dict.ofList, Dict.get?_put, h, Json.ofText?]

theorem eventTypeOfBody?_notification {m : Outbound} {a : AttributeValue} {eventType : String} (arn id : String)
    (hordered : m.attributes.Ordered) (hattribute : m.attributes.get? eventTypeAttribute = some a)
    (ha : a.stringValue = some eventType) : eventTypeOfBody? (notification arn id m).compact = some eventType := by
  have hmember : Json.get? (.object (m.attributes.map fun e => (e.1, e.2.notified))) eventTypeAttribute =
      some a.notified := by
    rw [Json.get?, Dict.get?_map, hattribute]
    rfl
  rw [eventTypeOfBody?, read?_notification]
  simp only [Option.bind_eq_bind, Option.bind_some, attributes_notification hordered, hmember, value_notified ha]
  rfl

/-! ## Deliveries -/

namespace QueueStore

/-- The messages that putting one on queues in order makes, each with the name of its queue. -/
def copiesOf (m : Outbound) : Nat → List String → List (String × Stored)
  | _, [] => []
  | n, name :: names => (name, m.store (messageId (n + 1))) :: copiesOf m (n + 1) names

def extended (q : QueueState) (ms : List Stored) : QueueState := { q with visible := q.visible ++ ms }

def addressedTo (name : String) (sent : List (String × Stored)) : List Stored :=
  (sent.filter (·.1 = name)).map (·.2)

variable (m : Outbound)

theorem copiesOf_map_name (n : Nat) (names : List String) : (copiesOf m n names).map (·.1) = names := by
  induction names generalizing n with
  | nil => rfl
  | cons name names ih => rw [copiesOf, List.map_cons, ih]

theorem copiesOf_map_id (n : Nat) (names : List String) :
    (copiesOf m n names).map (·.2.id) = (List.range' (n + 1) names.length).map messageId := by
  induction names generalizing n with
  | nil => rfl
  | cons name names ih =>
    rw [copiesOf, List.map_cons, ih, List.length_cons, List.range'_succ, List.map_cons]
    rfl

theorem exists_store_of_mem_copiesOf {n : Nat} {names : List String} {e : String × Stored}
    (h : e ∈ copiesOf m n names) : ∃ id, e.2 = m.store id := by
  induction names generalizing n with
  | nil => cases h
  | cons name names ih =>
    rcases List.mem_cons.mp h with rfl | h
    · exact ⟨_, rfl⟩
    · exact ih h

theorem exists_mem_addressedTo {n : Nat} {names : List String} {name : String} (h : name ∈ names) :
    ∃ id, m.store id ∈ addressedTo name (copiesOf m n names) := by
  rw [← copiesOf_map_name m n names] at h
  obtain ⟨e, he, hname⟩ := List.mem_map.mp h
  obtain ⟨id, hid⟩ := exists_store_of_mem_copiesOf m he
  refine ⟨id, ?_⟩
  rw [← hid]
  exact List.mem_map_of_mem (List.mem_filter.mpr ⟨he, decide_eq_true hname⟩)

/-- Putting a message on queues in order adds to each queue its copies, and nothing else. -/
theorem state_foldl_seed (names : List String) (s : QueueStore) (n : String) :
    (names.foldl (fun s name => (s.seed name m).2) s).state n =
      extended (s.state n) (addressedTo n (copiesOf m s.lastId names)) := by
  induction names generalizing s with
  | nil => exact (congrArg (fun ms => { s.state n with visible := ms }) (List.append_nil _)).symm
  | cons name names ih =>
    have hput := puts_seed s name m
    rw [List.foldl_cons, ih]
    show extended _ (addressedTo n (copiesOf m (s.lastId + 1) names)) = _
    rw [state_put hput.queues, copiesOf]
    by_cases hn : n = name
    · subst hn
      simp [extended, addressedTo, appended]
    · simp [extended, addressedTo, hn, Ne.symm hn]

end QueueStore

/-! ## Publishing -/

open QueueStore

/-- What a publication on a topic that is there returns: it fails, and topics and queues stay as they are, or its
notification goes to the queues of the subscriptions that want it. -/
theorem TopicStore.publish_cases {s : TopicStore} {arn : String} {topic : TopicState}
    (h : s.topics.get? arn = some topic) (m : Outbound) :
    (∃ e t, s.publish arn m = (.error e, t) ∧ t.topics = s.topics) ∨
    ∃ id t, s.publish arn m = (.ok {
      id := id
      body := (notification arn id m).compact
      queues :=
        (topic.subscriptions.filter fun s => decide (s.Wants m.attributes)).map (nameOfArn ·.queueArn) }, t) := by
  have hwants : (topic.subscriptions.filter fun s => decide (s.Wants m.attributes)) =
      topic.subscriptions.filter (·.accepts m.attributes) :=
    List.filter_congr fun s _ => Bool.eq_iff_iff.mpr (decide_eq_true_iff.trans (s.accepts_iff m.attributes).symm)
  unfold publish attempt
  split
  · exact Or.inl ⟨_, _, rfl, rfl⟩
  · right
    have hcounted : (s.counted .publish).topics.get? arn = some topic := h
    rw [hwants]
    unfold locate
    dsimp only
    rw [hcounted]
    exact ⟨_, _, rfl⟩

/-- A message of a queue tells of an event. -/
structure Stored.Tells (x : Stored) (eventType body : String) (group : Option String) : Prop where
  eventType : eventType? x.body x.attributes = some eventType
  body : ∃ v, Json.read? x.body = some v ∧ v.get? "Message" = some (.string body)
  group : x.group = group

/-- A message that is published and delivered goes to the queues of the subscriptions that want it; if it is not
published, topics and queues stay as they are. -/
theorem Memory.publish_cases {p : Memory} {arn : String} {topic : TopicState}
    (htopic : p.topics.topics.get? arn = some topic) (hdelivers : p.delivers = true) (m : Outbound) :
    (∃ e q, p.publish arn m = (.error e, q) ∧ q.queues = p.queues ∧ q.topics.topics = p.topics.topics) ∨
    ∃ id q, p.publish arn m = (.ok id, q) ∧ ∀ n, q.queues.state n = extended (p.queues.state n)
      (addressedTo n (copiesOf { body := (notification arn id m).compact, group := m.group } p.queues.lastId
        ((topic.subscriptions.filter fun s => decide (s.Wants m.attributes)).map (nameOfArn ·.queueArn)))) := by
  unfold publish
  rcases TopicStore.publish_cases htopic m with ⟨e, t, hpublish, htopics⟩ | ⟨id, t, hpublish⟩
  · rw [hpublish]
    exact Or.inl ⟨e, _, rfl, rfl, htopics⟩
  · rw [hpublish]
    refine Or.inr ⟨id, _, rfl, fun n => ?_⟩
    dsimp only
    rw [if_pos hdelivers]
    exact state_foldl_seed _ _ p.queues n

/-- While publishing is not made to fail, a message that is published on a topic that is there is delivered. -/
theorem Memory.publish_of_not_failing {p : Memory} (hf : .publish ∉ p.topics.failingOperations) {arn : String}
    {topic : TopicState} (htopic : p.topics.topics.get? arn = some topic) (hdelivers : p.delivers = true)
    (m : Outbound) :
    ∃ id q, p.publish arn m = (.ok id, q) ∧ ∀ n, q.queues.state n = extended (p.queues.state n)
      (addressedTo n (copiesOf { body := (notification arn id m).compact, group := m.group } p.queues.lastId
        ((topic.subscriptions.filter fun s => decide (s.Wants m.attributes)).map (nameOfArn ·.queueArn)))) := by
  refine (Memory.publish_cases htopic hdelivers m).resolve_left ?_
  rintro ⟨e, q, hpublish, _⟩
  have hcounted : (p.topics.counted .publish).topics = p.topics.topics := rfl
  unfold publish TopicStore.publish at hpublish
  rw [TopicStore.attempt_of_not_failing hf] at hpublish
  dsimp only at hpublish
  rw [TopicStore.locate_of_some (hcounted ▸ htopic)] at hpublish
  cases hpublish

theorem TopicHandle.publish_of_isFifo {t : TopicHandle} (hfifo : t.isFifo = true) (eventType body : String)
    (attributes : Attributes) (w : World) :
    (t.publish eventType body attributes none).result.run w = (.error (.missingGroup t.arn), w) := by
  unfold publish
  rw [hfifo]
  rfl

theorem TopicHandle.publish_of_group {t : TopicHandle} {group : Option String}
    (hgroup : t.isFifo = true → group.isSome) (eventType body : String) (attributes : Attributes) (w : World) :
    ∃ (m : Outbound) (generated : Nat), m.body = body ∧
      m.attributes = attributes.put eventTypeAttribute (.ofText eventType) ∧ m.group = group ∧
      (t.publish eventType body attributes group).result.run w = ((w.provider.publish t.arn m).1,
        { w with provider := (w.provider.publish t.arn m).2, generated := generated }) := by
  unfold publish
  cases hfifo : t.isFifo with
  | false => exact ⟨_, w.generated, rfl, rfl, rfl, rfl⟩
  | true =>
    obtain ⟨g, rfl⟩ := Option.isSome_iff_exists.mp (hgroup hfifo)
    exact ⟨_, w.generated + 1, rfl, rfl, rfl, rfl⟩

/-- Publishing an event is refused for want of a group, or it is one publication of the tagged message. -/
theorem TopicHandle.publish_cases (t : TopicHandle) (eventType body : String) (attributes : Attributes)
    (group : Option String) (w : World) :
    (t.publish eventType body attributes group).result.run w = (.error (.missingGroup t.arn), w) ∨
    ∃ (m : Outbound) (generated : Nat), m.body = body ∧
      m.attributes = attributes.put eventTypeAttribute (.ofText eventType) ∧ m.group = group ∧
      (t.publish eventType body attributes group).result.run w = ((w.provider.publish t.arn m).1,
        { w with provider := (w.provider.publish t.arn m).2, generated := generated }) := by
  by_cases hgroup : t.isFifo = true → group.isSome
  · exact Or.inr (publish_of_group hgroup eventType body attributes w)
  · obtain ⟨hfifo, hnone⟩ := Classical.not_imp.mp hgroup
    rw [Option.not_isSome_iff_eq_none.mp hnone]
    exact Or.inl (publish_of_isFifo hfifo eventType body attributes w)

/-- If publishing an event on a topic of a delivering provider succeeds, each subscription that wants the tagged event
gets one message, in order and under consecutive ids, on the queue that its resource name ends in, and no queue gets
anything else. Each message tells of the event. If it fails, all queues and topics stay as they are. -/
theorem publish_fanout (t : TopicHandle) (eventType body : String) {attributes : Attributes} (group : Option String)
    {w : World} {topic : TopicState} (htopic : w.provider.topics.topics.get? t.arn = some topic)
    (hdelivers : w.provider.delivers = true) (hattributes : attributes.Ordered) :
    let tagged : Attributes := attributes.put eventTypeAttribute (.ofText eventType)
    let wanting := topic.subscriptions.filter fun s => decide (s.Wants tagged)
    let w' := ((t.publish eventType body attributes group).result.run w).2
    (∀ id, ((t.publish eventType body attributes group).result.run w).1 = .ok id →
      ∃ sent : List (String × Stored),
        sent.map (·.1) = wanting.map (nameOfArn ·.queueArn) ∧
        sent.map (·.2.id) = (List.range' (w.provider.queues.lastId + 1) wanting.length).map messageId ∧
        (∀ n, w'.provider.queues.state n = extended (w.provider.queues.state n) (addressedTo n sent)) ∧
        ∀ e ∈ sent, e.2.Tells eventType body group) ∧
    ∀ e, ((t.publish eventType body attributes group).result.run w).1 = .error e →
      w'.provider.queues = w.provider.queues ∧ w'.provider.topics.topics = w.provider.topics.topics := by
  intro tagged wanting w'
  rcases t.publish_cases eventType body attributes group w with hrun | ⟨m, generated, hbody, htagged, hgroup, hrun⟩
  · have hw' : w' = w := congrArg Prod.snd hrun
    rw [hrun, hw']
    exact ⟨nofun, fun _ _ => ⟨rfl, rfl⟩⟩
  have hw' : w'.provider = (w.provider.publish t.arn m).2 := congrArg (·.2.provider) hrun
  rw [hrun, hw']
  rcases Memory.publish_cases htopic hdelivers m with ⟨e, p, hpublish, hqueues, htopics⟩ | ⟨id, p, hpublish, hstate⟩
  · rw [hpublish]
    exact ⟨nofun, fun _ _ => ⟨hqueues, htopics⟩⟩
  · rw [hpublish]
    rw [htagged] at hstate
    refine ⟨fun _ _ => ⟨_, copiesOf_map_name _ _ _, ?_, hstate, fun e he => ?_⟩, nofun⟩
    · rw [copiesOf_map_id, List.length_map]
    · obtain ⟨x, hx⟩ := exists_store_of_mem_copiesOf _ he
      have hordered : m.attributes.Ordered := htagged ▸ Dict.ordered_put hattributes _ _
      have htag : m.attributes.get? eventTypeAttribute = some (.ofText eventType) := by
        rw [htagged, Dict.get?_put_self]
      rw [hx]
      refine ⟨?_, ⟨notification t.arn id m, read?_notification _ _ _, ?_⟩, hgroup⟩
      · rw [eventType?]
        show (eventTypeOfBody? (notification t.arn id m).compact <|> _) = _
        rw [eventTypeOfBody?_notification t.arn id hordered htag rfl]
        rfl
      · rw [message_notification, hbody]

/-- An event `created` with an event type of the caller's own reaches the queue without a filter and the one whose
filter lists it, and not the one whose filter lists another. -/
theorem publish_fanout_filtered :
    let topic : TopicState := { subscriptions := [⟨arnOf "a", none⟩,
      ⟨arnOf "b", some "\x7b\"eventType\":[\"created\"]\x7d"⟩,
      ⟨arnOf "c", some "\x7b\"eventType\":[\"deleted\"]\x7d"⟩] }
    let t : TopicHandle := ⟨"t", TopicStore.arnOf "t", 0⟩
    let w : World := { provider := { topics := { topics := [(t.arn, topic)] } } }
    let publication := t.publish "created" "x" [(eventTypeAttribute, .ofText "deleted")] none
    (publication.result.run w).1.toOption = some "sns-1" ∧ ∃ sent : List (String × Stored),
      sent.map (·.1) = ["a", "b"] ∧ (∀ e ∈ sent, e.2.Tells "created" "x" none) ∧
      ∀ n, (publication.result.run w).2.provider.queues.state n = extended {} (addressedTo n sent) := by
  intro topic t w publication
  have htopic : w.provider.topics.topics.get? t.arn = some topic := if_pos rfl
  obtain ⟨harrives, _⟩ := publish_fanout t "created" "x" none htopic rfl
    (List.pairwise_singleton _ (eventTypeAttribute, AttributeValue.ofText "deleted"))
  have hid : (publication.result.run w).1.toOption = some "sns-1" := by decide +kernel
  cases hresult : (publication.result.run w).1 with
  | error e =>
    rw [hresult] at hid
    cases hid
  | ok id =>
    obtain ⟨sent, hnames, _, hstate, htells⟩ := harrives id hresult
    refine ⟨by rw [← hresult]; exact hid, sent, hnames.trans (by decide +kernel), htells, hstate⟩

end DeadLetter
