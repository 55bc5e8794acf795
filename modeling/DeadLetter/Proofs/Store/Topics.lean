import DeadLetter.Provider.TopicStore

/-!
# What the calls on topics do

`topicAttributes_eq`, `subscribe_of_get?` and `subscribe_of_none` : what a call returns, from the failures and the one
topic that it is about, and what becomes of that topic. `queues_of_publish` : where a publication goes.
-/

namespace DeadLetter.TopicStore

set_option autoImplicit false

/-- A topic. One that is not there is like one without subscriptions. -/
def state (s : TopicStore) (arn : String) : TopicState := (s.topics.get? arn).getD {}

section Parts
variable {α : Type} {s : TopicStore} {op : Operation} {arn : String}

theorem attempt_of_failing (h : op ∈ s.failingOperations) (go : TopicStore → Except QueueError α × TopicStore) :
    s.attempt op go = (.error (QueueStore.injected op), s.counted op) := by
  rw [attempt, if_pos h]

theorem attempt_of_not_failing (h : op ∉ s.failingOperations) (go : TopicStore → Except QueueError α × TopicStore) :
    s.attempt op go = go (s.counted op) := by
  rw [attempt, if_neg h]

theorem locate_of_none (h : s.topics.get? arn = none) (go : TopicState → Except QueueError α × TopicStore) :
    s.locate op arn go = (.error (QueueStore.missing op arn), s) := by
  rw [locate, h]

theorem locate_of_some {t : TopicState} (h : s.topics.get? arn = some t)
    (go : TopicState → Except QueueError α × TopicStore) : s.locate op arn go = go t := by
  rw [locate, h]

end Parts

/-- What a topic tells about its subscriptions. -/
def attributesOf (t : TopicState) : TopicAttributes := ⟨min t.subscriptions.length QueueStore.maxCount, t.pending⟩

theorem topicAttributes_eq (s : TopicStore) (arn : String) :
    s.topicAttributes arn =
      (if .getTopicAttributes ∈ s.failingOperations then .error (QueueStore.injected .getTopicAttributes)
        else match s.topics.get? arn with
          | some t => .ok (attributesOf t)
          | none => .error (QueueStore.missing .getTopicAttributes arn),
        s.counted .getTopicAttributes) := by
  have hs : (s.counted .getTopicAttributes).topics = s.topics := rfl
  unfold topicAttributes
  by_cases hf : .getTopicAttributes ∈ s.failingOperations
  · rw [attempt_of_failing hf, if_pos hf]
  · rw [attempt_of_not_failing hf, if_neg hf]
    cases ht : s.topics.get? arn with
    | none => rw [locate_of_none (hs ▸ ht)]
    | some t => rw [locate_of_some (hs ▸ ht)]; rfl

def subscribed (t : TopicState) (xs : List Subscription) : TopicState :=
  { t with subscriptions := t.subscriptions ++ xs }

theorem subscribed_nil (t : TopicState) : subscribed t [] = t :=
  congrArg (fun xs => { t with subscriptions := xs }) (List.append_nil t.subscriptions)

theorem subscribed_append (t : TopicState) (xs ys : List Subscription) :
    subscribed t (xs ++ ys) = subscribed (subscribed t xs) ys :=
  congrArg (fun zs => { t with subscriptions := zs }) (List.append_assoc t.subscriptions xs ys).symm

theorem subscribe_of_get? {s : TopicStore} {arn : String} {t : TopicState} (hf : .subscribe ∉ s.failingOperations)
    (ht : s.topics.get? arn = some t) (queueArn : String) (filter : Option String) :
    ∃ id, s.subscribe arn queueArn filter =
      (.ok id, (s.counted .subscribe).withTopic arn (subscribed t [⟨queueArn, filter⟩])) := by
  have hs : (s.counted .subscribe).topics = s.topics := rfl
  unfold subscribe
  rw [attempt_of_not_failing hf, locate_of_some (hs ▸ ht)]
  exact ⟨_, rfl⟩

theorem subscribe_of_none {s : TopicStore} {arn : String} (hf : .subscribe ∉ s.failingOperations)
    (ht : s.topics.get? arn = none) (queueArn : String) (filter : Option String) :
    ∃ e, s.subscribe arn queueArn filter = (.error e, s.counted .subscribe) := by
  have hs : (s.counted .subscribe).topics = s.topics := rfl
  unfold subscribe
  rw [attempt_of_not_failing hf, locate_of_none (hs ▸ ht)]
  exact ⟨_, rfl⟩

theorem queues_of_publish {s t : TopicStore} {arn : String} {m : Outbound} {publication : Publication}
    (h : s.publish arn m = (.ok publication, t)) :
    publication.queues = ((s.state arn).subscriptions.filter (·.accepts m.attributes)).map (nameOfArn ·.queueArn) := by
  unfold publish attempt locate at h
  split at h
  · cases h
  · dsimp only at h
    split at h
    · next topic htopic =>
      have hget : s.topics.get? arn = some topic := htopic
      cases h
      rw [state, hget, Option.getD_some]
    · cases h

theorem subscriptions_publish (s : TopicStore) (arn : String) (m : Outbound) (topic : String) :
    ((s.publish arn m).2.state topic).subscriptions = (s.state topic).subscriptions := by
  unfold publish attempt locate
  split
  · rfl
  · dsimp only
    split
    · next t ht =>
      have hget : s.topics.get? arn = some t := ht
      unfold state withTopic
      rw [Dict.get?_put]
      split
      · next heq => rw [heq, hget, Option.getD_some, Option.getD_some]
      · rfl
    · rfl

end DeadLetter.TopicStore
