import DeadLetter.Proofs.Store.Batches
import DeadLetter.Proofs.Store.Creation

/-!
# Why calls fail

`Memory.checks` : what the provider looks at before it does what a call asks for, in order, each check with the error
that it may find. `Explains` : a result is the error that the first of some checks finds, if any does, and then nothing
moved but counters. It is proved once for each check (`attempt_explains`, `locate_explains`, `locateInFlight_explains`),
and calls are put together from these. `Memory.refused_unmoved` : a call that fails leaves all but the counters of calls
and ids as it was.
-/

namespace DeadLetter

set_option autoImplicit false

/-- A result is the error that the first of some checks finds, if any does, and the state is then as `P` says. -/
structure Explains {α σ : Type} (P : σ → Prop) (checks : List (Option QueueError))
    (r : Except QueueError α × σ) : Prop where
  error_iff : ∀ e, r.1 = .error e ↔ checks.findSome? id = some e
  left : ∀ e, r.1 = .error e → P r.2

namespace Explains
variable {α β σ τ : Type} {P : σ → Prop} {Q : τ → Prop} {checks : List (Option QueueError)}
  {r : Except QueueError α × σ} {r' : Except QueueError β × τ}

/-- With nothing left to check a call succeeds. -/
theorem done (a : α) (s : σ) : Explains P [] (.ok a, s) := ⟨fun _ => iff_of_false nofun nofun, nofun⟩

/-- A check finds an error. -/
theorem refuse {s : σ} (h : P s) (e : QueueError) (checks : List (Option QueueError)) :
    Explains (α := α) P (some e :: checks) (.error e, s) where
  error_iff e' := by rw [List.findSome?_cons_of_isSome rfl, id, Except.error.injEq, Option.some.injEq]
  left _ _ := h

/-- A check finds nothing. -/
theorem pass (h : Explains P checks r) : Explains P (none :: checks) r := ⟨h.error_iff, h.left⟩

/-- What fails alike, and then leaves what the other leaves, fails for the same cause. -/
theorem transfer (h : Explains P checks r) (hfails : ∀ e, r'.1 = .error e ↔ r.1 = .error e)
    (hleft : ∀ e, r'.1 = .error e → P r.2 → Q r'.2) : Explains Q checks r' where
  error_iff e := (hfails e).trans (h.error_iff e)
  left e he := hleft e he (h.left e ((hfails e).mp he))

end Explains

/-! ## Calls on queues -/

namespace QueueStore
variable {s t u : QueueStore}

/-- From `s` to `t` nothing moved but the counts of calls and the last number drawn. -/
def Recounted (s t : QueueStore) : Prop := t = { s with calls := t.calls, lastId := t.lastId }

theorem Recounted.refl (s : QueueStore) : Recounted s s := rfl

theorem Recounted.trans (h : Recounted s t) (h' : Recounted t u) : Recounted s u :=
  Eq.trans h' (congrArg (fun s : QueueStore => { s with calls := u.calls, lastId := u.lastId }) h)

theorem recounted_counted (s : QueueStore) (op : Operation) : Recounted s (s.counted op) := rfl

theorem recounted_drawn (s : QueueStore) : Recounted s s.drawn := rfl

def injected? (s : QueueStore) (op : Operation) (queue : String) : Option QueueError :=
  if s.fails op queue then some (injected op) else none

def absent? (s : QueueStore) (op : Operation) (queue : String) : Option QueueError :=
  if (s.queues.get? queue).isSome then none else some (missing op queue)

def spent? (s : QueueStore) (op : Operation) (queue handle : String) : Option QueueError :=
  if ((s.state queue).inFlight.lookup handle).isSome then none else some (missing op handle)

/-- Whether an ordered queue is sent a message without a group. -/
def ungrouped? (queue : String) (m : Outbound) : Option QueueError :=
  if isFifo queue ∧ m.group = none then some (.missingGroup queue) else none

/-- Whether the redrive policy that attributes set cannot be read. -/
def unreadable? (a : Dict String) : Option QueueError := if Readable a then none else some .serialization

section Checks
variable {α : Type} {op : Operation} {queue : String} {P : QueueStore → Prop} {checks : List (Option QueueError)}

theorem attempt_explains {go : QueueStore → Except QueueError α × QueueStore}
    (h : Explains (s.counted op).Recounted checks (go (s.counted op))) :
    Explains s.Recounted (s.injected? op queue :: checks) (s.attempt op queue go) := by
  unfold injected?
  cases hf : s.fails op queue with
  | true =>
    rw [attempt_of_fails hf]
    exact .refuse (recounted_counted s op) _ _
  | false =>
    rw [attempt_of_not_fails hf]
    exact .pass (h.transfer (fun _ => Iff.rfl) fun _ _ => (recounted_counted s op).trans)

theorem locate_explains {go : QueueState → Except QueueError α × QueueStore} (hs : P s)
    (h : ∀ q, s.queues.get? queue = some q → Explains P checks (go q)) :
    Explains P (s.absent? op queue :: checks) (s.locate op queue go) := by
  unfold absent?
  cases hq : s.queues.get? queue with
  | none =>
    rw [locate_of_none hq]
    exact .refuse hs _ _
  | some q =>
    rw [locate_of_some hq]
    exact .pass (h q hq)

theorem attempt_locate_explains {go : QueueStore → QueueState → Except QueueError α × QueueStore}
    (h : ∀ q, s.queues.get? queue = some q → Explains (s.counted op).Recounted checks (go (s.counted op) q)) :
    Explains s.Recounted (s.injected? op queue :: s.absent? op queue :: checks)
      (s.attempt op queue fun s => s.locate op queue (go s)) :=
  attempt_explains (locate_explains (s := s.counted op) (.refl _) h)

theorem locateInFlight_explains {q : QueueState} {handle : String}
    {go : Stored → List (String × Stored) → Except QueueError α × QueueStore} (hs : P s)
    (hq : s.queues.get? queue = some q) (h : ∀ m others, Explains P checks (go m others)) :
    Explains P (s.spent? op queue handle :: checks) (s.locateInFlight op q handle go) := by
  unfold spent?
  rw [state_of_get? hq]
  cases hm : q.inFlight.lookup handle with
  | none =>
    rw [locateInFlight_of_none hm]
    exact .refuse hs _ _
  | some m =>
    rw [locateInFlight_of_some hm]
    exact .pass (h m _)

end Checks

variable (s)

theorem queueUrl_explains (queue : String) :
    Explains s.Recounted [s.injected? .getQueueUrl queue, s.absent? .getQueueUrl queue] (s.queueUrl queue) := by
  unfold queueUrl
  exact attempt_locate_explains fun _ _ => .done _ _

theorem queueAttributes_explains (url : String) :
    Explains s.Recounted [s.injected? .getQueueAttributes (queueNameOfUrl url),
      s.absent? .getQueueAttributes (queueNameOfUrl url)] (s.queueAttributes url) := by
  unfold queueAttributes
  exact attempt_locate_explains fun _ _ => .done _ _

/-- From a queue that is there, any number of messages can be taken. -/
theorem take_explains (queue : String) (limit : Nat) :
    Explains s.Recounted [if limit = 0 then none else s.absent? .receiveMessage queue] (s.take queue limit) := by
  cases limit with
  | zero => exact .pass (.done _ _)
  | succ limit =>
    rw [if_neg (Nat.succ_ne_zero limit), absent?]
    cases hq : s.queues.get? queue with
    | none =>
      rw [take_of_none hq]
      exact .refuse (recounted_drawn s) _ _
    | some q =>
      obtain ⟨batch, t, htake, _⟩ := take_of_some (hq ▸ Option.isSome_some) (limit + 1)
      rw [htake]
      exact .pass (.done _ _)

theorem receive_explains (url : String) (limit : Nat) :
    Explains s.Recounted [s.injected? .receiveMessage (queueNameOfUrl url),
      if limit = 0 then none else s.absent? .receiveMessage (queueNameOfUrl url)] (s.receive url limit) := by
  unfold receive
  exact attempt_explains (take_explains _ _ _)

/-- A number is drawn before it is found that the queue is not there. -/
theorem send_explains (url : String) (m : Outbound) :
    Explains s.Recounted [s.injected? .sendMessage (queueNameOfUrl url), ungrouped? (queueNameOfUrl url) m,
      s.absent? .sendMessage (queueNameOfUrl url)] (s.send url m) := by
  unfold send ungrouped?
  refine attempt_explains ?_
  split
  · exact .refuse (.refl _) _ _
  · exact .pass (locate_explains (s := (s.counted .sendMessage).drawn) (recounted_drawn _) fun _ _ => .done _ _)

theorem delete_explains (url handle : String) :
    Explains s.Recounted [s.injected? .deleteMessage (queueNameOfUrl url),
      s.absent? .deleteMessage (queueNameOfUrl url), s.spent? .deleteMessage (queueNameOfUrl url) handle]
      (s.delete url handle) := by
  unfold delete
  refine attempt_locate_explains fun q hq => ?_
  exact locateInFlight_explains (Recounted.refl _) hq fun _ _ => .done _ _

theorem purge_explains (url : String) :
    Explains s.Recounted [s.injected? .purgeQueue (queueNameOfUrl url), s.absent? .purgeQueue (queueNameOfUrl url)]
      (s.purge url) := by
  unfold purge
  exact attempt_locate_explains fun _ _ => .done _ _

theorem changeVisibility_explains (url handle : String) (seconds : Int) :
    Explains s.Recounted [s.injected? .changeMessageVisibility (queueNameOfUrl url),
      s.absent? .changeMessageVisibility (queueNameOfUrl url),
      s.spent? .changeMessageVisibility (queueNameOfUrl url) handle] (s.changeVisibility url handle seconds) := by
  unfold changeVisibility
  refine attempt_locate_explains fun q hq => ?_
  exact locateInFlight_explains (Recounted.refl _) hq fun _ _ => .done _ _

theorem createQueue_explains (queue : String) (a : Dict String) :
    Explains s.Recounted [s.injected? .createQueue queue, unreadable? a] (s.createQueue queue a) := by
  unfold unreadable? injected?
  cases hf : s.fails .createQueue queue with
  | true =>
    rw [createQueue, attempt_of_fails hf]
    exact .refuse (recounted_counted s _) _ _
  | false =>
    refine .pass ?_
    split
    · next ha =>
      rw [createQueue_of_readable hf ha]
      exact .pass (.done _ _)
    · next ha =>
      rw [createQueue_of_not_readable hf ha]
      exact .refuse (recounted_counted s _) _ _

end QueueStore

/-! ## Calls on topics -/

namespace TopicStore
variable {s t u : TopicStore}

/-- From `s` to `t` nothing moved but the counts of calls and the last number drawn. -/
def Recounted (s t : TopicStore) : Prop := t = { s with calls := t.calls, lastId := t.lastId }

theorem Recounted.refl (s : TopicStore) : Recounted s s := rfl

theorem Recounted.trans (h : Recounted s t) (h' : Recounted t u) : Recounted s u :=
  Eq.trans h' (congrArg (fun s : TopicStore => { s with calls := u.calls, lastId := u.lastId }) h)

theorem recounted_counted (s : TopicStore) (op : Operation) : Recounted s (s.counted op) := rfl

def injected? (s : TopicStore) (op : Operation) : Option QueueError :=
  if op ∈ s.failingOperations then some (QueueStore.injected op) else none

def absent? (s : TopicStore) (op : Operation) (arn : String) : Option QueueError :=
  if (s.topics.get? arn).isSome then none else some (QueueStore.missing op arn)

section Checks
variable {α : Type} {op : Operation} {arn : String} {P : TopicStore → Prop} {checks : List (Option QueueError)}

theorem attempt_explains {go : TopicStore → Except QueueError α × TopicStore}
    (h : Explains (s.counted op).Recounted checks (go (s.counted op))) :
    Explains s.Recounted (s.injected? op :: checks) (s.attempt op go) := by
  unfold injected?
  split
  · next hf =>
    rw [attempt_of_failing hf]
    exact .refuse (recounted_counted s op) _ _
  · next hf =>
    rw [attempt_of_not_failing hf]
    exact .pass (h.transfer (fun _ => Iff.rfl) fun _ _ => (recounted_counted s op).trans)

theorem locate_explains {go : TopicState → Except QueueError α × TopicStore} (hs : P s)
    (h : ∀ t, Explains P checks (go t)) : Explains P (s.absent? op arn :: checks) (s.locate op arn go) := by
  unfold absent?
  cases ht : s.topics.get? arn with
  | none =>
    rw [locate_of_none ht]
    exact .refuse hs _ _
  | some t =>
    rw [locate_of_some ht]
    exact .pass (h t)

theorem attempt_locate_explains {go : TopicStore → TopicState → Except QueueError α × TopicStore}
    (h : ∀ t, Explains (s.counted op).Recounted checks (go (s.counted op) t)) :
    Explains s.Recounted (s.injected? op :: s.absent? op arn :: checks)
      (s.attempt op fun s => s.locate op arn (go s)) :=
  attempt_explains (locate_explains (s := s.counted op) (.refl _) h)

end Checks

variable (s)

theorem publish_explains (arn : String) (m : Outbound) :
    Explains s.Recounted [s.injected? .publish, s.absent? .publish arn] (s.publish arn m) := by
  unfold publish
  refine attempt_explains ?_
  exact locate_explains (s := { s.counted .publish with lastId := s.lastId + 1 }) rfl fun _ => .done _ _

theorem subscribe_explains (arn queueArn : String) (filter : Option String) :
    Explains s.Recounted [s.injected? .subscribe, s.absent? .subscribe arn] (s.subscribe arn queueArn filter) := by
  unfold subscribe
  exact attempt_locate_explains fun _ => .done _ _

theorem topicAttributes_explains (arn : String) :
    Explains s.Recounted [s.injected? .getTopicAttributes, s.absent? .getTopicAttributes arn]
      (s.topicAttributes arn) := by
  unfold topicAttributes
  exact attempt_locate_explains fun _ => .done _ _

theorem createTopic_explains (topic : String) (a : Dict String) :
    Explains s.Recounted [s.injected? .createTopic] (s.createTopic topic a) :=
  attempt_explains (.done _ _)

end TopicStore

/-! ## All calls -/

namespace Memory

/-- What a call is checked for, in order. -/
def checks (p : Memory) : Call → List (Option QueueError)
  | .queueUrl queue => [p.queues.injected? .getQueueUrl queue, p.queues.absent? .getQueueUrl queue]
  | .queueAttributes url =>
    let queue := queueNameOfUrl url
    [p.queues.injected? .getQueueAttributes queue, p.queues.absent? .getQueueAttributes queue]
  | .receive url limit _ =>
    let queue := queueNameOfUrl url
    [p.queues.injected? .receiveMessage queue, if limit = 0 then none else p.queues.absent? .receiveMessage queue]
  | .send url m =>
    let queue := queueNameOfUrl url
    [p.queues.injected? .sendMessage queue, QueueStore.ungrouped? queue m, p.queues.absent? .sendMessage queue]
  | .delete url handle =>
    let queue := queueNameOfUrl url
    [p.queues.injected? .deleteMessage queue, p.queues.absent? .deleteMessage queue,
      p.queues.spent? .deleteMessage queue handle]
  | .purge url =>
    let queue := queueNameOfUrl url
    [p.queues.injected? .purgeQueue queue, p.queues.absent? .purgeQueue queue]
  | .changeVisibility url handle _ =>
    let queue := queueNameOfUrl url
    [p.queues.injected? .changeMessageVisibility queue, p.queues.absent? .changeMessageVisibility queue,
      p.queues.spent? .changeMessageVisibility queue handle]
  | .createQueue queue attributes => [p.queues.injected? .createQueue queue, QueueStore.unreadable? attributes]
  | .publish arn _ => [p.topics.injected? .publish, p.topics.absent? .publish arn]
  | .subscribe arn _ _ => [p.topics.injected? .subscribe, p.topics.absent? .subscribe arn]
  | .topicAttributes arn => [p.topics.injected? .getTopicAttributes, p.topics.absent? .getTopicAttributes arn]
  | .createTopic _ _ => [p.topics.injected? .createTopic]
  | .headBucket bucket => [if bucket ∈ p.buckets then none else some (QueueStore.missing .headBucket bucket)]

/-- The error that a call comes to: what the first check that finds one finds. -/
def refusal? (p : Memory) (c : Call) : Option QueueError := (p.checks c).findSome? id

/-- From `p` to `p'` nothing moved but the counts of calls and the last numbers drawn: queues with their messages,
attributes and redrive policies, topics with their subscriptions and publications, buckets, recorded changes of
visibility and what is made to fail are the same. -/
def Recounted (p p' : Memory) : Prop :=
  p' = { p with
    queues := { p.queues with calls := p'.queues.calls, lastId := p'.queues.lastId }
    topics := { p.topics with calls := p'.topics.calls, lastId := p'.topics.lastId } }

variable (p : Memory)

theorem Recounted.refl : p.Recounted p := rfl

variable {p} {checks : List (Option QueueError)}

theorem recounted_queues {s : QueueStore} (h : p.queues.Recounted s) : p.Recounted { p with queues := s } :=
  congrArg (fun s : QueueStore => ({ p with queues := s } : Memory)) h

theorem recounted_topics {s : TopicStore} (h : p.topics.Recounted s) : p.Recounted { p with topics := s } :=
  congrArg (fun s : TopicStore => ({ p with topics := s } : Memory)) h

theorem onQueues_explains {α : Type} (p : Memory) (f : QueueStore → Except QueueError α × QueueStore)
    (h : Explains p.queues.Recounted checks (f p.queues)) : Explains p.Recounted checks (p.onQueues f) :=
  h.transfer (fun _ => Iff.rfl) fun _ _ => recounted_queues

theorem onTopics_explains {α : Type} (p : Memory) (f : TopicStore → Except QueueError α × TopicStore)
    (h : Explains p.topics.Recounted checks (f p.topics)) : Explains p.Recounted checks (p.onTopics f) :=
  h.transfer (fun _ => Iff.rfl) fun _ _ => recounted_topics

theorem publish_explains (arn : String) (m : Outbound) :
    Explains p.Recounted [p.topics.injected? .publish, p.topics.absent? .publish arn] (p.publish arn m) := by
  refine (p.topics.publish_explains arn m).transfer (fun e => ?_) fun e => ?_
  all_goals
    unfold publish
    rcases p.topics.publish arn m with ⟨o | publication, topics⟩
  · rw [Except.error.injEq, Except.error.injEq]
  · exact iff_of_false nofun nofun
  · exact fun _ => recounted_topics
  · exact nofun

theorem headBucket_explains (bucket : String) :
    Explains p.Recounted [if bucket ∈ p.buckets then none else some (QueueStore.missing .headBucket bucket)]
      (p.headBucket bucket, p) := by
  unfold headBucket
  split
  · exact .pass (.done _ _)
  · exact .refuse (Recounted.refl p) _ _

theorem perform_explains (p : Memory) (c : Call) : Explains p.Recounted (p.checks c) (p.perform c) := by
  cases c with
  | queueUrl queue => exact p.onQueues_explains (·.queueUrl queue) (p.queues.queueUrl_explains queue)
  | queueAttributes url => exact p.onQueues_explains (·.queueAttributes url) (p.queues.queueAttributes_explains url)
  | receive url limit wait => exact p.onQueues_explains (·.receive url limit) (p.queues.receive_explains url limit)
  | send url m => exact p.onQueues_explains (·.send url m) (p.queues.send_explains url m)
  | delete url handle => exact p.onQueues_explains (·.delete url handle) (p.queues.delete_explains url handle)
  | purge url => exact p.onQueues_explains (·.purge url) (p.queues.purge_explains url)
  | changeVisibility url handle seconds =>
    exact p.onQueues_explains (·.changeVisibility url handle seconds)
      (p.queues.changeVisibility_explains url handle seconds)
  | createQueue queue attributes =>
    exact p.onQueues_explains (·.createQueue queue attributes) (p.queues.createQueue_explains queue attributes)
  | publish arn m => exact publish_explains arn m
  | subscribe arn queueArn filter =>
    exact p.onTopics_explains (·.subscribe arn queueArn filter) (p.topics.subscribe_explains arn queueArn filter)
  | topicAttributes arn => exact p.onTopics_explains (·.topicAttributes arn) (p.topics.topicAttributes_explains arn)
  | createTopic topic attributes =>
    exact p.onTopics_explains (·.createTopic topic attributes) (p.topics.createTopic_explains topic attributes)
  | headBucket bucket => exact headBucket_explains bucket

/-- A call fails just if one of its checks finds an error, with the first that is found: it is made to fail, asks for
what is not there, sends an ordered queue a message without a group or sets a redrive policy that cannot be read. A call
that fails moves nothing but counters. -/
theorem refused_unmoved (p : Memory) (c : Call) (e : QueueError) :
    ((p.perform c).1 = .error e ↔ p.refusal? c = some e) ∧
      ((p.perform c).1 = .error e → p.Recounted (p.perform c).2) :=
  ⟨(p.perform_explains c).error_iff e, (p.perform_explains c).left e⟩

open QueueStore in
/-- A call for each way to fail, the second and the last after a number was drawn. -/
theorem refused_unmoved_causes :
    let queues : QueueStore := (QueueStore.seed (.create {} "b.fifo") "a" { body := "x" }).2
    let p : Memory := { queues := queues.failOperation .purgeQueue }
    let refused : List (Call × QueueError) := [
      (.purge (urlOf "a"), injected .purgeQueue),
      (.send (urlOf "c") { body := "y" }, missing .sendMessage "c"),
      (.send (urlOf "b.fifo") { body := "y" }, .missingGroup "b.fifo"),
      (.delete (urlOf "a") "h", missing .deleteMessage "h"),
      (.createQueue "c" [(redriveAttribute, "3")], .serialization),
      (.publish "t" { body := "y" }, missing .publish "t")]
    ∀ x ∈ refused, (p.perform x.1).1 = .error x.2 ∧ p.Recounted (p.perform x.1).2 := by
  intro queues p refused x hx
  have hrefused : ∀ x ∈ refused, p.refusal? x.1 = some x.2 := by decide +kernel
  obtain ⟨hiff, hunmoved⟩ := refused_unmoved p x.1 x.2
  have herror := hiff.mpr (hrefused x hx)
  exact ⟨herror, hunmoved herror⟩

end Memory

end DeadLetter
