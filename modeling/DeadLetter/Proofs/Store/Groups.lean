import DeadLetter.Proofs.Provider.Reachable
import DeadLetter.Proofs.Store.Batches
import DeadLetter.Proofs.Store.Topics

/-!
# Groups of messages

`QueueStore.Grouped` : every message on an ordered queue has a group. All calls on queues keep this (`perform_grouped`):
those that put a message on a queue check it, and the others add none. What is received from an ordered queue then has a
group too (`Grouped.of_receive`). Publishing does not check. It keeps groups where the message has one or no subscription
that wants it leads to an ordered queue (`publish_grouped`).
-/

namespace DeadLetter

set_option autoImplicit false

open QueueStore

/-! ## Ordered queues by their addresses -/

theorem isFifo_addressed (name : String) : isFifo (addressed name) = isFifo name := by
  have hurl : urlOf name = "http://localhost:4566/" ++ account ++ .singleton '/' ++ name := rfl
  have hlast : addressed name = queueNameOfUrl name := by
    rw [addressed, queueNameOfUrl, hurl, Text.afterLast_append, queueNameOfUrl]
  rw [hlast, isFifo_queueNameOfUrl]

theorem isFifo_nameOfArn_arnOf (name : String) : isFifo (nameOfArn (arnOf name)) = isFifo name := by
  have harn : arnOf name = "arn:aws:sqs:eu-west-2:" ++ account ++ .singleton ':' ++ name := rfl
  have hlast : nameOfArn (arnOf name) = nameOfArn name := by
    rw [nameOfArn, harn, Text.afterLast_append, nameOfArn]
  rw [hlast, isFifo_nameOfArn]

/-! ## Queues -/

/-- Every message of a queue has a group. -/
def QueueState.Grouped (q : QueueState) : Prop := ∀ x ∈ q.messages, x.group.isSome

namespace QueueState.Grouped
variable {q q' : QueueState}

theorem empty : QueueState.Grouped {} := nofun

theorem iff_parts : q.Grouped ↔ (∀ x ∈ q.visible, x.group.isSome) ∧ ∀ e ∈ q.inFlight, e.2.group.isSome := by
  unfold QueueState.Grouped QueueState.messages
  rw [List.forall_mem_append, List.forall_mem_map]

theorem congr (hv : q'.visible = q.visible) (hf : q'.inFlight = q.inFlight) (h : q.Grouped) : q'.Grouped := by
  rw [iff_parts, hv, hf]
  exact iff_parts.mp h

theorem appended (h : q.Grouped) {m : Stored} (hm : m.group.isSome) : (appended q m).Grouped := by
  obtain ⟨hv, hf⟩ := iff_parts.mp h
  exact iff_parts.mpr ⟨List.forall_mem_append.mpr ⟨hv, List.forall_mem_singleton.mpr hm⟩, hf⟩

theorem removed (h : q.Grouped) (handle : String) : (removed q handle).Grouped := by
  obtain ⟨hv, hf⟩ := iff_parts.mp h
  exact iff_parts.mpr ⟨hv, fun e he => hf e (List.mem_of_mem_eraseP he)⟩

theorem released (h : q.Grouped) {handle : String} {m : Stored} (hm : q.inFlight.lookup handle = some m) :
    (released q handle m).Grouped := by
  have hgroup := (iff_parts.mp h).2 (handle, m) ((perm_of_lookup hm).symm.subset List.mem_cons_self)
  exact (h.appended hgroup).removed handle

theorem expired (h : q.Grouped) : QueueState.Grouped { q with visible := q.messages, inFlight := [] } :=
  iff_parts.mpr ⟨h, nofun⟩

end QueueState.Grouped

/-! ## Stores -/

namespace QueueStore
variable {s t : QueueStore} {url : String}

/-- Every message on an ordered queue has a group. -/
def Grouped (s : QueueStore) : Prop := ∀ n, isFifo n = true → (s.state n).Grouped

theorem Grouped.quiet (h : s.Grouped) (hq : Quiet s t) : t.Grouped := by
  intro n hn
  rw [hq.state]
  exact h n hn

theorem Grouped.puts (h : s.Grouped) {queue : String} {q : QueueState} (hp : Puts s t queue q)
    (hq : isFifo queue = true → (s.state queue).Grouped → q.Grouped) : t.Grouped := by
  intro n hn
  rw [state_put hp.queues]
  split
  · next heq =>
    subst heq
    exact hq hn (h n hn)
  · exact h n hn

theorem Takes.grouped {queue : String} {limit : Nat} {batch : List (String × Stored)}
    (ht : Takes s t queue limit batch) (h : (s.state queue).Grouped) : ∀ e ∈ batch, e.2.group.isSome := by
  intro e he
  have hmem : e.2 ∈ batch.map (·.2) := List.mem_map_of_mem he
  rw [ht.front] at hmem
  obtain ⟨x, hx, hdelivered⟩ := List.mem_map.mp hmem
  rw [← hdelivered]
  exact (QueueState.Grouped.iff_parts.mp h).1 x (List.mem_of_mem_take hx)

theorem Grouped.takes (h : s.Grouped) {queue : String} {limit : Nat} {batch : List (String × Stored)}
    (ht : Takes s t queue limit batch) : t.Grouped := by
  intro n hn
  by_cases hqueue : n = queue
  · subst hqueue
    obtain ⟨hv, hf⟩ := QueueState.Grouped.iff_parts.mp (h n hn)
    rw [ht.self, QueueState.Grouped.iff_parts]
    exact ⟨fun x hx => hv x (List.mem_of_mem_drop hx), List.forall_mem_append.mpr ⟨hf, ht.grouped (h n hn)⟩⟩
  · rw [state, ht.others n hqueue]
    exact h n hn

theorem Grouped.receive (h : s.Grouped) (url : String) (limit : Nat) : (s.receive url limit).2.Grouped := by
  rcases receive_cases s url limit with ⟨e, t, heq, hquiet⟩ | ⟨_, batch, t, heq, htakes⟩
  · rw [heq]
    exact h.quiet hquiet
  · rw [heq]
    exact h.takes htakes

theorem group_deliver (m : Stored) (handle : String) : (m.deliver handle).group = m.group := by
  have hother : groupAttribute ≠ deliveryCountAttribute := by decide
  unfold Received.group Stored.deliver
  cases m.group with
  | none => simp [Dict.get?_put, hother, Dict.get?]
  | some g => simp [Dict.get?_put]

theorem Grouped.of_receive (h : s.Grouped) (hfifo : isFifo (queueNameOfUrl url) = true) {limit : Nat}
    {ms : List Received} (hr : (s.receive url limit).1 = .ok ms) : ∀ m ∈ ms, m.group.isSome := by
  rcases receive_cases s url limit with ⟨e, t, heq, _⟩ | ⟨_, batch, t, heq, htakes⟩
  · rw [heq] at hr
    cases hr
  · rw [heq] at hr
    cases hr
    refine List.forall_mem_map.mpr fun e he => ?_
    rw [group_deliver]
    exact htakes.grouped (h _ hfifo) e he

theorem Grouped.send (h : s.Grouped) (url : String) (m : Outbound) : (s.send url m).2.Grouped := by
  rcases send_cases s url m with ⟨_, e, t, heq, hquiet⟩ | ⟨htaken, q, t, hq, heq, _, hput⟩
  · rw [heq]
    exact h.quiet hquiet
  · rw [heq]
    refine h.puts hput fun hfifo hgrouped => ?_
    rw [state_of_get? hq] at hgrouped
    refine hgrouped.appended (Option.isSome_iff_ne_none.mpr fun hnone => htaken ?_)
    exact Or.inr (Or.inl ⟨hfifo, hnone⟩)

/-- What has a group where one is needed is not refused for want of one. -/
theorem send_ne_missingGroup {m : Outbound} (hm : isFifo (queueNameOfUrl url) = true → m.group.isSome)
    (queue : String) : (s.send url m).1 ≠ .error (.missingGroup queue) := by
  have hgroup : ¬ (isFifo (queueNameOfUrl url) = true ∧ m.group = none) := by
    rintro ⟨hfifo, hnone⟩
    have hsome := hm hfifo
    rw [hnone] at hsome
    cases hsome
  unfold QueueStore.send attempt locate
  dsimp only
  rw [if_neg hgroup]
  split
  · nofun
  · split <;> nofun

theorem Grouped.delete (h : s.Grouped) (url handle : String) : (s.delete url handle).2.Grouped := by
  rcases delete_cases s url handle with ⟨_, e, t, heq, hquiet⟩ | ⟨_, q, m, t, hq, _, heq, hput⟩
  · rw [heq]
    exact h.quiet hquiet
  · rw [heq]
    refine h.puts hput fun _ hgrouped => ?_
    rw [state_of_get? hq] at hgrouped
    exact hgrouped.removed handle

theorem Grouped.purge (h : s.Grouped) (url : String) : (s.purge url).2.Grouped := by
  rcases purge_cases s url with ⟨e, t, heq, hquiet⟩ | ⟨q, t, _, heq, hput⟩
  · rw [heq]
    exact h.quiet hquiet
  · rw [heq]
    exact h.puts hput fun _ _ => nofun

theorem Grouped.changeVisibility (h : s.Grouped) (url handle : String) (seconds : Int) :
    (s.changeVisibility url handle seconds).2.Grouped := by
  rcases changeVisibility_cases s url handle seconds with ⟨e, t, heq, hquiet⟩ | ⟨q, m, t, hq, hm, heq, hput⟩
  · rw [heq]
    exact h.quiet hquiet
  · rw [heq]
    refine h.puts hput fun _ hgrouped => ?_
    rw [state_of_get? hq] at hgrouped
    split
    · exact hgrouped.released hm
    · exact hgrouped

theorem Grouped.createQueue (h : s.Grouped) (queue : String) (attributes : Dict String) :
    (s.createQueue queue attributes).2.Grouped := by
  rcases createQueue_cases s queue attributes with ⟨e, t, heq, hquiet⟩ | ⟨q, t, heq, hput, hv, hf⟩
  · rw [heq]
    exact h.quiet hquiet
  · rw [heq]
    exact h.puts hput fun _ hgrouped => hgrouped.congr hv hf

theorem Grouped.expire (h : s.Grouped) (queue : String) : (s.expire queue).Grouped := by
  cases hq : s.queues.get? queue with
  | none =>
    rw [expire_of_none hq]
    exact h
  | some q =>
    refine h.puts (puts_expire hq) fun _ hgrouped => ?_
    rw [state_of_get? hq] at hgrouped
    exact hgrouped.expired

/-- Putting a message on a queue from outside is not checked. -/
theorem Grouped.seed (h : s.Grouped) {queue : String} {m : Outbound} (hm : isFifo queue = true → m.group.isSome) :
    (s.seed queue m).2.Grouped :=
  h.puts (puts_seed s queue m) fun hfifo hgrouped => hgrouped.appended (hm hfifo)

end QueueStore

/-! ## The provider -/

/-- Whether a call is one on queues. -/
def Call.asksQueues : Call → Bool
  | publish .. | subscribe .. | topicAttributes _ | createTopic .. | headBucket _ => false
  | _ => true

namespace Memory
variable {p : Memory}

theorem perform_grouped (h : p.queues.Grouped) {c : Call} (hc : c.asksQueues = true) :
    (p.perform c).2.queues.Grouped := by
  cases c with
  | queueUrl queue => exact h.quiet (quiet_queueUrl p.queues queue)
  | queueAttributes url => exact h.quiet (quiet_queueAttributes p.queues url)
  | receive url limit wait => exact h.receive url limit
  | send url m => exact h.send url m
  | delete url handle => exact h.delete url handle
  | purge url => exact h.purge url
  | changeVisibility url handle seconds => exact h.changeVisibility url handle seconds
  | createQueue queue attributes => exact h.createQueue queue attributes
  | _ => cases hc

theorem topics_perform {c : Call} (hc : c.asksQueues = true) : (p.perform c).2.topics = p.topics := by
  cases c with
  | publish | subscribe | topicAttributes | createTopic | headBucket => cases hc
  | _ => rfl

theorem publish_grouped (h : p.queues.Grouped) {arn : String} {m : Outbound}
    (hm : ∀ x ∈ (p.topics.state arn).subscriptions, x.accepts m.attributes = true →
      isFifo (nameOfArn x.queueArn) = true → m.group.isSome) : (p.publish arn m).2.queues.Grouped := by
  unfold publish
  split
  · exact h
  · next publication topics hpublish =>
    dsimp only
    split
    · -- the deliveries are made one after the other
      refine List.foldlRecOn publication.queues _ h fun s hs queue hqueue => hs.seed fun hfifo => ?_
      rw [TopicStore.queues_of_publish hpublish] at hqueue
      obtain ⟨x, hx, rfl⟩ := List.mem_map.mp hqueue
      obtain ⟨hx, haccepts⟩ := List.mem_filter.mp hx
      exact hm x hx haccepts hfifo
    · exact h

theorem subscriptions_publish (p : Memory) (arn : String) (m : Outbound) (topic : String) :
    ((p.publish arn m).2.topics.state topic).subscriptions = (p.topics.state topic).subscriptions := by
  rw [← TopicStore.subscriptions_publish p.topics arn m topic]
  unfold publish
  rcases p.topics.publish arn m with ⟨o, topics⟩
  cases o <;> rfl

end Memory

end DeadLetter
