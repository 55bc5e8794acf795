import DeadLetter.Proofs.Routine.Journal
import DeadLetter.Proofs.Store.Creation

/-!
# Calls in a row

`Memory.performAll` performs calls up to the first failure. `Attempt.Calls x cs a` : an attempt comes to performing the
calls `cs` and returns `a` if none fails, in every world; `Calls.bind` and `Calls.call_bind` compose.

While nothing is made to fail, a call that creates something, subscribes a queue or reads attributes succeeds just if
the provider permits it (`Memory.Permits`). It then changes queues and topics as `Call.onQueue` and `Call.onTopic` say,
and forbids nothing that was permitted (`Memory.Brings`). So `performAll_brings` : what a row of calls that succeeds
leaves behind, and `performAll_of_permits` : a row of permitted calls succeeds. A row in which calls rely on those before
them succeeds step by step (`Succeeds.cons`, `Succeeds.append`, `Succeeds.flatMap`).

A creation leaves settled what it creates (`settled_foldl`), and a subscription is added each time. So
`Call.foldl_onQueue_again` and `Call.foldl_onTopic_again` : what the calls of a row change when they are made again.
-/

namespace DeadLetter

set_option autoImplicit false

open QueueStore

/-- Performs calls in order, up to the first that fails. -/
def Memory.performAll (p : Memory) : List Call → Except QueueError Unit × Memory
  | [] => (.ok (), p)
  | c :: cs =>
    match p.perform c with
    | (.ok _, p) => p.performAll cs
    | (.error e, p) => (.error e, p)

theorem Memory.performAll_append (p : Memory) (cs cs' : List Call) :
    p.performAll (cs ++ cs') =
      match p.performAll cs with
      | (.ok _, p) => p.performAll cs'
      | (.error e, p) => (.error e, p) := by
  induction cs generalizing p with
  | nil => rfl
  | cons c cs ih =>
    rw [List.cons_append, performAll, performAll]
    rcases p.perform c with ⟨o, p'⟩
    cases o with
    | ok v => exact ih p'
    | error e => rfl

namespace Attempt
variable {α β : Type}

/-- In every world, an attempt performs some calls and returns a value if none of them fails. -/
def Calls (x : Attempt α) (cs : List Call) (a : α) : Prop :=
  ∀ w : World, x.result.run w =
    ((w.provider.performAll cs).1.map fun _ => a, { w with provider := (w.provider.performAll cs).2 })

theorem Calls.pure (a : α) : Calls (Pure.pure a) [] a := fun _ => rfl

theorem Calls.bind {x : Attempt α} {f : α → Attempt β} {cs cs' : List Call} {a : α} {b : β} (h : Calls x cs a)
    (h' : Calls (f a) cs' b) : Calls (x >>= f) (cs ++ cs') b := by
  intro w
  rw [run_bind, h w, Memory.performAll_append]
  rcases w.provider.performAll cs with ⟨o, p⟩
  cases o with
  | ok _ => exact h' { w with provider := p }
  | error e => rfl

/-- A call whose replies all lead to the same continuation. -/
theorem Calls.call_bind {c : Call} {f : c.Reply → Attempt β} {cs : List Call} {b : β}
    (h : ∀ p v, (Memory.perform p c).1 = .ok v → Calls (f v) cs b) : Calls (call c >>= f) (c :: cs) b := by
  intro w
  have hrun : (call c).result.run w =
      ((w.provider.perform c).1, { w with provider := (w.provider.perform c).2 }) := rfl
  have hreply := h w.provider
  rw [run_bind, hrun, Memory.performAll]
  generalize w.provider.perform c = ran at hreply ⊢
  obtain ⟨o, p⟩ := ran
  cases o with
  | ok v => exact hreply v rfl { w with provider := p }
  | error e => rfl

end Attempt

/-! ## What calls bring -/

/-- Whether a call creates something, subscribes a queue or reads attributes. -/
def Call.provisions : Call → Bool
  | createQueue .. | queueAttributes _ | createTopic .. | subscribe .. => true
  | _ => false

/-- What a call that succeeds makes of a queue. -/
def Call.onQueue (n : String) (q : Option QueueState) : Call → Option QueueState
  | createQueue name a => if name = n then some (QueueStore.tagged.established (q.getD {}) a) else q
  | _ => q

/-- What a call that succeeds makes of a topic. -/
def Call.onTopic (arn : String) (t : Option TopicState) : Call → Option TopicState
  | createTopic name a =>
    if TopicStore.arnOf name = arn then some (TopicStore.tagged.established (t.getD {}) a) else t
  | subscribe topic queueArn filter =>
    if topic = arn then t.map (TopicStore.subscribed · [⟨queueArn, filter⟩]) else t
  | _ => t

namespace Memory
variable {p p' : Memory}

/-- No call is made to fail. -/
structure Smooth (p : Memory) : Prop where
  operations : p.queues.failingOperations = []
  failing : p.queues.failingQueues = []
  topics : p.topics.failingOperations = []

/-- A call that creates something, subscribes a queue or reads attributes has what it needs. -/
def Permits (p : Memory) : Call → Prop
  | .createQueue _ a => Readable a
  | .queueAttributes url => (p.queues.queues.get? (queueNameOfUrl url)).isSome
  | .createTopic _ _ => True
  | .subscribe arn _ _ => (p.topics.topics.get? arn).isSome
  | _ => False

/-- From `p` to `p'` queues and topics changed as some calls change them. -/
structure Brings (p : Memory) (cs : List Call) (p' : Memory) : Prop where
  queues : ∀ n, p'.queues.queues.get? n = cs.foldl (Call.onQueue n) (p.queues.queues.get? n)
  topics : ∀ arn, p'.topics.topics.get? arn = cs.foldl (Call.onTopic arn) (p.topics.topics.get? arn)
  operations : p'.queues.failingOperations = p.queues.failingOperations
  failing : p'.queues.failingQueues = p.queues.failingQueues
  topicOperations : p'.topics.failingOperations = p.topics.failingOperations
  delivers : p'.delivers = p.delivers

theorem Brings.nil (p : Memory) : p.Brings [] p := ⟨fun _ => rfl, fun _ => rfl, rfl, rfl, rfl, rfl⟩

theorem Brings.append {p'' : Memory} {cs cs' : List Call} (h : p.Brings cs p') (h' : p'.Brings cs' p'') :
    p.Brings (cs ++ cs') p'' where
  queues n := by rw [h'.queues, h.queues, List.foldl_append]
  topics arn := by rw [h'.topics, h.topics, List.foldl_append]
  operations := h'.operations.trans h.operations
  failing := h'.failing.trans h.failing
  topicOperations := h'.topicOperations.trans h.topicOperations
  delivers := h'.delivers.trans h.delivers

theorem Brings.smooth {cs : List Call} (h : p.Brings cs p') (hp : p.Smooth) : p'.Smooth :=
  ⟨h.operations.trans hp.operations, h.failing.trans hp.failing, h.topicOperations.trans hp.topics⟩

theorem Smooth.fails (h : p.Smooth) (op : Operation) (queue : String) : p.queues.fails op queue = false := by
  unfold QueueStore.fails
  rw [h.operations, h.failing]
  rfl

theorem Smooth.notMem (h : p.Smooth) (op : Operation) : op ∉ p.topics.failingOperations := by
  rw [h.topics]
  exact List.not_mem_nil

theorem isSome_onQueue {n : String} {q : Option QueueState} (h : q.isSome) (c : Call) : (c.onQueue n q).isSome := by
  cases c with
  | createQueue name a =>
    show (if name = n then _ else q).isSome
    split
    · rfl
    · exact h
  | _ => exact h

theorem isSome_onTopic {arn : String} {t : Option TopicState} (h : t.isSome) (c : Call) : (c.onTopic arn t).isSome := by
  cases c with
  | createTopic name a =>
    show (if TopicStore.arnOf name = arn then _ else t).isSome
    split
    · rfl
    · exact h
  | subscribe topic queueArn filter =>
    show (if topic = arn then _ else t).isSome
    split
    · rw [Option.isSome_map]
      exact h
    · exact h
  | _ => exact h

theorem Brings.permits {cs : List Call} (h : p.Brings cs p') {c : Call} (hc : p.Permits c) : p'.Permits c := by
  cases c with
  | createQueue name a => exact hc
  | queueAttributes url =>
    show (p'.queues.queues.get? _).isSome
    rw [h.queues]
    exact List.foldlRecOn (motive := fun q : Option QueueState => q.isSome) cs _ hc fun _ hq c _ => isSome_onQueue hq c
  | createTopic name a => trivial
  | subscribe arn queueArn filter =>
    show (p'.topics.topics.get? arn).isSome
    rw [h.topics]
    exact List.foldlRecOn (motive := fun t : Option TopicState => t.isSome) cs _ hc fun _ ht c _ => isSome_onTopic ht c
  | _ => exact hc.elim

theorem onQueues_eq {α : Type} {f : QueueStore → α × QueueStore} {a : α} {s : QueueStore} (h : f p.queues = (a, s)) :
    p.onQueues f = (a, { p with queues := s }) := by
  unfold onQueues
  rw [h]

theorem onTopics_eq {α : Type} {f : TopicStore → α × TopicStore} {a : α} {s : TopicStore} (h : f p.topics = (a, s)) :
    p.onTopics f = (a, { p with topics := s }) := by
  unfold onTopics
  rw [h]

theorem perform_of_permits (hp : p.Smooth) {c : Call} (hc : p.Permits c) :
    ∃ v p', p.perform c = (.ok v, p') ∧ p.Brings [c] p' := by
  cases c with
  | createQueue name a =>
    have hrun := onQueues_eq (f := (·.createQueue name a)) (createQueue_of_readable (hp.fails _ name) hc)
    refine ⟨_, _, hrun, fun n => ?_, fun _ => rfl, rfl, rfl, rfl, rfl⟩
    show (p.queues.queues.put name _).get? n = if name = n then _ else _
    rw [Dict.get?_put]
    by_cases hn : n = name
    · rw [if_pos hn, if_pos hn.symm, hn]
      rfl
    · rw [if_neg hn, if_neg (Ne.symm hn)]
  | queueAttributes url =>
    obtain ⟨s, hs⟩ := Option.isSome_iff_exists.mp (show (p.queues.queues.get? (queueNameOfUrl url)).isSome from hc)
    have hread : p.queues.queueAttributes url =
        (.ok (attributesOf (queueNameOfUrl url) s), p.queues.counted .getQueueAttributes) := by
      rw [queueAttributes_eq, hp.fails, hs]
      rfl
    have hrun := onQueues_eq (f := (·.queueAttributes url)) hread
    exact ⟨_, _, hrun, fun _ => rfl, fun _ => rfl, rfl, rfl, rfl, rfl⟩
  | createTopic name a =>
    have hrun := onTopics_eq (f := (·.createTopic name a)) (TopicStore.createTopic_eq (hp.notMem _) name a)
    refine ⟨_, _, hrun, fun _ => rfl, fun arn => ?_, rfl, rfl, rfl, rfl⟩
    show (p.topics.topics.put (TopicStore.arnOf name) _).get? arn = if TopicStore.arnOf name = arn then _ else _
    rw [Dict.get?_put]
    by_cases harn : arn = TopicStore.arnOf name
    · rw [if_pos harn, if_pos harn.symm, harn]
      rfl
    · rw [if_neg harn, if_neg (Ne.symm harn)]
  | subscribe topic queueArn filter =>
    obtain ⟨t, ht⟩ := Option.isSome_iff_exists.mp (show (p.topics.topics.get? topic).isSome from hc)
    obtain ⟨id, hsubscribe⟩ := TopicStore.subscribe_of_get? (hp.notMem _) ht queueArn filter
    have hrun := onTopics_eq (f := (·.subscribe topic queueArn filter)) hsubscribe
    refine ⟨_, _, hrun, fun _ => rfl, fun arn => ?_, rfl, rfl, rfl, rfl⟩
    show (p.topics.topics.put topic _).get? arn = if topic = arn then _ else _
    rw [Dict.get?_put]
    by_cases harn : arn = topic
    · rw [if_pos harn, if_pos harn.symm, harn, ht]
      rfl
    · rw [if_neg harn, if_neg (Ne.symm harn)]
  | _ => exact hc.elim

theorem permits_of_perform (hp : p.Smooth) {c : Call} (hc : c.provisions = true) {v : c.Reply}
    (h : p.perform c = (.ok v, p')) : p.Permits c := by
  have hreply : (p.perform c).1 = .ok v := by rw [h]
  cases c with
  | createQueue name a =>
    by_contra hnot
    have hfails : (p.queues.createQueue name a).1 = .error .serialization := by
      rw [createQueue_of_not_readable (hp.fails _ name) hnot]
    cases hfails.symm.trans hreply
  | queueAttributes url =>
    show (p.queues.queues.get? (queueNameOfUrl url)).isSome
    cases hs : p.queues.queues.get? (queueNameOfUrl url) with
    | some s => rfl
    | none =>
      have hfails : (p.queues.queueAttributes url).1 =
          .error (missing .getQueueAttributes (queueNameOfUrl url)) := by
        rw [queueAttributes_eq, hp.fails, hs]
        rfl
      cases hfails.symm.trans hreply
  | createTopic name a => trivial
  | subscribe topic queueArn filter =>
    show (p.topics.topics.get? topic).isSome
    cases ht : p.topics.topics.get? topic with
    | some t => rfl
    | none =>
      obtain ⟨e, hsubscribe⟩ := TopicStore.subscribe_of_none (hp.notMem _) ht queueArn filter
      have hfails : (p.topics.subscribe topic queueArn filter).1 = .error e := by rw [hsubscribe]
      cases hfails.symm.trans hreply
  | _ => cases hc

/-! ## Rows of calls -/

/-- A row of calls that succeeds changes queues and topics as its calls do, and all of them are permitted after it. -/
theorem performAll_brings (hp : p.Smooth) {cs : List Call} (hcs : ∀ c ∈ cs, c.provisions = true)
    (h : p.performAll cs = (.ok (), p')) : p.Brings cs p' ∧ ∀ c ∈ cs, p'.Permits c := by
  induction cs generalizing p with
  | nil =>
    cases h
    exact ⟨.nil _, nofun⟩
  | cons c cs ih =>
    obtain ⟨hc, hcs⟩ := List.forall_mem_cons.mp hcs
    rw [performAll] at h
    cases hperform : p.perform c with
    | mk o p₁ =>
      rw [hperform] at h
      cases o with
      | error e => cases h
      | ok v =>
        have hpermits := permits_of_perform hp hc hperform
        obtain ⟨v', p₂, hperform', hbrings⟩ := perform_of_permits hp hpermits
        rw [hperform] at hperform'
        cases hperform'
        obtain ⟨hrest, hall⟩ := ih (hbrings.smooth hp) hcs h
        have hboth := hbrings.append hrest
        refine ⟨hboth, fun c' hc' => ?_⟩
        rcases List.mem_cons.mp hc' with rfl | hc'
        · exact hboth.permits hpermits
        · exact hall c' hc'

/-- A row of calls succeeds. -/
def Succeeds (p : Memory) (cs : List Call) : Prop := ∃ p', p.performAll cs = (.ok (), p') ∧ p.Brings cs p'

theorem Succeeds.nil (p : Memory) : p.Succeeds [] := ⟨p, rfl, .nil p⟩

theorem Succeeds.append {cs cs' : List Call} (h : p.Succeeds cs) (h' : ∀ p', p.Brings cs p' → p'.Succeeds cs') :
    p.Succeeds (cs ++ cs') := by
  obtain ⟨p₁, hrun, hbrings⟩ := h
  obtain ⟨p₂, hrun', hbrings'⟩ := h' p₁ hbrings
  refine ⟨p₂, ?_, hbrings.append hbrings'⟩
  rw [performAll_append, hrun]
  exact hrun'

theorem Succeeds.cons (hp : p.Smooth) {c : Call} {cs : List Call} (hc : p.Permits c)
    (h : ∀ p', p.Brings [c] p' → p'.Succeeds cs) : p.Succeeds (c :: cs) := by
  show p.Succeeds ([c] ++ cs)
  refine .append ?_ h
  obtain ⟨v, p', hperform, hbrings⟩ := perform_of_permits hp hc
  refine ⟨p', ?_, hbrings⟩
  rw [performAll, hperform]
  rfl

/-- Rows of calls succeed one after the other if each does whatever rows were before it. -/
theorem Succeeds.flatMap {α : Type} {as : List α} {f : α → List Call}
    (h : ∀ a ∈ as, ∀ cs p', p.Brings cs p' → p'.Succeeds (f a)) : p.Succeeds (as.flatMap f) := by
  induction as generalizing p with
  | nil => exact .nil p
  | cons a as ih =>
    obtain ⟨ha, has⟩ := List.forall_mem_cons.mp h
    rw [List.flatMap_cons]
    refine (ha [] p (.nil p)).append fun p₁ hbrings => ih fun a' ha' cs p' hbrings' => ?_
    exact has a' ha' _ p' (hbrings.append hbrings')

theorem performAll_of_permits (hp : p.Smooth) {cs : List Call} (hcs : ∀ c ∈ cs, p.Permits c) : p.Succeeds cs := by
  induction cs generalizing p with
  | nil => exact .nil p
  | cons c cs ih =>
    obtain ⟨hc, hcs⟩ := List.forall_mem_cons.mp hcs
    refine .cons hp hc fun p' hbrings => ih (hbrings.smooth hp) fun c' hc' => ?_
    exact hbrings.permits (hcs c' hc')

end Memory

/-! ## Rows of calls made again -/

/-- What a step leaves as it is after it, and keeps so, a row of steps leaves as it is. -/
theorem settled_foldl {σ κ : Type} {step : σ → κ → σ} (still : κ → Prop)
    (hagain : ∀ s c, still c → step (step s c) c = step s c)
    (hafter : ∀ s c c', still c → step s c = s → step (step s c') c = step s c') (s : σ) (cs : List κ) :
    ∀ c ∈ cs, still c → step (cs.foldl step s) c = cs.foldl step s := by
  -- a step that changes nothing goes on changing nothing
  have hkeeps : ∀ (cs : List κ) (s : σ) (c : κ), still c → step s c = s →
      step (cs.foldl step s) c = cs.foldl step s := by
    intro cs
    induction cs with
    | nil => exact fun s c _ h => h
    | cons c' cs ih => exact fun s c hc h => ih (step s c') c hc (hafter s c c' hc h)
  induction cs generalizing s with
  | nil => exact nofun
  | cons c cs ih =>
    intro c' hc' hstill
    rcases List.mem_cons.mp hc' with rfl | hc'
    · exact hkeeps cs (step s c') c' hstill (hagain s c' hstill)
    · exact ih (step s c) c' hc' hstill

theorem foldl_of_still {σ κ : Type} {step : σ → κ → σ} {s : σ} {cs : List κ} (h : ∀ c ∈ cs, step s c = s) :
    cs.foldl step s = s := by
  induction cs with
  | nil => rfl
  | cons c cs ih =>
    obtain ⟨hc, hcs⟩ := List.forall_mem_cons.mp h
    rw [List.foldl_cons, hc, ih hcs]

namespace Call

/-- What a call subscribes to a topic. -/
def subscription? (arn : String) : Call → Option Subscription
  | subscribe topic queueArn filter => if topic = arn then some ⟨queueArn, filter⟩ else none
  | _ => none

theorem topic_ne_of_subscription? {arn topic queueArn : String} {filter : Option String}
    (h : (subscribe topic queueArn filter).subscription? arn = none) : topic ≠ arn := by
  rintro rfl
  rw [subscription?, if_pos rfl] at h
  cases h

theorem eq_subscribe_of_subscription? {arn : String} {c : Call} {x : Subscription} (h : c.subscription? arn = some x) :
    c = .subscribe arn x.queueArn x.filter := by
  cases c with
  | subscribe topic queueArn filter =>
    by_cases htopic : topic = arn
    · rw [subscription?, if_pos htopic] at h
      cases h
      rw [htopic]
    · rw [subscription?, if_neg htopic] at h
      cases h
  | _ => cases h

theorem onQueue_again (n : String) (q : Option QueueState) (c : Call) :
    onQueue n (onQueue n q c) c = onQueue n q c := by
  cases c with
  | createQueue name a =>
    by_cases hn : name = n
    · simp only [onQueue, if_pos hn, Option.getD_some, Tagged.established_self]
    · simp only [onQueue, if_neg hn]
  | _ => rfl

theorem onQueue_after {n : String} {q : Option QueueState} {c : Call} (h : onQueue n q c = q) (c' : Call) :
    onQueue n (onQueue n q c') c = onQueue n q c' := by
  cases c with
  | createQueue name a =>
    by_cases hn : name = n
    · simp only [onQueue, if_pos hn] at h ⊢
      cases c' with
      | createQueue name' a' =>
        by_cases hn' : name' = n
        · have hsettled : QueueStore.tagged.established (q.getD {}) a = q.getD {} := by
            conv_rhs => rw [← h]
            rfl
          simp only [if_pos hn', Option.getD_some, Tagged.established_after _ hsettled]
        · simp only [if_neg hn', h]
      | _ => exact h
    · simp only [onQueue, if_neg hn]
  | _ => rfl

/-- Calls made again leave queues as they are. -/
theorem foldl_onQueue_again (n : String) (q : Option QueueState) (cs : List Call) :
    cs.foldl (onQueue n) (cs.foldl (onQueue n) q) = cs.foldl (onQueue n) q :=
  foldl_of_still fun c hc => settled_foldl (fun _ => True) (fun q c _ => onQueue_again n q c)
    (fun _ _ c' _ h => onQueue_after h c') q cs c hc trivial

theorem onTopic_again {arn : String} {c : Call} (hc : c.subscription? arn = none) (t : Option TopicState) :
    onTopic arn (onTopic arn t c) c = onTopic arn t c := by
  cases c with
  | createTopic name a =>
    by_cases hn : TopicStore.arnOf name = arn
    · simp only [onTopic, if_pos hn, Option.getD_some, Tagged.established_self]
    · simp only [onTopic, if_neg hn]
  | subscribe topic queueArn filter => simp only [onTopic, if_neg (topic_ne_of_subscription? hc)]
  | _ => rfl

theorem onTopic_after {arn : String} {t : Option TopicState} {c : Call} (hc : c.subscription? arn = none)
    (h : onTopic arn t c = t) (c' : Call) : onTopic arn (onTopic arn t c') c = onTopic arn t c' := by
  cases c with
  | createTopic name a =>
    by_cases hn : TopicStore.arnOf name = arn
    · have hsettled : TopicStore.tagged.established (t.getD {}) a = t.getD {} := by
        rw [onTopic, if_pos hn] at h
        conv_rhs => rw [← h]
        rfl
      simp only [onTopic, if_pos hn] at h ⊢
      cases c' with
      | createTopic name' a' =>
        by_cases hn' : TopicStore.arnOf name' = arn
        · simp only [if_pos hn', Option.getD_some, Tagged.established_after _ hsettled]
        · simp only [if_neg hn', h]
      | subscribe topic queueArn filter =>
        by_cases ht : topic = arn
        · rw [← h]
          simp only [if_pos ht, Option.map_some, Option.getD_some, TopicStore.established_subscribed,
            Tagged.established_self]
        · simp only [if_neg ht, h]
      | _ => exact h
    · simp only [onTopic, if_neg hn]
  | subscribe topic queueArn filter => simp only [onTopic, if_neg (topic_ne_of_subscription? hc)]
  | _ => rfl

/-- Where all calls but subscriptions leave a topic as it is, calls subscribe to it what they subscribe. -/
theorem foldl_onTopic_of_still {arn : String} {t : Option TopicState} {cs : List Call}
    (h : ∀ c ∈ cs, c.subscription? arn = none → onTopic arn t c = t) :
    cs.foldl (onTopic arn) t = t.map (TopicStore.subscribed · (cs.filterMap (subscription? arn))) := by
  induction cs generalizing t with
  | nil =>
    cases t with
    | none => rfl
    | some t => exact congrArg some (TopicStore.subscribed_nil t).symm
  | cons c cs ih =>
    obtain ⟨hc, hcs⟩ := List.forall_mem_cons.mp h
    have hnext := ih (t := onTopic arn t c) fun c' hc' hnone => onTopic_after hnone (hcs c' hc' hnone) c
    rw [List.foldl_cons, hnext]
    cases hx : c.subscription? arn with
    | none => rw [hc hx, List.filterMap_cons_none hx]
    | some x =>
      have hstep : onTopic arn t c = t.map (TopicStore.subscribed · [x]) := by
        rw [eq_subscribe_of_subscription? hx, onTopic, if_pos rfl]
      rw [hstep, List.filterMap_cons_some hx, Option.map_map]
      refine congrArg (t.map ·) (funext fun t => ?_)
      exact (TopicStore.subscribed_append t [x] _).symm

/-- Calls made again subscribe to a topic what they subscribe, once more, and leave it as it is otherwise. -/
theorem foldl_onTopic_again (arn : String) (t : Option TopicState) (cs : List Call) :
    cs.foldl (onTopic arn) (cs.foldl (onTopic arn) t) =
      (cs.foldl (onTopic arn) t).map (TopicStore.subscribed · (cs.filterMap (subscription? arn))) :=
  foldl_onTopic_of_still (settled_foldl (subscription? arn · = none) (fun t _ hc => onTopic_again hc t)
    (fun _ _ c' hc h => onTopic_after hc h c') t cs)

end Call

end DeadLetter
