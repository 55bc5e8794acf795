import DeadLetter.Provider.QueueStore

/-!
# What the calls on queues do

A call that fails, and one that only looks, leaves all queues as they were (`Quiet`); any other acts on the one queue
that its URL addresses (`Puts`). `queueUrl_eq` and `queueAttributes_eq` : what is answered, from the failures and that
queue alone; `receiveOne_cases`, `send_cases`, `delete_cases`, `purge_cases`, `changeVisibility_cases`,
`createQueue_cases` : when a call succeeds and what the queue becomes. No call changes which calls fail (`Kept`).
-/

namespace DeadLetter

set_option autoImplicit false

/-- The message after one more delivery. -/
def Stored.delivered (m : Stored) : Stored := { m with deliveries := m.deliveries + 1 }

namespace QueueStore

variable {s t u : QueueStore}

/-- A queue. One that is not there is like one without messages. -/
def state (s : QueueStore) (queue : String) : QueueState := (s.queues.get? queue).getD {}

/-- From `s` to `t` the same calls fail, and numbers are only drawn. -/
structure Kept (s t : QueueStore) : Prop where
  operations : t.failingOperations = s.failingOperations
  failing : t.failingQueues = s.failingQueues
  lastId : s.lastId ≤ t.lastId

/-- From `s` to `t` no queue changed. -/
structure Quiet (s t : QueueStore) : Prop extends Kept s t where
  queues : t.queues = s.queues

/-- From `s` to `t` one queue got another state and no other queue changed. -/
structure Puts (s t : QueueStore) (queue : String) (q : QueueState) : Prop extends Kept s t where
  queues : t.queues = s.queues.put queue q

theorem Kept.refl (s : QueueStore) : Kept s s := ⟨rfl, rfl, Nat.le_refl _⟩

theorem Kept.trans (h : Kept s t) (h' : Kept t u) : Kept s u :=
  ⟨h'.operations.trans h.operations, h'.failing.trans h.failing, Nat.le_trans h.lastId h'.lastId⟩

theorem Quiet.refl (s : QueueStore) : Quiet s s := ⟨Kept.refl s, rfl⟩

theorem Quiet.trans (h : Quiet s t) (h' : Quiet t u) : Quiet s u :=
  ⟨h.toKept.trans h'.toKept, h'.queues.trans h.queues⟩

theorem Quiet.puts {queue : String} {q : QueueState} (h : Quiet s t) (h' : Puts t u queue q) : Puts s u queue q :=
  ⟨h.toKept.trans h'.toKept, by rw [h'.queues, h.queues]⟩

theorem Puts.get? {queue : String} {q : QueueState} (h : Puts s t queue q) (n : String) :
    t.queues.get? n = if n = queue then some q else s.queues.get? n := by
  rw [h.queues, Dict.get?_put]

theorem Puts.get?_self {queue : String} {q : QueueState} (h : Puts s t queue q) :
    t.queues.get? queue = some q := by
  rw [h.get?, if_pos rfl]

theorem Puts.get?_of_ne {queue n : String} {q : QueueState} (h : Puts s t queue q) (hn : n ≠ queue) :
    t.queues.get? n = s.queues.get? n := by
  rw [h.get?, if_neg hn]

theorem Puts.isSome_get? {queue : String} {q q' : QueueState} (h : Puts s t queue q')
    (hq : s.queues.get? queue = some q) (n : String) : (t.queues.get? n).isSome = (s.queues.get? n).isSome := by
  rw [h.get?]
  split
  · next hn => rw [hn, hq, Option.isSome_some, Option.isSome_some]
  · rfl

theorem state_of_get? {queue : String} {q : QueueState} (h : s.queues.get? queue = some q) : s.state queue = q := by
  rw [state, h, Option.getD_some]

theorem state_of_none {queue : String} (h : s.queues.get? queue = none) : s.state queue = {} := by
  rw [state, h, Option.getD_none]

theorem state_congr (h : t.queues = s.queues) (queue : String) : t.state queue = s.state queue := by
  rw [state, state, h]

theorem state_put {queue : String} {q : QueueState} (h : t.queues = s.queues.put queue q) (n : String) :
    t.state n = if n = queue then q else s.state n := by
  rw [state, state, h, Dict.get?_put]
  split <;> rfl

theorem Quiet.state (h : Quiet s t) (queue : String) : t.state queue = s.state queue := state_congr h.queues queue

theorem Puts.state_self {queue : String} {q : QueueState} (h : Puts s t queue q) : t.state queue = q := by
  rw [state_put h.queues, if_pos rfl]

theorem Puts.state_of_ne {queue n : String} {q : QueueState} (h : Puts s t queue q) (hn : n ≠ queue) :
    t.state n = s.state n := by
  rw [state_put h.queues, if_neg hn]

/-! ## The parts of calls -/

theorem not_fails (hoperations : s.failingOperations = []) (hfailing : s.failingQueues = []) (op : Operation)
    (queue : String) : s.fails op queue = false := by
  simp [QueueStore.fails, hoperations, hfailing]

theorem quiet_counted (s : QueueStore) (op : Operation) : Quiet s (s.counted op) := ⟨⟨rfl, rfl, Nat.le_refl _⟩, rfl⟩

theorem quiet_drawn (s : QueueStore) : Quiet s s.drawn := ⟨⟨rfl, rfl, Nat.le_succ _⟩, rfl⟩

theorem puts_withQueue (s : QueueStore) (queue : String) (q : QueueState) : Puts s (s.withQueue queue q) queue q :=
  ⟨⟨rfl, rfl, Nat.le_refl _⟩, rfl⟩

section Parts
variable {α : Type} {op : Operation} {queue : String}

theorem attempt_of_fails (h : s.fails op queue = true) (go : QueueStore → Except QueueError α × QueueStore) :
    s.attempt op queue go = (.error (injected op), s.counted op) := by
  rw [attempt, if_pos h]

theorem attempt_of_not_fails (h : s.fails op queue = false) (go : QueueStore → Except QueueError α × QueueStore) :
    s.attempt op queue go = go (s.counted op) := by
  rw [attempt, if_neg (by rw [h]; exact Bool.false_ne_true)]

theorem locate_of_none (h : s.queues.get? queue = none) (go : QueueState → Except QueueError α × QueueStore) :
    s.locate op queue go = (.error (missing op queue), s) := by
  rw [locate, h]

theorem locate_of_some {q : QueueState} (h : s.queues.get? queue = some q)
    (go : QueueState → Except QueueError α × QueueStore) : s.locate op queue go = go q := by
  rw [locate, h]

/-- A call on a queue fails, leaving all queues as they were, or goes on with the queue. -/
theorem attempt_locate_cases (s : QueueStore) (op : Operation) (queue : String)
    (go : QueueStore → QueueState → Except QueueError α × QueueStore) :
    ((s.fails op queue = true ∨ s.queues.get? queue = none) ∧
      ∃ e t, (s.attempt op queue fun s => s.locate op queue (go s)) = (.error e, t) ∧ Quiet s t) ∨
    (s.fails op queue = false ∧ ∃ q, s.queues.get? queue = some q ∧
      (s.attempt op queue fun s => s.locate op queue (go s)) = go (s.counted op) q) := by
  have hc := quiet_counted s op
  cases hf : s.fails op queue with
  | true =>
    rw [attempt_of_fails hf]
    exact Or.inl ⟨Or.inl rfl, _, _, rfl, hc⟩
  | false =>
    rw [attempt_of_not_fails hf]
    cases hq : s.queues.get? queue with
    | none =>
      rw [locate_of_none (hc.queues ▸ hq)]
      exact Or.inl ⟨Or.inr rfl, _, _, rfl, hc⟩
    | some q =>
      rw [locate_of_some (hc.queues ▸ hq)]
      exact Or.inr ⟨rfl, q, rfl, rfl⟩

theorem locateInFlight_of_none {q : QueueState} {handle : String} (h : q.inFlight.lookup handle = none)
    (go : Stored → List (String × Stored) → Except QueueError α × QueueStore) :
    s.locateInFlight op q handle go = (.error (missing op handle), s) := by
  rw [locateInFlight, h]

theorem locateInFlight_of_some {q : QueueState} {handle : String} {m : Stored}
    (h : q.inFlight.lookup handle = some m)
    (go : Stored → List (String × Stored) → Except QueueError α × QueueStore) :
    s.locateInFlight op q handle go = go m (q.inFlight.eraseP (·.1 == handle)) := by
  rw [locateInFlight, h]

end Parts

/-! ## Looking -/

theorem queueUrl_eq (s : QueueStore) (queue : String) :
    s.queueUrl queue =
      (if s.fails .getQueueUrl queue then .error (injected .getQueueUrl)
        else if (s.queues.get? queue).isSome then .ok (urlOf queue) else .error (missing .getQueueUrl queue),
        s.counted .getQueueUrl) := by
  have hs : (s.counted .getQueueUrl).queues = s.queues := rfl
  unfold queueUrl
  cases hf : s.fails .getQueueUrl queue with
  | true => rw [attempt_of_fails hf, if_pos rfl]
  | false =>
    rw [attempt_of_not_fails hf, if_neg Bool.false_ne_true]
    cases hq : s.queues.get? queue with
    | none => rw [locate_of_none (hs ▸ hq)]; rfl
    | some q => rw [locate_of_some (hs ▸ hq)]; rfl

theorem quiet_queueUrl (s : QueueStore) (queue : String) : Quiet s (s.queueUrl queue).2 := by
  rw [queueUrl_eq]
  exact quiet_counted s _

theorem eq_urlOf_of_queueUrl {queue u : String} (h : (s.queueUrl queue).1 = .ok u) : u = urlOf queue := by
  rw [queueUrl_eq] at h
  dsimp only at h
  split at h
  · cases h
  · split at h <;> cases h
    rfl

def attributesOf (queue : String) (q : QueueState) : QueueAttributes where
  arn := some (arnOf queue)
  messages := q.reportedCount.getD (min q.visible.length maxCount)
  inFlight := min q.inFlight.length maxCount
  redrive := q.redrive

theorem queueAttributes_eq (s : QueueStore) (url : String) :
    s.queueAttributes url =
      (if s.fails .getQueueAttributes (queueNameOfUrl url) then .error (injected .getQueueAttributes)
        else match s.queues.get? (queueNameOfUrl url) with
          | some q => .ok (attributesOf (queueNameOfUrl url) q)
          | none => .error (missing .getQueueAttributes (queueNameOfUrl url)),
        s.counted .getQueueAttributes) := by
  have hs : (s.counted .getQueueAttributes).queues = s.queues := rfl
  unfold queueAttributes
  generalize queueNameOfUrl url = queue
  dsimp only
  cases hf : s.fails .getQueueAttributes queue with
  | true => rw [attempt_of_fails hf, if_pos rfl]
  | false =>
    rw [attempt_of_not_fails hf, if_neg Bool.false_ne_true]
    cases hq : s.queues.get? queue with
    | none => rw [locate_of_none (hs ▸ hq)]
    | some q => rw [locate_of_some (hs ▸ hq)]; rfl

theorem quiet_queueAttributes (s : QueueStore) (url : String) : Quiet s (s.queueAttributes url).2 := by
  rw [queueAttributes_eq]
  exact quiet_counted s _

/-! ## Receiving -/

theorem take_zero (s : QueueStore) (queue : String) : s.take queue 0 = (.ok [], s) := rfl

theorem take_of_none {queue : String} (h : s.queues.get? queue = none) (limit : Nat) :
    s.take queue (limit + 1) = (.error (missing .receiveMessage queue), s.drawn) := by
  have hs : s.drawn.queues = s.queues := rfl
  rw [take, locate_of_none (hs ▸ h)]

theorem take_of_nil {queue : String} {q : QueueState} (h : s.queues.get? queue = some q) (hv : q.visible = [])
    (limit : Nat) : s.take queue (limit + 1) = (.ok [], s.drawn) := by
  have hs : s.drawn.queues = s.queues := rfl
  rw [take, locate_of_some (hs ▸ h)]
  dsimp only
  rw [hv]

/-- The handle that the next delivery of a message gets. -/
def nextHandle (s : QueueStore) (queue : String) (m : Stored) : String := handleOf queue m.id (s.lastId + 1)

def taken (q : QueueState) (rest : List Stored) (handle : String) (m : Stored) : QueueState :=
  { q with visible := rest, inFlight := q.inFlight ++ [(handle, m.delivered)] }

theorem take_of_cons {queue : String} {q : QueueState} {m : Stored} {rest : List Stored}
    (h : s.queues.get? queue = some q) (hv : q.visible = m :: rest) (limit : Nat) :
    s.take queue (limit + 1) =
      let handle := s.nextHandle queue m
      let r := (s.drawn.withQueue queue (taken q rest handle m)).take queue limit
      (r.1.map (m.delivered.deliver handle :: ·), r.2) := by
  have hs : s.drawn.queues = s.queues := rfl
  rw [take, locate_of_some (hs ▸ h)]
  dsimp only
  rw [hv]
  rfl

/-- A receive of one message fails, finds nothing, or takes the first message. -/
theorem receiveOne_cases (s : QueueStore) (url : String) :
    ((s.fails .receiveMessage (queueNameOfUrl url) = true ∨ s.queues.get? (queueNameOfUrl url) = none) ∧
      ∃ e t, s.receive url 1 = (.error e, t) ∧ Quiet s t) ∨
    (s.fails .receiveMessage (queueNameOfUrl url) = false ∧ ∃ q, s.queues.get? (queueNameOfUrl url) = some q ∧
      ((q.visible = [] ∧ ∃ t, s.receive url 1 = (.ok [], t) ∧ Quiet s t) ∨
        ∃ m rest t, q.visible = m :: rest ∧
          s.receive url 1 = (.ok [m.delivered.deliver (s.nextHandle (queueNameOfUrl url) m)], t) ∧
          t.lastId = s.lastId + 1 ∧
          Puts s t (queueNameOfUrl url) (taken q rest (s.nextHandle (queueNameOfUrl url) m) m))) := by
  unfold receive
  generalize queueNameOfUrl url = queue
  dsimp only
  cases hf : s.fails .receiveMessage queue with
  | true =>
    rw [attempt_of_fails hf]
    exact Or.inl ⟨Or.inl rfl, _, _, rfl, quiet_counted s _⟩
  | false =>
    have hc := quiet_counted s .receiveMessage
    have hd := hc.trans (quiet_drawn _)
    rw [attempt_of_not_fails hf]
    cases hq : s.queues.get? queue with
    | none =>
      rw [take_of_none (hc.queues ▸ hq)]
      exact Or.inl ⟨Or.inr rfl, _, _, rfl, hd⟩
    | some q =>
      refine Or.inr ⟨rfl, q, rfl, ?_⟩
      cases hv : q.visible with
      | nil =>
        rw [take_of_nil (hc.queues ▸ hq) hv]
        exact Or.inl ⟨rfl, _, rfl, hd⟩
      | cons m rest =>
        rw [take_of_cons (hc.queues ▸ hq) hv]
        exact Or.inr ⟨m, rest, _, rfl, rfl, rfl, hd.puts (puts_withQueue _ _ _)⟩

theorem quiet_of_receive_error {url : String} {e : QueueError} (h : s.receive url 1 = (.error e, t)) : Quiet s t := by
  rcases receiveOne_cases s url with ⟨_, e', t', heq, hq⟩ | ⟨_, q, _, ⟨_, t', heq, _⟩ | ⟨x, rest, t', _, heq, _⟩⟩ <;>
    rw [heq] at h <;> cases h
  exact hq

theorem quiet_of_receive_nil {url : String} (h : s.receive url 1 = (.ok [], t)) : Quiet s t := by
  rcases receiveOne_cases s url with ⟨_, e', t', heq, _⟩ | ⟨_, q, _, ⟨_, t', heq, hq⟩ | ⟨x, rest, t', _, heq, _⟩⟩ <;>
    rw [heq] at h <;> cases h
  exact hq

theorem puts_of_receive_cons {url : String} {m : Received} {ms : List Received}
    (h : s.receive url 1 = (.ok (m :: ms), t)) :
    ∃ q x rest, s.queues.get? (queueNameOfUrl url) = some q ∧ q.visible = x :: rest ∧
      m = x.delivered.deliver (s.nextHandle (queueNameOfUrl url) x) ∧ t.lastId = s.lastId + 1 ∧
      Puts s t (queueNameOfUrl url) (taken q rest (s.nextHandle (queueNameOfUrl url) x) x) := by
  rcases receiveOne_cases s url with
    ⟨_, e', t', heq, _⟩ | ⟨_, q, hq, ⟨_, t', heq, _⟩ | ⟨x, rest, t', hv, heq, hid, hp⟩⟩ <;>
    rw [heq] at h <;> cases h
  exact ⟨q, x, rest, hq, hv, rfl, hid, hp⟩

/-! ## Sending -/

def appended (q : QueueState) (m : Stored) : QueueState := { q with visible := q.visible ++ [m] }

/-- Whether a queue does not take a message. -/
def Refuses (s : QueueStore) (queue : String) (group : Option String) : Prop :=
  s.fails .sendMessage queue = true ∨ (isFifo queue ∧ group = none) ∨ s.queues.get? queue = none

theorem send_cases (s : QueueStore) (url : String) (m : Outbound) :
    (s.Refuses (queueNameOfUrl url) m.group ∧ ∃ e t, s.send url m = (.error e, t) ∧ Quiet s t) ∨
    (¬ s.Refuses (queueNameOfUrl url) m.group ∧ ∃ q t, s.queues.get? (queueNameOfUrl url) = some q ∧
      s.send url m = (.ok (messageId (s.lastId + 1)), t) ∧ t.lastId = s.lastId + 1 ∧
      Puts s t (queueNameOfUrl url) (appended q (m.store (messageId (s.lastId + 1))))) := by
  unfold send Refuses
  generalize queueNameOfUrl url = queue
  dsimp only
  cases hf : s.fails .sendMessage queue with
  | true =>
    rw [attempt_of_fails hf]
    exact Or.inl ⟨Or.inl rfl, _, _, rfl, quiet_counted s _⟩
  | false =>
    have hc := quiet_counted s .sendMessage
    have hd := hc.trans (quiet_drawn _)
    rw [attempt_of_not_fails hf]
    by_cases hg : isFifo queue ∧ m.group = none
    · rw [if_pos hg]
      exact Or.inl ⟨Or.inr (Or.inl hg), _, _, rfl, hc⟩
    · rw [if_neg hg]
      cases hq : s.queues.get? queue with
      | none =>
        rw [locate_of_none (hd.queues ▸ hq)]
        exact Or.inl ⟨Or.inr (Or.inr rfl), _, _, rfl, hd⟩
      | some q =>
        rw [locate_of_some (hd.queues ▸ hq)]
        refine Or.inr ⟨?_, q, _, rfl, rfl, rfl, hd.puts (puts_withQueue _ _ _)⟩
        rintro (h | h | h)
        · exact Bool.false_ne_true h
        · exact hg h
        · cases h

theorem send_of_failing (h : .sendMessage ∈ s.failingOperations) (url : String) (m : Outbound) :
    s.send url m = (.error (injected .sendMessage), s.counted .sendMessage) := by
  have hf : s.fails .sendMessage (queueNameOfUrl url) = true := by simp [QueueStore.fails, h]
  rw [send, attempt_of_fails hf]

theorem quiet_of_send_error {url : String} {m : Outbound} {e : QueueError} (h : s.send url m = (.error e, t)) :
    Quiet s t := by
  rcases send_cases s url m with ⟨_, e', t', heq, hq⟩ | ⟨_, q, t', _, heq, _⟩ <;> rw [heq] at h <;> cases h
  exact hq

theorem puts_of_send_ok {url id : String} {m : Outbound} (h : s.send url m = (.ok id, t)) :
    ∃ q, s.queues.get? (queueNameOfUrl url) = some q ∧ id = messageId (s.lastId + 1) ∧ t.lastId = s.lastId + 1 ∧
      Puts s t (queueNameOfUrl url) (appended q (m.store id)) := by
  rcases send_cases s url m with ⟨_, e', t', heq, _⟩ | ⟨_, q, t', hq, heq, hid, hp⟩ <;> rw [heq] at h <;> cases h
  exact ⟨q, hq, rfl, hid, hp⟩

/-! ## Deleting and hiding -/

def removed (q : QueueState) (handle : String) : QueueState :=
  { q with inFlight := q.inFlight.eraseP (·.1 == handle) }

theorem delete_cases (s : QueueStore) (url handle : String) :
    ((s.fails .deleteMessage (queueNameOfUrl url) = true ∨
        ∀ q, s.queues.get? (queueNameOfUrl url) = some q → q.inFlight.lookup handle = none) ∧
      ∃ e t, s.delete url handle = (.error e, t) ∧ Quiet s t) ∨
    (s.fails .deleteMessage (queueNameOfUrl url) = false ∧ ∃ q m t,
      s.queues.get? (queueNameOfUrl url) = some q ∧ q.inFlight.lookup handle = some m ∧
      s.delete url handle = (.ok (), t) ∧ Puts s t (queueNameOfUrl url) (removed q handle)) := by
  unfold delete
  generalize queueNameOfUrl url = queue
  have hc := quiet_counted s .deleteMessage
  rcases attempt_locate_cases s .deleteMessage queue fun s q => s.locateInFlight .deleteMessage q handle
    fun _ others => (.ok (), s.withQueue queue { q with inFlight := others }) with
    ⟨hrefused, e, t, heq, hquiet⟩ | ⟨hf, q, hq, heq⟩
  · refine Or.inl ⟨hrefused.imp_right fun hnone q hq => ?_, e, t, heq, hquiet⟩
    rw [hnone] at hq
    cases hq
  · cases hm : q.inFlight.lookup handle with
    | none =>
      rw [locateInFlight_of_none hm] at heq
      refine Or.inl ⟨Or.inr fun q' hq' => ?_, _, _, heq, hc⟩
      rw [hq] at hq'
      cases hq'
      exact hm
    | some m =>
      rw [locateInFlight_of_some hm] at heq
      exact Or.inr ⟨hf, q, m, _, hq, hm, heq, hc.puts (puts_withQueue _ _ _)⟩

theorem quiet_of_delete_error {url handle : String} {e : QueueError} (h : s.delete url handle = (.error e, t)) :
    Quiet s t := by
  rcases delete_cases s url handle with ⟨_, e', t', heq, hq⟩ | ⟨_, q, m, t', _, _, heq, _⟩ <;> rw [heq] at h <;> cases h
  exact hq

theorem puts_of_delete_ok {url handle : String} (h : s.delete url handle = (.ok (), t)) :
    ∃ q m, s.queues.get? (queueNameOfUrl url) = some q ∧ q.inFlight.lookup handle = some m ∧
      Puts s t (queueNameOfUrl url) (removed q handle) := by
  rcases delete_cases s url handle with ⟨_, e', t', heq, _⟩ | ⟨_, q, m, t', hq, hm, heq, hp⟩ <;>
    rw [heq] at h <;> cases h
  exact ⟨q, m, hq, hm, hp⟩

def emptied (q : QueueState) : QueueState := { q with visible := [], inFlight := [] }

theorem purge_cases (s : QueueStore) (url : String) :
    (∃ e t, s.purge url = (.error e, t) ∧ Quiet s t) ∨
    ∃ q t, s.queues.get? (queueNameOfUrl url) = some q ∧ s.purge url = (.ok (), t) ∧
      Puts s t (queueNameOfUrl url) (emptied q) := by
  unfold purge
  generalize queueNameOfUrl url = queue
  rcases attempt_locate_cases s .purgeQueue queue fun s q =>
    (.ok (), s.withQueue queue { q with visible := [], inFlight := [] }) with
    ⟨_, e, t, heq, hquiet⟩ | ⟨_, q, hq, heq⟩
  · exact Or.inl ⟨e, t, heq, hquiet⟩
  · exact Or.inr ⟨q, _, hq, heq, (quiet_counted s .purgeQueue).puts (puts_withQueue _ _ _)⟩

/-- A queue on which the message in flight under a handle is visible again. -/
def released (q : QueueState) (handle : String) (m : Stored) : QueueState :=
  { q with visible := q.visible ++ [m], inFlight := q.inFlight.eraseP (·.1 == handle) }

theorem changeVisibility_cases (s : QueueStore) (url handle : String) (seconds : Int) :
    (∃ e t, s.changeVisibility url handle seconds = (.error e, t) ∧ Quiet s t) ∨
    ∃ q m t, s.queues.get? (queueNameOfUrl url) = some q ∧ q.inFlight.lookup handle = some m ∧
      s.changeVisibility url handle seconds = (.ok (), t) ∧
      Puts s t (queueNameOfUrl url) (if seconds = 0 then released q handle m else q) := by
  unfold changeVisibility
  generalize queueNameOfUrl url = queue
  rcases attempt_locate_cases s .changeMessageVisibility queue fun s q =>
    s.locateInFlight .changeMessageVisibility q handle fun m others =>
      let q := if seconds = 0 then { q with visible := q.visible ++ [m], inFlight := others } else q
      (.ok (), { s.withQueue queue q with visibilityChanges := s.visibilityChanges ++ [⟨queue, handle, seconds⟩] }) with
    ⟨_, e, t, heq, hquiet⟩ | ⟨_, q, hq, heq⟩
  · exact Or.inl ⟨e, t, heq, hquiet⟩
  · cases hm : q.inFlight.lookup handle with
    | none =>
      rw [locateInFlight_of_none hm] at heq
      exact Or.inl ⟨_, _, heq, quiet_counted s _⟩
    | some m =>
      rw [locateInFlight_of_some hm] at heq
      exact Or.inr ⟨q, m, _, hq, hm, heq, ⟨⟨rfl, rfl, Nat.le_refl _⟩, rfl⟩⟩

/-- What is in flight can be hidden while nothing is made to fail, and that is recorded. -/
theorem changeVisibility_of_lookup {url : String} (hf : s.fails .changeMessageVisibility (queueNameOfUrl url) = false)
    {q : QueueState} (hq : s.queues.get? (queueNameOfUrl url) = some q) {handle : String} {m : Stored}
    (hm : q.inFlight.lookup handle = some m) (seconds : Int) :
    ∃ t, s.changeVisibility url handle seconds = (.ok (), t) ∧
      Puts s t (queueNameOfUrl url) (if seconds = 0 then released q handle m else q) ∧
      t.visibilityChanges = s.visibilityChanges ++ [⟨queueNameOfUrl url, handle, seconds⟩] := by
  have hc := quiet_counted s .changeMessageVisibility
  rw [changeVisibility, attempt_of_not_fails hf, locate_of_some (hc.queues ▸ hq), locateInFlight_of_some hm]
  exact ⟨_, rfl, ⟨⟨rfl, rfl, Nat.le_refl _⟩, rfl⟩, rfl⟩

/-! ## Creating -/

theorem createQueue_cases (s : QueueStore) (queue : String) (attributes : Dict String) :
    (∃ e t, s.createQueue queue attributes = (.error e, t) ∧ Quiet s t) ∨
    ∃ q t, s.createQueue queue attributes = (.ok (urlOf queue), t) ∧ Puts s t queue q ∧
      q.visible = (s.state queue).visible ∧ q.inFlight = (s.state queue).inFlight := by
  unfold createQueue
  cases hf : s.fails .createQueue queue with
  | true =>
    rw [attempt_of_fails hf]
    exact Or.inl ⟨_, _, rfl, quiet_counted s _⟩
  | false =>
    have hc := quiet_counted s .createQueue
    rw [attempt_of_not_fails hf]
    dsimp only
    split
    · refine Or.inr ⟨_, _, rfl, hc.puts (puts_withQueue _ _ _), ?_, ?_⟩ <;> rw [hc.queues] <;> split <;> rfl
    · split
      · refine Or.inr ⟨_, _, rfl, hc.puts (puts_withQueue _ _ _), ?_, ?_⟩ <;> rw [hc.queues] <;> split <;> rfl
      · exact Or.inl ⟨_, _, rfl, hc⟩

end QueueStore

end DeadLetter
