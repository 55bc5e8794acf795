import DeadLetter.Proofs.Routine.Journal
import DeadLetter.Proofs.Service.Surplus
import DeadLetter.Service.Sweep

/-!
# No message is lost

A `Job` is one use of the service, the listener or a topic, or a change of the provider from outside. Jobs in any order
never lower the number of copies of a payload, over all queues, by more than the messages with that payload that a
handler accepted and the listener deleted: `copies_le_runAll`.
-/

namespace DeadLetter

set_option autoImplicit false

open QueueStore

theorem everywhere_eq (queue : String) : everywhere queue = true := rfl

/-! ## Retries -/

theorem QueueHandle.retry_copies_le (q : QueueHandle) (p : NumberPolicy) {w : World} (hs : Sound w.provider.queues)
    (x : Payload) :
    w.provider.queues.copies everywhere x ≤ ((q.retry p).result.run w).2.provider.queues.copies everywhere x := by
  let I (st : Transfer) (w' : World) : Prop :=
    Sound w'.provider.queues ∧ st.hand.Bound w'.provider.queues ∧
      w.provider.queues.copies everywhere x + st.hand.surplus x ≤ w'.provider.queues.copies everywhere x
  have hstep (st : Transfer) (w' : World) (a : Action) (st' : Transfer) (hi : I st w')
      (h : (Transfer.protocol Lore.anything q.slot).step st a (w'.perform a).1 st') : I st' (w'.perform a).2 := by
    obtain ⟨hs', hb, hle⟩ := hi
    have hw : w'.perform a = ((w'.perform a).1, (w'.perform a).2) := rfl
    have hcopies := h.copies_le (fun _ _ => everywhere_eq _) hs' hb hw x
    exact ⟨(World.perform_turns w' a).sound hs', h.bound hs' hb hw, by omega⟩
  have hfollows := q.retry_follows (Lore.anything_covers q) p
  obtain ⟨st, _, _, _, hle⟩ := hfollows.run (I := I) (fun _ _ a _ => Lore.anything_admits a _) hstep
    ⟨hs, trivial, Nat.le_refl _⟩
  omega

theorem retryEach_copies_le (p : NumberPolicy) (queues : List QueueHandle) {w : World} (hs : Sound w.provider.queues)
    (x : Payload) :
    w.provider.queues.copies everywhere x ≤ ((retryEach p queues).run w).2.provider.queues.copies everywhere x := by
  induction queues generalizing w with
  | nil => exact Nat.le_refl _
  | cons q queues ih =>
    rw [retryEach, Routine.run_bind, Routine.run_bind]
    exact Nat.le_trans (q.retry_copies_le p hs x) (ih ((Routine.run_turns _ w).sound hs))

theorem Registry.sweep_copies_le (r : Registry) (p : NumberPolicy) {w : World} (hs : Sound w.provider.queues)
    (x : Payload) :
    w.provider.queues.copies everywhere x ≤ ((r.sweep p).run w).2.provider.queues.copies everywhere x := by
  rw [sweep, Routine.run_bind, Routine.run_bind]
  exact retryEach_copies_le p r.queues hs x

theorem Routine.Keeps.copies_le {α : Type} {r : Routine α} (h : r.Keeps) {w : World} (hs : Sound w.provider.queues)
    (x : Payload) : w.provider.queues.copies everywhere x ≤ (r.run w).2.provider.queues.copies everywhere x :=
  (h.shifts w).copies_le hs everywhere x

/-! ## Listeners -/

namespace Listener

/-- The messages of a batch that the handler accepts and whose deletion a journal confirms. -/
def confirmed (l : Listener) (batch : List Received) (journal : List Entry) : List Received :=
  batch.filter fun m => l.accepts m ∧ journal.any (·.confirms m.handle)

/-- The messages that the handler accepts and the listener deletes in a poll. -/
def deleted (l : Listener) (w : World) : List Received :=
  match (l.pollOnce.result.run w).1 with
  | .ok batch => l.confirmed batch (l.pollOnce.result.journal w)
  | .error _ => []

theorem countP_confirmed_mono (l : Listener) (batch : List Received) (journal journal' : List Entry)
    (h : ∀ e ∈ journal, e ∈ journal') (x : Payload) :
    (l.confirmed batch journal).countP (·.payload = x) ≤ (l.confirmed batch journal').countP (·.payload = x) := by
  unfold confirmed
  rw [List.countP_filter, List.countP_filter]
  apply List.countP_mono_left
  intro m _ hm
  simp only [decide_eq_true_eq, Bool.and_eq_true, List.any_eq_true] at hm ⊢
  obtain ⟨hx, ha, e, he, hc⟩ := hm
  exact ⟨hx, ha, e, h e he, hc⟩

/-- An accepted message whose deletion is confirmed early in the journal counts besides the rest of the batch. -/
theorem le_countP_confirmed_cons (l : Listener) {m : Received} (ha : l.accepts m = true) (ms : List Received)
    (journal journal' : List Entry) (x : Payload) :
    (l.confirmed ms (journal ++ journal')).countP (·.payload = x) +
        (if m.payload = x ∧ journal.any (·.confirms m.handle) then 1 else 0) ≤
      (l.confirmed (m :: ms) (journal ++ journal')).countP (·.payload = x) := by
  unfold confirmed
  cases hc : journal.any (·.confirms m.handle) with
  | true =>
    rw [List.filter_cons_of_pos (by simp [ha, List.any_append, hc]), List.countP_cons]
    simp only [and_true, decide_eq_true_eq]
    exact Nat.le_refl _
  | false =>
    simp only [Bool.false_eq_true, and_false, if_false, Nat.add_zero]
    exact ((List.sublist_cons_self m ms).filter _).countP_le

/-- Deleting one message of a batch loses that message only, and only if the deletion is confirmed. -/
theorem delete_copies_le {url handle : String} {x : Payload} {w : World} (hs : Sound w.provider.queues)
    (hb : Bound w.provider.queues (queueNameOfUrl url) handle x) (y : Payload) :
    w.provider.queues.copies everywhere y ≤
      ((Attempt.call (.delete url handle)).result.run w).2.provider.queues.copies everywhere y +
        if x = y ∧ ((Attempt.call (.delete url handle)).result.journal w).any (·.confirms handle) then 1 else 0 := by
  show _ ≤ (w.perform (.call (.delete url handle))).2.provider.queues.copies everywhere y +
    if x = y ∧ [Entry.mk (.call (.delete url handle)) (w.perform (.call (.delete url handle))).1].any
      (·.confirms handle) then 1 else 0
  rcases hr : w.perform (.call (.delete url handle)) with ⟨o, w'⟩
  cases o with
  | error e =>
    rw [copies_congr (World.quiet_of_delete hr).queues]
    exact Nat.le_add_right _ _
  | ok u =>
    have hcopies := copies_deleted hs hb (World.delete_of_perform hr) everywhere y
    simp only [everywhere, true_and] at hcopies
    simp only [List.any_cons, List.any_nil, Entry.confirms, decide_true, Bool.or_false, and_true]
    omega

theorem process_copies_le (l : Listener) (url : String) (batch : List Received) {w : World}
    (hs : Sound w.provider.queues)
    (hb : ∀ m ∈ batch, Bound w.provider.queues (queueNameOfUrl url) m.handle m.payload) (x : Payload) :
    w.provider.queues.copies everywhere x ≤
      ((l.process url batch).run w).2.provider.queues.copies everywhere x +
        (l.confirmed batch ((l.process url batch).journal w)).countP (·.payload = x) := by
  induction batch generalizing w with
  | nil => exact Nat.le_add_right _ _
  | cons m ms ih =>
    -- the rest of the batch, after any routine for the first message
    have hrest {α : Type} (r : Routine α) :=
      ih ((r.run_turns w).sound hs) fun m' hm' => (r.run_turns w).bound (hb m' (List.mem_cons_of_mem _ hm'))
    have hmono {α : Type} (r : Routine α) :=
      l.countP_confirmed_mono ms _ (r.journal w ++ (l.process url ms).journal (r.run w).2)
        (fun e he => List.mem_append_right _ he) x
    unfold process
    split
    · next ha =>
      rw [Routine.run_bind, Routine.journal_bind]
      beta_reduce
      have hone := delete_copies_le hs (hb m List.mem_cons_self) x
      have hms := hrest (Attempt.call (.delete url m.handle)).result
      have hjournal := hmono (Attempt.call (.delete url m.handle)).result
      have hcons := l.le_countP_confirmed_cons ha ms ((Attempt.call (.delete url m.handle)).result.journal w)
        ((l.process url ms).journal ((Attempt.call (.delete url m.handle)).result.run w).2) x
      omega
    · next ha =>
      rw [Routine.run_bind, Routine.journal_bind]
      beta_reduce
      have hone := (l.queue.hideFailed_keeps l.backoff m).copies_le hs x
      have hms := hrest (l.queue.hideFailed l.backoff m)
      have hjournal := hmono (l.queue.hideFailed l.backoff m)
      have hcons (journal : List Entry) : l.confirmed (m :: ms) journal = l.confirmed ms journal := by
        unfold confirmed
        rw [List.filter_cons_of_neg (by simp [ha])]
      rw [hcons]
      omega

theorem pollOnce_run (l : Listener) (w : World) :
    l.pollOnce.result.run w = match l.receive.result.run w with
      | (.ok (url, batch), w') => (.ok batch, ((l.process url batch).run w').2)
      | (.error e, w') => (.error e, w') := by
  unfold pollOnce
  rw [Attempt.run_bind]
  rcases l.receive.result.run w with ⟨o, w'⟩
  cases o with
  | error e => rfl
  | ok received =>
    obtain ⟨url, batch⟩ := received
    refine (Attempt.run_bind _ _ w').trans ?_
    rw [show (Attempt.result (ExceptT.lift (l.process url batch))).run w' =
      (.ok ((l.process url batch).run w').1, ((l.process url batch).run w').2) from Routine.run_bind _ _ w']
    rfl

theorem pollOnce_journal (l : Listener) (w : World) :
    l.pollOnce.result.journal w = l.receive.result.journal w ++ match l.receive.result.run w with
      | (.ok (url, batch), w') => (l.process url batch).journal w'
      | (.error _, _) => [] := by
  unfold pollOnce
  rw [Attempt.journal_bind]
  rcases l.receive.result.run w with ⟨o, w'⟩
  cases o with
  | error e => rfl
  | ok received =>
    obtain ⟨url, batch⟩ := received
    refine congrArg _ ((Attempt.journal_bind _ _ w').trans ?_)
    rw [show (Attempt.result (ExceptT.lift (l.process url batch))).run w' =
      (.ok ((l.process url batch).run w').1, ((l.process url batch).run w').2) from Routine.run_bind _ _ w']
    rw [show (Attempt.result (ExceptT.lift (l.process url batch))).journal w' =
      (l.process url batch).journal w' ++ [] from Routine.journal_bind _ _ w']
    exact (List.append_nil _).trans (List.append_nil _)

theorem receive_keeps (l : Listener) : l.receive.result.Keeps := by
  refine .attempt l.queue.url_looks.keeps fun url => ?_
  exact .attempt (.call rfl) fun batch => .pure _

theorem receive_bound (l : Listener) {w w' : World} {url : String} {batch : List Received}
    (hs : Sound w.provider.queues) (h : l.receive.result.run w = (.ok (url, batch), w')) :
    ∀ m ∈ batch, Bound w'.provider.queues (queueNameOfUrl url) m.handle m.payload := by
  have hs' := (l.queue.url.result.run_turns w).sound hs
  unfold receive at h
  rw [Attempt.run_bind] at h
  rcases hurl : l.queue.url.result.run w with ⟨o, u⟩
  rw [hurl] at h hs'
  cases o with
  | error e => cases h
  | ok url' =>
    dsimp only at h
    rw [Attempt.run_bind] at h
    rcases hcall : (Attempt.call (.receiveUpTo url' l.limit l.wait)).result.run u with ⟨o, v⟩
    rw [hcall] at h
    cases o with
    | error e => cases h
    | ok batch' =>
      cases h
      exact QueueStore.receive_bound hs' (World.receive_of_perform hcall)

theorem pollOnce_copies_le (l : Listener) {w : World} (hs : Sound w.provider.queues) (x : Payload) :
    w.provider.queues.copies everywhere x ≤
      (l.pollOnce.result.run w).2.provider.queues.copies everywhere x + (l.deleted w).countP (·.payload = x) := by
  have hreceive := l.receive_keeps.copies_le hs x
  have hs' := (l.receive.result.run_turns w).sound hs
  unfold deleted
  rw [pollOnce_journal, pollOnce_run]
  rcases h : l.receive.result.run w with ⟨o, w'⟩
  rw [h] at hreceive hs'
  cases o with
  | error e => exact Nat.le_trans hreceive (Nat.le_add_right _ _)
  | ok received =>
    obtain ⟨url, batch⟩ := received
    dsimp only at hreceive hs' ⊢
    have hprocess := l.process_copies_le url batch hs' (l.receive_bound hs h) x
    have hmono := l.countP_confirmed_mono batch _ (l.receive.result.journal w ++ (l.process url batch).journal w')
      (fun e he => List.mem_append_right _ he) x
    omega

end Listener

/-! ## Jobs in any order -/

/-- A use of the service, of a listener or of a topic, or a change of the provider from outside. -/
inductive Job where
  | retry (q : QueueHandle) (p : NumberPolicy)
  | retryAll (r : Registry) (p : NumberPolicy)
  | sweep (r : Registry) (p : NumberPolicy)
  | inspect (q : QueueHandle) (p : NumberPolicy) (limit : Int)
  | queueHealth (q : QueueHandle)
  | topicHealth (t : TopicHandle)
  | bucketHealth (b : BucketHandle)
  | health (r : Registry)
  | poll (l : Listener)
  | publish (t : TopicHandle) (eventType body : String) (attributes : Attributes) (group : Option String)
  | control (c : Memory.Control)

namespace Job

/-- The world after a job. -/
def run (w : World) : Job → World
  | retry q p => ((q.retry p).result.run w).2
  | retryAll r p => ((r.retryAll p).run w).2
  | sweep r p => ((r.sweep p).run w).2
  | inspect q p limit => ((q.inspect p limit).result.run w).2
  | queueHealth q => (q.health.run w).2
  | topicHealth t => (t.health.run w).2
  | bucketHealth b => (b.health.run w).2
  | health r => (r.health.run w).2
  | poll l => (l.pollOnce.result.run w).2
  | publish t eventType body attributes group => ((t.publish eventType body attributes group).result.run w).2
  | control c => { w with provider := c.apply w.provider }

/-- The messages that a job deletes because a handler accepted them. -/
def deleted (w : World) : Job → List Received
  | poll l => l.deleted w
  | _ => []

/-- The world after jobs in order. -/
def runAll : World → List Job → World
  | w, [] => w
  | w, j :: js => runAll (j.run w) js

/-- The messages that jobs in order delete because a handler accepted them. -/
def deletedAll : World → List Job → List Received
  | _, [] => []
  | w, j :: js => j.deleted w ++ deletedAll (j.run w) js

theorem run_reachable {w : World} (hw : w.provider.Reachable) (j : Job) : (j.run w).provider.Reachable := by
  cases j with
  | control c => exact .control c hw
  | _ => exact Routine.run_reachable _ hw

theorem copies_le_run {w : World} (hs : Sound w.provider.queues) (j : Job) (x : Payload) :
    w.provider.queues.copies everywhere x ≤
      (j.run w).provider.queues.copies everywhere x + (j.deleted w).countP (·.payload = x) := by
  cases j with
  | retry q p => exact Nat.le_add_right_of_le (q.retry_copies_le p hs x)
  | retryAll r p => exact Nat.le_add_right_of_le (retryEach_copies_le p r.queues hs x)
  | sweep r p => exact Nat.le_add_right_of_le (r.sweep_copies_le p hs x)
  | inspect q p limit => exact Nat.le_add_right_of_le ((q.inspect_keeps p limit).copies_le hs x)
  | queueHealth q => exact Nat.le_add_right_of_le (q.health_looks.keeps.copies_le hs x)
  | topicHealth t => exact Nat.le_add_right_of_le (t.health_looks.keeps.copies_le hs x)
  | bucketHealth b => exact Nat.le_add_right_of_le (b.health_looks.keeps.copies_le hs x)
  | health r => exact Nat.le_add_right_of_le (r.health_looks.keeps.copies_le hs x)
  | poll l => exact l.pollOnce_copies_le hs x
  | publish t eventType body attributes group =>
    exact Nat.le_add_right_of_le ((t.publish_keeps eventType body attributes group).copies_le hs x)
  | control c => exact Nat.le_add_right_of_le ((Memory.Control.apply_shifts w.provider c).copies_le hs everywhere x)

/-- No message is lost: jobs in any order lower the number of copies of a payload by no more than the messages with that
payload that a handler accepted and the listener deleted. -/
theorem copies_le_runAll {w : World} (hw : w.provider.Reachable) (js : List Job) (x : Payload) :
    w.provider.queues.copies everywhere x ≤
      (runAll w js).provider.queues.copies everywhere x + (deletedAll w js).countP (·.payload = x) := by
  induction js generalizing w with
  | nil => exact Nat.le_add_right _ _
  | cons j js ih =>
    have hone := j.copies_le_run hw.sound x
    have hrest := ih (j.run_reachable hw)
    rw [deletedAll, runAll, List.countP_append]
    omega

/-- A retry that fails on its way, a sweep that moves two messages, and a poll that deletes one of these and returns the
other. -/
theorem copies_le_runAll_seeded :
    let p := Memory.Control.apply (Memory.Control.apply {} (.createWithRedrive "a" "a-dlq" 3))
      (.seed "a-dlq" { body := "x" })
    let w : World := { provider := Memory.Control.apply p (.seed "a-dlq" { body := "y" }) }
    let q : QueueHandle := { id := "a", name := "a", client := 0, dlq := some ⟨"a-dlq", 1⟩ }
    let js : List Job := [.control (.failOperation .sendMessage), .retry q .double, .control .clearFailures,
      .control (.expire "a-dlq"), .sweep { queues := [q] } .double,
      .poll { queue := q, accepts := fun m => m.body = "x", backoff := ⟨[]⟩ }]
    w.provider.Reachable ∧
      (∀ x, w.provider.queues.copies everywhere x ≤
        (runAll w js).provider.queues.copies everywhere x + (deletedAll w js).countP (·.payload = x)) ∧
      w.provider.queues.copies everywhere ⟨"x", []⟩ = 1 ∧ (deletedAll w js).map (·.body) = ["x"] ∧
      (runAll w js).provider.queues.copies everywhere ⟨"x", []⟩ = 0 ∧
      ((runAll w js).provider.queues.state "a").visible.map (·.body) = ["y"] := by
  intro p w q js
  have hp : p.Reachable :=
    .control (.seed "a-dlq" { body := "x" }) (.control (.createWithRedrive "a" "a-dlq" 3) (.start true))
  have hw : w.provider.Reachable := .control (.seed "a-dlq" { body := "y" }) hp
  exact ⟨hw, copies_le_runAll hw js, by decide +kernel, by decide +kernel, by decide +kernel, by decide +kernel⟩

end Job

end DeadLetter
