import DeadLetter.Proofs.Deliveries
import DeadLetter.Proofs.Service.Answered
import DeadLetter.Service.Retry

/-!
# Messages that fail again and again

A `Round` for a message of a queue: it is received, hidden as failed, and its time passes. While nothing is made to fail
(`QueueHandle.Ready`) a round hides the message for the time that the policy picks for one more delivery, records that
time, and leaves the message waiting for the next round (`Ready.round`), so `Rounds` go through the times of the policy
in order (`Ready.rounds`). `backoff_follows_deliveries` : the deliveries of a message are numbered from one, its rounds
start with the first time, and a message that a retry sends again starts anew.
-/

namespace DeadLetter

set_option autoImplicit false

open QueueStore

/-! ## Receives in a row -/

/-- Receives from a queue, one after the other, with all that they deliver. -/
inductive Receives (url : String) : World → List Received → World → Prop
  | done (w : World) : Receives url w [] w
  | receive {w w' w'' : World} {limit : Nat} {wait : Int} {batch ms : List Received} (low : 0 < limit)
    (high : limit ≤ Call.maxBatch) (first : (Attempt.call (.receive url limit wait)).result.run w = (.ok batch, w'))
    (rest : Receives url w' ms w'') : Receives url w (batch ++ ms) w''

/-- Receives in a row take one batch. -/
theorem Receives.takes {url : String} {w w' : World} {ms : List Received} (h : Receives url w ms w') :
    ∃ limit batch t, ms = handedOut batch ∧ w' = w.withQueues t ∧
      Takes w.provider.queues t (queueNameOfUrl url) limit batch := by
  induction h with
  | done w => exact ⟨0, [], _, rfl, rfl, takes_refl _ _⟩
  | @receive w w' w'' limit wait _ ms low high first rest ih =>
    rcases receive_cases w.provider.queues url limit with ⟨e, t, hreceive, _⟩ | ⟨_, batch, t, hreceive, htakes⟩
    · rw [Attempt.run_receive hreceive] at first
      cases first
    · rw [Attempt.run_receive hreceive] at first
      cases first
      obtain ⟨limit', batch', u, rfl, rfl, htakes'⟩ := ih
      exact ⟨limit + limit', batch ++ batch', u, List.map_append.symm, rfl, htakes.trans htakes'⟩

theorem Receives.sound {url : String} {w w' : World} {ms : List Received} (h : Receives url w ms w')
    (hs : Sound w.provider.queues) : Sound w'.provider.queues := by
  induction h with
  | done w => exact hs
  | @receive w w' w'' limit wait _ ms _ _ first rest ih =>
    have hturns := Routine.run_turns (Attempt.call (.receive url limit wait)).result w
    rw [first] at hturns
    exact ih (hturns.sound hs)

theorem receives_of_serves {url : String} {w : World} (h : w.provider.queues.Serves (queueNameOfUrl url)) (n : Nat) :
    ∃ batch t, Receives url w (handedOut batch) (w.withQueues t) ∧
      Takes w.provider.queues t (queueNameOfUrl url) n batch := by
  induction n generalizing w with
  | zero => exact ⟨[], w.provider.queues, .done w, takes_refl _ _⟩
  | succ n ih =>
    obtain ⟨batch, t, hreceive, htakes⟩ := receive_of_serves h 1
    obtain ⟨batch', u, hrest, htakes'⟩ := ih (w := w.withQueues t) (htakes.serves h)
    have hfirst : (Attempt.call (.receive url 1 0)).result.run w = (.ok (handedOut batch), w.withQueues t) :=
      Attempt.run_receive hreceive
    refine ⟨batch ++ batch', u, ?_, Nat.add_comm 1 n ▸ htakes.trans htakes'⟩
    rw [handedOut, List.map_append]
    exact .receive Nat.one_pos (by decide) hfirst hrest

/-- Receives in a row hand out a message that waits on the queue at most once, as delivered once more and in flight. -/
theorem Receives.delivers {name : String} {w w' : World} {ms : List Received} (h : Receives (urlOf name) w ms w')
    (hs : Sound w.provider.queues) {x : Stored} (hx : x ∈ (w.provider.queues.state (addressed name)).visible)
    {m : Received} (hm : m ∈ ms) (hid : m.id = x.id) :
    m = x.delivered.deliver m.handle ∧
      (w'.provider.queues.state (addressed name)).inFlight.lookup m.handle = some x.delivered := by
  have hsound := h.sound hs
  obtain ⟨limit, batch, t, rfl, rfl, htakes⟩ := h.takes
  obtain ⟨⟨handle, y⟩, he, rfl⟩ := List.mem_map.mp hm
  -- it is the one message of the queue with its id
  have hy : y ∈ ((w.provider.queues.state (addressed name)).visible.take limit).map Stored.delivered :=
    htakes.front ▸ List.mem_map_of_mem he
  obtain ⟨z, hz, rfl⟩ := List.mem_map.mp hy
  have hzx : z = x := List.inj_on_of_nodup_map (hs.ids_nodup (addressed name))
    (List.mem_append_left _ (List.mem_of_mem_take hz)) (List.mem_append_left _ hx) hid
  subst hzx
  refine ⟨rfl, lookup_of_mem (hsound.handles_nodup (addressed name)) ?_⟩
  show (handle, z.delivered) ∈ (t.state (addressed name)).inFlight
  have hself : t.state (addressed name) = _ := htakes.self
  rw [hself]
  exact List.mem_append_right _ he

theorem Receives.changes {url : String} {w w' : World} {ms : List Received} (h : Receives url w ms w') :
    w'.provider.queues.visibilityChanges = w.provider.queues.visibilityChanges := by
  obtain ⟨limit, batch, t, rfl, rfl, htakes⟩ := h.takes
  exact htakes.changes

theorem Receives.steady {q : QueueHandle} {w w' : World} {ms : List Received} (h : Receives (urlOf q.name) w ms w') :
    q.Steady w w' := by
  obtain ⟨limit, batch, t, rfl, rfl, htakes⟩ := h.takes
  exact QueueHandle.steady_of_takes htakes

/-! ## Rounds -/

def World.expire (w : World) (queue : String) : World := w.withQueues (w.provider.queues.expire queue)

/-- Once the time of all messages has passed, each of them is visible. -/
theorem World.mem_visible_expire {w : World} {queue : String} {x : Stored}
    (h : x ∈ (w.provider.queues.state queue).messages) :
    x ∈ ((w.expire queue).provider.queues.state queue).visible := by
  have hput := puts_expire (get?_of_mem_messages h)
  show x ∈ ((w.provider.queues.expire queue).state queue).visible
  rw [hput.state_self]
  exact h

theorem World.sound_expire {w : World} (h : Sound w.provider.queues) (queue : String) :
    Sound (w.expire queue).provider.queues :=
  (expire_shifts _ _).turns.sound h

theorem QueueHandle.steady_expire (q : QueueHandle) (w : World) : q.Steady w (w.expire (addressed q.name)) := by
  cases hq : w.provider.queues.queues.get? (addressed q.name) with
  | none =>
    rw [World.expire, expire_of_none hq]
    exact .refl q w
  | some state =>
    have hput := puts_expire hq
    refine QueueHandle.steady_withQueues hput.toKept (hput.isSome_get? hq) ?_
    rw [hput.state_self, state_of_get? hq]

/-- A round for a message of a queue: it is received, hidden as failed, and its time passes. It returns the time that
the message was hidden for. -/
inductive Round (q : QueueHandle) (b : BackoffPolicy) (id : String) (w : World) : Int → World → Prop
  | mk {w' : World} {ms : List Received} {m : Received} (received : Receives (urlOf q.name) w ms w') (hm : m ∈ ms)
    (hid : m.id = id) :
    Round q b id w ((q.hideFailed b m).run w').1 (((q.hideFailed b m).run w').2.expire (addressed q.name))

/-- Rounds for a message, one after the other, with the times that it was hidden for. -/
inductive Rounds (q : QueueHandle) (b : BackoffPolicy) (id : String) : World → List Int → World → Prop
  | done (w : World) : Rounds q b id w [] w
  | round {w w' w'' : World} {time : Int} {times : List Int} (first : Round q b id w time w')
    (rest : Rounds q b id w' times w'') : Rounds q b id w (time :: times) w''

/-- The message after `k` deliveries. -/
def Stored.after (x : Stored) (k : Nat) : Stored := { x with deliveries := k }

/-- A message waits on the queue of a handle after `k` deliveries. The handle is answered and goes by a limit. -/
structure QueueHandle.Ready (q : QueueHandle) (x : Stored) (limit : Option Nat) (k : Nat) (w : World) : Prop where
  answered : q.Answered w
  sound : Sound w.provider.queues
  waiting : x.after k ∈ (w.provider.queues.state (addressed q.name)).visible
  goesBy : q.limitIn w = limit
  cached : 0 < k → q.dlq.isSome → (w.known q.slot).maxReceiveCount = some limit

/-- The time that the policy picks for the `k`-th delivery of a message. -/
def QueueHandle.timeoutAt (q : QueueHandle) (b : BackoffPolicy) (x : Stored) (limit : Option Nat) (k : Nat) : Int :=
  b.nextTimeout q.schedules (eventType? x.body x.attributes) k limit

namespace QueueHandle
variable {q : QueueHandle} {b : BackoffPolicy} {x : Stored} {limit : Option Nat} {k : Nat} {w w' : World}

theorem Ready.exists_round (h : q.Ready x limit k w) (b : BackoffPolicy) : ∃ time w', Round q b x.id w time w' := by
  have hpresent := get?_of_mem_messages (List.mem_append_left _ h.waiting)
  have hserves : w.provider.queues.Serves (addressed q.name) := ⟨h.answered.fails _ _, hpresent ▸ Option.isSome_some⟩
  obtain ⟨batch, t, hreceives, htakes⟩ :=
    receives_of_serves hserves (w.provider.queues.state (addressed q.name)).visible.length
  have hall : batch.map (·.2) = (w.provider.queues.state (addressed q.name)).visible.map Stored.delivered :=
    htakes.front.trans (congrArg _ List.take_length)
  obtain ⟨⟨handle, y⟩, he, rfl⟩ := List.mem_map.mp (hall ▸ List.mem_map_of_mem h.waiting)
  exact ⟨_, _, .mk hreceives (List.mem_map_of_mem he) rfl⟩

/-- A round hides the message for the time of its next delivery and leaves it waiting. -/
theorem Ready.round (h : q.Ready x limit k w) (hk : k + 1 < 2 ^ 32) {time : Int} (hr : Round q b x.id w time w') :
    time = q.timeoutAt b x limit (k + 1) ∧ q.Ready x limit (k + 1) w' ∧
      ∃ handle, w'.provider.queues.visibilityChanges =
        w.provider.queues.visibilityChanges ++ [⟨addressed q.name, handle, time⟩] := by
  cases hr with
  | @mk v ms m hreceives hm hid =>
  have hsteady := hreceives.steady
  have hlimit : q.limitIn v = limit := hsteady.limit.trans h.goesBy
  obtain ⟨hdeliver, hflight⟩ := hreceives.delivers h.sound h.waiting hm hid
  have htime : b.timeoutOf q m (q.limitIn v) = q.timeoutAt b x limit (k + 1) := by
    have hcount : m.deliveryCount = k + 1 := by
      rw [hdeliver]
      exact deliveryCount_of_get? (get?_system_deliver (x.after (k + 1)) m.handle) (Nat.succ_pos k) hk
    rw [BackoffPolicy.timeoutOf, hcount, hlimit, hdeliver]
    rfl
  have hmem : x.after (k + 1) ∈ (v.provider.queues.state (addressed q.name)).messages :=
    List.mem_append_right _ (List.mem_map_of_mem ((perm_of_lookup hflight).symm.subset List.mem_cons_self))
  have hanswered := hsteady.answered h.answered
  obtain ⟨u, hrun, hsteady', hcached, hput, hrecord⟩ := hanswered.run_hideFailed b (get?_of_mem_messages hmem) hflight
  have hturns := Routine.run_turns (q.hideFailed b m) v
  rw [hrun] at hturns
  have hhidden : x.after (k + 1) ∈ (u.provider.queues.state (addressed q.name)).messages := by
    rw [hput.state_self]
    split
    · exact List.mem_append_left _ (List.mem_append_right _ List.mem_cons_self)
    · exact hmem
  have hexpire := hsteady'.trans (q.steady_expire u)
  rw [hrun, htime]
  refine ⟨rfl, ⟨hexpire.answered hanswered, ?_, World.mem_visible_expire hhidden, hexpire.limit.trans hlimit, ?_⟩,
    m.handle, ?_⟩
  · exact World.sound_expire (hturns.sound (hreceives.sound h.sound)) _
  · exact fun _ hd => hlimit ▸ hcached hd
  · rw [← hreceives.changes, ← htime]
    exact hrecord

/-- Rounds for a message hide it for the times of its deliveries in order, and each time is recorded. -/
theorem Ready.rounds (h : q.Ready x limit k w) {times : List Int} (hr : Rounds q b x.id w times w')
    (hk : k + times.length < 2 ^ 32) :
    times = (List.range' (k + 1) times.length).map (q.timeoutAt b x limit) ∧ q.Ready x limit (k + times.length) w' ∧
      ∃ changes, w'.provider.queues.visibilityChanges = w.provider.queues.visibilityChanges ++ changes ∧
        changes.map (·.queue) = times.map (fun _ => addressed q.name) ∧ changes.map (·.seconds) = times := by
  induction hr generalizing k with
  | done w => exact ⟨rfl, h, [], (List.append_nil _).symm, rfl, rfl⟩
  | @round w w' w'' time times first rest ih =>
    rw [List.length_cons] at hk ⊢
    obtain ⟨htime, hready, handle, hrecord⟩ := h.round (by omega) first
    obtain ⟨htimes, hlast, changes, hchanges, hqueues, hseconds⟩ := ih hready (by omega)
    refine ⟨?_, ?_, ⟨addressed q.name, handle, time⟩ :: changes, ?_, ?_, ?_⟩
    · rw [List.range'_succ, List.map_cons, ← htimes, htime]
    · rw [Nat.add_right_comm] at hlast
      exact hlast
    · rw [hchanges, hrecord, List.append_assoc, List.singleton_append]
    · rw [List.map_cons, hqueues, List.map_cons]
    · rw [List.map_cons, hseconds]

theorem Ready.exists_rounds (h : q.Ready x limit k w) (b : BackoffPolicy) {n : Nat} (hn : k + n < 2 ^ 32) :
    ∃ times w', Rounds q b x.id w times w' ∧ times.length = n := by
  induction n generalizing k w with
  | zero => exact ⟨[], w, .done w, rfl⟩
  | succ n ih =>
    obtain ⟨time, w', first⟩ := h.exists_round b
    obtain ⟨_, hready, _⟩ := h.round (by omega) first
    obtain ⟨times, w'', rest, hlength⟩ := ih hready (by omega)
    exact ⟨time :: times, w'', .round first rest, congrArg (· + 1) hlength⟩

end QueueHandle

/-! ## Backoff by deliveries -/

/-- A visible message with no deliveries in the history waits for its first one. -/
theorem QueueHandle.ready_of_undelivered {h : List Received} {q : QueueHandle} {x : Stored} {w : World}
    (hw : w.provider.History h) (hx : x ∈ (w.provider.queues.state (addressed q.name)).visible)
    (hnone : deliveriesOf h x.id = []) (ha : q.Answered w) : q.Ready x (q.limitIn w) 0 w where
  answered := ha
  sound := hw.reachable.sound
  waiting := by
    have hcount := hw.tally.counted x (mem_messages_of_state (List.mem_append_left _ hx))
    rw [hnone] at hcount
    have hafter : x.after 0 = x := by rw [Stored.after, ← List.length_nil, ← hcount]
    rwa [hafter]
  goesBy := rfl
  cached h0 := absurd h0 (Nat.lt_irrefl 0)

/-- The deliveries of a message are numbered from one, so rounds for a message that was not delivered yet go through the
times of the policy in order, under the limit that the handle read first. A message that a retry sends again is numbered
anew. -/
theorem backoff_follows_deliveries {h : List Received} {w : World} (hw : w.provider.History h) :
    (∀ id, (deliveriesOf h id).length < 2 ^ 32 →
      (deliveriesOf h id).map (·.deliveryCount) = List.range' 1 (deliveriesOf h id).length) ∧
    (∀ (q : QueueHandle) (b : BackoffPolicy) (x : Stored),
      x ∈ (w.provider.queues.state (addressed q.name)).visible → deliveriesOf h x.id = [] → q.Answered w →
        (∀ n < 2 ^ 32, ∃ times w', Rounds q b x.id w times w' ∧ times.length = n) ∧
        ∀ times w', Rounds q b x.id w times w' → times.length < 2 ^ 32 →
          times = (List.range' 1 times.length).map (fun k =>
            b.nextTimeout q.schedules (eventType? x.body x.attributes) k (q.limitIn w)) ∧
          (times ≠ [] → q.dlq.isSome → (w'.known q.slot).maxReceiveCount = some (q.limitIn w)) ∧
          ∃ changes, w'.provider.queues.visibilityChanges = w.provider.queues.visibilityChanges ++ changes ∧
            changes.map (·.queue) = times.map (fun _ => addressed q.name) ∧ changes.map (·.seconds) = times) ∧
    ∀ (q : QueueHandle) (p : NumberPolicy) (before after : List Entry) (url id : String) (m : Outbound),
      (q.retry p).result.journal w = before ++ ⟨.call (.send url m), .ok id⟩ :: after →
        let sent := h ++ before.flatMap Entry.delivered
        ((q.retry p).result.run w).2.provider.History (sent ++ after.flatMap Entry.delivered) ∧
        ∀ (later : List Received) (p' : Memory), p'.History (sent ++ later) →
          deliveriesOf (sent ++ later) id = deliveriesOf later id ∧
          ((deliveriesOf later id).length < 2 ^ 32 →
            (deliveriesOf later id).map (·.deliveryCount) = List.range' 1 (deliveriesOf later id).length) := by
  refine ⟨fun id hbound => hw.tally.deliveryCount hbound, fun q b x hx hnone ha => ?_, ?_⟩
  · have hready := QueueHandle.ready_of_undelivered hw hx hnone ha
    refine ⟨fun n hn => hready.exists_rounds b (by omega), fun times w' hrounds hlength => ?_⟩
    obtain ⟨htimes, hlast, hchanges⟩ := hready.rounds hrounds (by omega)
    rw [Nat.zero_add] at hlast
    exact ⟨htimes, fun hne => hlast.cached (List.length_pos_of_ne_nil hne), hchanges⟩
  · intro q p before after url id m hjournal sent
    have hrun := Memory.History.run (q.retry p).result hw
    rw [hjournal, List.flatMap_append, List.flatMap_cons] at hrun
    refine ⟨by rwa [List.append_assoc], fun later p' hlater => ?_⟩
    have hnone : deliveriesOf sent id = [] := hw.undelivered_of_send hjournal
    have hsame : deliveriesOf (sent ++ later) id = deliveriesOf later id := by
      rw [deliveriesOf, List.filter_append]
      exact (congrArg (· ++ _) hnone).trans (List.nil_append _)
    refine ⟨hsame, fun hbound => ?_⟩
    rw [← hsame] at hbound ⊢
    exact hlater.tally.deliveryCount hbound

/-- A message may be delivered three times, and the queue has a schedule with two steps: the first two times come from
the schedule, and the last delivery is not delayed. -/
theorem backoff_follows_deliveries_last :
    let p : Memory := Memory.Control.apply (Memory.Control.apply (Memory.Control.apply {}
      (.create "events-dlq")) (.createWithRedrive "events" "events-dlq" 3)) (.seed "events" { body := "x" })
    let q : QueueHandle :=
      { id := "events", name := "events", client := 0, dlq := some ⟨"events-dlq", 0⟩, schedules := ⟨[1, 2], []⟩ }
    ∃ w', Rounds q ⟨[5]⟩ "msg-1" { provider := p } [1, 2, 0] w' := by
  intro p q
  have hw : p.History [] := .control _ (.control _ (.control _ (.start true)))
  have ha : q.Answered { provider := p } := ⟨rfl, rfl, by decide +kernel, nofun⟩
  have hx : Outbound.store { body := "x" } "msg-1" ∈ (p.queues.state (addressed q.name)).visible := by decide +kernel
  obtain ⟨_, hrounds, _⟩ := backoff_follows_deliveries (w := { provider := p }) hw
  obtain ⟨hexists, htimes⟩ := hrounds q ⟨[5]⟩ _ hx rfl ha
  obtain ⟨times, w', hr, hlength⟩ := hexists 3 (by decide)
  have heq := (htimes times w' hr (by omega)).1
  rw [hlength] at heq
  have hthree : times = [1, 2, 0] := heq.trans (by decide +kernel)
  exact ⟨w', hthree ▸ hr⟩

end DeadLetter
