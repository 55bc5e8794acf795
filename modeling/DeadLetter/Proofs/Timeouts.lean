import DeadLetter.Proofs.Backoff
import DeadLetter.Proofs.Registry.Handles
import DeadLetter.Proofs.Routine.Journal
import DeadLetter.Proofs.Service.Looking
import DeadLetter.Proofs.Store.Batches
import DeadLetter.Service.Visibility

/-!
# Timeouts of failed messages

`Properties.scheduleOf` : the first schedule of a configuration that is not empty, for a queue and an event type. The
policy picks its times from there (`BackoffPolicy.scheduleFor_eq`, `BackoffPolicy.nextTimeout_mem`), and the registry
passes on what is configured (`Registry.schedules_of_build`). `Routine.run_changes` : a run records the changes of
visibility that its journal shows as confirmed, and no others. Hiding a failed message asks for no other time than the
one it returns (`QueueHandle.hideFailed_asks`), whatever is known, missing or made to fail.

`hideFailed_legal` : under a valid configuration that time is one that the provider accepts.
-/

namespace DeadLetter

set_option autoImplicit false

/-! ## Schedules -/

/-- The first schedule that is not empty: that of the event type, that of the queue, or the default one. -/
def Properties.scheduleOf (config : Properties) (q : QueueProperties) (eventType : Option String) : List Int :=
  let ofEvent := (eventType.bind q.eventErrorVisibilityTimeout.get?).getD []
  ([ofEvent, q.errorVisibilityTimeout, config.defaultErrorVisibilityTimeout].find? (! ·.isEmpty)).getD []

namespace BackoffPolicy

theorem scheduleFor_eq (config : Properties) (q : QueueProperties) (eventType : Option String) :
    config.backoff.scheduleFor q.schedules eventType = config.scheduleOf q eventType := by
  have hevents : q.schedules.events = q.eventErrorVisibilityTimeout := rfl
  rw [scheduleFor_eq_find]
  unfold levels Properties.scheduleOf
  rw [hevents]
  -- no schedule counts for as much as an empty one
  cases eventType.bind q.eventErrorVisibilityTimeout.get? <;> rfl

/-- The policy picks no time of its own. -/
theorem nextTimeout_mem (b : BackoffPolicy) (s : Schedules) (eventType : Option String) (deliveries : Nat)
    (limit : Option Nat) :
    b.nextTimeout s eventType deliveries limit = 0 ∨
      b.nextTimeout s eventType deliveries limit ∈ b.scheduleFor s eventType := by
  by_cases hlimit : limit = some deliveries
  · exact Or.inl (if_pos hlimit)
  · rw [nextTimeout_of_ne hlimit]
    by_cases hempty : b.scheduleFor s eventType = []
    · rw [hempty]
      exact Or.inl rfl
    · exact Or.inr (entryFor_reaches hempty deliveries).mem

end BackoffPolicy

theorem LegalTimeout.zero : LegalTimeout 0 := ⟨by decide, by decide⟩

theorem Properties.Valid.legal_of_mem_scheduleOf {config : Properties} (h : config.Valid)
    {e : String × QueueProperties} (he : e ∈ config.queues) {eventType : Option String} {t : Int}
    (ht : t ∈ config.scheduleOf e.2 eventType) : LegalTimeout t := by
  have hqueue := h.queues e he
  unfold scheduleOf at ht
  dsimp only at ht
  cases hfind : List.find? _ _ with
  | none =>
    rw [hfind] at ht
    cases ht
  | some schedule =>
    rw [hfind, Option.getD_some] at ht
    have hmem := List.mem_of_find?_eq_some hfind
    simp only [List.mem_cons, List.not_mem_nil, or_false] at hmem
    rcases hmem with rfl | rfl | rfl
    · cases hevent : eventType.bind e.2.eventErrorVisibilityTimeout.get? with
      | none =>
        rw [hevent] at ht
        cases ht
      | some ts =>
        rw [hevent] at ht
        obtain ⟨name, _, hget⟩ := Option.bind_eq_some_iff.mp hevent
        exact hqueue.eventSchedules ts (List.mem_map_of_mem (Dict.mem_of_get? hget)) t ht
    · exact hqueue.schedule t ht
    · exact h.schedule t ht

/-! ## What is recorded -/

/-- The changes of visibility that an entry shows as confirmed. -/
def Entry.changes : Entry → List VisibilityChange
  | ⟨.call (.changeVisibility url handle seconds), .ok _⟩ => [⟨queueNameOfUrl url, handle, seconds⟩]
  | _ => []

namespace QueueStore
variable {s : QueueStore}

theorem changes_changeVisibility (s : QueueStore) (url handle : String) (seconds : Int) :
    (s.changeVisibility url handle seconds).2.visibilityChanges = s.visibilityChanges ++
      Entry.changes ⟨.call (.changeVisibility url handle seconds), (s.changeVisibility url handle seconds).1⟩ := by
  unfold changeVisibility attempt locate locateInFlight
  dsimp only
  split
  · exact (List.append_nil _).symm
  · split
    · split
      · rfl
      · exact (List.append_nil _).symm
    · exact (List.append_nil _).symm

/-! No other call is recorded. -/

theorem changes_queueUrl (s : QueueStore) (queue : String) :
    (s.queueUrl queue).2.visibilityChanges = s.visibilityChanges := by
  rw [queueUrl_eq]
  rfl

theorem changes_queueAttributes (s : QueueStore) (url : String) :
    (s.queueAttributes url).2.visibilityChanges = s.visibilityChanges := by
  rw [queueAttributes_eq]
  rfl

theorem changes_attempt {α : Type} {op : Operation} {queue : String}
    {go : QueueStore → Except QueueError α × QueueStore}
    (hgo : (go (s.counted op)).2.visibilityChanges = s.visibilityChanges) :
    (s.attempt op queue go).2.visibilityChanges = s.visibilityChanges := by
  unfold attempt
  split
  · rfl
  · exact hgo

theorem changes_locate {α : Type} {op : Operation} {queue : String} {s₀ : QueueStore}
    {go : QueueState → Except QueueError α × QueueStore} (hs : s.visibilityChanges = s₀.visibilityChanges)
    (hgo : ∀ q, (go q).2.visibilityChanges = s₀.visibilityChanges) :
    (s.locate op queue go).2.visibilityChanges = s₀.visibilityChanges := by
  unfold locate
  split
  · exact hgo _
  · exact hs

theorem changes_receive (s : QueueStore) (url : String) (limit : Nat) :
    (s.receive url limit).2.visibilityChanges = s.visibilityChanges := by
  have htake : ∀ (limit : Nat) (s : QueueStore),
      (s.take (queueNameOfUrl url) limit).2.visibilityChanges = s.visibilityChanges := by
    intro limit
    induction limit with
    | zero => exact fun _ => rfl
    | succ limit ih =>
      intro s
      refine changes_locate rfl fun q => ?_
      dsimp only
      split
      · rfl
      · exact ih _
  exact changes_attempt (htake limit _)

theorem changes_send (s : QueueStore) (url : String) (m : Outbound) :
    (s.send url m).2.visibilityChanges = s.visibilityChanges := by
  unfold send
  refine changes_attempt ?_
  dsimp only
  split
  · rfl
  · exact changes_locate rfl fun _ => rfl

theorem changes_delete (s : QueueStore) (url handle : String) :
    (s.delete url handle).2.visibilityChanges = s.visibilityChanges := by
  refine changes_attempt (changes_locate rfl fun q => ?_)
  unfold locateInFlight
  split <;> rfl

theorem changes_purge (s : QueueStore) (url : String) : (s.purge url).2.visibilityChanges = s.visibilityChanges :=
  changes_attempt (changes_locate rfl fun _ => rfl)

theorem changes_createQueue (s : QueueStore) (queue : String) (attributes : Dict String) :
    (s.createQueue queue attributes).2.visibilityChanges = s.visibilityChanges := by
  refine changes_attempt ?_
  dsimp only
  split
  · rfl
  · split <;> rfl

theorem changes_seed (s : QueueStore) (queue : String) (m : Outbound) :
    (s.seed queue m).2.visibilityChanges = s.visibilityChanges := rfl

end QueueStore

open QueueStore in
theorem Memory.changes_perform (p : Memory) (c : Call) :
    (p.perform c).2.queues.visibilityChanges =
      p.queues.visibilityChanges ++ Entry.changes ⟨.call c, (p.perform c).1⟩ := by
  cases c with
  | changeVisibility url handle seconds => exact changes_changeVisibility p.queues url handle seconds
  | queueUrl queue => exact (changes_queueUrl p.queues queue).trans (List.append_nil _).symm
  | queueAttributes url => exact (changes_queueAttributes p.queues url).trans (List.append_nil _).symm
  | receive url limit wait => exact (changes_receive p.queues url limit).trans (List.append_nil _).symm
  | send url m => exact (changes_send p.queues url m).trans (List.append_nil _).symm
  | delete url handle => exact (changes_delete p.queues url handle).trans (List.append_nil _).symm
  | purge url => exact (changes_purge p.queues url).trans (List.append_nil _).symm
  | createQueue queue attributes =>
    exact (changes_createQueue p.queues queue attributes).trans (List.append_nil _).symm
  | publish arn m =>
    refine Eq.trans ?_ (List.append_nil _).symm
    exact publish_induct (R := fun s t => t.visibilityChanges = s.visibilityChanges) (fun _ => rfl)
      (fun _ _ _ h h' => h'.trans h) changes_seed p arn m
  | subscribe arn queueArn filter => exact (List.append_nil _).symm
  | topicAttributes arn => exact (List.append_nil _).symm
  | createTopic topic attributes => exact (List.append_nil _).symm
  | headBucket bucket => exact (List.append_nil _).symm

namespace Routine
variable {α : Type}

/-- The record of a run is that of its journal. -/
theorem run_changes (r : Routine α) (w : World) :
    (r.run w).2.provider.queues.visibilityChanges =
      w.provider.queues.visibilityChanges ++ (r.journal w).flatMap Entry.changes := by
  induction r generalizing w with
  | done a => exact (List.append_nil _).symm
  | act a next ih =>
    have hstep : (w.perform a).2.provider.queues.visibilityChanges =
        w.provider.queues.visibilityChanges ++ Entry.changes ⟨a, (w.perform a).1⟩ := by
      cases a with
      | call c => exact Memory.changes_perform w.provider c
      | _ => exact (List.append_nil _).symm
    rw [journal, List.flatMap_cons, ← List.append_assoc, ← hstep]
    exact ih _ _

end Routine

/-! ## What is asked for -/

/-- If an entry asks for a change of visibility, then for the time `t`. -/
def Entry.AsksOnly (t : Int) (e : Entry) : Prop :=
  ∀ url handle seconds, e.action = .call (.changeVisibility url handle seconds) → seconds = t

theorem Entry.asksOnly_of_looks {e : Entry} (h : e.action.Looks) (t : Int) : e.AsksOnly t := by
  intro url handle seconds heq
  rw [heq] at h
  cases h

theorem Entry.AsksOnly.changes {t : Int} {e : Entry} (h : e.AsksOnly t) : ∀ c ∈ e.changes, c.seconds = t := by
  intro c hc
  obtain ⟨a, r⟩ := e
  cases a with
  | call call =>
    cases call with
    | changeVisibility url handle seconds =>
      cases r with
      | ok _ =>
        rw [List.mem_singleton.mp hc]
        exact h url handle seconds rfl
      | error _ => cases hc
    | _ => cases hc
  | _ => cases hc

/-- The time that is returned is the policy's, and no other is asked for. -/
theorem QueueHandle.hideFailed_asks (q : QueueHandle) (b : BackoffPolicy) (m : Received) (w : World) :
    ∃ limit, ((q.hideFailed b m).run w).1 = b.timeoutOf q m limit ∧
      ∀ e ∈ (q.hideFailed b m).journal w, e.AsksOnly (b.timeoutOf q m limit) := by
  have hlimit := q.maxReceiveCount_looks.journal w
  unfold hideFailed
  rw [Routine.run_bind, Routine.journal_bind]
  rcases q.maxReceiveCount.result.run w with ⟨limit, w₁⟩
  refine ⟨limit.toOption.getD none, ?_⟩
  generalize b.timeoutOf q m (limit.toOption.getD none) = t
  have hurl := q.url_looks.journal w₁
  rw [Routine.run_bind, Routine.journal_bind]
  rcases q.url.result.run w₁ with ⟨url, w₂⟩
  have hlooks : ∀ e ∈ q.maxReceiveCount.result.journal w ++ q.url.result.journal w₁, e.AsksOnly t := by
    intro e he
    exact Entry.asksOnly_of_looks ((List.mem_append.mp he).elim (hlimit e) (hurl e)) t
  rw [← List.append_assoc]
  cases url with
  | error _ => exact ⟨rfl, fun e he => (List.mem_append.mp he).elim (hlooks e) nofun⟩
  | ok url =>
    refine ⟨rfl, fun e he => (List.mem_append.mp he).elim (hlooks e) fun he => ?_⟩
    rw [List.mem_singleton.mp he]
    intro _ _ _ heq
    cases heq
    rfl

/-- A registry built from a valid configuration never asks for a timeout that the provider does not accept: whatever
message failed on whichever queue, whatever is known and whatever calls fail, the time that is returned is zero or an
entry of the first schedule that is not empty, and it is the only one asked for and recorded. -/
theorem hideFailed_legal {config : Properties} (hvalid : validate config = .ok ()) (f : Factory) :
    ∃ r f', Registry.build config f = .ok (r, f') ∧ ∀ q ∈ r.queues, ∃ e ∈ config.queues,
      q.id = e.1 ∧ q.name = e.2.queueName ∧ ∀ (m : Received) (w : World),
        let time := ((q.hideFailed r.backoff m).run w).1
        LegalTimeout time ∧ (time = 0 ∨ time ∈ config.scheduleOf e.2 (eventType? m.body m.attributes)) ∧
        (∀ entry ∈ (q.hideFailed r.backoff m).journal w, entry.AsksOnly time) ∧
        ∃ changes, ((q.hideFailed r.backoff m).run w).2.provider.queues.visibilityChanges =
          w.provider.queues.visibilityChanges ++ changes ∧ ∀ c ∈ changes, c.seconds = time := by
  obtain ⟨r, f', hbuild, _⟩ := Registry.build_holds hvalid f
  obtain ⟨hqueues, hbackoff⟩ := Registry.schedules_of_build hbuild
  refine ⟨r, f', hbuild, fun q hq => ?_⟩
  have hmem := List.mem_map_of_mem (f := fun q : QueueHandle => (q.id, q.name, q.schedules)) hq
  rw [hqueues] at hmem
  obtain ⟨e, he, heq⟩ := List.mem_map.mp hmem
  simp only [Prod.mk.injEq] at heq
  obtain ⟨hid, hname, hschedules⟩ := heq
  refine ⟨e, he, hid.symm, hname.symm, ?_⟩
  intro m w time
  obtain ⟨limit, htime, hasks⟩ := q.hideFailed_asks r.backoff m w
  rw [← htime] at hasks
  have hpicked : time = 0 ∨ time ∈ config.scheduleOf e.2 (eventType? m.body m.attributes) := by
    rw [show time = _ from htime, ← BackoffPolicy.scheduleFor_eq, ← hbackoff, hschedules]
    exact r.backoff.nextTimeout_mem q.schedules _ _ _
  refine ⟨?_, hpicked, hasks, _, Routine.run_changes _ w, fun c hc => ?_⟩
  · rcases hpicked with hzero | hmem
    · exact hzero ▸ .zero
    · exact (Properties.valid_of_validate hvalid).legal_of_mem_scheduleOf he hmem
  · obtain ⟨entry, hentry, hc⟩ := List.mem_flatMap.mp hc
    exact (hasks entry hentry).changes c hc

/-- A queue without a schedule of its own but with one for a type of event, while no change of visibility succeeds: the
message's count of deliveries is no number. -/
theorem hideFailed_legal_failing :
    let config : Properties := {
      defaultErrorVisibilityTimeout := [43200]
      queues := [("a", { queueName := "a", eventErrorVisibilityTimeout := [("created", [5, 60])] })] }
    let m : Received := {
      id := "msg-1"
      handle := "h"
      body := "x"
      system := [("ApproximateReceiveCount", "many")]
      attributes := [(eventTypeAttribute, .ofText "created")] }
    let w : World := { provider := { queues := { failingOperations := [.changeMessageVisibility] } } }
    validate config = .ok () ∧ ∃ r f', Registry.build config {} = .ok (r, f') ∧ ∀ q ∈ r.queues,
      let time := ((q.hideFailed r.backoff m).run w).1
      LegalTimeout time ∧ (time = 0 ∨ time ∈ [5, 60]) := by
  intro config m w
  have hvalid : validate config = .ok () := by decide +kernel
  obtain ⟨r, f', hbuild, hlegal⟩ := hideFailed_legal hvalid {}
  refine ⟨hvalid, r, f', hbuild, fun q hq => ?_⟩
  obtain ⟨e, he, _, _, hruns⟩ := hlegal q hq
  obtain ⟨htime, hpicked, _⟩ := hruns m w
  have hschedule : config.scheduleOf e.2 (eventType? m.body m.attributes) = [5, 60] := by
    rw [List.mem_singleton.mp he]
    decide +kernel
  rw [hschedule] at hpicked
  exact ⟨htime, hpicked⟩

end DeadLetter
