import DeadLetter.Proofs.Store.Turns

/-!
# The calls as changes of a store

Each call, and each change from outside, is a sequence of changes of queues: of those that remove no message
(`receive_shifts`, `send_shifts`, `changeVisibility_shifts`, `createQueue_shifts`, `seed_shifts`, `create_shifts`,
`expire_shifts`), or of any (`delete_turns`, `purge_turns`). `receive_bound` : what is received is bound to its handle.
-/

namespace DeadLetter

set_option autoImplicit false

namespace QueueStore

theorem puts_taken (s : QueueStore) (queue : String) (q : QueueState) (rest : List Stored) (m : Stored) :
    Puts s (s.drawn.withQueue queue (taken q rest (s.nextHandle queue m) m)) queue
      (taken q rest (s.nextHandle queue m) m) := (quiet_drawn s).puts (puts_withQueue _ _ _)

theorem shift_taken {s : QueueStore} {queue : String} {q : QueueState} {rest : List Stored} {m : Stored}
    (hq : s.queues.get? queue = some q) (hv : q.visible = m :: rest) :
    Moves QueueState.Shift s (s.drawn.withQueue queue (taken q rest (s.nextHandle queue m) m)) := by
  refine (puts_taken s queue q rest m).moves ?_
  rw [state_of_get? hq]
  exact .take hv (s.lastId + 1) (Nat.lt_succ_self _) (Nat.le_refl _)

theorem take_shifts (s : QueueStore) (queue : String) (limit : Nat) : Shifts s (s.take queue limit).2 := by
  induction limit generalizing s with
  | zero => exact .refl
  | succ limit ih =>
    cases hq : s.queues.get? queue with
    | none =>
      rw [take_of_none hq]
      exact .single (quiet_drawn s).moves
    | some q =>
      cases hv : q.visible with
      | nil =>
        rw [take_of_nil hq hv]
        exact .single (quiet_drawn s).moves
      | cons m rest =>
        rw [take_of_cons hq hv]
        exact .head (shift_taken hq hv) (ih _)

theorem receive_shifts (s : QueueStore) (url : String) (limit : Nat) : Shifts s (s.receive url limit).2 := by
  unfold receive
  cases hf : s.fails .receiveMessage (queueNameOfUrl url) with
  | true =>
    rw [attempt_of_fails hf]
    exact .single (quiet_counted s _).moves
  | false =>
    rw [attempt_of_not_fails hf]
    exact .head (quiet_counted s _).moves (take_shifts _ _ _)

/-- A handle that was just made is bound to the message that was put in flight under it. -/
theorem bound_taken {s t : QueueStore} {queue : String} {q : QueueState} {m : Stored} {rest : List Stored}
    (hs : Sound s) (hq : s.queues.get? queue = some q) (hid : t.lastId = s.lastId + 1)
    (hput : Puts s t queue (taken q rest (s.nextHandle queue m) m)) :
    Bound t queue (s.nextHandle queue m) m.payload := by
  have hstamp : HandleStamp (s.nextHandle queue m) (s.lastId + 1) := ⟨_, _, rfl⟩
  refine ⟨⟨s.lastId + 1, Nat.le_of_eq hid.symm, hstamp⟩, ?_⟩
  intro m' hm'
  rw [hput.state_self] at hm'
  rcases List.mem_append.mp hm' with hm' | hm'
  · have hmem : s.nextHandle queue m ∈ s.handles :=
      List.mem_flatMap.mpr ⟨(queue, q), Dict.mem_of_get? hq, List.mem_map.mpr ⟨_, hm', rfl⟩⟩
    exact absurd hmem (hs.handles.notMem handleStamp_unique hstamp (Nat.lt_succ_self _))
  · cases List.mem_singleton.mp hm'
    rfl

theorem take_bound {s t : QueueStore} {queue : String} {limit : Nat} {batch : List Received} (hs : Sound s)
    (h : s.take queue limit = (.ok batch, t)) : ∀ m ∈ batch, Bound t queue m.handle m.payload := by
  induction limit generalizing s batch with
  | zero =>
    rw [take_zero] at h
    cases h
    intro m hm
    cases hm
  | succ limit ih =>
    cases hq : s.queues.get? queue with
    | none =>
      rw [take_of_none hq] at h
      cases h
    | some q =>
      cases hv : q.visible with
      | nil =>
        rw [take_of_nil hq hv] at h
        cases h
        intro m hm
        cases hm
      | cons m rest =>
        rw [take_of_cons hq hv] at h
        have hput := puts_taken s queue q rest m
        have hsound := (Shifts.turns (.single (shift_taken hq hv))).sound hs
        have hid : (s.drawn.withQueue queue (taken q rest (s.nextHandle queue m) m)).lastId = s.lastId + 1 := rfl
        dsimp only at h
        generalize s.drawn.withQueue queue (taken q rest (s.nextHandle queue m) m) = u at h hput hsound hid
        have hlater := (take_shifts u queue limit).turns
        rcases hr : u.take queue limit with ⟨o, v⟩
        rw [hr] at h hlater
        cases o with
        | error e => cases h
        | ok ms =>
          cases h
          intro m' hm'
          rcases List.mem_cons.mp hm' with rfl | hm'
          · -- the messages taken after it leave its handle bound
            exact hlater.bound (bound_taken hs hq hid hput)
          · exact ih hsound hr m' hm'

theorem receive_bound {s t : QueueStore} {url : String} {limit : Nat} {batch : List Received} (hs : Sound s)
    (h : s.receive url limit = (.ok batch, t)) : ∀ m ∈ batch, Bound t (queueNameOfUrl url) m.handle m.payload := by
  unfold receive at h
  cases hf : s.fails .receiveMessage (queueNameOfUrl url) with
  | true =>
    rw [attempt_of_fails hf] at h
    cases h
  | false =>
    rw [attempt_of_not_fails hf] at h
    exact take_bound (hs.turn (quiet_counted s _).moves) h

theorem send_shifts (s : QueueStore) (url : String) (m : Outbound) : Shifts s (s.send url m).2 := by
  rcases send_cases s url m with ⟨_, e, t, heq, hquiet⟩ | ⟨_, q, t, hq, heq, hid, hput⟩
  · rw [heq]
    exact .single hquiet.moves
  · rw [heq]
    refine .single (hput.moves ?_)
    rw [state_of_get? hq]
    exact .append (s.lastId + 1) rfl (Nat.lt_succ_self _) (Nat.le_of_eq hid.symm)

theorem changeVisibility_shifts (s : QueueStore) (url handle : String) (seconds : Int) :
    Shifts s (s.changeVisibility url handle seconds).2 := by
  rcases changeVisibility_cases s url handle seconds with ⟨e, t, heq, hquiet⟩ | ⟨q, m, t, hq, hm, heq, hput⟩
  · rw [heq]
    exact .single hquiet.moves
  · rw [heq]
    refine .single (hput.moves ?_)
    rw [state_of_get? hq]
    split
    · exact .release hm
    · exact .keep rfl rfl

theorem createQueue_shifts (s : QueueStore) (queue : String) (attributes : Dict String) :
    Shifts s (s.createQueue queue attributes).2 := by
  rcases createQueue_cases s queue attributes with ⟨e, t, heq, hquiet⟩ | ⟨q, t, heq, hput, hv, hf⟩
  · rw [heq]
    exact .single hquiet.moves
  · rw [heq]
    exact .single (hput.moves (.keep hv hf))

theorem delete_turns (s : QueueStore) (url handle : String) : Turns s (s.delete url handle).2 := by
  rcases delete_cases s url handle with ⟨_, e, t, heq, hquiet⟩ | ⟨_, q, m, t, hq, hm, heq, hput⟩
  · rw [heq]
    exact .single hquiet.moves
  · rw [heq]
    refine .single (hput.moves ?_)
    rw [state_of_get? hq]
    exact .remove hm

theorem purge_turns (s : QueueStore) (url : String) : Turns s (s.purge url).2 := by
  rcases purge_cases s url with ⟨e, t, heq, hquiet⟩ | ⟨q, t, hq, heq, hput⟩
  · rw [heq]
    exact .single hquiet.moves
  · rw [heq]
    refine .single (hput.moves ?_)
    rw [state_of_get? hq]
    exact .empty

theorem puts_adjust (s : QueueStore) (queue : String) (f : QueueState → QueueState) :
    Puts s (s.adjust queue f) queue (f (s.state queue)) := ⟨⟨rfl, rfl, Nat.le_refl _⟩, rfl⟩

theorem puts_seed (s : QueueStore) (queue : String) (m : Outbound) :
    Puts s (s.seed queue m).2 queue (appended (s.state queue) (m.store (messageId (s.lastId + 1)))) :=
  (quiet_drawn s).puts (puts_adjust s.drawn queue fun q => appended q (m.store (messageId (s.lastId + 1))))

theorem seed_shifts (s : QueueStore) (queue : String) (m : Outbound) : Shifts s (s.seed queue m).2 :=
  .single ((puts_seed s queue m).moves (.append (s.lastId + 1) rfl (Nat.lt_succ_self _) (Nat.le_refl _)))

theorem create_shifts (s : QueueStore) (queue : String) : Shifts s (s.create queue) := by
  unfold create Dict.ensure Dict.has
  cases hq : s.queues.get? queue with
  | some q => exact .refl
  | none =>
    refine .single ⟨Nat.le_refl _, Or.inr ⟨queue, {}, rfl, ?_⟩⟩
    rw [state_of_none hq]
    exact .keep rfl rfl

theorem puts_expire {s : QueueStore} {queue : String} {q : QueueState} (hq : s.queues.get? queue = some q) :
    Puts s (s.expire queue) queue { q with visible := q.messages, inFlight := [] } := by
  refine ⟨⟨rfl, rfl, Nat.le_refl _⟩, ?_⟩
  show s.queues.change queue _ = _
  rw [Dict.change, hq]
  rfl

theorem expire_of_none {s : QueueStore} {queue : String} (hq : s.queues.get? queue = none) : s.expire queue = s := by
  rw [expire, Dict.change, hq]

theorem expire_shifts (s : QueueStore) (queue : String) : Shifts s (s.expire queue) := by
  cases hq : s.queues.get? queue with
  | none => rw [expire_of_none hq]
  | some q =>
    refine .single ((puts_expire hq).moves ?_)
    rw [state_of_get? hq]
    exact .expire

end QueueStore

end DeadLetter
