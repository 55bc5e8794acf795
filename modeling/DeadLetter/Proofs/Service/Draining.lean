import DeadLetter.Proofs.Routine.Journal
import DeadLetter.Proofs.Store.Batches
import DeadLetter.Proofs.Store.Groups
import DeadLetter.Proofs.Store.Takings

/-!
# What a drain does

An attempt takes the first visible message of the dead letter queue, or nothing (`moveOne_takes`, `moveOne_nothing`).
So a drain takes as many messages as it makes attempts before the deadline, and as are visible, unless receiving fails:
`drain_redrives`. What becomes of each is decided by what is made to fail and by its group.
-/

namespace DeadLetter

set_option autoImplicit false

open QueueStore

/-- How many of a number of attempts are made before the deadline is seen to have passed. -/
def World.timely (w : World) (attempts : Nat) : Nat := ((List.range' w.looks attempts).takeWhile (!w.late ·)).length

theorem World.timely_zero (w : World) : w.timely 0 = 0 := rfl

theorem World.timely_succ (w : World) (attempts : Nat) :
    w.timely (attempts + 1) =
      if w.late w.looks then 0 else World.timely { w with looks := w.looks + 1 } attempts + 1 := by
  unfold World.timely
  rw [List.range'_succ, List.takeWhile_cons]
  cases w.late w.looks <;> rfl

/-- Where the deadline has passed for good, no attempt is made. -/
theorem World.timely_of_late {w : World} (h : ∀ i, w.looks ≤ i → w.late i = true) (attempts : Nat) :
    w.timely attempts = 0 := by
  cases attempts with
  | zero => rfl
  | succ attempts => rw [timely_succ, h _ (Nat.le_refl _), if_pos rfl]

/-- Where the deadline never passes, all attempts are made. -/
theorem World.timely_of_not_late {w : World} (h : ∀ i, w.looks ≤ i → w.late i = false) (attempts : Nat) :
    w.timely attempts = attempts := by
  induction attempts generalizing w with
  | zero => rfl
  | succ attempts ih =>
    rw [timely_succ, h _ (Nat.le_refl _), if_neg Bool.false_ne_true]
    exact congrArg (· + 1) (ih fun i hi => h i (Nat.le_of_succ_le hi))

theorem World.timely_congr {w w' : World} (hlate : w'.late = w.late) (hlooks : w'.looks = w.looks) (attempts : Nat) :
    w'.timely attempts = w.timely attempts := by
  rw [World.timely, World.timely, hlate, hlooks]

/-- The message that an attempt moved. -/
def movedBy : Except QueueError (Option Received) → List Received
  | .ok (some m) => [m]
  | .ok none | .error _ => []

/-- From `w` to `w'` messages were taken off `D` for `M`, in the order of `takings`. -/
structure QueueHandle.Redrives (q : QueueHandle) (D M : String) (w w' : World) (takings : List Taking) : Prop where
  carries : Carries w.provider.queues w'.provider.queues D M takings
  events : w'.events = w.events
  late : w'.late = w.late
  generated : q.isFifo = true → w'.generated = w.generated + takings.length
  fits : ∀ (i : Nat) (x : Taking), takings[i]? = some x → x.Fits w.provider.queues D M q (w.generated + i)

namespace QueueHandle.Redrives
variable {q : QueueHandle} {w w' w'' : World} {D M : String} {takings takings' : List Taking}

theorem of_quiet (h : Quiet w.provider.queues w'.provider.queues) (hevents : w'.events = w.events)
    (hlate : w'.late = w.late) (hgenerated : w'.generated = w.generated) : q.Redrives D M w w' [] :=
  ⟨h.carries, hevents, hlate, fun _ => hgenerated, nofun⟩

theorem trans (h : q.Redrives D M w w' takings) (h' : q.Redrives D M w' w'' takings') :
    q.Redrives D M w w'' (takings ++ takings') where
  carries := h.carries.trans h'.carries
  events := h'.events.trans h.events
  late := h'.late.trans h.late
  generated hfifo := by rw [h'.generated hfifo, h.generated hfifo, List.length_append, Nat.add_assoc]
  fits i x hx := by
    rw [List.getElem?_append] at hx
    split at hx
    · exact h.fits i x hx
    · next hi =>
      refine ((h'.fits _ x hx).of_beside h.carries.toBeside).of_eq fun hfifo => ?_
      rw [h.generated hfifo]
      omega

end QueueHandle.Redrives

namespace QueueHandle
variable {q : QueueHandle} {w : World} {D M dlqUrl url : String} {m : Stored} {rest : List Stored}

theorem drain_succ (q : QueueHandle) (dlqUrl url : String) (attempts : Nat) (w : World) :
    (q.drain dlqUrl url (attempts + 1)).run w =
      if w.late w.looks then ([], { w with looks := w.looks + 1 })
      else
        let first := (q.moveOne dlqUrl url).result.run { w with looks := w.looks + 1 }
        let others := (q.drain dlqUrl url attempts).run first.2
        (movedBy first.1 ++ others.1, others.2) := by
  have hlook : (Routine.perform .isLate).run w = (w.late w.looks, { w with looks := w.looks + 1 }) := rfl
  rw [drain, Routine.run_bind, hlook]
  cases w.late w.looks with
  | true => rfl
  | false =>
    dsimp only
    rw [if_neg Bool.false_ne_true, if_neg Bool.false_ne_true, Routine.run_bind]
    match (q.moveOne dlqUrl url).result.run { w with looks := w.looks + 1 } with
    | (.error e, w') => rfl
    | (.ok none, w') => rfl
    | (.ok (some m), w') => exact Routine.run_bind _ _ _

theorem copyOf_resent (q : QueueHandle) (m : Stored) (handle : String) (w : World) :
    (q.copyOf (m.delivered.deliver handle)).result.run w =
      (.ok (q.resent w.generated m), { w with generated := w.generated + if q.isFifo then 1 else 0 }) := by
  have hgroup : (m.delivered.deliver handle).group = m.group := group_deliver m.delivered handle
  unfold copyOf resent
  cases q.isFifo with
  | true =>
    rw [if_pos rfl, hgroup]
    rfl
  | false => rfl

theorem moveOne_nothing (url : String) (hD : queueNameOfUrl dlqUrl = D)
    (h : w.provider.queues.fails .receiveMessage D = true ∨ (w.provider.queues.state D).visible = []) :
    ∃ o t, (q.moveOne dlqUrl url).result.run w = (o, w.withQueues t) ∧ movedBy o = [] ∧ Quiet w.provider.queues t := by
  unfold moveOne
  have hcases := receiveOne_cases w.provider.queues dlqUrl
  rw [hD] at hcases
  rcases hcases with ⟨_, e, t, hreceive, hquiet⟩ | ⟨hf, s, hs, ⟨_, t, hreceive, hquiet⟩ | ⟨m, rest, t, hv, _⟩⟩
  · refine ⟨.error e, t, ?_, rfl, hquiet⟩
    rw [Attempt.run_bind, Attempt.run_receive hreceive]
  · refine ⟨.ok none, t, ?_, rfl, hquiet⟩
    rw [Attempt.run_bind, Attempt.run_receive hreceive]
    rfl
  · rw [hf, state_of_get? hs, hv] at h
    rcases h with h | h <;> cases h

/-- Sends a copy of a message that was received, and deletes the message then. -/
def replace (dlqUrl url : String) (m : Received) (copy : Outbound) : Attempt (Option Received) := do
  let _ ← Attempt.call (.send url copy)
  Attempt.call (.delete dlqUrl m.handle)
  return some m

theorem moveOne_eq (q : QueueHandle) (dlqUrl url : String) :
    q.moveOne dlqUrl url = (do
      match ← Attempt.call (.receive dlqUrl 1 0) with
      | [] => return none
      | m :: _ => replace dlqUrl url m (← q.copyOf m)) := rfl

/-- The last message that was received stays in flight if its copy is refused, or deleting is made to fail. -/
theorem replace_cases (hs : Sound w.provider.queues) (hD : queueNameOfUrl dlqUrl = D) (hM : queueNameOfUrl url = M)
    (hne : D ≠ M) {r : Received} (hlast : (w.provider.queues.state D).Delivered r.handle m) (copy : Outbound) :
    (w.provider.queues.Refuses M copy.group ∧ ∃ e t, Quiet w.provider.queues t ∧
      (replace dlqUrl url r copy).result.run w = (.error e, w.withQueues t)) ∨
    (¬ w.provider.queues.Refuses M copy.group ∧ (w.provider.queues.queues.get? M).isSome ∧ ∃ s,
      Puts w.provider.queues s M
        (appended (w.provider.queues.state M) (copy.store (messageId (w.provider.queues.lastId + 1)))) ∧
      ((w.provider.queues.fails .deleteMessage D = true ∧ ∃ e t, Quiet s t ∧
          (replace dlqUrl url r copy).result.run w = (.error e, w.withQueues t)) ∨
        (w.provider.queues.fails .deleteMessage D = false ∧ (s.state D).handles.Nodup ∧ ∃ t,
          Puts s t D (removed (s.state D) r.handle) ∧
          (replace dlqUrl url r copy).result.run w = (.ok (some r), w.withQueues t)))) := by
  have hsend := Attempt.run_queues (c := .send url copy) (f := (·.send url copy)) w fun _ => rfl
  have hturns := (send_shifts w.provider.queues url copy).turns
  have hcases := send_cases w.provider.queues url copy
  unfold replace
  rw [Attempt.run_bind, hsend]
  rw [hM] at hcases
  rcases hcases with ⟨hrefuses, e, t, heq, hquiet⟩ | ⟨htakes, s₀, s, hs₀, heq, _, hput⟩
  · rw [heq]
    exact Or.inl ⟨hrefuses, e, t, hquiet, rfl⟩
  · rw [heq] at hturns ⊢
    have hsound := hturns.sound hs
    have hdelete := Attempt.run_queues (c := .delete dlqUrl r.handle) (f := (·.delete dlqUrl r.handle))
      (w.withQueues s) fun _ => rfl
    have hfails := hput.toKept.fails .deleteMessage D
    have hcases := delete_cases s dlqUrl r.handle
    dsimp only
    rw [Attempt.run_bind, hdelete]
    rw [← state_of_get? hs₀] at hput
    rw [hD] at hcases
    refine Or.inr ⟨htakes, hs₀ ▸ Option.isSome_some, s, hput, ?_⟩
    have hlast' : (s.state D).Delivered r.handle m := by rwa [hput.state_of_ne hne]
    have hlookup := hlast'.lookup (hsound.handles_nodup D)
    show _ ∨ _
    rcases hcases with ⟨hwhy, e, t, heq, hquiet⟩ | ⟨hf, s', m', t, hs', _, heq, hput'⟩
    · rw [show (w.withQueues s).provider.queues = s from rfl, heq]
      refine Or.inl ⟨hfails ▸ hwhy.resolve_right fun hnone => ?_, e, t, hquiet, rfl⟩
      have hmem : (r.handle, m) ∈ (s.state D).inFlight := (perm_of_lookup hlookup).symm.subset List.mem_cons_self
      have hthere := get?_of_mem_messages (List.mem_append_right _ (List.mem_map_of_mem hmem))
      cases (hnone _ hthere).symm.trans hlookup
    · rw [show (w.withQueues s).provider.queues = s from rfl, heq]
      rw [← state_of_get? hs'] at hput'
      exact Or.inr ⟨hfails ▸ hf, hsound.handles_nodup D, t, hput', rfl⟩

theorem moveOne_takes (hs : Sound w.provider.queues) (hD : queueNameOfUrl dlqUrl = D) (hM : queueNameOfUrl url = M)
    (hne : D ≠ M) (hpresent : (w.provider.queues.queues.get? D).isSome)
    (hf : w.provider.queues.fails .receiveMessage D = false)
    (hv : (w.provider.queues.state D).visible = m :: rest) :
    ∃ x o t, (q.moveOne dlqUrl url).result.run w =
        (o, { w.withQueues t with generated := w.generated + if q.isFifo then 1 else 0 }) ∧
      movedBy o = x.listed ∧ Carries w.provider.queues t D M [x] ∧ x.Fits w.provider.queues D M q w.generated := by
  obtain ⟨s, hs', t₁, hreceive, htake⟩ : ∃ s, w.provider.queues.queues.get? D = some s ∧ ∃ t,
      w.provider.queues.receive dlqUrl 1 = (.ok [m.delivered.deliver (w.provider.queues.nextHandle D m)], t) ∧
      Puts w.provider.queues t D (taken s rest (w.provider.queues.nextHandle D m) m) := by
    have hcases := receiveOne_cases w.provider.queues dlqUrl
    rw [hD] at hcases
    rcases hcases with ⟨hfails, _⟩ | ⟨_, s, hs', hnil | hcons⟩
    · rw [hf, ← Option.not_isSome_iff_eq_none, hpresent] at hfails
      simp at hfails
    · rw [state_of_get? hs', hnil.1] at hv
      cases hv
    · obtain ⟨m', rest', t, hv', hreceive, _, hput⟩ := hcons
      rw [state_of_get? hs', hv'] at hv
      cases hv
      exact ⟨s, hs', t, hreceive, hput⟩
  have hvisible : s.visible = m :: rest := state_of_get? hs' ▸ hv
  have hsound : Sound t₁ := by
    have := (receive_shifts w.provider.queues dlqUrl 1).turns.sound hs
    rwa [hreceive] at this
  generalize w.provider.queues.nextHandle D m = handle at hreceive htake
  have hlast : (t₁.state D).Delivered handle m.delivered := ⟨s.inFlight, by rw [htake.state_self]; rfl⟩
  have hfirst : Beside w.provider.queues t₁ D M := htake.beside hs' (Or.inl rfl)
  let w₁ : World := { w.withQueues t₁ with generated := w.generated + if q.isFifo then 1 else 0 }
  have hreplace := replace_cases (w := w₁) (r := m.delivered.deliver handle) hsound hD hM hne hlast
    (q.resent w.generated m)
  rw [moveOne_eq, Attempt.run_bind, Attempt.run_receive hreceive]
  dsimp only
  rw [Attempt.run_bind, copyOf_resent]
  rcases hreplace with ⟨hrefuses, e, t, hquiet, hrun⟩ | ⟨htakes, hM', s₂, hsend, hrest⟩
  · refine ⟨⟨m, handle, .unsent⟩, .error e, t, hrun, rfl, carries_unsent hne hs' hvisible htake hquiet, ?_⟩
    exact .unsent ((hfirst.refuses_iff M _).mp hrefuses)
  · have hsent := mt (hfirst.refuses_iff M _).mpr htakes
    have hnew : w.provider.queues.lastId < t₁.lastId + 1 := Nat.lt_succ_of_le htake.lastId
    rcases hrest with ⟨hfails, e, t, hquiet, hrun⟩ | ⟨hdeletes, hnodup, t, hdelete, hrun⟩
    · refine ⟨⟨m, handle, .undeleted _⟩, .error e, t, hrun, rfl,
        carries_undeleted hne hs' hvisible htake hsend hM' hquiet, ?_⟩
      exact .undeleted hsent (hfirst.fails _ _ ▸ hfails) hnew
    · refine ⟨⟨m, handle, .moved _⟩, .ok (some _), t, hrun, rfl,
        carries_moved hne hs' hvisible htake hsend hM' hdelete hnodup, ?_⟩
      exact .moved hsent (hfirst.fails _ _ ▸ hdeletes) hnew

/-- An attempt takes the first visible message if there is one and it can be received. -/
theorem moveOne_redrives (hs : Sound w.provider.queues) (hD : queueNameOfUrl dlqUrl = D) (hM : queueNameOfUrl url = M)
    (hne : D ≠ M) (hpresent : (w.provider.queues.queues.get? D).isSome) :
    ∃ takings o w', (q.moveOne dlqUrl url).result.run w = (o, w') ∧ movedBy o = takings.flatMap (·.listed) ∧
      q.Redrives D M w w' takings ∧ w'.looks = w.looks ∧
      takings.length = if w.provider.queues.fails .receiveMessage D then 0
        else min 1 (w.provider.queues.state D).visible.length := by
  by_cases hnothing : w.provider.queues.fails .receiveMessage D = true ∨ (w.provider.queues.state D).visible = []
  · obtain ⟨o, t, hrun, hmoved, hquiet⟩ := moveOne_nothing (q := q) url hD hnothing
    refine ⟨[], o, w.withQueues t, hrun, hmoved, .of_quiet hquiet rfl rfl rfl, rfl, ?_⟩
    rcases hnothing with hf | hv
    · rw [hf, if_pos rfl, List.length_nil]
    · rw [hv, List.length_nil, List.length_nil, Nat.min_zero, ite_self]
  · obtain ⟨hf, hv⟩ := not_or.mp hnothing
    have hf := Bool.eq_false_iff.mpr hf
    obtain ⟨m, rest, hv⟩ := List.exists_cons_of_ne_nil hv
    obtain ⟨x, o, t, hrun, hmoved, hcarries, hfits⟩ := moveOne_takes (q := q) hs hD hM hne hpresent hf hv
    refine ⟨[x], o, _, hrun, ?_, ⟨hcarries, rfl, rfl, ?_, ?_⟩, rfl, ?_⟩
    · rw [hmoved, List.flatMap_singleton]
    · intro hfifo
      show w.generated + (if q.isFifo then 1 else 0) = w.generated + 1
      rw [hfifo, if_pos rfl]
    · intro i y hy
      cases i with
      | zero =>
        cases hy
        exact hfits
      | succ i => cases hy
    · rw [hf, if_neg Bool.false_ne_true, hv]
      exact (Nat.min_eq_left (Nat.succ_le_succ (Nat.zero_le _))).symm

/-- A drain takes as many messages as it makes attempts in time, while there are any and they can be received. -/
theorem drain_redrives (hs : Sound w.provider.queues) (hD : queueNameOfUrl dlqUrl = D) (hM : queueNameOfUrl url = M)
    (hne : D ≠ M) (hpresent : (w.provider.queues.queues.get? D).isSome) (attempts : Nat) :
    ∃ takings w', (q.drain dlqUrl url attempts).run w = (takings.flatMap (·.listed), w') ∧
      q.Redrives D M w w' takings ∧
      takings.length = if w.provider.queues.fails .receiveMessage D then 0
        else min (w.timely attempts) (w.provider.queues.state D).visible.length := by
  induction attempts generalizing w with
  | zero => exact ⟨[], w, rfl, .of_quiet (Quiet.refl _) rfl rfl rfl, by simp [World.timely]⟩
  | succ attempts ih =>
    let w₁ : World := { w with looks := w.looks + 1 }
    have hlook : q.Redrives D M w w₁ [] := .of_quiet (Quiet.refl _) rfl rfl rfl
    rw [drain_succ, World.timely_succ]
    cases hlate : w.late w.looks with
    | true =>
      refine ⟨[], w₁, rfl, hlook, ?_⟩
      rw [if_pos rfl, Nat.zero_min, ite_self, List.length_nil]
    | false =>
      obtain ⟨first, o, w₂, hrun, hmoved, hfirst, hlooks, hone⟩ :=
        moveOne_redrives (q := q) (w := w₁) hs hD hM hne hpresent
      have hsound : Sound w₂.provider.queues := by
        have := (Routine.run_turns (q.moveOne dlqUrl url).result w₁).sound hs
        rwa [hrun] at this
      obtain ⟨others, w', hdrain, hothers, hlength⟩ := ih hsound ((hfirst.carries.present D).trans hpresent)
      rw [if_neg Bool.false_ne_true, if_neg Bool.false_ne_true, hrun]
      refine ⟨first ++ others, w', ?_, (hlook.trans hfirst).trans hothers, ?_⟩
      · dsimp only
        rw [hmoved, hdrain, List.flatMap_append]
      · rw [hfirst.carries.dlq, hfirst.carries.toBeside.fails, World.timely_congr hfirst.late hlooks,
          List.length_drop] at hlength
        rw [List.length_append]
        dsimp only [w₁] at hone hlength ⊢
        split at hone
        · next hf =>
          rw [if_pos hf] at hlength ⊢
          omega
        · next hf =>
          rw [if_neg hf] at hlength ⊢
          omega

end QueueHandle

end DeadLetter
