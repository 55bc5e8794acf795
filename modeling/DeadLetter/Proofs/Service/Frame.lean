import DeadLetter.Proofs.World

/-!
# What a retry leaves alone

`World.Frame D M slot w w'` : from `w` to `w'` no queue but `D` and `M` changes, none but `D` loses anything, none
appears or disappears, calls fail as before, and nothing is learnt but of one queue. Each step of a retry from `D` to
`M` is like that (`Transfer.Step.frame`), and so is a whole one (`QueueHandle.retry_frame`).
-/

namespace DeadLetter

set_option autoImplicit false

open QueueStore

namespace World
variable {D M : String} {slot : Nat} {w w' w'' : World}

/-- What stays the same while one queue is retried. -/
structure Frame (D M : String) (slot : Nat) (w w' : World) : Prop where
  kept : Kept w.provider.queues w'.provider.queues
  present : ∀ n, (w'.provider.queues.queues.get? n).isSome = (w.provider.queues.queues.get? n).isSome
  others : ∀ n, n ≠ D → n ≠ M → w'.provider.queues.queues.get? n = w.provider.queues.queues.get? n
  visible : ∀ n, n ≠ D → (w.provider.queues.state n).visible <+: (w'.provider.queues.state n).visible
  inFlight : ∀ n, n ≠ D → (w'.provider.queues.state n).inFlight = (w.provider.queues.state n).inFlight
  known : ∀ i, i ≠ slot → w'.known i = w.known i
  generated : w.generated ≤ w'.generated
  late : w'.late = w.late
  looks : w.looks ≤ w'.looks

theorem Frame.refl (w : World) : Frame D M slot w w where
  kept := Kept.refl _
  present _ := rfl
  others _ _ _ := rfl
  visible _ _ := List.prefix_rfl
  inFlight _ _ := rfl
  known _ _ := rfl
  generated := Nat.le_refl _
  late := rfl
  looks := Nat.le_refl _

theorem Frame.trans (h : Frame D M slot w w') (h' : Frame D M slot w' w'') : Frame D M slot w w'' where
  kept := h.kept.trans h'.kept
  present n := (h'.present n).trans (h.present n)
  others n hD hM := (h'.others n hD hM).trans (h.others n hD hM)
  visible n hD := (h.visible n hD).trans (h'.visible n hD)
  inFlight n hD := (h'.inFlight n hD).trans (h.inFlight n hD)
  known i hi := (h'.known i hi).trans (h.known i hi)
  generated := Nat.le_trans h.generated h'.generated
  late := h'.late.trans h.late
  looks := Nat.le_trans h.looks h'.looks

theorem eq_of_perform_call {c : Call} {r : Except QueueError c.Reply} (h : w.perform (.call c) = (r, w')) :
    w' = { w with provider := w'.provider } := by
  cases h
  rfl

theorem frame_of_quiet (hq : Quiet w.provider.queues w'.provider.queues)
    (hknown : ∀ i, i ≠ slot → w'.known i = w.known i) (hgenerated : w.generated ≤ w'.generated)
    (hlate : w'.late = w.late) (hlooks : w.looks ≤ w'.looks) :
    Frame D M slot w w' where
  kept := hq.toKept
  present n := by rw [hq.queues]
  others n _ _ := by rw [hq.queues]
  visible n _ := by simp only [hq.state, List.prefix_rfl]
  inFlight n _ := by rw [hq.state]
  known := hknown
  generated := hgenerated
  late := hlate
  looks := hlooks

theorem frame_of_quiet_call {c : Call} {r : Except QueueError c.Reply} (h : w.perform (.call c) = (r, w'))
    (hq : Quiet w.provider.queues w'.provider.queues) : Frame D M slot w w' := by
  have heq := eq_of_perform_call h
  rw [heq] at hq ⊢
  exact frame_of_quiet hq (fun _ _ => rfl) (Nat.le_refl _) rfl (Nat.le_refl _)

theorem frame_of_puts {c : Call} {r : Except QueueError c.Reply} {queue : String} {q q' : QueueState}
    (h : w.perform (.call c) = (r, w')) (hq : w.provider.queues.queues.get? queue = some q)
    (hput : Puts w.provider.queues w'.provider.queues queue q') (hqueue : queue = D ∨ queue = M)
    (hgrows : queue ≠ D → q.visible <+: q'.visible ∧ q'.inFlight = q.inFlight) : Frame D M slot w w' := by
  have hstate := state_of_get? hq
  have heq := eq_of_perform_call h
  refine ⟨hput.toKept, hput.isSome_get? hq, fun n hD hM => ?_, fun n hD => ?_, fun n hD => ?_, fun i _ => ?_, ?_, ?_,
    ?_⟩
  · refine hput.get?_of_ne fun hn => ?_
    rcases hqueue with hqueue | hqueue
    · exact hD (hn.trans hqueue)
    · exact hM (hn.trans hqueue)
  · by_cases hn : n = queue
    · rw [hn, hput.state_self, hstate]
      exact (hgrows fun h => hD (hn.trans h)).1
    · simp only [hput.state_of_ne hn, List.prefix_rfl]
  · by_cases hn : n = queue
    · rw [hn, hput.state_self, hstate]
      exact (hgrows fun h => hD (hn.trans h)).2
    · rw [hput.state_of_ne hn]
  all_goals rw [heq]

end World

namespace Transfer
variable {L : Lore} {slot : Nat} {s st : Transfer} {a : Action} {r : a.Reply} {D M : String} {w w' : World}

theorem Step.frame (hD : ∀ u, L.fact slot (.dlqUrl u) → queueNameOfUrl u = D)
    (hM : ∀ u, L.fact slot (.url u) → queueNameOfUrl u = M) (hfrom : s.hand.From D) (hw : w.perform a = (r, w'))
    (h : Step L slot s a r st) : World.Frame D M slot w w' := by
  cases h with
  | quiet ha =>
    have hq := World.quiet_of_isQuiet ha hw
    cases a with
    | call c => exact World.frame_of_quiet_call hw hq
    | learn i f =>
      cases hw
      refine World.frame_of_quiet hq (fun j hj => ?_) (Nat.le_refl _) rfl (Nat.le_refl _)
      exact if_neg fun hij => hj (hij.trans ha.1)
    | generateId =>
      cases hw
      exact World.frame_of_quiet hq (fun _ _ => rfl) (Nat.le_succ _) rfl (Nat.le_refl _)
    | isLate =>
      cases hw
      exact World.frame_of_quiet hq (fun _ _ => rfl) (Nat.le_refl _) rfl (Nat.le_succ _)
    | _ =>
      cases hw
      exact World.frame_of_quiet hq (fun _ _ => rfl) (Nat.le_refl _) rfl (Nat.le_refl _)
  | receiveNothing hurl hr => exact World.frame_of_quiet_call hw (World.quiet_of_receive hr hw)
  | receive hurl =>
    obtain ⟨q, x, rest, hq, hv, _, _, hput⟩ := puts_of_receive_cons (World.receive_of_perform hw)
    exact World.frame_of_puts hw hq hput (Or.inl (hD _ hurl)) fun hne => absurd (hD _ hurl) hne
  | send hdest hm =>
    obtain ⟨q, hq, _, _, hput⟩ := puts_of_send_ok (World.send_of_perform hw)
    exact World.frame_of_puts hw hq hput (Or.inr (hM _ hdest)) fun _ => ⟨List.prefix_append _ _, rfl⟩
  | sendFails hdest hm =>
    exact World.frame_of_quiet_call hw (quiet_of_send_error (World.send_of_perform hw))
  | delete =>
    obtain ⟨q, m, hq, _, hput⟩ := puts_of_delete_ok (World.delete_of_perform hw)
    exact World.frame_of_puts hw hq hput (Or.inl hfrom) fun hne => absurd hfrom hne
  | deleteFails =>
    exact World.frame_of_quiet_call hw (quiet_of_delete_error (World.delete_of_perform hw))

end Transfer

/-- A retry leaves all but its two queues alone. -/
theorem QueueHandle.retry_frame {r : Registry} {q : QueueHandle} {D M : String} {w : World} {p : NumberPolicy}
    (hr : r.Placed) (hq : q ∈ r.queues) (hdrains : q.Drains D M) (hw : w.Reachable r) :
    World.Frame D M q.slot w ((q.retry p).result.run w).2 := by
  obtain ⟨d, hd, hD⟩ := hdrains.dlq
  have hdlqUrl (u : String) (hu : (r.lore False).fact q.slot (.dlqUrl u)) : queueNameOfUrl u = D := by
    rw [Registry.addressed_of_dlqUrl hq hd hu, hD]
  have hurl (u : String) (hu : (r.lore False).fact q.slot (.url u)) : queueNameOfUrl u = M := by
    rw [Registry.addressed_of_url hq hu, hdrains.main]
  -- what is at hand is carried along, as deleting it changes the queue that it came from
  have hstep (s : Transfer) (w' : World) (a : Action) (st : Transfer)
      (hi : s.hand.From D ∧ World.Frame D M q.slot w w')
      (h : Transfer.Step (r.lore False) q.slot s a (w'.perform a).1 st) :
      st.hand.From D ∧ World.Frame D M q.slot w (w'.perform a).2 :=
    ⟨h.comes_from hdlqUrl hi.1, hi.2.trans (h.frame hdlqUrl hurl hi.1 rfl)⟩
  obtain ⟨_, _, _, hframe⟩ := retry_keeps (p := p) hr hq hstep hw ⟨trivial, .refl w⟩
  exact hframe

end DeadLetter
