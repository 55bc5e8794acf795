import DeadLetter.Proofs.Store.Batches
import DeadLetter.Proofs.Store.Effects

/-!
# Receipt handles

`Landing s t` : from `s` to `t` no message went in flight. All calls but receives, and all changes from outside, are of
this kind. `Roster h s` : the handles of the deliveries in `h` are pairwise different, and what is in flight in `s` was
delivered in `h` under its handle; what lands keeps it (`Roster.landing`), and a receive adds its batch to it
(`Roster.receive`). A handle that was handed out and is nowhere in flight is `Spent`: it is so for good (`Turns.spent`),
and no call can use it (`Spent.delete`, `Spent.changeVisibility`). A handle that is in flight has one message
(`Settles`), which the calls on it affect and no other.
-/

namespace DeadLetter

set_option autoImplicit false

namespace QueueStore
variable {s t u : QueueStore} {queue handle : String} {q : QueueState} {m : Stored} {h : List Received}

/-! ## Changes that put nothing in flight -/

/-- From `s` to `t` no message went in flight. -/
structure Landing (s t : QueueStore) : Prop where
  lastId : s.lastId ≤ t.lastId
  inFlight : ∀ queue, (t.state queue).inFlight ⊆ (s.state queue).inFlight

theorem Landing.refl (s : QueueStore) : Landing s s := ⟨Nat.le_refl _, fun _ => List.Subset.refl _⟩

theorem Landing.trans (h : Landing s t) (h' : Landing t u) : Landing s u :=
  ⟨Nat.le_trans h.lastId h'.lastId, fun queue => List.Subset.trans (h'.inFlight queue) (h.inFlight queue)⟩

theorem landing_of_queues (h : t.queues = s.queues) (hn : s.lastId ≤ t.lastId) : Landing s t :=
  ⟨hn, fun queue => by rw [state_congr h queue]; exact List.Subset.refl _⟩

theorem Quiet.landing (h : Quiet s t) : Landing s t := landing_of_queues h.queues h.lastId

theorem Puts.landing (h : Puts s t queue q) (hq : q.inFlight ⊆ (s.state queue).inFlight) : Landing s t := by
  refine ⟨h.lastId, fun n => ?_⟩
  rw [state_put h.queues]
  split
  · next hn =>
    rw [hn]
    exact hq
  · exact List.Subset.refl _

theorem send_landing (s : QueueStore) (url : String) (m : Outbound) : Landing s (s.send url m).2 := by
  rcases send_cases s url m with ⟨_, e, t, heq, hquiet⟩ | ⟨_, q, t, hq, heq, _, hput⟩
  · rw [heq]
    exact hquiet.landing
  · rw [heq]
    exact hput.landing (state_of_get? hq ▸ List.Subset.refl _)

theorem delete_landing (s : QueueStore) (url handle : String) : Landing s (s.delete url handle).2 := by
  rcases delete_cases s url handle with ⟨_, e, t, heq, hquiet⟩ | ⟨_, q, m, t, hq, _, heq, hput⟩
  · rw [heq]
    exact hquiet.landing
  · rw [heq]
    exact hput.landing (state_of_get? hq ▸ List.eraseP_subset)

theorem purge_landing (s : QueueStore) (url : String) : Landing s (s.purge url).2 := by
  rcases purge_cases s url with ⟨e, t, heq, hquiet⟩ | ⟨q, t, _, heq, hput⟩
  · rw [heq]
    exact hquiet.landing
  · rw [heq]
    exact hput.landing (List.nil_subset _)

theorem changeVisibility_landing (s : QueueStore) (url handle : String) (seconds : Int) :
    Landing s (s.changeVisibility url handle seconds).2 := by
  rcases changeVisibility_cases s url handle seconds with ⟨e, t, heq, hquiet⟩ | ⟨q, m, t, hq, _, heq, hput⟩
  · rw [heq]
    exact hquiet.landing
  · rw [heq]
    refine hput.landing ?_
    rw [state_of_get? hq]
    split
    · exact List.eraseP_subset
    · exact List.Subset.refl _

theorem createQueue_landing (s : QueueStore) (queue : String) (attributes : Dict String) :
    Landing s (s.createQueue queue attributes).2 := by
  rcases createQueue_cases s queue attributes with ⟨e, t, heq, hquiet⟩ | ⟨q, t, heq, hput, _, hf⟩
  · rw [heq]
    exact hquiet.landing
  · rw [heq]
    exact hput.landing (hf ▸ List.Subset.refl _)

theorem seed_landing (s : QueueStore) (queue : String) (m : Outbound) : Landing s (s.seed queue m).2 :=
  (puts_seed s queue m).landing (List.Subset.refl _)

theorem create_landing (s : QueueStore) (queue : String) : Landing s (s.create queue) := by
  unfold create Dict.ensure Dict.has
  cases hq : s.queues.get? queue with
  | some q => exact .refl s
  | none =>
    have hput : Puts s { s with queues := s.queues.put queue {} } queue {} := ⟨⟨rfl, rfl, Nat.le_refl _⟩, rfl⟩
    exact hput.landing (List.nil_subset _)

theorem expire_landing (s : QueueStore) (queue : String) : Landing s (s.expire queue) := by
  cases hq : s.queues.get? queue with
  | none =>
    rw [expire_of_none hq]
    exact .refl s
  | some q => exact (puts_expire hq).landing (List.nil_subset _)

/-! ## What is in flight was delivered -/

/-- The handles of all deliveries are pairwise different, and what is in flight was delivered under its handle. -/
structure Roster (h : List Received) (s : QueueStore) : Prop where
  issued : Stamped HandleStamp s.lastId (h.map (·.handle))
  delivered : ∀ queue, ∀ e ∈ (s.state queue).inFlight, e.2.deliver e.1 ∈ h

theorem roster_empty : Roster [] {} := ⟨⟨List.nodup_nil, nofun⟩, nofun⟩

theorem Roster.landing (hr : Roster h s) (hst : Landing s t) : Roster h t :=
  ⟨hr.issued.subperm (List.Subperm.refl _) hst.lastId, fun queue e he => hr.delivered queue e (hst.inFlight queue he)⟩

/-- What is in flight after changes was in flight before them, or has a handle that was made meanwhile. -/
theorem Turns.mem_inFlight (hst : Turns s t) (hm : (handle, m) ∈ (t.state queue).inFlight) :
    (handle, m) ∈ (s.state queue).inFlight ∨ ∃ k, HandleStamp handle k ∧ s.lastId < k := by
  induction hst using Relation.ReflTransGen.head_induction_on with
  | refl => exact Or.inl hm
  | head hmove _ ih =>
    rcases ih with hm | ⟨k, hk, hlt⟩
    · obtain ⟨_, heq | ⟨queue', q, heq, hturn⟩⟩ := hmove
      · exact Or.inl (state_congr heq queue ▸ hm)
      · rw [state_put heq] at hm
        split at hm
        · next hqueue =>
          rw [hqueue]
          exact hturn.mem_inFlight hm
        · exact Or.inl hm
    · exact Or.inr ⟨k, hk, Nat.lt_of_le_of_lt hmove.1 hlt⟩

theorem handle_mem_handles (hm : (handle, m) ∈ (s.state queue).inFlight) : handle ∈ s.handles := by
  have hget := get?_of_mem_messages (List.mem_append_right _ (List.mem_map_of_mem hm))
  exact List.mem_flatMap.mpr ⟨_, Dict.mem_of_get? hget, List.mem_map_of_mem hm⟩

theorem Takes.made {limit : Nat} {batch : List (String × Stored)} (h : Takes s t queue limit batch)
    (hst : Turns s t) (hs : Sound s) :
    (batch.map (·.1)).Nodup ∧ ∀ e ∈ batch, ∃ k, HandleStamp e.1 k ∧ s.lastId < k ∧ k ≤ t.lastId := by
  have hsound := hst.sound hs
  have hnodup := hsound.handles_nodup queue
  have hflight : (t.state queue).inFlight = (s.state queue).inFlight ++ batch := by rw [h.self]
  rw [QueueState.handles, hflight, List.map_append] at hnodup
  obtain ⟨_, hbatch, hdisjoint⟩ := List.nodup_append.mp hnodup
  refine ⟨hbatch, fun e he => ?_⟩
  have hmem : e ∈ (t.state queue).inFlight := hflight ▸ List.mem_append_right _ he
  rcases hst.mem_inFlight hmem with hold | ⟨k, hk, hlt⟩
  · exact absurd rfl (hdisjoint e.1 (List.mem_map_of_mem hold) e.1 (List.mem_map_of_mem he))
  · obtain ⟨j, hj, hstamp⟩ := hsound.handles.made e.1 (handle_mem_handles hmem)
    rw [handleStamp_unique e.1 k j hk hstamp] at hlt
    exact ⟨j, hstamp, hlt, hj⟩

theorem handle_handedOut (batch : List (String × Stored)) : (handedOut batch).map (·.handle) = batch.map (·.1) := by
  rw [handedOut, List.map_map]
  rfl

theorem Roster.receive {url : String} {limit : Nat} {batch : List (String × Stored)} (hr : Roster h s) (hs : Sound s)
    (htakes : Takes s t (queueNameOfUrl url) limit batch) (hst : Turns s t) : Roster (h ++ handedOut batch) t := by
  obtain ⟨hbatch, hmade⟩ := htakes.made hst hs
  refine ⟨⟨?_, fun x hx => ?_⟩, fun queue e he => ?_⟩
  · rw [List.map_append, handle_handedOut]
    refine List.nodup_append.mpr ⟨hr.issued.distinct, hbatch, ?_⟩
    rintro x hx y hy rfl
    -- the handles before were made with numbers drawn before
    obtain ⟨e, he, rfl⟩ := List.mem_map.mp hy
    obtain ⟨k, hk, hlt, _⟩ := hmade e he
    exact hr.issued.notMem handleStamp_unique hk hlt hx
  · rw [List.map_append, handle_handedOut] at hx
    rcases List.mem_append.mp hx with hx | hx
    · obtain ⟨k, hk, hstamp⟩ := hr.issued.made x hx
      exact ⟨k, Nat.le_trans hk htakes.lastId, hstamp⟩
    · obtain ⟨e, he, rfl⟩ := List.mem_map.mp hx
      obtain ⟨k, hk, _, hle⟩ := hmade e he
      exact ⟨k, hle, hk⟩
  · by_cases hqueue : queue = queueNameOfUrl url
    · rw [hqueue, htakes.self] at he
      rcases List.mem_append.mp he with he | he
      · exact List.mem_append_left _ (hr.delivered _ e he)
      · exact List.mem_append_right _ (List.mem_map.mpr ⟨e, he, rfl⟩)
    · rw [state, htakes.others queue hqueue] at he
      exact List.mem_append_left _ (hr.delivered queue e he)

/-! ## Handles that are spent -/

/-- A handle was handed out, and nothing is in flight under it. -/
structure Spent (s : QueueStore) (handle : String) : Prop where
  issued : ∃ k ≤ s.lastId, HandleStamp handle k
  absent : ∀ queue m, (handle, m) ∉ (s.state queue).inFlight

theorem Turns.lastId (hst : Turns s t) : s.lastId ≤ t.lastId := by
  induction hst with
  | refl => exact Nat.le_refl _
  | tail _ hmove ih => exact Nat.le_trans ih hmove.1

theorem Turns.spent (hst : Turns s t) (h : Spent s handle) : Spent t handle := by
  obtain ⟨k, hk, hstamp⟩ := h.issued
  refine ⟨⟨k, Nat.le_trans hk hst.lastId, hstamp⟩, fun queue m hm => ?_⟩
  rcases hst.mem_inFlight hm with hm | ⟨j, hj, hlt⟩
  · exact h.absent queue m hm
  · have := handleStamp_unique handle k j hstamp hj
    omega

theorem Spent.lookup (h : Spent s handle) (hq : s.queues.get? queue = some q) : q.inFlight.lookup handle = none := by
  cases hm : q.inFlight.lookup handle with
  | none => rfl
  | some m =>
    refine absurd ?_ (h.absent queue m)
    rw [state_of_get? hq]
    exact (perm_of_lookup hm).symm.subset List.mem_cons_self

theorem Spent.delete (h : Spent s handle) (url : String) :
    ∃ e t, s.delete url handle = (.error e, t) ∧ Quiet s t := by
  rcases delete_cases s url handle with ⟨_, herror⟩ | ⟨_, q, m, t, hq, hm, _, _⟩
  · exact herror
  · rw [h.lookup hq] at hm
    cases hm

theorem Spent.changeVisibility (h : Spent s handle) (url : String) (seconds : Int) :
    ∃ e t, s.changeVisibility url handle seconds = (.error e, t) ∧ Quiet s t := by
  rcases changeVisibility_cases s url handle seconds with herror | ⟨q, m, t, hq, hm, _, _⟩
  · exact herror
  · rw [h.lookup hq] at hm
    cases hm

/-! ## The message under a handle -/

/-- From `s` to `t` the one message in flight under a handle, which is on `queue`, no longer is, `back` becomes visible
there behind all others, and no other message changes. -/
structure Settles (s t : QueueStore) (queue handle : String) (m : Stored) (back : List Stored) : Prop where
  others : ∀ n, n ≠ queue → t.queues.get? n = s.queues.get? n
  visible : (t.state queue).visible = (s.state queue).visible ++ back
  inFlight : ∃ before after, (s.state queue).inFlight = before ++ (handle, m) :: after ∧
    (t.state queue).inFlight = before ++ after
  spent : Spent t handle

/-- The entry that a look-up finds is the first one with its key. -/
theorem split_of_lookup {α : Type} {l : List (String × α)} {k : String} {a : α} (h : l.lookup k = some a) :
    ∃ before after, l = before ++ (k, a) :: after ∧ l.eraseP (·.1 == k) = before ++ after := by
  obtain ⟨before, after, hsplit, hbefore⟩ := List.lookup_eq_some_iff.mp h
  refine ⟨before, after, hsplit, ?_⟩
  rw [hsplit, List.eraseP_append_right, List.eraseP_cons_of_pos (by exact beq_self_eq_true k)]
  intro e he heq
  exact bne_iff_ne.mp (hbefore e he) (beq_iff_eq.mp heq).symm

/-- A handle that leaves its queue is nowhere else. -/
theorem Puts.spent (hs : Sound s) (hput : Puts s t queue q)
    (hq : (handle :: q.handles).Subperm (s.state queue).handles) : Spent t handle := by
  obtain ⟨before, after, hold, hnew⟩ := Dict.flatMap_put hs.ordered (fun e => e.2.handles) queue {} rfl
  have hsubperm : (handle :: t.handles).Subperm s.handles := by
    rw [handles, handles, hput.queues, hold, hnew]
    refine List.perm_middle.symm.subperm.trans ?_
    exact (List.subperm_append_left before).mpr ((List.subperm_append_right after).mpr hq)
  have hstamped := hs.handles.subperm hsubperm hput.lastId
  refine ⟨hstamped.made handle List.mem_cons_self, fun queue' m' hm' => ?_⟩
  exact (List.nodup_cons.mp hstamped.distinct).1 (handle_mem_handles hm')

theorem Spent.of_expire (hs : Sound s) (hm : (handle, m) ∈ (s.state queue).inFlight) :
    Spent (s.expire queue) handle := by
  have hput := puts_expire (get?_of_mem_messages (List.mem_append_right _ (List.mem_map_of_mem hm)))
  exact hput.spent hs (List.singleton_subperm_iff.mpr (List.mem_map_of_mem hm))

/-- A queue that loses what is in flight under a handle settles it. -/
theorem Puts.settles (hs : Sound s) (hput : Puts s t queue q) (hm : (s.state queue).inFlight.lookup handle = some m)
    {back : List Stored} (hv : q.visible = (s.state queue).visible ++ back)
    (hf : q.inFlight = (s.state queue).inFlight.eraseP (·.1 == handle)) : Settles s t queue handle m back where
  others _ hn := hput.get?_of_ne hn
  visible := by rw [hput.state_self, hv]
  inFlight := by
    obtain ⟨before, after, hsplit, herase⟩ := split_of_lookup hm
    exact ⟨before, after, hsplit, by rw [hput.state_self, hf, herase]⟩
  spent := by
    have hperm := (perm_of_lookup hm).map (·.1)
    refine hput.spent hs ?_
    rw [QueueState.handles, hf]
    exact hperm.symm.subperm

theorem settles_of_delete (hs : Sound s) {url : String} (h : s.delete url handle = (.ok (), t)) :
    ∃ m, (handle, m) ∈ (s.state (queueNameOfUrl url)).inFlight ∧
      Settles s t (queueNameOfUrl url) handle m [] := by
  obtain ⟨q, m, hq, hm, hput⟩ := puts_of_delete_ok h
  rw [← state_of_get? hq] at hm hput
  exact ⟨m, (perm_of_lookup hm).symm.subset List.mem_cons_self, hput.settles hs hm (List.append_nil _).symm rfl⟩

/-- Hiding for no time settles the message in flight under its handle, which is visible then; hiding for any other time
changes no queue. -/
theorem settles_of_changeVisibility (hs : Sound s) {url : String} {seconds : Int}
    (h : s.changeVisibility url handle seconds = (.ok (), t)) :
    ∃ m, (handle, m) ∈ (s.state (queueNameOfUrl url)).inFlight ∧
      if seconds = 0 then Settles s t (queueNameOfUrl url) handle m [m]
      else ∀ n, t.queues.get? n = s.queues.get? n := by
  rcases changeVisibility_cases s url handle seconds with ⟨e, t', heq, _⟩ | ⟨q, m, t', hq, hm, heq, hput⟩
  · rw [heq] at h
    cases h
  · rw [heq] at h
    cases h
    rw [← state_of_get? hq] at hm
    refine ⟨m, (perm_of_lookup hm).symm.subset List.mem_cons_self, ?_⟩
    split
    · next hzero =>
      rw [if_pos hzero, ← state_of_get? hq] at hput
      exact hput.settles hs hm rfl rfl
    · next hzero =>
      rw [if_neg hzero] at hput
      intro n
      rw [hput.get?]
      split
      · next hn => rw [hn, hq]
      · rfl

end QueueStore

end DeadLetter
