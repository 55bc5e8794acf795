import DeadLetter.Proofs.Service.Ledger
import DeadLetter.Proofs.World

/-!
# Retries that run at once

Retries from a dead letter queue to a main queue, interleaved action by action. `copies_le_of_interleaving` : no copy on
the two queues is lost at any moment, whatever fails and becomes visible again. `settled_of_interleaving` : if nothing
does, then in the end what was taken is gone, was copied once and is listed once. `concurrent_retries` says both.
-/

namespace DeadLetter

set_option autoImplicit false

open QueueStore

namespace Pool
variable {n : Nat} {queues : List QueueHandle} {topics : List TopicHandle} {buckets : List BucketHandle}
  {backoff : BackoffPolicy} {D M : String} {q : Fin n → QueueHandle} {w w' : World}

/-- Retries that start at once. -/
def retries (q : Fin n → QueueHandle) (p : NumberPolicy) (w : World) : Pool n (Except QueueError RetryReport) :=
  ⟨fun i => ((q i).retry p).result, w⟩

/-- What interleaved retries keep: no copy on the two queues is lost, and the copies made in advance come on top. -/
structure Covered (L : Lore) (among : String → Bool) (before : Payload → Nat) (ss : Fin n → Transfer) (w : World) :
    Prop where
  sound : Sound w.provider.queues
  known : L.Known w
  bound : ∀ i, (ss i).hand.Bound w.provider.queues
  copies : ∀ x, before x + ∑ i, (ss i).hand.surplus x ≤ w.provider.queues.copies among x

theorem Covered.step {L : Lore} {among : String → Bool} {before : Payload → Nat} {ss : Fin n → Transfer} {i : Fin n}
    {slot : Nat} {a : Action} {st : Transfer} (hc : Covered L among before ss w)
    (hamong : ∀ u, L.fact slot (.url u) → among (queueNameOfUrl u) = true)
    (h : Transfer.Step L slot (ss i) a (w.perform a).1 st) :
    Covered L among before (Function.update ss i st) (w.perform a).2 := by
  have hw : w.perform a = ((w.perform a).1, (w.perform a).2) := rfl
  refine ⟨(w.perform_turns a).sound hc.sound, hc.known.perform fun j f hj => (h.learns j f hj).2, fun j => ?_,
    fun x => ?_⟩
  · by_cases hj : j = i
    · rw [hj, Function.update_self]
      exact h.bound hc.sound (hc.bound i) hw
    · rw [Function.update_of_ne hj]
      exact (hc.bound j).turns (w.perform_turns a)
  · have hcopies := h.copies_le hamong hc.sound (hc.bound i) hw x
    have hsum := sum_update (fun s : Transfer => s.hand.surplus x) ss i st
    have hbefore := hc.copies x
    omega

theorem Covered.expire {L : Lore} {among : String → Bool} {before : Payload → Nat} {ss : Fin n → Transfer}
    (hc : Covered L among before ss w) (queue : String) :
    Covered L among before ss { w with provider := (Memory.Control.expire queue).apply w.provider } := by
  have hshifts := Memory.Control.apply_shifts w.provider (.expire queue)
  refine ⟨hshifts.turns.sound hc.sound, hc.known, fun j => (hc.bound j).turns hshifts.turns, fun x => ?_⟩
  exact Nat.le_trans (hc.copies x) (hshifts.copies_le hc.sound among x)

/-- However retries from one dead letter queue interleave, no copy on it and on the main queue is lost. -/
theorem copies_le_of_interleaving {r : Registry} {p : NumberPolicy} {smooth : Prop}
    {y : Pool n (Except QueueError RetryReport)} (hr : r.Placed) (hw : w.Reachable r)
    (hq : ∀ i, q i ∈ r.queues ∧ (q i).Drains D M)
    (h : Interleaving D smooth (retries q p w) y) (x : Payload) :
    w.provider.queues.copies (onEither D M) x ≤ y.world.provider.queues.copies (onEither D M) x := by
  let L := r.lore smooth
  let I := Covered (n := n) L (onEither D M) (w.provider.queues.copies (onEither D M))
  have hstep (ss : Fin n → Transfer) (w' : World) (i : Fin n) (a : Action) (st : Transfer) (hc : I ss w')
      (_ : smooth → a.Answered (w'.perform a).1) (hs : Transfer.Step L (q i).slot (ss i) a (w'.perform a).1 st) :
      I (Function.update ss i st) (w'.perform a).2 := by
    refine hc.step (fun u hu => ?_) hs
    rw [Registry.addressed_of_url (hq i).1 hu, (hq i).2.main, onEither]
    simp
  have hstart : I (fun _ => {}) w := by
    refine ⟨hw.sound, hw.known smooth, fun _ => trivial, fun x => ?_⟩
    simp [Hand.surplus]
  obtain ⟨ss, _, hc⟩ := h.keeps (P := fun i => Transfer.protocol L (q i).slot)
    (fun ss w' i a hc ha => ⟨Registry.lore_truthful hc.known a, ha⟩) hstep (fun ss w' _ hc => hc.expire D)
    (fun i => (q i).retry_follows (Registry.lore_covers hr (hq i).1 smooth) p) hstart
  exact Nat.le_trans (Nat.le_add_right _ _) (hc.copies x)

/-! ## Smooth interleavings -/

theorem ledger_step {d₀ m₀ : QueueState} {ss : Fin n → Transfer} {L : Lore} {slot : Nat} {i : Fin n} {a : Action}
    {r : a.Reply} {s st : Transfer} (hne : D ≠ M) (hD : ∀ u, L.fact slot (.dlqUrl u) → queueNameOfUrl u = D)
    (hM : ∀ u, L.fact slot (.url u) → queueNameOfUrl u = M) (hsound : Sound w.provider.queues) (hi : ss i = s)
    (hfrom : s.hand.From D) (hw : w.perform a = (r, w')) (ha : a.Answered r) (h : Transfer.Step L slot s a r st)
    (hl : ∃ taken pending copies,
      Ledger d₀ m₀ ss (w.provider.queues.state D) (w.provider.queues.state M) taken pending copies) :
    ∃ taken pending copies, Ledger d₀ m₀ (Function.update ss i st) (w'.provider.queues.state D)
      (w'.provider.queues.state M) taken pending copies := by
  obtain ⟨taken, pending, copies, hl⟩ := hl
  have hquiet (hst : st = s) (hq : Quiet w.provider.queues w'.provider.queues) :
      ∃ taken pending copies, Ledger d₀ m₀ (Function.update ss i st) (w'.provider.queues.state D)
        (w'.provider.queues.state M) taken pending copies := by
    rw [hst, ← hi, Function.update_eq_self, hq.state, hq.state]
    exact ⟨taken, pending, copies, hl⟩
  cases h with
  | quiet hqa => exact hquiet rfl (World.quiet_of_isQuiet hqa hw)
  | receiveNothing hurl hr => exact hquiet rfl (World.quiet_of_receive hr hw)
  | @receive url moved r rs hurl =>
    obtain ⟨q, x, rest, hq, hv, rfl, _, hput⟩ := puts_of_receive_cons (World.receive_of_perform hw)
    rw [hD url hurl] at hq hput
    rw [hput.state_self, hput.state_of_ne hne.symm, hD url hurl]
    rw [state_of_get? hq] at hl
    exact ⟨_, _, _, hl.receive hi hv⟩
  | @send url dest id moved x copy hdest hm =>
    obtain ⟨q, hq, _, _, hput⟩ := puts_of_send_ok (World.send_of_perform hw)
    rw [hM dest hdest] at hq hput
    rw [hput.state_self, hput.state_of_ne hne]
    rw [state_of_get? hq] at hl
    exact ⟨_, _, _, hl.send hi hm⟩
  | sendFails =>
    obtain ⟨v, hv⟩ := ha
    cases hv
  | @delete url moved x =>
    obtain ⟨q, m, hq, _, hput⟩ := puts_of_delete_ok (World.delete_of_perform hw)
    have hnodup := hsound.handles_nodup D
    rw [show queueNameOfUrl url = D from hfrom] at hq hput
    rw [hput.state_self, hput.state_of_ne hne.symm]
    rw [state_of_get? hq] at hl hnodup
    exact ⟨_, _, _, hl.delete hnodup hi⟩
  | deleteFails =>
    obtain ⟨v, hv⟩ := ha
    cases hv

/-- What interleaved retries keep while no call fails. -/
structure Accounted (L : Lore) (D M : String) (before : QueueStore) (ss : Fin n → Transfer) (w : World) : Prop where
  sound : Sound w.provider.queues
  known : L.Known w
  comes_from : ∀ i, (ss i).hand.From D
  ledger : ∃ taken pending copies, Ledger (before.state D) (before.state M) ss (w.provider.queues.state D)
    (w.provider.queues.state M) taken pending copies

theorem Accounted.step {L : Lore} {before : QueueStore} {ss : Fin n → Transfer} {i : Fin n} {slot : Nat} {a : Action}
    {st : Transfer} (hc : Accounted L D M before ss w) (hne : D ≠ M)
    (hD : ∀ u, L.fact slot (.dlqUrl u) → queueNameOfUrl u = D)
    (hM : ∀ u, L.fact slot (.url u) → queueNameOfUrl u = M) (ha : a.Answered (w.perform a).1)
    (h : Transfer.Step L slot (ss i) a (w.perform a).1 st) :
    Accounted L D M before (Function.update ss i st) (w.perform a).2 := by
  refine ⟨(w.perform_turns a).sound hc.sound, hc.known.perform fun j f hj => (h.learns j f hj).2, fun j => ?_, ?_⟩
  · by_cases hj : j = i
    · rw [hj, Function.update_self]
      exact h.comes_from hD (hc.comes_from i)
    · rw [Function.update_of_ne hj]
      exact hc.comes_from j
  · exact ledger_step hne hD hM hc.sound rfl (hc.comes_from i) rfl ha h hc.ledger

end Pool

/-- How often a report lists a message. -/
def RetryReport.listings (r : RetryReport) (id : String) : Nat := r.messages.countP (·.id = id)

/-- The entry of a report for a message with a key. -/
def reportOf (p : NumberPolicy) (key : String × Payload) : ReportedMessage :=
  ⟨decodeBody p key.2.body, key.1, key.2.attributes⟩

/-- The outcome of retries that ran at once: the messages taken from the front of the dead letter queue were copied to
the main queue, once each, are gone, and are listed once, by one of the retries; the others are as they were. -/
structure Settled (before after : QueueStore) (D M : String) (p : NumberPolicy) {n : Nat}
    (reports : Fin n → RetryReport) (taken copies : List Stored) : Prop where
  visible : (before.state D).visible = taken ++ (after.state D).visible
  inFlight : (after.state D).inFlight = (before.state D).inFlight
  main : (after.state M).visible = (before.state M).visible ++ copies
  copied : (copies.map Stored.payload).Perm (taken.map Stored.payload)
  gone : ∀ m ∈ taken, m.id ∉ (after.state D).messages.map (·.id)
  listed : ∀ m ∈ taken, ∃ i, reportOf p m.key ∈ (reports i).messages ∧ (reports i).listings m.id = 1 ∧
    ∀ j, j ≠ i → (reports j).listings m.id = 0
  unlisted : ∀ m ∈ (after.state D).visible, ∀ i, (reports i).listings m.id = 0

theorem eq_one_of_sum_eq_one {ι : Type} [Fintype ι] [DecidableEq ι] {c : ι → Nat} (h : ∑ i, c i = 1) {i : ι}
    (hi : 0 < c i) : c i = 1 ∧ ∀ j, j ≠ i → c j = 0 := by
  rw [Finset.sum_eq_add_sum_sdiff_singleton_of_mem (Finset.mem_univ i)] at h
  refine ⟨by omega, fun j hj => ?_⟩
  have hrest : ∑ x ∈ Finset.univ \ {i}, c x = 0 := by omega
  exact Finset.sum_eq_zero_iff.mp hrest j (by simp [hj])

/-- Together the reports list what was taken, as often as it was taken. -/
theorem sum_listings {n : Nat} {p : NumberPolicy} {reports : Fin n → RetryReport} {taken : List Stored}
    (h : (↑(taken.map fun m => reportOf p m.key) : Multiset ReportedMessage) =
      ∑ i, (↑(reports i).messages : Multiset ReportedMessage)) (id : String) :
    ∑ i, (reports i).listings id = (taken.map (·.id)).count id := by
  have hcount := congrArg (Multiset.countPAddMonoidHom fun m : ReportedMessage => m.id = id) h
  rw [map_sum] at hcount
  simp only [Multiset.coe_countPAddMonoidHom, Multiset.coe_countP, List.countP_map] at hcount
  rw [List.count, List.countP_map]
  exact hcount.symm

theorem listings_eq_zero {n : Nat} {p : NumberPolicy} {reports : Fin n → RetryReport} {taken : List Stored}
    (h : (↑(taken.map fun m => reportOf p m.key) : Multiset ReportedMessage) =
      ∑ i, (↑(reports i).messages : Multiset ReportedMessage)) {id : String} (hid : id ∉ taken.map (·.id))
    (i : Fin n) : (reports i).listings id = 0 := by
  have hnone : ∑ i, (reports i).listings id = 0 := by
    rw [sum_listings h]
    exact List.count_eq_zero_of_not_mem hid
  exact Finset.sum_eq_zero_iff.mp hnone i (Finset.mem_univ i)

theorem exists_listed {n : Nat} {p : NumberPolicy} {reports : Fin n → RetryReport} {taken : List Stored}
    (h : (↑(taken.map fun m => reportOf p m.key) : Multiset ReportedMessage) =
      ∑ i, (↑(reports i).messages : Multiset ReportedMessage)) (hnodup : (taken.map (·.id)).Nodup) {m : Stored}
    (hm : m ∈ taken) : ∃ i, reportOf p m.key ∈ (reports i).messages ∧ (reports i).listings m.id = 1 ∧
      ∀ j, j ≠ i → (reports j).listings m.id = 0 := by
  have hone : ∑ i, (reports i).listings m.id = 1 := by
    rw [sum_listings h]
    exact List.count_eq_one_of_mem hnodup (List.mem_map.mpr ⟨m, hm, rfl⟩)
  have hmem : reportOf p m.key ∈ ∑ i, (↑(reports i).messages : Multiset ReportedMessage) := by
    rw [← h]
    exact List.mem_map.mpr ⟨m, hm, rfl⟩
  obtain ⟨i, _, hi⟩ := Multiset.mem_sum.mp hmem
  have hpos : 0 < (reports i).listings m.id := List.countP_pos_iff.mpr ⟨reportOf p m.key, hi, decide_eq_true rfl⟩
  obtain ⟨heq, hothers⟩ := eq_one_of_sum_eq_one hone hpos
  exact ⟨i, hi, heq, hothers⟩

namespace Pool
variable {n : Nat} {queues : List QueueHandle} {topics : List TopicHandle} {buckets : List BucketHandle}
  {backoff : BackoffPolicy} {D M : String} {q : Fin n → QueueHandle} {w w' : World}

theorem settled_of_ledger {before after : QueueStore} {p : NumberPolicy} {ss : Fin n → Transfer}
    {reports : Fin n → RetryReport} {taken copies : List Stored} {pending : List (String × Stored)}
    (hs : Sound before)
    (hl : Ledger (before.state D) (before.state M) ss (after.state D) (after.state M) taken pending copies)
    (hfree : ∀ i, (ss i).hand = .free) (hreports : ∀ i, (reports i).messages = (ss i).moved.map (·.report p)) :
    Settled before after D M p reports taken copies := by
  obtain ⟨rfl, hcopied, htaken⟩ := hl.settled hfree
  have hlisted : (↑(taken.map fun m => reportOf p m.key) : Multiset ReportedMessage) =
      ∑ i, (↑(reports i).messages : Multiset ReportedMessage) := by
    have hmap := congrArg (Multiset.mapAddMonoidHom (reportOf p)) htaken
    rw [map_sum] at hmap
    simp only [Multiset.coe_mapAddMonoidHom, Multiset.map_coe, List.map_map] at hmap
    rw [Finset.sum_congr rfl fun i _ => congrArg Multiset.ofList (hreports i)]
    exact hmap
  have hinFlight : (after.state D).inFlight = (before.state D).inFlight := by
    rw [hl.inFlight, List.append_nil]
  -- what was taken and what is left were one list without repetitions
  have hids := hs.ids_nodup D
  rw [QueueState.messages, hl.visible, List.append_assoc, List.map_append, ← hinFlight] at hids
  obtain ⟨hnodup, _, hdisjoint⟩ := List.nodup_append.mp hids
  refine ⟨hl.visible, hinFlight, hl.main, hcopied, fun m hm hleft => ?_, fun m hm => exists_listed hlisted hnodup hm,
    fun m hm => listings_eq_zero hlisted fun htaken => ?_⟩
  · exact hdisjoint m.id (List.mem_map.mpr ⟨m, hm, rfl⟩) m.id hleft rfl
  · refine hdisjoint m.id htaken m.id ?_ rfl
    rw [List.map_append]
    exact List.mem_append_left _ (List.mem_map.mpr ⟨m, hm, rfl⟩)

theorem settled_of_interleaving {r : Registry} {p : NumberPolicy} {y : Pool n (Except QueueError RetryReport)}
    (hr : r.Placed) (hw : w.Reachable r) (hq : ∀ i, q i ∈ r.queues ∧ (q i).Drains D M) (hne : D ≠ M)
    (h : Interleaving D True (retries q p w) y) (hdone : ∀ i, ∃ o, y.routines i = .done o) :
    ∃ reports : Fin n → RetryReport, (∀ i, y.routines i = .done (.ok (reports i))) ∧
      ∃ taken copies, Settled w.provider.queues y.world.provider.queues D M p reports taken copies := by
  let L := r.lore True
  let I := Accounted (n := n) L D M w.provider.queues
  have hstep (ss : Fin n → Transfer) (w' : World) (i : Fin n) (a : Action) (st : Transfer) (hc : I ss w')
      (ha : True → a.Answered (w'.perform a).1) (hs : Transfer.Step L (q i).slot (ss i) a (w'.perform a).1 st) :
      I (Function.update ss i st) (w'.perform a).2 := by
    obtain ⟨d, hd, hD⟩ := (hq i).2.dlq
    refine hc.step hne (fun u hu => ?_) (fun u hu => ?_) (ha trivial) hs
    · rw [Registry.addressed_of_dlqUrl (hq i).1 hd hu, hD]
    · rw [Registry.addressed_of_url (hq i).1 hu, (hq i).2.main]
  have hstart : I (fun _ => {}) w := by
    refine ⟨hw.sound, hw.known True, fun _ => trivial, [], [], [], ?_⟩
    refine ⟨rfl, (List.append_nil _).symm, (List.append_nil _).symm, ?_, ?_, ?_⟩ <;>
      exact (Finset.sum_eq_zero fun _ _ => rfl).symm
  obtain ⟨ss, hfollows, hc⟩ := h.keeps (P := fun i => Transfer.protocol L (q i).slot)
    (fun ss w' i a hc ha => ⟨Registry.lore_truthful hc.known a, ha⟩) hstep (fun ss w' hs _ => absurd trivial hs)
    (fun i => (q i).retry_follows (Registry.lore_covers hr (hq i).1 True) p) hstart
  -- a retry that has returned has nothing at hand, and no failure made it return
  have hended (i : Fin n) : ∃ report : RetryReport, y.routines i = .done (.ok report) ∧ (ss i).hand = .free ∧
      report.messages = (ss i).moved.map (·.report p) := by
    obtain ⟨o, ho⟩ := hdone i
    have hend := hfollows i
    rw [ho] at hend
    cases o with
    | ok report => exact ⟨report, ho, hend⟩
    | error e => exact absurd trivial hend.2
  choose reports hreports hfree hmoved using hended
  obtain ⟨taken, pending, copies, hl⟩ := hc.ledger
  exact ⟨reports, hreports, taken, copies, settled_of_ledger hw.sound hl hfree hmoved⟩

/-- Retries from one dead letter queue to one main queue, in any interleaving. No copy on the two queues is ever lost,
also while messages in flight become visible again. If no call fails and none becomes visible again, then once all have
returned, each message they found is where it was, or has one copy on the main queue, is gone and is listed once. -/
theorem concurrent_retries {p : NumberPolicy} (hw : w.Reachable (.ofHandles queues topics buckets backoff))
    (hq : ∀ i, q i ∈ (Registry.ofHandles queues topics buckets backoff).queues ∧ (q i).Drains D M) (hne : D ≠ M) :
    (∀ y, Interleaving D False (retries q p w) y → ∀ x,
      w.provider.queues.copies (onEither D M) x ≤ y.world.provider.queues.copies (onEither D M) x) ∧
    (∀ y, Interleaving D True (retries q p w) y → (∀ i, ∃ o, y.routines i = .done o) →
      ∃ reports : Fin n → RetryReport, (∀ i, y.routines i = .done (.ok (reports i))) ∧
        ∃ taken copies, Settled w.provider.queues y.world.provider.queues D M p reports taken copies) := by
  have hr := Registry.placed_ofHandles queues topics buckets backoff
  exact ⟨fun y h x => copies_le_of_interleaving hr hw hq h x,
    fun y h hdone => settled_of_interleaving hr hw hq hne h hdone⟩

/-- Two retries of one queue, which hold two messages. Neither is lost at any moment, and if the retries take turns each
moves one of them. -/
theorem concurrent_retries_two :
    let q : QueueHandle := { id := "a", name := "a", client := 0, dlq := some ⟨"a-dlq", 1⟩ }
    let r := Registry.ofHandles [q] [] [] ⟨[]⟩
    let p := Memory.Control.apply (Memory.Control.apply {} (.create "a")) (.seed "a-dlq" { body := "x" })
    let w : World := { provider := Memory.Control.apply p (.seed "a-dlq" { body := "y" }) }
    let both := retries (n := 2) (fun _ => q) .double w
    w.Reachable r ∧ (∀ i : Fin 2, (fun _ => q) i ∈ r.queues ∧ q.Drains "a-dlq" "a") ∧ "a-dlq" ≠ "a" ∧
      (∀ y, Interleaving "a-dlq" False both y →
        1 ≤ y.world.provider.queues.copies (onEither "a-dlq" "a") ⟨"x", []⟩) ∧
      ∃ y, Interleaving "a-dlq" True both y ∧ (∀ i, ∃ o, y.routines i = .done o) ∧
        (y.world.provider.queues.state "a").visible.map (·.body) = ["x", "y"] ∧
        ∃ reports : Fin 2 → RetryReport, (∀ i, y.routines i = .done (.ok (reports i))) ∧
          ∃ taken copies, taken.map (·.id) = ["msg-1", "msg-2"] ∧
            Settled w.provider.queues y.world.provider.queues "a-dlq" "a" .double reports taken copies := by
  intro q r p w both
  have hp : p.Reachable := .control (.seed "a-dlq" { body := "x" }) (.control (.create "a") (.start true))
  have hw : w.Reachable r := .start (.control (.seed "a-dlq" { body := "y" }) hp) _
  have hq (i : Fin 2) : (fun _ => q) i ∈ r.queues ∧ q.Drains "a-dlq" "a" := by
    refine ⟨List.mem_singleton_self q, ⟨⟨"a-dlq", 1⟩, rfl, ?_⟩, ?_⟩
    · exact addressed_of_notMem (by decide)
    · exact addressed_of_notMem (by decide)
  have hcopies : w.provider.queues.copies (onEither "a-dlq" "a") ⟨"x", []⟩ = 1 := by decide +kernel
  obtain ⟨hkept, hsettled⟩ := concurrent_retries (p := .double) hw hq (by decide)
  have hturns : ((List.replicate 14 [0, 1]).flatten.foldlM advance? both).any (fun y =>
      (∀ i, ((y.routines i).step? y.world).isNone) ∧ (y.world.provider.queues.state "a-dlq").visible = [] ∧
        (y.world.provider.queues.state "a").visible.map (·.body) = ["x", "y"]) = true := by
    decide +kernel
  obtain ⟨y, hy, hend⟩ := (Option.any_eq_true _ _).mp hturns
  obtain ⟨hdone, hleft, hmoved⟩ := of_decide_eq_true hend
  have hsmooth : Interleaving "a-dlq" True both y := .of_turns hy
  have hended (i : Fin 2) : ∃ o, y.routines i = .done o := exists_done_of_step? (hdone i)
  obtain ⟨reports, hreports, taken, copies, hall⟩ := hsettled y hsmooth hended
  have htaken : taken.map (·.id) = ["msg-1", "msg-2"] := by
    have hvisible := hall.visible
    rw [hleft, List.append_nil] at hvisible
    rw [← hvisible]
    decide +kernel
  exact ⟨hw, hq, by decide, fun y hy => hcopies ▸ hkept y hy ⟨"x", []⟩, y, hsmooth, hended, hmoved, reports, hreports,
    taken, copies, htaken, hall⟩

end Pool

end DeadLetter
