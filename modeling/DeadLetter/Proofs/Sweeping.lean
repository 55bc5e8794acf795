import DeadLetter.Proofs.Failures
import DeadLetter.Proofs.Isolation
import DeadLetter.Proofs.Redriving
import DeadLetter.Proofs.Service.Ebb
import DeadLetter.Service.Sweep

/-!
# Sweeps leave nothing to do for the next one

A queue is idle (`QueueHandle.Idle`) when its retry would take nothing: it does not find its queues, or its messages
cannot be received, or time is up, or none is visible. A retry of an idle queue changes no queue (`retry_idle`), a retry
of any queue that is counted as it is makes it idle (`retry_idles`), and retries of queues elsewhere keep it idle
(`Idle.of_undisturbed`). `Registry.sweep_settles` : so a second sweep after the first does nothing.
-/

namespace DeadLetter

set_option autoImplicit false

open QueueStore

/-- The clock goes on, and a deadline stays as it was. -/
theorem Routine.run_late {α : Type} (r : Routine α) (w : World) :
    (r.run w).2.late = w.late ∧ w.looks ≤ (r.run w).2.looks := by
  induction r generalizing w with
  | done a => exact ⟨rfl, Nat.le_refl _⟩
  | act a next ih =>
    obtain ⟨hlate, hlooks⟩ := ih (w.perform a).1 (w.perform a).2
    refine ⟨hlate.trans (w.late_perform a), Nat.le_trans ?_ hlooks⟩
    cases a with
    | isLate => exact Nat.le_succ _
    | _ => exact Nat.le_refl _

/-- The same URLs are found where the same is known, the same queues are there and the same calls fail. -/
theorem World.urlFor?_eq {w w' : World} (hkept : Kept w.provider.queues w'.provider.queues)
    (hpresent : ∀ n, (w'.provider.queues.queues.get? n).isSome = (w.provider.queues.queues.get? n).isSome)
    (known : Option String) (name : String) : w'.urlFor? known name = w.urlFor? known name := by
  rw [World.urlFor?, World.urlFor?, queueUrl_eq, queueUrl_eq, hkept.fails, hpresent]

theorem World.Glanced.urlFor?_eq {w w' : World} (h : w.Glanced w') (known : Option String) (name : String) :
    w'.urlFor? known name = w.urlFor? known name :=
  World.urlFor?_eq h.quiet.toKept (fun n => by rw [h.quiet.queues]) known name

namespace QueueHandle
variable {r : Registry} {q : QueueHandle} {d : DlqHandle} {w w' : World} {p : NumberPolicy} {late : Bool}

/-! ## Queues that find what they need -/

/-- A queue finds itself and its dead letter queue, and can tell how many messages are there. -/
structure Opens (q : QueueHandle) (d : DlqHandle) (w : World) : Prop where
  dlqUrl : (w.urlFor? (w.known q.slot).dlqUrl d.name).isSome
  url : (w.urlFor? (w.known q.slot).url q.name).isSome
  told : w.provider.queues.fails .getQueueAttributes (addressed d.name) = false
  present : (w.provider.queues.queues.get? (addressed d.name)).isSome

theorem urlFor?_of_lookUp_error {slot : Nat} {kept : Known → Option String} {fact : String → Fact} {name : String}
    {e : QueueError} (h : (lookUp slot kept fact name).result.run w = (.error e, w')) :
    w'.urlFor? (kept (w'.known slot)) name = none := by
  rcases lookUp_cases slot kept fact name w with ⟨v, _, hrun⟩ | ⟨_, v, _, hrun⟩ | ⟨hkept, e', hreply, hrun⟩
  · rw [hrun] at h
    cases h
  · rw [hrun] at h
    cases h
  · have hglance : w.Glanced (w.perform (.call (.queueUrl name))).2 := .call w rfl
    rw [hrun] at h
    cases h
    rw [hglance.urlFor?_eq, World.urlFor?, hreply]
    show (kept (w.known slot) <|> none) = none
    rw [hkept]
    rfl

/-- What a queue learns when it looks up its dead letter queue leaves its own URL as it was. -/
theorem urlOfDlq_keeps_url (q : QueueHandle) (dlq : String) (w : World) :
    (((q.urlOfDlq dlq).result.run w).2.known q.slot).url = (w.known q.slot).url := by
  rw [urlOfDlq_eq]
  rcases lookUp_cases q.slot (·.dlqUrl) .dlqUrl dlq w with ⟨_, _, hrun⟩ | ⟨_, u, _, hrun⟩ | ⟨_, _, _, hrun⟩
  · rw [hrun]
  · rw [hrun]
    show (if q.slot = q.slot then (w.known q.slot).learn (.dlqUrl u) else w.known q.slot).url = _
    rw [if_pos rfl]
    rfl
  · rw [hrun]
    rfl

/-- A retry that finds messages finds its queues. -/
theorem opens_of_retry (hr : r.Placed) (hq : q ∈ r.queues) (hd : q.dlq = some d) (hw : w.Reachable r)
    {report : RetryReport} (hrun : (q.retry p).result.run w = (.ok report, w')) (hfound : 0 < report.found) :
    q.Opens d w := by
  obtain ⟨dlqUrl, w₁, a, w₂, hlookUp, hattributes, _, hrest⟩ := retry_eq_ok hd hrun
  obtain ⟨_, url, w₃, hurl, _⟩ := hrest.resolve_left fun hnone => absurd hfound (Int.not_lt.mpr hnone.1)
  obtain ⟨hD, hw₁, hglance₁⟩ := urlOfDlq_ok hr hq hd hw hlookUp
  obtain ⟨hreply, hknown, _, hglance₂⟩ := queueAttributes_call hw₁ hattributes
  obtain ⟨htold, hpresent, _⟩ := of_queueAttributes hreply
  rw [hD, hglance₁.quiet.toKept.fails] at htold
  rw [hD, hglance₁.quiet.queues] at hpresent
  refine ⟨?_, ?_, htold, hpresent⟩
  · rw [← lookUp_toOption q.slot (·.dlqUrl) .dlqUrl, ← urlOfDlq_eq, hlookUp]
    rfl
  · have hkeeps := urlOfDlq_keeps_url q d.name w
    rw [hlookUp] at hkeeps
    rw [← hkeeps, ← hknown, ← (hglance₁.trans hglance₂).urlFor?_eq, ← lookUp_toOption q.slot (·.url) .url, ← url_eq, hurl]
    rfl

/-- Where a retry failed the queue does not find what it needs. -/
theorem not_opens_of_retry_error (hr : r.Placed) (hq : q ∈ r.queues) (hd : q.dlq = some d) (hw : w.Reachable r)
    {e : QueueError} (hrun : (q.retry p).result.run w = (.error e, w')) : ¬ q.Opens d w' := by
  rintro ⟨hdlqUrl, hurl, htold, hpresent⟩
  rw [retry, hd] at hrun
  rcases Attempt.run_bind_eq_error.mp hrun with hlookUp | ⟨dlqUrl, w₁, hlookUp, hrun⟩
  · rw [urlFor?_of_lookUp_error (urlOfDlq_eq q d.name ▸ hlookUp)] at hdlqUrl
    cases hdlqUrl
  obtain ⟨hD, hw₁, _⟩ := urlOfDlq_ok hr hq hd hw hlookUp
  rcases Attempt.run_bind_eq_error.mp hrun with hattributes | ⟨a, w₂, _, hrun⟩
  · obtain ⟨hreply, _, _, hglance⟩ := queueAttributes_call hw₁ hattributes
    rw [hglance.quiet.toKept.fails] at htold
    rw [hglance.quiet.queues] at hpresent
    obtain ⟨s, hs⟩ := Option.isSome_iff_exists.mp hpresent
    rw [queueAttributes_eq, hD, htold, hs] at hreply
    cases hreply
  dsimp only at hrun
  split at hrun
  · cases hrun
  rcases Attempt.run_bind_eq_error.mp hrun with hlookUp | ⟨url, w₃, _, hrun⟩
  · rw [urlFor?_of_lookUp_error (url_eq q ▸ hlookUp)] at hurl
    cases hurl
  -- what is left to do does not fail
  rcases Attempt.run_bind_eq_error.mp hrun with hdrain | ⟨moved, w₄, _, hrun⟩
  · rw [Attempt.result_lift, Routine.run_bind] at hdrain
    cases hdrain
  · rcases Attempt.run_bind_eq_error.mp hrun with htrack | ⟨_, _, _, hrun⟩
    · cases htrack
    · cases hrun

theorem addressed_ne (hd : q.dlq = some d) (hnodup : q.addresses.Nodup) : addressed d.name ≠ addressed q.name := by
  rw [addresses_of_some hd] at hnodup
  intro heq
  simp [heq] at hnodup

theorem dlq_mem_addresses (hd : q.dlq = some d) : addressed d.name ∈ q.addresses := by
  rw [addresses_of_some hd]
  exact List.mem_cons_of_mem _ (List.mem_singleton_self _)

/-! ## Idle queues -/

/-- A retry of the queue would take nothing. -/
def Idle (q : QueueHandle) (w : World) : Prop :=
  ∀ d, q.dlq = some d → ¬ q.Opens d w ∨ w.provider.queues.fails .receiveMessage (addressed d.name) = true ∨
    (∀ i, w.looks ≤ i → w.late i = true) ∨ (w.provider.queues.state (addressed d.name)).visible = []

/-- What happens elsewhere keeps a queue idle. -/
theorem Idle.of_undisturbed (h : q.Idle w) (hw : q.Undisturbed w w') : q.Idle w' := by
  intro d hd
  rcases h d hd with hcloses | hfails | hlate | hvisible
  · refine Or.inl fun hopens => hcloses ⟨?_, ?_, ?_, ?_⟩
    · rw [← World.urlFor?_eq hw.kept hw.present, ← hw.known]
      exact hopens.dlqUrl
    · rw [← World.urlFor?_eq hw.kept hw.present, ← hw.known]
      exact hopens.url
    · rw [← hw.kept.fails]
      exact hopens.told
    · rw [← hw.present]
      exact hopens.present
  · exact Or.inr (Or.inl (hw.kept.fails _ _ ▸ hfails))
  · refine Or.inr (Or.inr (Or.inl fun i hi => ?_))
    rw [hw.late]
    exact hlate i (Nat.le_trans hw.looks hi)
  · rw [← hw.state (dlq_mem_addresses hd)] at hvisible
    exact Or.inr (Or.inr (Or.inr hvisible))

theorem retry_idle (hr : r.Placed) (hq : q ∈ r.queues) (hnodup : q.addresses.Nodup) (hw : w.Reachable r)
    (h : q.Idle w) :
    (((q.retry p).result.run w).1.toOption.getD .empty).messages = [] ∧
      ∀ n, ((q.retry p).result.run w).2.provider.queues.queues.get? n = w.provider.queues.queues.get? n := by
  cases hd : q.dlq with
  | none =>
    rw [retry_of_none hd]
    exact ⟨rfl, fun _ => rfl⟩
  | some d =>
    have hharmless := q.retry_harmless p w
    rcases hrun : (q.retry p).result.run w with ⟨o, w'⟩
    rw [hrun] at hharmless
    cases o with
    | error e =>
      have huntouched := hharmless.resolve_left nofun
      exact ⟨rfl, fun n => by rw [show w'.provider.queues.queues = _ from huntouched.queues]⟩
    | ok report =>
      obtain ⟨takings, w₁, hredrives, rfl, _, hlisted, htaken⟩ :=
        retry_redrives hr hq hd (addressed_ne hd hnodup) hw hrun
      have hnone : takings.length = 0 := by
        by_cases hfound : 0 < report.found
        · rcases (h d hd).resolve_left (not_not_intro (opens_of_retry hr hq hd hw hrun hfound)) with
            hfails | hlate | hvisible
          · rw [htaken, hfails, if_pos rfl]
          · rw [htaken, World.timely_of_late hlate, Nat.zero_min, ite_self]
          · rw [htaken, hvisible, List.length_nil, Nat.min_zero, ite_self]
        · rw [htaken, Int.toNat_of_nonpos (Int.not_lt.mp hfound), World.timely_zero, Nat.zero_min, ite_self]
      obtain rfl := List.length_eq_zero_iff.mp hnone
      exact ⟨hlisted, hredrives.carries.get?_eq⟩

/-- The dead letter queue of a queue, if it has one, tells how many messages are visible there. -/
def Counts (q : QueueHandle) (w : World) : Prop :=
  ∀ d, q.dlq = some d → (w.provider.queues.state (addressed d.name)).reportedCount = none ∧
    (w.provider.queues.state (addressed d.name)).visible.length ≤ maxCount

theorem Counts.messages (h : q.Counts w) (hd : q.dlq = some d) :
    (attributesOf (addressed d.name) (w.provider.queues.state (addressed d.name))).messages =
      (w.provider.queues.state (addressed d.name)).visible.length := by
  obtain ⟨hcount, hsmall⟩ := h d hd
  unfold attributesOf
  dsimp only
  rw [hcount, Option.getD_none]
  omega

theorem Counts.of_undisturbed (h : q.Counts w) (hw : q.Undisturbed w w') : q.Counts w' := by
  intro d hd
  rw [hw.state (dlq_mem_addresses hd)]
  exact h d hd

theorem retry_idles (hr : r.Placed) (hq : q ∈ r.queues) (hnodup : q.addresses.Nodup) (hw : w.Reachable r)
    (hcounts : q.Counts w) (hlate : ∀ i, w.looks ≤ i → w.late i = late) : q.Idle ((q.retry p).result.run w).2 := by
  intro d hd
  have hframe := retry_frame (p := p) hr hq ⟨⟨d, hd, rfl⟩, rfl⟩ hw
  rcases hrun : (q.retry p).result.run w with ⟨o, w'⟩
  rw [hrun] at hframe
  cases o with
  | error e => exact Or.inl (not_opens_of_retry_error hr hq hd hw hrun)
  | ok report =>
    obtain ⟨takings, w₁, hredrives, rfl, hfound, _, htaken⟩ :=
      retry_redrives hr hq hd (addressed_ne hd hnodup) hw hrun
    rw [hcounts.messages hd] at hfound
    cases hf : w.provider.queues.fails .receiveMessage (addressed d.name) with
    | true => exact Or.inr (Or.inl ((hredrives.carries.toBeside.fails _ _).trans hf))
    | false =>
      cases late with
      | true =>
        refine Or.inr (Or.inr (Or.inl fun i hi => ?_))
        rw [hframe.late]
        exact hlate i (Nat.le_trans hframe.looks hi)
      | false =>
        -- all that is visible is counted, and there is time for all of it
        rw [hf, if_neg Bool.false_ne_true, World.timely_of_not_late hlate, hfound, Int.toNat_natCast, Nat.min_self]
          at htaken
        refine Or.inr (Or.inr (Or.inr ?_))
        rw [show QueueStore.state _ _ = _ from hredrives.carries.dlq, htaken]
        exact List.drop_length

/-- How many messages are on the dead letter queue of a queue. -/
def backlog (q : QueueHandle) (w : World) : Nat :=
  (q.dlq.map fun d => (w.provider.queues.state (addressed d.name)).messages.length).getD 0

/-- The backlog of a queue shrinks by as many messages as its retry lists. -/
theorem retry_backlog (hr : r.Placed) (hq : q ∈ r.queues) (hnodup : q.addresses.Nodup) (hw : w.Reachable r) :
    (((q.retry p).result.run w).1.toOption.getD .empty).messages.length + q.backlog ((q.retry p).result.run w).2 =
      q.backlog w := by
  unfold backlog
  cases hd : q.dlq with
  | none => rw [retry_of_none hd]; rfl
  | some d =>
    have hharmless := q.retry_harmless p w
    rcases hrun : (q.retry p).result.run w with ⟨o, w'⟩
    rw [hrun] at hharmless
    cases o with
    | error e =>
      have huntouched := hharmless.resolve_left nofun
      rw [Option.map_some, Option.map_some, state_congr (show w'.provider.queues.queues = _ from huntouched.queues)]
      exact Nat.zero_add _
    | ok report =>
      obtain ⟨takings, w₁, hredrives, rfl, _, hlisted, _⟩ :=
        retry_redrives hr hq hd (addressed_ne hd hnodup) hw hrun
      show report.messages.length + _ = _
      rw [hlisted, List.length_map]
      exact hredrives.carries.length_messages

theorem backlog_of_undisturbed (h : q.Undisturbed w w') : q.backlog w' = q.backlog w := by
  unfold backlog
  cases hd : q.dlq with
  | none => rfl
  | some d => rw [Option.map_some, Option.map_some, h.state (dlq_mem_addresses hd)]

end QueueHandle

/-! ## Sweeps -/

/-- How many messages are on the dead letter queues of queues. -/
def backlog : List QueueHandle → World → Nat
  | [], _ => 0
  | q :: qs, w => q.backlog w + backlog qs w

section Sweeps
variable {r : Registry} {q : QueueHandle} {qs : List QueueHandle} {w w' : World} {p : NumberPolicy} {late : Bool}

theorem backlog_of_undisturbed (h : ∀ q ∈ qs, q.Undisturbed w w') : backlog qs w' = backlog qs w := by
  induction qs with
  | nil => rfl
  | cons q qs ih =>
    obtain ⟨hq, hqs⟩ := List.forall_mem_cons.mp h
    rw [backlog, backlog, QueueHandle.backlog_of_undisturbed hq, ih hqs]

/-- The first of some queues with pairwise different addresses, and the others. -/
theorem nodup_addresses_cons (h : ((q :: qs).flatMap QueueHandle.addresses).Nodup) :
    q.addresses.Nodup ∧ (qs.flatMap QueueHandle.addresses).Nodup ∧ ∀ q' ∈ qs, q.addresses.Disjoint q'.addresses := by
  rw [List.flatMap_cons] at h
  obtain ⟨hhead, htail, hdisjoint⟩ := List.nodup_append'.mp h
  exact ⟨hhead, htail, fun q' hq' n hn hn' => hdisjoint hn (List.mem_flatMap.mpr ⟨q', hq', hn'⟩)⟩

theorem retryEach_idle (hr : r.Placed) (hqs : ∀ q ∈ qs, q ∈ r.queues)
    (hnodup : (qs.flatMap QueueHandle.addresses).Nodup) (hw : w.Reachable r) (h : ∀ q ∈ qs, q.Idle w) :
    Registry.moved ((retryEach p qs).run w).1 = 0 ∧
      ∀ n, ((retryEach p qs).run w).2.provider.queues.queues.get? n = w.provider.queues.queues.get? n := by
  induction qs generalizing w with
  | nil => exact ⟨rfl, fun _ => rfl⟩
  | cons q qs ih =>
    obtain ⟨hq, hqs⟩ := List.forall_mem_cons.mp hqs
    obtain ⟨hidle, hothers⟩ := List.forall_mem_cons.mp h
    obtain ⟨hhead, htail, hapart⟩ := nodup_addresses_cons hnodup
    obtain ⟨hnothing, hsame⟩ := QueueHandle.retry_idle (p := p) hr hq hhead hw hidle
    have hfirst := QueueHandle.retry_reachable (p := p) hr hq hw
    obtain ⟨hmoved, hsame'⟩ := ih hqs htail hfirst fun q' hq' => (hothers q' hq').of_undisturbed
      (QueueHandle.retry_undisturbed hr (hqs q' hq') hq (List.disjoint_symm (hapart q' hq')) hw)
    rw [retryEach_cons]
    refine ⟨?_, fun n => (hsame' n).trans (hsame n)⟩
    show (((q.retry p).result.run w).1.toOption.getD .empty).messages.length + Registry.moved _ = 0
    rw [hnothing, hmoved]
    rfl

theorem retryEach_idles (hr : r.Placed) (hqs : ∀ q ∈ qs, q ∈ r.queues)
    (hnodup : (qs.flatMap QueueHandle.addresses).Nodup) (hw : w.Reachable r) (hcounts : ∀ q ∈ qs, q.Counts w)
    (hlate : ∀ i, w.looks ≤ i → w.late i = late) :
    Registry.moved ((retryEach p qs).run w).1 + backlog qs ((retryEach p qs).run w).2 = backlog qs w ∧
      ∀ q ∈ qs, q.Idle ((retryEach p qs).run w).2 := by
  induction qs generalizing w with
  | nil => exact ⟨rfl, nofun⟩
  | cons q qs ih =>
    obtain ⟨hq, hqs⟩ := List.forall_mem_cons.mp hqs
    obtain ⟨hcount, hcounts⟩ := List.forall_mem_cons.mp hcounts
    obtain ⟨hhead, htail, hapart⟩ := nodup_addresses_cons hnodup
    have hfirst := QueueHandle.retry_reachable (p := p) hr hq hw
    have hidle := QueueHandle.retry_idles (p := p) hr hq hhead hw hcount hlate
    have hshrinks := QueueHandle.retry_backlog (p := p) hr hq hhead hw
    have hundisturbed (q' : QueueHandle) (hq' : q' ∈ qs) : q'.Undisturbed w ((q.retry p).result.run w).2 :=
      QueueHandle.retry_undisturbed hr (hqs q' hq') hq (List.disjoint_symm (hapart q' hq')) hw
    obtain ⟨hlates, hlooks⟩ := Routine.run_late (q.retry p).result w
    obtain ⟨hmoved, hidles⟩ := ih hqs htail hfirst (fun q' hq' => (hcounts q' hq').of_undisturbed (hundisturbed q' hq'))
      fun i hi => hlates ▸ hlate i (Nat.le_trans hlooks hi)
    -- the others leave the first one alone
    have hafter := retryEach_undisturbed (p := p) hr hq hqs hapart hfirst
    have hothers : backlog qs ((q.retry p).result.run w).2 = backlog qs w :=
      backlog_of_undisturbed hundisturbed
    rw [retryEach_cons]
    refine ⟨?_, List.forall_mem_cons.mpr ⟨hidle.of_undisturbed hafter, hidles⟩⟩
    show (((q.retry p).result.run w).1.toOption.getD .empty).messages.length + Registry.moved _ +
      backlog (q :: qs) ((retryEach p qs).run ((q.retry p).result.run w).2).2 = _
    rw [backlog, backlog, QueueHandle.backlog_of_undisturbed hafter]
    omega

theorem Registry.sweep_run (r : Registry) (p : NumberPolicy) (w : World) :
    (r.sweep p).run w =
      let swept := (retryEach p r.queues).run w
      (moved swept.1, (swept.2.perform .countSweep).2) := by
  rw [sweep, Routine.run_bind, Routine.run_bind]
  rfl

/-- That a sweep is counted changes nothing for a queue. -/
theorem QueueHandle.undisturbed_countSweep (q : QueueHandle) (w : World) :
    q.Undisturbed w (w.perform .countSweep).2 :=
  ⟨.refl _, fun _ => rfl, fun _ _ => rfl, rfl, Nat.le_refl _, rfl, Nat.le_refl _⟩

/-- Where the names of all queues and dead letter queues address different queues, those tell how many messages they
have, and the deadline has passed for good or never passes: a sweep returns by how many messages the dead letter queues
shrink, and a second sweep returns none and leaves all queues as they are. -/
theorem Registry.sweep_settles {queues : List QueueHandle} {topics : List TopicHandle} {buckets : List BucketHandle}
    {backoff : BackoffPolicy} (hw : w.Reachable (ofHandles queues topics buckets backoff))
    (haddresses : ((ofHandles queues topics buckets backoff).queues.flatMap QueueHandle.addresses).Nodup)
    (hcounts : ∀ n, (w.provider.queues.state n).reportedCount = none)
    (hsmall : ∀ n, (w.provider.queues.state n).visible.length ≤ maxCount)
    (hlate : ∀ i, w.looks ≤ i → w.late i = late) :
    let r := ofHandles queues topics buckets backoff
    let first := (r.sweep p).run w
    let second := (r.sweep p).run first.2
    first.1 + backlog r.queues first.2 = backlog r.queues w ∧ second.1 = 0 ∧
      ∀ n, second.2.provider.queues.queues.get? n = first.2.provider.queues.queues.get? n := by
  intro r first second
  have hr : r.Placed := placed_ofHandles queues topics buckets backoff
  have hqs : ∀ q ∈ r.queues, q ∈ r.queues := fun _ hq => hq
  have hfirst : first = _ := r.sweep_run p w
  have hsecond : second = _ := r.sweep_run p first.2
  obtain ⟨hmoved, hidles⟩ := retryEach_idles (p := p) hr hqs haddresses hw
    (fun _ _ _ _ => ⟨hcounts _, hsmall _⟩) hlate
  have hreachable : first.2.Reachable r := hfirst ▸ .act .countSweep nofun (retryEach_reachable hr hqs hw)
  have hidle (q : QueueHandle) (hq : q ∈ r.queues) : q.Idle first.2 :=
    hfirst ▸ (hidles q hq).of_undisturbed (q.undisturbed_countSweep _)
  have hcounted : backlog r.queues first.2 = backlog r.queues ((retryEach p r.queues).run w).2 :=
    hfirst ▸ backlog_of_undisturbed fun q _ => q.undisturbed_countSweep _
  obtain ⟨hnothing, hsame⟩ := retryEach_idle (p := p) hr hqs haddresses hreachable hidle
  refine ⟨?_, ?_, ?_⟩
  · rw [hcounted, hfirst]
    exact hmoved
  · rw [hsecond]
    exact hnothing
  · rw [hsecond]
    exact hsame

/-- What holds of all queues that are there and of an empty one holds wherever one looks. -/
theorem QueueStore.state_of_forall {s : QueueStore} {P : QueueState → Prop} (hempty : P {})
    (h : ∀ e ∈ s.queues, P e.2) (n : String) : P (s.state n) := by
  unfold state
  cases hn : s.queues.get? n with
  | none => exact hempty
  | some queue => exact h _ (Dict.mem_of_get? hn)

/-- One message is moved, and one that an ordered queue does not take is left for neither sweep. -/
theorem Registry.sweep_settles_ungrouped :
    let queue (name dlq : String) : QueueHandle := { id := name, name := name, client := 0, dlq := some ⟨dlq, 1⟩ }
    let r := Registry.ofHandles [queue "a" "a-dlq", queue "b.fifo" "b-dlq"] [] [] ⟨[]⟩
    let created := Memory.Control.apply (Memory.Control.apply {} (.create "a")) (.create "b.fifo")
    let seeded := Memory.Control.apply created (.seed "a-dlq" { body := "x" })
    let w : World := { provider := Memory.Control.apply seeded (.seed "b-dlq" { body := "y" }) }
    let first := (r.sweep .double).run w
    first.1 = 1 ∧ backlog r.queues first.2 = 1 ∧ ((r.sweep .double).run first.2).1 = 0 := by
  intro queue r created seeded w first
  have hcreated : created.Reachable := .control (.create "b.fifo") (.control (.create "a") (.start true))
  have hw : w.Reachable r :=
    .start (.control (.seed "b-dlq" { body := "y" }) (.control (.seed "a-dlq" { body := "x" }) hcreated)) _
  have hcounts : ∀ n, (w.provider.queues.state n).reportedCount = none :=
    QueueStore.state_of_forall (P := (·.reportedCount = none)) rfl (by decide +kernel)
  have hsmall : ∀ n, (w.provider.queues.state n).visible.length ≤ maxCount :=
    QueueStore.state_of_forall (P := (·.visible.length ≤ maxCount)) (by decide) (by decide +kernel)
  obtain ⟨hmoved, hnothing, _⟩ := sweep_settles (p := .double) hw (by decide +kernel) hcounts hsmall fun _ _ => rfl
  have hone : first.1 = 1 := by decide +kernel
  have htwo : backlog r.queues w = 2 := by decide +kernel
  have hleft : first.1 + backlog r.queues first.2 = 2 := hmoved.trans htwo
  rw [hone] at hleft
  exact ⟨hone, Nat.add_left_cancel hleft, hnothing⟩

end Sweeps

end DeadLetter
