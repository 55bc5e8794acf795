import DeadLetter.Proofs.Service.Draining
import DeadLetter.Proofs.Service.Stages
import DeadLetter.Proofs.World

/-!
# What a retry does to its two queues

Before a retry takes anything it only asks the provider and learns URLs (`World.Glanced`), and a URL that it finds leads
where the queue's own name or that of its dead letter queue does (`lookUp_fact`). So what it returns and leaves behind
is what its drain does: `QueueHandle.retry_outcome`.
-/

namespace DeadLetter

set_option autoImplicit false

open QueueStore Routine

/-- From `w` to `w'` nothing changed but the facts, and numbers were only drawn. -/
structure World.Glanced (w w' : World) : Prop where
  quiet : Quiet w.provider.queues w'.provider.queues
  events : w'.events = w.events
  generated : w'.generated = w.generated
  late : w'.late = w.late
  looks : w'.looks = w.looks

namespace World.Glanced
variable {w w' w'' : World}

theorem refl (w : World) : w.Glanced w := ⟨Quiet.refl _, rfl, rfl, rfl, rfl⟩

theorem trans (h : w.Glanced w') (h' : w'.Glanced w'') : w.Glanced w'' where
  quiet := h.quiet.trans h'.quiet
  events := h'.events.trans h.events
  generated := h'.generated.trans h.generated
  late := h'.late.trans h.late
  looks := h'.looks.trans h.looks

theorem call (w : World) {c : Call} (hc : c.looks = true) : w.Glanced (w.perform (.call c)).2 := by
  refine ⟨?_, rfl, rfl, rfl, rfl⟩
  cases c with
  | queueUrl queue => exact quiet_queueUrl w.provider.queues queue
  | queueAttributes url => exact quiet_queueAttributes w.provider.queues url
  | topicAttributes arn => exact Quiet.refl _
  | headBucket bucket => exact Quiet.refl _
  | _ => cases hc

theorem perform (w : World) {slots : Nat → Prop} {a : Action} (ha : a.Consults slots) : w.Glanced (w.perform a).2 := by
  cases a with
  | call c => exact .call w ha
  | facts slot => exact .refl w
  | learn slot fact => exact ⟨Quiet.refl _, rfl, rfl, rfl, rfl⟩
  | _ => exact ha.elim

theorem run {α : Type} {slots : Nat → Prop} {r : Routine α} (h : Only (Action.Consults slots) r) (w : World) :
    w.Glanced (r.run w).2 := by
  obtain ⟨_, _, hinv⟩ := Protocol.Follows.run (I := fun _ => w.Glanced) (fun _ _ _ _ => trivial)
    (fun _ w' _ _ hi ha => hi.trans (.perform w' ha)) h (.refl w)
  exact hinv

end World.Glanced

/-- A queue that tells about itself is there. -/
theorem QueueStore.of_queueAttributes {s : QueueStore} {url : String} {a : QueueAttributes}
    (h : (s.queueAttributes url).1 = .ok a) :
    s.fails .getQueueAttributes (queueNameOfUrl url) = false ∧ (s.queues.get? (queueNameOfUrl url)).isSome ∧
      a = attributesOf (queueNameOfUrl url) (s.state (queueNameOfUrl url)) := by
  rw [queueAttributes_eq] at h
  dsimp only at h
  split at h
  · cases h
  · next hf =>
    cases hq : s.queues.get? (queueNameOfUrl url) with
    | none =>
      rw [hq] at h
      cases h
    | some q =>
      rw [hq] at h
      cases h
      exact ⟨Bool.eq_false_iff.mpr hf, rfl, by rw [state_of_get? hq]⟩

namespace QueueHandle
variable {r : Registry} {q : QueueHandle} {d : DlqHandle} {w w' : World} {p : NumberPolicy} {report : RetryReport}

/-- What a look-up finds may be known. -/
theorem lookUp_fact {L : Lore} {slot : Nat} {kept : Known → Option String} {fact : String → Fact} {name u : String}
    (hknown : L.Known w) (hkept : ∀ k u, L.Agrees slot k → kept k = some u → L.fact slot (fact u))
    (hfound : L.fact slot (fact (urlOf name))) (h : (lookUp slot kept fact name).result.run w = (.ok u, w')) :
    L.fact slot (fact u) := by
  rcases lookUp_cases slot kept fact name w with ⟨v, hv, hrun⟩ | ⟨_, v, hreply, hrun⟩ | ⟨_, e, _, hrun⟩
  · rw [hrun] at h
    cases h
    exact hkept _ _ (hknown slot) hv
  · rw [hrun] at h
    cases h
    rw [eq_urlOf_of_queueUrl hreply]
    exact hfound
  · rw [hrun] at h
    cases h

theorem lookUp_reachable {slot : Nat} (kept : Known → Option String) {fact : String → Fact} {name : String}
    (hfound : (r.lore False).fact slot (fact (urlOf name))) (hw : w.Reachable r) :
    ((lookUp slot kept fact name).result.run w).2.Reachable r := by
  have hasked : (w.perform (.call (.queueUrl name))).2.Reachable r := .act _ nofun hw
  rcases lookUp_cases slot kept fact name w with ⟨v, hv, hrun⟩ | ⟨_, v, hreply, hrun⟩ | ⟨_, e, _, hrun⟩
  · rw [hrun]
    exact hw
  · rw [hrun, eq_urlOf_of_queueUrl hreply]
    refine .act _ ?_ hasked
    rintro _ _ ⟨⟩
    exact hfound
  · rw [hrun]
    exact hasked

theorem urlOfDlq_ok (hr : r.Placed) (hq : q ∈ r.queues) (hd : q.dlq = some d) (hw : w.Reachable r) {u : String}
    (h : (q.urlOfDlq d.name).result.run w = (.ok u, w')) :
    queueNameOfUrl u = addressed d.name ∧ w'.Reachable r ∧ w.Glanced w' := by
  have hfound := (Registry.lore_covers hr hq False).dlqUrl d _ hd rfl
  have hfact := lookUp_fact (hw.known False) (fun _ u hk => hk.dlqUrl u) hfound h
  have hreachable := lookUp_reachable (·.dlqUrl) hfound hw
  have hglance := World.Glanced.run (q.urlOfDlq_consults hd) w
  rw [← urlOfDlq_eq, h] at hreachable
  rw [h] at hglance
  exact ⟨Registry.addressed_of_dlqUrl hq hd hfact, hreachable, hglance⟩

theorem url_ok (hr : r.Placed) (hq : q ∈ r.queues) (hw : w.Reachable r) {u : String}
    (h : q.url.result.run w = (.ok u, w')) :
    queueNameOfUrl u = addressed q.name ∧ w'.Reachable r ∧ w.Glanced w' := by
  have hfound := (Registry.lore_covers hr hq False).url _ rfl
  have hfact := lookUp_fact (hw.known False) (fun _ u hk => hk.url u) hfound (url_eq q ▸ h)
  have hreachable := lookUp_reachable (·.url) hfound hw
  have hglance := World.Glanced.run q.url_consults w
  rw [← url_eq, h] at hreachable
  rw [h] at hglance
  exact ⟨Registry.addressed_of_url hq hfact, hreachable, hglance⟩

theorem queueAttributes_call {url : String} {o : Except QueueError QueueAttributes} (hw : w.Reachable r)
    (h : (Attempt.call (.queueAttributes url)).result.run w = (o, w')) :
    (w.provider.queues.queueAttributes url).1 = o ∧ w'.known = w.known ∧ w'.Reachable r ∧ w.Glanced w' := by
  cases h
  exact ⟨rfl, rfl, .act (.call (.queueAttributes url)) nofun hw, .call w rfl⟩

/-- A retry that succeeds has looked up its dead letter queue, and if that has messages, its main queue, and drained. -/
theorem retry_eq_ok (hd : q.dlq = some d) (hrun : (q.retry p).result.run w = (.ok report, w')) :
    ∃ dlqUrl w₁ a w₂, (q.urlOfDlq d.name).result.run w = (.ok dlqUrl, w₁) ∧
      (Attempt.call (.queueAttributes dlqUrl)).result.run w₁ = (.ok a, w₂) ∧ report.found = a.messages ∧
      ((report.found ≤ 0 ∧ report.messages = [] ∧ w' = w₂) ∨
        (0 < report.found ∧ ∃ url w₃, q.url.result.run w₂ = (.ok url, w₃) ∧
          let drained := (q.drain dlqUrl url report.found.toNat).run w₃
          report.messages = drained.1.map (·.report p) ∧
          w' = { drained.2 with events := drained.2.events ++ [retryEvent d.name report.found drained.1.length] })) := by
  rw [retry, hd] at hrun
  obtain ⟨dlqUrl, w₁, hlookUp, hrun⟩ := Attempt.run_bind_eq_ok.mp hrun
  obtain ⟨a, w₂, hattributes, hrun⟩ := Attempt.run_bind_eq_ok.mp hrun
  dsimp only at hrun
  split at hrun
  · next hfound =>
    cases hrun
    exact ⟨dlqUrl, w₁, a, _, hlookUp, hattributes, rfl, Or.inl ⟨hfound, rfl, rfl⟩⟩
  · next hfound =>
    obtain ⟨url, w₃, hurl, hrun⟩ := Attempt.run_bind_eq_ok.mp hrun
    obtain ⟨moved, w₄, hdrain, hrun⟩ := Attempt.run_bind_eq_ok.mp hrun
    obtain ⟨_, w₅, htrack, hrun⟩ := Attempt.run_bind_eq_ok.mp hrun
    rw [Attempt.result_lift, Routine.run_bind] at hdrain
    cases hdrain
    cases htrack
    cases hrun
    exact ⟨dlqUrl, w₁, a, w₂, hlookUp, hattributes, rfl, Or.inr ⟨Int.not_le.mp hfound, url, w₃, hurl, rfl, rfl⟩⟩

/-- A retry that succeeds takes messages off its dead letter queue, as many as it counted at first if there are so many
and the deadline does not pass before, and lists those that it moved. -/
theorem retry_redrives (hr : r.Placed) (hq : q ∈ r.queues) (hd : q.dlq = some d)
    (hne : addressed d.name ≠ addressed q.name) (hw : w.Reachable r)
    (hrun : (q.retry p).result.run w = (.ok report, w')) :
    ∃ takings w₁, q.Redrives (addressed d.name) (addressed q.name) w w₁ takings ∧
      w' = { w₁ with events := w₁.events ++
        if 0 < report.found then [retryEvent d.name report.found (takings.flatMap (·.listed)).length] else [] } ∧
      report.found = (attributesOf (addressed d.name) (w.provider.queues.state (addressed d.name))).messages ∧
      report.messages = (takings.flatMap (·.listed)).map (·.report p) ∧
      takings.length = if w.provider.queues.fails .receiveMessage (addressed d.name) then 0
        else min (w.timely report.found.toNat) (w.provider.queues.state (addressed d.name)).visible.length := by
  obtain ⟨dlqUrl, w₁, a, w₂, hlookUp, hattributes, hfound, hrest⟩ := retry_eq_ok hd hrun
  obtain ⟨hD, hw₁, hglance₁⟩ := urlOfDlq_ok hr hq hd hw hlookUp
  obtain ⟨hreply, _, hw₂, hglance₂⟩ := queueAttributes_call hw₁ hattributes
  obtain ⟨_, hpresent, ha⟩ := of_queueAttributes hreply
  rw [hD, hglance₁.quiet.queues] at hpresent
  rw [hD, hglance₁.quiet.state] at ha
  rw [ha] at hfound
  have hglance := hglance₁.trans hglance₂
  rcases hrest with ⟨hnone, hmessages, rfl⟩ | ⟨hsome, url, w₃, hurl, hmessages, rfl⟩
  · refine ⟨[], w', .of_quiet hglance.quiet hglance.events hglance.late hglance.generated, ?_, hfound, hmessages, ?_⟩
    · rw [if_neg (Int.not_lt.mpr hnone), List.append_nil]
    · rw [Int.toNat_of_nonpos hnone]
      simp [World.timely]
  · obtain ⟨hM, hw₃, hglance₃⟩ := url_ok hr hq hw₂ hurl
    have hglance := hglance.trans hglance₃
    have hpresent₃ : (w₃.provider.queues.queues.get? (addressed d.name)).isSome := hglance.quiet.queues ▸ hpresent
    have hlooked : q.Redrives (addressed d.name) (addressed q.name) w w₃ [] :=
      .of_quiet hglance.quiet hglance.events hglance.late hglance.generated
    obtain ⟨takings, w₄, hdrain, hredrives, hlength⟩ :=
      drain_redrives (q := q) hw₃.sound hD hM hne hpresent₃ report.found.toNat
    rw [hdrain] at hmessages ⊢
    refine ⟨takings, w₄, hlooked.trans hredrives, ?_, hfound, hmessages, ?_⟩
    · rw [if_pos hsome]
    · rw [hlength, hglance.quiet.toKept.fails, hglance.quiet.state, World.timely_congr hglance.late hglance.looks]

/-- What a retry of a dead letter queue `D` for a main queue `M` returned and left behind, by the messages it took. -/
structure Outcome (q : QueueHandle) (d : DlqHandle) (D M : String) (p : NumberPolicy) (w w' : World)
    (report : RetryReport) (takings : List Taking) : Prop where
  /-- What is found is what the dead letter queue tells at first. -/
  found : report.found = (attributesOf D (w.provider.queues.state D)).messages
  /-- As many messages are taken as are found and visible, and attempts are made before the deadline passes; none if
  they cannot be received. -/
  taken : takings.length = if w.provider.queues.fails .receiveMessage D then 0
    else min (w.timely report.found.toNat) (w.provider.queues.state D).visible.length
  /-- They are the first ones that are visible, in order. -/
  front : takings.map (·.message) = (w.provider.queues.state D).visible.take takings.length
  /-- Each is moved, or not sent, or sent and not deleted, as the failures and its group say. -/
  fits : ∀ (i : Nat) (x : Taking), takings[i]? = some x → x.Fits w.provider.queues D M q (w.generated + i)
  /-- Those that are not moved are in flight, behind what was in flight before. -/
  dlq : w'.provider.queues.state D = { w.provider.queues.state D with
    visible := (w.provider.queues.state D).visible.drop takings.length
    inFlight := (w.provider.queues.state D).inFlight ++ takings.flatMap (·.pending) }
  /-- The copies are visible behind what was there before. -/
  main : w'.provider.queues.state M = { w.provider.queues.state M with
    visible := (w.provider.queues.state M).visible ++ takings.flatMap (·.copies) }
  others : ∀ n, n ≠ D → n ≠ M → w'.provider.queues.queues.get? n = w.provider.queues.queues.get? n
  /-- Those that are moved are listed, in order. -/
  listed : report.messages = (takings.flatMap (·.listed)).map (·.report p)
  /-- One event tells of a retry that found something: of which queue, how much was found and how much was moved. -/
  events : w'.events = w.events ++ if 0 < report.found then
    [⟨"RetryDLQ", [("dlq-name", d.name), ("messages-found", Text.intText report.found),
      ("messages-retried", Text.natText report.messages.length)]⟩] else []

end QueueHandle

end DeadLetter
