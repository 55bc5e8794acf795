import DeadLetter.Proofs.Service.Asking
import DeadLetter.Proofs.Service.Inquiry

/-!
# What a queue asks only once

In a `Session` routines that go through a handle run one after the other, each to its end or until it is abandoned, and
between any two actions others act on the provider, make calls fail and let them succeed again. All that is known of the
queue at its end was known before or was taught through the handle (`Session.Steps.known`). `Session.Tallied` : the URLs
that were found by calls are those that became known, or are about to. Hence no URL is found more often than once
(`Session.Steps.found_le`), and `QueueHandle.lookups_settle` tells what every look-up returns when.
-/

namespace DeadLetter

set_option autoImplicit false

open Protocol Routine

/-! ## Sessions -/

/-- What is left of the routine under way, what went through the handle so far, and the world. -/
structure Session where
  rest : Routine Unit := .done ()
  journal : List Entry := []
  world : World

namespace Session

/-- A routine that goes through the handle begins, takes its next action, or is abandoned, though not between finding
something out and keeping it; or somebody else takes an action, or changes something from outside. -/
inductive Step (q : QueueHandle) : Session → Session → Prop
  | start {r : Routine Unit} {j : List Entry} {w : World} (hr : Through q r) : Step q ⟨.done (), j, w⟩ ⟨r, j, w⟩
  | act {a : Action} {next : a.Reply → Routine Unit} {j : List Entry} {w : World} :
      Step q ⟨.act a next, j, w⟩ ⟨next (w.perform a).1, j ++ [⟨a, (w.perform a).1⟩], (w.perform a).2⟩
  | abandon {a : Action} {next : a.Reply → Routine Unit} {j : List Entry} {w : World}
      (ha : a.fact? q.slot = none) : Step q ⟨.act a next, j, w⟩ ⟨.done (), j, w⟩
  | other {r : Routine Unit} {j : List Entry} {w : World} {a : Action} (ha : a.fact? q.slot = none) :
      Step q ⟨r, j, w⟩ ⟨r, j, (w.perform a).2⟩
  | control {r : Routine Unit} {j : List Entry} {w : World} (c : Memory.Control) :
      Step q ⟨r, j, w⟩ ⟨r, j, { w with provider := c.apply w.provider }⟩

abbrev Steps (q : QueueHandle) : Session → Session → Prop := Relation.ReflTransGen (Step q)

variable {q : QueueHandle} {s s' : Session}

/-- A routine that nobody disturbs takes the steps of its run. -/
theorem steps_run (r : Routine Unit) (j : List Entry) (w : World) :
    Steps q ⟨r, j, w⟩ ⟨.done (), j ++ r.journal w, (r.run w).2⟩ := by
  induction r generalizing j w with
  | done a =>
    rw [Routine.journal, List.append_nil]
    exact .refl
  | act a next ih =>
    have hrest := ih (w.perform a).1 (j ++ [⟨a, (w.perform a).1⟩]) (w.perform a).2
    rw [List.append_assoc] at hrest
    exact .head .act hrest

theorem Steps.later (h : Steps q s s') : s.world.Later s'.world := by
  induction h with
  | refl => exact .refl
  | tail _ hstep ih =>
    cases hstep with
    | start => exact ih
    | act => exact ih.tail (.act _ _)
    | abandon => exact ih
    | other => exact ih.tail (.act _ _)
    | control c => exact ih.tail (.control _ c)

/-- The facts about a queue that a session taught. -/
def learnt (q : QueueHandle) (s : Session) : List Fact := s.journal.filterMap (·.action.fact? q.slot)

theorem Steps.known {w : World} (h : Steps q { world := w } s) :
    s.world.known q.slot = (s.learnt q).foldl .learn (w.known q.slot) := by
  induction h with
  | refl => rfl
  | tail _ hstep ih =>
    cases hstep with
    | start => exact ih
    | abandon => exact ih
    | other ha => exact (World.known_perform_of_none ha _).trans ih
    | control c => exact ih
    | @act a next j w' =>
      have hbefore : w'.known q.slot = (j.filterMap (·.action.fact? q.slot)).foldl .learn (w.known q.slot) := ih
      show (w'.perform a).2.known q.slot = _
      rw [w'.known_perform, learnt, List.filterMap_append, List.foldl_append, ← hbefore]
      simp only [List.filterMap_cons, List.filterMap_nil]
      cases a.fact? q.slot <;> rfl

/-- How often the URL of a name was found by a call. -/
def found (name : String) (s : Session) : Nat := s.journal.countP (Entry.finds name)

/-- A session that began at `w` has found as many URLs as became known, and the one that is to be learnt next. -/
structure Tallied (q : QueueHandle) (w : World) (s : Session) (p : Asking) : Prop where
  follows : (asking q).Follows s.rest p fun _ p' => p'.found = none
  seen : s.world.known q.slot = p.seen
  missing : ∀ c u, p.found = some (c, u) → p.seen.urlOf c = none
  tally : ∀ name, s.found name + q.knows name (w.known q.slot) = q.knows name p.seen + q.due name p.found

theorem found_act (name : String) (rest : Routine Unit) (j : List Entry) (e : Entry) (w : World) :
    found name ⟨rest, j ++ [e], w⟩ = found name ⟨rest, j, w⟩ + if e.finds name then 1 else 0 := by
  rw [found, found, List.countP_append, List.countP_singleton]

theorem Tallied.start (q : QueueHandle) (w : World) : Tallied q w { world := w } ⟨w.known q.slot, none⟩ :=
  ⟨Follows.pure rfl, rfl, nofun, fun name => by simp [found, QueueHandle.due]⟩

theorem Tallied.step {w : World} {p : Asking} (h : Tallied q w s p) (hstep : Step q s s') :
    ∃ p', Tallied q w s' p' := by
  obtain ⟨hfollows, hseen, hmissing, htally⟩ := h
  obtain ⟨k, pending⟩ := p
  cases hstep with
  | start hr =>
    obtain rfl : pending = none := hfollows
    exact ⟨⟨k, none⟩, Asks.of_through hr k, hseen, hmissing, htally⟩
  | @abandon a next j w' ha =>
    obtain ⟨p', hp, -⟩ := hfollows (w'.perform a).1 trivial
    have hnone : pending = none := by
      cases hp with
      | learn => simp [Action.fact?] at ha
      | _ => rfl
    subst hnone
    exact ⟨⟨k, none⟩, Follows.pure rfl, hseen, hmissing, htally⟩
  | other ha => exact ⟨⟨k, pending⟩, hfollows, (World.known_perform_of_none ha _).trans hseen, hmissing, htally⟩
  | control c => exact ⟨⟨k, pending⟩, hfollows, hseen, hmissing, htally⟩
  | @act a next j w' =>
    obtain ⟨p', hp, hnext⟩ := hfollows (w'.perform a).1 trivial
    obtain ⟨hseen', hmissing', htally'⟩ := hp.tally hseen hmissing
    refine ⟨p', hnext, hseen', hmissing', fun name => ?_⟩
    have hbefore := htally name
    have hafter := htally' name
    rw [found_act]
    show found name ⟨.act a next, j, w'⟩ + _ + _ = _
    omega

theorem Steps.tallied {w : World} (h : Steps q { world := w } s) : ∃ p, Tallied q w s p := by
  induction h with
  | refl => exact ⟨_, .start q w⟩
  | tail _ hstep ih =>
    obtain ⟨p, hp⟩ := ih
    exact hp.step hstep

/-- The URL of a name is found no more often than a queue has it. -/
theorem Steps.found_le {w : World} (h : Steps q { world := w } s) (name : String) : s.found name ≤ q.named name := by
  obtain ⟨p, hp⟩ := h.tallied
  have htally := hp.tally name
  have hbound := q.knows_add_due_le name p.seen hp.missing
  omega

/-- When no routine is under way, the URLs that were found are those that became known. -/
theorem Steps.found_add_knows {w : World} (h : Steps q { world := w } s) (hdone : s.rest = .done ()) (name : String) :
    s.found name + q.knows name (w.known q.slot) = q.knows name (s.world.known q.slot) := by
  obtain ⟨p, hp⟩ := h.tallied
  have hfound : p.found = none := by
    have hfollows := hp.follows
    rw [hdone] at hfollows
    exact hfollows
  have htally := hp.tally name
  rw [hfound, ← hp.seen] at htally
  exact htally

end Session

namespace QueueHandle

/-- What a queue looks up is asked for until it is found, and is then kept for good. Without a dead letter queue there
is no limit to ask for; with one, the URL may be found and kept though the limit cannot be read. However the handle is
used, what is known was taught through it, and each of its URLs is found by a call at most once. -/
theorem lookups_settle (q : QueueHandle) :
    q.urlInquiry.Settles q.slot ∧ q.dlqUrlInquiry.Settles q.slot ∧ q.limitInquiry.Settles q.slot ∧ q.Served ∧
    (q.dlq = none → ∀ w, q.dlqUrl.result.run w = (.ok none, w) ∧ q.dlqUrl.result.calls w = [] ∧
      q.maxReceiveCount.result.run w = (.ok none, w) ∧ q.maxReceiveCount.result.calls w = []) ∧
    (q.dlq.isSome → ∃ w : World, w.known q.slot = {} ∧ (∃ e, (q.maxReceiveCount.result.run w).1 = .error e) ∧
      ((q.maxReceiveCount.result.run w).2.known q.slot).url = some (QueueStore.urlOf q.name)) ∧
    ∀ w s, Session.Steps q { world := w } s →
      w.Later s.world ∧ s.world.known q.slot = (s.learnt q).foldl .learn (w.known q.slot) ∧
      (∀ name, s.found name ≤ (if q.name = name then 1 else 0) + if q.dlqName? = some name then 1 else 0) ∧
      (s.rest = .done () → ∀ name,
        s.found name + q.knows name (w.known q.slot) = q.knows name (s.world.known q.slot)) := by
  refine ⟨q.urlInquiry_keeps.settles, q.dlqUrlInquiry_keeps.settles, q.limitInquiry_keeps.settles, q.served, ?_,
    q.exists_limit_unread, ?_⟩
  · intro hd w
    unfold dlqUrl maxReceiveCount
    rw [hd]
    exact ⟨rfl, rfl, rfl, rfl⟩
  · intro w s h
    exact ⟨h.later, h.known, h.found_le, h.found_add_knows⟩

/-- The limit cannot be read at first, then it can, and then everything fails: the URL is asked for once, the limit
until it is read, and afterwards it is still told. -/
theorem lookups_settle_after_failure :
    let q : QueueHandle := { id := "q", name := "q", client := 0, dlq := some { name := "d", client := 0 } }
    let policy : RedrivePolicy := { target := QueueStore.arnOf "d", maxReceiveCount := 3 }
    let w : World := { provider := { queues := {
      queues := [("d", {}), ("q", { redrive := some policy })], failingOperations := [.getQueueAttributes] } } }
    let w₁ := (q.maxReceiveCount.result.run w).2
    let w₂ : World := { w₁ with provider := Memory.Control.clearFailures.apply w₁.provider }
    (q.maxReceiveCount.result.run w).1 = .error (QueueStore.injected .getQueueAttributes) ∧
      q.maxReceiveCount.result.calls w = [.queueUrl "q", .queueAttributes (QueueStore.urlOf "q")] ∧
      q.maxReceiveCount.result.calls w₂ = [.queueAttributes (QueueStore.urlOf "q")] ∧
      (∃ w₃, q.maxReceiveCount.result.run w₂ = (.ok (some 3), w₃) ∧
        let w₄ : World := { w₃ with provider := (Memory.Control.failQueue "q").apply w₃.provider }
        q.maxReceiveCount.result.run w₄ = (.ok (some 3), w₄) ∧ q.maxReceiveCount.result.calls w₄ = []) ∧
      ∃ s, Session.Steps q { world := w } s ∧ s.found "q" = 1 ∧ q.knows "q" (s.world.known q.slot) = 1 := by
  intro q policy w w₁ w₂
  obtain ⟨_, _, hlimit, _, _, _, hsessions⟩ := q.lookups_settle
  have hfirst : (q.maxReceiveCount.result.run w).1 = .error (QueueStore.injected .getQueueAttributes) := by
    decide +kernel
  have hsecond : (q.maxReceiveCount.result.run w₂).1 = .ok (some 3) := by decide +kernel
  refine ⟨hfirst, by decide +kernel, by decide +kernel, ?_, ?_⟩
  · obtain ⟨w₃, hread⟩ : ∃ w₃, q.maxReceiveCount.result.run w₂ = (.ok (some 3), w₃) := by
      generalize q.maxReceiveCount.result.run w₂ = ran at hsecond ⊢
      obtain ⟨o, w₃⟩ := ran
      obtain rfl : o = .ok (some 3) := hsecond
      exact ⟨w₃, rfl⟩
    exact ⟨w₃, hread, hlimit.stable w₂ (some 3) w₃ hread _ (.single (.control _ _))⟩
  · let r : Routine Unit := q.maxReceiveCount.result >>= fun _ => .done ()
    have hsteps : Session.Steps q { world := w } ⟨.done (), r.journal w, (r.run w).2⟩ :=
      .head (.start (Through.ofLimit.bind fun _ => .done ())) (Session.steps_run r [] w)
    have hfound : (r.journal w).countP (Entry.finds "q") = 1 := by decide +kernel
    obtain ⟨_, _, _, hknown⟩ := hsessions w _ hsteps
    refine ⟨_, hsteps, hfound, ?_⟩
    rw [← hknown rfl "q"]
    exact congrArg (· + 0) hfound

end QueueHandle

end DeadLetter
