import DeadLetter.Proofs.Inspecting
import DeadLetter.Proofs.Polling

/-!
# Cancelling a listener

A listener that was started goes through its loop in steps (`Listener.Step`). Its token may be cancelled at any of them,
from outside or by its handler while that has a message. It looks at the token before it starts a receive and before it
goes on with one that had to wait, and at no other time. As every delivery has a handle of its own, the handler is a
predicate on deliveries also where it answers differently from time to time.

`Step.keeps` : what is done so far is what polls did, one after the other, with the receive or the batch that is under
way, so a listener that stops has settled all that it received. `Step.due` : once the token is cancelled, only a receive
that is under way may still bring a batch. Both are kept by any number of steps, and `Listener.stops_settled` says what
follows. A listener whose token is cancelled does come to an end (`Listener.ends`), and every run of `Listener.run` that
is told to stop is one of the ways to it (`Listener.steps_run`).
-/

namespace DeadLetter

set_option autoImplicit false

open QueueStore Routine

/-- Whether an action does not ask for messages. -/
def Action.AsksNothing (a : Action) : Prop := ∀ reply, Entry.asked? ⟨a, reply⟩ = none

theorem Action.Consults.asksNothing {slots : Nat → Prop} {a : Action} (h : a.Consults slots) : a.AsksNothing :=
  fun _ => Entry.asked?_of_looks h.looks

/-! ## Routines under way -/

namespace Routine
variable {α β : Type} {slots : Nat → Prop}

/-- At `w`, with the entries `j`, what is left of a routine comes out where the routine does that began at `w₀` with
`j₀`. -/
structure Resumes (rest r : Routine α) (w w₀ : World) (j j₀ : List Entry) : Prop where
  run : rest.run w = r.run w₀
  journal : j ++ rest.journal w = j₀ ++ r.journal w₀

theorem Resumes.refl (r : Routine α) (w : World) (j : List Entry) : Resumes r r w w j j := ⟨rfl, rfl⟩

theorem Resumes.act {a : Action} {next : a.Reply → Routine α} {r : Routine α} {w w₀ : World} {j j₀ : List Entry}
    (h : Resumes (.act a next) r w w₀ j j₀) :
    Resumes (next (w.perform a).1) r (w.perform a).2 w₀ (j ++ [⟨a, (w.perform a).1⟩]) j₀ where
  run := h.run
  journal := by
    rw [← h.journal, List.append_assoc]
    rfl

/-- A routine that only consults until an action after which it is done. -/
def ConsultsFirst (slots : Nat → Prop) : Routine α → Prop
  | .done _ => True
  | .act a next => (a.Consults slots ∧ ∀ r, (next r).ConsultsFirst slots) ∨ ∀ r, ∃ v, next r = .done v

theorem ConsultsFirst.bind {r : Routine α} {f : α → Routine β} (h : Only (Action.Consults slots) r)
    (hf : ∀ a, (f a).ConsultsFirst slots) : (r >>= f).ConsultsFirst slots := by
  show (r.bind f).ConsultsFirst slots
  induction r with
  | done a => exact hf a
  | act a next ih =>
    have hact (reply : a.Reply) : a.Consults slots ∧ Only (Action.Consults slots) (next reply) := by
      obtain ⟨_, ha, hnext⟩ := h reply trivial
      exact ⟨ha, hnext⟩
    exact Or.inl ⟨(hact (({} : World).perform a).1).1, fun reply => ih reply (hact reply).2⟩

end Routine

namespace Listener

/-- A receive only consults before it takes messages. -/
theorem receive_consultsFirst (l : Listener) : l.receive.result.ConsultsFirst (· = l.queue.slot) := by
  refine .bind l.queue.url_consults fun o => ?_
  cases o with
  | error e => trivial
  | ok url =>
    refine Or.inr fun o => ?_
    cases o <;> exact ⟨_, rfl⟩

/-! ## The loop -/

/-- How far a listener is in its loop. -/
inductive Stage where
  /-- It looks at its token before it goes on with a receive. -/
  | waiting (rest : Routine (Except QueueError (String × List Received)))
  /-- It goes on with a receive. -/
  | receiving (rest : Routine (Except QueueError (String × List Received)))
  /-- It goes on with a batch. -/
  | processing (rest : Routine Unit)
  /-- It rests after a receive that failed. -/
  | pausing
  | stopped

/-- A listener that was started, with the world it is in and what it did so far. -/
structure Started where
  stage : Stage
  cancelled : Bool
  world : World
  journal : List Entry := []

/-- A listener at the start, and whenever it starts over. -/
def start (l : Listener) (cancelled : Bool) (w : World) (j : List Entry) : Started :=
  ⟨.waiting l.receive.result, cancelled, w, j⟩

/-- A step of a listener that was started. A receive may have to wait before any of its actions; a batch is gone on with
whether the token is cancelled or not. -/
inductive Step (l : Listener) : Started → Started → Prop
  | cancel (s : Started) : Step l s { s with cancelled := true }
  | stop {rest : Routine (Except QueueError (String × List Received))} {w : World} {j : List Entry} :
      Step l ⟨.waiting rest, true, w, j⟩ ⟨.stopped, true, w, j⟩
  | poll {rest : Routine (Except QueueError (String × List Received))} {w : World} {j : List Entry} :
      Step l ⟨.waiting rest, false, w, j⟩ ⟨.receiving rest, false, w, j⟩
  | ask {a : Action} {next : a.Reply → Routine (Except QueueError (String × List Received))} {c : Bool} {w : World}
      {j : List Entry} :
      Step l ⟨.receiving (.act a next), c, w, j⟩
        ⟨.receiving (next (w.perform a).1), c, (w.perform a).2, j ++ [⟨a, (w.perform a).1⟩]⟩
  | suspend {a : Action} {next : a.Reply → Routine (Except QueueError (String × List Received))} {c : Bool} {w : World}
      {j : List Entry} : Step l ⟨.receiving (.act a next), c, w, j⟩ ⟨.waiting (.act a next), c, w, j⟩
  | receive {url : String} {ms : List Received} {c : Bool} {w : World} {j : List Entry} :
      Step l ⟨.receiving (.done (.ok (url, ms))), c, w, j⟩ ⟨.processing (l.process url ms), c, w, j⟩
  | fail {e : QueueError} {c : Bool} {w : World} {j : List Entry} :
      Step l ⟨.receiving (.done (.error e)), c, w, j⟩ ⟨.pausing, c, w, j⟩
  | act {a : Action} {next : a.Reply → Routine Unit} {c : Bool} {w : World} {j : List Entry} :
      Step l ⟨.processing (.act a next), c, w, j⟩
        ⟨.processing (next (w.perform a).1), c, (w.perform a).2, j ++ [⟨a, (w.perform a).1⟩]⟩
  | processed {c : Bool} {w : World} {j : List Entry} : Step l ⟨.processing (.done ()), c, w, j⟩ (l.start c w j)
  | resume {c : Bool} {w : World} {j : List Entry} : Step l ⟨.pausing, c, w, j⟩ (l.start c w j)

abbrev Steps (l : Listener) : Started → Started → Prop := Relation.ReflTransGen l.Step

/-! ## What is done so far -/

/-- What a poll that received a batch does. -/
def record (l : Listener) (count : Option Nat) (batch : List (String × Stored)) : List Entry :=
  ⟨.call (.receiveUpTo (urlOf l.queue.name) l.limit l.wait), .ok (handedOut batch)⟩ :: batch.map (l.deed count)

/-- Polls of a listener, one after the other, with the batches that they received. -/
inductive Polls (l : Listener) (w : World) : List (List (String × Stored)) → World → Prop
  | none : Polls l w [] w
  | poll {w₁ w₂ : World} {batches : List (List (String × Stored))} {handled : Nat} {batch : List (String × Stored)}
      (before : Polls l w batches w₁) (last : l.Polled (addressed l.queue.name) w₁ w₂ handled batch) :
      Polls l w (batches ++ [batch]) w₂

/-- From `w` to `w₁`, doing the entries `j`, a listener received some batches and settled them. -/
structure Settled (l : Listener) (w : World) (batches : List (List (String × Stored))) (w₁ : World) (j : List Entry) :
    Prop where
  sound : Sound w₁.provider.queues
  findable : l.queue.Findable w₁
  limit : l.queue.limitIn w₁ = l.queue.limitIn w
  polls : l.Polls w batches w₁
  deeds : deeds j = batches.flatMap (l.record (l.queue.limitIn w))

variable {l : Listener} {w w₁ : World} {batches : List (List (String × Stored))} {j : List Entry}

theorem Settled.poll (h : l.Settled w batches w₁ j) :
    ∃ batch, l.Settled w (batches ++ [batch]) (l.poll.result.run w₁).2 (j ++ l.poll.result.journal w₁) := by
  obtain ⟨handled, w₂, batch, hrun, hdeeds, hpolled, hfound, hlimit⟩ := poll_settles h.sound h.findable
  have hsound := (l.poll.result.run_turns w₁).sound h.sound
  rw [hrun] at hsound ⊢
  refine ⟨batch, hsound, hfound.toFindable, hlimit.trans h.limit, h.polls.poll hpolled, ?_⟩
  rw [deeds_append, h.deeds, hdeeds, h.limit, List.flatMap_append, List.flatMap_singleton]
  rfl

/-- A listener that did nothing but consult since it settled some batches. -/
structure Consulted (w₁ : World) (j₁ : List Entry) (w : World) (j : List Entry) : Prop where
  glanced : w₁.Glanced w
  deeds : deeds j = deeds j₁

/-- Where a listener is since it settled some batches: in a receive that brought nothing yet or is done, or in the batch
that it brought. -/
def Stage.Since (l : Listener) (w₁ : World) (j₁ : List Entry) (w : World) (j : List Entry) : Stage → Prop
  | .waiting rest => Resumes rest l.receive.result w w₁ j j₁ ∧ rest.ConsultsFirst (· = l.queue.slot) ∧
      Consulted w₁ j₁ w j
  | .receiving rest => Resumes rest l.receive.result w w₁ j j₁ ∧ rest.ConsultsFirst (· = l.queue.slot) ∧
      (Consulted w₁ j₁ w j ∨ ∃ o, rest = .done o)
  | .processing rest => ∃ url ms w₂, l.receive.result.run w₁ = (.ok (url, ms), w₂) ∧
      Resumes rest (l.process url ms) w w₂ j (j₁ ++ l.receive.result.journal w₁)
  | .pausing => False
  | .stopped => Consulted w₁ j₁ w j

/-- What a listener did is what polls did, and the receive or the batch that is under way. -/
def Started.Keeps (l : Listener) (w : World) (s : Started) : Prop :=
  ∃ batches w₁ j₁, l.Settled w batches w₁ j₁ ∧ s.stage.Since l w₁ j₁ s.world s.journal

/-- An action of a receive that brings nothing yet, or is its last. -/
theorem Consulted.perform {slots : Nat → Prop} {a : Action} {w' : World} {j' : List Entry} (h : Consulted w₁ j w' j')
    (ha : a.Consults slots) : Consulted w₁ j (w'.perform a).2 (j' ++ [⟨a, (w'.perform a).1⟩]) where
  glanced := h.glanced.trans (.perform w' ha)
  deeds := by
    rw [deeds_append, deeds_of_looks (List.forall_mem_singleton.mpr ha.looks), List.append_nil]
    exact h.deeds

theorem Step.keeps {s s' : Started} (h : l.Step s s') (hk : s.Keeps l w) : s'.Keeps l w := by
  obtain ⟨batches, w₁, j₁, hsettled, hsince⟩ := hk
  cases h with
  | cancel => exact ⟨batches, w₁, j₁, hsettled, hsince⟩
  | stop => exact ⟨batches, w₁, j₁, hsettled, hsince.2.2⟩
  | poll => exact ⟨batches, w₁, j₁, hsettled, hsince.1, hsince.2.1, Or.inl hsince.2.2⟩
  | ask =>
    obtain ⟨hresumes, hfirst, hconsulted | ⟨_, hdone⟩⟩ := hsince
    · rcases hfirst with ⟨ha, hnext⟩ | hlast
      · exact ⟨batches, w₁, j₁, hsettled, hresumes.act, hnext _, Or.inl (hconsulted.perform ha)⟩
      · obtain ⟨v, hv⟩ := hlast _
        refine ⟨batches, w₁, j₁, hsettled, hresumes.act, ?_, Or.inr ⟨v, hv⟩⟩
        rw [hv]
        trivial
    · cases hdone
  | suspend =>
    obtain ⟨hresumes, hfirst, hconsulted | ⟨_, hdone⟩⟩ := hsince
    · exact ⟨batches, w₁, j₁, hsettled, hresumes, hfirst, hconsulted⟩
    · cases hdone
  | @receive url ms c w' j =>
    obtain ⟨hresumes, _, _⟩ := hsince
    have hjournal : j = j₁ ++ l.receive.result.journal w₁ := (List.append_nil j).symm.trans hresumes.journal
    exact ⟨batches, w₁, j₁, hsettled, url, ms, w', hresumes.run.symm, hjournal ▸ .refl _ w' j⟩
  | fail =>
    obtain ⟨hresumes, _, _⟩ := hsince
    obtain ⟨_, _, hreceive, _⟩ := receive_takes hsettled.findable
    cases hresumes.run.trans hreceive
  | act =>
    obtain ⟨url, ms, w₂, hreceive, hresumes⟩ := hsince
    exact ⟨batches, w₁, j₁, hsettled, url, ms, w₂, hreceive, hresumes.act⟩
  | @processed c w' j =>
    obtain ⟨url, ms, w₂, hreceive, hresumes⟩ := hsince
    obtain ⟨hrun, hjournal⟩ := poll_of_receive hreceive
    obtain ⟨batch, hpolled⟩ := hsettled.poll
    have hw : (l.poll.result.run w₁).2 = w' := by
      rw [hrun]
      exact (congrArg Prod.snd hresumes.run).symm
    have hj : j₁ ++ l.poll.result.journal w₁ = j := by
      rw [hjournal, ← List.append_assoc]
      exact hresumes.journal.symm.trans (List.append_nil j)
    rw [hw, hj] at hpolled
    exact ⟨_, w', j, hpolled, .refl _ w' j, l.receive_consultsFirst, .refl w', rfl⟩
  | resume => exact hsince.elim

theorem Steps.keeps {s s' : Started} (h : l.Steps s s') (hk : s.Keeps l w) : s'.Keeps l w := by
  induction h with
  | refl => exact hk
  | tail _ hstep ih => exact hstep.keeps ih

/-! ## What is still due -/

/-- A batch is processed without asking for more. -/
theorem process_asksNothing (l : Listener) (url : String) (ms : List Received) :
    Only Action.AsksNothing (l.process url ms) := by
  have hconsults {α : Type} {r : Routine α} (h : Only (Action.Consults (· = l.queue.slot)) r) :
      Only Action.AsksNothing r := h.mono fun _ ha => ha.asksNothing
  induction ms with
  | nil => exact .pure ()
  | cons m ms ih =>
    unfold process
    split
    · exact .bind (.call fun _ => rfl) fun _ => ih
    · refine .bind (.bind (hconsults l.queue.maxReceiveCount_consults) fun count => ?_) fun _ => ih
      refine .bind (hconsults l.queue.url_consults) fun o => ?_
      cases o with
      | error e => exact .pure _
      | ok url => exact .bind (.call fun _ => rfl) fun _ => .pure _

/-- What is left of the receive or the batch that a listener is in only does what is left to do in one. -/
def Stage.Orderly (l : Listener) : Stage → Prop
  | .waiting rest => rest.ConsultsFirst (· = l.queue.slot)
  | .receiving rest => rest.ConsultsFirst (· = l.queue.slot)
  | .processing rest => Only Action.AsksNothing rest
  | _ => True

/-- The number of batches that a listener may still ask for after its token is cancelled. -/
def Stage.due : Stage → Nat
  | .receiving (.act _ _) => 1
  | _ => 0

theorem Stage.due_le (stage : Stage) : stage.due ≤ 1 := by
  unfold due
  split <;> decide

theorem Step.orderly {s s' : Started} (h : l.Step s s') (ho : s.stage.Orderly l) : s'.stage.Orderly l := by
  cases h with
  | cancel => exact ho
  | stop => trivial
  | poll => exact ho
  | ask =>
    rcases ho with ⟨_, hnext⟩ | hlast
    · exact hnext _
    · obtain ⟨v, hv⟩ := hlast _
      show Routine.ConsultsFirst _ _
      rw [hv]
      trivial
  | suspend => exact ho
  | receive => exact l.process_asksNothing _ _
  | fail => trivial
  | @act a next c w' j =>
    obtain ⟨_, _, hnext⟩ := ho (w'.perform a).1 trivial
    exact hnext
  | processed => exact l.receive_consultsFirst
  | resume => exact l.receive_consultsFirst

/-- A step after the token is cancelled asks for no more than was due, and what it asks for is not due any more. -/
theorem Step.due {s s' : Started} (h : l.Step s s') (hc : s.cancelled = true) (ho : s.stage.Orderly l) :
    s'.cancelled = true ∧ ∃ more, s'.journal = s.journal ++ more ∧
      (more.filterMap Entry.asked?).length + s'.stage.due ≤ s.stage.due := by
  have hnothing (stage : Stage) {j : List Entry} (hdue : stage.due ≤ s.stage.due) :
      ∃ more, j = j ++ more ∧ (more.filterMap Entry.asked?).length + stage.due ≤ s.stage.due :=
    ⟨[], (List.append_nil j).symm, by simpa using hdue⟩
  cases h with
  | cancel => exact ⟨rfl, hnothing _ (Nat.le_refl _)⟩
  | stop => exact ⟨rfl, hnothing _ (Nat.le_refl _)⟩
  | poll => cases hc
  | ask =>
    refine ⟨hc, _, rfl, ?_⟩
    rcases ho with ⟨ha, _⟩ | hlast
    · rw [List.filterMap_cons_none (ha.asksNothing _), List.filterMap_nil, List.length_nil, Nat.zero_add]
      exact Stage.due_le _
    · obtain ⟨v, hv⟩ := hlast _
      rw [hv]
      exact List.length_filterMap_le ..
  | suspend => exact ⟨hc, hnothing _ (Nat.zero_le _)⟩
  | receive => exact ⟨hc, hnothing _ (Nat.zero_le _)⟩
  | fail => exact ⟨hc, hnothing _ (Nat.zero_le _)⟩
  | @act a next c w' j =>
    obtain ⟨_, ha, _⟩ := ho (w'.perform a).1 trivial
    refine ⟨hc, _, rfl, ?_⟩
    rw [List.filterMap_cons_none (ha _)]
    exact Nat.le_refl _
  | processed => exact ⟨hc, hnothing _ (Nat.zero_le _)⟩
  | resume => exact ⟨hc, hnothing _ (Nat.zero_le _)⟩

theorem Steps.due {s s' : Started} (h : l.Steps s s') (hc : s.cancelled = true) (ho : s.stage.Orderly l) :
    ∃ more, s'.journal = s.journal ++ more ∧ (more.filterMap Entry.asked?).length + s'.stage.due ≤ s.stage.due := by
  induction h using Relation.ReflTransGen.head_induction_on with
  | refl => exact ⟨[], (List.append_nil _).symm, Nat.le_of_eq (Nat.zero_add _)⟩
  | @head s s₁ hstep _ ih =>
    obtain ⟨hc₁, more, hmore, hdue⟩ := hstep.due hc ho
    obtain ⟨more', hmore', hdue'⟩ := ih hc₁ (hstep.orderly ho)
    refine ⟨more ++ more', by rw [hmore', hmore, List.append_assoc], ?_⟩
    rw [List.filterMap_append, List.length_append]
    omega

theorem Steps.orderly {s s' : Started} (h : l.Steps s s') (ho : s.stage.Orderly l) : s'.stage.Orderly l := by
  induction h with
  | refl => exact ho
  | tail _ hstep ih => exact hstep.orderly ih

/-! ## Runs -/

/-- A receive may go on to its end without waiting. -/
theorem steps_receiving (l : Listener) (r : Routine (Except QueueError (String × List Received))) (c : Bool) (w : World)
    (j : List Entry) :
    l.Steps ⟨.receiving r, c, w, j⟩ ⟨.receiving (.done (r.run w).1), c, (r.run w).2, j ++ r.journal w⟩ := by
  induction r generalizing w j with
  | done o =>
    rw [Routine.journal, List.append_nil]
    exact .refl
  | act a next ih =>
    have hrest := ih (w.perform a).1 (w.perform a).2 (j ++ [⟨a, (w.perform a).1⟩])
    rw [List.append_assoc] at hrest
    exact .head .ask hrest

theorem steps_processing (l : Listener) (r : Routine Unit) (c : Bool) (w : World) (j : List Entry) :
    l.Steps ⟨.processing r, c, w, j⟩ (l.start c (r.run w).2 (j ++ r.journal w)) := by
  induction r generalizing w j with
  | done o =>
    rw [Routine.journal, List.append_nil]
    exact .single .processed
  | act a next ih =>
    have hrest := ih (w.perform a).1 (w.perform a).2 (j ++ [⟨a, (w.perform a).1⟩])
    rw [List.append_assoc] at hrest
    exact .head .act hrest

theorem steps_pollOnce (l : Listener) (w : World) (j : List Entry) :
    l.Steps (l.start false w j)
      (l.start false (l.pollOnce.result.run w).2 (j ++ l.pollOnce.result.journal w)) := by
  have hreceiving := l.steps_receiving l.receive.result false w j
  rw [pollOnce_run, pollOnce_journal, ← List.append_assoc]
  rcases hreceive : l.receive.result.run w with ⟨e | ⟨url, ms⟩, w'⟩ <;> rw [hreceive] at hreceiving
  · rw [List.append_nil]
    exact .head .poll (hreceiving.trans (.head .fail (.single .resume)))
  · exact .head .poll (hreceiving.trans (.head .receive (l.steps_processing _ _ _ _)))

/-- A run that is told to stop is one way in which a listener whose token is cancelled then may go. -/
theorem steps_run (l : Listener) (stops : Progress → Bool) (polls : Nat) (at_ : Progress) {w w' : World}
    {j : List Entry} {handled : List Received} (h : (l.run stops polls at_).run w = ((handled, true), w')) :
    l.Steps (l.start false w j) ⟨.stopped, true, w', j ++ (l.run stops polls at_).journal w⟩ := by
  have hstop (w : World) (j : List Entry) : l.Steps (l.start false w j) ⟨.stopped, true, w, j⟩ :=
    .head (.cancel _) (.single .stop)
  induction polls generalizing at_ w j handled with
  | zero =>
    obtain rfl : w = w' := congrArg Prod.snd h
    exact (List.append_nil j).symm ▸ hstop w j
  | succ polls ih =>
    unfold run at h ⊢
    split at h
    · next hstops =>
      rw [if_pos hstops]
      obtain rfl : w = w' := congrArg Prod.snd h
      exact (List.append_nil j).symm ▸ hstop w j
    · next hstops =>
      rw [if_neg hstops, Routine.journal_bind, ← List.append_assoc]
      rw [Routine.run_bind] at h
      refine .trans (l.steps_pollOnce w j) ?_
      rcases hpoll : l.pollOnce.result.run w with ⟨e | batch, w₁⟩ <;> rw [hpoll] at h
      · exact ih _ h
      · dsimp only at h ⊢
        rw [Routine.run_bind] at h
        rw [Routine.journal_bind]
        rcases hrest : (l.run stops polls
          { at_ with polls := at_.polls + 1, handled := at_.handled + batch.length }).run w₁ with ⟨⟨rest, stopped⟩, w₂⟩
        rw [hrest] at h
        cases h
        have hnothing : (pure (batch ++ rest, true) : Routine (List Received × Bool)).journal w₂ = [] := rfl
        rw [hnothing, List.append_nil]
        exact ih _ hrest

/-- A listener whose token is cancelled while it handles a batch goes on with that to its end, and stops. -/
theorem steps_cancelled (h : l.queue.Findable w) (j : List Entry) :
    l.Steps (l.start false w j) ⟨.stopped, true, (l.poll.result.run w).2, j ++ l.poll.result.journal w⟩ := by
  obtain ⟨w₁, batch, hreceive, _⟩ := receive_takes h
  have hreceiving := l.steps_receiving l.receive.result false w j
  obtain ⟨hrun, hjournal⟩ := poll_of_receive hreceive
  rw [hreceive] at hreceiving
  rw [hrun, hjournal, ← List.append_assoc]
  refine .head .poll (hreceiving.trans (.head .receive (.head (.cancel _) ?_)))
  exact (l.steps_processing _ true w₁ _).tail .stop

/-- After its token is cancelled a listener comes to an end: it cannot go on changing for ever. -/
theorem ends (l : Listener) {s : Started} (hc : s.cancelled = true) : Acc (fun s' s => l.Step s s' ∧ s' ≠ s) s := by
  have hstopped (w : World) (j : List Entry) : Acc (fun s' s => l.Step s s' ∧ s' ≠ s) ⟨.stopped, true, w, j⟩ := by
    refine .intro _ fun s' ⟨h, hne⟩ => ?_
    cases h
    exact absurd rfl hne
  have hwaiting (rest : Routine (Except QueueError (String × List Received))) (w : World) (j : List Entry) :
      Acc (fun s' s => l.Step s s' ∧ s' ≠ s) ⟨.waiting rest, true, w, j⟩ := by
    refine .intro _ fun s' ⟨h, hne⟩ => ?_
    cases h with
    | cancel => exact absurd rfl hne
    | stop => exact hstopped w j
  have hprocessing (rest : Routine Unit) (w : World) (j : List Entry) :
      Acc (fun s' s => l.Step s s' ∧ s' ≠ s) ⟨.processing rest, true, w, j⟩ := by
    induction rest generalizing w j with
    | done o =>
      refine .intro _ fun s' ⟨h, hne⟩ => ?_
      cases h with
      | cancel => exact absurd rfl hne
      | processed => exact hwaiting _ w j
    | act a next ih =>
      refine .intro _ fun s' ⟨h, hne⟩ => ?_
      cases h with
      | cancel => exact absurd rfl hne
      | act => exact ih _ _ _
  have hpausing (w : World) (j : List Entry) : Acc (fun s' s => l.Step s s' ∧ s' ≠ s) ⟨.pausing, true, w, j⟩ := by
    refine .intro _ fun s' ⟨h, hne⟩ => ?_
    cases h with
    | cancel => exact absurd rfl hne
    | resume => exact hwaiting _ w j
  have hreceiving (rest : Routine (Except QueueError (String × List Received))) (w : World) (j : List Entry) :
      Acc (fun s' s => l.Step s s' ∧ s' ≠ s) ⟨.receiving rest, true, w, j⟩ := by
    induction rest generalizing w j with
    | done o =>
      refine .intro _ fun s' ⟨h, hne⟩ => ?_
      cases h with
      | cancel => exact absurd rfl hne
      | receive => exact hprocessing _ w j
      | fail => exact hpausing w j
    | act a next ih =>
      refine .intro _ fun s' ⟨h, hne⟩ => ?_
      cases h with
      | cancel => exact absurd rfl hne
      | ask => exact ih _ _ _
      | suspend => exact hwaiting _ w j
  obtain ⟨stage, c, w, j⟩ := s
  cases hc
  cases stage with
  | waiting rest => exact hwaiting rest w j
  | receiving rest => exact hreceiving rest w j
  | processing rest => exact hprocessing rest w j
  | pausing => exact hpausing w j
  | stopped => exact hstopped w j

/-! ## Cancelling -/

/-- However a listener got where it is, in every world where nothing is made to fail and its URL leads to a queue: if it
stopped, it settled every batch that it received, message by message, and did nothing else but consult; and if its token
is cancelled, it asks for no more messages, but for those of a receive that is under way. -/
theorem stops_settled {queues : List QueueHandle} {topics : List TopicHandle} {buckets : List BucketHandle}
    {backoff : BackoffPolicy} {url : String} (l : Listener)
    (hw : w.Reachable (.ofHandles queues topics buckets backoff))
    (hq : l.queue ∈ (Registry.ofHandles queues topics buckets backoff).queues)
    (hoperations : w.provider.queues.failingOperations = []) (hfailing : w.provider.queues.failingQueues = [])
    (hurl : w.urlFor? (w.known l.queue.slot).url l.queue.name = some url)
    (hpresent : (w.provider.queues.queues.get? (queueNameOfUrl url)).isSome) {cancelled : Bool} {s : Started}
    (hsteps : l.Steps (l.start cancelled w []) s) :
    (s.stage = .stopped → ∃ batches w₁, l.Polls w batches w₁ ∧ w₁.Glanced s.world ∧
      deeds s.journal = batches.flatMap (l.record (l.queue.limitIn w))) ∧
    (s.cancelled = true → ∀ s', l.Steps s s' → ∃ more, s'.journal = s.journal ++ more ∧
      (more.filterMap Entry.asked?).length ≤ s.stage.due) := by
  obtain rfl := hw.eq_urlOf_of_urlFor hq hurl
  have hstart : (l.start cancelled w []).Keeps l w :=
    ⟨[], w, [], ⟨hw.sound, ⟨hoperations, hfailing, hurl, hpresent⟩, rfl, .none, rfl⟩, .refl _ w [],
      l.receive_consultsFirst, .refl w, rfl⟩
  refine ⟨fun hstopped => ?_, fun hc s' hsteps' => ?_⟩
  · obtain ⟨batches, w₁, j₁, hsettled, hsince⟩ := Steps.keeps hsteps hstart
    rw [hstopped] at hsince
    exact ⟨batches, w₁, hsettled.polls, hsince.glanced, hsince.deeds.trans hsettled.deeds⟩
  · obtain ⟨more, hmore, hdue⟩ := Steps.due hsteps' hc (Steps.orderly hsteps l.receive_consultsFirst)
    exact ⟨more, hmore, Nat.le_trans (Nat.le_add_right _ _) hdue⟩

/-- The token is cancelled while the first of three messages is handled: all three are deleted, and no more asked for. -/
theorem stops_settled_first :
    let q : QueueHandle := { id := "work", name := "work", client := 0 }
    let l : Listener := { queue := q, accepts := fun _ => true, backoff := ⟨[]⟩ }
    let p := Memory.Control.apply (Memory.Control.apply {} (.seed "work" { body := "first" }))
      (.seed "work" { body := "second" })
    let w : World := { provider := Memory.Control.apply p (.seed "work" { body := "third" }) }
    ∃ s batches w₁, l.Steps (l.start false w []) s ∧ s.stage = .stopped ∧ l.Polls w batches w₁ ∧ w₁.Glanced s.world ∧
      deeds s.journal = batches.flatMap (l.record none) ∧ (deeds s.journal).length = 4 ∧
      (s.journal.filterMap Entry.asked?).length = 1 ∧ (s.world.provider.queues.state "work").messages = [] := by
  intro q l p w
  have hw : w.Reachable (.ofHandles [q] [] [] ⟨[]⟩) :=
    .start (.control _ (.control _ (.control _ (.start true)))) _
  have hurl : w.urlFor? (w.known q.slot).url q.name = some (urlOf "work") := by decide +kernel
  have hpresent : (w.provider.queues.queues.get? (queueNameOfUrl (urlOf "work"))).isSome := by decide +kernel
  have hsteps := steps_cancelled (l := l) ⟨rfl, rfl, hurl, hpresent⟩ []
  obtain ⟨hsettled, _⟩ := stops_settled l hw (List.mem_singleton_self q) rfl rfl hurl hpresent hsteps
  obtain ⟨batches, w₁, hpolls, hglanced, hdeeds⟩ := hsettled rfl
  exact ⟨_, batches, w₁, hsteps, rfl, hpolls, hglanced, hdeeds, by decide +kernel, by decide +kernel, by decide +kernel⟩

end Listener

end DeadLetter
