import DeadLetter.Proofs.Dict
import DeadLetter.Proofs.Routine.Journal
import DeadLetter.Proofs.Service.Looking
import DeadLetter.Proofs.Store.Topics

/-!
# Checks that do not disturb each other

A routine that consults some slots returns the same in worlds that agree on the provider's answers and on those slots
(`Only.run_eq`), and leaves a world that agrees with the one it ran in on all other slots (`Only.run_same`). So checks
that consult different slots do not disturb each other (`Routine.Spares`), and in a row each finds what it finds on its
own: `checkEach_run`.
-/

namespace DeadLetter

set_option autoImplicit false

open QueueStore

/-! ## Worlds in which look-ups find the same -/

/-- Look-ups are answered alike in `p` and `p'`. -/
structure Memory.SameAnswers (p p' : Memory) : Prop where
  queues : p'.queues.queues = p.queues.queues
  operations : p'.queues.failingOperations = p.queues.failingOperations
  failing : p'.queues.failingQueues = p.queues.failingQueues
  topics : p'.topics.topics = p.topics.topics
  topicOperations : p'.topics.failingOperations = p.topics.failingOperations
  buckets : p'.buckets = p.buckets

/-- Routines that consult some slots find the same in `w` and `w'`. -/
structure World.Same (slots : Nat → Prop) (w w' : World) : Prop where
  provider : w.provider.SameAnswers w'.provider
  known : ∀ i, slots i → w'.known i = w.known i

namespace Memory.SameAnswers
variable {p p' p'' : Memory}

theorem refl (p : Memory) : p.SameAnswers p := ⟨rfl, rfl, rfl, rfl, rfl, rfl⟩

theorem symm (h : p.SameAnswers p') : p'.SameAnswers p :=
  ⟨h.queues.symm, h.operations.symm, h.failing.symm, h.topics.symm, h.topicOperations.symm, h.buckets.symm⟩

theorem trans (h : p.SameAnswers p') (h' : p'.SameAnswers p'') : p.SameAnswers p'' :=
  ⟨h'.queues.trans h.queues, h'.operations.trans h.operations, h'.failing.trans h.failing, h'.topics.trans h.topics,
    h'.topicOperations.trans h.topicOperations, h'.buckets.trans h.buckets⟩

theorem fails (h : p.SameAnswers p') (op : Operation) (queue : String) :
    p'.queues.fails op queue = p.queues.fails op queue := by
  unfold QueueStore.fails
  rw [h.operations, h.failing]

theorem of_quiet {s : QueueStore} (h : Quiet p.queues s) : p.SameAnswers { p with queues := s } :=
  ⟨h.queues, h.operations, h.failing, rfl, rfl, rfl⟩

theorem perform (p : Memory) {c : Call} (hc : c.looks = true) : p.SameAnswers (p.perform c).2 := by
  cases c with
  | queueUrl queue => exact of_quiet (quiet_queueUrl _ _)
  | queueAttributes url => exact of_quiet (quiet_queueAttributes _ _)
  | topicAttributes arn =>
    show p.SameAnswers { p with topics := (p.topics.topicAttributes arn).2 }
    rw [TopicStore.topicAttributes_eq]
    exact ⟨rfl, rfl, rfl, rfl, rfl, rfl⟩
  | headBucket bucket => exact refl p
  | _ => cases hc

theorem reply_eq (h : p.SameAnswers p') {c : Call} (hc : c.looks = true) : (p'.perform c).1 = (p.perform c).1 := by
  cases c with
  | queueUrl queue =>
    show (p'.queues.queueUrl queue).1 = (p.queues.queueUrl queue).1
    rw [queueUrl_eq, queueUrl_eq, h.fails, h.queues]
  | queueAttributes url =>
    show (p'.queues.queueAttributes url).1 = (p.queues.queueAttributes url).1
    rw [queueAttributes_eq, queueAttributes_eq, h.fails, h.queues]
  | topicAttributes arn =>
    show (p'.topics.topicAttributes arn).1 = (p.topics.topicAttributes arn).1
    rw [TopicStore.topicAttributes_eq, TopicStore.topicAttributes_eq, h.topicOperations, h.topics]
  | headBucket bucket =>
    show p'.headBucket bucket = p.headBucket bucket
    unfold Memory.headBucket
    rw [h.buckets]
  | _ => cases hc

end Memory.SameAnswers

namespace World.Same
variable {slots others : Nat → Prop} {w w' : World}

theorem refl (slots : Nat → Prop) (w : World) : w.Same slots w := ⟨.refl _, fun _ _ => rfl⟩

theorem trans {w'' : World} (h : w.Same slots w') (h' : w'.Same slots w'') : w.Same slots w'' :=
  ⟨h.provider.trans h'.provider, fun i hi => (h'.known i hi).trans (h.known i hi)⟩

theorem reply_eq (h : w.Same slots w') {a : Action} (ha : a.Consults slots) : (w'.perform a).1 = (w.perform a).1 := by
  cases a with
  | call c => exact h.provider.reply_eq ha
  | facts i => exact h.known i ha
  | learn i f => rfl
  | _ => exact ha.elim

/-- Worlds in which an action finds the same are such worlds after it. -/
theorem perform_perform (h : w.Same slots w') {a : Action} (ha : a.Consults slots) :
    (w.perform a).2.Same slots (w'.perform a).2 := by
  cases a with
  | call c =>
    have hbefore := Memory.SameAnswers.perform w.provider (c := c) ha
    have hafter := Memory.SameAnswers.perform w'.provider (c := c) ha
    exact ⟨(hbefore.symm.trans h.provider).trans hafter, h.known⟩
  | facts i => exact h
  | learn i f =>
    refine ⟨h.provider, fun j hj => ?_⟩
    show (if j = i then (w'.known j).learn f else w'.known j) = if j = i then (w.known j).learn f else w.known j
    rw [h.known j hj]
  | _ => exact ha.elim

theorem perform {a : Action} (ha : a.Consults slots) (hdisjoint : ∀ i, others i → ¬ slots i) (w : World) :
    w.Same others (w.perform a).2 := by
  cases a with
  | call c => exact ⟨.perform w.provider ha, fun _ _ => rfl⟩
  | facts i => exact .refl _ w
  | learn i f =>
    refine ⟨.refl _, fun j hj => if_neg ?_⟩
    rintro rfl
    exact hdisjoint j hj ha
  | _ => exact ha.elim

end World.Same

namespace Routine
variable {α β : Type} {slots others : Nat → Prop} {r : Routine α}

/-- A routine that consults some slots does the same where it finds the same. -/
theorem Only.run_eq (h : Only (Action.Consults slots) r) {w w' : World} (hw : w.Same slots w') :
    (r.run w').1 = (r.run w).1 := by
  induction r generalizing w w' with
  | done a => rfl
  | act a next ih =>
    obtain ⟨_, ha, hnext⟩ := h (w.perform a).1 trivial
    show ((next (w'.perform a).1).run (w'.perform a).2).1 = ((next (w.perform a).1).run (w.perform a).2).1
    rw [hw.reply_eq ha]
    exact ih _ hnext (hw.perform_perform ha)

/-- A routine that consults some slots changes nothing for those that consult others. -/
theorem Only.run_same (h : Only (Action.Consults slots) r) (hdisjoint : ∀ i, others i → ¬ slots i) (w : World) :
    w.Same others (r.run w).2 := by
  induction r generalizing w with
  | done a => exact .refl _ w
  | act a next ih =>
    obtain ⟨_, ha, hnext⟩ := h (w.perform a).1 trivial
    exact (World.Same.perform ha hdisjoint w).trans (ih _ hnext _)

theorem Only.sameAnswers (h : Only (Action.Consults slots) r) (w : World) :
    w.provider.SameAnswers (r.run w).2.provider := by
  have hsame : w.Same (fun _ => False) (r.run w).2 := h.run_same (fun _ hi => hi.elim) w
  exact hsame.provider

/-- Whatever the world, a run of the one routine before the other does not change what the other returns. -/
def Spares (r : Routine α) (r' : Routine β) : Prop := ∀ w, (r'.run (r.run w).2).1 = (r'.run w).1

theorem Only.spares {r' : Routine β} (h : Only (Action.Consults slots) r) (h' : Only (Action.Consults others) r')
    (hdisjoint : ∀ i, others i → ¬ slots i) : r.Spares r' :=
  fun w => h'.run_eq (h.run_same hdisjoint w)

end Routine

open Routine

/-! ## Checks in a row -/

/-- Checks that spare each other find in a row what they find on their own, and of those with one id the last counts. -/
theorem checkEach_run {checks : List (String × Routine Health)}
    (hspares : checks.Pairwise fun c c' => c.2.Spares c'.2) (found : Dict Health) (w : World) :
    ((checkEach checks found).run w).1 =
      (checks.map fun c => (c.1, (c.2.run w).1)).foldl (fun d e => d.put e.1 e.2) found := by
  induction checks generalizing found w with
  | nil => rfl
  | cons c checks ih =>
    obtain ⟨hhead, htail⟩ := List.pairwise_cons.mp hspares
    have hothers : (checks.map fun c' => (c'.1, (c'.2.run (c.2.run w).2).1)) =
        checks.map fun c' => (c'.1, (c'.2.run w).1) :=
      List.map_congr_left fun c' hc' => by rw [hhead c' hc' w]
    rw [checkEach, Routine.run_bind, ih htail, hothers]
    rfl

theorem Registry.checks_pairwise {r : Registry} (hslots : (r.queues.map (·.slot)).Nodup) :
    r.checks.Pairwise fun c c' => c.2.Spares c'.2 := by
  have hqueues : (r.queues.map fun q => (q.id, q.health)).Pairwise fun c c' => c.2.Spares c'.2 := by
    rw [List.pairwise_map]
    refine (List.pairwise_map.mp hslots).imp fun {q q'} hne => ?_
    exact q.health_consults.spares q'.health_consults fun i hi hi' => hne (hi'.symm.trans hi)
  -- topics and buckets have no slot
  have hnone : ∀ i : Nat, False → ¬ False := fun _ h => h.elim
  unfold checks
  refine List.pairwise_append.mpr ⟨List.pairwise_append.mpr ⟨hqueues, ?_, ?_⟩, ?_, ?_⟩
  · rw [List.pairwise_map]
    exact List.pairwise_of_forall fun t t' => (t.health_consults _).spares (t'.health_consults _) hnone
  · intro c hc c' hc'
    obtain ⟨q, _, rfl⟩ := List.mem_map.mp hc
    obtain ⟨t, _, rfl⟩ := List.mem_map.mp hc'
    exact q.health_consults.spares (t.health_consults fun _ => False) fun _ hi => hi.elim
  · rw [List.pairwise_map]
    exact List.pairwise_of_forall fun b b' => (b.health_consults _).spares (b'.health_consults _) hnone
  · intro c hc c' hc'
    obtain ⟨b, _, rfl⟩ := List.mem_map.mp hc'
    rcases List.mem_append.mp hc with hc | hc
    · obtain ⟨q, _, rfl⟩ := List.mem_map.mp hc
      exact q.health_consults.spares (b.health_consults fun _ => False) fun _ hi => hi.elim
    · obtain ⟨t, _, rfl⟩ := List.mem_map.mp hc
      exact (t.health_consults _).spares (b.health_consults _) hnone

end DeadLetter
