import DeadLetter.Proofs.Routine.Journal
import DeadLetter.Proofs.Service.Lookup
import DeadLetter.Service.Health

/-!
# Routines that only look

`Routine.Only p r` : whatever is replied, the routine `r` takes no actions but those that `p` picks. `Looks r` : it
takes none that changes a queue or tracks an event, so that its runs leave the queues and the telemetry record untouched
(`World.Untouched`, `Looks.untouched`). Look-ups and health checks are such routines; what they read and learn of queues
is about their own slot alone (`Action.Consults`, `QueueHandle.health_consults`).
-/

namespace DeadLetter

set_option autoImplicit false

open Protocol

/-- Every queue and the telemetry record are as they were. -/
structure World.Untouched (w w' : World) : Prop where
  queues : w'.provider.queues.queues = w.provider.queues.queues
  events : w'.events = w.events

namespace World.Untouched
variable {w w' w'' : World}

theorem refl (w : World) : w.Untouched w := ⟨rfl, rfl⟩

theorem trans (h : w.Untouched w') (h' : w'.Untouched w'') : w.Untouched w'' :=
  ⟨h'.queues.trans h.queues, h'.events.trans h.events⟩

end World.Untouched

/-- Whether a call asks for something and changes nothing. -/
def Call.looks : Call → Bool
  | queueUrl _ | queueAttributes _ | topicAttributes _ | headBucket _ => true
  | _ => false

/-- Whether an action leaves all queues and the telemetry record alone. -/
def Action.Looks : Action → Prop
  | .call c => c.looks = true
  | .track _ => False
  | _ => True

/-- Whether an action only asks the provider, or reads or adds facts about some slots. -/
def Action.Consults (slots : Nat → Prop) : Action → Prop
  | .call c => c.looks = true
  | .facts slot => slots slot
  | .learn slot _ => slots slot
  | _ => False

theorem Action.Consults.looks {slots : Nat → Prop} {a : Action} (h : a.Consults slots) : a.Looks := by
  cases a with
  | call c => exact h
  | track event => exact h
  | _ => trivial

theorem World.untouched_perform (w : World) {a : Action} (ha : a.Looks) : w.Untouched (w.perform a).2 := by
  cases a with
  | call c =>
    refine ⟨?_, rfl⟩
    cases c with
    | queueUrl queue => exact (QueueStore.quiet_queueUrl w.provider.queues queue).queues
    | queueAttributes url => exact (QueueStore.quiet_queueAttributes w.provider.queues url).queues
    | topicAttributes arn => rfl
    | headBucket bucket => rfl
    | _ => cases ha
  | track event => exact ha.elim
  | _ => exact ⟨rfl, rfl⟩

/-- The lore under which anything may be known, and any URL found. -/
def Lore.anything : Lore := ⟨fun _ _ => True, fun _ _ => True, False⟩

theorem Lore.anything_admits (a : Action) (r : a.Reply) : Lore.anything.Admits a r := by
  refine ⟨?_, False.elim⟩
  cases a with
  | facts slot => exact ⟨fun _ _ => trivial, fun _ _ => trivial, fun _ _ => trivial⟩
  | call c =>
    cases c with
    | queueUrl queue => exact fun _ _ => trivial
    | _ => trivial
  | _ => trivial

theorem Lore.anything_covers (q : QueueHandle) : Lore.anything.Covers q :=
  ⟨fun _ _ => trivial, fun _ _ _ _ => trivial, fun _ => trivial⟩

namespace Routine
variable {α β : Type} {p : Action → Prop}

/-- The protocol that only forbids some actions. -/
def permitting (p : Action → Prop) : Protocol Unit := ⟨fun _ _ => True, fun _ a _ _ => p a⟩

/-- A routine that takes no actions but those of a kind. -/
def Only (p : Action → Prop) (r : Routine α) : Prop := (permitting p).Follows r () fun _ _ => True

theorem Only.pure (a : α) : Only p (Pure.pure a) := trivial

theorem Only.perform {a : Action} (h : p a) : Only p (Routine.perform a) := fun _ _ => ⟨(), h, trivial⟩

theorem Only.bind {r : Routine α} {f : α → Routine β} (h : Only p r) (hf : ∀ a, Only p (f a)) : Only p (r >>= f) :=
  Follows.bind h fun a _ _ => hf a

theorem Only.attempt {x : Attempt α} {f : α → Attempt β} (h : Only p x.result) (hf : ∀ a, Only p (f a).result) :
    Only p (x >>= f).result := by
  refine Follows.attempt (Q := fun _ _ => True) (E := fun _ _ => True) ?_ (fun a _ _ => hf a) (fun _ _ _ => trivial)
  refine Follows.mono h ?_
  intro o _ _
  cases o <;> trivial

theorem Only.call {c : Call} (h : p (.call c)) : Only p (Attempt.call c).result := .perform h

theorem Only.mono {p' : Action → Prop} (hp : ∀ a, p a → p' a) {r : Routine α} (h : Only p r) : Only p' r := by
  induction r with
  | done a => trivial
  | act a next ih =>
    intro r hr
    obtain ⟨_, ha, hnext⟩ := h r hr
    exact ⟨(), hp a ha, ih r hnext⟩

theorem Only.of_finds {x : Attempt α} {L : Lore} {P : α → Prop}
    (h : (permitting p).Follows x.result () (QueueHandle.Finds L () P)) : Only p x.result :=
  h.mono fun _ _ _ => trivial

theorem Only.journal {r : Routine α} (h : Only p r) (w : World) : ∀ e ∈ r.journal w, p e.action :=
  Follows.journal (I := fun _ _ => True) (fun _ _ _ _ => trivial) (fun _ _ _ _ _ _ => trivial) (fun _ _ _ _ _ ha => ha) h
    trivial

/-- A routine that leaves all queues and the telemetry record alone. -/
abbrev Looks (r : Routine α) : Prop := Only Action.Looks r

theorem Looks.untouched {r : Routine α} (h : Looks r) (w : World) : w.Untouched (r.run w).2 := by
  obtain ⟨_, _, hinv⟩ := Follows.run (I := fun _ => w.Untouched) (fun _ _ _ _ => trivial)
    (fun _ w' _ _ hi ha => hi.trans (w'.untouched_perform ha)) h (.refl w)
  exact hinv

theorem permitting_consults (slot : Nat) : (permitting (Action.Consults (· = slot))).Looks Lore.anything slot where
  admits a r _ := Lore.anything_admits a r
  queueUrl _ _ _ := rfl
  queueAttributes _ _ _ := rfl
  facts _ _ := rfl
  learn _ _ _ _ := rfl

theorem Only.looks {slots : Nat → Prop} {r : Routine α} (h : Only (Action.Consults slots) r) : Looks r :=
  h.mono fun _ ha => ha.looks

end Routine

open Routine

namespace QueueHandle
variable (q : QueueHandle)

theorem url_consults : Only (Action.Consults (· = q.slot)) q.url.result :=
  .of_finds (url_follows (permitting_consults q.slot) (Lore.anything_covers q) ())

theorem urlOfDlq_consults {d : DlqHandle} (hd : q.dlq = some d) :
    Only (Action.Consults (· = q.slot)) (q.urlOfDlq d.name).result :=
  .of_finds (urlOfDlq_follows (permitting_consults q.slot) (Lore.anything_covers q) hd ())

theorem maxReceiveCount_consults : Only (Action.Consults (· = q.slot)) q.maxReceiveCount.result :=
  .of_finds (maxReceiveCount_follows (permitting_consults q.slot) (Lore.anything_covers q) ())

theorem attributes_consults : Only (Action.Consults (· = q.slot)) q.attributes.result :=
  .attempt q.url_consults fun _ => .call rfl

theorem addDlqHealth_consults {d : DlqHandle} (hd : q.dlq = some d) (h : Health) :
    Only (Action.Consults (· = q.slot)) (q.addDlqHealth d.name h) := by
  refine .bind (.attempt (q.urlOfDlq_consults hd) fun _ => .call rfl) fun o => ?_
  cases o <;> exact .pure _

theorem health_consults : Only (Action.Consults (· = q.slot)) q.health := by
  refine .bind q.attributes_consults fun o => ?_
  cases hd : q.dlq with
  | none => exact .pure _
  | some d =>
    dsimp only
    split
    · exact .pure _
    · exact q.addDlqHealth_consults hd _

theorem url_looks : Looks q.url.result := q.url_consults.looks

theorem urlOfDlq_looks {d : DlqHandle} (hd : q.dlq = some d) : Looks (q.urlOfDlq d.name).result :=
  (q.urlOfDlq_consults hd).looks

theorem maxReceiveCount_looks : Looks q.maxReceiveCount.result := q.maxReceiveCount_consults.looks

theorem health_looks : Looks q.health := q.health_consults.looks

end QueueHandle

theorem TopicHandle.health_consults (t : TopicHandle) (slots : Nat → Prop) :
    Only (Action.Consults slots) t.health := by
  refine .bind (.call rfl) fun o => ?_
  cases o <;> exact .pure _

theorem TopicHandle.health_looks (t : TopicHandle) : Looks t.health := (t.health_consults fun _ => False).looks

theorem BucketHandle.health_consults (b : BucketHandle) (slots : Nat → Prop) :
    Only (Action.Consults slots) b.health := by
  refine .bind (.call rfl) fun o => ?_
  cases o <;> exact .pure _

theorem BucketHandle.health_looks (b : BucketHandle) : Looks b.health := (b.health_consults fun _ => False).looks

theorem checkEach_looks {checks : List (String × Routine Health)} (h : ∀ c ∈ checks, Looks c.2)
    (done : Dict Health) : Looks (checkEach checks done) := by
  induction checks generalizing done with
  | nil => exact .pure _
  | cons c checks ih =>
    refine .bind (h c List.mem_cons_self) fun health => ?_
    exact ih (fun c' hc' => h c' (List.mem_cons_of_mem _ hc')) _

theorem Registry.health_looks (r : Registry) : Looks r.health := by
  refine .bind (checkEach_looks ?_ []) fun _ => .pure _
  intro c hc
  unfold checks at hc
  rcases List.mem_append.mp hc with hc | hc
  · rcases List.mem_append.mp hc with hc | hc
    · obtain ⟨q, _, rfl⟩ := List.mem_map.mp hc
      exact q.health_looks
    · obtain ⟨t, _, rfl⟩ := List.mem_map.mp hc
      exact t.health_looks
  · obtain ⟨b, _, rfl⟩ := List.mem_map.mp hc
    exact b.health_looks

end DeadLetter
