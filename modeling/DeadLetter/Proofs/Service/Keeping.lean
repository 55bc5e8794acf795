import DeadLetter.Proofs.Provider.Reachable
import DeadLetter.Proofs.Service.Looking
import DeadLetter.Service.Inspect
import DeadLetter.Service.Listener
import DeadLetter.Service.Publish

/-!
# Routines that remove nothing

`Keeps r` : whatever is replied, the routine `r` makes no call that removes messages, so that its runs change the queues
by shifts only (`Keeps.shifts`). Routines that only look, inspections, publishing and the hiding of failed messages are
such routines.
-/

namespace DeadLetter

set_option autoImplicit false

open Protocol

/-- Whether an action is none that removes messages. -/
def Action.Keeps : Action → Prop
  | .call c => c.removes = false
  | _ => True

/-- The protocol that only forbids to remove messages. -/
def keeping : Protocol Unit := ⟨fun _ _ => True, fun _ a _ _ => a.Keeps⟩

namespace Routine
variable {α β : Type}

/-- A routine that makes no call that removes messages. -/
def Keeps (r : Routine α) : Prop := keeping.Follows r () fun _ _ => True

theorem Keeps.pure (a : α) : Keeps (Pure.pure a) := Only.pure a

theorem Keeps.perform {a : Action} (h : a.Keeps) : Keeps (Routine.perform a) := Only.perform h

theorem Keeps.bind {r : Routine α} {f : α → Routine β} (h : Keeps r) (hf : ∀ a, Keeps (f a)) : Keeps (r >>= f) :=
  Only.bind h hf

theorem Keeps.attempt {x : Attempt α} {f : α → Attempt β} (h : Keeps x.result) (hf : ∀ a, Keeps (f a).result) :
    Keeps (x >>= f).result := Only.attempt h hf

theorem Keeps.call {c : Call} (h : c.removes = false) : Keeps (Attempt.call c).result := .perform h

theorem Looks.keeps {r : Routine α} (h : Looks r) : Keeps r := by
  refine Only.mono (fun a (ha : a.Looks) => (?_ : a.Keeps)) h
  cases a with
  | call c =>
    cases c with
    | delete url handle => cases ha
    | purge url => cases ha
    | _ => rfl
  | _ => trivial

theorem Keeps.shifts {r : Routine α} (h : Keeps r) (w : World) :
    QueueStore.Shifts w.provider.queues (r.run w).2.provider.queues := by
  have hstep (u : Unit) (w' : World) (a : Action) (u' : Unit)
      (hi : QueueStore.Shifts w.provider.queues w'.provider.queues) (ha : keeping.step u a (w'.perform a).1 u') :
      QueueStore.Shifts w.provider.queues (w'.perform a).2.provider.queues := by
    cases a with
    | call c => exact hi.trans (Memory.perform_shifts w'.provider ha)
    | _ => exact hi
  obtain ⟨_, _, hinv⟩ := Follows.run (fun _ _ _ _ => trivial) hstep h .refl
  exact hinv

end Routine

open Routine

namespace QueueHandle
variable (q : QueueHandle)

theorem collect_keeps (dlqUrl : String) (wanted : Nat) : Keeps (collect dlqUrl wanted).result := by
  induction wanted using Nat.strongRecOn with
  | _ wanted ih =>
    unfold collect
    split
    · exact .pure _
    · next hwanted =>
      refine .attempt (.call rfl) fun batch => ?_
      cases batch with
      | nil => exact .pure _
      | cons m ms =>
        refine .attempt (ih _ ?_) fun rest => .pure _
        rw [List.length_cons]
        omega

theorem inspect_keeps (p : NumberPolicy) (limit : Int) : Keeps (q.inspect p limit).result := by
  unfold inspect
  cases hd : q.dlq with
  | none => exact .pure _
  | some d =>
    refine .attempt (q.urlOfDlq_looks hd).keeps fun dlqUrl => ?_
    refine .attempt (.call rfl) fun attributes => ?_
    exact .attempt (collect_keeps dlqUrl _) fun messages => .pure _

theorem hideFailed_keeps (b : BackoffPolicy) (m : Received) : Keeps (q.hideFailed b m) := by
  refine .bind q.maxReceiveCount_looks.keeps fun limit => ?_
  refine .bind q.url_looks.keeps fun o => ?_
  cases o with
  | error e => exact .pure _
  | ok url => exact .bind (.call rfl) fun _ => .pure _

end QueueHandle

theorem TopicHandle.publish_keeps (t : TopicHandle) (eventType body : String) (attributes : Attributes)
    (group : Option String) : Keeps (t.publish eventType body attributes group).result := by
  unfold publish
  dsimp only
  split
  · split
    · exact .attempt (.pure _) fun _ => .attempt (.perform trivial) fun _ => .call rfl
    · exact .attempt (.perform trivial) fun _ => .call rfl
  · exact .call rfl

end DeadLetter
