import DeadLetter.Proofs.Store.Effects
import DeadLetter.Provider.Memory

/-!
# The states that a provider in memory can reach

`Memory.Reachable` : what calls, and changes from outside, make of an empty provider. A call changes queues only as
`QueueState.Turn` allows (`perform_turns`), and removes messages only if it deletes or purges (`perform_shifts`); a
change from outside removes none (`Control.apply_shifts`). So in every reachable state the queues are sound
(`Reachable.sound`).
-/

namespace DeadLetter

set_option autoImplicit false

/-- Whether a call may remove messages. -/
def Call.removes : Call → Bool
  | delete .. | purge _ => true
  | _ => false

namespace Memory
open QueueStore

/-- Publishing puts messages on queues, one after the other: what holds of each holds of all of it. -/
theorem publish_induct {R : QueueStore → QueueStore → Prop} (hrefl : ∀ s, R s s)
    (htrans : ∀ s t u, R s t → R t u → R s u) (hseed : ∀ (s : QueueStore) queue m, R s (s.seed queue m).2) (p : Memory)
    (arn : String) (m : Outbound) : R p.queues (p.publish arn m).2.queues := by
  have hfold (names : List String) (m : Outbound) (s : QueueStore) :
      R s (names.foldl (fun s name => (s.seed name m).2) s) := by
    induction names generalizing s with
    | nil => exact hrefl s
    | cons name names ih => exact htrans _ _ _ (hseed s name m) (ih _)
  unfold publish
  split
  · exact hrefl _
  · dsimp only
    split
    · exact hfold _ _ _
    · exact hrefl _

theorem publish_shifts (p : Memory) (arn : String) (m : Outbound) : Shifts p.queues (p.publish arn m).2.queues :=
  publish_induct (fun _ => .refl) (fun _ _ _ => .trans) seed_shifts p arn m

theorem perform_shifts (p : Memory) {c : Call} (hc : c.removes = false) :
    Shifts p.queues (p.perform c).2.queues := by
  cases c with
  | queueUrl queue => exact .single (quiet_queueUrl p.queues queue).moves
  | queueAttributes url => exact .single (quiet_queueAttributes p.queues url).moves
  | receive url limit wait => exact receive_shifts _ _ _
  | send url m => exact send_shifts _ _ _
  | delete url handle => cases hc
  | purge url => cases hc
  | changeVisibility url handle seconds => exact changeVisibility_shifts _ _ _ _
  | createQueue queue attributes => exact createQueue_shifts _ _ _
  | publish arn m => exact publish_shifts _ _ _
  | subscribe arn queueArn filter => exact .refl
  | topicAttributes arn => exact .refl
  | createTopic topic attributes => exact .refl
  | headBucket bucket => exact .refl

theorem perform_turns (p : Memory) (c : Call) : Turns p.queues (p.perform c).2.queues := by
  cases hc : c.removes with
  | false => exact (perform_shifts p hc).turns
  | true =>
    cases c with
    | delete url handle => exact delete_turns _ _ _
    | purge url => exact purge_turns _ _
    | _ => cases hc

/-- What can be done to the provider from outside, without a call. -/
inductive Control where
  | create (queue : String)
  | createWithRedrive (queue dlq : String) (count : Nat)
  | seed (queue : String) (message : Outbound)
  | reportCount (queue : String) (count : Int)
  | expire (queue : String)
  | failOperation (op : Operation)
  | failQueue (queue : String)
  | clearFailures
  | createTopic (arn : String)
  | setPending (arn : String) (pending : Int)
  | failBroker (op : Operation)
  | createBucket (bucket : String)
deriving Repr

/-- What a change from outside leaves behind. -/
def Control.apply (p : Memory) : Control → Memory
  | create queue => { p with queues := p.queues.create queue }
  | createWithRedrive queue dlq count => { p with queues := p.queues.createWithRedrive queue dlq count }
  | seed queue m => { p with queues := (p.queues.seed queue m).2 }
  | reportCount queue count => { p with queues := p.queues.reportCount queue count }
  | expire queue => { p with queues := p.queues.expire queue }
  | failOperation op => { p with queues := p.queues.failOperation op }
  | failQueue queue => { p with queues := p.queues.failQueue queue }
  | clearFailures => { p with queues := p.queues.clearFailures }
  | createTopic arn => { p with topics := p.topics.adjust arn id }
  | setPending arn pending => { p with topics := p.topics.setPending arn pending }
  | failBroker op => { p with topics := p.topics.failOperation op }
  | createBucket bucket => { p with buckets := bucket :: p.buckets }

theorem Control.apply_shifts (p : Memory) (c : Control) : Shifts p.queues (c.apply p).queues := by
  cases c with
  | create queue => exact create_shifts _ _
  | createWithRedrive queue dlq count => exact .single ((puts_adjust _ _ _).moves (.keep rfl rfl))
  | seed queue m => exact seed_shifts _ _ _
  | reportCount queue count => exact .single ((puts_adjust _ _ _).moves (.keep rfl rfl))
  | expire queue => exact expire_shifts _ _
  | failOperation op => exact .single ⟨Nat.le_refl _, Or.inl rfl⟩
  | failQueue queue => exact .single ⟨Nat.le_refl _, Or.inl rfl⟩
  | clearFailures => exact .single ⟨Nat.le_refl _, Or.inl rfl⟩
  | createTopic arn => exact .refl
  | setPending arn pending => exact .refl
  | failBroker op => exact .refl
  | createBucket bucket => exact .refl

/-- What calls and changes from outside make of an empty provider. -/
inductive Reachable : Memory → Prop
  | start (delivers : Bool) : Reachable { delivers := delivers }
  | call {p : Memory} (c : Call) (h : Reachable p) : Reachable (p.perform c).2
  | control {p : Memory} (c : Control) (h : Reachable p) : Reachable (c.apply p)

theorem Reachable.sound {p : Memory} (h : Reachable p) : Sound p.queues := by
  induction h with
  | start delivers => exact sound_empty
  | call c _ ih => exact (perform_turns _ c).sound ih
  | control c _ ih => exact (Control.apply_shifts _ c).turns.sound ih

end Memory

end DeadLetter
