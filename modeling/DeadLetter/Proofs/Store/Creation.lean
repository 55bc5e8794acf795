import DeadLetter.Proofs.Store.Calls
import DeadLetter.Proofs.Store.Topics

/-!
# What creation leaves behind

A queue or topic that is created gets the attributes given, a queue with the redrive policy among them, unless it has
some already (`Tagged.established`; `createQueue_of_readable`, `createTopic_eq`). What a creation left is what it leaves
when it is repeated, whatever was created since: `Tagged.established_self`, `Tagged.established_after`.
-/

namespace DeadLetter

set_option autoImplicit false

/-- A kind of states with attributes that can be set. -/
structure Tagged (σ : Type) where
  attributes : σ → Dict String
  set : σ → Dict String → σ
  attributes_set : ∀ s a, attributes (set s a) = a
  set_set : ∀ s a a', set (set s a) a' = set s a'

namespace Tagged
variable {σ : Type} (k : Tagged σ) {s : σ} {a : Dict String}

/-- A state after it is created with attributes: those of one that has some stay. -/
def established (s : σ) (a : Dict String) : σ := if (k.attributes s).isEmpty then k.set s a else s

theorem established_of_isEmpty (h : (k.attributes s).isEmpty = true) (a : Dict String) :
    k.established s a = k.set s a := if_pos h

theorem established_of_not_isEmpty (h : (k.attributes s).isEmpty = false) (a : Dict String) :
    k.established s a = s := if_neg (by rw [h]; exact Bool.false_ne_true)

theorem established_set_self (s : σ) (a : Dict String) : k.established (k.set s a) a = k.set s a := by
  cases hempty : a.isEmpty with
  | true =>
    have hset : (k.attributes (k.set s a)).isEmpty = true := by rw [k.attributes_set, hempty]
    rw [k.established_of_isEmpty hset, k.set_set]
  | false =>
    have hset : (k.attributes (k.set s a)).isEmpty = false := by rw [k.attributes_set, hempty]
    rw [k.established_of_not_isEmpty hset]

theorem established_self (s : σ) (a : Dict String) : k.established (k.established s a) a = k.established s a := by
  cases hempty : (k.attributes s).isEmpty with
  | true => rw [k.established_of_isEmpty hempty, k.established_set_self]
  | false => rw [k.established_of_not_isEmpty hempty, k.established_of_not_isEmpty hempty]

/-- What a creation leaves as it is, it leaves as it is after another one too. -/
theorem established_after (h : k.established s a = s) (a' : Dict String) :
    k.established (k.established s a') a = k.established s a' := by
  cases hempty : (k.attributes s).isEmpty with
  | false => rw [k.established_of_not_isEmpty hempty, h]
  | true =>
    -- the creation set nothing: it is another one like it that sets nothing, or comes to a state that has attributes
    have hnil : k.attributes s = [] := List.isEmpty_iff.mp hempty
    have ha : a = [] := by
      rw [k.established_of_isEmpty hempty] at h
      rw [← k.attributes_set s a, h, hnil]
    rw [k.established_of_isEmpty hempty a']
    cases hempty' : a'.isEmpty with
    | true =>
      rw [ha, ← List.isEmpty_iff.mp hempty']
      exact k.established_set_self s a'
    | false =>
      have hset : (k.attributes (k.set s a')).isEmpty = false := by rw [k.attributes_set, hempty']
      exact k.established_of_not_isEmpty hset a

end Tagged

namespace QueueStore

/-- The redrive policy that attributes set. -/
def redriveIn (a : Dict String) : Option RedrivePolicy := (a.get? redriveAttribute).bind RedrivePolicy.read?

/-- If attributes set a redrive policy, it can be read. -/
def Readable (a : Dict String) : Prop :=
  ∀ text, a.get? redriveAttribute = some text → (RedrivePolicy.read? text).isSome

instance (a : Dict String) : Decidable (Readable a) :=
  decidable_of_iff ((a.get? redriveAttribute).all fun text => (RedrivePolicy.read? text).isSome)
    (Option.all_eq_true _ _)

/-- The attributes of queues, with the redrive policy that they set. -/
def tagged : Tagged QueueState where
  attributes := (·.attributes)
  set q a := { q with attributes := a, redrive := redriveIn a }
  attributes_set _ _ := rfl
  set_set _ _ _ := rfl

theorem createQueue_of_readable {s : QueueStore} {queue : String} (hf : s.fails .createQueue queue = false)
    {a : Dict String} (h : Readable a) :
    s.createQueue queue a =
      (.ok (urlOf queue), (s.counted .createQueue).withQueue queue (tagged.established (s.state queue) a)) := by
  unfold createQueue
  rw [attempt_of_not_fails hf]
  dsimp only [Tagged.established, tagged, redriveIn]
  cases htext : a.get? redriveAttribute with
  | none => rfl
  | some text =>
    obtain ⟨policy, hpolicy⟩ := Option.isSome_iff_exists.mp (h text htext)
    dsimp only
    rw [Option.bind_some, hpolicy]
    rfl

theorem createQueue_of_not_readable {s : QueueStore} {queue : String} (hf : s.fails .createQueue queue = false)
    {a : Dict String} (h : ¬ Readable a) :
    s.createQueue queue a = (.error .serialization, s.counted .createQueue) := by
  unfold createQueue
  rw [attempt_of_not_fails hf]
  dsimp only
  cases htext : a.get? redriveAttribute with
  | none => exact absurd (fun text hsome => by rw [htext] at hsome; cases hsome) h
  | some text =>
    dsimp only
    cases hread : RedrivePolicy.read? text with
    | none => rfl
    | some policy =>
      refine absurd (fun text' htext' => ?_) h
      rw [htext] at htext'
      cases htext'
      rw [hread]
      rfl

end QueueStore

namespace TopicStore

/-- The attributes of topics. -/
def tagged : Tagged TopicState where
  attributes := (·.attributes)
  set t a := { t with attributes := a }
  attributes_set _ _ := rfl
  set_set _ _ _ := rfl

theorem createTopic_eq {s : TopicStore} (hf : .createTopic ∉ s.failingOperations) (topic : String) (a : Dict String) :
    s.createTopic topic a =
      (.ok (arnOf topic),
        (s.counted .createTopic).withTopic (arnOf topic) (tagged.established (s.state (arnOf topic)) a)) := by
  unfold createTopic
  rw [attempt_of_not_failing hf]
  rfl

/-- Subscriptions do not change which attributes a topic gets. -/
theorem established_subscribed (t : TopicState) (xs : List Subscription) (a : Dict String) :
    tagged.established (subscribed t xs) a = subscribed (tagged.established t a) xs := by
  unfold Tagged.established
  show (if t.attributes.isEmpty then _ else _) = subscribed (if t.attributes.isEmpty then _ else _) xs
  split <;> rfl

end TopicStore

end DeadLetter
