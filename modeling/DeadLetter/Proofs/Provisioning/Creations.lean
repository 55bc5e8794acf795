import DeadLetter.Proofs.Provisioning.Script
import DeadLetter.Proofs.RedrivePolicy
import DeadLetter.Proofs.Registry.Handles

/-!
# What provisioning creates

Where a queue is created once, in a row of calls on a provider without queues, it has the attributes that it is created
with (`Call.foldl_onQueue_of_mem`). `Properties.creations` : the queues of a configuration with their attributes, each
dead letter queue ahead of its queue. They are what provisioning creates (`Registry.filterMap_creation_script`), each
once if the names of dead letter queues are apart from those of queues (`Properties.Tidy.nodup_creations`).
`get?_redrive_attributes`, `redriveIn_attributes` and `get?_fifo_attributes` : what the attributes say.
-/

namespace DeadLetter

set_option autoImplicit false

open QueueStore

/-! ## Creations in a row of calls -/

namespace Call

/-- The queue that a call creates, with its attributes. -/
def creation? : Call → Option (String × Dict String)
  | createQueue name a => some (name, a)
  | _ => none

theorem onQueue_of_none {c : Call} (h : c.creation? = none) (n : String) (q : Option QueueState) :
    onQueue n q c = q := by
  cases c with
  | createQueue name a => cases h
  | _ => rfl

theorem onQueue_of_some {c : Call} {e : String × Dict String} (h : c.creation? = some e) (n : String)
    (q : Option QueueState) :
    onQueue n q c = if e.1 = n then some (QueueStore.tagged.established (q.getD {}) e.2) else q := by
  cases c with
  | createQueue name a =>
    cases h
    rfl
  | _ => cases h

variable {cs : List Call}

theorem foldl_onQueue_of_notMem {n : String} (h : n ∉ (cs.filterMap creation?).map (·.1)) (q : Option QueueState) :
    cs.foldl (onQueue n) q = q := by
  refine foldl_of_still fun c hc => ?_
  cases he : c.creation? with
  | none => exact onQueue_of_none he n q
  | some e =>
    have hne : e.1 ≠ n := by
      rintro rfl
      exact h (List.mem_map_of_mem (List.mem_filterMap.mpr ⟨c, hc, he⟩))
    rw [onQueue_of_some he, if_neg hne]

theorem foldl_onQueue_of_mem (hnodup : ((cs.filterMap creation?).map (·.1)).Nodup) {e : String × Dict String}
    (he : e ∈ cs.filterMap creation?) :
    cs.foldl (onQueue e.1) none = some (QueueStore.tagged.established {} e.2) := by
  induction cs with
  | nil => cases he
  | cons c cs ih =>
    rw [List.foldl_cons]
    cases hc : c.creation? with
    | none =>
      rw [List.filterMap_cons_none hc] at hnodup he
      rw [onQueue_of_none hc]
      exact ih hnodup he
    | some e' =>
      rw [List.filterMap_cons_some hc] at hnodup he
      obtain ⟨hnot, hnodup⟩ := List.nodup_cons.mp hnodup
      rw [onQueue_of_some hc]
      rcases List.mem_cons.mp he with rfl | he
      · rw [if_pos rfl]
        exact foldl_onQueue_of_notMem hnot _
      · have hne : e'.1 ≠ e.1 := fun heq => hnot (List.mem_map.mpr ⟨e, he, heq.symm⟩)
        rw [if_neg hne]
        exact ih hnodup he

end Call

/-! ## Attributes -/

namespace Provision
variable {p : QueueProperties} {dlq? : Option String}

/-- Attributes of throughput have keys of their own. -/
theorem get?_throughputAttributes {k : String} (hlimit : k ≠ "FifoThroughputLimit")
    (hscope : k ≠ "DeduplicationScope") : (Dict.ofList (throughputAttributes p)).get? k = none := by
  rw [Dict.get?_ofList, Option.map_eq_none_iff, List.find?_eq_none]
  intro e he hkey
  rw [List.mem_reverse] at he
  unfold throughputAttributes at he
  split at he
  · rcases List.mem_cons.mp he with rfl | he
    · exact hlimit (eq_of_beq hkey).symm
    · split at he
      · rw [List.mem_singleton.mp he] at hkey
        exact hscope (eq_of_beq hkey).symm
      · cases he
  · cases he

theorem get?_redrive_attributes :
    (Dict.ofList (attributes dlq? p)).get? redriveAttribute =
      dlq?.map fun d => RedrivePolicy.text ⟨QueueStore.arnOf (addressed d), p.dlqMaxReceiveCount⟩ := by
  have hfifo : (Dict.ofList (fifoAttributes p.isFifo)).get? redriveAttribute = none := by
    cases p.isFifo <;> rfl
  unfold attributes
  rw [Dict.get?_ofList_append, get?_throughputAttributes (by decide) (by decide), Dict.get?_ofList_append, hfifo,
    Dict.get?_ofList]
  unfold redriveAttributes
  cases dlq? <;> rfl

theorem get?_fifo_attributes :
    (Dict.ofList (attributes dlq? p)).get? "FifoQueue" = if p.isFifo then some "true" else none := by
  have hrest : (Dict.ofList (("VisibilityTimeout", Text.intText p.visibilityTimeout) ::
      redriveAttributes dlq? p)).get? "FifoQueue" = none := by
    rw [Dict.get?_ofList]
    unfold redriveAttributes
    cases dlq? <;> rfl
  unfold attributes
  rw [Dict.get?_ofList_append, get?_throughputAttributes (by decide) (by decide), Dict.get?_ofList_append, hrest]
  cases p.isFifo <;> rfl

/-- If attributes of a queue can be read, they set its redrive policy just if it has a dead letter queue. -/
theorem redriveIn_attributes (h : Readable (Dict.ofList (attributes dlq? p))) :
    redriveIn (Dict.ofList (attributes dlq? p)) =
      dlq?.map fun d => ⟨QueueStore.arnOf (addressed d), p.dlqMaxReceiveCount⟩ := by
  unfold Readable at h
  unfold redriveIn
  rw [get?_redrive_attributes] at h ⊢
  cases dlq? with
  | none => rfl
  | some d =>
    have hsome := h _ rfl
    rw [Option.map_some, Option.bind_some]
    rw [RedrivePolicy.read?_text] at hsome ⊢
    split at hsome
    · next hcount => rw [if_pos hcount, Option.map_some]
    · cases hsome

/-- A dead letter queue is created without a redrive policy, and with the attribute of ordered queues alone. -/
theorem redriveIn_fifoAttributes (fifo : Bool) : redriveIn (Dict.ofList (fifoAttributes fifo)) = none := by
  cases fifo <;> rfl

theorem get?_fifoAttributes (fifo : Bool) :
    (Dict.ofList (fifoAttributes fifo)).get? "FifoQueue" = if fifo then some "true" else none := by
  cases fifo <;> rfl

end Provision

/-! ## Creations of a configuration -/

/-- The queues that the entry of a queue creates, with their attributes. -/
def QueueProperties.creations (p : QueueProperties) : List (String × Dict String) :=
  (p.dlqName.map fun d => (d, Dict.ofList (Provision.fifoAttributes p.isFifo))).toList ++
    [(p.queueName, Dict.ofList (Provision.attributes p.dlqName p))]

/-- The queues that a configuration creates, with their attributes. -/
def Properties.creations (config : Properties) : List (String × Dict String) :=
  config.queues.flatMap fun e => e.2.creations

/-- Names of queues address themselves, and those of dead letter queues are apart from those of queues. -/
structure Properties.Tidy (config : Properties) : Prop where
  queueNames : ∀ e ∈ config.queues, '/' ∉ e.2.queueName.toList
  dlqNames : ∀ e ∈ config.queues, ∀ d, e.2.dlqName = some d → '/' ∉ d.toList
  apart : ∀ e ∈ config.queues, ∀ e' ∈ config.queues, e.2.dlqName ≠ some e'.2.queueName

theorem Properties.Tidy.nodup_creations {config : Properties} (h : config.Tidy) (hsound : config.Sound) :
    (config.creations.map (·.1)).Nodup := by
  have hnames : config.creations.map (·.1) = config.queues.flatMap fun e => e.2.dlqName.toList ++ [e.2.queueName] := by
    unfold creations
    rw [List.map_flatMap]
    refine List.flatMap_congr fun e _ => ?_
    unfold QueueProperties.creations
    cases e.2.dlqName <;> rfl
  have hperm := List.flatMap_append_perm config.queues (fun e => e.2.dlqName.toList) fun e => [e.2.queueName]
  rw [← List.filterMap_eq_flatMap_toList, ← List.map_eq_flatMap] at hperm
  rw [hnames, ← hperm.nodup_iff]
  refine List.nodup_append'.mpr ⟨hsound.dlqNames, hsound.queueNames, ?_⟩
  rintro n hn hn'
  obtain ⟨e, he, hd⟩ := List.mem_filterMap.mp hn
  obtain ⟨e', he', rfl⟩ := List.mem_map.mp hn'
  exact h.apart e he e' he' hd

namespace Registry
variable {r : Registry} {config : Properties}

theorem filterMap_creation_topicScript (r : Registry) (e : String × TopicProperties) :
    (Provision.topicScript r e).filterMap Call.creation? = [] := by
  unfold Provision.topicScript
  cases r.topicById? e.1 <;> rfl

theorem Holds.filterMap_creation_queueScript (hr : r.Holds config) (hkeyed : config.Keyed)
    {e : String × QueueProperties} (he : e ∈ config.queues) :
    (Provision.queueScript r e).filterMap Call.creation? = e.2.creations := by
  obtain ⟨q, _, hq, hname, hdlq⟩ := hr.queueById?_of_mem hkeyed he
  have hsubscribe : (Provision.subscribeCalls r e.2.queueName e.2).filterMap Call.creation? = [] := by
    unfold Provision.subscribeCalls
    cases e.2.subscribeTopicId.bind r.topicById? <;> rfl
  unfold Provision.queueScript
  rw [hq]
  show (Provision.queueCalls r q e.2).filterMap _ = _
  unfold Provision.queueCalls QueueProperties.creations
  have hmain (a : Dict String) : Call.creation? (.createQueue e.2.queueName a) = some (e.2.queueName, a) := rfl
  rw [hname, hdlq, List.filterMap_append, List.filterMap_cons_some (hmain _), hsubscribe]
  unfold Provision.dlqCalls
  cases e.2.dlqName <;> rfl

theorem Holds.filterMap_creation_script (hr : r.Holds config) (hkeyed : config.Keyed) :
    (r.script config).filterMap Call.creation? = config.creations := by
  unfold script Properties.creations
  rw [List.filterMap_append, List.filterMap_flatMap, List.filterMap_flatMap]
  rw [List.flatMap_eq_nil_iff.mpr fun e _ => r.filterMap_creation_topicScript e, List.nil_append]
  exact List.flatMap_congr fun e he => hr.filterMap_creation_queueScript hkeyed he

end Registry

end DeadLetter
