import DeadLetter.Proofs.Registry.Handles
import DeadLetter.Proofs.Routine.Journal
import DeadLetter.Proofs.Store.Groups

/-!
# Retries between ordered queues

A retry relies on the groups of what it receives from an ordered queue, and sends nothing to an ordered queue without
one. `orderly` is the protocol of this, `retry_orderly` says that a retry keeps to it if its queues are both ordered or
both standard. While every message on an ordered queue has a group, such a retry is refused no message for want of one
(`retry_not_refused`). Whether they have or not, it leaves topics as they are and takes no groups away
(`retry_keeps_groups`).
-/

namespace DeadLetter

set_option autoImplicit false

open Protocol QueueStore

/-- A reply that tells the group of what was received from an ordered queue. -/
def Action.TellsGroups : (a : Action) → a.Reply → Prop
  | .call (.receive url _ _), .ok ms => isFifo (queueNameOfUrl url) = true → ∀ m ∈ ms, m.group.isSome
  | _, _ => True

/-- The actions that send nothing to an ordered queue without a group, make no calls but on queues, and teach nothing but
what may be known of one queue. -/
def Action.Orderly (L : Lore) (slot : Nat) : Action → Prop
  | .call (.send url m) => isFifo (queueNameOfUrl url) = true → m.group.isSome
  | .call c => c.asksQueues = true
  | .learn i f => i = slot ∧ L.fact i f
  | _ => True

theorem Action.Orderly.asksQueues {L : Lore} {slot : Nat} {c : Call} (h : (Action.call c).Orderly L slot) :
    c.asksQueues = true := by
  cases c with
  | send url m => rfl
  | _ => exact h

/-- The protocol of routines that keep messages with their groups. -/
def orderly (L : Lore) (slot : Nat) : Protocol Unit where
  admits a r := L.Admits a r ∧ a.TellsGroups r
  step _ a _ _ := a.Orderly L slot

theorem orderly_looks (L : Lore) (slot : Nat) : (orderly L slot).Looks L slot where
  admits _ _ h := h.1
  queueUrl _ _ _ := rfl
  queueAttributes _ _ _ := rfl
  facts _ _ := trivial
  learn _ _ _ h := ⟨rfl, h⟩

/-- What may be known of a queue and its dead letter queue leads to queues that are ordered if it is. -/
structure Lore.Matches (L : Lore) (q : QueueHandle) : Prop where
  url : ∀ u, L.fact q.slot (.url u) → isFifo (queueNameOfUrl u) = q.isFifo
  dlqUrl : ∀ u, L.fact q.slot (.dlqUrl u) → isFifo (queueNameOfUrl u) = q.isFifo

namespace QueueHandle
variable {q : QueueHandle} {L : Lore} {slot : Nat}

theorem perform_orderly {a : Action} (ha : a.Orderly L slot) :
    (orderly L slot).Follows (Routine.perform a) () (fun _ _ => True) := .perform fun _ _ => ⟨(), ha, trivial⟩

theorem call_orderly {c : Call} (hc : (Action.call c).Orderly L slot) :
    (orderly L slot).Follows (Attempt.call c).result () (outcome (fun _ _ => True) (fun _ _ => True)) := by
  refine (perform_orderly hc).mono fun r _ _ => ?_
  cases r <;> trivial

/-- On an ordered queue a copy has the group of its original. -/
theorem copyOf_orderly {m : Received} (hm : q.isFifo = true → m.group.isSome) :
    (orderly L slot).Follows (q.copyOf m).result ()
      (outcome (fun copy _ => q.isFifo = true → copy.group.isSome) (fun _ _ => True)) := by
  unfold copyOf
  split
  · refine (perform_orderly (a := .generateId) trivial).lift.attempt (E := fun _ _ => True) (fun id _ _ => ?_)
      (fun _ _ h => h)
    exact Follows.pure hm
  · next hfifo => exact Follows.pure fun h => absurd h hfifo

theorem moveOne_orderly {dlqUrl url : String} (hdlq : DeadLetter.isFifo (queueNameOfUrl dlqUrl) = q.isFifo)
    (hurl : DeadLetter.isFifo (queueNameOfUrl url) = q.isFifo) :
    (orderly L slot).Follows (q.moveOne dlqUrl url).result () (outcome (fun _ _ => True) (fun _ _ => True)) := by
  unfold moveOne
  have hreceive : (orderly L slot).Follows (Attempt.call (.receive dlqUrl 1 0)).result ()
      (outcome (fun ms _ => q.isFifo = true → ∀ m ∈ ms, m.group.isSome) (fun _ _ => True)) := by
    refine Follows.perform (a := .call (.receive dlqUrl 1 0)) fun r hr => ⟨(), rfl, ?_⟩
    cases r with
    | ok ms => exact fun hfifo => hr.2 (hdlq.trans hfifo)
    | error e => trivial
  refine hreceive.attempt (fun ms _ hms => ?_) (fun _ _ h => h)
  cases ms with
  | nil => exact Follows.pure trivial
  | cons m ms =>
    refine (copyOf_orderly fun hfifo => hms hfifo m List.mem_cons_self).attempt (fun copy _ hcopy => ?_)
      (fun _ _ h => h)
    have hsend : (Action.call (.send url copy)).Orderly L slot := fun hfifo => hcopy (hurl.symm.trans hfifo)
    refine (call_orderly hsend).attempt (fun _ _ _ => ?_) (fun _ _ h => h)
    exact (call_orderly (c := .delete dlqUrl m.handle) rfl).attempt (fun _ _ _ => Follows.pure trivial)
      (fun _ _ h => h)

theorem drain_orderly {dlqUrl url : String} (hdlq : DeadLetter.isFifo (queueNameOfUrl dlqUrl) = q.isFifo)
    (hurl : DeadLetter.isFifo (queueNameOfUrl url) = q.isFifo) (attempts : Nat) :
    (orderly L slot).Follows (q.drain dlqUrl url attempts) () (fun _ _ => True) := by
  induction attempts with
  | zero => exact Follows.pure trivial
  | succ attempts ih =>
    unfold drain
    refine Follows.bind (perform_orderly (a := .isLate) trivial) fun late _ _ => ?_
    cases late with
    | true => exact Follows.pure trivial
    | false =>
      refine Follows.bind (moveOne_orderly hdlq hurl) fun o _ _ => ?_
      rcases o with e | (_ | m)
      · exact ih
      · exact ih
      · exact Follows.bind ih fun _ _ _ => Follows.pure trivial

theorem retry_orderly (hq : L.Covers q) (hmatches : L.Matches q) (p : NumberPolicy) :
    (orderly L q.slot).Follows (q.retry p).result () (fun _ _ => True) := by
  have hlooks := orderly_looks L q.slot
  unfold retry
  cases hd : q.dlq with
  | none => exact Follows.pure trivial
  | some dlq =>
    refine (urlOfDlq_follows hlooks hq hd ()).attempt ?_ (fun _ _ _ => trivial)
    rintro dlqUrl _ ⟨_, hdlq⟩
    refine (call_orderly (c := .queueAttributes dlqUrl) rfl).attempt (fun attributes _ _ => ?_) (fun _ _ h => h)
    dsimp only
    split
    · exact Follows.pure trivial
    · refine (url_follows hlooks hq ()).attempt ?_ (fun _ _ _ => trivial)
      rintro url _ ⟨_, hurl⟩
      refine (drain_orderly (hmatches.dlqUrl dlqUrl hdlq) (hmatches.url url hurl) _).lift.attempt (E := fun _ _ => True)
        (fun ms _ _ => ?_) (fun _ _ h => h)
      exact (perform_orderly (a := .track (retryEvent _ _ _)) trivial).lift.attempt (E := fun _ _ => True)
        (fun _ _ _ => Follows.pure trivial) (fun _ _ h => h)

end QueueHandle

/-! ## Runs -/

/-- The refusal of a message by an ordered queue, for want of a group. -/
def Entry.LacksGroup (e : Entry) : Prop :=
  ∃ url m queue, e = ⟨.call (.send url m), .error (.missingGroup queue)⟩

/-- A world in which every message on an ordered queue has a group, and only what may be known of the queues is. -/
structure World.Orderly (L : Lore) (w : World) : Prop where
  grouped : w.provider.queues.Grouped
  known : L.Known w

namespace World.Orderly
variable {L : Lore} {slot : Nat} {w : World}

theorem tellsGroups (h : w.Orderly L) (a : Action) : a.TellsGroups (w.perform a).1 := by
  cases a with
  | call c =>
    cases c with
    | receive url limit wait =>
      show Action.TellsGroups (.call (.receive url limit wait)) (w.provider.queues.receive url limit).1
      cases hr : (w.provider.queues.receive url limit).1 with
      | error e => trivial
      | ok ms => exact fun hfifo => h.grouped.of_receive hfifo hr
    | _ => trivial
  | _ => trivial

theorem perform (h : w.Orderly L) {a : Action} (ha : a.Orderly L slot) : (w.perform a).2.Orderly L := by
  refine ⟨?_, h.known.perform fun i f hlearn => ?_⟩
  · cases a with
    | call c => exact Memory.perform_grouped h.grouped ha.asksQueues
    | _ => exact h.grouped
  · subst hlearn
    exact ha.2

theorem topics_perform {a : Action} (ha : a.Orderly L slot) :
    (w.perform a).2.provider.topics = w.provider.topics := by
  cases a with
  | call c => exact Memory.topics_perform ha.asksQueues
  | _ => rfl

theorem not_lacksGroup {a : Action} (ha : a.Orderly L slot) : ¬ Entry.LacksGroup ⟨a, (w.perform a).1⟩ := by
  rintro ⟨url, m, queue, heq⟩
  obtain ⟨rfl, hreply⟩ := (Entry.mk.injEq ..).mp heq
  exact send_ne_missingGroup ha queue (eq_of_heq hreply)

end World.Orderly

theorem Registry.lore_matches {r : Registry} {q : QueueHandle} (hq : q ∈ r.queues)
    (hdlq : ∀ d, q.dlq = some d → isFifo d.name = q.isFifo) (smooth : Prop) : (r.lore smooth).Matches q where
  url u hu := by
    rw [addressed_of_url hq hu, isFifo_addressed]
    rfl
  dlqUrl u hu := by
    obtain ⟨d, hd, _⟩ := hu q hq rfl
    rw [addressed_of_dlqUrl hq hd hu, isFifo_addressed, hdlq d hd]

section Retry
variable {r : Registry} {q : QueueHandle} {w : World}

/-- A retry keeps messages with their groups and topics as they are, and no ordered queue refuses it a message. -/
theorem QueueHandle.retry_keeps_groups (hr : r.Placed) (hq : q ∈ r.queues)
    (hdlq : ∀ d, q.dlq = some d → DeadLetter.isFifo d.name = q.isFifo) (hw : w.Orderly (r.lore False))
    (p : NumberPolicy) :
    ((q.retry p).result.run w).2.Orderly (r.lore False) ∧
      ((q.retry p).result.run w).2.provider.topics = w.provider.topics ∧
      ∀ e ∈ (q.retry p).result.journal w, ¬ e.LacksGroup := by
  have hfollows := q.retry_orderly (Registry.lore_covers hr hq False) (Registry.lore_matches hq hdlq False) p
  have hadmits (s : Unit) (w' : World) (a : Action)
      (hi : w'.Orderly (r.lore False) ∧ w'.provider.topics = w.provider.topics) :
      (orderly (r.lore False) q.slot).admits a (w'.perform a).1 :=
    ⟨⟨Registry.lore_truthful hi.1.known a, False.elim⟩, hi.1.tellsGroups a⟩
  have hstep (s : Unit) (w' : World) (a : Action) (s' : Unit)
      (hi : w'.Orderly (r.lore False) ∧ w'.provider.topics = w.provider.topics)
      (ha : (orderly (r.lore False) q.slot).step s a (w'.perform a).1 s') :
      (w'.perform a).2.Orderly (r.lore False) ∧ (w'.perform a).2.provider.topics = w.provider.topics :=
    ⟨hi.1.perform ha, (World.Orderly.topics_perform ha).trans hi.2⟩
  obtain ⟨_, _, horderly, htopics⟩ := hfollows.run hadmits hstep ⟨hw, rfl⟩
  exact ⟨horderly, htopics,
    hfollows.journal hadmits hstep (fun _ _ _ _ _ ha => World.Orderly.not_lacksGroup ha) ⟨hw, rfl⟩⟩

end Retry

end DeadLetter
