import DeadLetter.Proofs.Service.Lookup
import DeadLetter.Proofs.Store.Turns
import DeadLetter.Service.Retry

/-!
# The protocol of a retry

A retry has one message at hand at most: it receives it from a dead letter queue, sends a message with the same payload
to a main queue, and deletes it where it was received, in this order. A call that fails leaves it with nothing at hand.
`Transfer.Step` lists the steps, `retry_follows` says that a retry takes no others and reports exactly the messages
whose deletion was confirmed.
-/

namespace DeadLetter

set_option autoImplicit false

/-- What a retry has at hand: nothing, or a message with the URL it came from, before or after its copy was sent. -/
inductive Hand where
  | free
  | holding (url : String) (m : Received)
  | sent (url : String) (m : Received)

/-- What is at hand after a receive. -/
def Hand.received (url : String) (ms : List Received) : Hand := (ms.head?.map (.holding url)).getD .free

/-- Whether what is at hand came from a queue. -/
def Hand.From (queue : String) : Hand → Prop
  | .free => True
  | .holding url _ | .sent url _ => queueNameOfUrl url = queue

/-- How far a retry has come: what it has at hand, and the messages it has moved. -/
structure Transfer where
  hand : Hand := .free
  moved : List Received := []

namespace Transfer

/-- A retry with nothing at hand. -/
abbrev idle (moved : List Received) : Transfer := ⟨.free, moved⟩

/-- The actions that leave all queues as they are and teach nothing but what may be known of one queue. -/
def IsQuiet (L : Lore) (slot : Nat) : Action → Prop
  | .call (.queueUrl _) | .call (.queueAttributes _) => True
  | .call _ => False
  | .learn i f => i = slot ∧ L.fact i f
  | _ => True

/-- The steps of a retry. -/
inductive Step (L : Lore) (slot : Nat) : Transfer → (a : Action) → a.Reply → Transfer → Prop
  | quiet {s : Transfer} {a : Action} {r : a.Reply} (ha : IsQuiet L slot a) : Step L slot s a r s
  | receiveNothing {url : String} {moved : List Received} {r : Except QueueError (List Received)}
      (hurl : L.fact slot (.dlqUrl url)) (hr : ∀ m ms, r ≠ .ok (m :: ms)) :
      Step L slot ⟨.free, moved⟩ (.call (.receive url 1 0)) r ⟨.free, moved⟩
  | receive {url : String} {moved : List Received} {m : Received} {ms : List Received}
      (hurl : L.fact slot (.dlqUrl url)) :
      Step L slot ⟨.free, moved⟩ (.call (.receive url 1 0)) (.ok (m :: ms)) ⟨.holding url m, moved⟩
  | send {url dest id : String} {moved : List Received} {m : Received} {copy : Outbound}
      (hdest : L.fact slot (.url dest)) (hm : copy.payload = m.payload) :
      Step L slot ⟨.holding url m, moved⟩ (.call (.send dest copy)) (.ok id) ⟨.sent url m, moved⟩
  | sendFails {url dest : String} {moved : List Received} {m : Received} {copy : Outbound} {e : QueueError}
      (hdest : L.fact slot (.url dest)) (hm : copy.payload = m.payload) :
      Step L slot ⟨.holding url m, moved⟩ (.call (.send dest copy)) (.error e) ⟨.free, moved⟩
  | delete {url : String} {moved : List Received} {m : Received} :
      Step L slot ⟨.sent url m, moved⟩ (.call (.delete url m.handle)) (.ok ()) ⟨.free, moved ++ [m]⟩
  | deleteFails {url : String} {moved : List Received} {m : Received} {e : QueueError} :
      Step L slot ⟨.sent url m, moved⟩ (.call (.delete url m.handle)) (.error e) ⟨.free, moved⟩

/-- The protocol of a retry. -/
def protocol (L : Lore) (slot : Nat) : Protocol Transfer := ⟨L.Admits, Step L slot⟩

theorem looks (L : Lore) (slot : Nat) : (protocol L slot).Looks L slot where
  admits _ _ h := h
  queueUrl _ _ _ := Step.quiet trivial
  queueAttributes _ _ _ := Step.quiet trivial
  facts _ _ := Step.quiet trivial
  learn _ _ _ h := Step.quiet ⟨rfl, h⟩

theorem Step.learns {L : Lore} {slot : Nat} {st st' : Transfer} {a : Action} {r : a.Reply}
    (h : Step L slot st a r st') : ∀ i f, a = .learn i f → i = slot ∧ L.fact i f := by
  intro i f ha
  subst ha
  cases h with
  | quiet ha => exact ha

theorem Step.comes_from {L : Lore} {slot : Nat} {s st : Transfer} {a : Action} {r : a.Reply} {D : String}
    (hD : ∀ u, L.fact slot (.dlqUrl u) → queueNameOfUrl u = D) (h : Step L slot s a r st) (hs : s.hand.From D) :
    st.hand.From D := by
  cases h with
  | quiet ha => exact hs
  | receive hurl => exact hD _ hurl
  | send hdest hm => exact hs
  | _ => trivial

end Transfer

namespace QueueHandle

open Protocol Transfer

variable {q : QueueHandle} {L : Lore} {slot : Nat} {moved : List Received}

theorem copyOf_follows (m : Received) (s : Transfer) :
    (protocol L slot).Follows (q.copyOf m).result s
      (outcome (fun copy s' => s' = s ∧ copy.payload = m.payload) (fun _ _ => False)) := by
  unfold copyOf
  split
  · refine Follows.attempt (Q := fun _ s' => s' = s) (E := fun _ _ => False) ?_ ?_ (fun _ _ h => h)
    · exact .lift (.perform fun r _ => ⟨s, Step.quiet trivial, rfl⟩)
    · rintro id s' rfl
      exact Follows.pure ⟨rfl, rfl⟩
  · exact Follows.pure ⟨rfl, rfl⟩

/-- A call of a retry: it goes on from an answer, and has nothing at hand after a failure. -/
theorem call_follows {c : Call} {s : Transfer} {Q : c.Reply → Transfer → Prop}
    (hfails : ∀ e, Step L slot s (.call c) (.error e) (idle moved))
    (hanswers : ∀ v, ∃ s', Step L slot s (.call c) (.ok v) s' ∧ Q v s') :
    (protocol L slot).Follows (Attempt.call c).result s
      (outcome Q (fun _ s' => s' = idle moved ∧ ¬ L.smooth)) := by
  refine Follows.perform (a := .call c) fun r hr => ?_
  cases r with
  | ok v => exact hanswers v
  | error e =>
    refine ⟨_, hfails e, rfl, fun h => ?_⟩
    obtain ⟨v, hv⟩ := hr.2 h
    cases hv

theorem moveOne_follows {dlqUrl url : String} (hdlq : L.fact slot (.dlqUrl dlqUrl)) (hurl : L.fact slot (.url url)) :
    (protocol L slot).Follows (q.moveOne dlqUrl url).result (idle moved)
      (outcome (fun o s' => s' = idle (moved ++ o.toList)) (fun _ s' => s' = idle moved ∧ ¬ L.smooth)) := by
  unfold moveOne
  have hreceive : (protocol L slot).Follows (Attempt.call (.receive dlqUrl 1 0)).result (idle moved)
      (outcome (fun ms s' => s' = ⟨.received dlqUrl ms, moved⟩) (fun _ s' => s' = idle moved ∧ ¬ L.smooth)) := by
    refine call_follows (fun _ => Step.receiveNothing hdlq (by simp)) fun ms => ?_
    cases ms with
    | nil => exact ⟨_, Step.receiveNothing hdlq (by simp), rfl⟩
    | cons m ms => exact ⟨_, Step.receive hdlq, rfl⟩
  refine hreceive.attempt ?_ (fun _ _ h => h)
  intro ms s' hs
  cases ms with
  | nil =>
    rw [hs]
    exact Follows.pure (congrArg idle (List.append_nil moved).symm)
  | cons m ms =>
    rw [hs]
    refine (copyOf_follows m _).attempt ?_ (fun _ _ h => h.elim)
    rintro copy s' ⟨rfl, hcopy⟩
    refine (call_follows (Q := fun _ s' => s' = ⟨.sent dlqUrl m, moved⟩) (fun _ => Step.sendFails hurl hcopy)
      fun _ => ⟨_, Step.send hurl hcopy, rfl⟩).attempt ?_ (fun _ _ h => h)
    rintro _ s' rfl
    refine (call_follows (Q := fun _ s' => s' = idle (moved ++ [m])) (fun _ => Step.deleteFails)
      fun _ => ⟨_, Step.delete, rfl⟩).attempt ?_ (fun _ _ h => h)
    rintro _ s' rfl
    exact Follows.pure rfl

theorem drain_follows {dlqUrl url : String} (hdlq : L.fact slot (.dlqUrl dlqUrl)) (hurl : L.fact slot (.url url))
    (attempts : Nat) (moved : List Received) :
    (protocol L slot).Follows (q.drain dlqUrl url attempts) (idle moved)
      (fun ms s' => s' = idle (moved ++ ms)) := by
  -- over the attempts that are left, whatever was moved before
  induction attempts generalizing moved with
  | zero => exact Follows.pure (by rw [List.append_nil])
  | succ attempts ih =>
    unfold drain
    refine Follows.bind (Q := fun _ s' => s' = idle moved) (.perform fun r _ => ⟨_, Step.quiet trivial, rfl⟩) ?_
    rintro late s' rfl
    cases late with
    | true => exact Follows.pure (by rw [List.append_nil])
    | false =>
      refine Follows.bind (moveOne_follows hdlq hurl) ?_
      intro o s' ho
      match o with
      | .error e =>
        obtain ⟨rfl, _⟩ := ho
        exact ih moved
      | .ok none =>
        cases ho
        rw [Option.toList_none, List.append_nil]
        exact ih moved
      | .ok (some m) =>
        cases ho
        rw [Option.toList_some]
        refine Follows.bind (ih (moved ++ [m])) ?_
        rintro ms s' rfl
        exact Follows.pure (by rw [List.append_assoc, List.singleton_append])

/-- A retry keeps to the protocol, and reports the messages it has moved; it fails only before it moves any. -/
theorem retry_follows (hq : L.Covers q) (p : NumberPolicy) :
    (protocol L q.slot).Follows (q.retry p).result {}
      (outcome (fun report s' => s'.hand = .free ∧ report.messages = s'.moved.map (·.report p))
        (fun _ s' => s' = {} ∧ ¬ L.smooth)) := by
  unfold retry
  cases hd : q.dlq with
  | none => exact Follows.pure ⟨rfl, rfl⟩
  | some dlq =>
    refine (urlOfDlq_follows (looks L q.slot) hq hd {}).attempt ?_ (fun _ _ h => h)
    rintro dlqUrl s' ⟨rfl, hdlq⟩
    refine (follows_call (looks L q.slot).admits ((looks L q.slot).queueAttributes {} dlqUrl)).attempt ?_
      (fun _ _ h => h)
    rintro attributes s' ⟨rfl, _⟩
    dsimp only
    split
    · exact Follows.pure ⟨rfl, rfl⟩
    · refine (url_follows (looks L q.slot) hq {}).attempt ?_ (fun _ _ h => h)
      rintro url s' ⟨rfl, hurl⟩
      refine (drain_follows hdlq hurl _ []).lift.attempt (E := fun _ _ => False) ?_ (fun _ _ h => h.elim)
      rintro ms s' rfl
      refine Follows.attempt (Q := fun _ s' => s' = idle ms) (E := fun _ _ => False)
        (.lift (.perform fun r _ => ⟨_, Step.quiet trivial, rfl⟩)) ?_ (fun _ _ h => h.elim)
      rintro _ s' rfl
      exact Follows.pure ⟨rfl, rfl⟩

end QueueHandle

end DeadLetter
