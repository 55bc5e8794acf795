import DeadLetter.Proofs.Service.Keeping
import DeadLetter.Proofs.Service.Transfer
import DeadLetter.Proofs.Store.Copies

/-!
# The copies that a retry has made in advance

Between its send and its delete a retry has a message twice: `Hand.surplus` counts that copy. `Transfer.Step.copies_le`
is what each step of a retry keeps: as many copies as before, and a further one while there is a surplus. It needs the
message at hand to be bound to its handle (`Hand.Bound`), which each step keeps too, and so does whatever others do to
the store.
-/

namespace DeadLetter

set_option autoImplicit false

open QueueStore

/-- The message at hand is bound to its handle on the queue it came from. -/
def Hand.Bound (s : QueueStore) : Hand → Prop
  | .free => True
  | .holding url m | .sent url m => QueueStore.Bound s (queueNameOfUrl url) m.handle m.payload

/-- How many copies of a payload there are because a message was sent and not deleted yet. -/
def Hand.surplus (x : Payload) : Hand → Nat
  | .sent _ m => if m.payload = x then 1 else 0
  | _ => 0

theorem Hand.Bound.turns {s t : QueueStore} {h : Hand} (hb : h.Bound s) (hst : Turns s t) : h.Bound t := by
  cases h with
  | free => trivial
  | holding url m => exact hst.bound hb
  | sent url m => exact hst.bound hb

namespace World
variable {w w' : World}

theorem perform_turns (w : World) (a : Action) : Turns w.provider.queues (w.perform a).2.provider.queues := by
  cases a with
  | call c => exact Memory.perform_turns w.provider c
  | _ => exact .refl

theorem receive_of_perform {url : String} {limit : Nat} {wait : Int} {r : Except QueueError (List Received)}
    (h : w.perform (.call (.receive url limit wait)) = (r, w')) :
    w.provider.queues.receive url limit = (r, w'.provider.queues) := by
  cases h
  rfl

theorem send_of_perform {url : String} {m : Outbound} {r : Except QueueError String}
    (h : w.perform (.call (.send url m)) = (r, w')) :
    w.provider.queues.send url m = (r, w'.provider.queues) := by
  cases h
  rfl

theorem delete_of_perform {url handle : String} {r : Except QueueError Unit}
    (h : w.perform (.call (.delete url handle)) = (r, w')) :
    w.provider.queues.delete url handle = (r, w'.provider.queues) := by
  cases h
  rfl

theorem quiet_of_receive {url : String} {r : Except QueueError (List Received)} (hr : ∀ m ms, r ≠ .ok (m :: ms))
    (h : w.perform (.call (.receive url 1 0)) = (r, w')) : Quiet w.provider.queues w'.provider.queues := by
  cases r with
  | error e => exact quiet_of_receive_error (receive_of_perform h)
  | ok batch =>
    cases batch with
    | nil => exact quiet_of_receive_nil (receive_of_perform h)
    | cons m ms => exact absurd rfl (hr m ms)

theorem quiet_of_delete {url handle : String} {e : QueueError}
    (h : w.perform (.call (.delete url handle)) = (.error e, w')) : Quiet w.provider.queues w'.provider.queues :=
  quiet_of_delete_error (delete_of_perform h)

theorem quiet_of_isQuiet {L : Lore} {slot : Nat} {a : Action} {r : a.Reply} (ha : Transfer.IsQuiet L slot a)
    (h : w.perform a = (r, w')) : Quiet w.provider.queues w'.provider.queues := by
  cases a with
  | call c =>
    cases c with
    | queueUrl queue =>
      cases h
      exact quiet_queueUrl w.provider.queues queue
    | queueAttributes url =>
      cases h
      exact quiet_queueAttributes w.provider.queues url
    | _ => cases ha
  | _ =>
    cases h
    exact Quiet.refl _

end World

namespace Transfer
variable {L : Lore} {slot : Nat} {st st' : Transfer} {a : Action} {r : a.Reply} {w w' : World}

theorem Step.bound (hs : Sound w.provider.queues) (hb : st.hand.Bound w.provider.queues) (hw : w.perform a = (r, w'))
    (h : Step L slot st a r st') : st'.hand.Bound w'.provider.queues := by
  have hturns : Turns w.provider.queues w'.provider.queues := by
    have := World.perform_turns w a
    rw [hw] at this
    exact this
  cases h with
  | quiet ha => exact hb.turns hturns
  | receiveNothing hurl hr => trivial
  | receive hurl => exact receive_bound hs (World.receive_of_perform hw) _ List.mem_cons_self
  | send hdest hm => exact hturns.bound hb
  | sendFails hdest hm => trivial
  | delete => trivial
  | deleteFails => trivial

/-- A step of a retry loses no copy, and no copy that is a surplus before the step is missed after it. -/
theorem Step.copies_le {among : String → Bool} (hamong : ∀ u, L.fact slot (.url u) → among (queueNameOfUrl u) = true)
    (hs : Sound w.provider.queues) (hb : st.hand.Bound w.provider.queues) (hw : w.perform a = (r, w'))
    (h : Step L slot st a r st') (x : Payload) :
    w.provider.queues.copies among x + st'.hand.surplus x ≤ w'.provider.queues.copies among x + st.hand.surplus x := by
  have hshifts (hc : a.Keeps) : w.provider.queues.copies among x ≤ w'.provider.queues.copies among x := by
    have := (Routine.Keeps.perform hc).shifts w
    rw [Routine.run_perform, hw] at this
    exact this.copies_le hs among x
  cases h with
  | quiet ha =>
    rw [copies_congr (World.quiet_of_isQuiet ha hw).queues]
  | receiveNothing hurl hr => exact Nat.add_le_add_right (hshifts rfl) _
  | receive hurl => exact Nat.add_le_add_right (hshifts rfl) _
  | send hdest hm =>
    rw [copies_sent hs (World.send_of_perform hw) among x, hamong _ hdest, hm]
    simp only [Hand.surplus, true_and]
    omega
  | sendFails hdest hm => exact Nat.add_le_add_right (hshifts rfl) _
  | delete =>
    -- the surplus before pays for what is deleted
    have hdeleted := copies_deleted hs hb (World.delete_of_perform hw) among x
    simp only [Hand.surplus]
    split at hdeleted
    · next h =>
      rw [if_pos h.2]
      omega
    · omega
  | deleteFails =>
    rw [copies_congr (World.quiet_of_delete hw).queues]
    exact Nat.add_le_add_left (Nat.zero_le _) _

end Transfer

end DeadLetter
