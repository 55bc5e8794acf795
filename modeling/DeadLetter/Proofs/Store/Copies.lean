import DeadLetter.Proofs.Store.Turns

/-!
# Copies of a payload

`QueueStore.copies among x` counts the messages with payload `x` on the queues that `among` picks. `copies_puts` : a
queue that changes counts with its new messages in place of its old ones. `Shifts.copies_le` : without a removal no copy
is lost; `copies_removed` : a removal loses the message in flight under its handle and nothing else.
-/

namespace DeadLetter

set_option autoImplicit false

namespace QueueState

/-- The number of messages of a queue that have a payload. -/
def copies (q : QueueState) (x : Payload) : Nat := q.messages.countP (·.payload = x)

theorem Shift.copies_le {queue : String} {n n' : Nat} {q q' : QueueState} (h : Shift queue n n' q q') (x : Payload) :
    q.copies x ≤ q'.copies x := by
  have hcount (r : QueueState) : r.copies x = (r.messages.map Stored.payload).countP (· = x) := by
    rw [copies, List.countP_map]
    rfl
  rw [hcount, hcount]
  rcases h.letters Stored.payload_delivered with hp | ⟨m, _, _, _, _, hp⟩
  · rw [hp.countP_eq]
  · rw [hp.countP_eq, List.countP_cons]
    omega

theorem copies_appended (q : QueueState) (m : Stored) (x : Payload) :
    (QueueStore.appended q m).copies x = q.copies x + if m.payload = x then 1 else 0 := by
  have hp : (QueueStore.appended q m).messages.Perm (m :: q.messages) := by
    rw [messages, QueueStore.appended, List.append_assoc, List.singleton_append]
    exact List.perm_middle
  rw [copies, copies, hp.countP_eq, List.countP_cons]
  simp only [decide_eq_true_eq]

theorem copies_removed {q : QueueState} {handle : String} {m : Stored} (h : q.inFlight.lookup handle = some m)
    (x : Payload) : (QueueStore.removed q handle).copies x + (if m.payload = x then 1 else 0) = q.copies x := by
  have hp : q.messages.Perm (m :: (QueueStore.removed q handle).messages) := by
    rw [messages, messages, QueueStore.removed]
    exact (((perm_of_lookup h).map (·.2)).append_left _).trans List.perm_middle
  rw [copies, copies, hp.countP_eq, List.countP_cons]
  simp only [decide_eq_true_eq]

end QueueState

namespace QueueStore
variable {s t : QueueStore}

/-- The number of messages with a payload on the queues whose names are picked. -/
def copies (s : QueueStore) (among : String → Bool) (x : Payload) : Nat :=
  (s.queues.flatMap fun e => if among e.1 then e.2.messages else []).countP (·.payload = x)

def everywhere (_ : String) : Bool := true

def onEither (a b queue : String) : Bool := queue = a ∨ queue = b

theorem copies_congr (h : t.queues = s.queues) (among : String → Bool) (x : Payload) :
    t.copies among x = s.copies among x := by
  rw [copies, copies, h]

/-- A queue that is put counts with its new messages, the one that was there no longer counts. -/
theorem copies_puts (hs : s.queues.Ordered) {queue : String} {q : QueueState} (h : t.queues = s.queues.put queue q)
    (among : String → Bool) (x : Payload) :
    t.copies among x + (if among queue then (s.state queue).copies x else 0) =
      s.copies among x + if among queue then q.copies x else 0 := by
  obtain ⟨before, after, hold, hnew⟩ :=
    Dict.flatMap_put hs (fun e => if among e.1 then e.2.messages else []) queue {} (by split <;> rfl)
  rw [copies, copies, state, h, hold, hnew]
  simp only [List.countP_append]
  cases among queue with
  | true =>
    simp only [if_true, QueueState.copies]
    omega
  | false => simp

theorem Moves.copies_le (hs : s.queues.Ordered) (h : Moves QueueState.Shift s t) (among : String → Bool)
    (x : Payload) : s.copies among x ≤ t.copies among x := by
  obtain ⟨_, heq | ⟨queue, q, heq, hR⟩⟩ := h
  · exact Nat.le_of_eq (copies_congr heq among x).symm
  · have hput := copies_puts hs heq among x
    have hle := hR.copies_le x
    split at hput <;> omega

theorem Shifts.copies_le (hs : Sound s) (h : Shifts s t) (among : String → Bool) (x : Payload) :
    s.copies among x ≤ t.copies among x := by
  induction h with
  | refl => exact Nat.le_refl _
  | tail hst h ih => exact Nat.le_trans ih (h.copies_le (Shifts.turns hst |>.sound hs).ordered among x)

theorem copies_sent (hs : Sound s) {url id : String} {m : Outbound} (h : s.send url m = (.ok id, t))
    (among : String → Bool) (x : Payload) :
    t.copies among x =
      s.copies among x + if among (queueNameOfUrl url) ∧ m.payload = x then 1 else 0 := by
  obtain ⟨q, hq, _, _, hput⟩ := puts_of_send_ok h
  have hcopies := copies_puts hs.ordered hput.queues among x
  rw [state_of_get? hq, QueueState.copies_appended, Outbound.payload_store] at hcopies
  cases hamong : among (queueNameOfUrl url) with
  | true =>
    simp only [hamong, if_true, true_and] at hcopies ⊢
    omega
  | false =>
    simp only [hamong, Bool.false_eq_true, if_false, false_and] at hcopies ⊢
    omega

/-- Deleting removes the message in flight under the handle, if it succeeds, and no other. -/
theorem copies_deleted (hs : Sound s) {url handle : String} {x : Payload}
    (hb : Bound s (queueNameOfUrl url) handle x) (h : s.delete url handle = (.ok (), t)) (among : String → Bool)
    (y : Payload) :
    t.copies among y + (if among (queueNameOfUrl url) ∧ x = y then 1 else 0) = s.copies among y := by
  obtain ⟨q, m, hq, hm, hput⟩ := puts_of_delete_ok h
  have hmem : (handle, m) ∈ q.inFlight := (perm_of_lookup hm).symm.subset List.mem_cons_self
  have hx : m.payload = x := hb.held m (by rw [state_of_get? hq]; exact hmem)
  have hcopies := copies_puts hs.ordered hput.queues among y
  have hone := QueueState.copies_removed hm y
  rw [state_of_get? hq] at hcopies
  rw [hx] at hone
  cases hamong : among (queueNameOfUrl url) with
  | true =>
    simp only [hamong, if_true, true_and] at hcopies ⊢
    omega
  | false =>
    simp only [hamong, Bool.false_eq_true, if_false, false_and] at hcopies ⊢
    omega

end QueueStore

end DeadLetter
