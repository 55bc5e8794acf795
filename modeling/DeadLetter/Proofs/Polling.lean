import DeadLetter.Proofs.Conservation
import DeadLetter.Proofs.Redriving
import DeadLetter.Proofs.Service.Answered
import DeadLetter.Proofs.Timeouts

/-!
# What a poll does to its queue

While nothing is made to fail, a listener that has found its queue (`QueueHandle.Found`) settles each message that it
received: it deletes those that the handler accepts, and hides each of the others for the time that the policy picks, so
that those that are hidden for no time at all are visible again (`Listener.Settles`). Batches settled one after the other
are one batch (`Settles.trans`), so by induction a whole batch is settled, by one call for each message in order
(`Listener.process_settles`). `Listener.poll_outcome` : what a poll returns and leaves behind.
-/

namespace DeadLetter

set_option autoImplicit false

open QueueStore Routine

/-! ## Deeds -/

instance : DecidablePred Action.Looks := fun a => by
  unfold Action.Looks
  split <;> infer_instance

/-- The entries of a journal, but for those that only look. -/
def deeds (journal : List Entry) : List Entry := journal.filter fun e => ¬ e.action.Looks

theorem deeds_append (journal journal' : List Entry) : deeds (journal ++ journal') = deeds journal ++ deeds journal' :=
  List.filter_append ..

theorem deeds_of_looks {journal : List Entry} (h : ∀ e ∈ journal, e.action.Looks) : deeds journal = [] := by
  simpa [deeds] using h

theorem Routine.Looks.deeds_journal {α : Type} {r : Routine α} (h : Looks r) (w : World) : deeds (r.journal w) = [] :=
  deeds_of_looks (h.journal w)

/-! ## What stays known -/

theorem Routine.run_known_url {α : Type} (r : Routine α) {w : World} {slot : Nat} {url : String}
    (h : (w.known slot).url = some url) : ((r.run w).2.known slot).url = some url := by
  induction r generalizing w with
  | done a => exact h
  | act a next ih =>
    refine ih _ ?_
    cases a with
    | learn slot' fact =>
      show (if slot = slot' then (w.known slot).learn fact else w.known slot).url = some url
      split
      · cases fact with
        | url u =>
          show ((w.known slot).url <|> some u) = some url
          rw [h]
          rfl
        | _ => exact h
      · exact h
    | _ => exact h

/-- The URL that a queue of a registry looks up is its own. -/
theorem World.Reachable.eq_urlOf_of_urlFor {r : Registry} {w : World} (hw : w.Reachable r) {q : QueueHandle}
    (hq : q ∈ r.queues) {url : String} (h : w.urlFor? (w.known q.slot).url q.name = some url) : url = urlOf q.name := by
  unfold World.urlFor? at h
  cases hu : (w.known q.slot).url with
  | some u =>
    rw [hu] at h
    cases h
    exact (hw.known False q.slot).url url hu q hq rfl
  | none =>
    rw [hu] at h
    cases hreply : (w.provider.queues.queueUrl q.name).1 with
    | error e =>
      rw [hreply] at h
      cases h
    | ok u =>
      rw [hreply] at h
      cases h
      exact eq_urlOf_of_queueUrl hreply

/-- Nothing is made to fail, and a handle would find the URL that its name leads to, and the queue there exists. -/
structure QueueHandle.Findable (q : QueueHandle) (w : World) : Prop where
  operations : w.provider.queues.failingOperations = []
  failing : w.provider.queues.failingQueues = []
  url : w.urlFor? (w.known q.slot).url q.name = some (urlOf q.name)
  present : (w.provider.queues.queues.get? (addressed q.name)).isSome

/-- Such a handle that knows its URL. -/
structure QueueHandle.Found (q : QueueHandle) (w : World) : Prop extends q.Findable w where
  known : (w.known q.slot).url = some (urlOf q.name)

namespace QueueHandle.Found
variable {q : QueueHandle} {w w' : World}

theorem of_known (hoperations : w.provider.queues.failingOperations = [])
    (hfailing : w.provider.queues.failingQueues = []) (hknown : (w.known q.slot).url = some (urlOf q.name))
    (hpresent : (w.provider.queues.queues.get? (addressed q.name)).isSome) : q.Found w := by
  refine ⟨⟨hoperations, hfailing, ?_, hpresent⟩, hknown⟩
  rw [World.urlFor?, hknown]
  rfl

theorem fails (h : q.Found w) (op : Operation) (queue : String) : w.provider.queues.fails op queue = false :=
  not_fails h.operations h.failing op queue

/-- A handle goes on to find its queue after a run that makes nothing fail and leaves the queue there. -/
theorem run {α : Type} (h : q.Found w) (r : Routine α) (hkept : Kept w.provider.queues (r.run w).2.provider.queues)
    (hpresent : ((r.run w).2.provider.queues.queues.get? (addressed q.name)).isSome) : q.Found (r.run w).2 :=
  .of_known (hkept.operations.trans h.operations) (hkept.failing.trans h.failing) (r.run_known_url h.known) hpresent

theorem run_url (h : q.Found w) : q.url.result.run w = (.ok (urlOf q.name), w) := by
  rw [url_eq]
  rcases lookUp_cases q.slot (·.url) .url q.name w with ⟨u, hu, hrun⟩ | ⟨hu, _⟩ | ⟨hu, _⟩
  · cases h.known.symm.trans hu
    exact hrun
  · cases h.known.symm.trans hu
  · cases h.known.symm.trans hu

theorem run_delete (h : q.Found w) {state : QueueState}
    (hq : w.provider.queues.queues.get? (addressed q.name) = some state) {handle : String} {x : Stored}
    (hx : state.inFlight.lookup handle = some x) :
    ∃ t, (Attempt.call (.delete (urlOf q.name) handle)).result.run w = (.ok (), w.withQueues t) ∧
      Puts w.provider.queues t (addressed q.name) (removed state handle) ∧
      t.visibilityChanges = w.provider.queues.visibilityChanges := by
  have hchanges := changes_delete w.provider.queues (urlOf q.name) handle
  rcases delete_cases w.provider.queues (urlOf q.name) handle with
    ⟨hrefused, _⟩ | ⟨_, state', _, t, hq', _, hdelete, hput⟩
  · rcases hrefused with hfails | hnone
    · rw [h.fails] at hfails
      cases hfails
    · rw [hnone state hq] at hx
      cases hx
  · cases hq.symm.trans hq'
    rw [hdelete] at hchanges
    refine ⟨t, ?_, hput, hchanges⟩
    rw [Attempt.run_queues (c := .delete (urlOf q.name) handle) (f := (·.delete (urlOf q.name) handle)) w fun _ => rfl,
      hdelete]

/-- What is in flight is hidden for the time that the policy picks, and that is recorded. -/
theorem run_hideFailed (h : q.Found w) (b : BackoffPolicy) {state : QueueState}
    (hq : w.provider.queues.queues.get? (addressed q.name) = some state) {m : Received} {x : Stored}
    (hx : state.inFlight.lookup m.handle = some x) :
    let time := b.timeoutOf q m (q.limitIn w)
    ∃ w', (q.hideFailed b m).run w = (time, w') ∧
      deeds ((q.hideFailed b m).journal w) = [⟨.call (.changeVisibility (urlOf q.name) m.handle time), .ok ()⟩] ∧
      q.limitIn w' = q.limitIn w ∧ w'.events = w.events ∧
      Puts w.provider.queues w'.provider.queues (addressed q.name)
        (if time = 0 then released state m.handle x else state) ∧
      w'.provider.queues.visibilityChanges =
        w.provider.queues.visibilityChanges ++ [⟨addressed q.name, m.handle, time⟩] := by
  intro time
  obtain ⟨v, hread, hasks, _⟩ := run_maxReceiveCount_of_run_url h.fails h.run_url (.refl q w) hq
  have hfound : q.Found v := by
    have hv : (q.maxReceiveCount.result.run w).2 = v := by rw [hread]
    rw [← hv] at hasks ⊢
    exact h.run _ hasks.quiet.toKept (hasks.quiet.queues ▸ h.present)
  have hglance := World.Glanced.run q.maxReceiveCount_consults w
  rw [hread] at hglance
  obtain ⟨t, hcall, hrun, hsteady, hput, hrecord⟩ :=
    run_hideFailed_of_run_url hread hasks hfound.run_url (.refl q v) hfound.fails b hq hx
  refine ⟨_, hrun, ?_, hsteady.limit, hglance.events, hput, hrecord⟩
  rw [hideFailed, Routine.journal_bind, hread]
  dsimp only
  rw [Routine.journal_bind, hfound.run_url]
  dsimp only
  rw [Routine.journal_bind, deeds_append, deeds_append, deeds_append, q.maxReceiveCount_looks.deeds_journal,
    q.url_looks.deeds_journal]
  show deeds ((Attempt.call (.changeVisibility (urlOf q.name) m.handle time)).result.journal v) ++ [] = _
  rw [Attempt.journal_call hcall]
  rfl

end QueueHandle.Found

/-! ## Batches -/

section Middle
variable {α : Type} {earlier later : List (String × α)} {k : String} {a : α}

/-- Where keys are different, the entry of a key is found between others. -/
theorem lookup_middle (h : ((earlier ++ (k, a) :: later).map (·.1)).Nodup) :
    (earlier ++ (k, a) :: later).lookup k = some a :=
  lookup_of_mem h (List.mem_append_right _ List.mem_cons_self)

theorem eraseP_middle (h : ((earlier ++ (k, a) :: later).map (·.1)).Nodup) :
    (earlier ++ (k, a) :: later).eraseP (·.1 == k) = earlier ++ later := by
  rw [List.map_append, List.map_cons] at h
  obtain ⟨_, _, hdisjoint⟩ := List.nodup_append.mp h
  rw [List.eraseP_append_right, List.eraseP_cons_of_pos (by exact beq_self_eq_true k)]
  intro e he heq
  exact hdisjoint e.1 (List.mem_map_of_mem he) k List.mem_cons_self (beq_iff_eq.mp heq)

end Middle

namespace Listener
variable {l : Listener} {count : Option Nat} {earlier batch batch' later : List (String × Stored)} {w w' w'' : World}

/-- Whether the handler accepts a message of a batch. -/
def takes (l : Listener) (e : String × Stored) : Bool := l.accepts (e.2.deliver e.1)

/-- The time that a message of a batch is hidden for if the handler rejects it. -/
def timeout (l : Listener) (count : Option Nat) (e : String × Stored) : Int :=
  l.backoff.timeoutOf l.queue (e.2.deliver e.1) count

/-- The messages of a batch that the handler rejects. -/
def rejected (l : Listener) (batch : List (String × Stored)) : List (String × Stored) := batch.filter fun e => ¬ l.takes e

/-- Those of them that are visible at once. -/
def returned (l : Listener) (count : Option Nat) (batch : List (String × Stored)) : List (String × Stored) :=
  (l.rejected batch).filter fun e => l.timeout count e = 0

/-- Those of them that stay in flight. -/
def hidden (l : Listener) (count : Option Nat) (batch : List (String × Stored)) : List (String × Stored) :=
  (l.rejected batch).filter fun e => l.timeout count e ≠ 0

/-- What is done about a message of a batch. -/
def deed (l : Listener) (count : Option Nat) (e : String × Stored) : Entry :=
  if l.takes e then ⟨.call (.delete (urlOf l.queue.name) e.1), .ok ()⟩
  else ⟨.call (.changeVisibility (urlOf l.queue.name) e.1 (l.timeout count e)), .ok ()⟩

/-- From `w` to `w'` a listener that goes by a limit settled a batch, of what was in flight between others. -/
structure Settles (l : Listener) (count : Option Nat) (earlier batch later : List (String × Stored)) (w w' : World) :
    Prop where
  found : l.queue.Found w'
  limit : l.queue.limitIn w' = l.queue.limitIn w
  self : w'.provider.queues.state (addressed l.queue.name) = { w.provider.queues.state (addressed l.queue.name) with
    visible := (w.provider.queues.state (addressed l.queue.name)).visible ++ (l.returned count batch).map (·.2)
    inFlight := earlier ++ l.hidden count batch ++ later }
  others : ∀ n, n ≠ addressed l.queue.name → w'.provider.queues.queues.get? n = w.provider.queues.queues.get? n
  changes : w'.provider.queues.visibilityChanges = w.provider.queues.visibilityChanges ++
    (l.rejected batch).map fun e => ⟨addressed l.queue.name, e.1, l.timeout count e⟩
  events : w'.events = w.events

theorem rejected_append (l : Listener) (batch batch' : List (String × Stored)) :
    l.rejected (batch ++ batch') = l.rejected batch ++ l.rejected batch' := List.filter_append ..

theorem returned_append (l : Listener) (count : Option Nat) (batch batch' : List (String × Stored)) :
    l.returned count (batch ++ batch') = l.returned count batch ++ l.returned count batch' := by
  rw [returned, rejected_append, List.filter_append]
  rfl

theorem hidden_append (l : Listener) (count : Option Nat) (batch batch' : List (String × Stored)) :
    l.hidden count (batch ++ batch') = l.hidden count batch ++ l.hidden count batch' := by
  rw [hidden, rejected_append, List.filter_append]
  rfl

theorem Settles.refl (count : Option Nat) (hfound : l.queue.Found w)
    (hin : (w.provider.queues.state (addressed l.queue.name)).inFlight = earlier ++ later) :
    l.Settles count earlier [] later w w where
  found := hfound
  limit := rfl
  self := by simp [returned, hidden, rejected, ← hin]
  others _ _ := rfl
  changes := (List.append_nil _).symm
  events := rfl

/-- Batches settled one after the other are one batch. -/
theorem Settles.trans (h : l.Settles count earlier batch (batch' ++ later) w w')
    (h' : l.Settles count (earlier ++ l.hidden count batch) batch' later w' w'') :
    l.Settles count earlier (batch ++ batch') later w w'' where
  found := h'.found
  limit := h'.limit.trans h.limit
  self := by
    rw [h'.self, h.self, returned_append, hidden_append, List.map_append]
    simp only [List.append_assoc]
  others n hn := (h'.others n hn).trans (h.others n hn)
  changes := by rw [h'.changes, h.changes, rejected_append, List.map_append, List.append_assoc]
  events := h'.events.trans h.events

/-- Some of the messages of a batch have no other handles than the batch. -/
theorem hidden_sublist (l : Listener) (count : Option Nat) (batch : List (String × Stored)) :
    (l.hidden count batch).Sublist batch :=
  List.filter_sublist.trans List.filter_sublist

section One
variable {e : String × Stored} (hfound : l.queue.Found w)
  (hin : (w.provider.queues.state (addressed l.queue.name)).inFlight = earlier ++ e :: later)
  (hnodup : ((earlier ++ e :: later).map (·.1)).Nodup)
include hfound hin hnodup

theorem settles_delete (htakes : l.takes e = true) :
    ∃ w', (Attempt.call (.delete (urlOf l.queue.name) e.1)).result.run w = (.ok (), w') ∧
      deeds ((Attempt.call (.delete (urlOf l.queue.name) e.1)).result.journal w) = [l.deed (l.queue.limitIn w) e] ∧
      l.Settles (l.queue.limitIn w) earlier [e] later w w' := by
  obtain ⟨state, hq⟩ := Option.isSome_iff_exists.mp hfound.present
  have hstate := state_of_get? hq
  rw [hstate] at hin
  obtain ⟨t, hrun, hput, hchanges⟩ := hfound.run_delete hq (hin ▸ lookup_middle hnodup)
  have hself : t.state (addressed l.queue.name) = removed state e.1 := hput.state_self
  have hsteady : l.queue.Steady w (w.withQueues t) :=
    QueueHandle.steady_withQueues hput.toKept (hput.isSome_get? hq) (by rw [hself, hstate]; rfl)
  have hfound' := hfound.run (Attempt.call (.delete (urlOf l.queue.name) e.1)).result
  rw [hrun] at hfound'
  have hrejected : l.rejected [e] = [] := by simp [rejected, htakes]
  refine ⟨_, hrun, ?_, hfound' hput.toKept ?_, hsteady.limit, ?_, fun n hn => hput.get?_of_ne hn, ?_, rfl⟩
  · rw [deed, if_pos htakes, Attempt.journal_call hrun]
    rfl
  · exact (hput.isSome_get? hq _).trans hfound.present
  · show t.state _ = _
    rw [hself, hstate, removed, hin, eraseP_middle hnodup, returned, hidden, hrejected]
    simp
  · rw [hrejected]
    exact hchanges.trans (List.append_nil _).symm

theorem settles_hide (htakes : l.takes e = false) :
    ∃ w', (l.queue.hideFailed l.backoff (e.2.deliver e.1)).run w = (l.timeout (l.queue.limitIn w) e, w') ∧
      deeds ((l.queue.hideFailed l.backoff (e.2.deliver e.1)).journal w) = [l.deed (l.queue.limitIn w) e] ∧
      l.Settles (l.queue.limitIn w) earlier [e] later w w' := by
  obtain ⟨state, hq⟩ := Option.isSome_iff_exists.mp hfound.present
  have hstate := state_of_get? hq
  rw [hstate] at hin
  have hlookup : state.inFlight.lookup (e.2.deliver e.1).handle = some e.2 := hin ▸ lookup_middle hnodup
  obtain ⟨w', hrun, hdeeds, hlimit, hevents, hput, hchanges⟩ := hfound.run_hideFailed l.backoff hq hlookup
  have hfound' := hfound.run (l.queue.hideFailed l.backoff (e.2.deliver e.1))
  rw [hrun] at hfound'
  have hrejected : l.rejected [e] = [e] := by simp [rejected, htakes]
  refine ⟨w', hrun, ?_, hfound' hput.toKept ?_, hlimit, ?_, fun n hn => hput.get?_of_ne hn, ?_, hevents⟩
  · rw [hdeeds, deed, if_neg (by rw [htakes]; exact Bool.false_ne_true)]
    rfl
  · exact (hput.isSome_get? hq _).trans hfound.present
  · rw [hput.state_self, hstate, returned, hidden, hrejected]
    show (if l.timeout (l.queue.limitIn w) e = 0 then released state e.1 e.2 else state) = _
    by_cases htime : l.timeout (l.queue.limitIn w) e = 0
    · rw [if_pos htime, released, hin, eraseP_middle hnodup]
      simp [htime]
    · rw [if_neg htime]
      simp [htime, ← hin]
  · rw [hrejected]
    exact hchanges

end One

/-- A batch that is in flight behind other messages is settled, by one deed for each message in order. -/
theorem process_settles (hfound : l.queue.Found w)
    (hin : (w.provider.queues.state (addressed l.queue.name)).inFlight = earlier ++ batch)
    (hnodup : ((earlier ++ batch).map (·.1)).Nodup) :
    l.Settles (l.queue.limitIn w) earlier batch [] w ((l.process (urlOf l.queue.name) (handedOut batch)).run w).2 ∧
      deeds ((l.process (urlOf l.queue.name) (handedOut batch)).journal w) = batch.map (l.deed (l.queue.limitIn w)) := by
  induction batch generalizing w earlier with
  | nil => exact ⟨.refl _ hfound hin, rfl⟩
  | cons e batch ih =>
    -- whatever settles the first message, the rest is in flight behind what was hidden of it
    have hrow {α : Type} {r : Routine α} {w₁ : World} (hrun : (r.run w).2 = w₁)
        (hdeed : deeds (r.journal w) = [l.deed (l.queue.limitIn w) e])
        (hone : l.Settles (l.queue.limitIn w) earlier [e] batch w w₁) :
        l.Settles (l.queue.limitIn w) earlier (e :: batch) [] w
            ((r >>= fun _ => l.process (urlOf l.queue.name) (handedOut batch)).run w).2 ∧
          deeds ((r >>= fun _ => l.process (urlOf l.queue.name) (handedOut batch)).journal w) =
            (e :: batch).map (l.deed (l.queue.limitIn w)) := by
      have hin₁ : (w₁.provider.queues.state (addressed l.queue.name)).inFlight =
          (earlier ++ l.hidden (l.queue.limitIn w) [e]) ++ batch := by rw [hone.self]
      have hsublist : ((earlier ++ l.hidden (l.queue.limitIn w) [e]) ++ batch).Sublist (earlier ++ e :: batch) := by
        rw [List.append_assoc]
        exact ((l.hidden_sublist _ [e]).append_right batch).append_left earlier
      obtain ⟨hsettles, hdeeds⟩ := ih hone.found hin₁ (hnodup.sublist (hsublist.map _))
      rw [Routine.run_bind, Routine.journal_bind, deeds_append, hrun, hdeed, hdeeds, hone.limit]
      rw [hone.limit] at hsettles
      rw [← List.append_nil batch] at hone
      exact ⟨hone.trans hsettles, rfl⟩
    rw [handedOut, List.map_cons, ← handedOut]
    unfold process
    split
    · next htakes =>
      obtain ⟨w₁, hrun, hdeed, hone⟩ := settles_delete hfound hin hnodup htakes
      exact hrow (congrArg Prod.snd hrun) hdeed hone
    · next htakes =>
      obtain ⟨w₁, hrun, hdeed, hone⟩ := settles_hide hfound hin hnodup (Bool.eq_false_iff.mpr htakes)
      exact hrow (congrArg Prod.snd hrun) hdeed hone

/-! ## Polls -/

theorem processCounting_run (l : Listener) (url : String) (ms : List Received) (handled : Nat) (w : World) :
    (l.processCounting url ms handled).run w = (handled + l.countAccepted ms, ((l.process url ms).run w).2) ∧
      (l.processCounting url ms handled).journal w = (l.process url ms).journal w := by
  induction ms generalizing handled w with
  | nil => exact ⟨rfl, rfl⟩
  | cons m ms ih =>
    unfold processCounting process countAccepted
    rw [List.countP_cons]
    split
    · rw [Routine.run_bind, Routine.run_bind, Routine.journal_bind, Routine.journal_bind]
      dsimp only
      rw [(ih _ _).1, (ih _ _).2, Nat.add_right_comm, Nat.add_assoc]
      exact ⟨rfl, rfl⟩
    · rw [Routine.run_bind, Routine.run_bind, Routine.journal_bind, Routine.journal_bind]
      dsimp only
      rw [(ih _ _).1, (ih _ _).2]
      exact ⟨rfl, rfl⟩

/-- A poll that counts is one that returns its batch, but for what it returns. -/
theorem poll_run (l : Listener) (w : World) :
    l.poll.result.run w = ((l.pollOnce.result.run w).1.map l.countAccepted, (l.pollOnce.result.run w).2) ∧
      l.poll.result.journal w = l.pollOnce.result.journal w := by
  rw [pollOnce_run, pollOnce_journal, poll, Attempt.run_bind, Attempt.journal_bind]
  rcases l.receive.result.run w with ⟨e | ⟨url, ms⟩, w'⟩
  · exact ⟨rfl, rfl⟩
  · obtain ⟨hrun, hjournal⟩ := l.processCounting_run url ms 0 w'
    dsimp only
    rw [Attempt.result_lift, Routine.run_bind, Routine.journal_bind, hrun, hjournal, Nat.zero_add]
    exact ⟨rfl, congrArg _ (List.append_nil _)⟩

theorem poll_of_receive {url : String} {ms : List Received}
    (h : l.receive.result.run w = (.ok (url, ms), w')) :
    l.poll.result.run w = (.ok (l.countAccepted ms), ((l.process url ms).run w').2) ∧
      l.poll.result.journal w = l.receive.result.journal w ++ (l.process url ms).journal w' := by
  obtain ⟨hrun, hjournal⟩ := l.poll_run w
  rw [hrun, hjournal, pollOnce_run, pollOnce_journal, h]
  exact ⟨rfl, rfl⟩

theorem receive_takes (h : l.queue.Findable w) :
    ∃ w' batch, l.receive.result.run w = (.ok (urlOf l.queue.name, handedOut batch), w') ∧
      deeds (l.receive.result.journal w) =
        [⟨.call (.receiveUpTo (urlOf l.queue.name) l.limit l.wait), .ok (handedOut batch)⟩] ∧
      l.queue.Found w' ∧ l.queue.limitIn w' = l.queue.limitIn w ∧ w'.events = w.events ∧
      Takes w.provider.queues w'.provider.queues (addressed l.queue.name) (max 1 (min l.limit 10)).toNat batch := by
  obtain ⟨w₁, hlookUp, hasks, hknown⟩ := QueueHandle.run_url_of_urlFor h.url
  have hglance := World.Glanced.run l.queue.url_consults w
  rw [hlookUp] at hglance
  have hserves : w₁.provider.queues.Serves (queueNameOfUrl (urlOf l.queue.name)) :=
    ⟨(hasks.quiet.toKept.fails _ _).trans (not_fails h.operations h.failing _ _), hasks.quiet.queues ▸ h.present⟩
  obtain ⟨batch, t, hreceive, htakes⟩ := receive_of_serves hserves (max 1 (min l.limit Call.maxBatch)).toNat
  have hcall : (Attempt.call (.receiveUpTo (urlOf l.queue.name) l.limit l.wait)).result.run w₁ =
      (.ok (handedOut batch), w₁.withQueues t) := Attempt.run_receive hreceive
  have hsteady : l.queue.Steady w₁ (w₁.withQueues t) := QueueHandle.steady_of_takes htakes
  have htakes' := hasks.quiet.takes_trans hasks.changes htakes
  refine ⟨w₁.withQueues t, batch, ?_, ?_, ?_, hsteady.limit.trans hasks.limit, hglance.events, htakes'⟩
  · rw [receive, Attempt.run_bind, hlookUp]
    dsimp only
    rw [Attempt.run_bind, hcall]
    rfl
  · rw [receive, Attempt.journal_bind, hlookUp, deeds_append, l.queue.url_looks.deeds_journal, List.nil_append]
    exact congrArg deeds
      ((Attempt.journal_map _ (fun ms => (urlOf l.queue.name, ms)) w₁).trans (Attempt.journal_call hcall))
  · exact .of_known (htakes'.operations.trans h.operations) (htakes'.failing.trans h.failing) hknown
      (htakes'.present.trans h.present)

/-- Where ids differ, none of the messages that a batch leaves on its queue has the id of one that was accepted. -/
theorem id_ne_of_takes {others : List Stored} (hids : ((others ++ batch.map (·.2)).map (·.id)).Nodup)
    {e : String × Stored} (he : e ∈ batch) (htakes : l.takes e = true) {m : Stored}
    (hm : m ∈ others ++ (l.rejected batch).map (·.2)) : m.id ≠ e.2.id := by
  rw [List.map_append] at hids
  obtain ⟨_, hbatch, hapart⟩ := List.nodup_append.mp hids
  rcases List.mem_append.mp hm with hm | hm
  · exact hapart m.id (List.mem_map_of_mem hm) _ (List.mem_map_of_mem (List.mem_map_of_mem he))
  · obtain ⟨e', he', rfl⟩ := List.mem_map.mp hm
    obtain ⟨he', hrejected⟩ := List.mem_filter.mp he'
    intro hid
    rw [List.map_map] at hbatch
    cases List.inj_on_of_nodup_map hbatch he' he hid
    simp [htakes] at hrejected

/-- What a poll returned and left behind, where `Q` is the queue of the listener and `batch` was received from it. -/
structure Polled (l : Listener) (Q : String) (w w' : World) (handled : Nat) (batch : List (String × Stored)) : Prop where
  /-- As many messages are received as are asked for, or all that are visible if these are fewer. -/
  taken : batch.length = min (max 1 (min l.limit 10)).toNat (w.provider.queues.state Q).visible.length
  /-- They are the first ones, each as it was, but for one more delivery. -/
  front : batch.map (·.2) = ((w.provider.queues.state Q).visible.take batch.length).map Stored.delivered
  /-- None is received twice. -/
  ids : (batch.map (·.2.id)).Nodup
  handles : (batch.map (·.1)).Nodup
  handled : handled = batch.countP l.takes
  /-- What was accepted is gone. -/
  gone : ∀ e ∈ batch, l.takes e = true → ∀ m ∈ (w'.provider.queues.state Q).messages, m.id ≠ e.2.id
  /-- What was rejected is visible behind what was not received, or still in flight. -/
  queue : w'.provider.queues.state Q = { w.provider.queues.state Q with
    visible := (w.provider.queues.state Q).visible.drop batch.length ++
      (l.returned (l.queue.limitIn w) batch).map (·.2)
    inFlight := (w.provider.queues.state Q).inFlight ++ l.hidden (l.queue.limitIn w) batch }
  others : ∀ n, n ≠ Q → w'.provider.queues.queues.get? n = w.provider.queues.queues.get? n
  /-- One change is recorded for each message that was rejected, in order. -/
  changes : w'.provider.queues.visibilityChanges = w.provider.queues.visibilityChanges ++
    (l.rejected batch).map fun e => ⟨Q, e.1, l.timeout (l.queue.limitIn w) e⟩
  events : w'.events = w.events

/-- A poll of a queue that can be found, while nothing is made to fail, receives a batch and settles it. -/
theorem poll_settles (hs : Sound w.provider.queues) (h : l.queue.Findable w) :
    ∃ handled w' batch, l.poll.result.run w = (.ok handled, w') ∧
      deeds (l.poll.result.journal w) =
        ⟨.call (.receiveUpTo (urlOf l.queue.name) l.limit l.wait), .ok (handedOut batch)⟩ ::
          batch.map (l.deed (l.queue.limitIn w)) ∧
      l.Polled (addressed l.queue.name) w w' handled batch ∧ l.queue.Found w' ∧
      l.queue.limitIn w' = l.queue.limitIn w := by
  obtain ⟨w₁, batch, hreceive, hdeeds, hfound, hlimit, hevents, htakes⟩ := receive_takes h
  have hs₁ := (l.receive.result.run_turns w).sound hs
  rw [hreceive] at hs₁
  have hin : (w₁.provider.queues.state (addressed l.queue.name)).inFlight =
    (w.provider.queues.state (addressed l.queue.name)).inFlight ++ batch := by rw [htakes.self]
  have hhandles := hs₁.handles_nodup (addressed l.queue.name)
  rw [QueueState.handles, hin] at hhandles
  obtain ⟨hsettles, hsettled⟩ := process_settles hfound hin hhandles
  obtain ⟨hrun, hjournal⟩ := poll_of_receive hreceive
  rw [hlimit] at hsettles hsettled
  refine ⟨_, _, batch, hrun, ?_, ?_, hsettles.found, hsettles.limit.trans hlimit⟩
  · rw [hjournal, deeds_append, hdeeds, hsettled]
    rfl
  have hids : ((((w₁.provider.queues.state (addressed l.queue.name)).visible ++
      (w.provider.queues.state (addressed l.queue.name)).inFlight.map (·.2)) ++ batch.map (·.2)).map (·.id)).Nodup := by
    simpa [QueueState.messages, hin] using hs₁.ids_nodup (addressed l.queue.name)
  have hvisible := congrArg (·.visible) htakes.exact.self
  have hself := hsettles.self
  rw [htakes.exact.self] at hself
  refine ⟨htakes.length_batch, htakes.exact.front, ?_, ?_, ?_, ?_, ?_, ?_, ?_, ?_⟩
  · rw [List.map_append, List.map_map] at hids
    exact (List.nodup_append.mp hids).2.1
  · rw [List.map_append] at hhandles
    exact (List.nodup_append.mp hhandles).2.1
  · rw [countAccepted, handedOut, List.countP_map]
    rfl
  · intro e he htakes' m hm
    refine id_ne_of_takes hids he htakes' ?_
    rw [QueueState.messages, hself, List.append_nil, List.map_append, ← hvisible] at hm
    have hsome {part : List (String × Stored)} (hpart : part.Sublist (l.rejected batch)) (hm : m ∈ part.map (·.2)) :
        m ∈ (l.rejected batch).map (·.2) := (hpart.map _).subset hm
    simp only [List.mem_append] at hm ⊢
    rcases hm with (hm | hm) | hm | hm
    · exact Or.inl (Or.inl hm)
    · exact Or.inr (hsome List.filter_sublist hm)
    · exact Or.inl (Or.inr hm)
    · exact Or.inr (hsome List.filter_sublist hm)
  · rw [hself, List.append_nil]
  · exact fun n hn => (hsettles.others n hn).trans (htakes.others n hn)
  · rw [hsettles.changes, htakes.changes]
  · exact hsettles.events.trans hevents

/-- What a poll does, in every world where nothing is made to fail and the listener's URL leads to a queue. It receives
a batch, deletes each message that the handler accepts and hides each of the others, and does nothing else. -/
theorem poll_outcome {queues : List QueueHandle} {topics : List TopicHandle} {buckets : List BucketHandle}
    {backoff : BackoffPolicy} {url : String} (l : Listener)
    (hw : w.Reachable (.ofHandles queues topics buckets backoff))
    (hq : l.queue ∈ (Registry.ofHandles queues topics buckets backoff).queues)
    (hoperations : w.provider.queues.failingOperations = []) (hfailing : w.provider.queues.failingQueues = [])
    (hurl : w.urlFor? (w.known l.queue.slot).url l.queue.name = some url)
    (hpresent : (w.provider.queues.queues.get? (queueNameOfUrl url)).isSome) :
    ∃ handled w' batch, l.poll.result.run w = (.ok handled, w') ∧
      l.Polled (queueNameOfUrl url) w w' handled batch ∧
      deeds (l.poll.result.journal w) =
        ⟨.call (.receiveUpTo url l.limit l.wait), .ok (handedOut batch)⟩ :: batch.map (l.deed (l.queue.limitIn w)) := by
  obtain rfl := hw.eq_urlOf_of_urlFor hq hurl
  obtain ⟨handled, w', batch, hrun, hdeeds, hpolled, _⟩ :=
    poll_settles hw.sound ⟨hoperations, hfailing, hurl, hpresent⟩
  exact ⟨handled, w', batch, hrun, hpolled, hdeeds⟩

/-- Of four messages three are received. One is accepted, one is hidden for half a minute, and one for no time at all, so
that it is visible again behind the fourth. -/
theorem poll_outcome_three :
    let q : QueueHandle := { id := "a", name := "a", client := 0, schedules := ⟨[], [("urgent", [0])]⟩ }
    let l : Listener := { queue := q, accepts := fun m => m.body == "x", backoff := ⟨[30]⟩, limit := 3 }
    let urgent : Outbound := { body := "z", attributes := [(eventTypeAttribute, .ofText "urgent")] }
    let p := Memory.Control.apply (Memory.Control.apply {} (.seed "a" { body := "x" })) (.seed "a" { body := "y" })
    let w : World := {
      provider := Memory.Control.apply (Memory.Control.apply p (.seed "a" urgent)) (.seed "a" { body := "w" }) }
    ∃ handled w' batch, l.poll.result.run w = (.ok handled, w') ∧ l.Polled "a" w w' handled batch ∧ handled = 1 ∧
      (w'.provider.queues.state "a").visible.map (·.body) = ["w", "z"] ∧
      (w'.provider.queues.state "a").inFlight.map (·.2.body) = ["y"] ∧
      w'.provider.queues.visibilityChanges.map (·.seconds) = [30, 0] := by
  intro q l urgent p w
  have hw : w.Reachable (.ofHandles [q] [] [] ⟨[]⟩) :=
    .start (.control _ (.control _ (.control _ (.control _ (.start true))))) _
  have hurl : w.urlFor? (w.known q.slot).url q.name = some (urlOf "a") := by decide +kernel
  have hpresent : (w.provider.queues.queues.get? (queueNameOfUrl (urlOf "a"))).isSome := by decide +kernel
  obtain ⟨handled, w', batch, hrun, hpolled, _⟩ :=
    poll_outcome l hw (List.mem_singleton_self q) rfl rfl hurl hpresent
  have hqueue : queueNameOfUrl (urlOf "a") = "a" := addressed_of_notMem (by decide)
  rw [hqueue] at hpolled
  let seen (o : Except QueueError Nat × World) := (o.1.toOption, (o.2.provider.queues.state "a").visible.map (·.body),
    (o.2.provider.queues.state "a").inFlight.map (·.2.body), o.2.provider.queues.visibilityChanges.map (·.seconds))
  have hseen : seen (l.poll.result.run w) = (some 1, ["w", "z"], ["y"], [30, 0]) := by decide +kernel
  rw [hrun] at hseen
  simp only [seen, Prod.mk.injEq] at hseen
  obtain ⟨hhandled, hvisible, hinFlight, hchanges⟩ := hseen
  exact ⟨handled, w', batch, hrun, hpolled, Option.some.inj hhandled, hvisible, hinFlight, hchanges⟩

end Listener

end DeadLetter
