import DeadLetter.Proofs.Store.Effects

/-!
# Deliveries and what they are counted by

`Still` : from one store to another no message was delivered: each message was there before, with the same count, or is
new and has none. All calls but receives, and all changes from outside, are of this kind. `Tally h s` : the messages of
`s` count as many deliveries as there are of them in the list `h`, and the deliveries of one message in `h` are numbered
from one. What is still keeps a tally (`Tally.still`), and taking a batch adds it to the tally (`Tally.take`).
-/

namespace DeadLetter

set_option autoImplicit false

namespace QueueStore
variable {s t u : QueueStore} {queue : String} {q q' : QueueState}

/-! ## Changes that deliver nothing -/

/-- A message that was not delivered yet, with an id made with a number past `n` and up to `n'`. -/
def New (n n' : Nat) (x : Stored) : Prop := x.deliveries = 0 ∧ ∃ k, n < k ∧ k ≤ n' ∧ IdStamp x.id k

/-- From `s` to `t` no message was delivered. -/
structure Still (s t : QueueStore) : Prop where
  lastId : s.lastId ≤ t.lastId
  messages : ∀ x ∈ t.messages, x ∈ s.messages ∨ New s.lastId t.lastId x

theorem Still.refl (s : QueueStore) : Still s s := ⟨Nat.le_refl _, fun _ => Or.inl⟩

theorem Still.trans (h : Still s t) (h' : Still t u) : Still s u where
  lastId := Nat.le_trans h.lastId h'.lastId
  messages x hx := by
    rcases h'.messages x hx with hx | ⟨h0, k, hk, hk', hid⟩
    · rcases h.messages x hx with hx | ⟨h0, k, hk, hk', hid⟩
      · exact Or.inl hx
      · exact Or.inr ⟨h0, k, hk, Nat.le_trans hk' h'.lastId, hid⟩
    · exact Or.inr ⟨h0, k, Nat.lt_of_le_of_lt h.lastId hk, hk', hid⟩

theorem mem_messages_of_state {x : Stored} (h : x ∈ (s.state queue).messages) : x ∈ s.messages := by
  cases hq : s.queues.get? queue with
  | none =>
    rw [state_of_none hq] at h
    cases h
  | some q =>
    rw [state_of_get? hq] at h
    exact List.mem_flatMap.mpr ⟨(queue, q), Dict.mem_of_get? hq, h⟩

theorem still_of_queues (h : t.queues = s.queues) (hn : s.lastId ≤ t.lastId) : Still s t :=
  ⟨hn, fun x hx => Or.inl (by rwa [QueueStore.messages, ← h])⟩

theorem Quiet.still (h : Quiet s t) : Still s t := still_of_queues h.queues h.lastId

theorem Puts.still (h : Puts s t queue q)
    (hq : ∀ x ∈ q.messages, x ∈ (s.state queue).messages ∨ New s.lastId t.lastId x) : Still s t where
  lastId := h.lastId
  messages x hx := by
    rw [QueueStore.messages, h.queues] at hx
    obtain ⟨e, he, hx⟩ := List.mem_flatMap.mp hx
    rcases Dict.mem_put he with rfl | he
    · exact (hq x hx).imp_left mem_messages_of_state
    · exact Or.inl (List.mem_flatMap.mpr ⟨e, he, hx⟩)

theorem Puts.still_of_subset (h : Puts s t queue q) (hq : q.messages ⊆ (s.state queue).messages) : Still s t :=
  h.still fun _ hx => Or.inl (hq hx)

theorem messages_removed_subset (q : QueueState) (handle : String) : (removed q handle).messages ⊆ q.messages :=
  ((List.eraseP_sublist.map _).append_left _).subset

theorem messages_released_subset {handle : String} {m : Stored} (h : q.inFlight.lookup handle = some m) :
    (released q handle m).messages ⊆ q.messages := by
  intro x hx
  have hperm := ((perm_of_lookup h).map (·.2)).append_left q.visible
  refine hperm.mem_iff.mpr ?_
  rw [QueueState.messages, released, List.append_assoc] at hx
  exact hx

theorem Puts.still_appended {m : Stored} (h : Puts s t queue (appended (s.state queue) m))
    (hm : New s.lastId t.lastId m) : Still s t := by
  refine h.still fun x hx => ?_
  simp only [QueueState.messages, appended, List.mem_append, List.mem_singleton] at hx ⊢
  rcases hx with (hx | rfl) | hx
  · exact Or.inl (Or.inl hx)
  · exact Or.inr hm
  · exact Or.inl (Or.inr hx)

theorem seed_still (s : QueueStore) (queue : String) (m : Outbound) : Still s (s.seed queue m).2 :=
  (puts_seed s queue m).still_appended ⟨rfl, s.lastId + 1, Nat.lt_succ_self _, Nat.le_refl _, rfl⟩

theorem send_still (s : QueueStore) (url : String) (m : Outbound) : Still s (s.send url m).2 := by
  rcases send_cases s url m with ⟨_, e, t, heq, hquiet⟩ | ⟨_, q, t, hq, heq, hid, hput⟩
  · rw [heq]
    exact hquiet.still
  · rw [heq]
    rw [← state_of_get? hq] at hput
    exact hput.still_appended ⟨rfl, s.lastId + 1, Nat.lt_succ_self _, Nat.le_of_eq hid.symm, rfl⟩

theorem delete_still (s : QueueStore) (url handle : String) : Still s (s.delete url handle).2 := by
  rcases delete_cases s url handle with ⟨_, e, t, heq, hquiet⟩ | ⟨_, q, m, t, hq, _, heq, hput⟩
  · rw [heq]
    exact hquiet.still
  · rw [heq]
    rw [← state_of_get? hq] at hput
    exact hput.still_of_subset (messages_removed_subset _ _)

theorem purge_still (s : QueueStore) (url : String) : Still s (s.purge url).2 := by
  rcases purge_cases s url with ⟨e, t, heq, hquiet⟩ | ⟨q, t, _, heq, hput⟩
  · rw [heq]
    exact hquiet.still
  · rw [heq]
    exact hput.still_of_subset (List.nil_subset _)

theorem changeVisibility_still (s : QueueStore) (url handle : String) (seconds : Int) :
    Still s (s.changeVisibility url handle seconds).2 := by
  rcases changeVisibility_cases s url handle seconds with ⟨e, t, heq, hquiet⟩ | ⟨q, m, t, hq, hm, heq, hput⟩
  · rw [heq]
    exact hquiet.still
  · rw [heq]
    refine hput.still_of_subset ?_
    rw [state_of_get? hq]
    split
    · exact messages_released_subset hm
    · exact fun _ => id

theorem createQueue_still (s : QueueStore) (queue : String) (attributes : Dict String) :
    Still s (s.createQueue queue attributes).2 := by
  rcases createQueue_cases s queue attributes with ⟨e, t, heq, hquiet⟩ | ⟨q, t, heq, hput, hv, hf⟩
  · rw [heq]
    exact hquiet.still
  · rw [heq]
    refine hput.still_of_subset ?_
    rw [QueueState.messages, hv, hf]
    exact fun _ => id

theorem create_still (s : QueueStore) (queue : String) : Still s (s.create queue) := by
  unfold create Dict.ensure Dict.has
  cases hq : s.queues.get? queue with
  | some q => exact .refl s
  | none =>
    have hput : Puts s { s with queues := s.queues.put queue {} } queue {} := ⟨⟨rfl, rfl, Nat.le_refl _⟩, rfl⟩
    exact hput.still_of_subset (List.nil_subset _)

theorem expire_still (s : QueueStore) (queue : String) : Still s (s.expire queue) := by
  cases hq : s.queues.get? queue with
  | none =>
    rw [expire_of_none hq]
    exact .refl s
  | some q =>
    refine (puts_expire hq).still_of_subset ?_
    rw [state_of_get? hq, QueueState.messages, List.map_nil, List.append_nil]
    exact fun _ => id

/-! ## Tallies -/

/-- The deliveries of a message. -/
def deliveriesOf (h : List Received) (id : String) : List Received := h.filter (·.id = id)

/-- The messages of a store count the deliveries of a list. -/
structure Tally (h : List Received) (s : QueueStore) : Prop where
  /-- The deliveries of each message carry the numbers from one. -/
  numbered : ∀ id, (deliveriesOf h id).map (·.system.get? deliveryCountAttribute) =
    (List.range' 1 (deliveriesOf h id).length).map fun k => some (Text.natText k)
  /-- Each message counts its deliveries. -/
  counted : ∀ x ∈ s.messages, x.deliveries = (deliveriesOf h x.id).length
  /-- The ids of the list were made with numbers drawn so far. -/
  made : ∀ m ∈ h, ∃ k ≤ s.lastId, IdStamp m.id k

variable {h : List Received}

theorem deliveriesOf_concat (h : List Received) (m : Received) (id : String) :
    deliveriesOf (h ++ [m]) id = if m.id = id then deliveriesOf h id ++ [m] else deliveriesOf h id := by
  split
  · next hid => simp [deliveriesOf, hid]
  · next hid => simp [deliveriesOf, hid]

theorem tally_empty : Tally [] {} := ⟨fun _ => rfl, nofun, nofun⟩

/-- An id made with a number that is not drawn yet has no deliveries. -/
theorem Tally.deliveriesOf_eq_nil (ht : Tally h s) {id : String} {k : Nat} (hid : IdStamp id k) (hk : s.lastId < k) :
    deliveriesOf h id = [] := by
  refine List.filter_eq_nil_iff.mpr fun m hm heq => ?_
  obtain ⟨j, hj, hstamp⟩ := ht.made m hm
  have := idStamp_unique id k j hid (of_decide_eq_true heq ▸ hstamp)
  omega

/-- No message counts more deliveries than there were. -/
theorem Tally.deliveries_le (ht : Tally h s) {x : Stored} (hx : x ∈ s.messages) : x.deliveries ≤ h.length :=
  (ht.counted x hx).trans_le (List.length_filter_le _ _)

theorem Tally.still (ht : Tally h s) (hst : Still s t) : Tally h t where
  numbered := ht.numbered
  counted x hx := by
    rcases hst.messages x hx with hx | ⟨h0, k, hk, _, hid⟩
    · exact ht.counted x hx
    · rw [h0, ht.deliveriesOf_eq_nil hid hk]
      rfl
  made m hm := by
    obtain ⟨k, hk, hid⟩ := ht.made m hm
    exact ⟨k, Nat.le_trans hk hst.lastId, hid⟩

theorem deliveryCount_of_get? {m : Received} {k : Nat}
    (h : m.system.get? deliveryCountAttribute = some (Text.natText k)) (hlow : 0 < k) (hhigh : k < 2 ^ 32) :
    m.deliveryCount = k := by
  have hread : Text.readNat? 0xFFFFFFFF (Text.natText k) = some k := Text.readNat?_natText (by omega)
  rw [Received.deliveryCount, h, Option.bind_some, hread]
  exact Nat.max_eq_left hlow

theorem get?_system_deliver (m : Stored) (handle : String) :
    (m.deliver handle).system.get? deliveryCountAttribute = some (Text.natText m.deliveries) := by
  unfold Stored.deliver
  cases m.group with
  | none => rfl
  | some g =>
    dsimp only
    rw [Dict.get?_put_of_ne _ _ (by decide)]
    rfl

/-- Taking a message counts a delivery and leaves all other messages as they were. -/
theorem perm_taken (hs : s.queues.Ordered) {m : Stored} {rest : List Stored} {handle : String}
    (hq : s.queues.get? queue = some q) (hv : q.visible = m :: rest)
    (hput : Puts s t queue (taken q rest handle m)) :
    ∃ others, s.messages.Perm (m :: others) ∧ t.messages.Perm (m.delivered :: others) := by
  obtain ⟨before, after, hold, hnew⟩ := Dict.flatMap_put hs (fun e => e.2.messages) queue {} rfl
  refine ⟨before ++ (rest ++ q.inFlight.map (·.2) ++ after), ?_, ?_⟩
  · rw [QueueStore.messages, hold, hq, Option.getD_some, QueueState.messages, hv]
    exact List.perm_middle
  · rw [QueueStore.messages, hput.queues, hnew, QueueState.messages, taken, List.map_append, ← List.append_assoc rest]
    refine (List.Perm.append_left before ?_).trans List.perm_middle
    exact (List.perm_append_singleton _ _).append_right after

theorem Tally.taken (ht : Tally h s) (hs : Sound s) {m : Stored} {rest : List Stored} {handle : String}
    (hq : s.queues.get? queue = some q) (hv : q.visible = m :: rest)
    (hput : Puts s t queue (taken q rest handle m)) : Tally (h ++ [m.delivered.deliver handle]) t := by
  obtain ⟨others, hold, hnew⟩ := perm_taken hs.ordered hq hv hput
  have hm : m ∈ s.messages := hold.mem_iff.mpr List.mem_cons_self
  have hdistinct : m.id ∉ others.map (·.id) :=
    (List.nodup_cons.mp ((hold.map (·.id)).nodup hs.ids.distinct)).1
  have hself : deliveriesOf (h ++ [m.delivered.deliver handle]) m.id =
      deliveriesOf h m.id ++ [m.delivered.deliver handle] :=
    (deliveriesOf_concat h _ m.id).trans (if_pos rfl)
  have hothers : ∀ id, id ≠ m.id → deliveriesOf (h ++ [m.delivered.deliver handle]) id = deliveriesOf h id :=
    fun id hid => (deliveriesOf_concat h _ id).trans (if_neg (Ne.symm hid))
  refine ⟨fun id => ?_, fun x hx => ?_, fun d hd => ?_⟩
  · by_cases hid : id = m.id
    · rw [hid, hself, List.map_append, ht.numbered, List.length_append, List.length_singleton, List.range'_concat,
        List.map_append, List.map_singleton, List.map_singleton, get?_system_deliver, Stored.delivered, ht.counted m hm,
        Nat.one_mul, Nat.add_comm]
    · rw [hothers id hid]
      exact ht.numbered id
  · rcases List.mem_cons.mp (hnew.mem_iff.mp hx) with rfl | hx
    · show m.deliveries + 1 = (deliveriesOf _ m.id).length
      rw [hself, List.length_append, List.length_singleton, ht.counted m hm]
    · have hne : x.id ≠ m.id := fun heq => hdistinct (heq ▸ List.mem_map_of_mem hx)
      rw [hothers _ hne]
      exact ht.counted x (hold.mem_iff.mpr (List.mem_cons_of_mem _ hx))
  · rcases List.mem_append.mp hd with hd | hd
    · obtain ⟨k, hk, hid⟩ := ht.made d hd
      exact ⟨k, Nat.le_trans hk hput.lastId, hid⟩
    · rw [List.mem_singleton.mp hd]
      obtain ⟨k, hk, hid⟩ := hs.ids.made m.id (List.mem_map_of_mem hm)
      exact ⟨k, Nat.le_trans hk hput.lastId, hid⟩

theorem Tally.take {limit : Nat} {batch : List Received} (ht : Tally h s) (hs : Sound s)
    (htake : s.take queue limit = (.ok batch, t)) : Tally (h ++ batch) t := by
  induction limit generalizing h s batch with
  | zero =>
    rw [take_zero] at htake
    cases htake
    rwa [List.append_nil]
  | succ limit ih =>
    cases hq : s.queues.get? queue with
    | none =>
      rw [take_of_none hq] at htake
      cases htake
    | some q =>
      cases hv : q.visible with
      | nil =>
        rw [take_of_nil hq hv] at htake
        cases htake
        rw [List.append_nil]
        exact ht.still (quiet_drawn s).still
      | cons m rest =>
        rw [take_of_cons hq hv] at htake
        have htaken := ht.taken hs hq hv (puts_taken s queue q rest m)
        have hsound := (Shifts.turns (.single (shift_taken hq hv))).sound hs
        dsimp only at htake
        generalize s.drawn.withQueue queue _ = u at htake htaken hsound
        rcases hr : u.take queue limit with ⟨o, v⟩
        rw [hr] at htake
        cases o with
        | error e => cases htake
        | ok ms =>
          cases htake
          have hrest := ih htaken hsound hr
          rw [List.append_assoc] at hrest
          exact hrest

theorem Tally.receive {url : String} {limit : Nat} {batch : List Received} (ht : Tally h s) (hs : Sound s)
    (hreceive : s.receive url limit = (.ok batch, t)) : Tally (h ++ batch) t := by
  have hc := quiet_counted s .receiveMessage
  unfold QueueStore.receive at hreceive
  cases hf : s.fails .receiveMessage (queueNameOfUrl url) with
  | true =>
    rw [attempt_of_fails hf] at hreceive
    cases hreceive
  | false =>
    rw [attempt_of_not_fails hf] at hreceive
    exact (ht.still hc.still).take (hs.turn hc.moves) hreceive

/-- The deliveries of one message have the counts from one, as long as these fit 32 bits. -/
theorem Tally.deliveryCount (ht : Tally h s) {id : String} (hbound : (deliveriesOf h id).length < 2 ^ 32) :
    (deliveriesOf h id).map (·.deliveryCount) = List.range' 1 (deliveriesOf h id).length := by
  refine List.ext_getElem (by rw [List.length_map, List.length_range']) fun i hi _ => ?_
  rw [List.length_map] at hi
  have hnumber := List.getElem_of_eq (ht.numbered id) (by rwa [List.length_map])
  rw [List.getElem_map, List.getElem_map, List.getElem_range', Nat.one_mul] at hnumber
  rw [List.getElem_map, List.getElem_range', Nat.one_mul]
  exact deliveryCount_of_get? hnumber (by omega) (by omega)

end QueueStore

end DeadLetter
