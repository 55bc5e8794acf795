import DeadLetter.Proofs.Routine.Abreast
import DeadLetter.Proofs.Service.Surplus
import DeadLetter.Proofs.Store.Likeness

/-!
# A retry in two worlds

`World.Twin` relates two worlds in which a retry from `D` to `M` meets the same: stores that are alike, the same
knowledge of the queue, and clocks that agree on the deadline. Whatever a retry does in the one it does in the other, so
it returns the same in both or fails in both, and the worlds stay related (`QueueHandle.retry_abreast`).
-/

namespace DeadLetter

set_option autoImplicit false

open QueueStore

/-- Two worlds in which a retry from `D` to `M` meets the same, up to ids past `n` and deduplication ids from `k` on. -/
structure World.Twin (L : Lore) (slot : Nat) (D M : String) (n k : Nat) (late : Bool) (w w' : World) : Prop where
  store : Alike D M n k w.provider.queues w'.provider.queues
  sound : Sound w.provider.queues ∧ Sound w'.provider.queues
  known : w'.known slot = w.known slot
  agrees : L.Agrees slot (w.known slot)
  generated : k ≤ w.generated ∧ k ≤ w'.generated
  clock : (∀ i, w.looks ≤ i → w.late i = late) ∧ ∀ i, w'.looks ≤ i → w'.late i = late

section Twin
variable {L : Lore} {slot n k : Nat} {D M : String} {late : Bool} {w w' : World}

theorem World.Twin.call (h : World.Twin L slot D M n k late w w') (c c' : Call)
    (hstore : Alike D M n k (w.perform (.call c)).2.provider.queues (w'.perform (.call c')).2.provider.queues) :
    World.Twin L slot D M n k late (w.perform (.call c)).2 (w'.perform (.call c')).2 where
  store := hstore
  sound := ⟨(w.perform_turns (.call c)).sound h.sound.1, (w'.perform_turns (.call c')).sound h.sound.2⟩
  known := h.known
  agrees := h.agrees
  generated := h.generated
  clock := h.clock

/-- Two attempts that return the same, with a property, and leave twins, or that both fail and leave twins. -/
def Returns {α : Type} (L : Lore) (slot : Nat) (D M : String) (n k : Nat) (late : Bool) (P : α → Prop) :
    Except QueueError α → Except QueueError α → World → World → Prop :=
  alike (fun a a' w w' => (a' = a ∧ P a) ∧ World.Twin L slot D M n k late w w') (World.Twin L slot D M n k late)

theorem Returns.twin {α : Type} {P : α → Prop} {o o' : Except QueueError α}
    (h : Returns L slot D M n k late P o o' w w') :
    o'.toOption = o.toOption ∧ World.Twin L slot D M n k late w w' := by
  match o, o', h with
  | .ok a, .ok a', h => exact ⟨congrArg some h.1.1, h.2⟩
  | .error e, .error e', h => exact ⟨rfl, h⟩

theorem returns_call {c : Call} {P : c.Reply → Prop}
    (h : ∀ w w', World.Twin L slot D M n k late w w' → (w'.perform (.call c)).1 = (w.perform (.call c)).1 ∧
      (∀ a, (w.perform (.call c)).1 = .ok a → P a) ∧
      Alike D M n k (w.perform (.call c)).2.provider.queues (w'.perform (.call c)).2.provider.queues) :
    Abreast (World.Twin L slot D M n k late) (Attempt.call c).result (Attempt.call c).result
      (Returns L slot D M n k late P) := by
  intro w w' hw
  obtain ⟨hsame, hP, hstore⟩ := h w w' hw
  have htwin := hw.call c c hstore
  show Returns L slot D M n k late P (w.perform (.call c)).1 (w'.perform (.call c)).1 _ _
  rw [hsame]
  cases hr : (w.perform (.call c)).1 with
  | ok a => exact ⟨⟨rfl, hP a hr⟩, htwin⟩
  | error e => exact htwin

theorem returns_facts : Abreast (World.Twin L slot D M n k late) (Attempt.facts slot).result (Attempt.facts slot).result
    (Returns L slot D M n k late (L.Agrees slot)) :=
  .lift fun _ _ hw => ⟨⟨hw.known, hw.agrees⟩, hw⟩

theorem returns_learn {f : Fact} (hf : L.fact slot f) :
    Abreast (World.Twin L slot D M n k late) (Attempt.learn slot f).result (Attempt.learn slot f).result
      (Returns L slot D M n k late fun _ => True) := by
  refine .lift fun w w' hw => ⟨⟨rfl, trivial⟩, hw.store, hw.sound, ?_, ?_, hw.generated, hw.clock⟩
  · show (if slot = slot then (w'.known slot).learn f else _) = if slot = slot then (w.known slot).learn f else _
    rw [if_pos rfl, if_pos rfl, hw.known]
  · show L.Agrees slot (if slot = slot then (w.known slot).learn f else _)
    rw [if_pos rfl]
    exact hw.agrees.learn hf

theorem Returns.attempt {α β : Type} {x : Attempt α} {f : α → Attempt β} {P : α → Prop} {R : β → Prop}
    (h : Abreast (World.Twin L slot D M n k late) x.result x.result (Returns L slot D M n k late P))
    (hf : ∀ a, P a →
      Abreast (World.Twin L slot D M n k late) (f a).result (f a).result (Returns L slot D M n k late R)) :
    Abreast (World.Twin L slot D M n k late) (x >>= f).result (x >>= f).result (Returns L slot D M n k late R) := by
  refine Abreast.attempt h ?_ (fun _ _ _ _ hw => hw)
  rintro a b w w' ⟨⟨rfl, ha⟩, hw⟩
  exact hf _ ha w w' hw

theorem Returns.pure {α : Type} {P : α → Prop} {a : α} (h : P a) :
    Abreast (World.Twin L slot D M n k late) (Attempt.result (Pure.pure a)) (Attempt.result (Pure.pure a))
      (Returns L slot D M n k late P) :=
  Abreast.pure fun _ _ hw => ⟨⟨rfl, h⟩, hw⟩

namespace QueueHandle
variable {q : QueueHandle}

theorem returns_queueUrl (hurl : ∀ queue, L.url queue (urlOf queue)) (queue : String) :
    Abreast (World.Twin L slot D M n k late) (Attempt.call (.queueUrl queue)).result
      (Attempt.call (.queueUrl queue)).result (Returns L slot D M n k late (L.url queue)) := by
  refine returns_call fun w w' hw => ⟨(hw.store.queueUrl queue).1, fun u hu => ?_, (hw.store.queueUrl queue).2⟩
  rw [eq_urlOf_of_queueUrl (s := w.provider.queues) hu]
  exact hurl queue

theorem returns_queueAttributes {url : String} (hD : queueNameOfUrl url = D) :
    Abreast (World.Twin L slot D M n k late) (Attempt.call (.queueAttributes url)).result
      (Attempt.call (.queueAttributes url)).result (Returns L slot D M n k late fun _ => True) :=
  returns_call fun _ _ hw => ⟨(hw.store.queueAttributes hD).1, fun _ _ => trivial, (hw.store.queueAttributes hD).2⟩

theorem returns_lookUp {kept : Known → Option String} {fact : String → Fact} {name : String}
    (hurl : ∀ queue, L.url queue (urlOf queue)) (hkept : ∀ known u, L.Agrees slot known → kept known = some u →
      L.fact slot (fact u)) (hfound : ∀ u, L.url name u → L.fact slot (fact u)) :
    Abreast (World.Twin L slot D M n k late) (lookUp slot kept fact name).result (lookUp slot kept fact name).result
      (Returns L slot D M n k late fun u => L.fact slot (fact u)) := by
  refine Returns.attempt returns_facts fun known hknown => ?_
  cases hu : kept known with
  | some u => exact Returns.pure (hkept known u hknown hu)
  | none =>
    refine Returns.attempt (returns_queueUrl hurl name) fun u hu => ?_
    exact Returns.attempt (returns_learn (hfound u hu)) fun _ _ => Returns.pure (hfound u hu)

theorem returns_url (hurl : ∀ queue, L.url queue (urlOf queue)) (hq : L.Covers q) :
    Abreast (World.Twin L q.slot D M n k late) q.url.result q.url.result
      (Returns L q.slot D M n k late fun u => L.fact q.slot (.url u)) := by
  rw [url_eq]
  exact returns_lookUp hurl (fun _ u hk => hk.url u) hq.url

theorem returns_urlOfDlq (hurl : ∀ queue, L.url queue (urlOf queue)) (hq : L.Covers q) {d : DlqHandle}
    (hd : q.dlq = some d) :
    Abreast (World.Twin L q.slot D M n k late) (q.urlOfDlq d.name).result (q.urlOfDlq d.name).result
      (Returns L q.slot D M n k late fun u => L.fact q.slot (.dlqUrl u)) := by
  rw [urlOfDlq_eq]
  exact returns_lookUp hurl (fun _ u hk => hk.dlqUrl u) fun u => hq.dlqUrl d u hd

end QueueHandle

/-! ## Moving messages -/

/-- Twins that delivered the same message last, under handles of their own. -/
structure World.Holds (L : Lore) (slot : Nat) (D M : String) (n k : Nat) (late : Bool) (x : Stored)
    (handle handle' : String) (w w' : World) : Prop extends World.Twin L slot D M n k late w w' where
  delivered : (w.provider.queues.state D).Delivered handle x
  delivered' : (w'.provider.queues.state D).Delivered handle' x

namespace QueueHandle
variable {q : QueueHandle} {dlqUrl url : String}

theorem receive_abreast (hD : queueNameOfUrl dlqUrl = D) :
    Abreast (World.Twin L slot D M n k late) (Attempt.call (.receive dlqUrl 1 0)).result
      (Attempt.call (.receive dlqUrl 1 0)).result
      (alike (fun b b' w w' => (b = [] ∧ b' = [] ∧ World.Twin L slot D M n k late w w') ∨
          ∃ x handle handle', b = [x.deliver handle] ∧ b' = [x.deliver handle'] ∧
            World.Holds L slot D M n k late x handle handle' w w')
        (World.Twin L slot D M n k late)) := by
  intro w w' hw
  obtain ⟨hcases, hstore⟩ := hw.store.receive hD
  have htwin := hw.call (.receive dlqUrl 1 0) (.receive dlqUrl 1 0) hstore
  show alike _ _ (w.provider.queues.receive dlqUrl 1).1 (w'.provider.queues.receive dlqUrl 1).1 _ _
  rcases hcases with ⟨e, e', he, he'⟩ | ⟨hnil, hnil'⟩ | ⟨x, handle, handle', hx, hx', hdelivered, hdelivered'⟩
  · rw [he, he']
    exact htwin
  · rw [hnil, hnil']
    exact Or.inl ⟨rfl, rfl, htwin⟩
  · rw [hx, hx']
    exact Or.inr ⟨x, handle, handle', rfl, rfl, htwin, hdelivered, hdelivered'⟩

/-- The copies of a message delivered under different handles differ in their deduplication ids at most. -/
theorem copyOf_abreast (x : Stored) (handle handle' : String) :
    Abreast (World.Holds L slot D M n k late x handle handle') (q.copyOf (x.deliver handle)).result
      (q.copyOf (x.deliver handle')).result
      (alike (fun c c' w w' => c.Like k c' ∧ World.Holds L slot D M n k late x handle handle' w w')
        (World.Twin L slot D M n k late)) := by
  unfold copyOf
  split
  · intro w w' hw
    have hmade : Renewed (NewDeduplication k) (some (.generated w.generated)) (some (.generated w'.generated)) :=
      .of_new ⟨_, hw.generated.1, rfl⟩ ⟨_, hw.generated.2, rfl⟩
    refine ⟨⟨rfl, rfl, rfl, hmade⟩, ⟨?_, hw.delivered, hw.delivered'⟩⟩
    exact ⟨hw.store, hw.sound, hw.known, hw.agrees,
      ⟨Nat.le_succ_of_le hw.generated.1, Nat.le_succ_of_le hw.generated.2⟩, hw.clock⟩
  · exact Abreast.pure fun _ _ hw => ⟨.refl _, hw⟩

theorem send_abreast (hM : queueNameOfUrl url = M) (hne : D ≠ M) {x : Stored} {handle handle' : String}
    {c c' : Outbound} (hc : c.Like k c') :
    Abreast (World.Holds L slot D M n k late x handle handle') (Attempt.call (.send url c)).result
      (Attempt.call (.send url c')).result
      (alike (fun _ _ => World.Holds L slot D M n k late x handle handle') (World.Twin L slot D M n k late)) := by
  intro w w' hw
  obtain ⟨hcases, hD, hD', hstore⟩ := hw.store.send hne hM hc
  have htwin := hw.call (.send url c) (.send url c') hstore
  show alike _ _ (w.provider.queues.send url c).1 (w'.provider.queues.send url c').1 _ _
  rcases hcases with ⟨e, e', he, he'⟩ | ⟨i, i', hi, hi'⟩
  · rw [he, he']
    exact htwin
  · rw [hi, hi']
    exact ⟨htwin, hD.symm ▸ hw.delivered, hD'.symm ▸ hw.delivered'⟩

theorem delete_abreast (hD : queueNameOfUrl dlqUrl = D) {x : Stored} {handle handle' : String} :
    Abreast (World.Holds L slot D M n k late x handle handle') (Attempt.call (.delete dlqUrl handle)).result
      (Attempt.call (.delete dlqUrl handle')).result
      (alike (fun _ _ => World.Twin L slot D M n k late) (World.Twin L slot D M n k late)) := by
  intro w w' hw
  obtain ⟨hcases, hstore⟩ := hw.store.delete hw.sound.1 hw.sound.2 hD hw.delivered hw.delivered'
  have htwin := hw.call (.delete dlqUrl handle) (.delete dlqUrl handle') hstore
  show alike _ _ (w.provider.queues.delete dlqUrl handle).1 (w'.provider.queues.delete dlqUrl handle').1 _ _
  rcases hcases with ⟨e, e', he, he'⟩ | ⟨hok, hok'⟩
  · rw [he, he']
    exact htwin
  · rw [hok, hok']
    exact htwin

theorem moveOne_abreast (hD : queueNameOfUrl dlqUrl = D) (hM : queueNameOfUrl url = M) (hne : D ≠ M)
    (p : NumberPolicy) :
    Abreast (World.Twin L slot D M n k late) (q.moveOne dlqUrl url).result (q.moveOne dlqUrl url).result
      (alike (fun o o' w w' => o'.map (·.report p) = o.map (·.report p) ∧ World.Twin L slot D M n k late w w')
        (World.Twin L slot D M n k late)) := by
  refine Abreast.attempt (receive_abreast hD) ?_ (fun _ _ _ _ hw => hw)
  rintro b b' w w' (⟨rfl, rfl, hw⟩ | ⟨x, handle, handle', rfl, rfl, hw⟩)
  · exact ⟨rfl, hw⟩
  · refine Abreast.attempt (copyOf_abreast x handle handle') ?_ (fun _ _ _ _ hw => hw) w w' hw
    rintro c c' w w' ⟨hc, hw⟩
    refine Abreast.attempt (send_abreast hM hne hc) ?_ (fun _ _ _ _ hw => hw) w w' hw
    intro _ _ w w' hw
    refine Abreast.attempt (delete_abreast hD) ?_ (fun _ _ _ _ hw => hw) w w' hw
    intro _ _ w w' hw
    exact ⟨rfl, hw⟩

theorem isLate_abreast :
    Abreast (World.Twin L slot D M n k late) (Routine.perform .isLate) (Routine.perform .isLate)
      (fun b b' w w' => (b = late ∧ b' = late) ∧ World.Twin L slot D M n k late w w') := by
  intro w w' hw
  have hclock (w : World) (h : ∀ i, w.looks ≤ i → w.late i = late) : ∀ i, w.looks + 1 ≤ i → w.late i = late :=
    fun i hi => h i (Nat.le_of_succ_le hi)
  exact ⟨⟨hw.clock.1 _ (Nat.le_refl _), hw.clock.2 _ (Nat.le_refl _)⟩, hw.store, hw.sound, hw.known, hw.agrees,
    hw.generated, hclock w hw.clock.1, hclock w' hw.clock.2⟩

theorem drain_abreast (hD : queueNameOfUrl dlqUrl = D) (hM : queueNameOfUrl url = M) (hne : D ≠ M) (p : NumberPolicy)
    (attempts : Nat) :
    Abreast (World.Twin L slot D M n k late) (q.drain dlqUrl url attempts) (q.drain dlqUrl url attempts)
      (fun ms ms' w w' => ms'.map (·.report p) = ms.map (·.report p) ∧ World.Twin L slot D M n k late w w') := by
  induction attempts with
  | zero => exact Abreast.pure fun _ _ hw => ⟨rfl, hw⟩
  | succ attempts ih =>
    have hcons {m m' : Received} (hm : m'.report p = m.report p) :
        Abreast (World.Twin L slot D M n k late) (do return m :: (← q.drain dlqUrl url attempts))
          (do return m' :: (← q.drain dlqUrl url attempts))
          (fun ms ms' w w' => ms'.map (·.report p) = ms.map (·.report p) ∧ World.Twin L slot D M n k late w w') := by
      refine Abreast.bind_of ih fun ms ms' hms => Abreast.pure fun w w' hw => ⟨?_, hw⟩
      rw [List.map_cons, List.map_cons, hms, hm]
    refine Abreast.bind_of isLate_abreast ?_
    rintro b b' ⟨hb, hb'⟩
    rw [hb, hb']
    cases late with
    | true => exact Abreast.pure fun _ _ hw => ⟨rfl, hw⟩
    | false =>
      refine Abreast.bind (moveOne_abreast hD hM hne p) ?_
      intro o o' w w' ho
      match o, o', ho with
      | .error e, .error e', hw => exact ih w w' hw
      | .ok none, .ok none, ho => exact ih w w' ho.2
      | .ok (some m), .ok (some m'), ho =>
        exact hcons (Option.some.inj ho.1) w w' ho.2

/-- A retry returns the same in both worlds, or fails in both. -/
theorem retry_abreast (hurl : ∀ queue, L.url queue (urlOf queue)) (hq : L.Covers q)
    (hD : ∀ u, L.fact q.slot (.dlqUrl u) → queueNameOfUrl u = D)
    (hM : ∀ u, L.fact q.slot (.url u) → queueNameOfUrl u = M) (hne : D ≠ M) (p : NumberPolicy) :
    Abreast (World.Twin L q.slot D M n k late) (q.retry p).result (q.retry p).result
      (Returns L q.slot D M n k late fun _ => True) := by
  unfold retry
  cases hd : q.dlq with
  | none => exact Returns.pure trivial
  | some d =>
    refine Returns.attempt (returns_urlOfDlq hurl hq hd) fun dlqUrl hdlq => ?_
    refine Returns.attempt (returns_queueAttributes (hD _ hdlq)) fun attributes _ => ?_
    dsimp only
    split
    · exact Returns.pure trivial
    · refine Returns.attempt (returns_url hurl hq) fun url hurl => ?_
      refine Abreast.attempt (Abreast.lift (drain_abreast (hD _ hdlq) (hM _ hurl) hne p _)) ?_ (fun _ _ _ _ hw => hw)
      rintro ms ms' w w' ⟨hms, hw⟩
      have hlength : ms'.length = ms.length := by
        have := congrArg List.length hms
        rwa [List.length_map, List.length_map] at this
      refine ⟨⟨?_, trivial⟩, hw.store, hw.sound, hw.known, hw.agrees, hw.generated, hw.clock⟩
      rw [hms]

end QueueHandle

end Twin

end DeadLetter
