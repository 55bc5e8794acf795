import DeadLetter.Proofs.Service.Answered

/-!
# What a queue asks for, and keeps

What is known about a queue only grows, whatever is done by anybody (`World.Later.grows`). An `Inquiry` is an attempt to
find something out, with what is kept of it, what the provider answers now and the calls that it takes to ask.
`Inquiry.Settles` : once found it is found ever after without a call; until then every attempt asks and returns the
provider's answer, and what is kept is what was found. Whatever is asked `once` is such an inquiry
(`Attempt.once_keeps`), so the two URLs of a queue and its limit are: `QueueHandle.urlInquiry_keeps`,
`QueueHandle.dlqUrlInquiry_keeps`, `QueueHandle.limitInquiry_keeps`.
-/

namespace DeadLetter

set_option autoImplicit false

/-! ## What is known grows -/

/-- What is known stays known. -/
structure Known.Grows (k k' : Known) : Prop where
  url : ∀ u, k.url = some u → k'.url = some u
  dlqUrl : ∀ u, k.dlqUrl = some u → k'.dlqUrl = some u
  maxReceiveCount : ∀ c, k.maxReceiveCount = some c → k'.maxReceiveCount = some c

namespace Known.Grows
variable {k k' k'' : Known}

theorem refl (k : Known) : k.Grows k := ⟨fun _ h => h, fun _ h => h, fun _ h => h⟩

theorem trans (h : k.Grows k') (h' : k'.Grows k'') : k.Grows k'' :=
  ⟨fun u hu => h'.url u (h.url u hu), fun u hu => h'.dlqUrl u (h.dlqUrl u hu),
    fun c hc => h'.maxReceiveCount c (h.maxReceiveCount c hc)⟩

theorem learn (k : Known) (f : Fact) : k.Grows (k.learn f) := by
  cases f <;> constructor <;> intro v hv <;> simp [Known.learn, hv]

end Known.Grows

/-- Somebody takes an action, or something is changed from outside. -/
inductive World.Step : World → World → Prop
  | act (w : World) (a : Action) : Step w (w.perform a).2
  | control (w : World) (c : Memory.Control) : Step w { w with provider := c.apply w.provider }

abbrev World.Later : World → World → Prop := Relation.ReflTransGen World.Step

/-- The fact that an action teaches about a queue. -/
def Action.fact? (slot : Nat) : Action → Option Fact
  | .learn i f => if i = slot then some f else none
  | _ => none

theorem World.known_perform (w : World) (a : Action) (slot : Nat) :
    (w.perform a).2.known slot = (a.fact? slot).toList.foldl .learn (w.known slot) := by
  cases a with
  | learn i f =>
    show (if slot = i then (w.known slot).learn f else w.known slot) = _
    by_cases hi : i = slot
    · simp [Action.fact?, hi]
    · simp [Action.fact?, hi, Ne.symm hi]
  | _ => rfl

theorem World.known_perform_of_none {slot : Nat} {a : Action} (ha : a.fact? slot = none) (w : World) :
    (w.perform a).2.known slot = w.known slot := by
  rw [w.known_perform, ha]
  rfl

theorem World.grows_perform (w : World) (a : Action) (slot : Nat) :
    (w.known slot).Grows ((w.perform a).2.known slot) := by
  rw [w.known_perform]
  cases a.fact? slot with
  | none => exact .refl _
  | some f => exact .learn _ f

theorem World.Later.grows {w w' : World} (h : w.Later w') (slot : Nat) : (w.known slot).Grows (w'.known slot) := by
  induction h with
  | refl => exact .refl _
  | tail _ hstep ih =>
    cases hstep with
    | act a => exact ih.trans (World.grows_perform _ a slot)
    | control c => exact ih

/-! ## Calls of a run -/

def Entry.call? : Entry → Option Call
  | ⟨.call c, _⟩ => some c
  | _ => none

def Routine.calls {α : Type} (r : Routine α) (w : World) : List Call := (r.journal w).filterMap Entry.call?

theorem Attempt.calls_bind {α β : Type} (x : Attempt α) (f : α → Attempt β) (w : World) :
    (x >>= f).result.calls w = x.result.calls w ++
      match x.result.run w with
      | (.ok a, w') => (f a).result.calls w'
      | (.error _, _) => [] := by
  unfold Routine.calls
  rw [Attempt.journal_bind, List.filterMap_append]
  rcases x.result.run w with ⟨o, w'⟩
  cases o <;> rfl

/-! ## Inquiries -/

/-- An attempt to find something out, what is kept of it, what the provider answers, and the calls that ask it. -/
structure Inquiry (α : Type) where
  attempt : Attempt α
  kept : Known → Option α
  answer : World → Except QueueError α
  asks : World → List Call

namespace Inquiry
variable {α : Type} {i : Inquiry α} {slot : Nat}

/-- What an inquiry does, by whether something is kept of it among what is known in a slot. -/
structure Keeps (i : Inquiry α) (slot : Nat) : Prop where
  grows : ∀ k k' v, k.Grows k' → i.kept k = some v → i.kept k' = some v
  run_of_some : ∀ w v, i.kept (w.known slot) = some v → i.attempt.result.run w = (.ok v, w)
  run_of_none : ∀ w, i.kept (w.known slot) = none → ∃ w', i.attempt.result.run w = (i.answer w, w') ∧
    i.kept (w'.known slot) = (i.answer w).toOption
  calls : ∀ w, i.attempt.result.calls w = if (i.kept (w.known slot)).isSome then [] else i.asks w
  asks : ∀ w, i.kept (w.known slot) = none → i.asks w ≠ []

/-- Something is found out once and for all. -/
structure Settles (i : Inquiry α) (slot : Nat) : Prop where
  /-- What was found is found ever after, whatever is done in between, and no call is made for it. -/
  stable : ∀ w v w₁, i.attempt.result.run w = (.ok v, w₁) → ∀ w', w₁.Later w' →
    i.attempt.result.run w' = (.ok v, w') ∧ i.attempt.result.calls w' = []
  /-- While nothing is kept, the provider is asked, and its answer is returned. -/
  current : ∀ w, i.kept (w.known slot) = none →
    i.attempt.result.calls w = i.asks w ∧ i.asks w ≠ [] ∧ (i.attempt.result.run w).1 = i.answer w
  /-- What was found is kept, and nothing else is. -/
  keeps : ∀ w, i.kept ((i.attempt.result.run w).2.known slot) = (i.attempt.result.run w).1.toOption

theorem Keeps.kept_run (h : i.Keeps slot) (w : World) :
    i.kept ((i.attempt.result.run w).2.known slot) = (i.attempt.result.run w).1.toOption := by
  cases hkept : i.kept (w.known slot) with
  | some v =>
    rw [h.run_of_some w v hkept, hkept]
    rfl
  | none =>
    obtain ⟨w', hrun, hafter⟩ := h.run_of_none w hkept
    rw [hrun, hafter]

theorem Keeps.settles (h : i.Keeps slot) : i.Settles slot where
  stable w v w₁ hrun w' hlater := by
    have hfound : i.kept (w₁.known slot) = some v := by
      have hafter := h.kept_run w
      rw [hrun] at hafter
      exact hafter
    have hkept := h.grows _ _ v (hlater.grows slot) hfound
    refine ⟨h.run_of_some w' v hkept, ?_⟩
    rw [h.calls, hkept]
    rfl
  current w hnone := by
    obtain ⟨w', hrun, _⟩ := h.run_of_none w hnone
    refine ⟨?_, h.asks w hnone, by rw [hrun]⟩
    rw [h.calls, hnone]
    rfl
  keeps := h.kept_run

/-- What there is no need to ask for is found at once. -/
theorem keeps_pure (v : α) (answer : World → Except QueueError α) (asks : World → List Call) (slot : Nat) :
    Keeps ⟨pure v, fun _ => some v, answer, asks⟩ slot where
  grows _ _ _ _ h := h
  run_of_some w v' h := by
    cases h
    rfl
  run_of_none _ h := nomatch h
  calls _ := rfl
  asks _ h := nomatch h

theorem Keeps.map {β : Type} (h : i.Keeps slot) (f : α → β) :
    Keeps ⟨i.attempt >>= fun a => pure (f a), fun k => (i.kept k).map f, fun w => (i.answer w).map f, i.asks⟩ slot where
  grows k k' v hgrows hkept := by
    obtain ⟨a, ha, hv⟩ := Option.map_eq_some_iff.mp hkept
    exact Option.map_eq_some_iff.mpr ⟨a, h.grows k k' a hgrows ha, hv⟩
  run_of_some w v hkept := by
    obtain ⟨a, ha, rfl⟩ := Option.map_eq_some_iff.mp hkept
    rw [Attempt.run_bind, h.run_of_some w a ha]
    rfl
  run_of_none w hnone := by
    obtain ⟨w', hrun, hafter⟩ := h.run_of_none w (Option.map_eq_none_iff.mp hnone)
    refine ⟨w', ?_, ?_⟩
    · rw [Attempt.run_bind, hrun]
      dsimp only
      cases i.answer w <;> rfl
    · dsimp only
      rw [hafter]
      cases i.answer w <;> rfl
  calls w := by
    show (i.attempt >>= fun a => pure (f a)).result.calls w = _
    unfold Routine.calls
    rw [Attempt.journal_map, Option.isSome_map]
    exact h.calls w
  asks w hnone := h.asks w (Option.map_eq_none_iff.mp hnone)

end Inquiry

/-! ## Finding out once -/

/-- Returns what is kept among the facts of a slot, or else finds it out and keeps it there. -/
def Attempt.once {α : Type} (slot : Nat) (kept : Known → Option α) (fact : α → Fact) (ask : Attempt α) : Attempt α := do
  match kept (← Attempt.facts slot) with
  | some v => return v
  | none =>
    let v ← ask
    Attempt.learn slot (fact v)
    return v

section Once
variable {α : Type} {slot : Nat} {kept : Known → Option α} {fact : α → Fact} {ask : Attempt α} {w : World}

theorem Attempt.once_of_some {v : α} (h : kept (w.known slot) = some v) :
    (Attempt.once slot kept fact ask).result.run w = (.ok v, w) := by
  rw [Attempt.once, Attempt.run_bind, Attempt.run_facts]
  dsimp only
  rw [h]
  rfl

theorem Attempt.once_of_none (h : kept (w.known slot) = none) :
    (Attempt.once slot kept fact ask).result.run w =
      match ask.result.run w with
      | (.ok v, w') => (.ok v, (w'.perform (.learn slot (fact v))).2)
      | (.error e, w') => (.error e, w') := by
  rw [Attempt.once, Attempt.run_bind, Attempt.run_facts]
  dsimp only
  rw [h]
  dsimp only
  rw [Attempt.run_bind]
  rcases ask.result.run w with ⟨o, w'⟩
  cases o <;> rfl

theorem Attempt.once_calls (w : World) :
    (Attempt.once slot kept fact ask).result.calls w =
      if (kept (w.known slot)).isSome then [] else ask.result.calls w := by
  rw [Attempt.once, Attempt.calls_bind, Attempt.run_facts]
  dsimp only
  cases kept (w.known slot) with
  | some v => rfl
  | none =>
    dsimp only
    rw [Attempt.calls_bind]
    rcases ask.result.run w with ⟨o, w'⟩
    cases o <;> exact List.append_nil _

/-- Whatever is asked, it is asked until it is answered, and the answer kept. -/
theorem Attempt.once_keeps {answer : World → Except QueueError α} {asks : World → List Call}
    (hgrows : ∀ k k' v, k.Grows k' → kept k = some v → kept k' = some v)
    (hlearn : ∀ k v, kept k = none → kept (k.learn (fact v)) = some v)
    (hask : ∀ w, kept (w.known slot) = none →
      ∃ w', ask.result.run w = (answer w, w') ∧ kept (w'.known slot) = none)
    (hcalls : ∀ w, ask.result.calls w = asks w) (hasks : ∀ w, asks w ≠ []) :
    Inquiry.Keeps ⟨.once slot kept fact ask, kept, answer, asks⟩ slot where
  grows := hgrows
  run_of_some w v hkept := Attempt.once_of_some hkept
  run_of_none w hnone := by
    obtain ⟨w', hrun, hafter⟩ := hask w hnone
    dsimp only
    rw [Attempt.once_of_none hnone, hrun]
    cases answer w with
    | error e => exact ⟨w', rfl, hafter⟩
    | ok v =>
      refine ⟨_, rfl, ?_⟩
      rw [QueueHandle.known_learn]
      exact hlearn _ v hafter
  calls w := by
    dsimp only
    rw [← hcalls]
    exact Attempt.once_calls w
  asks w _ := hasks w

end Once

/-- The URL that a look-up returns: the one that is kept, else what the provider answers. -/
def World.urlIn (w : World) (kept : Option String) (name : String) : Except QueueError String :=
  match kept with
  | some u => .ok u
  | none => (w.provider.queues.queueUrl name).1

/-! ## The inquiries of a queue -/

namespace QueueHandle
variable (q : QueueHandle)

theorem lookUp_eq_once (slot : Nat) (kept : Known → Option String) (fact : String → Fact) (name : String) :
    lookUp slot kept fact name = .once slot kept fact (.call (.queueUrl name)) := by
  unfold lookUp Attempt.once
  congr
  funext k
  cases kept k <;> rfl

theorem lookUp_keeps (slot : Nat) (kept : Known → Option String) (fact : String → Fact)
    (hgrows : ∀ k k' u, k.Grows k' → kept k = some u → kept k' = some u)
    (hlearn : ∀ k u, kept k = none → kept (k.learn (fact u)) = some u) (name : String) :
    Inquiry.Keeps ⟨lookUp slot kept fact name, kept, fun w => (w.provider.queues.queueUrl name).1,
      fun _ => [.queueUrl name]⟩ slot := by
  rw [lookUp_eq_once]
  exact Attempt.once_keeps hgrows hlearn (fun w hnone => ⟨_, rfl, hnone⟩) (fun _ => rfl) fun _ => List.cons_ne_nil _ _

def urlInquiry : Inquiry String where
  attempt := q.url
  kept k := k.url
  answer w := (w.provider.queues.queueUrl q.name).1
  asks _ := [.queueUrl q.name]

theorem urlInquiry_keeps : q.urlInquiry.Keeps q.slot :=
  lookUp_keeps q.slot (·.url) .url (fun _ _ u h => h.url u) (fun k u hnone => by simp [Known.learn, hnone]) q.name

/-- The URL of the dead letter queue. Without one there is nothing to ask. -/
def dlqUrlInquiry : Inquiry (Option String) where
  attempt := q.dlqUrl
  kept k := if q.dlq.isNone then some none else k.dlqUrl.map some
  answer w := match q.dlq with
    | none => .ok none
    | some dlq => (w.provider.queues.queueUrl dlq.name).1.map some
  asks _ := q.dlq.toList.map (.queueUrl ·.name)

theorem dlqUrlInquiry_keeps : q.dlqUrlInquiry.Keeps q.slot := by
  unfold dlqUrlInquiry dlqUrl
  cases q.dlq with
  | none => exact Inquiry.keeps_pure _ _ _ _
  | some dlq =>
    have hlookUp := lookUp_keeps q.slot (·.dlqUrl) .dlqUrl (fun _ _ u h => h.dlqUrl u)
      (fun k u hnone => by simp [Known.learn, hnone]) dlq.name
    exact hlookUp.map some

/-- The limit of deliveries. Without a dead letter queue there is none, and nothing to ask. -/
def limitInquiry : Inquiry (Option Nat) where
  attempt := q.maxReceiveCount
  kept k := if q.dlq.isNone then some none else k.maxReceiveCount
  answer w := do
    let url ← w.urlIn (w.known q.slot).url q.name
    let attributes ← (w.provider.queues.queueAttributes url).1
    return attributes.redrive.map (·.maxReceiveCount)
  asks w :=
    (if (w.known q.slot).url.isSome then [] else [.queueUrl q.name]) ++
      match w.urlIn (w.known q.slot).url q.name with
      | .ok url => [.queueAttributes url]
      | .error _ => []

/-- Reads the limit from the redrive policy. -/
def readLimit : Attempt (Option Nat) := do
  let url ← q.url
  let attributes ← Attempt.call (.queueAttributes url)
  return attributes.redrive.map (·.maxReceiveCount)

theorem maxReceiveCount_eq_once {dlq : DlqHandle} (hd : q.dlq = some dlq) :
    q.maxReceiveCount = .once q.slot (·.maxReceiveCount) .maxReceiveCount q.readLimit := by
  unfold maxReceiveCount Attempt.once readLimit
  rw [hd]
  simp only [Option.isNone_some, Bool.false_eq_true, if_false, bind_assoc, pure_bind]
  congr
  funext k
  cases k.maxReceiveCount <;> rfl

/-- Looking up its URL, a queue finds the same attributes as before and learns nothing about its limit. -/
theorem run_url (w : World) : ∃ w', q.url.result.run w = (w.urlIn (w.known q.slot).url q.name, w') ∧
    (w'.known q.slot).url = (w.urlIn (w.known q.slot).url q.name).toOption ∧
    (w'.known q.slot).maxReceiveCount = (w.known q.slot).maxReceiveCount ∧
    ∀ url, (w'.provider.queues.queueAttributes url).1 = (w.provider.queues.queueAttributes url).1 := by
  have hattributes (url : String) : ((q.url.result.run w).2.provider.queues.queueAttributes url).1 =
      (w.provider.queues.queueAttributes url).1 :=
    (q.url_consults.sameAnswers w).reply_eq (c := .queueAttributes url) rfl
  revert hattributes
  rw [url_eq]
  unfold World.urlIn
  rcases lookUp_cases q.slot (·.url) .url q.name w with ⟨u, hu, hrun⟩ | ⟨hu, u, hreply, hrun⟩ | ⟨hu, e, hreply, hrun⟩
  · rw [hu, hrun]
    exact fun hattributes => ⟨w, rfl, hu, rfl, hattributes⟩
  · rw [hu, hreply, hrun]
    refine fun hattributes => ⟨_, rfl, ?_, ?_, hattributes⟩
    · rw [known_learn]
      exact congrArg (· <|> some u) hu
    · rw [known_learn]
      rfl
  · rw [hu, hreply, hrun]
    exact fun hattributes => ⟨_, rfl, hu, rfl, hattributes⟩

/-- Reading the limit keeps the URL that was found on the way, also if the attributes cannot be read then. -/
theorem run_readLimit (w : World) : ∃ w', q.readLimit.result.run w = (q.limitInquiry.answer w, w') ∧
    (w'.known q.slot).url = (w.urlIn (w.known q.slot).url q.name).toOption ∧
    (w'.known q.slot).maxReceiveCount = (w.known q.slot).maxReceiveCount := by
  obtain ⟨w', hrun, hurl, hlimit, hattributes⟩ := q.run_url w
  unfold readLimit limitInquiry
  rw [Attempt.run_bind, hrun]
  dsimp only
  cases hfound : w.urlIn (w.known q.slot).url q.name with
  | error e => exact ⟨w', rfl, hurl.trans (by rw [hfound]), hlimit⟩
  | ok url =>
    have hcall : (Attempt.call (.queueAttributes url)).result.run w' =
        ((w.provider.queues.queueAttributes url).1, (w'.perform (.call (.queueAttributes url))).2) := by
      rw [← hattributes]
      rfl
    dsimp only
    rw [Attempt.run_bind, hcall]
    refine ⟨(w'.perform (.call (.queueAttributes url))).2, ?_, hurl.trans (by rw [hfound]), hlimit⟩
    dsimp only [bind, Except.bind]
    cases (w.provider.queues.queueAttributes url).1 <;> rfl

theorem readLimit_calls (w : World) : q.readLimit.result.calls w = q.limitInquiry.asks w := by
  obtain ⟨w', hrun, -⟩ := q.run_url w
  have hurl : q.url.result.calls w = if (w.known q.slot).url.isSome then [] else [.queueUrl q.name] :=
    q.urlInquiry_keeps.calls w
  unfold readLimit limitInquiry
  rw [Attempt.calls_bind, hurl, hrun]
  congr 1
  cases w.urlIn (w.known q.slot).url q.name with
  | error e => rfl
  | ok url =>
    dsimp only
    rw [Attempt.calls_bind]
    show [Call.queueAttributes url] ++ _ = _
    rcases (Attempt.call (.queueAttributes url)).result.run w' with ⟨o, w''⟩
    cases o <;> rfl

theorem limitInquiry_asks (w : World) : q.limitInquiry.asks w ≠ [] := by
  cases hurl : (w.known q.slot).url <;> simp [limitInquiry, World.urlIn, hurl]

theorem limitInquiry_of_no_dlq (hd : q.dlq = none) :
    q.limitInquiry = ⟨pure none, fun _ => some none, q.limitInquiry.answer, q.limitInquiry.asks⟩ := by
  unfold limitInquiry maxReceiveCount
  rw [hd]
  rfl

theorem limitInquiry_of_dlq {dlq : DlqHandle} (hd : q.dlq = some dlq) :
    q.limitInquiry = ⟨.once q.slot (·.maxReceiveCount) .maxReceiveCount q.readLimit, (·.maxReceiveCount),
      q.limitInquiry.answer, q.limitInquiry.asks⟩ := by
  rw [← q.maxReceiveCount_eq_once hd]
  unfold limitInquiry
  rw [hd]
  rfl

theorem limitInquiry_keeps : q.limitInquiry.Keeps q.slot := by
  cases hd : q.dlq with
  | none =>
    rw [q.limitInquiry_of_no_dlq hd]
    exact Inquiry.keeps_pure _ _ _ _
  | some dlq =>
    rw [q.limitInquiry_of_dlq hd]
    refine Attempt.once_keeps (fun _ _ c h => h.maxReceiveCount c) (fun k c hnone => ?_) (fun w hnone => ?_)
      q.readLimit_calls q.limitInquiry_asks
    · simp [Known.learn, hnone]
    · obtain ⟨w', hrun, -, hlimit⟩ := q.run_readLimit w
      exact ⟨w', hrun, hlimit.trans hnone⟩

/-- Whether the limit can be read or not, the URL that is found on the way to it is kept. -/
theorem run_maxReceiveCount_url {dlq : DlqHandle} (hd : q.dlq = some dlq) {w : World}
    (hnone : (w.known q.slot).maxReceiveCount = none) :
    ((q.maxReceiveCount.result.run w).2.known q.slot).url = (w.urlIn (w.known q.slot).url q.name).toOption := by
  obtain ⟨w', hrun, hurl, -⟩ := q.run_readLimit w
  rw [q.maxReceiveCount_eq_once hd, Attempt.once_of_none hnone, hrun]
  cases q.limitInquiry.answer w with
  | error e => exact hurl
  | ok count =>
    show (((w'.perform (.learn q.slot (.maxReceiveCount count))).2).known q.slot).url = _
    rw [known_learn]
    exact hurl

/-- A queue whose URL can be found while its attributes cannot be read. -/
theorem exists_limit_unread (hd : q.dlq.isSome) : ∃ w : World, w.known q.slot = {} ∧
    (∃ e, (q.maxReceiveCount.result.run w).1 = .error e) ∧
    ((q.maxReceiveCount.result.run w).2.known q.slot).url = some (QueueStore.urlOf q.name) := by
  obtain ⟨dlq, hdlq⟩ := Option.isSome_iff_exists.mp hd
  let store : QueueStore := { queues := [(q.name, {})], failingOperations := [.getQueueAttributes] }
  let w : World := { provider := { queues := store } }
  have hpresent : (store.queues.get? q.name).isSome := by simp [store, Dict.get?]
  have hurl : w.urlIn (w.known q.slot).url q.name = .ok (QueueStore.urlOf q.name) := by
    show (store.queueUrl q.name).1 = _
    rw [QueueStore.queueUrl_eq, if_neg (by simp [QueueStore.fails, store]), if_pos hpresent]
  have hattributes : (store.queueAttributes (QueueStore.urlOf q.name)).1 =
      .error (QueueStore.injected .getQueueAttributes) := by
    rw [QueueStore.queueAttributes_eq, if_pos (by simp [QueueStore.fails, store])]
  refine ⟨w, rfl, ⟨QueueStore.injected .getQueueAttributes, ?_⟩, ?_⟩
  · obtain ⟨w', hrun, -⟩ := q.limitInquiry_keeps.run_of_none w (by simp [limitInquiry, hdlq, w])
    have hrun : q.maxReceiveCount.result.run w = (q.limitInquiry.answer w, w') := hrun
    rw [hrun]
    unfold limitInquiry
    dsimp only
    rw [hurl]
    dsimp only [bind, Except.bind]
    rw [hattributes]
  · rw [q.run_maxReceiveCount_url hdlq rfl, hurl]
    rfl

end QueueHandle

end DeadLetter
