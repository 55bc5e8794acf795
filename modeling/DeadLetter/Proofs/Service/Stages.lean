import DeadLetter.Proofs.Service.Checks

/-!
# When a component is up

What a check reads is what the handle finds by its look-ups (`QueueHandle.attributes_toOption`,
`QueueHandle.dlqAttributes_toOption`). The health of a queue is told in two stages, `Health.readMain` of the queue and
`Health.readDlq` of its dead letter queue: `QueueHandle.health_of_no_dlq`, `QueueHandle.health_of_dlq`.
`QueueHandle.health_up_iff`, `TopicHandle.health_up_iff` and `BucketHandle.health_up_iff` say when a check finds its
component up.
-/

namespace DeadLetter

set_option autoImplicit false

open QueueStore Routine

/-! ## What a queue finds -/

/-- The URL that a look-up returns: the one that is kept, else the one that the provider gives out. -/
def World.urlFor? (w : World) (kept : Option String) (name : String) : Option String :=
  kept <|> (w.provider.queues.queueUrl name).1.toOption

/-- The attributes that the provider returns for a URL. -/
def World.attributesAt? (w : World) (url : String) : Option QueueAttributes :=
  (w.provider.queues.queueAttributes url).1.toOption

theorem World.attributesAt?_urlOf {w : World} {name : String} {s : QueueState}
    (hf : w.provider.queues.fails .getQueueAttributes (addressed name) = false)
    (hs : w.provider.queues.queues.get? (addressed name) = some s) :
    w.attributesAt? (urlOf name) = some (attributesOf (addressed name) s) := by
  unfold World.attributesAt?
  rw [queueAttributes_eq, ← addressed, hf, if_neg Bool.false_ne_true, hs]
  rfl

namespace QueueHandle
variable (q : QueueHandle) (w : World)

def attributesIn? : Option QueueAttributes := (w.urlFor? (w.known q.slot).url q.name).bind w.attributesAt?

/-- The attributes of the dead letter queue as the queue finds them. -/
def dlqAttributesIn? (dlq : String) : Option QueueAttributes :=
  (w.urlFor? (w.known q.slot).dlqUrl dlq).bind w.attributesAt?

/-- What a check finds of the dead letter queue, if there is one. It does not look where it read that the queue has no
redrive policy. -/
def dlqFoundIn? : Option QueueAttributes :=
  q.dlq.bind fun dlq =>
    match q.attributesIn? w with
    | some { redrive := none, .. } => none
    | _ => q.dlqAttributesIn? w dlq.name

/-- A queue can be read, and if it has a dead letter queue, has a redrive policy and that queue can be read too. -/
structure Works : Prop where
  main : (q.attributesIn? w).isSome
  redrive : q.dlq.isSome → ∀ a, q.attributesIn? w = some a → a.redrive.isSome
  dlq : ∀ d, q.dlq = some d → (q.dlqAttributesIn? w d.name).isSome

variable {q w}

/-- A look-up returns the URL that is kept, or asks for it: then it learns the URL, or fails. -/
theorem lookUp_cases (slot : Nat) (kept : Known → Option String) (fact : String → Fact) (name : String) (w : World) :
    (∃ u, kept (w.known slot) = some u ∧ (lookUp slot kept fact name).result.run w = (.ok u, w)) ∨
    (kept (w.known slot) = none ∧ ∃ u, (w.provider.queues.queueUrl name).1 = .ok u ∧
      (lookUp slot kept fact name).result.run w =
        (.ok u, ((w.perform (.call (.queueUrl name))).2.perform (.learn slot (fact u))).2)) ∨
    (kept (w.known slot) = none ∧ ∃ e, (w.provider.queues.queueUrl name).1 = .error e ∧
      (lookUp slot kept fact name).result.run w = (.error e, (w.perform (.call (.queueUrl name))).2)) := by
  unfold lookUp
  rw [Attempt.run_bind, Attempt.run_facts]
  dsimp only
  cases hkept : kept (w.known slot) with
  | some u => exact Or.inl ⟨u, rfl, rfl⟩
  | none =>
    have hcall : (Attempt.call (.queueUrl name)).result.run w =
        ((w.provider.queues.queueUrl name).1, (w.perform (.call (.queueUrl name))).2) := rfl
    rw [Attempt.run_bind, hcall]
    cases hreply : (w.provider.queues.queueUrl name).1 with
    | ok u => exact Or.inr (Or.inl ⟨rfl, u, rfl, rfl⟩)
    | error e => exact Or.inr (Or.inr ⟨rfl, e, rfl, rfl⟩)

theorem lookUp_toOption (slot : Nat) (kept : Known → Option String) (fact : String → Fact) (name : String) (w : World) :
    ((lookUp slot kept fact name).result.run w).1.toOption = w.urlFor? (kept (w.known slot)) name := by
  unfold World.urlFor?
  rcases lookUp_cases slot kept fact name w with ⟨u, hkept, hrun⟩ | ⟨hkept, u, hreply, hrun⟩ | ⟨hkept, e, hreply, hrun⟩
  · rw [hkept, hrun]
    rfl
  · rw [hkept, hreply, hrun]
    rfl
  · rw [hkept, hreply, hrun]
    rfl

/-- What a queue learns when it looks up its own URL leaves the other one as it was. -/
theorem url_keeps_dlqUrl (q : QueueHandle) (w : World) :
    ((q.url.result.run w).2.known q.slot).dlqUrl = (w.known q.slot).dlqUrl := by
  rw [url_eq]
  rcases lookUp_cases q.slot (·.url) .url q.name w with ⟨_, _, hrun⟩ | ⟨_, u, _, hrun⟩ | ⟨_, _, _, hrun⟩
  · rw [hrun]
  · rw [hrun]
    show (if q.slot = q.slot then (w.known q.slot).learn (.url u) else w.known q.slot).dlqUrl = _
    rw [if_pos rfl]
    rfl
  · rw [hrun]
    rfl

theorem read_toOption {slots : Nat → Prop} {x : Attempt String} (h : Only (Action.Consults slots) x.result)
    (w : World) :
    ((x >>= fun url => Attempt.call (.queueAttributes url)).result.run w).1.toOption =
      (x.result.run w).1.toOption.bind w.attributesAt? := by
  have hsame := h.sameAnswers w
  rw [Attempt.run_bind]
  generalize x.result.run w = ran at hsame ⊢
  obtain ⟨o, w'⟩ := ran
  cases o with
  | error e => rfl
  | ok url =>
    show ((w'.provider.perform (.queueAttributes url)).1).toOption = _
    rw [hsame.reply_eq rfl]
    rfl

theorem attributes_toOption (q : QueueHandle) (w : World) :
    (q.attributes.result.run w).1.toOption = q.attributesIn? w := by
  rw [attributes, read_toOption q.url_consults, url_eq, lookUp_toOption]
  rfl

theorem dlqAttributes_toOption {d : DlqHandle} (hd : q.dlq = some d) (w : World) :
    ((q.dlqAttributes d.name).result.run w).1.toOption = q.dlqAttributesIn? w d.name := by
  rw [dlqAttributes, read_toOption (q.urlOfDlq_consults hd), urlOfDlq_eq, lookUp_toOption]
  rfl

/-- Reading its own attributes leaves a queue with the same view of its dead letter queue. -/
theorem dlqAttributesIn?_after (q : QueueHandle) (w : World) (dlq : String) :
    q.dlqAttributesIn? (q.attributes.result.run w).2 dlq = q.dlqAttributesIn? w dlq := by
  have hsame := q.attributes_consults.sameAnswers w
  have hknown : ((q.attributes.result.run w).2.known q.slot).dlqUrl = (w.known q.slot).dlqUrl := by
    rw [← q.url_keeps_dlqUrl w, attributes, Attempt.run_bind]
    rcases q.url.result.run w with ⟨o, w'⟩
    cases o <;> rfl
  generalize (q.attributes.result.run w).2 = w' at hsame hknown ⊢
  have hurl : (w'.provider.queues.queueUrl dlq).1 = (w.provider.queues.queueUrl dlq).1 :=
    hsame.reply_eq (c := .queueUrl dlq) rfl
  have hread : w'.attributesAt? = w.attributesAt? := by
    funext url
    exact congrArg Except.toOption (hsame.reply_eq (c := .queueAttributes url) rfl)
  unfold dlqAttributesIn? World.urlFor?
  rw [hknown, hurl, hread]

end QueueHandle

/-! ## The two stages of the health of a queue -/

namespace Health

def readMain (h : Health) : Except QueueError QueueAttributes → Health
  | .ok a => (h.detail "messagesOnQueue" (.int a.messages)).detail "messagesInFlight" (.int a.inFlight)
  | .error e => h.fail e.message

/-- What is told of the dead letter queue, or why it was not read. -/
def readDlq (h : Health) : Except String QueueAttributes → Health
  | .ok a => (h.detail "dlqStatus" (.string HealthStatus.up.name)).detail "messagesOnDlq" (.int a.messages)
  | .error reason => (h.detail "dlqStatus" (.string HealthStatus.down.name)).fail reason

theorem status_readMain (h : Health) (o : Except QueueError QueueAttributes) :
    (h.readMain o).status = .up ↔ h.status = .up ∧ o.toOption.isSome := by
  cases o with
  | ok a => exact ⟨fun hup => ⟨hup, rfl⟩, fun hup => hup.1⟩
  | error e => exact ⟨nofun, fun hup => nomatch hup.2⟩

theorem status_readDlq (h : Health) (o : Except String QueueAttributes) :
    (h.readDlq o).status = .up ↔ h.status = .up ∧ o.toOption.isSome := by
  cases o with
  | ok a => exact ⟨fun hup => ⟨hup, rfl⟩, fun hup => hup.1⟩
  | error reason => exact ⟨nofun, fun hup => nomatch hup.2⟩

end Health

namespace QueueHandle
variable {q : QueueHandle}

theorem addDlqHealth_eq_readDlq {dlq : DlqHandle} (hd : q.dlq = some dlq) (h : Health) (w : World) :
    ∃ o : Except String QueueAttributes, o.toOption = q.dlqAttributesIn? w dlq.name ∧
      ((q.addDlqHealth dlq.name h).run w).1 = h.readDlq o := by
  have hread := dlqAttributes_toOption hd w
  unfold addDlqHealth
  rw [Routine.run_bind, ← hread]
  generalize (q.dlqAttributes dlq.name).result.run w = ran
  obtain ⟨o, w'⟩ := ran
  cases o with
  | ok a => exact ⟨.ok a, rfl, rfl⟩
  | error e => exact ⟨.error e.message, rfl, rfl⟩

theorem health_of_no_dlq (hd : q.dlq = none) (w : World) :
    ∃ o : Except QueueError QueueAttributes, o.toOption = q.attributesIn? w ∧
      (q.health.run w).1 = (Health.start "queueName" q.name).readMain o := by
  have hread := q.attributes_toOption w
  refine ⟨(q.attributes.result.run w).1, hread, ?_⟩
  unfold health
  rw [Routine.run_bind, hd]
  rfl

theorem health_of_dlq {dlq : DlqHandle} (hd : q.dlq = some dlq) (w : World) :
    ∃ (o : Except QueueError QueueAttributes) (o' : Except String QueueAttributes),
      o.toOption = q.attributesIn? w ∧ o'.toOption = q.dlqFoundIn? w ∧
      (q.health.run w).1 =
        (((Health.start "queueName" q.name).readMain o).detail "dlqName" (.string dlq.name)).readDlq o' := by
  have hread := q.attributes_toOption w
  have hafter := q.dlqAttributesIn?_after w dlq.name
  unfold health dlqFoundIn?
  rw [Routine.run_bind, hd, Option.bind_some, ← hread]
  generalize q.attributes.result.run w = ran at hafter ⊢
  obtain ⟨o, w'⟩ := ran
  obtain ⟨o', ho', hrun⟩ := addDlqHealth_eq_readDlq hd
    (((Health.start "queueName" q.name).readMain o).detail "dlqName" (.string dlq.name)) w'
  rw [hafter] at ho'
  cases o with
  | error e => exact ⟨_, o', rfl, ho', hrun⟩
  | ok a =>
    obtain ⟨arn, messages, inFlight, redrive⟩ := a
    cases redrive with
    | none => exact ⟨_, .error "The main queue has no redrive policy", rfl, rfl, rfl⟩
    | some policy => exact ⟨_, o', rfl, ho', hrun⟩

/-! ## Components that are up -/

/-- A dead letter queue is found where it can be read, unless the queue was read to have no redrive policy. -/
theorem isSome_dlqFoundIn? {dlq : DlqHandle} (hd : q.dlq = some dlq) (w : World) :
    (q.dlqFoundIn? w).isSome ↔
      (∀ a, q.attributesIn? w = some a → a.redrive.isSome) ∧ (q.dlqAttributesIn? w dlq.name).isSome := by
  rw [dlqFoundIn?, hd, Option.bind_some]
  cases q.attributesIn? w with
  | none => simp
  | some a =>
    obtain ⟨arn, messages, inFlight, redrive⟩ := a
    cases redrive <;> simp

theorem works_iff (q : QueueHandle) (w : World) :
    q.Works w ↔ (q.attributesIn? w).isSome ∧ (q.dlq.isSome → (q.dlqFoundIn? w).isSome) := by
  cases hd : q.dlq with
  | none =>
    refine ⟨fun hw => ⟨hw.main, nofun⟩, fun h => ⟨h.1, fun hdlq => ?_, fun d hdlq => ?_⟩⟩
    · rw [hd] at hdlq
      cases hdlq
    · rw [hd] at hdlq
      cases hdlq
  | some dlq =>
    rw [isSome_dlqFoundIn? hd]
    constructor
    · intro hw
      exact ⟨hw.main, fun _ => ⟨hw.redrive (by rw [hd]; rfl), hw.dlq dlq hd⟩⟩
    · rintro ⟨hmain, hfound⟩
      obtain ⟨hredrive, hdlq⟩ := hfound rfl
      exact ⟨hmain, fun _ => hredrive, fun d h => by cases hd.symm.trans h; exact hdlq⟩

theorem health_up_iff (q : QueueHandle) (w : World) : (q.health.run w).1.status = .up ↔ q.Works w := by
  rw [works_iff]
  cases hd : q.dlq with
  | none =>
    obtain ⟨o, ho, hrun⟩ := health_of_no_dlq hd w
    rw [hrun, Health.status_readMain, ho]
    simp [Health.start]
  | some dlq =>
    obtain ⟨o, o', ho, ho', hrun⟩ := health_of_dlq hd w
    rw [hrun, Health.status_readDlq, Health.detail, Health.status_readMain, ho, ho']
    simp [Health.start]

end QueueHandle

theorem TopicHandle.health_up_iff (t : TopicHandle) (w : World) :
    (t.health.run w).1.status = .up ↔ (w.provider.topics.topicAttributes t.arn).1.toOption.isSome := by
  have hcall : (Attempt.call (.topicAttributes t.arn)).result.run w =
      ((w.provider.topics.topicAttributes t.arn).1, (w.perform (.call (.topicAttributes t.arn))).2) := rfl
  unfold health
  dsimp only
  rw [Routine.run_bind, hcall]
  cases (w.provider.topics.topicAttributes t.arn).1 with
  | ok a => exact ⟨fun _ => rfl, fun _ => rfl⟩
  | error e => exact ⟨nofun, nofun⟩

theorem BucketHandle.health_up_iff (b : BucketHandle) (w : World) :
    (b.health.run w).1.status = .up ↔ b.name ∈ w.provider.buckets := by
  have hcall : (Attempt.call (.headBucket b.name)).result.run w = (w.provider.headBucket b.name, w) := rfl
  unfold health
  dsimp only
  rw [Routine.run_bind, hcall]
  unfold Memory.headBucket
  by_cases hb : b.name ∈ w.provider.buckets
  · rw [if_pos hb]
    exact ⟨fun _ => hb, fun _ => rfl⟩
  · rw [if_neg hb]
    exact ⟨nofun, fun h => absurd h hb⟩

end DeadLetter
