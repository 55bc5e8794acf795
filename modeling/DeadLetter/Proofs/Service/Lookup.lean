import DeadLetter.Proofs.Routine.Protocol
import DeadLetter.Proofs.Store.Calls
import DeadLetter.Service.Lookup

/-!
# What look-ups rely on and keep

A `Lore` says what may be known of the queues and which URL a look-up of a name may return. Look-ups that are answered
accordingly learn only such facts, and return what the lore says of their queue: `url_follows`, `urlOfDlq_follows`,
`maxReceiveCount_follows`. A world answers accordingly while it knows only such facts (`Lore.truthful_perform`), and
goes on to know only such facts (`Lore.Known.perform`).
-/

namespace DeadLetter

set_option autoImplicit false

/-- Whether the provider answers a call, rather than failing it. -/
def Action.Answered : (a : Action) → a.Reply → Prop
  | .call _, r => ∃ v, r = .ok v
  | _, _ => True

instance (a : Action) (r : a.Reply) : Decidable (a.Answered r) :=
  match a, r with
  | .call _, .ok v => isTrue ⟨v, rfl⟩
  | .call _, .error _ => isFalse nofun
  | .facts _, _ | .learn .., _ | .track _, _ | .countSweep, _ | .generateId, _ | .isLate, _ => isTrue trivial

/-- What may be known of the queues, which URLs look-ups may return, and whether all calls are answered. -/
structure Lore where
  fact : Nat → Fact → Prop
  url : String → String → Prop
  smooth : Prop

namespace Lore

/-- What is known of a queue may be known. -/
structure Agrees (L : Lore) (slot : Nat) (k : Known) : Prop where
  url : ∀ u, k.url = some u → L.fact slot (.url u)
  dlqUrl : ∀ u, k.dlqUrl = some u → L.fact slot (.dlqUrl u)
  maxReceiveCount : ∀ c, k.maxReceiveCount = some c → L.fact slot (.maxReceiveCount c)

/-- A reply that tells only what may be known. -/
def Truthful (L : Lore) : (a : Action) → a.Reply → Prop
  | .facts slot, k => L.Agrees slot k
  | .call (.queueUrl queue), r => ∀ u, r = .ok u → L.url queue u
  | _, _ => True

/-- The replies that may be relied on. -/
def Admits (L : Lore) (a : Action) (r : a.Reply) : Prop := L.Truthful a r ∧ (L.smooth → a.Answered r)

/-- What a queue looks up may be known of it. -/
structure Covers (L : Lore) (q : QueueHandle) : Prop where
  url : ∀ u, L.url q.name u → L.fact q.slot (.url u)
  dlqUrl : ∀ d u, q.dlq = some d → L.url d.name u → L.fact q.slot (.dlqUrl u)
  maxReceiveCount : ∀ c, L.fact q.slot (.maxReceiveCount c)

/-- The world knows only what may be known. -/
def Known (L : Lore) (w : World) : Prop := ∀ slot, L.Agrees slot (w.known slot)

theorem Agrees.nothing {L : Lore} {slot : Nat} : L.Agrees slot {} := by
  constructor <;> intro _ h <;> cases h

theorem Agrees.learn {L : Lore} {slot : Nat} {k : DeadLetter.Known} {f : Fact} (h : L.Agrees slot k)
    (hf : L.fact slot f) : L.Agrees slot (k.learn f) := by
  have hor {α : Type} {p : α → Prop} {o : Option α} {a : α} (ho : ∀ b, o = some b → p b) (ha : p a) :
      ∀ b, (o <|> some a) = some b → p b := by
    intro b hb
    cases o with
    | none =>
      cases hb
      exact ha
    | some c => exact ho b hb
  cases f with
  | url u => exact ⟨hor h.url hf, h.dlqUrl, h.maxReceiveCount⟩
  | dlqUrl u => exact ⟨h.url, hor h.dlqUrl hf, h.maxReceiveCount⟩
  | maxReceiveCount c => exact ⟨h.url, h.dlqUrl, hor h.maxReceiveCount hf⟩

/-- A world that learns only what may be known goes on to know only that. -/
theorem Known.perform {L : Lore} {w : World} (h : L.Known w) {a : Action}
    (ha : ∀ slot f, a = .learn slot f → L.fact slot f) : L.Known (w.perform a).2 := by
  intro i
  cases a with
  | learn slot f =>
    show L.Agrees i (if i = slot then (w.known i).learn f else w.known i)
    split
    · next hi =>
      rw [hi]
      exact (h slot).learn (ha slot f rfl)
    · exact h i
  | _ => exact h i

theorem truthful_perform {L : Lore} (hurl : ∀ queue, L.url queue (QueueStore.urlOf queue)) {w : World}
    (h : L.Known w) (a : Action) : L.Truthful a (w.perform a).1 := by
  cases a with
  | facts slot => exact h slot
  | call c =>
    cases c with
    | queueUrl queue =>
      intro u hu
      rw [QueueStore.eq_urlOf_of_queueUrl (s := w.provider.queues) hu]
      exact hurl queue
    | _ => trivial
  | _ => trivial

end Lore

/-- Looks up the URL of a name, unless it is kept among the facts of a slot, and keeps it there. -/
def QueueHandle.lookUp (slot : Nat) (kept : Known → Option String) (fact : String → Fact) (name : String) :
    Attempt String := do
  match kept (← Attempt.facts slot) with
  | some url => return url
  | none =>
    let url ← Attempt.call (.queueUrl name)
    Attempt.learn slot (fact url)
    return url

theorem QueueHandle.url_eq (q : QueueHandle) : q.url = lookUp q.slot (·.url) .url q.name := rfl

theorem QueueHandle.urlOfDlq_eq (q : QueueHandle) (dlq : String) :
    q.urlOfDlq dlq = lookUp q.slot (·.dlqUrl) .dlqUrl dlq := rfl

/-- A protocol under which queues can be looked up at any time, and what may be known of one of them learnt. -/
structure Protocol.Looks {σ : Type} (P : Protocol σ) (L : Lore) (slot : Nat) : Prop where
  admits : ∀ a r, P.admits a r → L.Admits a r
  queueUrl : ∀ s queue r, P.step s (.call (.queueUrl queue)) r s
  queueAttributes : ∀ s url r, P.step s (.call (.queueAttributes url)) r s
  facts : ∀ s k, P.step s (.facts slot) k s
  learn : ∀ s f r, L.fact slot f → P.step s (.learn slot f) r s

section Looks
variable {σ : Type} {P : Protocol σ} {L : Lore}
open Protocol

/-- A call after which the state of the protocol is the same, whether it is answered or not. -/
theorem Protocol.follows_call (hadmits : ∀ a r, P.admits a r → L.Admits a r) {c : Call} {s : σ}
    (hstep : ∀ r, P.step s (.call c) r s) :
    P.Follows (Attempt.call c).result s
      (outcome (fun v s' => s' = s ∧ L.Truthful (.call c) (.ok v)) (fun _ s' => s' = s ∧ ¬ L.smooth)) := by
  refine Follows.perform (a := .call c) fun r hr => ⟨s, hstep r, ?_⟩
  obtain ⟨htrue, hsmooth⟩ := hadmits _ _ hr
  cases r with
  | ok v => exact ⟨rfl, htrue⟩
  | error e =>
    refine ⟨rfl, fun h => ?_⟩
    obtain ⟨v, hv⟩ := hsmooth h
    cases hv

theorem Protocol.Looks.follows_facts {slot : Nat} (hP : P.Looks L slot) {s : σ} {E : QueueError → σ → Prop} :
    P.Follows (Attempt.facts slot).result s (outcome (fun k s' => s' = s ∧ L.Agrees slot k) E) :=
  .lift (.perform fun k hk => ⟨s, hP.facts s k, rfl, (hP.admits _ _ hk).1⟩)

theorem Protocol.Looks.follows_learn {slot : Nat} (hP : P.Looks L slot) {f : Fact} (hf : L.fact slot f) {s : σ}
    {E : QueueError → σ → Prop} :
    P.Follows (Attempt.learn slot f).result s (outcome (fun _ s' => s' = s) E) :=
  .lift (.perform fun r _ => ⟨s, hP.learn s f r hf, rfl⟩)

namespace QueueHandle

/-- The outcome of a look-up: what it finds satisfies a condition, and it fails only if calls may fail. -/
def Finds {α : Type} (L : Lore) (s : σ) (p : α → Prop) : Except QueueError α → σ → Prop :=
  outcome (fun a s' => s' = s ∧ p a) (fun _ s' => s' = s ∧ ¬ L.smooth)

variable {q : QueueHandle}

theorem lookUp_follows {slot : Nat} {kept : Known → Option String} {fact : String → Fact} {name : String}
    (hP : P.Looks L slot) (hkept : ∀ k u, L.Agrees slot k → kept k = some u → L.fact slot (fact u))
    (hfound : ∀ u, L.url name u → L.fact slot (fact u)) (s : σ) :
    P.Follows (lookUp slot kept fact name).result s (Finds L s fun u => L.fact slot (fact u)) := by
  refine hP.follows_facts.attempt (E := fun _ _ => False) ?_ (fun _ _ h => h.elim)
  rintro k s' ⟨rfl, hk⟩
  cases hu : kept k with
  | some u => exact Follows.pure ⟨rfl, hkept k u hk hu⟩
  | none =>
    refine (follows_call hP.admits (hP.queueUrl s' name)).attempt ?_ (fun _ _ h => h)
    rintro u s' ⟨rfl, hurl⟩
    have hf := hfound u (hurl u rfl)
    refine (hP.follows_learn hf).attempt (E := fun _ _ => False) ?_ (fun _ _ h => h.elim)
    rintro _ s' rfl
    exact Follows.pure ⟨rfl, hf⟩

theorem url_follows (hP : P.Looks L q.slot) (hq : L.Covers q) (s : σ) :
    P.Follows q.url.result s (Finds L s fun u => L.fact q.slot (.url u)) := by
  rw [url_eq]
  exact lookUp_follows hP (fun _ u hk => hk.url u) hq.url s

theorem urlOfDlq_follows (hP : P.Looks L q.slot) (hq : L.Covers q) {d : DlqHandle} (hd : q.dlq = some d) (s : σ) :
    P.Follows (q.urlOfDlq d.name).result s (Finds L s fun u => L.fact q.slot (.dlqUrl u)) := by
  rw [urlOfDlq_eq]
  exact lookUp_follows hP (fun _ u hk => hk.dlqUrl u) (fun u => hq.dlqUrl d u hd) s

theorem maxReceiveCount_follows (hP : P.Looks L q.slot) (hq : L.Covers q) (s : σ) :
    P.Follows q.maxReceiveCount.result s (Finds L s fun _ => True) := by
  unfold maxReceiveCount
  split
  · exact Follows.pure ⟨rfl, trivial⟩
  · refine hP.follows_facts.attempt (E := fun _ _ => False) ?_ (fun _ _ h => h.elim)
    rintro k s' ⟨rfl, hk⟩
    cases hc : k.maxReceiveCount with
    | some c => exact Follows.pure ⟨rfl, trivial⟩
    | none =>
      refine (url_follows hP hq s').attempt ?_ (fun _ _ h => h)
      rintro u s' ⟨rfl, _⟩
      refine (follows_call hP.admits (hP.queueAttributes s' u)).attempt ?_ (fun _ _ h => h)
      rintro attributes s' ⟨rfl, _⟩
      refine (hP.follows_learn (hq.maxReceiveCount _)).attempt (E := fun _ _ => False) ?_ (fun _ _ h => h.elim)
      rintro _ s' rfl
      exact Follows.pure ⟨rfl, trivial⟩

end QueueHandle

end Looks

end DeadLetter
