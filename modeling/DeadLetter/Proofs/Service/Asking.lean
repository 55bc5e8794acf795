import DeadLetter.Proofs.Service.Inquiry
import DeadLetter.Proofs.Service.Through

/-!
# Asking for what is missing

`asking` is the protocol by which a look-up calls for a URL only if it saw that it is missing, and learns what it found
before anything else is done. All that goes through a handle keeps to it (`Routine.Asks.of_through`).
`Asking.Step.tally` : so every step that finds a URL is followed by one that makes it known, and no other step changes
how many URLs are known.
-/

namespace DeadLetter

set_option autoImplicit false

open Protocol Routine

/-! ## The URLs of a queue -/

/-- The two URLs that a queue looks up: its own, and that of its dead letter queue. -/
inductive Side where
  | main
  | dlq
deriving DecidableEq

def Known.urlOf (k : Known) : Side → Option String
  | .main => k.url
  | .dlq => k.dlqUrl

def Fact.ofUrl : Side → String → Fact
  | .main => .url
  | .dlq => .dlqUrl

namespace QueueHandle

/-- The name whose URL is looked up. -/
def nameOf? (q : QueueHandle) : Side → Option String
  | .main => some q.name
  | .dlq => q.dlqName?

/-- How many of the URLs of a queue are those of a name. -/
def named (q : QueueHandle) (name : String) : Nat :=
  (if q.name = name then 1 else 0) + if q.dlqName? = some name then 1 else 0

/-- How many of them are known. -/
def knows (q : QueueHandle) (name : String) (k : Known) : Nat :=
  (if q.name = name ∧ k.url.isSome then 1 else 0) + if q.dlqName? = some name ∧ k.dlqUrl.isSome then 1 else 0

/-- The URL of a name that was found and is to be learnt. -/
def due (q : QueueHandle) (name : String) : Option (Side × String) → Nat
  | some (c, _) => if q.nameOf? c = some name then 1 else 0
  | none => 0

variable (q : QueueHandle) (name : String) (k : Known)

theorem knows_le : q.knows name k ≤ q.named name := by
  unfold knows named
  split <;> split <;> simp_all

theorem knows_learn {c : Side} (u : String) (hc : k.urlOf c = none) :
    q.knows name (k.learn (.ofUrl c u)) = q.knows name k + q.due name (some (c, u)) := by
  cases c with
  | main =>
    have hurl : k.url = none := hc
    have hdue : q.due name (some (.main, u)) = if some q.name = some name then 1 else 0 := rfl
    simp [knows, hdue, Fact.ofUrl, Known.learn, hurl, Nat.add_comm]
  | dlq =>
    have hurl : k.dlqUrl = none := hc
    have hdue : q.due name (some (.dlq, u)) = if q.dlqName? = some name then 1 else 0 := rfl
    simp [knows, hdue, Fact.ofUrl, Known.learn, hurl]

/-- What is known and what is to be learnt are different URLs. -/
theorem knows_add_due_le {found : Option (Side × String)} (hmissing : ∀ c u, found = some (c, u) → k.urlOf c = none) :
    q.knows name k + q.due name found ≤ q.named name := by
  cases found with
  | none => exact q.knows_le name k
  | some found =>
    obtain ⟨c, u⟩ := found
    rw [← q.knows_learn name k u (hmissing c u rfl)]
    exact q.knows_le name _

end QueueHandle

/-! ## The protocol of look-ups -/

/-- What was last seen or learnt of a queue, and the URL that was found and is to be learnt next. -/
structure Asking where
  seen : Known
  found : Option (Side × String) := none

/-- Only a URL that is missing is called for. What is found is learnt next, before anything else is done. -/
inductive Asking.Step (q : QueueHandle) : Asking → (a : Action) → a.Reply → Asking → Prop
  | plain {k : Known} {a : Action} {r : a.Reply} (ha : a.Plain q.slot) : Step q ⟨k, none⟩ a r ⟨k, none⟩
  | facts {k k' : Known} : Step q ⟨k, none⟩ (.facts q.slot) k' ⟨k', none⟩
  | ask {k : Known} {c : Side} {name : String} {o : Except QueueError String} (hc : k.urlOf c = none)
      (hname : q.nameOf? c = some name) :
      Step q ⟨k, none⟩ (.call (.queueUrl name)) o ⟨k, o.toOption.map (c, ·)⟩
  | learn {k : Known} {c : Side} {u : String} :
      Step q ⟨k, some (c, u)⟩ (.learn q.slot (.ofUrl c u)) () ⟨k.learn (.ofUrl c u), none⟩
  | limit {k : Known} {count : Option Nat} :
      Step q ⟨k, none⟩ (.learn q.slot (.maxReceiveCount count)) () ⟨k.learn (.maxReceiveCount count), none⟩

/-- The protocol of a routine that asks for URLs only if they are missing. -/
def asking (q : QueueHandle) : Protocol Asking := ⟨fun _ _ => True, Asking.Step q⟩

theorem Action.Plain.fact?_eq_none {slot : Nat} {a : Action} (ha : a.Plain slot) : a.fact? slot = none := by
  cases a with
  | learn i f => exact if_neg ha
  | _ => rfl

/-- Whether a call found the URL of a name. -/
def Entry.finds (name : String) : Entry → Bool
  | ⟨.call (.queueUrl queue), .ok _⟩ => queue = name
  | _ => false

section Follows
variable {q : QueueHandle}

/-- Every step of a look-up keeps in view what is known, and what it finds it is about to learn. -/
theorem Asking.Step.tally {p p' : Asking} {a : Action} {w : World} (h : Asking.Step q p a (w.perform a).1 p')
    (hseen : w.known q.slot = p.seen) (hmissing : ∀ c u, p.found = some (c, u) → p.seen.urlOf c = none) :
    (w.perform a).2.known q.slot = p'.seen ∧ (∀ c u, p'.found = some (c, u) → p'.seen.urlOf c = none) ∧
      ∀ name, (if (⟨a, (w.perform a).1⟩ : Entry).finds name then 1 else 0) + q.knows name p.seen + q.due name p.found =
        q.knows name p'.seen + q.due name p'.found := by
  cases h with
  | plain ha =>
    refine ⟨?_, hmissing, fun name => ?_⟩
    · exact (w.known_perform_of_none ha.fact?_eq_none).trans hseen
    · have hfinds : (⟨a, (w.perform a).1⟩ : Entry).finds name = false := by
        cases a with
        | call c =>
          cases c with
          | queueUrl queue => exact ha.elim
          | _ => rfl
        | _ => rfl
      simp [hfinds]
  | @facts k =>
    refine ⟨rfl, nofun, fun name => ?_⟩
    have hknown : w.known q.slot = k := hseen
    show 0 + q.knows name k + 0 = q.knows name (w.known q.slot) + 0
    rw [hknown, Nat.zero_add]
  | @ask k c queue _ hc hname =>
    refine ⟨hseen, ?_, fun name => ?_⟩
    · intro c' u hfound
      obtain ⟨u', -, heq⟩ := Option.map_eq_some_iff.mp hfound
      cases heq
      exact hc
    · cases hreply : (w.perform (.call (.queueUrl queue))).1 with
      | error e => simp [Entry.finds, QueueHandle.due, Except.toOption]
      | ok u =>
        have hside : q.nameOf? c = some name ↔ queue = name := by rw [hname, Option.some.injEq]
        simp [Entry.finds, QueueHandle.due, Except.toOption, hside, Nat.add_comm]
  | @learn k c u =>
    have hmissing := hmissing c u rfl
    refine ⟨?_, nofun, fun name => ?_⟩
    · rw [QueueHandle.known_learn, hseen]
    · have hknows := q.knows_learn name k u hmissing
      simp [Entry.finds, QueueHandle.due, hknows]
  | @limit k count =>
    refine ⟨?_, nofun, fun name => ?_⟩
    · rw [QueueHandle.known_learn, hseen]
    · simp [Entry.finds, QueueHandle.due, QueueHandle.knows, Known.learn]

/-- A routine that asks only for what is missing, and leaves nothing that it found unlearnt. -/
def Routine.Asks {α : Type} (q : QueueHandle) (r : Routine α) : Prop :=
  ∀ k, (asking q).Follows r ⟨k, none⟩ fun _ s => s.found = none

namespace Routine.Asks
variable {α β : Type}

theorem bind {r : Routine α} {f : α → Routine β} (h : Asks q r) (hf : ∀ a, Asks q (f a)) : Asks q (r >>= f) := by
  intro k
  refine Follows.bind (h k) ?_
  rintro a ⟨k', found⟩ (rfl : found = none)
  exact hf a k'

theorem attempt {x : Attempt α} {f : α → Attempt β} (h : Asks q x.result) (hf : ∀ a, Asks q (f a).result) :
    Asks q (x >>= f).result := by
  refine bind (r := x.result) (f := ExceptT.bindCont f) h fun o => ?_
  cases o with
  | ok a => exact hf a
  | error e => exact fun _ => Follows.pure rfl

theorem call {c : Call} (hc : (Action.call c).Plain q.slot) : Asks q (Attempt.call c).result :=
  fun _ _ _ => ⟨_, .plain hc, rfl⟩

theorem learnLimit (count : Option Nat) : Asks q (Attempt.learn q.slot (.maxReceiveCount count)).result :=
  fun _ _ _ => ⟨_, .limit, rfl⟩

theorem facts {f : Known → Attempt α} (h : ∀ k, (asking q).Follows (f k).result ⟨k, none⟩ fun _ s => s.found = none) :
    Asks q (Attempt.facts q.slot >>= f).result := by
  intro k
  have hread : (asking q).Follows (Attempt.facts q.slot).result ⟨k, none⟩
      (outcome (fun k' s => s = ⟨k', none⟩) fun _ _ => False) :=
    .lift (.perform fun k' _ => ⟨⟨k', none⟩, .facts, rfl⟩)
  refine hread.attempt ?_ (fun _ _ h => h.elim)
  rintro k' s rfl
  exact h k'

theorem lookUp {c : Side} {name : String} (hname : q.nameOf? c = some name) :
    Asks q (QueueHandle.lookUp q.slot (·.urlOf c) (.ofUrl c) name).result := by
  refine facts fun k => ?_
  dsimp only
  cases hc : k.urlOf c with
  | some u => exact Follows.pure rfl
  | none =>
    have hcall : (asking q).Follows (Attempt.call (.queueUrl name)).result ⟨k, none⟩
        (outcome (fun u s => s = ⟨k, some (c, u)⟩) fun _ s => s.found = none) := by
      refine .perform fun o _ => ⟨_, .ask hc hname, ?_⟩
      cases o <;> rfl
    refine hcall.attempt ?_ (fun _ _ h => h)
    rintro u s rfl
    have hlearn : (asking q).Follows (Attempt.learn q.slot (.ofUrl c u)).result ⟨k, some (c, u)⟩
        (outcome (fun _ s => s.found = none) fun _ _ => False) :=
      .lift (.perform fun _ _ => ⟨_, .learn, rfl⟩)
    refine hlearn.attempt ?_ (fun _ _ h => h.elim)
    exact fun _ _ h => Follows.pure h

theorem url : Asks q q.url.result := lookUp (c := .main) rfl

theorem urlOfDlq {d : DlqHandle} (hd : q.dlq = some d) : Asks q (q.urlOfDlq d.name).result := by
  refine lookUp (c := .dlq) ?_
  rw [QueueHandle.nameOf?, QueueHandle.dlqName?, hd]
  rfl

theorem maxReceiveCount : Asks q q.maxReceiveCount.result := by
  unfold QueueHandle.maxReceiveCount
  split
  · exact fun _ => Follows.pure rfl
  · refine facts fun k => ?_
    cases k.maxReceiveCount with
    | some count => exact Follows.pure rfl
    | none =>
      have hread (url : String) : Asks q (Attempt.call (.queueAttributes url)).result := call trivial
      exact attempt url (fun u => (hread u).attempt fun a => (learnLimit _).attempt fun _ _ => Follows.pure rfl) k

theorem of_through {r : Routine α} (h : Through q r) : Asks q r := by
  induction h with
  | done a => exact fun _ => Follows.pure rfl
  | act ha _ ih => exact fun k r _ => ⟨_, .plain ha, ih r k⟩
  | url _ ih => exact url.bind ih
  | dlqUrl hd _ ih => exact (urlOfDlq hd).bind ih
  | limit _ ih => exact maxReceiveCount.bind ih

end Routine.Asks

end Follows

end DeadLetter
