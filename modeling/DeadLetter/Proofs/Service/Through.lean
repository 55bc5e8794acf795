import DeadLetter.Proofs.Routine.Journal
import DeadLetter.Service.Health
import DeadLetter.Service.Inspect
import DeadLetter.Service.Listener
import DeadLetter.Service.Purge
import DeadLetter.Service.Retry

/-!
# Routines that go through a handle

`Routine.Through q r` : whatever is replied, the routine `r` finds out the URLs of the queue `q` and its limit by the
look-ups of `q` alone, and teaches nothing about `q` besides. All that a queue is used for goes through its handle:
`QueueHandle.served`.
-/

namespace DeadLetter

set_option autoImplicit false

/-- An action that asks for no URL and teaches nothing about a queue. -/
def Action.Plain (slot : Nat) : Action → Prop
  | .call (.queueUrl _) => False
  | .learn i _ => i ≠ slot
  | _ => True

namespace Routine
variable {α β : Type} {q : QueueHandle}

/-- A routine that knows of a queue only what its look-ups tell. -/
inductive Through (q : QueueHandle) {α : Type} : Routine α → Prop
  | done (a : α) : Through q (.done a)
  | act {a : Action} {next : a.Reply → Routine α} (ha : a.Plain q.slot) (h : ∀ r, Through q (next r)) :
      Through q (.act a next)
  | url {f : Except QueueError String → Routine α} (h : ∀ o, Through q (f o)) : Through q (q.url.result >>= f)
  | dlqUrl {d : DlqHandle} (hd : q.dlq = some d) {f : Except QueueError String → Routine α}
      (h : ∀ o, Through q (f o)) : Through q ((q.urlOfDlq d.name).result >>= f)
  | limit {f : Except QueueError (Option Nat) → Routine α} (h : ∀ o, Through q (f o)) :
      Through q (q.maxReceiveCount.result >>= f)

namespace Through

theorem bind {r : Routine α} {f : α → Routine β} (h : Through q r) (hf : ∀ a, Through q (f a)) :
    Through q (r >>= f) := by
  induction h with
  | done a => exact hf a
  | act ha _ ih => exact .act ha ih
  | url _ ih =>
    rw [bind_assoc]
    exact .url ih
  | dlqUrl hd _ ih =>
    rw [bind_assoc]
    exact .dlqUrl hd ih
  | limit _ ih =>
    rw [bind_assoc]
    exact .limit ih

theorem attempt {x : Attempt α} {f : α → Attempt β} (h : Through q x.result) (hf : ∀ a, Through q (f a).result) :
    Through q (x >>= f).result := by
  refine Through.bind (r := x.result) (f := ExceptT.bindCont f) h fun o => ?_
  cases o with
  | ok a => exact hf a
  | error e => exact .done _

theorem lift {r : Routine α} (h : Through q r) : Through q (Attempt.result (ExceptT.lift r)) :=
  h.bind fun _ => .done _

theorem perform {a : Action} (ha : a.Plain q.slot) : Through q (Routine.perform a) := .act ha fun r => .done r

theorem call {c : Call} (hc : (Action.call c).Plain q.slot) : Through q (Attempt.call c).result := perform hc

theorem ofUrl : Through q q.url.result := by
  rw [← bind_done q.url.result]
  exact .url fun o => .done o

theorem ofDlqUrl {d : DlqHandle} (hd : q.dlq = some d) : Through q (q.urlOfDlq d.name).result := by
  rw [← bind_done (q.urlOfDlq d.name).result]
  exact .dlqUrl hd fun o => .done o

theorem ofLimit : Through q q.maxReceiveCount.result := by
  rw [← bind_done q.maxReceiveCount.result]
  exact .limit fun o => .done o

end Through

end Routine

open Routine

namespace QueueHandle
variable (q : QueueHandle)

theorem dlqUrl_through : Through q q.dlqUrl.result := by
  unfold dlqUrl
  cases hd : q.dlq with
  | none => exact .done _
  | some d => exact .attempt (.ofDlqUrl hd) fun _ => .done _

theorem health_through : Through q q.health := by
  refine .bind (.attempt .ofUrl fun _ => .call trivial) fun o => ?_
  cases hd : q.dlq with
  | none => exact .done _
  | some d =>
    have hdlq (h : Health) : Through q (q.addDlqHealth d.name h) := by
      refine .bind (.attempt (.ofDlqUrl hd) fun _ => .call trivial) fun o => ?_
      cases o <;> exact .done _
    dsimp only
    split
    · exact .done _
    · exact hdlq _

theorem copyOf_through (m : Received) : Through q (q.copyOf m).result := by
  unfold copyOf
  split
  · exact .attempt (.lift (.perform trivial)) fun _ => .done _
  · exact .done _

theorem moveOne_through (dlqUrl url : String) : Through q (q.moveOne dlqUrl url).result := by
  refine .attempt (.call trivial) fun batch => ?_
  cases batch with
  | nil => exact .done _
  | cons m ms =>
    refine .attempt (q.copyOf_through m) fun copy => .attempt (.call trivial) fun _ => ?_
    exact .attempt (.call trivial) fun _ => .done _

theorem drain_through (dlqUrl url : String) (attempts : Nat) : Through q (q.drain dlqUrl url attempts) := by
  induction attempts with
  | zero => exact .done _
  | succ attempts ih =>
    refine .bind (.perform trivial) fun late => ?_
    cases late with
    | true => exact .done _
    | false =>
      refine .bind (q.moveOne_through dlqUrl url) fun o => ?_
      split
      · exact .bind ih fun _ => .done _
      · exact ih
      · exact ih

theorem retry_through (p : NumberPolicy) : Through q (q.retry p).result := by
  unfold retry
  cases hd : q.dlq with
  | none => exact .done _
  | some d =>
    refine .attempt (.ofDlqUrl hd) fun dlqUrl => .attempt (.call trivial) fun attributes => ?_
    dsimp only
    split
    · exact .done _
    · refine .attempt .ofUrl fun url => .attempt (.lift (q.drain_through _ _ _)) fun moved => ?_
      exact .attempt (.lift (.perform trivial)) fun _ => .done _

theorem collect_through (dlqUrl : String) (wanted : Nat) : Through q (collect dlqUrl wanted).result := by
  induction wanted using Nat.strongRecOn with
  | _ wanted ih =>
    unfold collect
    split
    · exact .done _
    · next hwanted =>
      refine .attempt (.call trivial) fun batch => ?_
      cases batch with
      | nil => exact .done _
      | cons m ms =>
        refine .attempt (ih _ ?_) fun _ => .done _
        rw [List.length_cons]
        omega

theorem inspect_through (p : NumberPolicy) (limit : Int) : Through q (q.inspect p limit).result := by
  unfold inspect
  cases hd : q.dlq with
  | none => exact .done _
  | some d =>
    refine .attempt (.ofDlqUrl hd) fun dlqUrl => .attempt (.call trivial) fun _ => ?_
    exact .attempt (q.collect_through _ _) fun _ => .done _

theorem purge_through (r : PurgeRequest) : Through q r.purge.result := by
  refine .attempt (.call trivial) fun attributes => ?_
  dsimp only
  split
  · exact .attempt (.call trivial) fun _ => .attempt (.lift (.perform trivial)) fun _ => .done _
  · exact .done _

theorem purgeDlq_through : Through q q.purgeDlq.result := by
  have hrequest : Through q q.dlqPurge?.result := by
    unfold dlqPurge?
    cases hd : q.dlq with
    | none => exact .done _
    | some d => exact .attempt (.ofDlqUrl hd) fun _ => .done _
  refine .attempt hrequest fun request => ?_
  cases request with
  | none => exact .done _
  | some r => exact q.purge_through r

theorem hideFailed_through (b : BackoffPolicy) (m : Received) : Through q (q.hideFailed b m) := by
  refine .bind .ofLimit fun limit => .bind .ofUrl fun o => ?_
  cases o with
  | error e => exact .done _
  | ok url => exact .bind (.call trivial) fun _ => .done _

end QueueHandle

namespace Listener
variable (l : Listener)

theorem process_through (url : String) (batch : List Received) : Through l.queue (l.process url batch) := by
  induction batch with
  | nil => exact .done _
  | cons m ms ih =>
    unfold process
    split
    · exact .bind (.call trivial) fun _ => ih
    · exact .bind (l.queue.hideFailed_through l.backoff m) fun _ => ih

theorem pollOnce_through : Through l.queue l.pollOnce.result := by
  have hreceive : Through l.queue l.receive.result :=
    .attempt .ofUrl fun url => .attempt (.call trivial) fun _ => .done _
  exact .attempt hreceive fun received => .attempt (.lift (l.process_through _ _)) fun _ => .done _

theorem run_through (stops : Progress → Bool) (polls : Nat) (progress : Progress) :
    Through l.queue (l.run stops polls progress) := by
  induction polls generalizing progress with
  | zero => exact .done _
  | succ polls ih =>
    unfold run
    split
    · exact .done _
    · refine .bind l.pollOnce_through fun o => ?_
      cases o with
      | error e => exact ih _
      | ok batch => exact .bind (ih _) fun _ => .done _

end Listener

/-- All that a queue is used for goes through its handle. -/
structure QueueHandle.Served (q : QueueHandle) : Prop where
  url : Through q q.url.result
  dlqUrl : Through q q.dlqUrl.result
  limit : Through q q.maxReceiveCount.result
  health : Through q q.health
  retry : ∀ p, Through q (q.retry p).result
  inspect : ∀ p limit, Through q (q.inspect p limit).result
  purge : Through q (q.url >>= fun url => (PurgeRequest.mk q.name url q.client).purge).result
  purgeDlq : Through q q.purgeDlq.result
  hideFailed : ∀ b m, Through q (q.hideFailed b m)
  listen : ∀ l : Listener, l.queue = q → ∀ stops polls progress, Through q (l.run stops polls progress)

theorem QueueHandle.served (q : QueueHandle) : q.Served where
  url := .ofUrl
  dlqUrl := q.dlqUrl_through
  limit := .ofLimit
  health := q.health_through
  retry := q.retry_through
  inspect := q.inspect_through
  purge := .attempt .ofUrl fun _ => q.purge_through _
  purgeDlq := q.purgeDlq_through
  hideFailed := q.hideFailed_through
  listen l hl stops polls progress := hl ▸ l.run_through stops polls progress

end DeadLetter
