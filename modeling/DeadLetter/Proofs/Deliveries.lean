import DeadLetter.Proofs.Routine.Journal
import DeadLetter.Proofs.Store.Batches
import DeadLetter.Proofs.Store.Tallies

/-!
# Histories of deliveries

`Memory.History h p` : calls and changes from outside made `p` of an empty provider, and `h` lists what was delivered on
the way. The messages of `p` count what `h` lists (`History.tally`). Whatever a routine does, its run goes on with a
history, by the deliveries of its journal (`History.run`), and an id that a send returns has no delivery before it
(`History.undelivered_of_send`).
-/

namespace DeadLetter

set_option autoImplicit false

open QueueStore

def Entry.delivered : Entry → List Received
  | ⟨.call (.receive ..), .ok batch⟩ => batch
  | _ => []

namespace Memory

/-- What calls and changes from outside make of an empty provider, with what was delivered, in order. -/
inductive History : List Received → Memory → Prop
  | start (delivers : Bool) : History [] { delivers := delivers }
  | call {h : List Received} {p : Memory} (c : Call) (hp : History h p) :
    History (h ++ Entry.delivered ⟨.call c, (p.perform c).1⟩) (p.perform c).2
  | control {h : List Received} {p : Memory} (c : Control) (hp : History h p) : History h (c.apply p)

variable {h : List Received} {p : Memory}

theorem History.reachable (hp : p.History h) : p.Reachable := by
  induction hp with
  | start delivers => exact .start delivers
  | call c _ ih => exact .call c ih
  | control c _ ih => exact .control c ih

theorem publish_still (p : Memory) (arn : String) (m : Outbound) : Still p.queues (p.publish arn m).2.queues :=
  publish_induct Still.refl (fun _ _ _ => Still.trans) seed_still p arn m

theorem Control.apply_still (p : Memory) (c : Control) : Still p.queues (c.apply p).queues := by
  cases c with
  | create queue => exact create_still _ _
  | createWithRedrive queue dlq count =>
    exact (puts_adjust p.queues queue fun q => { q with redrive := some ⟨arnOf dlq, count⟩ }).still_of_subset
      (List.Subset.refl (p.queues.state queue).messages)
  | seed queue m => exact seed_still _ _ _
  | reportCount queue count =>
    exact (puts_adjust p.queues queue fun q => { q with reportedCount := some count }).still_of_subset
      (List.Subset.refl (p.queues.state queue).messages)
  | expire queue => exact expire_still _ _
  | failOperation op => exact still_of_queues rfl (Nat.le_refl _)
  | failQueue queue => exact still_of_queues rfl (Nat.le_refl _)
  | clearFailures => exact still_of_queues rfl (Nat.le_refl _)
  | createTopic arn => exact .refl _
  | setPending arn pending => exact .refl _
  | failBroker op => exact .refl _
  | createBucket bucket => exact .refl _

theorem perform_still (p : Memory) {c : Call} (hc : ∀ url limit wait, c ≠ .receive url limit wait) :
    Still p.queues (p.perform c).2.queues := by
  cases c with
  | queueUrl queue => exact (quiet_queueUrl p.queues queue).still
  | queueAttributes url => exact (quiet_queueAttributes p.queues url).still
  | receive url limit wait => exact absurd rfl (hc url limit wait)
  | send url m => exact send_still _ _ _
  | delete url handle => exact delete_still _ _ _
  | purge url => exact purge_still _ _
  | changeVisibility url handle seconds => exact changeVisibility_still _ _ _ _
  | createQueue queue attributes => exact createQueue_still _ _ _
  | publish arn m => exact publish_still _ _ _
  | subscribe arn queueArn filter => exact .refl _
  | topicAttributes arn => exact .refl _
  | createTopic topic attributes => exact .refl _
  | headBucket bucket => exact .refl _

theorem tally_perform (hs : Sound p.queues) (ht : Tally h p.queues) (c : Call) :
    Tally (h ++ Entry.delivered ⟨.call c, (p.perform c).1⟩) (p.perform c).2.queues := by
  cases c with
  | receive url limit wait =>
    rcases receive_cases p.queues url limit with ⟨e, t, hreceive, hquiet⟩ | ⟨_, batch, t, hreceive, _⟩
    · have hperform : p.perform (.receive url limit wait) = (.error e, { p with queues := t }) := by
        simp only [Memory.perform, onQueues, hreceive]
      rw [hperform]
      exact (List.append_nil h).symm ▸ ht.still hquiet.still
    · have hperform : p.perform (.receive url limit wait) = (.ok (handedOut batch), { p with queues := t }) := by
        simp only [Memory.perform, onQueues, hreceive]
      rw [hperform]
      exact ht.receive hs hreceive
  | _ =>
    exact (List.append_nil h).symm ▸ ht.still (perform_still p nofun)

theorem History.tally (hp : p.History h) : Tally h p.queues := by
  induction hp with
  | start delivers => exact tally_empty
  | call c hp ih => exact tally_perform hp.reachable.sound ih c
  | control c _ ih => exact ih.still (Control.apply_still _ c)

/-- A run goes on with a history. -/
theorem History.run {α : Type} (r : Routine α) {w : World} (hp : w.provider.History h) :
    (r.run w).2.provider.History (h ++ (r.journal w).flatMap Entry.delivered) := by
  induction r generalizing h w with
  | done a => exact (List.append_nil h).symm ▸ hp
  | act a next ih =>
    rw [Routine.journal, List.flatMap_cons, ← List.append_assoc]
    refine ih _ ?_
    cases a with
    | call c => exact .call c hp
    | _ => exact (List.append_nil h).symm ▸ hp

/-- An entry of a journal is what the world that the entries before it led to replied, and that world has the history up
to there. -/
theorem History.split {α : Type} {r : Routine α} {w : World} (hp : w.provider.History h) {before after : List Entry}
    {e : Entry} (hj : r.journal w = before ++ e :: after) :
    ∃ w' : World, w'.provider.History (h ++ before.flatMap Entry.delivered) ∧
      e = ⟨e.action, (w'.perform e.action).1⟩ := by
  induction r generalizing h w before with
  | done a => exact absurd hj (by simp [Routine.journal])
  | act a next ih =>
    rw [Routine.journal] at hj
    cases before with
    | nil =>
      obtain ⟨rfl, _⟩ := List.cons.inj hj
      exact ⟨w, (List.append_nil h).symm ▸ hp, rfl⟩
    | cons e' before =>
      obtain ⟨rfl, hrest⟩ := List.cons.inj hj
      rw [List.flatMap_cons, ← List.append_assoc]
      refine ih _ ?_ hrest
      cases a with
      | call c => exact .call c hp
      | _ => exact (List.append_nil h).symm ▸ hp

/-- Before a send returns an id, no message was delivered under it. -/
theorem History.undelivered_of_send {α : Type} {r : Routine α} {w : World} (hp : w.provider.History h)
    {before after : List Entry} {url id : String} {m : Outbound}
    (hj : r.journal w = before ++ ⟨.call (.send url m), .ok id⟩ :: after) :
    deliveriesOf (h ++ before.flatMap Entry.delivered) id = [] := by
  obtain ⟨w', hp', he⟩ := hp.split hj
  have hsend : (w'.provider.queues.send url m).1 = .ok id := by
    simp only [Entry.mk.injEq, heq_eq_eq, true_and] at he
    exact he.symm
  obtain ⟨_, _, hid, _⟩ := puts_of_send_ok (Prod.ext hsend rfl)
  exact hp'.tally.deliveriesOf_eq_nil hid (Nat.lt_succ_self _)

end Memory

end DeadLetter
