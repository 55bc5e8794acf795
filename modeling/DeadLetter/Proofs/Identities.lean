import DeadLetter.Proofs.Deliveries
import DeadLetter.Proofs.Store.Receipts

/-!
# The identity of messages and deliveries

Calls and changes from outside keep the roster of deliveries (`Memory.History.roster`): a receive adds its batch, and
everything else puts nothing in flight (`perform_landing`, `Control.apply_landing`). `Memory.Later p p'` : calls and
changes from outside lead from `p` to `p'`; a handle that is spent in `p` is spent in `p'` (`Later.spent`).
`identified_of_history` is what follows: ids and handles are unique, a call with a handle affects the one message that was
delivered under it, and only while that is in flight.
-/

namespace DeadLetter

set_option autoImplicit false

namespace Memory
open QueueStore

variable {h : List Received} {p p' : Memory}

/-! ## The roster of deliveries -/

theorem publish_landing (p : Memory) (arn : String) (m : Outbound) : Landing p.queues (p.publish arn m).2.queues :=
  publish_induct Landing.refl (fun _ _ _ => Landing.trans) seed_landing p arn m

theorem Control.apply_landing (p : Memory) (c : Control) : Landing p.queues (c.apply p).queues := by
  cases c with
  | create queue => exact create_landing _ _
  | createWithRedrive queue dlq count =>
    exact (puts_adjust p.queues queue fun q => { q with redrive := some ⟨arnOf dlq, count⟩ }).landing
      (List.Subset.refl (p.queues.state queue).inFlight)
  | seed queue m => exact seed_landing _ _ _
  | reportCount queue count =>
    exact (puts_adjust p.queues queue fun q => { q with reportedCount := some count }).landing
      (List.Subset.refl (p.queues.state queue).inFlight)
  | expire queue => exact expire_landing _ _
  | failOperation op => exact landing_of_queues rfl (Nat.le_refl _)
  | failQueue queue => exact landing_of_queues rfl (Nat.le_refl _)
  | clearFailures => exact landing_of_queues rfl (Nat.le_refl _)
  | createTopic arn => exact .refl _
  | setPending arn pending => exact .refl _
  | failBroker op => exact .refl _
  | createBucket bucket => exact .refl _

theorem perform_landing (p : Memory) {c : Call} (hc : ∀ url limit wait, c ≠ .receive url limit wait) :
    Landing p.queues (p.perform c).2.queues := by
  cases c with
  | queueUrl queue => exact (quiet_queueUrl p.queues queue).landing
  | queueAttributes url => exact (quiet_queueAttributes p.queues url).landing
  | receive url limit wait => exact absurd rfl (hc url limit wait)
  | send url m => exact send_landing _ _ _
  | delete url handle => exact delete_landing _ _ _
  | purge url => exact purge_landing _ _
  | changeVisibility url handle seconds => exact changeVisibility_landing _ _ _ _
  | createQueue queue attributes => exact createQueue_landing _ _ _
  | publish arn m => exact publish_landing _ _ _
  | subscribe arn queueArn filter => exact .refl _
  | topicAttributes arn => exact .refl _
  | createTopic topic attributes => exact .refl _
  | headBucket bucket => exact .refl _

theorem roster_perform (hs : Sound p.queues) (hr : Roster h p.queues) (c : Call) :
    Roster (h ++ Entry.delivered ⟨.call c, (p.perform c).1⟩) (p.perform c).2.queues := by
  cases c with
  | receive url limit wait =>
    have hturns := perform_turns p (.receive url limit wait)
    rcases receive_cases p.queues url limit with ⟨e, t, hreceive, hquiet⟩ | ⟨_, batch, t, hreceive, htakes⟩
    · have hperform : p.perform (.receive url limit wait) = (.error e, { p with queues := t }) := by
        simp only [Memory.perform, onQueues, hreceive]
      rw [hperform]
      exact (List.append_nil h).symm ▸ hr.landing hquiet.landing
    · have hperform : p.perform (.receive url limit wait) = (.ok (handedOut batch), { p with queues := t }) := by
        simp only [Memory.perform, onQueues, hreceive]
      rw [hperform] at hturns ⊢
      exact hr.receive hs htakes hturns
  | _ =>
    refine (List.append_nil h).symm ▸ hr.landing (perform_landing p fun _ _ _ heq => ?_)
    cases heq

theorem History.roster (hp : p.History h) : Roster h p.queues := by
  induction hp with
  | start delivers => exact roster_empty
  | call c hp ih => exact roster_perform hp.reachable.sound ih c
  | control c _ ih => exact ih.landing (Control.apply_landing _ c)

/-! ## What comes later -/

/-- What one call, or one change from outside, makes of a provider. -/
inductive Next (p : Memory) : Memory → Prop
  | call (c : Call) : Next p (p.perform c).2
  | control (c : Control) : Next p (c.apply p)

/-- What calls and changes from outside make of a provider. -/
abbrev Later : Memory → Memory → Prop := Relation.ReflTransGen Next

theorem Next.turns (hn : p.Next p') : Turns p.queues p'.queues := by
  cases hn with
  | call c => exact perform_turns p c
  | control c => exact (Control.apply_shifts p c).turns

/-- A handle that is spent stays so, whatever is called. -/
theorem Later.spent {handle : String} (hl : p.Later p') (hs : Spent p.queues handle) : Spent p'.queues handle := by
  induction hl with
  | refl => exact hs
  | tail _ hn ih => exact hn.turns.spent ih

/-! ## The calls with a receipt handle -/

theorem of_onQueues_eq {α : Type} {f : QueueStore → α × QueueStore} {a : α} (hc : p.onQueues f = (a, p')) :
    f p.queues = (a, p'.queues) := by
  have hdef : p.onQueues f = ((f p.queues).1, { p with queues := (f p.queues).2 }) := rfl
  cases hdef.symm.trans hc
  rfl

/-- Every call with a receipt handle fails, and changes no queue. -/
structure Rejects (p : Memory) (handle : String) : Prop where
  delete : ∀ url, ∃ e p', p.perform (.delete url handle) = (.error e, p') ∧ p'.queues.queues = p.queues.queues
  changeVisibility : ∀ url seconds, ∃ e p', p.perform (.changeVisibility url handle seconds) = (.error e, p') ∧
    p'.queues.queues = p.queues.queues

theorem rejects_of_spent {handle : String} (hs : Spent p.queues handle) : p.Rejects handle where
  delete url := by
    obtain ⟨e, t, hdelete, hquiet⟩ := hs.delete url
    refine ⟨e, { p with queues := t }, ?_, hquiet.queues⟩
    simp only [Memory.perform, onQueues, hdelete]
  changeVisibility url seconds := by
    obtain ⟨e, t, hchange, hquiet⟩ := hs.changeVisibility url seconds
    refine ⟨e, { p with queues := t }, ?_, hquiet.queues⟩
    simp only [Memory.perform, onQueues, hchange]

/-- After the deliveries in `h` messages are identified by their ids, and deliveries by their receipt handles. -/
structure Identified (p : Memory) (h : List Received) : Prop where
  /-- The messages on all queues, visible or in flight, have pairwise different ids. -/
  ids : (p.queues.messages.map (·.id)).Nodup
  /-- What is in flight on all queues has pairwise different handles. -/
  handles : p.queues.handles.Nodup
  /-- No two deliveries had the same handle. -/
  deliveries : (h.map (·.handle)).Nodup
  /-- What is in flight under a handle was delivered under it, and counts one delivery at least. -/
  delivered : ∀ queue handle m, (handle, m) ∈ (p.queues.state queue).inFlight →
    1 ≤ m.deliveries ∧ m.deliver handle ∈ h
  /-- No message counts more deliveries than there were, so none counts `2 ^ 32` before there were as many. -/
  counted : ∀ m ∈ p.queues.messages, m.deliveries ≤ h.length
  /-- A delete that succeeds removes the message in flight under the handle, and changes no other. -/
  delete : ∀ url handle p', p.perform (.delete url handle) = (.ok (), p') →
    ∃ m, (handle, m) ∈ (p.queues.state (queueNameOfUrl url)).inFlight ∧
      Settles p.queues p'.queues (queueNameOfUrl url) handle m []
  /-- A change of visibility that succeeds releases the message in flight under the handle, and changes no other, or
  changes none if it stays hidden. -/
  changeVisibility : ∀ url handle seconds p', p.perform (.changeVisibility url handle seconds) = (.ok (), p') →
    ∃ m, (handle, m) ∈ (p.queues.state (queueNameOfUrl url)).inFlight ∧
      if seconds = 0 then Settles p.queues p'.queues (queueNameOfUrl url) handle m [m]
      else ∀ n, p'.queues.queues.get? n = p.queues.queues.get? n
  /-- What expires is in flight no longer under its handle. -/
  expire : ∀ queue handle m, (handle, m) ∈ (p.queues.state queue).inFlight →
    Spent ((Control.expire queue).apply p).queues handle
  /-- A handle under which nothing is in flight any longer is of no use, now or later. -/
  stale : ∀ d ∈ h, (∀ queue m, (d.handle, m) ∉ (p.queues.state queue).inFlight) →
    ∀ p', p.Later p' → p'.Rejects d.handle

/-- Whatever was called and done to a provider, its messages and deliveries are identified. -/
theorem identified_of_history (hp : p.History h) : p.Identified h where
  ids := hp.reachable.sound.ids.distinct
  handles := hp.reachable.sound.handles.distinct
  deliveries := hp.roster.issued.distinct
  delivered queue handle m hm := by
    have hmem := hp.roster.delivered queue (handle, m) hm
    refine ⟨?_, hmem⟩
    rw [hp.tally.counted m (mem_messages_of_state (List.mem_append_right _ (List.mem_map_of_mem hm)))]
    exact List.length_pos_of_mem (List.mem_filter.mpr ⟨hmem, decide_eq_true rfl⟩)
  counted _ hm := hp.tally.deliveries_le hm
  delete url handle p' hc := by
    have hcall : p.onQueues (·.delete url handle) = (.ok (), p') := hc
    exact settles_of_delete hp.reachable.sound (of_onQueues_eq hcall)
  changeVisibility url handle seconds p' hc := by
    have hcall : p.onQueues (·.changeVisibility url handle seconds) = (.ok (), p') := hc
    exact settles_of_changeVisibility hp.reachable.sound (of_onQueues_eq hcall)
  expire queue handle m hm := Spent.of_expire hp.reachable.sound hm
  stale d hd habsent p' hl := by
    have hspent : Spent p.queues d.handle := ⟨hp.roster.issued.made _ (List.mem_map_of_mem hd), habsent⟩
    exact rejects_of_spent (hl.spent hspent)

/-- A handle of a queue whose name starts like the handles of another queue. -/
theorem identified_of_history_lookalike :
    let p := Control.apply (Control.apply {} (.seed "a" { body := "x" })) (.seed "a-msg-1" { body := "y" })
    let first := p.perform (.receive (urlOf "a") 1 0)
    let second := first.2.perform (.receive (urlOf "a-msg-1") 1 0)
    ∃ h, second.2.History h ∧ h.map (·.handle) = ["a-msg-1-3", "a-msg-1-msg-2-4"] ∧ second.2.Identified h ∧
      (second.2.perform (.delete (urlOf "a") "a-msg-1-3")).1.isOk ∧
      ¬ (second.2.perform (.delete (urlOf "a-msg-1") "a-msg-1-3")).1.isOk := by
  intro p first second
  have hp : p.History [] := .control _ (.control _ (.start true))
  have hsecond : second.2.History _ := .call _ (.call (.receive (urlOf "a") 1 0) hp)
  exact ⟨_, hsecond, by decide +kernel, identified_of_history hsecond, by decide +kernel, by decide +kernel⟩

end Memory

end DeadLetter
