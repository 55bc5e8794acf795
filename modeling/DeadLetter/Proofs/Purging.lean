import DeadLetter.Proofs.Failures
import DeadLetter.Proofs.Redriving
import DeadLetter.Proofs.Registry.Handles

/-!
# What a purge removes

A name stands for the last queue that has it for its main name, else for the last one whose dead letter queue has it, and
`Registry.purgeOf?` looks up the URL of just that one (`purgeOf_main`, `purgeOf_dlq`, `purgeOf_nothing`). Purging by a
request leaves no message on the queue that its URL addresses, unless that queue told that it has none, and touches no
other (`PurgeRequest.purge_outcome`). `Registry.purges_named` : both together.
-/

namespace DeadLetter

set_option autoImplicit false

open QueueStore Routine

/-! ## Counting calls -/

theorem Operation.name_inj {op op' : Operation} (h : op.name = op'.name) : op = op' := by
  have hread (op : Operation) : ofName? op.name = some op := by cases op <;> decide
  have hsome := hread op
  rw [h, hread op'] at hsome
  exact (Option.some.inj hsome).symm

namespace QueueStore

def callsOf (s : QueueStore) (op : Operation) : Nat := (s.calls.get? op.name).getD 0

theorem callsOf_counted (s : QueueStore) (op op' : Operation) :
    (s.counted op).callsOf op' = s.callsOf op' + if op' = op then 1 else 0 := by
  unfold callsOf counted
  dsimp only
  rw [Dict.get?_put]
  by_cases h : op' = op
  · rw [h, if_pos rfl, if_pos rfl, Option.getD_some]
  · rw [if_neg fun hname => h (Operation.name_inj hname), if_neg h, Nat.add_zero]

/-- Reading attributes is a call of its own kind. -/
theorem callsOf_queueAttributes (s : QueueStore) (url : String) (op : Operation) :
    (s.queueAttributes url).2.callsOf op = s.callsOf op + if op = .getQueueAttributes then 1 else 0 := by
  rw [queueAttributes_eq]
  exact callsOf_counted s _ op

theorem callsOf_purge (s : QueueStore) (url : String) (op : Operation) :
    (s.purge url).2.callsOf op = s.callsOf op + if op = .purgeQueue then 1 else 0 := by
  have hcalls : (s.purge url).2.calls = (s.counted .purgeQueue).calls := by
    unfold purge attempt locate
    dsimp only
    split
    · rfl
    · split <;> rfl
  rw [callsOf, hcalls]
  exact callsOf_counted s _ op

end QueueStore

/-! ## What a name stands for -/

namespace Registry
variable {r : Registry} {name : String} {q : QueueHandle} {d : DlqHandle} {w : World}

/-- A request is made of the URL that a look-up finds. -/
theorem run_request (x : Attempt String) (request : String → PurgeRequest) (w : World) :
    (x >>= fun url => pure (some (request url))).result.run w =
      ((x.result.run w).1.map fun url => some (request url), (x.result.run w).2) := by
  rw [Attempt.run_bind]
  rcases x.result.run w with ⟨o, w'⟩
  cases o <;> rfl

/-- A main name stands for the last queue that has it. -/
theorem purgeOf_main (hq : IsLast (·.name = name) r.queues q) (w : World) :
    (r.purgeOf? name).result.run w =
      ((q.url.result.run w).1.map fun url => some ⟨name, url, q.client⟩, (q.url.result.run w).2) := by
  obtain ⟨_, _, _, hname, _⟩ := id hq
  unfold purgeOf?
  rw [queueByName?_eq_some_iff.mpr hq]
  dsimp only
  rw [hname]
  exact run_request q.url (⟨name, ·, q.client⟩) w

/-- Any other name stands for the last dead letter queue that has it. -/
theorem purgeOf_dlq (hmain : ∀ q ∈ r.queues, q.name ≠ name) (hq : IsLast (·.dlqName? = some name) r.queues q)
    (hd : q.dlq = some d) (w : World) :
    (r.purgeOf? name).result.run w =
      (((q.urlOfDlq name).result.run w).1.map fun url => some ⟨name, url, d.client⟩,
        ((q.urlOfDlq name).result.run w).2) := by
  obtain ⟨_, _, _, hname, _⟩ := id hq
  have hdlq : d.name = name := by
    rw [QueueHandle.dlqName?, hd] at hname
    exact Option.some.inj hname
  unfold purgeOf? QueueHandle.dlqPurge?
  rw [queueByName?_eq_none_iff.mpr hmain, queueByDlqName?_eq_some_iff.mpr hq]
  dsimp only
  rw [hd, ← hdlq]
  exact run_request (q.urlOfDlq d.name) (⟨d.name, ·, d.client⟩) w

/-- A name that no queue has stands for nothing, and nobody is asked. -/
theorem purgeOf_nothing (h : ∀ q ∈ r.queues, q.name ≠ name ∧ q.dlqName? ≠ some name) :
    (r.purgeOf? name).result = .done (.ok none) := by
  unfold purgeOf?
  rw [queueByName?_eq_none_iff.mpr fun q hq => (h q hq).1, queueByDlqName?_eq_none_iff.mpr fun q hq => (h q hq).2]
  rfl

/-- A request is for a queue that has the name, or for a dead letter queue that has it. -/
theorem purgeOf_cases {request : PurgeRequest} {w' : World}
    (hrun : (r.purgeOf? name).result.run w = (.ok (some request), w')) :
    ∃ q ∈ r.queues, ∃ url,
      (q.name = name ∧ q.url.result.run w = (.ok url, w') ∧ request = ⟨name, url, q.client⟩) ∨
      ∃ d, q.dlq = some d ∧ d.name = name ∧ (q.urlOfDlq d.name).result.run w = (.ok url, w') ∧
        request = ⟨name, url, d.client⟩ := by
  unfold purgeOf? at hrun
  split at hrun
  · next q hq =>
    obtain ⟨hmem, hname⟩ := (queueByName?_eq_some_iff.mp hq).mem
    obtain ⟨url, w₁, hurl, hrun⟩ := Attempt.run_bind_eq_ok.mp hrun
    cases hrun
    cases hname
    exact ⟨q, hmem, url, Or.inl ⟨rfl, hurl, rfl⟩⟩
  · split at hrun
    · next q hq =>
      obtain ⟨hmem, hname⟩ := (queueByDlqName?_eq_some_iff.mp hq).mem
      unfold QueueHandle.dlqPurge? at hrun
      split at hrun
      · cases hrun
      · next d hd =>
        rw [QueueHandle.dlqName?, hd] at hname
        cases hname
        obtain ⟨url, w₁, hurl, hrun⟩ := Attempt.run_bind_eq_ok.mp hrun
        cases hrun
        exact ⟨q, hmem, url, Or.inr ⟨d, hd, rfl, hurl, rfl⟩⟩
    · cases hrun

/-- The URL of a request leads where the name does that was asked for. -/
theorem addressed_of_purgeOf (hr : r.Placed) (hw : w.Reachable r) {request : PurgeRequest} {w' : World}
    (hrun : (r.purgeOf? name).result.run w = (.ok (some request), w')) :
    queueNameOfUrl request.url = addressed name := by
  obtain ⟨q, hq, url, ⟨rfl, hurl, rfl⟩ | ⟨d, hd, rfl, hurl, rfl⟩⟩ := purgeOf_cases hrun
  · exact (QueueHandle.url_ok hr hq hw hurl).1
  · exact (QueueHandle.urlOfDlq_ok hr hq hd hw hurl).1

theorem queue_of_purgeOf {request : PurgeRequest} {w' : World}
    (hrun : (r.purgeOf? name).result.run w = (.ok (some request), w')) : request.queue = name := by
  obtain ⟨q, _, url, ⟨_, _, rfl⟩ | ⟨d, _, _, _, rfl⟩⟩ := purgeOf_cases hrun <;> rfl

end Registry

/-! ## What a purge removes -/

namespace PurgeRequest

/-- What a purge by a request returned and left behind, where its URL addresses the queue `Q`. -/
structure Outcome (request : PurgeRequest) (Q : String) (w w' : World) (report : PurgeReport) : Prop where
  /-- What is found is what the queue tells. -/
  found : report.found = (attributesOf Q (w.provider.queues.state Q)).messages
  present : (w.provider.queues.queues.get? Q).isSome
  /-- If that is something, no message is left, visible or in flight. -/
  empties : 0 < report.found → w'.provider.queues.state Q = emptied (w.provider.queues.state Q)
  /-- No other queue changes. -/
  others : ∀ n, n ≠ Q → w'.provider.queues.queues.get? n = w.provider.queues.queues.get? n
  /-- If nothing is found, no queue changes, whatever is in flight. -/
  spares : report.found ≤ 0 → w'.provider.queues.queues = w.provider.queues.queues
  /-- The provider is asked to purge once, if something was found. -/
  calls : w'.provider.queues.callsOf .purgeQueue =
    w.provider.queues.callsOf .purgeQueue + if 0 < report.found then 1 else 0
  /-- One event tells of a purge of something: of which queue, and how much was found. -/
  events : w'.events = w.events ++ if 0 < report.found then
    [⟨"PurgeQueue", [("messages-found", Text.intText report.found), ("queue-name", request.queue)]⟩] else []

variable {request : PurgeRequest} {w w' : World} {report : PurgeReport}

theorem purgeEvent_eq (queue : String) (found : Int) :
    purgeEvent queue found =
      ⟨"PurgeQueue", [("messages-found", Text.intText found), ("queue-name", queue)]⟩ := by
  simp [purgeEvent, Dict.ofList, Dict.put, (by decide : "messages-found" < "queue-name")]

theorem purge_eq_ok (hrun : request.purge.result.run w = (.ok report, w')) :
    ∃ a w₁, (Attempt.call (.queueAttributes request.url)).result.run w = (.ok a, w₁) ∧ report.found = a.messages ∧
      ((report.found ≤ 0 ∧ w' = w₁) ∨
        (0 < report.found ∧ ∃ w₂, (Attempt.call (.purge request.url)).result.run w₁ = (.ok (), w₂) ∧
          w' = { w₂ with events := w₂.events ++ [purgeEvent request.queue report.found] })) := by
  unfold purge at hrun
  obtain ⟨a, w₁, hattributes, hrun⟩ := Attempt.run_bind_eq_ok.mp hrun
  dsimp only at hrun
  split at hrun
  · next hfound =>
    obtain ⟨_, w₂, hpurge, hrun⟩ := Attempt.run_bind_eq_ok.mp hrun
    obtain ⟨_, w₃, htrack, hrun⟩ := Attempt.run_bind_eq_ok.mp hrun
    cases htrack
    cases hrun
    exact ⟨a, w₁, hattributes, rfl, Or.inr ⟨hfound, w₂, hpurge, rfl⟩⟩
  · next hfound =>
    cases hrun
    exact ⟨a, _, hattributes, rfl, Or.inl ⟨Int.not_lt.mp hfound, rfl⟩⟩

theorem purge_outcome (hrun : request.purge.result.run w = (.ok report, w')) :
    request.Outcome (queueNameOfUrl request.url) w w' report := by
  obtain ⟨a, w₁, hattributes, hfound, hrest⟩ := purge_eq_ok hrun
  rw [Attempt.run_queues (c := .queueAttributes request.url) (f := (·.queueAttributes request.url)) w fun _ => rfl]
    at hattributes
  obtain ⟨hreply, rfl⟩ := Prod.mk.inj hattributes
  obtain ⟨_, hpresent, rfl⟩ := of_queueAttributes hreply
  have hquiet := quiet_queueAttributes w.provider.queues request.url
  have hcalls := callsOf_queueAttributes w.provider.queues request.url .purgeQueue
  generalize (w.provider.queues.queueAttributes request.url).2 = s at hquiet hcalls hrest
  rcases hrest with ⟨hnone, rfl⟩ | ⟨hsome, w₂, hpurge, rfl⟩
  · have hnot := Int.not_lt.mpr hnone
    refine ⟨hfound, hpresent, fun h => absurd h hnot, fun n _ => ?_, fun _ => hquiet.queues, ?_, ?_⟩
    · exact congrArg (·.get? n) hquiet.queues
    · rw [if_neg hnot]
      exact hcalls
    · rw [if_neg hnot, List.append_nil]
      rfl
  · rw [Attempt.run_queues (c := .purge request.url) (f := (·.purge request.url)) _ fun _ => rfl] at hpurge
    have hpurged := callsOf_purge s request.url .purgeQueue
    rcases purge_cases s request.url with ⟨e, t, heq, _⟩ | ⟨state, t, hstate, heq, hput⟩
    · rw [show (w.withQueues s).provider.queues = s from rfl, heq] at hpurge
      cases hpurge
    · rw [show (w.withQueues s).provider.queues = s from rfl, heq] at hpurge
      rw [heq, hcalls] at hpurged
      cases hpurge
      refine ⟨hfound, hpresent, fun _ => ?_, fun n hn => ?_, fun h => absurd hsome (Int.not_lt.mpr h), ?_, ?_⟩
      · rw [← hquiet.state, state_of_get? hstate]
        exact hput.state_self
      · rw [← hquiet.queues]
        exact hput.get?_of_ne hn
      · rw [if_pos hsome]
        exact hpurged
      · rw [if_pos hsome, purgeEvent_eq]
        rfl

end PurgeRequest

namespace Registry

/-- A purge acts on the queue that was named. The name is resolved to the last queue that has it for its main name, else
to the last one whose dead letter queue has it, else to nothing without asking anybody; a purge by the request for it
that succeeds empties the queue of the request if that told of messages, and does nothing else. -/
theorem purges_named (r : Registry) (name : String) (w : World) :
    (∀ q, IsLast (·.name = name) r.queues q →
      (r.purgeOf? name).result.run w =
        ((q.url.result.run w).1.map fun url => some ⟨name, url, q.client⟩, (q.url.result.run w).2)) ∧
    ((∀ q ∈ r.queues, q.name ≠ name) →
      ∀ q d, IsLast (·.dlqName? = some name) r.queues q → q.dlq = some d →
        (r.purgeOf? name).result.run w =
          (((q.urlOfDlq name).result.run w).1.map fun url => some ⟨name, url, d.client⟩,
            ((q.urlOfDlq name).result.run w).2)) ∧
    ((∀ q ∈ r.queues, q.name ≠ name ∧ q.dlqName? ≠ some name) →
      (r.purgeOf? name).result.run w = (.ok none, w) ∧ (r.purgeOf? name).result.journal w = []) ∧
    w.Untouched ((r.purgeOf? name).result.run w).2 ∧
    ∀ request w₁, (r.purgeOf? name).result.run w = (.ok (some request), w₁) →
      (r.Placed → w.Reachable r → queueNameOfUrl request.url = addressed name) ∧
      ∀ w₂ report w₃, request.purge.result.run w₂ = (.ok report, w₃) →
        request.queue = name ∧ request.Outcome (queueNameOfUrl request.url) w₂ w₃ report := by
  refine ⟨fun q hq => purgeOf_main hq w, fun hmain q d hq hd => purgeOf_dlq hmain hq hd w, fun hnone => ?_,
    (r.purgeOf_looks name).untouched w, fun request w₁ hrun => ⟨fun hr hw => addressed_of_purgeOf hr hw hrun, ?_⟩⟩
  · rw [purgeOf_nothing hnone]
    exact ⟨rfl, rfl⟩
  · intro w₂ report w₃ hpurge
    exact ⟨queue_of_purgeOf hrun, PurgeRequest.purge_outcome hpurge⟩

/-- The name is that of a queue and of the dead letter queue of another one, and of the two messages on that queue one is
in flight: the queue with the main name loses both, and one event tells of one that was found there. -/
theorem purges_named_shared :
    let r := ofHandles
      [{ id := "a", name := "a", client := 0, dlq := some ⟨"b", 1⟩ }, { id := "b", name := "b", client := 2 }] [] [] ⟨[]⟩
    let p := Memory.Control.apply (Memory.Control.apply {} (.seed "b" { body := "x" })) (.seed "b" { body := "y" })
    let w : World := { provider := (p.perform (.receive (urlOf "b") 1 0)).2 }
    ∃ request w₁ report w₂, (r.purgeOf? "b").result.run w = (.ok (some request), w₁) ∧ request.client = 2 ∧
      queueNameOfUrl request.url = "b" ∧ request.purge.result.run w₁ = (.ok report, w₂) ∧ report.found = 1 ∧
      request.Outcome "b" w₁ w₂ report ∧ (w₂.provider.queues.state "b").messages = [] ∧
      w₂.events = [⟨"PurgeQueue", [("messages-found", "1"), ("queue-name", "b")]⟩] := by
  intro r p w
  have hw : w.Reachable r := .start (.call _ (.control _ (.control _ (.start true)))) _
  obtain ⟨_, _, _, _, hresolved⟩ := purges_named r "b" w
  let request : PurgeRequest := ⟨"b", urlOf "b", 2⟩
  have hrequest : ((r.purgeOf? "b").result.run w).1.toOption = some (some request) := by decide +kernel
  have hsilent : ((r.purgeOf? "b").result.run w).2.events = [] := by decide +kernel
  have hfound : (request.purge.result.run ((r.purgeOf? "b").result.run w).2).1.toOption.map (·.found) = some 1 := by
    decide +kernel
  rcases hrun : (r.purgeOf? "b").result.run w with ⟨o, w₁⟩
  rw [hrun] at hrequest hfound hsilent
  cases o with
  | error e => cases hrequest
  | ok o =>
    cases hrequest
    rcases hpurge : request.purge.result.run w₁ with ⟨o, w₂⟩
    rw [hpurge] at hfound
    cases o with
    | error e => cases hfound
    | ok report =>
      have hfound : report.found = 1 := Option.some.inj hfound
      obtain ⟨haddressed, hpurges⟩ := hresolved request w₁ hrun
      have hqueue : queueNameOfUrl request.url = "b" :=
        (haddressed (placed_ofHandles _ _ _ _) hw).trans (addressed_of_notMem (by decide))
      obtain ⟨_, houtcome⟩ := hpurges w₁ report w₂ hpurge
      rw [hqueue] at houtcome
      have hempty := houtcome.empties (hfound ▸ Int.one_pos)
      have htold := houtcome.events
      rw [hsilent, hfound] at htold
      exact ⟨request, w₁, report, w₂, rfl, rfl, hqueue, hpurge, hfound, houtcome, by rw [hempty]; rfl, htold⟩

end Registry

end DeadLetter
