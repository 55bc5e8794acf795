import DeadLetter.Proofs.Deliveries
import DeadLetter.Proofs.Redriving
import DeadLetter.Service.Inspect

/-!
# What an inspection reads

Reading messages in batches, until enough are there or a batch is empty, takes the first ones of the queue as one batch
(`collect_eq_ok`). No batch asks for more than ten messages or more than are still wanted (`collect_asks`), and there are
as many as the messages that are read fill, and one more if these are too few (`collect_tally`). All this is by induction
on how many are wanted, each batch that is not empty leaving fewer (`collect_cases`). `QueueHandle.inspect_outcome` :
what an inspection reports and leaves behind.
-/

namespace DeadLetter

set_option autoImplicit false

open QueueStore

/-- The number of messages that an entry asks for, if it is a receive. -/
def Entry.asked? : Entry → Option Nat
  | ⟨.call (.receive _ limit _), _⟩ => some limit
  | _ => none

/-- Only looking brings no messages. -/
theorem Entry.delivered_of_looks {e : Entry} (h : e.action.Looks) : e.delivered = [] := by
  obtain ⟨a, o⟩ := e
  cases a with
  | call c =>
    cases c with
    | receive url limit wait => cases h
    | _ => cases o <;> rfl
  | _ => rfl

theorem Entry.asked?_of_looks {e : Entry} (h : e.action.Looks) : e.asked? = none := by
  obtain ⟨a, o⟩ := e
  cases a with
  | call c =>
    cases c with
    | receive url limit wait => cases h
    | _ => rfl
  | _ => rfl

namespace QueueHandle

/-! ## Batches -/

section Collect
variable {url : String} {wanted : Nat} {w w' : World} {ms : List Received}

theorem collect_zero (url : String) : collect url 0 = pure [] := by
  unfold collect
  rfl

/-- What a reading starts with: a receive that fails, one that brings nothing, or a batch and what is read after it. -/
theorem collect_cases (url : String) (hwanted : 0 < wanted) (w : World) :
    (∃ e t, Quiet w.provider.queues t ∧
      (collect url wanted).result.run w = (.error e, w.withQueues t) ∧
      (collect url wanted).result.journal w = [⟨.call (.receive url (min wanted Call.maxBatch) 0), .error e⟩]) ∨
    ∃ batch t, Takes w.provider.queues t (queueNameOfUrl url) (min wanted Call.maxBatch) batch ∧
      let others := if batch = [] then pure [] else collect url (wanted - batch.length)
      (collect url wanted).result.run w =
        ((others.result.run (w.withQueues t)).1.map (handedOut batch ++ ·), (others.result.run (w.withQueues t)).2) ∧
      (collect url wanted).result.journal w =
        ⟨.call (.receive url (min wanted Call.maxBatch) 0), .ok (handedOut batch)⟩ :: others.result.journal (w.withQueues t) := by
  rw [collect]
  rw [if_neg (Nat.pos_iff_ne_zero.mp hwanted), Attempt.run_bind, Attempt.journal_bind]
  have hrun {o : Except QueueError (List Received)} {t : QueueStore}
      (h : w.provider.queues.receive url (min wanted Call.maxBatch) = (o, t)) :
      (Attempt.call (.receive url (min wanted Call.maxBatch) 0)).result.run w = (o, w.withQueues t) :=
    Attempt.run_receive h
  rcases receive_cases w.provider.queues url (min wanted Call.maxBatch) with
    ⟨e, t, hreceive, hquiet⟩ | ⟨_, batch, t, hreceive, htakes⟩
  · rw [Attempt.journal_call (hrun hreceive), hrun hreceive]
    exact Or.inl ⟨e, t, hquiet, rfl, rfl⟩
  · rw [Attempt.journal_call (hrun hreceive), hrun hreceive]
    refine Or.inr ⟨batch, t, htakes, ?_⟩
    cases batch with
    | nil => exact ⟨rfl, rfl⟩
    | cons e batch =>
      rw [if_neg (List.cons_ne_nil e batch)]
      rw [← length_handedOut (e :: batch)]
      have hrun := Attempt.run_bind (collect url (wanted - (handedOut (e :: batch)).length))
        (fun rest => pure (handedOut (e :: batch) ++ rest)) (w.withQueues t)
      refine ⟨hrun.trans ?_, congrArg _ (Attempt.journal_map _ _ _)⟩
      rcases (collect url (wanted - (handedOut (e :: batch)).length)).result.run (w.withQueues t) with ⟨o, w₂⟩
      cases o <;> rfl

/-- A reading that succeeds took one batch: as many of the first messages as were wanted, or all if these are fewer. -/
theorem collect_eq_ok (hrun : (collect url wanted).result.run w = (.ok ms, w')) :
    ∃ batch t, ms = handedOut batch ∧ w' = w.withQueues t ∧
      Takes w.provider.queues t (queueNameOfUrl url) batch.length batch ∧
      batch.length = min wanted (w.provider.queues.state (queueNameOfUrl url)).visible.length ∧
      ((collect url wanted).result.journal w).flatMap Entry.delivered = ms := by
  induction wanted using Nat.strongRecOn generalizing w ms with
  | _ wanted ih =>
    rcases Nat.eq_zero_or_pos wanted with rfl | hwanted
    · rw [collect_zero] at hrun ⊢
      cases hrun
      exact ⟨[], _, rfl, rfl, takes_refl _ _, (Nat.zero_min _).symm, rfl⟩
    rcases collect_cases url hwanted w with ⟨e, t, _, heq, _⟩ | ⟨batch, t, htakes, heq, hjournal⟩
    · rw [heq] at hrun
      cases hrun
    rw [heq] at hrun
    rw [hjournal, List.flatMap_cons]
    have hlength := htakes.length_batch
    by_cases hbatch : batch = []
    · subst hbatch
      cases hrun
      refine ⟨[], t, rfl, rfl, htakes.exact, ?_, rfl⟩
      rw [Call.maxBatch] at hlength
      rw [List.length_nil] at hlength ⊢
      omega
    · rw [if_neg hbatch] at hrun ⊢
      have hpos := List.length_pos_iff.mpr hbatch
      rcases hothers : (collect url (wanted - batch.length)).result.run (w.withQueues t) with ⟨o, u⟩
      rw [hothers] at hrun
      cases o with
      | error e => cases hrun
      | ok others =>
        cases hrun
        obtain ⟨batch', t', rfl, rfl, htakes', hlength', hdelivered⟩ := ih _ (by omega) hothers
        have hvisible := congrArg (·.visible.length) htakes.exact.self
        simp only [List.length_drop] at hvisible
        refine ⟨batch ++ batch', t', List.map_append.symm, rfl, ?_, ?_, congrArg _ hdelivered⟩
        · rw [List.length_append]
          exact htakes.exact.trans htakes'
        · rw [show (w.withQueues t).provider.queues = t from rfl, hvisible] at hlength'
          rw [List.length_append]
          omega

/-- No batch asks for more than ten messages, or for more than are still wanted. -/
theorem collect_asks {before after : List Entry} {url' : String} {limit : Nat} {wait : Int}
    {o : Except QueueError (List Received)}
    (h : (collect url wanted).result.journal w = before ++ ⟨.call (.receive url' limit wait), o⟩ :: after) :
    url' = url ∧ 0 < limit ∧ limit ≤ Call.maxBatch ∧ limit + (before.flatMap Entry.delivered).length ≤ wanted := by
  induction wanted using Nat.strongRecOn generalizing w before with
  | _ wanted ih =>
    rcases Nat.eq_zero_or_pos wanted with rfl | hwanted
    · rw [collect_zero] at h
      cases before <;> cases h
    have hfirst : 0 < min wanted Call.maxBatch ∧ min wanted Call.maxBatch ≤ Call.maxBatch ∧
        min wanted Call.maxBatch + 0 ≤ wanted :=
      ⟨Nat.lt_min.mpr ⟨hwanted, by decide⟩, Nat.min_le_right _ _, Nat.min_le_left _ _⟩
    rcases collect_cases url hwanted w with ⟨e, t, _, _, hjournal⟩ | ⟨batch, t, htakes, _, hjournal⟩
    · rw [hjournal] at h
      cases before with
      | nil =>
        cases h
        exact ⟨rfl, hfirst⟩
      | cons first before => cases before <;> cases h
    · rw [hjournal] at h
      cases before with
      | nil =>
        cases h
        exact ⟨rfl, hfirst⟩
      | cons first before =>
        obtain ⟨rfl, hothers⟩ := List.cons.inj h
        by_cases hbatch : batch = []
        · rw [if_pos hbatch] at hothers
          cases before <;> cases hothers
        · rw [if_neg hbatch] at hothers
          have hpos := List.length_pos_iff.mpr hbatch
          have hlength := htakes.length_batch
          obtain ⟨hurl, hlow, hhigh, hle⟩ := ih _ (by omega) hothers
          refine ⟨hurl, hlow, hhigh, ?_⟩
          rw [List.flatMap_cons, List.length_append, show Entry.delivered _ = handedOut batch from rfl, length_handedOut]
          omega

/-- What a reading is handed out is there and wanted. It makes a call for every ten messages that it is handed out, and
one that brings nothing if it is handed out less than it wants. -/
theorem collect_tally (url : String) (wanted : Nat) (w : World) :
    ∃ n, (((collect url wanted).result.journal w).flatMap Entry.delivered).length = n ∧
      n ≤ wanted ∧ n ≤ (w.provider.queues.state (queueNameOfUrl url)).visible.length ∧
      (((collect url wanted).result.journal w).filterMap Entry.asked?).length =
        (n + 9) / 10 + if n < wanted then 1 else 0 := by
  induction wanted using Nat.strongRecOn generalizing w with
  | _ wanted ih =>
    rcases Nat.eq_zero_or_pos wanted with rfl | hwanted
    · rw [collect_zero]
      exact ⟨0, rfl, Nat.le_refl _, Nat.zero_le _, rfl⟩
    rcases collect_cases url hwanted w with ⟨e, t, _, _, hjournal⟩ | ⟨batch, t, htakes, _, hjournal⟩
    · rw [hjournal]
      exact ⟨0, rfl, Nat.zero_le _, Nat.zero_le _, by rw [if_pos hwanted]; rfl⟩
    · rw [hjournal]
      by_cases hbatch : batch = []
      · subst hbatch
        exact ⟨0, rfl, Nat.zero_le _, Nat.zero_le _, by rw [if_pos hwanted]; rfl⟩
      · rw [if_neg hbatch]
        have hpos := List.length_pos_iff.mpr hbatch
        have hlength := htakes.length_batch
        rw [Call.maxBatch] at hlength
        have hvisible := congrArg (·.visible.length) htakes.exact.self
        simp only [List.length_drop] at hvisible
        obtain ⟨n, hdelivered, hwants, hthere, hasked⟩ := ih (wanted - batch.length) (by omega) (w.withQueues t)
        rw [show (w.withQueues t).provider.queues = t from rfl, hvisible] at hthere
        refine ⟨batch.length + n, ?_, by omega, by omega, ?_⟩
        · rw [List.flatMap_cons, List.length_append, hdelivered, show Entry.delivered _ = handedOut batch from rfl,
            length_handedOut]
        · rw [List.filterMap_cons_some (show Entry.asked? _ = some _ from rfl), List.length_cons, hasked]
          split <;> split <;> omega

end Collect

/-! ## Inspections -/

variable {q : QueueHandle} {d : DlqHandle} {p : NumberPolicy} {limit : Int} {w w' : World} {report : InspectionReport}

/-- What an inspection reported and left behind, where `D` is the dead letter queue and `batch` was taken off it. -/
structure Inspection (D : String) (p : NumberPolicy) (limit : Int) (w w' : World) (report : InspectionReport)
    (batch : List (String × Stored)) : Prop where
  /-- What is found is what the queue tells. -/
  found : report.found = (attributesOf D (w.provider.queues.state D)).messages
  /-- As many messages are read as were found and asked for, or all that are visible if these are fewer. -/
  taken : batch.length = min (max (min report.found limit) 0).toNat (w.provider.queues.state D).visible.length
  /-- As many are returned, and counted as such. -/
  length : report.messages.length = batch.length
  returned : report.returned = batch.length
  /-- All of this is written out. -/
  written : report.toJson = .object [("messages", .array (report.messages.map (·.toJson))),
    ("messagesFoundCount", .int report.found), ("messagesReturnedCount", .int batch.length)]
  /-- They are the first ones, in order. -/
  messages : report.messages = ((w.provider.queues.state D).visible.take batch.length).map fun m =>
    ⟨decodeBody p m.body, m.id, m.attributes⟩
  /-- In flight each of them is as it was, but for one more delivery. -/
  front : batch.map (·.2) = ((w.provider.queues.state D).visible.take batch.length).map Stored.delivered
  dlq : w'.provider.queues.state D = { w.provider.queues.state D with
    visible := (w.provider.queues.state D).visible.drop batch.length
    inFlight := (w.provider.queues.state D).inFlight ++ batch }
  others : ∀ n, n ≠ D → w'.provider.queues.queues.get? n = w.provider.queues.queues.get? n
  events : w'.events = w.events

theorem toJson_eq (report : InspectionReport) :
    report.toJson = .object [("messages", .array (report.messages.map (·.toJson))),
      ("messagesFoundCount", .int report.found), ("messagesReturnedCount", .int report.returned)] := by
  have hfirst : "messages" < "messagesFoundCount" := by decide
  have hlast : "messagesFoundCount" < "messagesReturnedCount" := by decide
  simp [InspectionReport.toJson, Json.ofMembers, Dict.ofList, Dict.put, hfirst, not_lt_of_gt hlast]

/-- An inspection that succeeds has looked up its dead letter queue, counted its messages, and read some. -/
theorem inspect_eq_ok (hd : q.dlq = some d) (hrun : (q.inspect p limit).result.run w = (.ok report, w')) :
    ∃ url w₁ a w₂ ms, (q.urlOfDlq d.name).result.run w = (.ok url, w₁) ∧
      (Attempt.call (.queueAttributes url)).result.run w₁ = (.ok a, w₂) ∧
      (collect url (min a.messages limit).toNat).result.run w₂ = (.ok ms, w') ∧
      report = ⟨a.messages, ms.length, ms.map (·.report p)⟩ := by
  rw [inspect, hd] at hrun
  obtain ⟨url, w₁, hlookUp, hrun⟩ := Attempt.run_bind_eq_ok.mp hrun
  obtain ⟨a, w₂, hattributes, hrun⟩ := Attempt.run_bind_eq_ok.mp hrun
  obtain ⟨ms, w₃, hcollect, hrun⟩ := Attempt.run_bind_eq_ok.mp hrun
  cases hrun
  exact ⟨url, w₁, a, w₂, ms, hlookUp, hattributes, hcollect, rfl⟩

theorem inspect_takes (hd : q.dlq = some d) (hrun : (q.inspect p limit).result.run w = (.ok report, w')) :
    ∃ url w₁ batch, (q.urlOfDlq d.name).result.run w = (.ok url, w₁) ∧
      Inspection (queueNameOfUrl url) p limit w w' report batch := by
  obtain ⟨url, w₁, a, w₂, ms, hlookUp, hattributes, hcollect, rfl⟩ := inspect_eq_ok hd hrun
  have hglance := World.Glanced.run (q.urlOfDlq_consults hd) w
  rw [hlookUp] at hglance
  have hasked : w₁.Glanced (w₁.perform (.call (.queueAttributes url))).2 := .call w₁ rfl
  have hreply : (w₁.provider.queues.queueAttributes url).1 = .ok a := congrArg Prod.fst hattributes
  rw [show (w₁.perform (.call (.queueAttributes url))).2 = w₂ from congrArg Prod.snd hattributes] at hasked
  have hglanced := hglance.trans hasked
  obtain ⟨_, _, ha⟩ := of_queueAttributes hreply
  obtain ⟨batch, t, rfl, rfl, htakes, hlength, _⟩ := collect_eq_ok hcollect
  obtain ⟨_, _, hothers, _, hself, hfront⟩ := htakes
  rw [hglanced.quiet.state] at hlength hself hfront
  rw [hglanced.quiet.queues] at hothers
  rw [hglance.quiet.state] at ha
  refine ⟨url, w₁, batch, hlookUp, congrArg (·.messages) ha, ?_, ?_, congrArg Int.ofNat (length_handedOut batch), ?_, ?_,
    hfront, hself, hothers, hglanced.events⟩
  · rw [hlength]
    dsimp only
    omega
  · rw [List.length_map, length_handedOut]
  · rw [toJson_eq, length_handedOut]
  · let reported (m : Stored) : ReportedMessage := ⟨decodeBody p m.body, m.id, m.attributes⟩
    have hreports := congrArg (List.map reported) hfront
    rw [List.map_map, List.map_map] at hreports
    rw [handedOut, List.map_map]
    exact hreports

/-- Nothing is received before the dead letter queue is found and counted, and then its messages are read. -/
theorem inspect_journal (hd : q.dlq = some d) (p : NumberPolicy) (limit : Int) (w : World) :
    ∃ looks : List Entry, (∀ e ∈ looks, e.action.Looks) ∧
      ((q.inspect p limit).result.journal w = looks ∨
        ∃ url a w₂, ⟨.call (.queueAttributes url), .ok a⟩ ∈ looks ∧
          (q.inspect p limit).result.journal w =
            looks ++ (collect url (min a.messages limit).toNat).result.journal w₂) := by
  have hlooks := (q.urlOfDlq_looks hd).journal w
  rw [inspect, hd]
  dsimp only
  rw [Attempt.journal_bind]
  rcases (q.urlOfDlq d.name).result.run w with ⟨e | url, w₁⟩
  · exact ⟨_, hlooks, Or.inl (List.append_nil _)⟩
  · dsimp only
    rw [Attempt.journal_bind]
    rcases hcall : (Attempt.call (.queueAttributes url)).result.run w₁ with ⟨o, w₂⟩
    rw [Attempt.journal_call hcall]
    refine ⟨_ ++ [⟨.call (.queueAttributes url), o⟩], List.forall_mem_append.mpr ⟨hlooks, ?_⟩, ?_⟩
    · exact List.forall_mem_singleton.mpr rfl
    cases o with
    | error e =>
      left
      rfl
    | ok a =>
      refine Or.inr ⟨url, a, w₂, List.mem_append_right _ (List.mem_singleton_self _), ?_⟩
      dsimp only
      rw [Attempt.journal_map, List.append_assoc]

/-- What an inspection does, if there is a dead letter queue. If it succeeds, it took messages off that queue and
reported them. No batch asks for more than ten messages, or for more than are still wanted by what was counted, and there
are only so many batches. -/
theorem inspect_outcome (hd : q.dlq = some d) (p : NumberPolicy) (limit : Int) (w : World) :
    (∀ report w', (q.inspect p limit).result.run w = (.ok report, w') →
      ∃ url batch, w.urlFor? (w.known q.slot).dlqUrl d.name = some url ∧
        (∀ r : Registry, r.Placed → q ∈ r.queues → w.Reachable r → queueNameOfUrl url = addressed d.name) ∧
        Inspection (queueNameOfUrl url) p limit w w' report batch) ∧
    (∀ before url count wait o after,
      (q.inspect p limit).result.journal w = before ++ ⟨.call (.receive url count wait), o⟩ :: after →
      0 < count ∧ count ≤ Call.maxBatch ∧ ∃ a, ⟨.call (.queueAttributes url), .ok a⟩ ∈ before ∧
        count + (before.flatMap Entry.delivered).length ≤ (min a.messages limit).toNat) ∧
    (((q.inspect p limit).result.journal w).filterMap Entry.asked?).length ≤
      ((((q.inspect p limit).result.journal w).flatMap Entry.delivered).length + 9) / 10 + 1 := by
  refine ⟨fun report w' hrun => ?_, ?_, ?_⟩
  · obtain ⟨url, w₁, batch, hlookUp, houtcome⟩ := inspect_takes hd hrun
    refine ⟨url, batch, ?_, fun r hr hq hw => (urlOfDlq_ok hr hq hd hw hlookUp).1, houtcome⟩
    rw [← lookUp_toOption q.slot (·.dlqUrl) .dlqUrl, ← urlOfDlq_eq, hlookUp]
    rfl
  · intro before url count wait o after hsplit
    obtain ⟨looks, hlooks, hjournal | ⟨url', a, w₂, hcounted, hjournal⟩⟩ := inspect_journal hd p limit w
    · rw [hjournal] at hsplit
      have hmem : ⟨.call (.receive url count wait), o⟩ ∈ looks := hsplit ▸ List.mem_append_right _ List.mem_cons_self
      exact absurd (hlooks _ hmem) Bool.false_ne_true
    rw [hjournal] at hsplit
    rcases List.append_eq_append_iff.mp hsplit with ⟨between, rfl, hread⟩ | ⟨_ | ⟨e, between⟩, rfl, hread⟩
    · obtain ⟨rfl, hlow, hhigh, hle⟩ := collect_asks hread
      refine ⟨hlow, hhigh, a, List.mem_append_left _ hcounted, ?_⟩
      rw [List.flatMap_append, List.flatMap_eq_nil_iff.mpr fun e he => Entry.delivered_of_looks (hlooks e he)]
      exact hle
    · rw [← List.nil_append (_ :: after)] at hread
      obtain ⟨rfl, hlow, hhigh, hle⟩ := collect_asks hread.symm
      rw [List.append_nil] at hcounted hlooks
      refine ⟨hlow, hhigh, a, hcounted, ?_⟩
      rw [List.flatMap_eq_nil_iff.mpr fun e he => Entry.delivered_of_looks (hlooks e he)]
      exact hle
    · obtain ⟨rfl, _⟩ := List.cons.inj hread
      exact absurd (hlooks _ (List.mem_append_right _ List.mem_cons_self)) Bool.false_ne_true
  · obtain ⟨looks, hlooks, hjournal⟩ := inspect_journal hd p limit w
    have hdelivered := List.flatMap_eq_nil_iff.mpr fun e he => Entry.delivered_of_looks (hlooks e he)
    have hasked := List.filterMap_eq_nil_iff.mpr fun e he => Entry.asked?_of_looks (hlooks e he)
    rcases hjournal with hjournal | ⟨url, a, w₂, _, hjournal⟩
    · rw [hjournal, hasked]
      exact Nat.zero_le _
    · obtain ⟨n, hn, _, _, hcount⟩ := collect_tally url (min a.messages limit).toNat w₂
      rw [hjournal, List.filterMap_append, List.flatMap_append, hdelivered, hasked, List.nil_append, List.nil_append, hn,
        hcount]
      split <;> omega

/-- Of two messages twelve are counted, and eleven asked for: a batch of ten brings both, and one of nine none. Both are
returned. -/
theorem inspect_outcome_overcounted :
    let q : QueueHandle := { id := "a", name := "a", client := 0, dlq := some ⟨"a-dlq", 1⟩ }
    let p := Memory.Control.apply (Memory.Control.apply {} (.seed "a-dlq" { body := "x" }))
      (.seed "a-dlq" { body := "y" })
    let w : World := { provider := Memory.Control.apply p (.reportCount "a-dlq" 12) }
    ∃ report w' batch, (q.inspect .double 11).result.run w = (.ok report, w') ∧
      Inspection "a-dlq" .double 11 w w' report batch ∧ report.found = 12 ∧ report.returned = 2 ∧
      report.toJson.get? "messagesReturnedCount" = some (.int 2) ∧ report.messages.map (·.id) = ["msg-1", "msg-2"] ∧
      ((q.inspect .double 11).result.journal w).filterMap Entry.asked? = [10, 9] := by
  intro q p w
  have hw : w.Reachable (.ofHandles [q] [] [] ⟨[]⟩) :=
    .start (.control _ (.control _ (.control _ (.start true)))) _
  obtain ⟨houtcome, _, _⟩ := inspect_outcome (q := q) rfl .double 11 w
  have hfound : ((q.inspect .double 11).result.run w).1.toOption.map (·.found) = some 12 := by decide +kernel
  rcases hrun : (q.inspect .double 11).result.run w with ⟨o, w'⟩
  rw [hrun] at hfound
  cases o with
  | error e => cases hfound
  | ok report =>
    have hfound : report.found = 12 := Option.some.inj hfound
    obtain ⟨url, batch, _, haddressed, htakes⟩ := houtcome report w' hrun
    have hqueue : queueNameOfUrl url = "a-dlq" :=
      (haddressed _ (Registry.placed_ofHandles [q] [] [] ⟨[]⟩) (List.mem_singleton_self q) hw).trans
        (addressed_of_notMem (by decide))
    rw [hqueue] at htakes
    have hlength : batch.length = 2 := by
      rw [htakes.taken, hfound]
      decide +kernel
    have hids : report.messages.map (·.id) = ["msg-1", "msg-2"] := by
      rw [htakes.messages, hlength]
      decide +kernel
    refine ⟨report, w', batch, rfl, htakes, hfound, ?_, ?_, hids, by decide +kernel⟩
    · rw [htakes.returned, hlength]
      rfl
    · rw [htakes.written, hlength]
      rfl

end QueueHandle

end DeadLetter
