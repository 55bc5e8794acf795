import DeadLetter.Proofs.Service.Stages

/-!
# What the health of a queue tells

Each of the two stages of a check, `Health.readMain` and `Health.readDlq`, keeps to telling an error exactly of what is
down (`Health.Candid`), and adds its own details and no others. So a check diagnoses the queue and disturbs nothing:
`QueueHandle.health_diagnoses`.
-/

namespace DeadLetter

set_option autoImplicit false

namespace Health

/-! ## Details -/

@[simp] theorem get?_start (key name key' : String) :
    (start key name).details.get? key' = if key' = key then some (.string name) else none :=
  Dict.get?_put [] key key' _

@[simp] theorem get?_detail (h : Health) (key key' : String) (value : Json) :
    (h.detail key value).details.get? key' = if key' = key then some value else h.details.get? key' :=
  Dict.get?_put _ _ _ _

@[simp] theorem get?_fail (h : Health) (reason key' : String) :
    (h.fail reason).details.get? key' = if key' = "error" then some (.string reason) else h.details.get? key' :=
  get?_detail _ _ _ _

/-- An error is told exactly of what is down. -/
def Candid (h : Health) : Prop := (h.details.get? "error").isSome ↔ h.status = .down

theorem candid_start {key : String} (hkey : key ≠ "error") (name : String) : (start key name).Candid := by
  have hnone : (start key name).details.get? "error" = none := by rw [get?_start, if_neg hkey.symm]
  unfold Candid
  rw [hnone]
  exact ⟨nofun, nofun⟩

theorem Candid.detail {h : Health} (hcandid : h.Candid) {key : String} (hkey : key ≠ "error") (value : Json) :
    (h.detail key value).Candid := by
  unfold Candid
  rw [get?_detail, if_neg hkey.symm]
  exact hcandid

/-- Whatever was told before, a failure tells its own error. -/
theorem candid_fail (h : Health) (reason : String) : (h.fail reason).Candid := by
  unfold Candid
  rw [get?_fail, if_pos rfl]
  exact ⟨fun _ => rfl, fun _ => rfl⟩

theorem Candid.readMain {h : Health} (hcandid : h.Candid) (o : Except QueueError QueueAttributes) :
    (h.readMain o).Candid := by
  cases o with
  | ok a => exact (hcandid.detail (by decide) _).detail (by decide) _
  | error e => exact candid_fail _ _

theorem Candid.readDlq {h : Health} (hcandid : h.Candid) (o : Except String QueueAttributes) :
    (h.readDlq o).Candid := by
  cases o with
  | ok a => exact (hcandid.detail (by decide) _).detail (by decide) _
  | error reason => exact candid_fail _ _

theorem get?_readMain (h : Health) (o : Except QueueError QueueAttributes) {key : String} (hkey : key ≠ "error") :
    (h.readMain o).details.get? key =
      if key = "messagesOnQueue" then (o.toOption.map fun a => .int a.messages).or (h.details.get? key)
      else if key = "messagesInFlight" then (o.toOption.map fun a => .int a.inFlight).or (h.details.get? key)
      else h.details.get? key := by
  cases o with
  | ok a =>
    by_cases hmessages : key = "messagesOnQueue"
    · simp [readMain, hmessages, Except.toOption]
    · by_cases hinFlight : key = "messagesInFlight" <;> simp [readMain, hmessages, hinFlight, Except.toOption]
  | error e => simp [readMain, hkey, Except.toOption]

theorem get?_readDlq (h : Health) (o : Except String QueueAttributes) {key : String} (hkey : key ≠ "error") :
    (h.readDlq o).details.get? key =
      if key = "dlqStatus" then some (.string (if o.toOption.isSome then HealthStatus.up else .down).name)
      else if key = "messagesOnDlq" then (o.toOption.map fun a => .int a.messages).or (h.details.get? key)
      else h.details.get? key := by
  cases o with
  | ok a =>
    by_cases hstatus : key = "dlqStatus"
    · simp [readDlq, hstatus, Except.toOption]
    · by_cases hmessages : key = "messagesOnDlq" <;> simp [readDlq, hstatus, hmessages, Except.toOption]
  | error reason =>
    by_cases hstatus : key = "dlqStatus" <;> simp [readDlq, hkey, hstatus, Except.toOption]

end Health

/-! ## What is told -/

namespace QueueHandle
variable {q : QueueHandle} {w : World}

/-- The health of a queue tells exactly what a check finds in a world. -/
structure Diagnosed (q : QueueHandle) (w : World) (h : Health) : Prop where
  status : h.status = .up ↔ q.Works w
  error : (h.details.get? "error").isSome ↔ h.status = .down
  messages : h.details.get? "messagesOnQueue" = (q.attributesIn? w).map fun a => .int a.messages
  inFlight : h.details.get? "messagesInFlight" = (q.attributesIn? w).map fun a => .int a.inFlight
  dlqStatus : h.details.get? "dlqStatus" =
    q.dlq.map fun _ => .string (if (q.dlqFoundIn? w).isSome then HealthStatus.up else .down).name
  dlqMessages : h.details.get? "messagesOnDlq" = (q.dlqFoundIn? w).map fun a => .int a.messages

theorem health_candid (q : QueueHandle) (w : World) : (q.health.run w).1.Candid := by
  have hstart : (Health.start "queueName" q.name).Candid := Health.candid_start (by decide) _
  cases hd : q.dlq with
  | none =>
    obtain ⟨o, -, hrun⟩ := health_of_no_dlq hd w
    rw [hrun]
    exact hstart.readMain o
  | some dlq =>
    obtain ⟨o, o', -, -, hrun⟩ := health_of_dlq hd w
    rw [hrun]
    exact ((hstart.readMain o).detail (by decide) _).readDlq o'

theorem health_diagnosed (q : QueueHandle) (w : World) : q.Diagnosed w (q.health.run w).1 := by
  have hcandid := q.health_candid w
  have hstatus := q.health_up_iff w
  cases hd : q.dlq with
  | none =>
    obtain ⟨o, ho, hrun⟩ := health_of_no_dlq hd w
    have hfound : q.dlqFoundIn? w = none := by rw [dlqFoundIn?, hd, Option.bind_none]
    rw [hrun] at hcandid hstatus ⊢
    refine ⟨hstatus, hcandid, ?_, ?_, ?_, ?_⟩
    all_goals rw [Health.get?_readMain _ _ (by decide)]
    all_goals simp [hd, ho, hfound]
  | some dlq =>
    obtain ⟨o, o', ho, ho', hrun⟩ := health_of_dlq hd w
    rw [hrun] at hcandid hstatus ⊢
    refine ⟨hstatus, hcandid, ?_, ?_, ?_, ?_⟩
    all_goals rw [Health.get?_readDlq _ _ (by decide), Health.get?_detail, Health.get?_readMain _ _ (by decide)]
    all_goals simp [hd, ho, ho']

theorem isSome_dlq_of_dlqFoundIn? (h : (q.dlqFoundIn? w).isSome) : q.dlq.isSome := by
  cases hd : q.dlq with
  | some dlq => rfl
  | none =>
    rw [dlqFoundIn?, hd] at h
    cases h

theorem Diagnosed.dlqMessages_iff {h : Health} (hq : q.Diagnosed w h) :
    (h.details.get? "messagesOnDlq").isSome ↔ h.details.get? "dlqStatus" = some (.string HealthStatus.up.name) := by
  rw [hq.dlqMessages, hq.dlqStatus, Option.isSome_map]
  constructor
  · intro hfound
    obtain ⟨dlq, hd⟩ := Option.isSome_iff_exists.mp (isSome_dlq_of_dlqFoundIn? hfound)
    simp [hd, hfound]
  · intro htold
    by_contra hfound
    simp [hfound, HealthStatus.name] at htold

/-- What is down below takes the queue down with it. -/
theorem Diagnosed.down_of_dlq {h : Health} (hq : q.Diagnosed w h)
    (htold : h.details.get? "dlqStatus" = some (.string HealthStatus.down.name)) : h.status = .down := by
  cases hstatus : h.status with
  | down => rfl
  | up =>
    have hworks := hq.status.mp hstatus
    rw [hq.dlqStatus] at htold
    cases hd : q.dlq with
    | none =>
      rw [hd] at htold
      cases htold
    | some dlq =>
      have hfound : (q.dlqFoundIn? w).isSome := ((works_iff q w).mp hworks).2 (by rw [hd]; rfl)
      simp [hd, hfound, HealthStatus.name] at htold

/-- The health of a queue is up if and only if the queue works, and tells an error otherwise; it tells the messages of
the queue exactly when they were read, whether the dead letter queue is up exactly when there is one, and its messages
exactly when it is up. The check changes no queue and tracks no event. -/
theorem health_diagnoses (q : QueueHandle) (w : World) :
    let h := (q.health.run w).1
    q.Diagnosed w h ∧
    ((h.details.get? "messagesOnQueue").isSome ↔ (q.attributesIn? w).isSome) ∧
    ((h.details.get? "dlqStatus").isSome ↔ q.dlq.isSome) ∧
    ((h.details.get? "messagesOnDlq").isSome ↔ h.details.get? "dlqStatus" = some (.string HealthStatus.up.name)) ∧
    (h.details.get? "dlqStatus" = some (.string HealthStatus.down.name) → h.status = .down) ∧
    w.Untouched (q.health.run w).2 := by
  intro h
  have hq : q.Diagnosed w h := q.health_diagnosed w
  refine ⟨hq, ?_, ?_, hq.dlqMessages_iff, hq.down_of_dlq, q.health_looks.untouched w⟩
  · rw [hq.messages, Option.isSome_map]
  · rw [hq.dlqStatus, Option.isSome_map]

/-- A queue that can be read takes its state from a dead letter queue that cannot. -/
theorem health_diagnoses_failing_dlq :
    let q : QueueHandle := { id := "q", name := "q", client := 0, dlq := some { name := "d", client := 0 } }
    let policy : RedrivePolicy := { target := QueueStore.arnOf "d", maxReceiveCount := 3 }
    let w : World := { provider := { queues := {
      queues := [("d", {}), ("q", { redrive := some policy })], failingQueues := ["d"] } } }
    let h := (q.health.run w).1
    h.details.get? "messagesOnQueue" = some (.int 0) ∧
      h.details.get? "dlqStatus" = some (.string HealthStatus.down.name) ∧ h.status = .down ∧
      ¬ (h.details.get? "messagesOnDlq").isSome ∧ (h.details.get? "error").isSome := by
  intro q policy w h
  have hmain : (q.attributesIn? w).map (·.messages) = some 0 := by decide +kernel
  have hfound : (q.dlqFoundIn? w).isSome = false := by decide +kernel
  obtain ⟨hq, _, _, hmessages, hdown, _⟩ := q.health_diagnoses w
  have htold : h.details.get? "dlqStatus" = some (.string HealthStatus.down.name) := by
    rw [hq.dlqStatus, hfound]
    rfl
  refine ⟨?_, htold, hdown htold, ?_, hq.error.mpr (hdown htold)⟩
  · obtain ⟨a, ha, hnone⟩ := Option.map_eq_some_iff.mp hmain
    rw [hq.messages, ha, Option.map_some, hnone]
  · rw [hmessages, htold]
    simp [HealthStatus.name]

end QueueHandle

end DeadLetter
