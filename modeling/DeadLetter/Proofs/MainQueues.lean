import DeadLetter.Proofs.Registry.Handles
import DeadLetter.Proofs.Service.Ebb
import DeadLetter.Proofs.Service.Frame

/-!
# What a sweep does to live queues

A valid configuration may give a dead letter queue a name that leads to a live queue, as it checks the names of queues
and of dead letter queues apart. `Registry.spares_iff` : sweeps leave the messages of all configured queues where they
are, and only add to them, exactly when the configuration does not do that.
-/

namespace DeadLetter

set_option autoImplicit false

open QueueStore

/-- Whether the name of a dead letter queue leads to a configured queue. -/
def Properties.Overlaps (config : Properties) : Prop :=
  ∃ e ∈ config.queues, ∃ d, e.2.dlqName = some d ∧ ∃ e' ∈ config.queues, addressed d = addressed e'.2.queueName

/-- From `w` to `w'` the visible messages of a queue stay, in order and ahead of new ones, and so do those in flight. -/
structure World.Spares (queue : String) (w w' : World) : Prop where
  visible : (w.provider.queues.state queue).visible <+: (w'.provider.queues.state queue).visible
  inFlight : ∀ e ∈ (w.provider.queues.state queue).inFlight, e ∈ (w'.provider.queues.state queue).inFlight

theorem World.Spares.refl (queue : String) (w : World) : w.Spares queue w := ⟨List.prefix_rfl, fun _ h => h⟩

/-! ## The handles of a configuration -/

namespace Registry

/-- A valid configuration can be built, with a handle for each queue under the configured names. -/
theorem build_of_validate {config : Properties} (hvalid : validate config = .ok ()) (f : Factory) :
    ∃ r f', build config f = .ok (r, f') ∧ r.Placed ∧
      r.queues.map (fun q => (q.name, q.dlqName?)) = config.queues.map fun e => (e.2.queueName, e.2.dlqName) := by
  obtain ⟨r, f', hbuild, hholds⟩ := build_holds hvalid f
  have hnames := congrArg (List.map Prod.snd) hholds.queues
  rw [List.map_map, List.map_map] at hnames
  exact ⟨r, f', hbuild, hholds.placed, hnames⟩

end Registry

/-! ## Sweeps that spare a queue -/

section Sweep
variable {r : Registry} {q : QueueHandle} {w : World} {p : NumberPolicy} {n : String}

theorem QueueHandle.retry_spares (hr : r.Placed) (hq : q ∈ r.queues) (hw : w.Reachable r)
    (hn : ∀ d, q.dlq = some d → addressed d.name ≠ n) : w.Spares n ((q.retry p).result.run w).2 := by
  cases hd : q.dlq with
  | none =>
    rw [retry_of_none hd]
    exact .refl n w
  | some d =>
    have hframe := retry_frame (p := p) hr hq ⟨⟨d, hd, rfl⟩, rfl⟩ hw
    refine ⟨hframe.visible n (hn d hd).symm, fun e he => ?_⟩
    rw [hframe.inFlight n (hn d hd).symm]
    exact he

theorem retryEach_spares (hr : r.Placed) {qs : List QueueHandle} (hqs : ∀ q ∈ qs, q ∈ r.queues)
    (hw : w.Reachable r)
    (hn : ∀ q ∈ qs, ∀ d, q.dlq = some d → addressed d.name ≠ n) : w.Spares n ((retryEach p qs).run w).2 := by
  induction qs generalizing w with
  | nil => exact .refl n w
  | cons q qs ih =>
    obtain ⟨hq, hrest⟩ := List.forall_mem_cons.mp hqs
    obtain ⟨hnq, hnrest⟩ := List.forall_mem_cons.mp hn
    have hfirst := QueueHandle.retry_spares (p := p) hr hq hw hnq
    have hafter := ih hrest (QueueHandle.retry_reachable (p := p) hr hq hw) hnrest
    rw [retryEach_cons]
    exact ⟨hfirst.visible.trans hafter.visible, fun e he => hafter.inFlight e (hfirst.inFlight e he)⟩

end Sweep

/-! ## A sweep that does not -/

theorem state_create (s : QueueStore) (queue n : String) : (s.create queue).state n = s.state n := by
  unfold QueueStore.state create
  rw [Dict.get?_ensure]
  split
  · next hn => rw [hn, Option.getD_some]
  · rfl

theorem get?_create_self (s : QueueStore) (queue : String) : ((s.create queue).queues.get? queue).isSome := by
  unfold create
  rw [Dict.get?_ensure, if_pos rfl]
  rfl

theorem isSome_create {s : QueueStore} {n : String} (h : (s.queues.get? n).isSome) (queue : String) :
    ((s.create queue).queues.get? n).isSome := by
  unfold create
  rw [Dict.get?_ensure]
  split
  · rfl
  · exact h

/-- A provider with a queue and its dead letter queue, and a message where the latter's name leads, that takes no more
messages. -/
def Memory.stalled (q : QueueHandle) (d : DlqHandle) : Memory :=
  let created := Control.apply (Control.apply {} (.create q.name)) (.create d.name)
  Control.apply (Control.apply created (.seed (addressed d.name) { body := "" })) (.failOperation .sendMessage)

theorem Memory.reachable_stalled (q : QueueHandle) (d : DlqHandle) : (Memory.stalled q d).Reachable :=
  .control (.failOperation .sendMessage) (.control (.seed (addressed d.name) { body := "" })
    (.control (.create d.name) (.control (.create q.name) (.start true))))

theorem World.stalled (q : QueueHandle) (d : DlqHandle) :
    ∃ x, World.Stalled { provider := Memory.stalled q d } q d x ∧
      ((Memory.stalled q d).queues.state (addressed d.name)).visible = [x] := by
  let s : QueueStore := (({} : QueueStore).create q.name).create d.name
  have hput := puts_seed s (addressed d.name) { body := "" }
  have hempty : s.state (addressed d.name) = {} := by
    rw [state_create, state_create]
    rfl
  rw [hempty] at hput
  have hpresent (n : String) (hn : (s.queues.get? n).isSome) : ((Memory.stalled q d).queues.queues.get? n).isSome := by
    show ((s.seed (addressed d.name) { body := "" }).2.queues.get? n).isSome
    rw [hput.get?]
    split
    · rfl
    · exact hn
  have hstate : (Memory.stalled q d).queues.state (addressed d.name) = _ := hput.state_self
  have hvisible : ((Memory.stalled q d).queues.state (addressed d.name)).visible =
      [Outbound.store { body := "" } (messageId (s.lastId + 1))] := by
    rw [hstate]
    rfl
  refine ⟨_, ⟨rfl, rfl, hpresent _ (isSome_create (get?_create_self _ _) _), hpresent _ (get?_create_self _ _), ?_, ?_,
    hvisible ▸ List.suffix_rfl, fun _ => rfl⟩, hvisible⟩
  · show ((s.seed (addressed d.name) { body := "" }).2.queues.get? _).isSome
    rw [hput.get?_self]
    rfl
  · exact congrArg QueueState.reportedCount hstate

/-! ## Configurations whose live queues are safe -/

section Configured
variable {config : Properties} {r : Registry} {p : NumberPolicy}

/-- A configuration that gives no dead letter queue the name of a live queue has its live queues spared. -/
theorem retryAll_spares (hr : r.Placed)
    (hnames : r.queues.map (fun q => (q.name, q.dlqName?)) = config.queues.map fun e => (e.2.queueName, e.2.dlqName))
    (hdisjoint : ¬ config.Overlaps) {w : World} (hw : w.Reachable r) {e : String × QueueProperties}
    (he : e ∈ config.queues) : w.Spares (addressed e.2.queueName) ((r.retryAll p).run w).2 := by
  refine retryEach_spares hr (fun _ h => h) hw fun q hq d hd heq => hdisjoint ?_
  have hmem : (q.name, q.dlqName?) ∈ config.queues.map fun e => (e.2.queueName, e.2.dlqName) :=
    hnames ▸ List.mem_map.mpr ⟨q, hq, rfl⟩
  obtain ⟨e', he', hsame⟩ := List.mem_map.mp hmem
  refine ⟨e', he', d.name, ?_, e, he, heq⟩
  rw [(Prod.mk.inj hsame).2, QueueHandle.dlqName?, hd]
  rfl

/-- A dead letter queue that has the name of a live queue can have it emptied. -/
theorem exists_not_spares (hr : r.Placed)
    (hnames : r.queues.map (fun q => (q.name, q.dlqName?)) = config.queues.map fun e => (e.2.queueName, e.2.dlqName))
    (hoverlaps : config.Overlaps) (p : NumberPolicy) :
    ∃ w : World, w.Reachable r ∧ ∃ e ∈ config.queues,
      ¬ w.Spares (addressed e.2.queueName) ((r.retryAll p).run w).2 := by
  obtain ⟨e, he, name, hname, e', he', heq⟩ := hoverlaps
  have hmem : (e.2.queueName, e.2.dlqName) ∈ r.queues.map fun q => (q.name, q.dlqName?) :=
    hnames ▸ List.mem_map.mpr ⟨e, he, rfl⟩
  obtain ⟨q, hq, hsame⟩ := List.mem_map.mp hmem
  obtain ⟨d, hd, hdname⟩ : ∃ d, q.dlq = some d ∧ d.name = name := by
    have hdlq := (Prod.mk.inj hsame).2
    rw [hname] at hdlq
    exact Option.map_eq_some_iff.mp hdlq
  -- a message that waits where the name leads is taken, and cannot be sent on
  obtain ⟨x, hstalled, hvisible⟩ := World.stalled q d
  have hw : World.Reachable r { provider := Memory.stalled q d } := .start (Memory.reachable_stalled q d) _
  refine ⟨_, hw, e', he', fun hspares => ?_⟩
  have hkept := hspares.visible
  rw [← heq, ← hdname] at hkept
  have hnil := retryEach_empties hr (fun _ h => h) hq hd hw hstalled p
  rw [Registry.retryAll, hnil, List.prefix_nil] at hkept
  rw [hkept] at hvisible
  cases hvisible

/-- A valid configuration can be built. Whatever happened before, retrying all its queues leaves every message of a
configured queue where it is, ahead of anything new, if and only if no dead letter queue goes by the name of a
configured queue. -/
theorem Registry.spares_iff (hvalid : validate config = .ok ()) (f : Factory) (p : NumberPolicy) :
    ∃ r f', Registry.build config f = .ok (r, f') ∧
      ((∀ w : World, w.Reachable r → ∀ e ∈ config.queues, w.Spares (addressed e.2.queueName) ((r.retryAll p).run w).2) ↔
        ¬ config.Overlaps) := by
  obtain ⟨r, f', hbuild, hr, hnames⟩ := Registry.build_of_validate hvalid f
  refine ⟨r, f', hbuild, fun hspares hoverlaps => ?_, fun hdisjoint w hw e he => ?_⟩
  · obtain ⟨w, hw, e, he, hnot⟩ := exists_not_spares hr hnames hoverlaps p
    exact hnot (hspares w hw e he)
  · exact retryAll_spares hr hnames hdisjoint hw he

/-- A valid configuration whose first queue has the second one for its dead letter queue. -/
theorem Registry.spares_iff_overlapping :
    let config : Properties :=
      { queues := [("a", { queueName := "a", dlqName := some "b" }), ("b", { queueName := "b" })] }
    validate config = .ok () ∧ ∃ r f', Registry.build config {} = .ok (r, f') ∧
      ∃ w : World, w.Reachable r ∧ ∃ e ∈ config.queues,
        ¬ w.Spares (addressed e.2.queueName) ((r.retryAll .double).run w).2 := by
  intro config
  have hvalid : validate config = .ok () := by decide +kernel
  have hoverlaps : config.Overlaps :=
    ⟨_, List.mem_cons_self, "b", rfl, _, List.mem_cons_of_mem _ List.mem_cons_self, rfl⟩
  obtain ⟨r, f', hbuild, hiff⟩ := Registry.spares_iff hvalid {} .double
  refine ⟨hvalid, r, f', hbuild, ?_⟩
  by_contra hnone
  refine hiff.mp (fun w hw e he => ?_) hoverlaps
  by_contra hnot
  exact hnone ⟨w, hw, e, he, hnot⟩

end Configured

end DeadLetter
