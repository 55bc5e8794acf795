import DeadLetter.Proofs.Service.Frame
import DeadLetter.Proofs.Service.Twin

/-!
# Queues retried together do as if each were retried alone

In a registry whose queues and dead letter queues all address different queues of the provider, a retry of one queue
leaves undisturbed what the others depend on (`retry_undisturbed`), and so one that comes later returns what it would
have returned at first, and leaves its two queues as it would have left them (`retry_same`). `retryAll_isolated` : so it
is for all queues of the registry, up to ids and receipt handles made meanwhile.
-/

namespace DeadLetter

set_option autoImplicit false

open QueueStore

/-- The queues of the provider that a queue of a registry addresses: its own and its dead letter queue. -/
def QueueHandle.addresses (q : QueueHandle) : List String :=
  addressed q.name :: (q.dlq.map fun d => addressed d.name).toList

/-- From `w` to `w'` nothing changes that a retry of a queue depends on: only numbers are drawn and time goes by. -/
structure QueueHandle.Undisturbed (q : QueueHandle) (w w' : World) : Prop where
  kept : Kept w.provider.queues w'.provider.queues
  present : ∀ n, (w'.provider.queues.queues.get? n).isSome = (w.provider.queues.queues.get? n).isSome
  queues : ∀ n ∈ q.addresses, w'.provider.queues.queues.get? n = w.provider.queues.queues.get? n
  known : w'.known q.slot = w.known q.slot
  generated : w.generated ≤ w'.generated
  late : w'.late = w.late
  looks : w.looks ≤ w'.looks

namespace QueueHandle
variable {q q' : QueueHandle} {w w' w'' : World} {D M : String}

theorem Undisturbed.refl (q : QueueHandle) (w : World) : q.Undisturbed w w :=
  ⟨Kept.refl _, fun _ => rfl, fun _ _ => rfl, rfl, Nat.le_refl _, rfl, Nat.le_refl _⟩

theorem Undisturbed.trans (h : q.Undisturbed w w') (h' : q.Undisturbed w' w'') : q.Undisturbed w w'' where
  kept := h.kept.trans h'.kept
  present n := (h'.present n).trans (h.present n)
  queues n hn := (h'.queues n hn).trans (h.queues n hn)
  known := h'.known.trans h.known
  generated := Nat.le_trans h.generated h'.generated
  late := h'.late.trans h.late
  looks := Nat.le_trans h.looks h'.looks

theorem Undisturbed.state (h : q.Undisturbed w w') {n : String} (hn : n ∈ q.addresses) :
    w'.provider.queues.state n = w.provider.queues.state n := by
  rw [QueueStore.state, QueueStore.state, h.queues n hn]

theorem undisturbed_of_frame (h : World.Frame D M q'.slot w w') (hD : D ∉ q.addresses) (hM : M ∉ q.addresses)
    (hslot : q.slot ≠ q'.slot) : q.Undisturbed w w' where
  kept := h.kept
  present := h.present
  queues n hn := h.others n (fun heq => hD (heq ▸ hn)) (fun heq => hM (heq ▸ hn))
  known := h.known q.slot hslot
  generated := h.generated
  late := h.late
  looks := h.looks

theorem addresses_of_some {d : DlqHandle} (hd : q.dlq = some d) :
    q.addresses = [addressed q.name, addressed d.name] := by
  rw [addresses, hd]
  rfl

end QueueHandle

section Registry
variable {r : Registry} {q q' : QueueHandle} {w w' : World} {p : NumberPolicy} {late : Bool}

theorem slot_ne_of_disjoint (hr : r.Placed) (hq : q ∈ r.queues) (hq' : q' ∈ r.queues)
    (hdisjoint : q.addresses.Disjoint q'.addresses) : q.slot ≠ q'.slot := by
  intro hslot
  rw [hr q' hq' q hq hslot] at hdisjoint
  exact hdisjoint List.mem_cons_self List.mem_cons_self

theorem QueueHandle.retry_undisturbed (hr : r.Placed) (hq : q ∈ r.queues) (hq' : q' ∈ r.queues)
    (hdisjoint : q.addresses.Disjoint q'.addresses) (hw : w.Reachable r) :
    q.Undisturbed w ((q'.retry p).result.run w).2 := by
  cases hd : q'.dlq with
  | none =>
    rw [retry_of_none hd]
    exact .refl q w
  | some d =>
    have hslot := slot_ne_of_disjoint hr hq hq' hdisjoint
    rw [addresses_of_some hd] at hdisjoint
    have hframe := retry_frame (p := p) hr hq' ⟨⟨d, hd, rfl⟩, rfl⟩ hw
    exact undisturbed_of_frame hframe (fun h => hdisjoint h (by simp)) (fun h => hdisjoint h (by simp)) hslot

theorem retryEach_undisturbed (hr : r.Placed) (hq : q ∈ r.queues) {qs : List QueueHandle}
    (hqs : ∀ q' ∈ qs, q' ∈ r.queues) (hdisjoint : ∀ q' ∈ qs, q.addresses.Disjoint q'.addresses)
    (hw : w.Reachable r) : q.Undisturbed w ((retryEach p qs).run w).2 := by
  induction qs generalizing w with
  | nil => exact .refl q w
  | cons q' qs ih =>
    obtain ⟨hq', hqs⟩ := List.forall_mem_cons.mp hqs
    obtain ⟨hfirst, hrest⟩ := List.forall_mem_cons.mp hdisjoint
    have hone := QueueHandle.retry_undisturbed (p := p) hr hq hq' hfirst hw
    rw [retryEach_cons]
    exact hone.trans (ih hqs hrest (QueueHandle.retry_reachable hr hq' hw))

/-- For a retry an undisturbed world is a twin of what it was. -/
theorem QueueHandle.Undisturbed.twin {d : DlqHandle} (hd : q.dlq = some d) (h : q.Undisturbed w w')
    (hw : w.Reachable r) (hw' : w'.Reachable r) (hlate : ∀ i, w.looks ≤ i → w.late i = late) :
    World.Twin (r.lore False) q.slot (addressed d.name) (addressed q.name) w.provider.queues.lastId w.generated late
      w w' := by
  have hD : w'.provider.queues.state (addressed d.name) = w.provider.queues.state (addressed d.name) :=
    h.state (by simp [addresses_of_some hd])
  have hM : w'.provider.queues.state (addressed q.name) = w.provider.queues.state (addressed q.name) :=
    h.state (by simp [addresses_of_some hd])
  refine ⟨⟨h.kept.operations, h.kept.failing, h.present, ⟨Nat.le_refl _, h.kept.lastId⟩, ?_, ?_, ?_⟩,
    ⟨hw.sound, hw'.sound⟩, h.known, hw.known False q.slot, ⟨Nat.le_refl _, h.generated⟩, hlate, fun i hi => ?_⟩
  · rw [hD]
  · rw [hD]
    exact .refl _
  · rw [hM]
    exact .refl _
  · rw [h.late]
    exact hlate i (Nat.le_trans h.looks hi)

/-- In an undisturbed world a retry returns the same and leaves the same. -/
theorem QueueHandle.retry_same (hr : r.Placed) (hq : q ∈ r.queues) (hnodup : q.addresses.Nodup)
    (hw : w.Reachable r) (hw' : w'.Reachable r) (hlate : ∀ i, w.looks ≤ i → w.late i = late)
    (h : q.Undisturbed w w') :
    ((q.retry p).result.run w').1.toOption = ((q.retry p).result.run w).1.toOption ∧
      ∀ n ∈ q.addresses, (((q.retry p).result.run w).2.provider.queues.state n).Like w.provider.queues.lastId
        w.generated (((q.retry p).result.run w').2.provider.queues.state n) := by
  cases hd : q.dlq with
  | none =>
    rw [retry_of_none hd, retry_of_none hd]
    refine ⟨rfl, fun n hn => ?_⟩
    rw [h.state hn]
    exact .refl _
  | some d =>
    have hne : addressed d.name ≠ addressed q.name := by
      rw [addresses_of_some hd] at hnodup
      intro heq
      simp [heq] at hnodup
    have hboth := q.retry_abreast (fun _ => rfl) (Registry.lore_covers hr hq False)
      (fun u hu => Registry.addressed_of_dlqUrl hq hd hu) (fun u hu => Registry.addressed_of_url hq hu) hne p w w'
      (h.twin hd hw hw' hlate)
    obtain ⟨hresult, htwin⟩ := hboth.twin
    refine ⟨hresult, fun n hn => ?_⟩
    rw [addresses_of_some hd] at hn
    rcases List.mem_cons.mp hn with rfl | hn
    · exact htwin.store.main
    · rw [List.mem_singleton.mp hn]
      exact htwin.store.dlq

/-- Queues with pairwise different addresses, retried in order in an undisturbed world, return and leave what each would
have returned and left alone. -/
theorem retryEach_isolated (hr : r.Placed) (hw : w.Reachable r) (hlate : ∀ i, w.looks ≤ i → w.late i = late)
    {qs : List QueueHandle} (hqs : ∀ q ∈ qs, q ∈ r.queues) (hnodup : (qs.flatMap QueueHandle.addresses).Nodup)
    (hw' : w'.Reachable r) (h : ∀ q ∈ qs, q.Undisturbed w w') :
    ((retryEach p qs).run w').1 = qs.map (fun q => ((q.retry p).result.run w).1.toOption.getD .empty) ∧
      ∀ q ∈ qs, ∀ n ∈ q.addresses, (((q.retry p).result.run w).2.provider.queues.state n).Like
        w.provider.queues.lastId w.generated (((retryEach p qs).run w').2.provider.queues.state n) := by
  induction qs generalizing w' with
  | nil => exact ⟨rfl, fun q hq => (nomatch hq)⟩
  | cons q qs ih =>
    obtain ⟨hq, hqs⟩ := List.forall_mem_cons.mp hqs
    obtain ⟨hqw, hrest⟩ := List.forall_mem_cons.mp h
    rw [List.flatMap_cons] at hnodup
    obtain ⟨hhead, htail, hdisjoint⟩ := List.nodup_append'.mp hnodup
    have hapart (q' : QueueHandle) (hq' : q' ∈ qs) : q.addresses.Disjoint q'.addresses :=
      fun n hn hn' => hdisjoint hn (List.mem_flatMap.mpr ⟨q', hq', hn'⟩)
    -- the first queue does as if it were alone, and disturbs none of the others
    obtain ⟨hresult, hstates⟩ := QueueHandle.retry_same (p := p) hr hq hhead hw hw' hlate hqw
    have hfirst := QueueHandle.retry_reachable (p := p) hr hq hw'
    obtain ⟨hresults, hothers⟩ := ih hqs htail hfirst fun q' hq' => (hrest q' hq').trans
      (QueueHandle.retry_undisturbed hr (hqs q' hq') hq (List.disjoint_symm (hapart q' hq')) hw')
    -- and none of the others disturbs it afterwards
    have hafter := retryEach_undisturbed (p := p) hr hq hqs hapart hfirst
    rw [retryEach_cons, List.map_cons]
    dsimp only
    rw [hresult, hresults]
    refine ⟨rfl, List.forall_mem_cons.mpr ⟨fun n hn => ?_, hothers⟩⟩
    rw [hafter.state hn]
    exact hstates n hn

/-- Retrying all queues of a registry that address pairwise different queues, while the deadline has passed for good or
never passes: one result for each queue in order, the one that a retry of that queue alone returns, or the empty one if
that fails; and each queue and its dead letter queue are left as that retry alone leaves them, up to new ids, handles
and deduplication ids. -/
theorem Registry.retryAll_isolated {queues : List QueueHandle} {topics : List TopicHandle}
    {buckets : List BucketHandle} {backoff : BackoffPolicy} (hw : w.Reachable (ofHandles queues topics buckets backoff))
    (haddresses : ((ofHandles queues topics buckets backoff).queues.flatMap QueueHandle.addresses).Nodup)
    (hlate : ∀ i, w.looks ≤ i → w.late i = late) :
    (((ofHandles queues topics buckets backoff).retryAll p).run w).1 =
        (ofHandles queues topics buckets backoff).queues.map
          (fun q => ((q.retry p).result.run w).1.toOption.getD .empty) ∧
      ∀ q ∈ (ofHandles queues topics buckets backoff).queues, ∀ n ∈ q.addresses,
        (((q.retry p).result.run w).2.provider.queues.state n).Like w.provider.queues.lastId w.generated
          ((((ofHandles queues topics buckets backoff).retryAll p).run w).2.provider.queues.state n) :=
  retryEach_isolated (placed_ofHandles queues topics buckets backoff) hw hlate (fun _ h => h) haddresses hw
    fun q _ => .refl q w

/-- A dead letter queue that fails does not keep the message of another one from being moved and listed. -/
theorem Registry.retryAll_isolated_failing :
    let queue (name dlq : String) : QueueHandle := { id := name, name := name, client := 0, dlq := some ⟨dlq, 1⟩ }
    let r := Registry.ofHandles [queue "a" "a-dlq", queue "b" "b-dlq"] [] [] ⟨[]⟩
    let seeded := Memory.Control.apply (Memory.Control.apply {} (.create "b")) (.seed "b-dlq" { body := "x" })
    let w : World := { provider := Memory.Control.apply seeded (.failQueue "a-dlq") }
    w.Reachable r ∧ (r.queues.flatMap QueueHandle.addresses).Nodup ∧ (∀ i, w.looks ≤ i → w.late i = false) ∧
      ((r.retryAll .double).run w).1.map (fun report => report.messages.map (·.id)) = [[], ["msg-1"]] := by
  intro queue r seeded w
  have hseeded : seeded.Reachable := .control (.seed "b-dlq" { body := "x" }) (.control (.create "b") (.start true))
  have hw : w.Reachable r := .start (.control (.failQueue "a-dlq") hseeded) _
  have haddresses : (r.queues.flatMap QueueHandle.addresses).Nodup := by decide +kernel
  refine ⟨hw, haddresses, fun _ _ => rfl, ?_⟩
  rw [(Registry.retryAll_isolated hw haddresses (fun _ _ => rfl)).1]
  decide +kernel

end Registry

end DeadLetter
