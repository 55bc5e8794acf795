import DeadLetter.Backoff

/-!
# What the backoff policy picks

`BackoffPolicy.levels` : the schedules that apply to an event type on a queue. The policy goes by the first one that is
not empty (`scheduleFor_of_levels`), and takes the entry for a delivery from it, or the last one where the schedule ends
before (`entryFor_reaches`). So it changes nothing to repeat that one at the end (`entryFor_append_replicate`).
`BackoffPolicy.nextTimeout_exact` : all together.
-/

namespace DeadLetter

set_option autoImplicit false

namespace BackoffPolicy

/-! ## Entries of a schedule -/

/-- `t` stands at a position of a schedule, counted from one, or is the last entry of one that ends before. -/
def Reaches (schedule : List Int) (position : Nat) (t : Int) : Prop :=
  ∃ before after, schedule = before ++ t :: after ∧
    (before.length + 1 = position ∨ (before.length + 1 < position ∧ after = []))

theorem Reaches.mem {schedule : List Int} {position : Nat} {t : Int} (h : Reaches schedule position t) :
    t ∈ schedule := by
  obtain ⟨before, after, rfl, _⟩ := h
  exact List.mem_append_right before List.mem_cons_self

/-- The entry of a schedule for a delivery. -/
def entryFor (schedule : List Int) (deliveries : Nat) : Int :=
  (schedule[max deliveries 1 - 1]? <|> schedule.getLast?).getD 0

/-- However often the last entry is repeated, it is the one for all deliveries that no entry ahead of it is for. -/
theorem entryFor_append_replicate (init : List Int) (last : Int) (k deliveries : Nat) :
    entryFor (init ++ List.replicate (k + 1) last) deliveries = init[max deliveries 1 - 1]?.getD last := by
  have hlast : (init ++ List.replicate (k + 1) last).getLast? = some last := by
    simp [List.getLast?_append, List.getLast?_replicate]
  unfold entryFor
  rw [hlast, List.getElem?_append, List.getElem?_replicate]
  generalize max deliveries 1 - 1 = i
  by_cases hi : i < init.length
  · simp [hi]
  · rw [if_neg hi, List.getElem?_eq_none (Nat.le_of_not_lt hi)]
    split <;> rfl

theorem entryFor_reaches {schedule : List Int} (h : schedule ≠ []) (deliveries : Nat) :
    Reaches schedule (max deliveries 1) (entryFor schedule deliveries) := by
  obtain ⟨init, last, rfl⟩ : ∃ init last, schedule = init ++ [last] := ⟨_, _, (List.dropLast_concat_getLast h).symm⟩
  have hentry : entryFor (init ++ [last]) deliveries = _ := entryFor_append_replicate init last 0 deliveries
  rw [hentry]
  generalize hi : max deliveries 1 - 1 = i
  by_cases hlt : i < init.length
  · have hsplit : init = init.take i ++ init[i] :: init.drop (i + 1) := by
      rw [List.getElem_cons_drop, List.take_append_drop]
    rw [List.getElem?_eq_getElem hlt, Option.getD_some]
    refine ⟨init.take i, init.drop (i + 1) ++ [last], ?_, Or.inl ?_⟩
    · rw [← List.cons_append, ← List.append_assoc, ← hsplit]
    · rw [List.length_take]
      omega
  · rw [List.getElem?_eq_none (Nat.le_of_not_lt hlt), Option.getD_none]
    refine ⟨init, [], rfl, ?_⟩
    by_cases hlast : init.length + 1 = max deliveries 1
    · exact Or.inl hlast
    · exact Or.inr ⟨by omega, rfl⟩

/-! ## The schedule that counts -/

/-- The schedules that apply to an event type on a queue: that of the event type if there is one, that of the queue, and
the default one. -/
def levels (p : BackoffPolicy) (s : Schedules) (eventType : Option String) : List (List Int) :=
  (eventType.bind s.events.get?).toList ++ [s.queue, p.fallback]

variable {p : BackoffPolicy} {s : Schedules} {eventType : Option String}

theorem scheduleFor_eq_find (p : BackoffPolicy) (s : Schedules) (eventType : Option String) :
    p.scheduleFor s eventType = ((p.levels s eventType).find? (! ·.isEmpty)).getD [] := by
  have hrest : (if s.queue.isEmpty then p.fallback else s.queue) =
      ([s.queue, p.fallback].find? (! ·.isEmpty)).getD [] := by
    cases s.queue <;> cases p.fallback <;> rfl
  unfold scheduleFor levels
  rcases eventType.bind s.events.get? with _ | (_ | ⟨t, ts⟩)
  · exact hrest
  · exact hrest
  · rfl

theorem scheduleFor_of_levels {before after : List (List Int)} {schedule : List Int} (hbefore : ∀ l ∈ before, l = [])
    (hne : schedule ≠ []) (h : p.levels s eventType = before ++ schedule :: after) :
    p.scheduleFor s eventType = schedule := by
  have hfind : (p.levels s eventType).find? (! ·.isEmpty) = some schedule := by
    rw [List.find?_eq_some_iff_append]
    exact ⟨by simpa using hne, before, after, h, fun l hl => by simp [hbefore l hl]⟩
  rw [scheduleFor_eq_find, hfind, Option.getD_some]

theorem scheduleFor_of_empty (h : ∀ l ∈ p.levels s eventType, l = []) : p.scheduleFor s eventType = [] := by
  have hfind : (p.levels s eventType).find? (! ·.isEmpty) = none := by
    rw [List.find?_eq_none]
    exact fun l hl => by simp [h l hl]
  rw [scheduleFor_eq_find, hfind, Option.getD_none]

theorem nextTimeout_of_ne {limit : Option Nat} {deliveries : Nat} (h : limit ≠ some deliveries) :
    p.nextTimeout s eventType deliveries limit = entryFor (p.scheduleFor s eventType) deliveries := if_neg h

/-- The policy picks what its specification says. The last delivery before the limit is not delayed. Any other one is
delayed by the entry for it of the first schedule that is not empty, where the last entry stands for all deliveries past
the end, and not at all if all schedules are empty. Repeating the last entry of that schedule changes nothing. -/
theorem nextTimeout_exact (p : BackoffPolicy) (s : Schedules) (eventType : Option String) (deliveries : Nat)
    (limit : Option Nat) :
    (limit = some deliveries → p.nextTimeout s eventType deliveries limit = 0) ∧
    (limit ≠ some deliveries →
      ((∀ l ∈ p.levels s eventType, l = []) → p.nextTimeout s eventType deliveries limit = 0) ∧
      ∀ before schedule after, p.levels s eventType = before ++ schedule :: after → (∀ l ∈ before, l = []) →
        schedule ≠ [] →
        Reaches schedule (max deliveries 1) (p.nextTimeout s eventType deliveries limit) ∧
        ∀ (last : Int) (k : Nat) (p' : BackoffPolicy) (s' : Schedules), schedule.getLast? = some last →
          p'.levels s' eventType = before ++ (schedule ++ List.replicate k last) :: after →
          p'.nextTimeout s' eventType deliveries limit = p.nextTimeout s eventType deliveries limit) := by
  refine ⟨fun hlimit => if_pos hlimit, fun hlimit => ⟨fun hempty => ?_, ?_⟩⟩
  · rw [nextTimeout_of_ne hlimit, scheduleFor_of_empty hempty]
    rfl
  · intro before schedule after hlevels hbefore hne
    have htime : p.nextTimeout s eventType deliveries limit = entryFor schedule deliveries := by
      rw [nextTimeout_of_ne hlimit, scheduleFor_of_levels hbefore hne hlevels]
    rw [htime]
    refine ⟨entryFor_reaches hne deliveries, fun last k p' s' hlast hlevels' => ?_⟩
    obtain ⟨init, rfl⟩ := List.getLast?_eq_some_iff.mp hlast
    have hne' : init ++ [last] ++ List.replicate k last ≠ [] := by simp
    rw [nextTimeout_of_ne hlimit, scheduleFor_of_levels hbefore hne' hlevels', List.append_assoc]
    exact (entryFor_append_replicate init last k deliveries).trans
      (entryFor_append_replicate init last 0 deliveries).symm

/-- The schedule of the event type is empty, and that of the queue has three entries: the fifth delivery has the last
one, and still has it when two more are added. -/
theorem nextTimeout_exact_past_end :
    let p : BackoffPolicy := ⟨[9]⟩
    let s : Schedules := ⟨[3, 7, 11], [("created", [])]⟩
    let s' : Schedules := ⟨[3, 7, 11, 11, 11], [("created", [])]⟩
    some 4 ≠ some 5 ∧ Reaches [3, 7, 11] 5 (p.nextTimeout s (some "created") 5 (some 4)) ∧
      p.nextTimeout s (some "created") 5 (some 4) = 11 ∧
      p.nextTimeout s' (some "created") 5 (some 4) = p.nextTimeout s (some "created") 5 (some 4) := by
  intro p s s'
  have hne : some 4 ≠ some 5 := by decide
  obtain ⟨_, hother⟩ := nextTimeout_exact p s (some "created") 5 (some 4)
  obtain ⟨hreaches, hrepeated⟩ := (hother hne).2 [[]] [3, 7, 11] [[9]] rfl (by decide) (by decide)
  exact ⟨hne, hreaches, by decide, hrepeated 11 2 p s' rfl rfl⟩

end BackoffPolicy

end DeadLetter
