import ShuttleWorks.Brackets.PlanKept
import ShuttleWorks.Brackets.Resolving

/-! Solving again. Generating an event and dragging a match put every unit they touch where one
solution has it, so the timetable is clear whatever it was before; its order is another matter. -/

namespace Brackets
open Lib Engine

namespace Plan

variable {p : Plan}

section Solved

variable {s : TournamentState} {ready : List PlayUnitId} {config : ScheduleConfig}
  {prevs : List PreviousAssignment} {as : List Assignment}

theorem clear_of_places (places : Places s p.driver.participants ready config prevs as)
    (units : p.state.playUnits = s.playUnits)
    (solved : ∀ id, ∀ x ∈ p.state.assignment id, PlacedBy as id x) :
    p.timetable.Clear p.Shares := by
  have clear := places.clear units solved
  refine Timetable.Clear.shorten clear (fun u b hb => ?_) fun _ _ _ _ met => met
  obtain ⟨x, hx, rfl⟩ := timetable_eq_some.mp hb
  exact ⟨_, TournamentState.planned_eq_some.mpr ⟨x, hx, rfl⟩, rfl, rfl, holdsUntil_le u x⟩

end Solved

/-! ### An event is generated -/

def wiped (p : Plan) (eventId : EventId) (wipe : Bool) : Plan :=
  { p.placed (p.driver.wiped eventId wipe) with
    freed := fun id => if p.Dropped eventId wipe id then none else p.freed id }

section Generating

variable {eventId : EventId} {wipe : Bool} {as : List Assignment}

theorem wiped_assignment (id : PlayUnitId) : (p.wiped eventId wipe).state.assignment id =
    if p.Dropped eventId wipe id then none else p.state.assignment id :=
  TournamentDriver.wiped_assignment id

theorem wiped_units : (p.wiped eventId wipe).state.playUnits = p.state.playUnits := by
  show (p.driver.wiped eventId wipe).playUnits = _
  unfold TournamentDriver.wiped
  split <;> rfl

theorem wiped_results : (p.wiped eventId wipe).state.results = p.state.results := by
  show (p.driver.wiped eventId wipe).results = _
  unfold TournamentDriver.wiped
  split <;> rfl

theorem wiped_kept {id : PlayUnitId} {x : TournamentAssignment}
    (hx : (p.wiped eventId wipe).state.assignment id = some x) :
    p.state.assignment id = some x ∧ (p.wiped eventId wipe).freed id = p.freed id := by
  rw [wiped_assignment] at hx
  split at hx
  · cases hx
  · next not => exact ⟨hx, if_neg not⟩

theorem wiped_shortens : Timetable.Shortens p.timetable (p.wiped eventId wipe).timetable := by
  apply Timetable.Shortens.of_sub
  intro u b hb
  obtain ⟨x, hx, rfl⟩ := timetable_eq_some.mp hb
  obtain ⟨old, freed⟩ := wiped_kept hx
  refine timetable_eq_some.mpr ⟨x, old, ?_⟩
  unfold holdsUntil
  rw [freed]

theorem Kept.wiped (h : p.Kept) : (p.wiped eventId wipe).Kept := by
  constructor
  case keyed =>
    show ((p.driver.wiped eventId wipe).assignments.map Prod.fst).Nodup
    unfold TournamentDriver.wiped
    split
    · exact (List.filter_sublist.map _).nodup h.keyed
    · exact h.keyed
  case resolved =>
    intro id x hx
    rw [wiped_units]
    simp only [resolved_congr wiped_results]
    exact h.resolved id x (wiped_kept hx).1
  case played =>
    intro id first hf
    have not : ¬ p.Dropped eventId wipe id := fun dropped => by
      simp only [Plan.wiped, if_pos dropped] at hf
      cases hf
    rw [wiped_assignment, if_neg not]
    simp only [Plan.wiped, if_neg not] at hf
    exact h.played id first hf
  case ended =>
    intro id x hx e he
    obtain ⟨old, freed⟩ := wiped_kept hx
    rw [freed]
    exact h.ended id x old e he
  case offers => exact fun as has => absurd has (List.not_mem_nil (a := as))
  case clear =>
    rw [shares_congr wiped_units rfl]
    exact h.clear.shorten wiped_shortens fun _ _ _ _ met => met

/-- The places of a generation around what the other events hold. -/
def Generates (p : Plan) (eventId : EventId) (as : List Assignment) : Prop :=
  Places p.state p.driver.participants
    (TournamentDriver.readyUnits p.state eventId ++
      (TournamentDriver.heldElsewhere p.state eventId).map PreviousAssignment.matchId)
    p.driver.config (TournamentDriver.heldElsewhere p.state eventId) as

/-- The plan with the units of the event at their places. -/
def generated (p : Plan) (eventId : EventId) (as : List Assignment) : Plan :=
  p.placed ((as.filter fun a => a.matchId ∈ TournamentDriver.readyUnits p.state eventId).foldl
    TournamentState.place p.state)

theorem Kept.sized (h : p.Kept) : p.state.Sized := by
  intro id x hx
  obtain ⟨unit, hu, -, length⟩ := h.resolved id x hx
  exact ⟨unit, hu, length⟩

/-- **A generation keeps the plan**, if the event holds nothing. -/
theorem Kept.generate (h : p.Kept) (places : p.Generates eventId as)
    (free : ∀ unit ∈ p.state.eventUnits eventId, ¬ p.state.Assigned unit.id) :
    (p.generated eventId as).Kept := by
  have units : (p.generated eventId as).state.playUnits = p.state.playUnits := write_playUnits _ _
  have results : (p.generated eventId as).state.results = p.state.results := write_results _ _
  constructor
  case keyed => exact write_keyed _ h.keyed
  case resolved =>
    intro id x hx
    rw [units]
    simp only [resolved_congr results]
    rcases generated_cases places hx with ⟨ready, a, ha, rfl, rfl⟩ | ⟨-, hx⟩
    · obtain ⟨-, unit, hu, -, resolved⟩ := mem_readyUnits ready
      obtain ⟨unit', hu', length, -⟩ := places.unit a ha
      obtain rfl := Option.some.inj (hu.symm.trans hu')
      exact ⟨unit, hu, resolved, length⟩
    · exact h.resolved id x hx
  case played =>
    intro id first hf
    obtain ⟨x, hx, started⟩ := h.played id first hf
    exact ⟨x, assignment_generated hx, started⟩
  case ended =>
    intro id x hx e he
    rcases generated_cases places hx with ⟨-, a, ha, rfl, rfl⟩ | ⟨-, hx⟩
    · cases he
    · exact h.ended id x hx e he
  case offers => exact fun as has => absurd has (List.not_mem_nil (a := as))
  case clear =>
    refine clear_of_places (p := p.generated eventId as) places units fun id x hx => ?_
    rcases generated_cases places hx with ⟨-, a, ha, rfl, rfl⟩ | ⟨-, hx⟩
    · exact ⟨a, ha, rfl, rfl, rfl, rfl⟩
    · exact held_at h.keyed h.sized places free hx

theorem inOrder_generate (h : p.Kept) (order : p.timetable.InOrder p.Needs)
    (places : p.Generates eventId as)
    (careful : ∀ id ∈ TournamentDriver.readyUnits p.state eventId,
      ¬ p.state.Resulted id ∧ ∀ d, p.Needs id d → ¬ p.state.Assigned d) :
    (p.generated eventId as).timetable.InOrder (p.generated eventId as).Needs := by
  have units : (p.generated eventId as).state.playUnits = p.state.playUnits := write_playUnits _ _
  rw [needs_congr units]
  intro u d need booked hbooked feeder hfeeder
  obtain ⟨x, hx, rfl⟩ := timetable_eq_some.mp hbooked
  obtain ⟨y, hy, rfl⟩ := timetable_eq_some.mp hfeeder
  have done : p.state.Resulted d := by
    obtain ⟨unit, hu, needed⟩ := need
    rcases generated_cases places hx with ⟨ready, -⟩ | ⟨-, hx⟩
    · obtain ⟨-, unit', hu', -, resolved⟩ := mem_readyUnits ready
      obtain rfl := Option.some.inj (hu.symm.trans hu')
      exact resolved.2.2 d needed
    · obtain ⟨unit', hu', resolved, -⟩ := h.resolved u x hx
      obtain rfl := Option.some.inj (hu.symm.trans hu')
      exact resolved.2.2 d needed
  rcases generated_cases places hy with ⟨ready, -⟩ | ⟨-, hy⟩
  · exact absurd done (careful d ready).1
  rcases generated_cases places hx with ⟨ready, -⟩ | ⟨-, hx⟩
  · exact absurd (Option.isSome_of_mem hy) ((careful u ready).2 d need)
  · exact order u d need _ (timetable_eq_some.mpr ⟨x, hx, rfl⟩) _
      (timetable_eq_some.mpr ⟨y, hy, rfl⟩)

end Generating

/-! ### A match is dragged -/

section Dragging

variable {id : PlayUnitId} {slotId courtId : Int} {as : List Assignment}

/-- The places of a re-solve around a dragged match. -/
def Drags (p : Plan) (id : PlayUnitId) (slotId courtId : Int) (as : List Assignment) : Prop :=
  Places p.state p.driver.participants (p.state.assignments.map Prod.fst) p.driver.config
    (p.state.assignments.filterMap (p.driver.partition id slotId courtId)) as

def dragged (p : Plan) (as : List Assignment) : Plan :=
  p.placed (as.foldl TournamentState.moveTo p.state)

/-- **A re-pin keeps the plan.** -/
theorem Kept.drag (h : p.Kept) (places : p.Drags id slotId courtId as) : (p.dragged as).Kept := by
  have units : (p.dragged as).state.playUnits = p.state.playUnits := write_playUnits _ _
  have results : (p.dragged as).state.results = p.state.results := write_results _ _
  constructor
  case keyed => exact write_keyed _ h.keyed
  case resolved =>
    intro u x' hx'
    rw [units]
    simp only [resolved_congr results]
    obtain ⟨x, hx, a, ha, rfl, rfl⟩ := dragged_cases places hx'
    obtain ⟨unit, hu, resolved, -⟩ := h.resolved _ x hx
    obtain ⟨unit', hu', length, -⟩ := places.unit a ha
    obtain rfl := Option.some.inj (hu.symm.trans hu')
    exact ⟨unit, hu, resolved, length⟩
  case played =>
    intro u first hf
    obtain ⟨x, hx, started⟩ := h.played u first hf
    obtain ⟨a, ha, -, hx'⟩ := dragged_assigned places hx
    exact ⟨_, hx', started⟩
  case ended =>
    intro u x' hx' e he
    obtain ⟨x, hx, a, ha, rfl, rfl⟩ := dragged_cases places hx'
    exact h.ended _ x hx e he
  case offers => exact fun as has => absurd has (List.not_mem_nil (a := as))
  case clear =>
    refine clear_of_places (p := p.dragged as) places units fun u x' hx' => ?_
    obtain ⟨x, hx, a, ha, rfl, rfl⟩ := dragged_cases places hx'
    exact ⟨a, ha, rfl, rfl, rfl, rfl⟩

theorem inOrder_drag (h : p.Kept) (order : p.timetable.InOrder p.Needs)
    (places : p.Drags id slotId courtId as)
    (free : ∀ x ∈ p.state.assignment id, ¬ p.state.Locked id x p.driver.config.currentSlot)
    (careful : ∀ u, ∀ x ∈ p.state.assignment u, ¬ p.state.Locked u x p.driver.config.currentSlot →
      ∀ d, p.Needs u d → ¬ p.state.Assigned d) :
    (p.dragged as).timetable.InOrder (p.dragged as).Needs := by
  have units : (p.dragged as).state.playUnits = p.state.playUnits := write_playUnits _ _
  rw [needs_congr units]
  -- what is locked shows what it showed
  have stays : ∀ {u x' }, (p.dragged as).state.assignment u = some x' →
      (∀ x ∈ p.state.assignment u, p.state.Locked u x p.driver.config.currentSlot) →
      p.timetable u = some ⟨x'.courtId, x'.slotId, (p.dragged as).holdsUntil u x'⟩ := by
    intro u x' hx' locked
    obtain ⟨x, hx, a, ha, rfl, rfl⟩ := dragged_cases places hx'
    obtain ⟨slot, court⟩ := locked_stays h.keyed places free hx (locked x hx) ha rfl
    obtain ⟨unit, hu, -, length⟩ := h.resolved _ x hx
    obtain ⟨unit', hu', length', -⟩ := places.unit a ha
    obtain rfl := Option.some.inj (hu.symm.trans hu')
    have span : (movedAssignment (some x) a).span = x.span := by
      simp only [TournamentAssignment.span, movedAssignment, slot, length, length']
    refine timetable_eq_some.mpr ⟨x, hx, ?_⟩
    have until_ : (p.dragged as).holdsUntil a.matchId (movedAssignment (some x) a) =
        p.holdsUntil a.matchId x := by
      unfold holdsUntil
      rw [span]
      rfl
    rw [until_]
    simp only [movedAssignment, slot, court]
  intro u d need booked hbooked feeder hfeeder
  obtain ⟨x', hx', rfl⟩ := timetable_eq_some.mp hbooked
  obtain ⟨y', hy', rfl⟩ := timetable_eq_some.mp hfeeder
  obtain ⟨x, hx, -⟩ := dragged_cases places hx'
  obtain ⟨y, hy, -⟩ := dragged_cases places hy'
  have locked : p.state.Locked u x p.driver.config.currentSlot := by
    by_contra not
    exact careful u x hx not d need (Option.isSome_of_mem hy)
  have done : p.state.Resulted d := by
    obtain ⟨unit, hu, resolved, -⟩ := h.resolved u x hx
    obtain ⟨unit', hu', needed⟩ := need
    obtain rfl := Option.some.inj (hu.symm.trans hu')
    exact resolved.2.2 d needed
  refine order u d need _ (stays hx' fun z hz => ?_) _ (stays hy' fun z hz => .inl done)
  rw [← Option.some.inj (hx.symm.trans hz)]
  exact locked

end Dragging

end Plan

end Brackets
