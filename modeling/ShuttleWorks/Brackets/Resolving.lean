import ShuttleWorks.Brackets.Placing

/-! Where a solve leaves the session's assignments. What is handed over as locked stays, what is not
handed over is not touched, and assignments that are all where one solution has them are clear. -/

namespace Brackets
open Lib Engine

/-- The place is the one the solution gives the unit. -/
def PlacedBy (as : List Assignment) (id : PlayUnitId) (x : TournamentAssignment) : Prop :=
  ∃ a ∈ as, a.matchId = id ∧ x.slotId = a.slotId ∧ x.courtId = a.courtId ∧
    x.durationSlots = a.durationSlots

namespace TournamentState

def planned (s : TournamentState) : Timetable PlayUnitId Int := fun id =>
  (s.assignment id).map fun a => ⟨a.courtId, a.span⟩

/-- Somebody plays in both units. -/
def Shares (s : TournamentState) (participants : Participants) (u v : PlayUnitId) : Prop :=
  ∃ unit ∈ s.playUnits.get u, ∃ other ∈ s.playUnits.get v, ∃ pid, pid ∈ unit.players participants ∧
    pid ∈ other.players participants

def Sized (s : TournamentState) : Prop := ∀ id, ∀ x ∈ s.assignment id,
  ∃ unit, s.playUnits.get id = some unit ∧ x.durationSlots = unit.durationSlots

theorem planned_eq_some {s : TournamentState} {id : PlayUnitId} {b : Booking Int} :
    s.planned id = some b ↔ ∃ a, s.assignment id = some a ∧ b = ⟨a.courtId, a.span⟩ := by
  rw [planned, Option.map_eq_some_iff]
  exact exists_congr fun a => and_congr_right fun _ => eq_comm

end TournamentState

section Solved

variable {s t : TournamentState} {participants : Participants} {ready : List PlayUnitId}
  {config : ScheduleConfig} {prevs : List PreviousAssignment} {as : List Assignment}

theorem Places.clear (places : Places s participants ready config prevs as)
    (units : t.playUnits = s.playUnits) (solved : ∀ id, ∀ x ∈ t.assignment id, PlacedBy as id x) :
    t.planned.Clear (t.Shares participants) := by
  intro u v ne booked hbooked other hother met
  obtain ⟨x, hx, rfl⟩ := TournamentState.planned_eq_some.mp hbooked
  obtain ⟨y, hy, rfl⟩ := TournamentState.planned_eq_some.mp hother
  obtain ⟨a, ha, rfl, slot, court, length⟩ := solved u x hx
  obtain ⟨b, hb, rfl, slot', court', length'⟩ := solved v y hy
  have apart : a.span.Apart b.span := by
    rcases met with met | ⟨unit, hu, other, ho, pid, hp, hp'⟩
    · exact places.apart a ha b hb ne (court.symm.trans (Eq.trans met court'))
    · rw [units] at hu ho
      exact places.resting a ha b hb ne unit hu other ho pid hp hp'
  have span : x.span = a.span := by
    rw [TournamentAssignment.span, slot, length]
    rfl
  have span' : y.span = b.span := by
    rw [TournamentAssignment.span, slot', length']
    rfl
  show x.span.Apart y.span
  rwa [span, span']

theorem Places.at_locked (places : Places s participants ready config prevs as)
    (unique : (prevs.map PreviousAssignment.matchId).Nodup) {id : PlayUnitId} (hid : id ∈ ready)
    {slotId courtId : Int}
    (handed : { matchId := id, slotId, courtId, locked := true } ∈ prevs) :
    ∃ a ∈ as, a.matchId = id ∧ a.slotId = slotId ∧ a.courtId = courtId := by
  obtain ⟨a, ha, rfl⟩ := List.mem_map.mp ((places.ids id).mpr hid)
  exact ⟨a, ha, rfl, places.locked unique a ha _ handed rfl rfl⟩

end Solved

theorem handed_sublist {f : PlayUnitId × TournamentAssignment → Option PreviousAssignment}
    (own : ∀ q prev, f q = some prev → prev.matchId = q.1)
    (l : List (PlayUnitId × TournamentAssignment)) :
    ((l.filterMap f).map PreviousAssignment.matchId).Sublist (l.map Prod.fst) := by
  induction l with
  | nil => exact List.Sublist.refl _
  | cons q l ih =>
    rw [List.filterMap_cons]
    cases hq : f q with
    | none => exact ih.cons _
    | some prev =>
      rw [List.map_cons, List.map_cons, own q prev hq]
      exact ih.cons_cons _

/-! ## An event -/

variable {x : TournamentAssignment}

section Generating

variable {s : TournamentState} {participants : Participants} {config : ScheduleConfig}
  {eventId : EventId} {as : List Assignment}

/-- The places of a generation around what the other events hold. -/
def Generates (s : TournamentState) (participants : Participants) (config : ScheduleConfig)
    (eventId : EventId) (as : List Assignment) : Prop :=
  Places s participants (TournamentDriver.readyUnits s eventId ++
      (TournamentDriver.heldElsewhere s eventId).map PreviousAssignment.matchId)
    config (TournamentDriver.heldElsewhere s eventId) as

/-- The session with the units of the event at their places. -/
def TournamentState.generated (s : TournamentState) (eventId : EventId) (as : List Assignment) :
    TournamentState :=
  (as.filter fun a => a.matchId ∈ TournamentDriver.readyUnits s eventId).foldl TournamentState.place s

theorem mem_readyUnits {id : PlayUnitId} (h : id ∈ TournamentDriver.readyUnits s eventId) :
    ¬ s.Assigned id ∧ ∃ unit, s.playUnits.get id = some unit ∧ unit.eventId = eventId ∧
      s.Resolved unit := by
  obtain ⟨unit, hu, rfl⟩ := List.mem_map.mp h
  obtain ⟨own, ready⟩ := List.mem_filter.mp hu
  obtain ⟨stored, event⟩ := List.mem_filter.mp own
  obtain ⟨free, resolved⟩ := of_decide_eq_true ready
  exact ⟨free, unit, Table.get_eq_some_iff.mpr ⟨stored, rfl⟩, of_decide_eq_true event, resolved⟩

theorem assignment_generated {id : PlayUnitId} (hx : s.assignment id = some x) :
    (s.generated eventId as).assignment id = some x := by
  refine (assignment_write_of_not_mem fun mem => ?_).trans hx
  obtain ⟨a, ha, rfl⟩ := List.mem_map.mp mem
  have ready := of_decide_eq_true (List.mem_filter.mp ha).2
  exact (mem_readyUnits ready).1 (Option.isSome_of_mem hx)

theorem generated_cases (places : Generates s participants config eventId as) {id : PlayUnitId}
    (hx : (s.generated eventId as).assignment id = some x) :
    (id ∈ TournamentDriver.readyUnits s eventId ∧ ∃ a ∈ as, a.matchId = id ∧ x = newAssignment a) ∨
    (id ∉ TournamentDriver.readyUnits s eventId ∧ s.assignment id = some x) := by
  by_cases ready : id ∈ TournamentDriver.readyUnits s eventId
  · exact .inl ⟨ready, places.written_slice (List.mem_append_left _ ready) ready hx⟩
  · refine .inr ⟨ready, (assignment_write_of_not_mem fun mem => ready ?_).symm.trans hx⟩
    obtain ⟨a, ha, rfl⟩ := List.mem_map.mp mem
    exact of_decide_eq_true (List.mem_filter.mp ha).2

theorem held_at (keyed : (s.assignments.map Prod.fst).Nodup) (sized : s.Sized)
    (places : Generates s participants config eventId as)
    (free : ∀ unit ∈ s.eventUnits eventId, ¬ s.Assigned unit.id) {id : PlayUnitId}
    (hx : s.assignment id = some x) : PlacedBy as id x := by
  obtain ⟨unit, hu, length⟩ := sized id x hx
  have other : unit.eventId ≠ eventId := by
    intro own
    have mem : unit ∈ s.eventUnits eventId :=
      List.mem_filter.mpr ⟨Table.mem_of_get hu, decide_eq_true own⟩
    have key : unit.id = id := Table.key_of_get hu
    exact free unit mem (key ▸ Option.isSome_of_mem hx)
  have held : { matchId := id, slotId := x.slotId, courtId := x.courtId, locked := true } ∈
      TournamentDriver.heldElsewhere s eventId := by
    refine List.mem_filterMap.mpr ⟨(id, x), Assoc.mem_of_get hx, ?_⟩
    simp only [hu, if_neg other]
  have unique : ((TournamentDriver.heldElsewhere s eventId).map PreviousAssignment.matchId).Nodup := by
    refine (handed_sublist ?_ s.assignments).nodup keyed
    intro q prev e
    split at e
    · cases e
    · split at e <;> cases e
      rfl
  obtain ⟨a, ha, rfl, slot, court⟩ := places.at_locked unique
    (List.mem_append_right _ (List.mem_map_of_mem held)) held
  obtain ⟨unit', hu', length', -⟩ := places.unit a ha
  obtain rfl := Option.some.inj (hu.symm.trans hu')
  exact ⟨a, ha, rfl, slot.symm, court.symm, length.trans length'.symm⟩

/-- **A generated event is clear** of itself and of the others, if it holds nothing before. -/
theorem clear_generated (keyed : (s.assignments.map Prod.fst).Nodup) (sized : s.Sized)
    (places : Generates s participants config eventId as)
    (free : ∀ unit ∈ s.eventUnits eventId, ¬ s.Assigned unit.id) :
    (s.generated eventId as).planned.Clear ((s.generated eventId as).Shares participants) := by
  refine places.clear (write_playUnits _ _) fun id x hx => ?_
  rcases generated_cases places hx with ⟨-, a, ha, rfl, rfl⟩ | ⟨-, hx⟩
  · exact ⟨a, ha, rfl, rfl, rfl, rfl⟩
  · exact held_at keyed sized places free hx

end Generating

/-! ## A wipe -/

namespace TournamentDriver

variable {d : TournamentDriver} {eventId : EventId} {wipe : Bool}

def Dropped (d : TournamentDriver) (eventId : EventId) (wipe : Bool) (id : PlayUnitId) : Prop :=
  wipe = true ∧ id ∈ (d.state.eventUnits eventId).map PlayUnit.id

instance (id : PlayUnitId) : Decidable (d.Dropped eventId wipe id) :=
  inferInstanceAs (Decidable (_ ∧ _))

theorem wiped_assignment (id : PlayUnitId) : (d.wiped eventId wipe).assignment id =
    if d.Dropped eventId wipe id then none else d.state.assignment id := by
  unfold wiped TournamentState.assignment
  by_cases w : wipe = true
  · subst w
    rw [if_pos rfl, Assoc.get_filter (fun k => decide (k ∉ (d.state.eventUnits eventId).map PlayUnit.id))]
    by_cases mem : id ∈ (d.state.eventUnits eventId).map PlayUnit.id
    · rw [if_pos (show d.Dropped eventId true id from ⟨rfl, mem⟩)]
      exact if_neg fun kept => absurd mem (of_decide_eq_true kept)
    · rw [if_neg fun dropped : d.Dropped eventId true id => mem dropped.2]
      exact if_pos (decide_eq_true mem)
  · rw [if_neg w, if_neg fun dropped : d.Dropped eventId wipe id => w dropped.1]

end TournamentDriver

/-! ## A re-pin -/

section Dragging

variable {d : TournamentDriver} {id : PlayUnitId} {slotId courtId : Int} {as : List Assignment}
  {u : PlayUnitId}

/-- The places of a re-solve around a dragged match. -/
def Drags (d : TournamentDriver) (id : PlayUnitId) (slotId courtId : Int) (as : List Assignment) :
    Prop :=
  Places d.state d.participants (d.state.assignments.map Prod.fst) d.config
    (d.state.assignments.filterMap (d.partition id slotId courtId)) as

def TournamentState.dragged (s : TournamentState) (as : List Assignment) : TournamentState :=
  as.foldl TournamentState.moveTo s

theorem dragged_cases (places : Drags d id slotId courtId as) {x' : TournamentAssignment}
    (hx' : (d.state.dragged as).assignment u = some x') :
    ∃ x, d.state.assignment u = some x ∧ ∃ a ∈ as, a.matchId = u ∧ x' = movedAssignment (some x) a := by
  have scheduled : u ∈ d.state.assignments.map Prod.fst := by
    by_contra not
    have absent : u ∉ as.map Assignment.matchId := fun mem => not ((places.ids u).mp mem)
    have old : d.state.assignment u = some x' := (assignment_write_of_not_mem absent).symm.trans hx'
    exact not (List.mem_map_of_mem (Assoc.mem_of_get old))
  obtain ⟨a, ha, rfl, e⟩ := places.written scheduled hx'
  cases hx : d.state.assignment a.matchId with
  | none => exact absurd scheduled (Assoc.get_eq_none_iff.mp hx)
  | some x =>
    rw [hx] at e
    exact ⟨x, rfl, a, ha, rfl, e⟩

theorem dragged_assigned (places : Drags d id slotId courtId as)
    (hx : d.state.assignment u = some x) :
    ∃ a ∈ as, a.matchId = u ∧
      (d.state.dragged as).assignment u = some (movedAssignment (some x) a) := by
  have mem := (places.ids u).mpr (List.mem_map_of_mem (Assoc.mem_of_get hx))
  obtain ⟨a, ha, rfl⟩ := List.mem_map.mp mem
  refine ⟨a, ha, rfl, ?_⟩
  rw [← hx]
  exact assignment_write_of_mem places.distinct ha

theorem partition_unique (keyed : (d.state.assignments.map Prod.fst).Nodup) :
    ((d.state.assignments.filterMap (d.partition id slotId courtId)).map
      PreviousAssignment.matchId).Nodup := by
  refine (handed_sublist ?_ d.state.assignments).nodup keyed
  intro q prev e
  unfold TournamentDriver.partition at e
  split at e
  · cases e
    rfl
  · split at e <;> cases e
    rfl

theorem locked_stays (keyed : (d.state.assignments.map Prod.fst).Nodup)
    (places : Drags d id slotId courtId as)
    (free : ∀ x ∈ d.state.assignment id, ¬ d.state.Locked id x d.config.currentSlot)
    (hx : d.state.assignment u = some x) (locked : d.state.Locked u x d.config.currentSlot)
    {a : Assignment} (ha : a ∈ as) (ea : a.matchId = u) :
    a.slotId = x.slotId ∧ a.courtId = x.courtId := by
  have other : u ≠ id := by
    rintro rfl
    exact free x hx locked
  have handed : { matchId := u, slotId := x.slotId, courtId := x.courtId, locked := true } ∈
      d.state.assignments.filterMap (d.partition id slotId courtId) := by
    refine List.mem_filterMap.mpr ⟨(u, x), Assoc.mem_of_get hx, ?_⟩
    rw [TournamentDriver.partition, if_neg other]
    exact if_pos locked
  exact places.locked (partition_unique keyed) a ha _ handed rfl ea.symm

/-- **A re-pin leaves the session clear**, whatever it was before. -/
theorem clear_dragged (places : Drags d id slotId courtId as) :
    (d.state.dragged as).planned.Clear ((d.state.dragged as).Shares d.participants) := by
  refine places.clear (write_playUnits _ _) fun u x' hx' => ?_
  obtain ⟨x, hx, a, ha, rfl, rfl⟩ := dragged_cases places hx'
  exact ⟨a, ha, rfl, rfl, rfl, rfl⟩

end Dragging

end Brackets
