import ShuttleWorks.Brackets.Driver

/-! What a solve places. The places of a solution are read through the units they are given to:
how long they are, how early they may be, and which of them are kept apart. -/

namespace Brackets
open Lib Engine

def TournamentAssignment.span (a : TournamentAssignment) : Span :=
  ⟨a.slotId, a.slotId + a.durationSlots⟩

def PlayUnit.players (unit : PlayUnit) (participants : Participants) : List String :=
  expandSide unit.sideA participants ++ expandSide unit.sideB participants

def Draggable (prevs : List PreviousAssignment) : Prop := ∀ prev ∈ prevs,
  (prev.pinnedSlotId.isSome → prev.pinnedCourtId.isSome) ∧
    (prev.locked = true → prev.pinnedCourtId = none)

/-- What the places found for some units keep. -/
structure Places (s : TournamentState) (participants : Participants) (ready : List PlayUnitId)
    (config : ScheduleConfig) (prevs : List PreviousAssignment) (as : List Assignment) : Prop where
  distinct : (as.map Assignment.matchId).Nodup
  ids : ∀ id, id ∈ as.map Assignment.matchId ↔ id ∈ ready
  unit : ∀ a ∈ as, ∃ unit, s.playUnits.get a.matchId = some unit ∧
    a.durationSlots = unit.durationSlots ∧ unit.sideA ≠ [] ∧ unit.sideB ≠ []
  day : ∀ a ∈ as, 0 ≤ a.slotId ∧ a.span.stop ≤ config.totalSlots
  courts : ∀ a ∈ as, 1 ≤ a.courtId ∧ a.courtId ≤ config.courtCount
  closures : ∀ a ∈ as, ∀ w ∈ config.closedCourtWindows, w.2.1 < w.2.2 → a.courtId = w.1 →
    ¬ inWindow a.span w.2.1 w.2.2
  breaks : ∀ a ∈ as, ∀ b ∈ config.breakSlots, ¬ inWindow a.span b.1 b.2
  first : 0 ≤ config.currentSlot → config.currentSlot < config.totalSlots →
    ∀ a ∈ as, config.currentSlot ≤ a.slotId
  locked : (prevs.map PreviousAssignment.matchId).Nodup → ∀ a ∈ as, ∀ prev ∈ prevs,
    prev.locked = true → prev.matchId = a.matchId → a.slotId = prev.slotId ∧ a.courtId = prev.courtId
  apart : ∀ a ∈ as, ∀ b ∈ as, a.matchId ≠ b.matchId → a.courtId = b.courtId → a.span.Apart b.span
  resting : ∀ a ∈ as, ∀ b ∈ as, a.matchId ≠ b.matchId → ∀ unit ∈ s.playUnits.get a.matchId,
    ∀ other ∈ s.playUnits.get b.matchId, ∀ pid, pid ∈ unit.players participants →
      pid ∈ other.players participants → a.span.Apart b.span

section Solutions

variable {s : TournamentState} {participants : Participants} {ready : List PlayUnitId}
  {config : ScheduleConfig} {prevs : List PreviousAssignment} {extras : Option Extras}
  {as : List Assignment}

theorem toMatch_playerIds {unit : PlayUnit} {pid : String} :
    pid ∈ (unit.toMatch participants).playerIds ↔ pid ∈ unit.players participants := by
  rw [Match.mem_playerIds, PlayUnit.players, List.mem_append]
  rfl

theorem Solution.places (h : Solution s participants ready config prevs extras as)
    (drag : Draggable prevs) : Places s participants ready config prevs as := by
  obtain ⟨request, rfl, rfl, poses, yields⟩ := h
  have allows := yields.allows (fun prev hp => drag prev (Table.mem_ofRows hp)) poses.locks
  have posed : ∀ a ∈ as, ∃ m, request.scheduler.games.get a.matchId = some m := by
    intro a ha
    have mem : a.matchId ∈ request.scheduler.games.rows.map Match.id :=
      allows.ids ▸ List.mem_map_of_mem ha
    obtain ⟨m, hm, e⟩ := List.mem_map.mp mem
    exact ⟨m, Table.get_eq_some_iff.mpr ⟨hm, e⟩⟩
  have game : ∀ a ∈ as, ∀ unit ∈ s.playUnits.get a.matchId,
      request.scheduler.games.get a.matchId = some (unit.toMatch participants) := by
    intro a ha unit hu
    obtain ⟨m, hm⟩ := posed a ha
    obtain ⟨unit', hu', rfl, -⟩ := poses.unit _ m hm
    rw [hm, ← Option.some.inj (hu'.symm.trans hu)]
  constructor
  case distinct =>
    rw [allows.ids]
    exact request.scheduler.games.unique
  case ids =>
    intro id
    rw [allows.ids]
    exact poses.ids id
  case unit =>
    intro a ha
    obtain ⟨m, hm⟩ := posed a ha
    obtain ⟨unit, hu, rfl, sideA, sideB, -⟩ := poses.unit _ m hm
    exact ⟨unit, hu, allows.length a ha _ hm, sideA, sideB⟩
  case day => exact allows.day
  case courts => exact fun a ha => Scheduler.mem_courts.mp (allows.courts a ha)
  case closures =>
    intro a ha w hw room court
    refine allows.closures a ha w (List.mem_filter.mpr ⟨List.mem_append_left _ hw, ?_⟩) court
    have inside := Scheduler.mem_courts.mp (allows.courts a ha)
    rw [court] at inside
    exact decide_eq_true ⟨inside.1, inside.2, room⟩
  case breaks => exact allows.breaks
  case first =>
    intro day room a ha
    obtain ⟨m, hm⟩ := posed a ha
    obtain ⟨unit, hu, -, -, -, somebody⟩ := poses.unit _ m hm
    obtain ⟨pid, hp⟩ := List.exists_mem_of_ne_nil _ somebody
    have player := poses.player _ m hm pid hp
    obtain ⟨some, inside⟩ := buildPlayer_window participants extras pid day room
    obtain ⟨w, hw, from_, -⟩ := allows.available a ha m hm pid hp _ player some
    exact (inside w hw).1.trans from_
  case locked =>
    intro unique a ha prev hp
    apply allows.locked a ha prev
    show prev ∈ (Table.ofRows request.previousAssignments : Table _).rows
    rwa [Table.rows_ofRows unique]
  case apart => exact allows.apart
  case resting =>
    intro a ha b hb ne unit hu other ho pid hp hp'
    have mem := toMatch_playerIds.mpr hp
    refine allows.resting a ha b hb ne _ (game a ha unit hu) _ (game b hb other ho) pid mem
      (toMatch_playerIds.mpr hp') ⟨_, poses.player _ _ (game a ha unit hu) pid mem, ?_⟩
    exact buildPlayer_rests

end Solutions

/-! ## What the planning calls hand over, and what they write -/

theorem draggable_nil : Draggable [] := fun prev hp => by simp at hp

theorem draggable_held (s : TournamentState) (eventId : EventId) :
    Draggable (TournamentDriver.heldElsewhere s eventId) := by
  intro prev hp
  obtain ⟨p, -, e⟩ := List.mem_filterMap.mp hp
  split at e
  · cases e
  · split at e <;> cases e
    simp

theorem draggable_partition (d : TournamentDriver) (id : PlayUnitId) (slotId courtId : Int) :
    Draggable (d.state.assignments.filterMap (d.partition id slotId courtId)) := by
  intro prev hp
  obtain ⟨p, -, e⟩ := List.mem_filterMap.mp hp
  unfold TournamentDriver.partition at e
  split at e
  · cases e
    simp
  · split at e <;> cases e
    simp

section Written

variable {make : Option TournamentAssignment → Assignment → TournamentAssignment}
  {s t : TournamentState} {participants : Participants} {ready : List PlayUnitId}
  {config : ScheduleConfig} {prevs : List PreviousAssignment} {as : List Assignment}
  {id : PlayUnitId} {x : TournamentAssignment}

theorem write_keyed (bs : List Assignment) (h : (t.assignments.map Prod.fst).Nodup) :
    ((bs.foldl (TournamentState.write make) t).assignments.map Prod.fst).Nodup := by
  induction bs generalizing t with
  | nil => exact h
  | cons b bs ih => exact ih (Assoc.nodup_keys_set h)

theorem Places.written (h : Places s participants ready config prevs as) (hid : id ∈ ready)
    (hx : (as.foldl (TournamentState.write make) t).assignment id = some x) :
    ∃ a ∈ as, a.matchId = id ∧ x = make (t.assignment id) a := by
  rcases assignment_write_cases h.distinct hx with found | ⟨absent, -⟩
  · exact found
  · exact absurd ((h.ids id).mpr hid) absent

theorem Places.written_slice {slice : List PlayUnitId}
    (h : Places s participants ready config prevs as) (hid : id ∈ ready) (hs : id ∈ slice)
    (hx : ((as.filter fun a => a.matchId ∈ slice).foldl (TournamentState.write make) t).assignment id =
      some x) : ∃ a ∈ as, a.matchId = id ∧ x = make (t.assignment id) a := by
  have distinct : ((as.filter fun a => a.matchId ∈ slice).map Assignment.matchId).Nodup :=
    (List.filter_sublist.map _).nodup h.distinct
  rcases assignment_write_cases distinct hx with ⟨a, ha, e, hx⟩ | ⟨absent, -⟩
  · exact ⟨a, (List.mem_filter.mp ha).1, e, hx⟩
  · obtain ⟨a, ha, rfl⟩ := List.mem_map.mp ((h.ids id).mpr hid)
    refine absurd (List.mem_map_of_mem (List.mem_filter.mpr ⟨ha, ?_⟩)) absent
    simpa using hs

def TournamentState.SidesKnown (s : TournamentState) : Prop :=
  ∀ id, s.Assigned id → ∃ unit ∈ s.playUnits.get id, unit.sideA ≠ [] ∧ unit.sideB ≠ []

end Written

end Brackets
