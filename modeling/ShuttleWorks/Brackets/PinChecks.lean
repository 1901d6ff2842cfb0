import ShuttleWorks.Brackets.CourtConfig
import ShuttleWorks.Brackets.Resolving
import ShuttleWorks.Engine.ClearDrafts

/-! The check of a drag, and what it is worth. One unit's place is replaced in what is scheduled
and the engine's validator reads the result; the pin poses the matches again and lets the solver
place whatever is free. The check speaks for the pin, but for units it skips, for the freeze horizon
and for the court pool. -/

namespace Brackets
open Lib Engine

inductive BracketConflictType
  | engine (type : ConflictType)
  | dependencyOrder
  deriving DecidableEq, Repr

structure BracketConflict where
  type : BracketConflictType
  description : String
  playUnitId : Option String := none
  otherPlayUnitId : Option String := none
  playerId : Option String := none
  courtId : Option Int := none
  slotId : Option Int := none
  deriving DecidableEq, Repr

/-- An engine conflict under the bracket's names. -/
def BracketConflict.ofEngine (c : Conflict) : BracketConflict where
  type := .engine c.type
  description := c.description
  playUnitId := c.matchId
  otherPlayUnitId := c.otherMatchId
  playerId := c.playerId
  courtId := c.courtId
  slotId := c.slotId

section Move

variable (s : TournamentState) (participants : Participants)

/-- The match under an id, if there is such a unit and both its sides are there. -/
def matchOf (id : PlayUnitId) : Option Match :=
  match s.playUnits.get id with
  | none => none
  | some unit => if unit.sideA = [] ∨ unit.sideB = [] then none else some (unit.toMatch participants)

def moveGames (id : PlayUnitId) : List Match :=
  (s.assignments.map Prod.fst ++ [id]).filterMap (matchOf s participants)

/-- What is scheduled, with the moved unit at its new place. -/
def movePlaces (id : PlayUnitId) (slotId courtId : Int) (duration : Nat) : List Assignment :=
  let place : Assignment := { matchId := id, slotId, courtId, durationSlots := duration }
  (s.assignments.filterMap fun p =>
    match matchOf s participants p.1 with
    | none => none
    | some _ =>
      if p.1 = id then some place
      else some { matchId := p.1, slotId := p.2.slotId, courtId := p.2.courtId
                  durationSlots := p.2.durationSlots }) ++
  if s.Assigned id then [] else [place]

/-- What the validator is given. -/
def moveDraft (config : ScheduleConfig) (extras : Option Extras) (id : PlayUnitId)
    (slotId courtId : Int) (duration : Nat) : Draft where
  config := config
  players := Table.ofRows (buildPlayers
    ((moveGames s participants id).flatMap fun m => m.sideA ++ m.sideB) participants
    config.currentSlot config.totalSlots extras)
  games := Table.ofRows (moveGames s participants id)
  assignments := movePlaces s participants id slotId courtId duration

/-- The feeders of the unit that end after the slot. -/
def dependencyConflicts (unit : PlayUnit) (slotId : Int) : List BracketConflict :=
  unit.dependencies.filterMap fun feeder =>
    match s.assignment feeder with
    | none => none
    | some a =>
      let feederEnd := a.slotId + a.durationSlots
      if slotId < feederEnd then some
        { type := .dependencyOrder
          description := s!"Play unit {unit.id} at slot {slotId} starts before feeder {feeder} " ++
            s!"ends (slot {feederEnd})"
          playUnitId := some unit.id
          otherPlayUnitId := some feeder
          slotId := some slotId }
      else none

/-- `validate_bracket_move`; no answer where there is no such unit. -/
def validateBracketMove (config : ScheduleConfig) (extras : Option Extras) (id : PlayUnitId)
    (slotId courtId : Int) : Option (List BracketConflict) :=
  (s.playUnits.get id).map fun unit =>
    let found :=
      (moveDraft s participants config extras id slotId courtId unit.durationSlots).findConflicts
    ((found.filter fun c => c.type ≠ .unscheduled).map BracketConflict.ofEngine) ++
      dependencyConflicts s unit slotId

end Move

section Checked

variable {s : TournamentState} {participants : Participants} {id : PlayUnitId} {unit : PlayUnit}
  {config : ScheduleConfig} {extras : Option Extras} {slotId courtId : Int}

theorem matchOf_id {m : Match} (h : matchOf s participants id = some m) : m.id = id := by
  unfold matchOf at h
  split at h
  · cases h
  next unit hu =>
  split at h <;> cases h
  exact (Table.key_of_get hu : unit.id = id)

theorem matchOf_eq_some (hu : s.playUnits.get id = some unit) (a : unit.sideA ≠ [])
    (b : unit.sideB ≠ []) : matchOf s participants id = some (unit.toMatch participants) := by
  rw [matchOf, hu]
  exact if_neg (not_or.mpr ⟨a, b⟩)

theorem moveDraft_get (duration : Nat) {u : PlayUnitId}
    (listed : u ∈ s.assignments.map Prod.fst ++ [id]) :
    (moveDraft s participants config extras id slotId courtId duration).games.get u =
      matchOf s participants u := by
  have own : ∀ m ∈ moveGames s participants id, matchOf s participants m.id = some m := by
    intro m hm
    obtain ⟨id', -, h⟩ := List.mem_filterMap.mp hm
    rw [matchOf_id h, h]
  show (Table.ofRows _ : Table Match.id).get u = _
  rw [Table.ofRows, Table.get_foldl_put own, Table.get_empty]
  split
  · rfl
  · next absent =>
    cases h : matchOf s participants u with
    | none => rfl
    | some m =>
      exact absurd (List.mem_map.mpr ⟨m, List.mem_filterMap.mpr ⟨u, listed, h⟩, matchOf_id h⟩) absent

theorem moveDraft_games (duration : Nat) :
    (moveDraft s participants config extras id slotId courtId duration).games.get id =
      matchOf s participants id :=
  moveDraft_get duration (by simp)

theorem moved_mem {duration : Nat} (h : s.Assigned id → (matchOf s participants id).isSome) :
    { matchId := id, slotId, courtId, durationSlots := duration } ∈
      (moveDraft s participants config extras id slotId courtId duration).assignments := by
  show _ ∈ movePlaces s participants id slotId courtId duration
  unfold movePlaces
  by_cases assigned : s.Assigned id
  · obtain ⟨a, ha⟩ := Option.isSome_iff_exists.mp assigned
    obtain ⟨m, hm⟩ := Option.isSome_iff_exists.mp (h assigned)
    refine List.mem_append_left _ (List.mem_filterMap.mpr ⟨(id, a), Assoc.mem_of_get ha, ?_⟩)
    simp [hm]
  · refine List.mem_append_right _ ?_
    simp [assigned]

theorem move_reported {cs : List BracketConflict}
    (h : validateBracketMove s participants config extras id slotId courtId = some cs)
    (hu : s.playUnits.get id = some unit) {type : ConflictType} (ne : type ≠ .unscheduled)
    (found : ∃ c ∈ (moveDraft s participants config extras id slotId courtId
      unit.durationSlots).findConflicts, c.type = type) : cs ≠ [] := by
  obtain ⟨c, hc, rfl⟩ := found
  rw [validateBracketMove, hu] at h
  cases h
  refine List.ne_nil_of_mem (List.mem_append_left _ (List.mem_map_of_mem (a := c) ?_))
  exact List.mem_filter.mpr ⟨hc, decide_eq_true ne⟩

theorem validateBracketMove_eq_nil_iff (hu : s.playUnits.get id = some unit) :
    validateBracketMove s participants config extras id slotId courtId = some [] ↔
      (moveDraft s participants config extras id slotId courtId unit.durationSlots).Clear ∧
        ∀ feeder ∈ unit.dependencies, ∀ a ∈ s.assignment feeder,
          a.slotId + a.durationSlots ≤ slotId := by
  rw [validateBracketMove, hu, Option.map_some, Option.some_inj, List.append_eq_nil_iff,
    List.map_eq_nil_iff, List.filter_eq_nil_iff, dependencyConflicts, List.filterMap_eq_nil_iff]
  refine and_congr (forall₂_congr fun c _ => by simp) (forall₂_congr fun feeder _ => ?_)
  cases s.assignment feeder with
  | none => simp
  | some a => simp

end Checked

def lone (p q : ParticipantId) : PlayUnit where
  id := "final"
  eventId := "open"
  sideA := [p]
  sideB := [q]
  slotA := .participant p
  slotB := .participant q

def loneState (p q : ParticipantId) : TournamentState where
  playUnits := ⟨[lone p q], List.nodup_singleton _⟩

namespace TournamentDriver

variable (d : TournamentDriver) (id : PlayUnitId) (slotId courtId : Int) {pid : String}

def MoveClear : Prop := validateBracketMove d.state d.participants d.config d.playerExtras
  id slotId courtId = some []

instance : Decidable (d.MoveClear id slotId courtId) := inferInstanceAs (Decidable (_ = _))

def pinProblem : Except BuildError ScheduleRequest :=
  buildProblem d.state d.participants (d.state.assignments.map Prod.fst) d.config
    (d.state.assignments.filterMap (d.partition id slotId courtId)) d.playerExtras

/-- The pin raises nothing and its problem can be solved, and however it is solved the dragged unit
is where it was dropped and every locked one where it was. -/
structure PinSucceeds : Prop where
  raises : ∀ solver, ∃ left, d.repinAndResolve solver id slotId courtId = .ok left
  solvable : ∃ request, d.pinProblem id slotId courtId = .ok request ∧
    ∃ as, request.scheduler.Yields as
  moved : ∀ request, d.pinProblem id slotId courtId = .ok request →
    ∀ as, request.scheduler.Yields as →
      ∃ a ∈ as, a.matchId = id ∧ a.slotId = slotId ∧ a.courtId = courtId
  locked : ∀ request, d.pinProblem id slotId courtId = .ok request →
    ∀ as, request.scheduler.Yields as → ∀ u, ∀ x ∈ d.state.assignment u,
      d.state.Locked u x d.config.currentSlot →
        ∃ a ∈ as, a.matchId = u ∧ a.slotId = x.slotId ∧ a.courtId = x.courtId

/-! ## What the check does not see -/

def Unfrozen (x : TournamentAssignment) : Prop := 0 < d.config.freezeHorizonSlots →
  x.slotId < d.config.currentSlot + d.config.freezeHorizonSlots →
    x.slotId = slotId ∧ x.courtId = courtId

/-- The drop is no more slots away from the unit's stored place than the day has. -/
def Near (x : TournamentAssignment) : Prop :=
  slotId - x.slotId ≤ d.config.totalSlots ∧ x.slotId - slotId ≤ d.config.totalSlots

instance (x : TournamentAssignment) : Decidable (d.Near slotId x) :=
  inferInstanceAs (Decidable (_ ∧ _))

def pool : List Int :=
  ((List.range d.config.courtCount.toNat).map fun (i : Nat) => (i : Int) + 1).filter fun c =>
    (Assoc.get c d.config.courtOverrides).getD .pool = .pool

/-- The re-solve hands out the courts of the pool afterwards: no window is closed, and nothing
that keeps its court keeps one of these. -/
structure Pools : Prop where
  queue : d.config.courtPolicy = .queue
  open_ : d.config.closedCourtWindows = []
  some_ : d.pool ≠ []
  target : courtId ∉ d.pool
  locked : ∀ p ∈ d.state.assignments, p.1 ≠ id →
    d.state.Locked p.1 p.2 d.config.currentSlot → p.2.courtId ∉ d.pool

def Free (p : PlayUnitId × TournamentAssignment) : Prop :=
  p.1 ≠ id ∧ ¬ d.state.Locked p.1 p.2 d.config.currentSlot

def PlaysAt (t : Int) (p : PlayUnitId × TournamentAssignment) : Prop :=
  ∃ unit ∈ d.state.playUnits.get p.1, p.2.slotId ≤ t ∧ t < p.2.slotId + unit.durationSlots

instance (p : PlayUnitId × TournamentAssignment) : Decidable (d.Free id p) :=
  inferInstanceAs (Decidable (_ ∧ _))

instance (t : Int) (p : PlayUnitId × TournamentAssignment) : Decidable (d.PlaysAt t p) :=
  inferInstanceAs (Decidable (∃ unit ∈ d.state.playUnits.get p.1, _))

/-- Where courts are handed out, the pool is enough for the free units as they are planned. -/
def PoolRoom : Prop := d.Pools id courtId → ∀ t,
  (d.state.assignments.filter fun p => d.Free id p ∧ d.PlaysAt t p).length ≤ d.pool.length

/-! ## What both of them read -/

section Reading

variable {s : TournamentState} {participants : Participants}

theorem durationSlots_pos (unit : PlayUnit) : 0 < unit.durationSlots := by
  unfold PlayUnit.durationSlots
  split <;> omega

theorem expandSide_ne_nil {side : Side} (h : side ≠ []) : expandSide side participants ≠ [] := by
  obtain ⟨pid, rest, rfl⟩ := List.exists_cons_of_ne_nil h
  rw [expandSide, List.flatMap_cons]
  refine List.append_ne_nil_of_left_ne_nil ?_ _
  split
  · simp
  · split
    · next team => exact team.2
    · simp

theorem get_buildPlayers {ids : List String} {start stop : Int} {extras : Option Extras}
    (mem : pid ∈ ids) :
    (Table.ofRows (buildPlayers ids participants start stop extras) : Table Player.id).get pid =
      some (buildPlayer participants start stop extras pid) := by
  have own : ∀ x ∈ buildPlayers ids participants start stop extras,
      some (buildPlayer participants start stop extras x.id) = some x := by
    intro x hx
    obtain ⟨pid, -, rfl⟩ := List.mem_map.mp hx
    rw [buildPlayer_id]
  rw [Table.ofRows, Table.get_foldl_put (f := fun pid =>
    some (buildPlayer participants start stop extras pid)) own, if_pos]
  refine List.mem_map.mpr ⟨_, List.mem_map_of_mem (a := pid) ?_, buildPlayer_id⟩
  rw [(List.perm_insertionSort _ _).mem_iff, List.mem_dedup]
  exact mem

end Reading

section Pin

variable {d : TournamentDriver} {id : PlayUnitId} {slotId courtId : Int} {x : TournamentAssignment}
  {u : PlayUnitId}

theorem MoveClear.draft (h : d.MoveClear id slotId courtId) :
    ∃ unit, d.state.playUnits.get id = some unit ∧ (moveDraft d.state d.participants d.config
      d.playerExtras id slotId courtId unit.durationSlots).Clear := by
  obtain ⟨unit, hu, -⟩ := Option.map_eq_some_iff.mp h
  exact ⟨unit, hu, ((validateBracketMove_eq_nil_iff hu).mp h).1⟩

theorem pinProblem_ok (slotId courtId : Int) (known : d.state.SidesKnown)
    (assigned : d.state.assignment id = some x) :
    ∃ request, d.pinProblem id slotId courtId = .ok request := by
  cases posed : d.pinProblem id slotId courtId with
  | ok request => exact ⟨request, rfl⟩
  | error e =>
    unfold pinProblem buildProblem at posed
    rw [if_neg (List.ne_nil_of_mem (List.mem_map_of_mem (f := Prod.fst) (Assoc.mem_of_get assigned)))]
      at posed
    rcases bind_error posed with failed | ⟨games, -, done⟩
    · obtain ⟨u, hu, failed⟩ := mapM_error failed
      obtain ⟨p, hp, rfl⟩ := List.mem_map.mp hu
      have scheduled : d.state.Assigned p.1 := by
        by_contra not
        rw [TournamentState.Assigned, Option.not_isSome_iff_eq_none] at not
        exact Assoc.get_eq_none_iff.mp not hu
      obtain ⟨unit, found, sideA, sideB⟩ := known p.1 scheduled
      have built : buildMatch d.state d.participants p.1 = .ok (unit.toMatch d.participants) := by
        rw [buildMatch, found]
        dsimp only
        rw [if_neg (not_or.mpr ⟨sideA, sideB⟩)]
        exact if_neg (not_or.mpr ⟨expandSide_ne_nil sideA, expandSide_ne_nil sideB⟩)
      rw [built] at failed
      cases failed
    · cases done

theorem repinAndResolve_ok (assigned : d.state.assignment id = some x)
    (free : ¬ d.state.Locked id x d.config.currentSlot) {request : ScheduleRequest}
    (posed : d.pinProblem id slotId courtId = .ok request) (solver : Solver) :
    d.repinAndResolve solver id slotId courtId =
      .ok ({ playUnitIds := d.state.assignments.map Prod.fst, status := (solver request).status
             scheduleResult := some (solver request), startedAtCurrentSlot := d.config.currentSlot },
        if (solver request).Solved then
          (solver request).assignments.foldl TournamentState.moveTo d.state
        else d.state) := by
  unfold pinProblem at posed
  rw [repinAndResolve, assigned]
  dsimp only
  rw [if_neg free, posed]
  rfl

/-! ## The plan with the drag in it -/

/-- Every scheduled unit where it is, and the dragged one where it is dropped. -/
def spliced (d : TournamentDriver) (id : PlayUnitId) (slotId courtId : Int) : Values where
  start u := if u = id then slotId
    else ((d.state.assignment u).map TournamentAssignment.slotId).getD 0
  court u := if u = id then courtId
    else ((d.state.assignment u).map TournamentAssignment.courtId).getD 0

@[simp] theorem spliced_dragged : (d.spliced id slotId courtId).start id = slotId ∧
    (d.spliced id slotId courtId).court id = courtId :=
  ⟨if_pos rfl, if_pos rfl⟩

theorem spliced_other (slotId courtId : Int) (ne : u ≠ id) (hx : d.state.assignment u = some x) :
    (d.spliced id slotId courtId).start u = x.slotId ∧
      (d.spliced id slotId courtId).court u = x.courtId := by
  simp [spliced, ne, hx]

theorem partition_cases (keyed : (d.state.assignments.map Prod.fst).Nodup)
    {prev : PreviousAssignment}
    (h : prev ∈ d.state.assignments.filterMap (d.partition id slotId courtId)) :
    ∃ x, d.state.assignment prev.matchId = some x ∧ prev.slotId = x.slotId ∧
      prev.courtId = x.courtId ∧
      ((prev.matchId = id ∧ prev.locked = false ∧ prev.pinnedSlotId = some slotId ∧
          prev.pinnedCourtId = some courtId) ∨
        (prev.matchId ≠ id ∧ prev.locked = true ∧ prev.pinnedCourtId = none ∧
          d.state.Locked prev.matchId x d.config.currentSlot)) := by
  obtain ⟨⟨u, x⟩, hp, e⟩ := List.mem_filterMap.mp h
  have hx : d.state.assignment u = some x := Assoc.get_eq_some_of_mem keyed hp
  unfold partition at e
  split at e
  · next same =>
    cases e
    exact ⟨x, hx, rfl, rfl, .inl ⟨same, rfl, rfl, rfl⟩⟩
  · next ne =>
    split at e
    · next locked =>
      cases e
      exact ⟨x, hx, rfl, rfl, .inr ⟨ne, rfl, rfl, locked⟩⟩
    · cases e

section Posed

variable {request : ScheduleRequest} (posed : d.pinProblem id slotId courtId = .ok request)

include posed

theorem posed_config : request.config = d.config := (buildProblem_eq_ok posed).1

theorem posed_poses : Poses d.state d.participants (d.state.assignments.map Prod.fst)
    d.playerExtras request :=
  (buildProblem_eq_ok posed).2.2

theorem posed_previous (keyed : (d.state.assignments.map Prod.fst).Nodup) :
    request.scheduler.previousAssignments.rows =
      d.state.assignments.filterMap (d.partition id slotId courtId) := by
  show (Table.ofRows request.previousAssignments : Table _).rows = _
  rw [(buildProblem_eq_ok posed).2.1]
  exact Table.rows_ofRows (partition_unique keyed)

variable {m : Match}

theorem posed_game (hm : m ∈ request.scheduler.games.rows) :
    ∃ x unit, d.state.assignment m.id = some x ∧ d.state.playUnits.get m.id = some unit ∧
      m = unit.toMatch d.participants ∧ unit.sideA ≠ [] ∧ unit.sideB ≠ [] := by
  have poses := posed_poses posed
  have found : request.scheduler.games.get m.id = some m := Table.get_eq_some_iff.mpr ⟨hm, rfl⟩
  obtain ⟨unit, hu, e, sideA, sideB, -⟩ := poses.unit m.id m found
  have ready := (poses.ids m.id).mp (Table.has_iff.mpr ⟨m, hm, rfl⟩)
  cases assigned : d.state.assignment m.id with
  | none => exact absurd ready (Assoc.get_eq_none_iff.mp assigned)
  | some x => exact ⟨x, unit, rfl, hu, e, sideA, sideB⟩

theorem posed_long (hm : m ∈ request.scheduler.games.rows) : 0 < m.durationSlots := by
  obtain ⟨-, unit, -, -, rfl, -⟩ := posed_game posed hm
  exact durationSlots_pos unit

theorem posed_rests (hm : m ∈ request.scheduler.games.rows) (inM : pid ∈ m.playerIds) :
    request.scheduler.Rests pid :=
  ⟨_, (posed_poses posed).player m.id m (Table.get_eq_some_iff.mpr ⟨hm, rfl⟩) pid inM,
    buildPlayer_rests⟩

theorem posed_courts : request.scheduler.poolCourts = d.pool := by
  have config : request.scheduler.config = d.config := posed_config posed
  rw [Scheduler.poolCourts, Scheduler.courts, config]
  rfl

theorem stands_spliced (duration : Nat) :
    request.scheduler.StandsAs (d.spliced id slotId courtId) (moveDraft d.state d.participants
      d.config d.playerExtras id slotId courtId duration) := by
  have config : request.scheduler.config = d.config := posed_config posed
  have read : ∀ m ∈ request.scheduler.games.rows, matchOf d.state d.participants m.id = some m ∧
      (moveDraft d.state d.participants d.config d.playerExtras id slotId courtId
        duration).games.get m.id = some m := by
    intro m hm
    obtain ⟨x, unit, hx, hu, e, sideA, sideB⟩ := posed_game posed hm
    have own : matchOf d.state d.participants m.id = some m := by
      rw [matchOf_eq_some hu sideA sideB, ← e]
    refine ⟨own, (moveDraft_get duration (List.mem_append_left _ ?_)).trans own⟩
    exact List.mem_map_of_mem (f := Prod.fst) (Assoc.mem_of_get hx)
  constructor
  case config => exact config.symm
  case placed =>
    intro m hm
    obtain ⟨x, -, hx, -⟩ := posed_game posed hm
    have own := (read m hm).1
    -- the entry of the unit is kept, or replaced by the drop
    have entry : ∀ a : Assignment, (if m.id = id then
        some { matchId := id, slotId, courtId, durationSlots := duration }
      else some { matchId := m.id, slotId := x.slotId, courtId := x.courtId
                  durationSlots := x.durationSlots }) = some a →
        a.matchId = m.id → (a, m) ∈ (moveDraft d.state d.participants d.config d.playerExtras id
          slotId courtId duration).known := by
      intro a e key
      refine Draft.mem_known.mpr ⟨?_, by rw [key]; exact (read m hm).2⟩
      refine List.mem_append_left _ (List.mem_filterMap.mpr ⟨(m.id, x), Assoc.mem_of_get hx, ?_⟩)
      dsimp only
      rw [own]
      exact e
    by_cases same : m.id = id
    · refine ⟨_, entry _ (if_pos same) same.symm, ?_⟩
      rw [same]
      exact ⟨spliced_dragged.1.symm, spliced_dragged.2.symm⟩
    · refine ⟨_, entry _ (if_neg same) rfl, ?_⟩
      exact ⟨(spliced_other _ _ same hx).1.symm, (spliced_other _ _ same hx).2.symm⟩
  case player =>
    intro m hm pid inM
    have theirs := (posed_poses posed).player m.id m (Table.get_eq_some_iff.mpr ⟨hm, rfl⟩) pid inM
    rw [posed_config posed] at theirs
    obtain ⟨x, -, hx, -⟩ := posed_game posed hm
    refine Eq.trans (get_buildPlayers ?_) theirs.symm
    refine List.mem_flatMap.mpr ⟨m, List.mem_filterMap.mpr ⟨m.id, ?_, (read m hm).1⟩, ?_⟩
    · exact List.mem_append_left _ (List.mem_map_of_mem (f := Prod.fst) (Assoc.mem_of_get hx))
    · exact List.mem_append.mpr (Match.mem_playerIds.mp inM)

theorem posed_dragged (keyed : (d.state.assignments.map Prod.fst).Nodup)
    (assigned : d.state.assignment id = some x) :
    { matchId := id, slotId := x.slotId, courtId := x.courtId, pinnedSlotId := some slotId
      pinnedCourtId := some courtId } ∈ request.scheduler.previousAssignments.rows := by
  rw [posed_previous posed keyed]
  exact List.mem_filterMap.mpr ⟨(id, x), Assoc.mem_of_get assigned, if_pos rfl⟩

theorem posed_listed (hx : d.state.assignment u = some x) :
    ∃ m ∈ request.scheduler.games.rows, m.id = u :=
  Table.has_iff.mp (((posed_poses posed).ids u).mpr
    (List.mem_map_of_mem (f := Prod.fst) (Assoc.mem_of_get hx)))

/-! ## What was placed before -/

theorem spliced_held (keyed : (d.state.assignments.map Prod.fst).Nodup) {draft : Draft}
    (stands : request.scheduler.StandsAs (d.spliced id slotId courtId) draft)
    (clear : draft.Clear) : request.scheduler.LocksAndPins (d.spliced id slotId courtId) := by
  intro prev listed m found
  obtain ⟨hm, key⟩ := Table.get_eq_some_iff.mp found
  rw [posed_previous posed keyed] at listed
  obtain ⟨x, hx, slot, court, ⟨same, free, slot', court'⟩ | ⟨ne, locked, -⟩⟩ :=
    partition_cases keyed listed
  · rw [free, if_neg (by simp), same, slot', court']
    refine ⟨fun t ht => ?_, fun c hc => ?_⟩
    · exact spliced_dragged.1.trans (Option.some.inj ht)
    · exact spliced_dragged.2.trans (Option.some.inj hc)
  · have stays := spliced_other slotId courtId ne hx
    have day := stands.day clear hm
    have onCourt := stands.courts clear hm
    rw [key] at day onCourt
    unfold Values.span at day
    rw [key] at day
    dsimp only at day
    rw [locked, if_pos rfl]
    refine ⟨⟨?_, ?_, ?_⟩, ?_, ?_⟩
    · omega
    · omega
    · rwa [court, ← stays.2]
    · exact stays.1.trans slot.symm
    · exact stays.2.trans court.symm

theorem spliced_frozen (keyed : (d.state.assignments.map Prod.fst).Nodup)
    (assigned : d.state.assignment id = some x) (unfrozen : d.Unfrozen slotId courtId x) :
    request.scheduler.FreezeHorizon (d.spliced id slotId courtId) := by
  intro ahead prev listed _ free early
  have config : request.scheduler.config = d.config := posed_config posed
  unfold Scheduler.cutoff at ahead early
  rw [config] at ahead early
  rw [posed_previous posed keyed] at listed
  obtain ⟨y, hy, slot, court, ⟨same, -⟩ | ⟨-, locked, -⟩⟩ := partition_cases keyed listed
  · rw [same, assigned] at hy
    cases hy
    obtain ⟨kept, kept'⟩ := unfrozen (by omega) (by omega)
    rw [Scheduler.Stays, same, spliced_dragged.1, spliced_dragged.2, slot, court]
    exact ⟨kept.symm, kept'.symm⟩
  · rw [locked] at free
    cases free

theorem posed_unlocked (keyed : (d.state.assignments.map Prod.fst).Nodup) :
    id ∉ request.scheduler.lockedMatches := by
  rw [Scheduler.lockedMatches, posed_previous posed keyed]
  intro mem
  rcases List.mem_append.mp mem with mem | mem
  · obtain ⟨prev, listed, same⟩ := List.mem_map.mp mem
    obtain ⟨listed, locked⟩ := List.mem_filter.mp listed
    obtain ⟨-, -, -, -, ⟨-, free, -⟩ | ⟨ne, -⟩⟩ := partition_cases keyed listed
    · rw [free] at locked
      cases locked
    · exact ne same
  · have locks : request.scheduler.lockedAssignments = [] := (posed_poses posed).locks
    rw [locks] at mem
    cases mem

theorem spliced_near (keyed : (d.state.assignments.map Prod.fst).Nodup)
    (assigned : d.state.assignment id = some x) (near : d.Near slotId x) :
    request.scheduler.Disruption (d.spliced id slotId courtId) := by
  intro prev listed _ free
  have config : request.scheduler.config = d.config := posed_config posed
  have listed' := listed
  rw [posed_previous posed keyed] at listed'
  obtain ⟨y, hy, slot, -, ⟨same, -⟩ | ⟨-, locked, -⟩⟩ := partition_cases keyed listed'
  · rw [same, assigned] at hy
    cases hy
    rw [same, spliced_dragged.1, slot, config]
    exact near
  · exact absurd (List.mem_append_left _
      (List.mem_map_of_mem (List.mem_filter.mpr ⟨listed, locked⟩))) free

/-! ## The pool -/

theorem posed_kept (keyed : (d.state.assignments.map Prod.fst).Nodup) {y : TournamentAssignment}
    (hy : d.state.assignment u = some y) (held : ¬ d.Free id (u, y)) :
    u ∈ request.scheduler.kept ∧ ∃ prev ∈ request.scheduler.previousAssignments.get u,
      prev.knownCourt = if u = id then courtId else y.courtId := by
  by_cases same : u = id
  · subst same
    have listed := posed_dragged posed keyed hy
    obtain ⟨m, hm, key⟩ := posed_listed posed hy
    refine ⟨List.mem_append_right _ (List.mem_map.mpr ⟨_, List.mem_filter.mpr ⟨listed, ?_⟩, rfl⟩),
      _, Table.get_eq_some_iff.mpr ⟨listed, rfl⟩, (if_pos rfl).symm⟩
    exact decide_eq_true ⟨Table.has_iff.mpr ⟨m, hm, key⟩, .inl rfl⟩
  · have locked : d.state.Locked u y d.config.currentSlot := by
      by_contra not
      exact held ⟨same, not⟩
    have listed : { matchId := u, slotId := y.slotId, courtId := y.courtId, locked := true } ∈
        request.scheduler.previousAssignments.rows := by
      rw [posed_previous posed keyed]
      refine List.mem_filterMap.mpr ⟨(u, y), Assoc.mem_of_get hy, ?_⟩
      rw [partition, if_neg same, if_pos locked]
    refine ⟨List.mem_append_left _ (List.mem_append_left _ ?_),
      _, Table.get_eq_some_iff.mpr ⟨listed, rfl⟩, (if_neg same).symm⟩
    exact List.mem_map.mpr ⟨_, List.mem_filter.mpr ⟨listed, rfl⟩, rfl⟩

theorem pools_of_pooled (keyed : (d.state.assignments.map Prod.fst).Nodup)
    (assigned : d.state.assignment id = some x) (pooled : u ∈ request.scheduler.planPool.pooled) :
    d.Pools id courtId := by
  have config : request.scheduler.config = d.config := posed_config posed
  have plan : d.config.courtPolicy = .queue ∧ d.config.closedCourtWindows = [] ∧ d.pool ≠ [] := by
    have some_ := pooled
    unfold Scheduler.planPool at some_
    rw [config, posed_courts posed] at some_
    split_ifs at some_ with queue open_ none_ <;> simp_all
  have clear : ∀ {u y}, d.state.assignment u = some y → ¬ d.Free id (u, y) →
      (if u = id then courtId else y.courtId) ∉ d.pool := by
    intro u y hy held
    obtain ⟨kept, prev, handed, court⟩ := posed_kept posed keyed hy held
    rw [← posed_courts posed, ← court]
    exact (Scheduler.planPool_queue pooled).2.2.1 u kept prev handed
  constructor
  case queue => exact plan.1
  case open_ => exact plan.2.1
  case some_ => exact plan.2.2
  case target => simpa using clear assigned fun free => free.1 rfl
  case locked =>
    rintro ⟨u, y⟩ hp ne locked
    simpa [show u ≠ id from ne] using
      clear (Assoc.get_eq_some_of_mem keyed hp) fun free => free.2 locked

theorem spliced_room (keyed : (d.state.assignments.map Prod.fst).Nodup)
    (assigned : d.state.assignment id = some x) (room : d.PoolRoom id courtId) (t : Int) :
    (request.scheduler.games.rows.filter fun m => m.id ∈ request.scheduler.planPool.pooled ∧
      ((d.spliced id slotId courtId).span m).Holds t).length ≤
        request.scheduler.planPool.poolCourts.length := by
  by_cases none_ : request.scheduler.planPool.pooled = []
  · simp [none_]
  obtain ⟨u, pooled⟩ := List.exists_mem_of_ne_nil _ none_
  obtain ⟨-, courts, -, members⟩ := Scheduler.planPool_queue pooled
  rw [courts, posed_courts posed]
  refine le_trans ?_ (room (pools_of_pooled posed keyed assigned pooled) t)
  -- every pooled match is a free unit, at its own place
  have sub : ((request.scheduler.games.rows.filter fun m =>
      m.id ∈ request.scheduler.planPool.pooled ∧
        ((d.spliced id slotId courtId).span m).Holds t).map Match.id) ⊆
      (d.state.assignments.filter fun p => d.Free id p ∧ d.PlaysAt t p).map Prod.fst := by
    intro u hu
    obtain ⟨m, hm, rfl⟩ := List.mem_map.mp hu
    obtain ⟨listed, holds⟩ := List.mem_filter.mp hm
    obtain ⟨pooled, holds⟩ := of_decide_eq_true holds
    obtain ⟨y, unit, hy, hu, e, -⟩ := posed_game posed listed
    have free : d.Free id (m.id, y) := by
      by_contra held
      exact ((members m.id).mp pooled).2 (posed_kept posed keyed hy held).1
    refine List.mem_map.mpr ⟨(m.id, y), List.mem_filter.mpr ⟨Assoc.mem_of_get hy, ?_⟩, rfl⟩
    have start := (spliced_other slotId courtId free.1 hy).1
    have length : m.durationSlots = unit.durationSlots := by
      rw [e]
      rfl
    unfold Values.span Span.Holds at holds
    rw [start, length] at holds
    exact decide_eq_true ⟨free, unit, hu, holds.1, holds.2⟩
  have unique : ((request.scheduler.games.rows.filter fun m =>
      m.id ∈ request.scheduler.planPool.pooled ∧
        ((d.spliced id slotId courtId).span m).Holds t).map Match.id).Nodup :=
    (List.filter_sublist.map _).nodup request.scheduler.games.unique
  simpa only [List.length_map] using (List.subperm_of_subset unique sub).length_le

/-! ## What every solution keeps -/

variable {as : List Assignment}

theorem posed_places (yields : request.scheduler.Yields as) :
    Drags d id slotId courtId as := by
  obtain ⟨config, prevs, poses⟩ := buildProblem_eq_ok posed
  exact Solution.places ⟨request, config, prevs, poses, yields⟩ (draggable_partition _ _ _ _)

theorem dragged_moved (keyed : (d.state.assignments.map Prod.fst).Nodup)
    (assigned : d.state.assignment id = some x) (yields : request.scheduler.Yields as) :
    ∃ a ∈ as, a.matchId = id ∧ a.slotId = slotId ∧ a.courtId = courtId := by
  obtain ⟨a, ha, e, -⟩ := dragged_assigned (posed_places posed yields) assigned
  exact ⟨a, ha, e, yields.pinned (posed_dragged posed keyed assigned) rfl rfl rfl ha e.symm⟩

theorem reachable_of_yields (keyed : (d.state.assignments.map Prod.fst).Nodup)
    (assigned : d.state.assignment id = some x) (yields : request.scheduler.Yields as) :
    d.Unfrozen slotId courtId x ∧ d.Near slotId x := by
  have config : request.scheduler.config = d.config := posed_config posed
  have listed := posed_dragged posed keyed assigned
  obtain ⟨m, hm, key⟩ := posed_listed posed assigned
  obtain ⟨v, sat, -⟩ := yields
  have pinned := sat.locksAndPins _ listed m (Table.get_eq_some_iff.mpr ⟨hm, key⟩)
  rw [if_neg (by simp)] at pinned
  have near := sat.disruption _ listed (Table.has_iff.mpr ⟨m, hm, key⟩) (posed_unlocked posed keyed)
  rw [pinned.1 slotId rfl, config] at near
  refine ⟨fun ahead early => ?_, near⟩
  have stays := sat.freezeHorizon (by rw [Scheduler.cutoff, config]; omega) _ listed
    (Table.has_iff.mpr ⟨m, hm, key⟩) rfl (by rw [Scheduler.cutoff, config]; exact early)
  exact ⟨stays.1.symm.trans (pinned.1 slotId rfl), stays.2.symm.trans (pinned.2 courtId rfl)⟩

end Posed

theorem PinSucceeds.within (h : d.PinSucceeds id slotId courtId)
    (keyed : (d.state.assignments.map Prod.fst).Nodup) (assigned : d.state.assignment id = some x) :
    d.Unfrozen slotId courtId x ∧ d.Near slotId x := by
  obtain ⟨request, posed, as, yields⟩ := h.solvable
  exact reachable_of_yields posed keyed assigned yields

theorem PinSucceeds.sidesKnown (h : d.PinSucceeds id slotId courtId) : d.state.SidesKnown := by
  intro u scheduled
  obtain ⟨request, posed, -⟩ := h.solvable
  obtain ⟨y, hy⟩ := Option.isSome_iff_exists.mp scheduled
  obtain ⟨m, hm, rfl⟩ := posed_listed posed hy
  obtain ⟨-, unit, -, hu, -, sides⟩ := posed_game posed hm
  exact ⟨unit, hu, sides⟩

/-- A clear drag that stays in reach leaves a problem with a solution. -/
theorem clear_yields {doc : Workspace} (config : d.config = doc.sessionConfig)
    (keyed : (d.state.assignments.map Prod.fst).Nodup) (assigned : d.state.assignment id = some x)
    (clear : d.MoveClear id slotId courtId) (room : d.PoolRoom id courtId)
    (unfrozen : d.Unfrozen slotId courtId x) (near : d.Near slotId x) {request : ScheduleRequest}
    (posed : d.pinProblem id slotId courtId = .ok request) : ∃ as, request.scheduler.Yields as := by
  obtain ⟨unit, -, draft⟩ := clear.draft
  have stands := stands_spliced posed unit.durationSlots
  have session : request.scheduler.config = doc.sessionConfig := (posed_config posed).trans config
  have sat := Scheduler.satisfies_of_clear stands draft (fun m => posed_long posed)
    (fun m hm pid => posed_rests posed hm) ?_ ?_ (spliced_room posed keyed assigned room)
    (spliced_held posed keyed stands draft) (spliced_frozen posed keyed assigned unfrozen)
    (spliced_near posed keyed assigned near) (posed_poses posed).locks
  · exact sat.yields fun m => posed_long posed
  · intro n hn
    rw [session] at hn
    obtain ⟨n, -, rfl⟩ := Option.map_eq_some_iff.mp hn
    exact Int.natCast_nonneg n
  · intro n hn
    rw [session] at hn
    obtain ⟨n, -, rfl⟩ := Option.map_eq_some_iff.mp hn
    exact Int.natCast_nonneg n

/-- **What a clear check promises.** In a session as the bracket routes hold it, where the check of
a free unit's drag finds nothing, the pin succeeds only if everybody who is scheduled has both
sides, the unit is not dragged away inside the freeze horizon, and not further than the day is long;
and then it does succeed, if the pool, where courts are handed out, is enough for the free units as
they are planned. -/
theorem pin_succeeds_iff {doc : Workspace} (config : d.config = doc.sessionConfig)
    (keyed : (d.state.assignments.map Prod.fst).Nodup) {x : TournamentAssignment}
    (assigned : d.state.assignment id = some x)
    (free : ¬ d.state.Locked id x d.config.currentSlot) (clear : d.MoveClear id slotId courtId) :
    (d.PinSucceeds id slotId courtId →
        d.state.SidesKnown ∧ d.Unfrozen slotId courtId x ∧ d.Near slotId x) ∧
      (d.PoolRoom id courtId → (d.PinSucceeds id slotId courtId ↔
        d.state.SidesKnown ∧ d.Unfrozen slotId courtId x ∧ d.Near slotId x)) := by
  have needed (h : d.PinSucceeds id slotId courtId) :
      d.state.SidesKnown ∧ d.Unfrozen slotId courtId x ∧ d.Near slotId x :=
    ⟨h.sidesKnown, h.within keyed assigned⟩
  refine ⟨needed, fun room => ⟨needed, fun ⟨known, unfrozen, near⟩ => ?_⟩⟩
  obtain ⟨request, posed⟩ := pinProblem_ok slotId courtId known assigned
  have only : ∀ {request'}, d.pinProblem id slotId courtId = .ok request' → request' = request :=
    fun posed' => Except.ok.inj (posed'.symm.trans posed)
  constructor
  case raises => exact fun solver => ⟨_, repinAndResolve_ok assigned free posed solver⟩
  case solvable =>
    exact ⟨request, posed, clear_yields config keyed assigned clear room unfrozen near posed⟩
  case moved =>
    intro request' posed' as yields
    exact dragged_moved posed' keyed assigned yields
  case locked =>
    intro request' posed' as yields u y hy locked
    have places := posed_places posed' yields
    obtain ⟨a, ha, e, -⟩ := dragged_assigned places hy
    have stays := locked_stays keyed places (fun z hz => ?_) hy locked ha e
    · exact ⟨a, ha, e, stays⟩
    · cases assigned.symm.trans hz
      exact free

end Pin

/-! ## A hall with a freeze horizon -/

def frozenHall (slots : Nat) : Workspace where
  config := { freezeHorizonSlots := some slots }

def unplanned (slots : Nat) : TournamentDriver where
  state := loneState "ann" "bob"
  participants := Table.empty
  config := (frozenHall slots).sessionConfig

def firstWave : ScheduleRequest where
  config := (frozenHall 1).sessionConfig
  players := buildPlayers ["ann", "bob"] Table.empty 0 128 none
  games := [(lone "ann" "bob").toMatch Table.empty]

def firstPlace : Assignment := ⟨"final", 0, 1, 1⟩

def planned (slots : Nat) : TournamentDriver :=
  { unplanned slots with state := (unplanned slots).state.place firstPlace }

theorem firstWave_yields : firstWave.scheduler.Yields [firstPlace] := by
  refine ⟨⟨fun _ => 0, fun _ => 1⟩, ?_, rfl⟩
  refine Scheduler.satisfies_alone (m := (lone "ann" "bob").toMatch Table.empty)
    rfl rfl rfl (.inl rfl) ?_ ?_ ?_ ?_
  · decide
  · decide
  · decide
  · decide

theorem wave_leaves_planned :
    ∃ solver : Solver, solver.Sound ∧ ∃ r, (unplanned 1).scheduleNextRound solver =
      .ok (r, (planned 1).state) ∧ r.Scheduled := by
  refine ⟨.answering firstWave [firstPlace],
    Solver.answering_sound firstWave_yields (by decide +kernel), ?_⟩
  have prepared : (unplanned 1).prepareNextRoundProblem =
      .ok (some (["final"], 0, firstWave)) := rfl
  obtain ⟨r, scheduled, ok⟩ := scheduleNextRound_answering _ _ _ prepared [firstPlace]
  exact ⟨r, ok, scheduled⟩

/-- Behind a horizon of no slots a clear drag can be pinned. -/
theorem pin_succeeds_iff_planned : (planned 0).PinSucceeds "final" 1 1 := by
  have known : (planned 0).state.SidesKnown := by
    intro u hu
    obtain ⟨x, hx⟩ := Option.isSome_iff_exists.mp hu
    obtain ⟨rfl, -⟩ := Prod.mk.inj (List.mem_singleton.mp (Assoc.mem_of_get hx))
    exact ⟨lone "ann" "bob", rfl, by decide, by decide⟩
  have session : (planned 0).config = (frozenHall 0).sessionConfig := rfl
  refine ((pin_succeeds_iff (x := newAssignment firstPlace) session (by decide) rfl (by decide)
    (by decide +kernel)).2 fun pools => ?_).mpr ⟨known, fun ahead => ?_, by decide⟩
  · exact absurd pools.queue (by decide)
  · exact absurd ahead (by decide)

def fullHall : Workspace where
  config :=
    { courtCount := some 3
      courtPolicy := some .queue
      courtOverrides := some [(1, .pinned), (2, .pinned)] }
  bracketSession := { totalSlots := some 1 }

def loneOf (id : PlayUnitId) (p q : ParticipantId) : PlayUnit :=
  { lone p q with id }

def full : TournamentDriver where
  state :=
    { playUnits := ⟨[loneOf "a" "ann" "bob", loneOf "b" "cid" "dee", loneOf "c" "eve" "fay"], by decide⟩
      assignments := [("a", { slotId := 0, courtId := 1 }), ("b", { slotId := 0, courtId := 2 }),
        ("c", { slotId := 0, courtId := 3 })] }
  participants := Table.empty
  config := fullHall.sessionConfig

def fullAsked : ScheduleRequest where
  config := fullHall.sessionConfig
  players := buildPlayers ["ann", "bob", "cid", "dee", "eve", "fay"] Table.empty 0 1 none
  games := full.state.playUnits.rows.map fun unit => unit.toMatch Table.empty
  previousAssignments := [{ matchId := "a", slotId := 0, courtId := 1, pinnedSlotId := some 0
                            pinnedCourtId := some 1 }]

theorem full_asks : full.pinProblem "a" 0 1 = .ok fullAsked := by decide +kernel

theorem full_unsolvable (as : List Assignment) : ¬ fullAsked.scheduler.Yields as := by
  rintro ⟨v, sat, -⟩
  have rows : fullAsked.scheduler.games.rows = [(loneOf "a" "ann" "bob").toMatch Table.empty,
      (loneOf "b" "cid" "dee").toMatch Table.empty, (loneOf "c" "eve" "fay").toMatch Table.empty] := by
    decide +kernel
  have plan : fullAsked.scheduler.planPool =
      { policy := .queue, poolCourts := [3], pooled := ["b", "c"] } := by
    decide +kernel
  have first : ∀ m ∈ fullAsked.scheduler.games.rows, m.durationSlots = 1 → (v.span m).Holds 0 := by
    intro m hm length
    obtain ⟨from_, -, last⟩ := sat.startsInDay m hm
    have total : fullAsked.scheduler.config.totalSlots = 1 := rfl
    unfold Values.span at last ⊢
    unfold Span.Holds
    rw [length] at last ⊢
    dsimp only at last ⊢
    omega
  have both : [(loneOf "b" "cid" "dee").toMatch Table.empty,
      (loneOf "c" "eve" "fay").toMatch Table.empty] ⊆ fullAsked.scheduler.games.rows.filter fun m =>
        m.id ∈ fullAsked.scheduler.planPool.pooled ∧ (v.span m).Holds 0 := by
    have pooled : ∀ m ∈ fullAsked.scheduler.games.rows.tail, m.durationSlots = 1 ∧
        m.id ∈ fullAsked.scheduler.planPool.pooled := by
      rw [rows, plan]
      decide
    intro m hm
    have later : m ∈ fullAsked.scheduler.games.rows.tail := by
      rw [rows]
      exact hm
    have listed := List.mem_of_mem_tail later
    exact List.mem_filter.mpr ⟨listed, decide_eq_true ⟨(pooled m later).2,
      first m listed (pooled m later).1⟩⟩
  have crowded := (List.subperm_of_subset (by decide) both).length_le.trans
    (sat.courtCapacity.2 0)
  rw [plan] at crowded
  exact absurd crowded (by decide)

/-- The unit is stored past the end of the day. -/
def distant : TournamentDriver :=
  { unplanned 0 with
    state := { loneState "ann" "bob" with
      assignments := [("final", { slotId := 300, courtId := 1 })] } }

/-- A drag out of the frozen slots passes the check, but its problem has no solution; nor has that
of a drag which leaves more to the pool than it has courts, or that of a long way. -/
theorem clear_pin_fails : ((∃ solver : Solver, solver.Sound ∧ ∃ r,
        (unplanned 1).scheduleNextRound solver = .ok (r, (planned 1).state) ∧ r.Scheduled) ∧
      (∃ x, (planned 1).state.assignment "final" = some x ∧
        ¬ (planned 1).state.Locked "final" x (planned 1).config.currentSlot) ∧
      (planned 1).MoveClear "final" 1 1 ∧ ¬ (planned 1).PinSucceeds "final" 1 1 ∧
      ∃ request, (planned 1).pinProblem "final" 1 1 = .ok request ∧
        ∀ as, ¬ request.scheduler.Yields as) ∧
    (full.MoveClear "a" 0 1 ∧ ¬ full.PinSucceeds "a" 0 1) ∧
    distant.MoveClear "final" 1 1 ∧ ¬ distant.PinSucceeds "final" 1 1 := by
  have frozen : ¬ (planned 1).Unfrozen 1 1 (newAssignment firstPlace) := fun stays =>
    absurd (stays (by decide) (by decide)) (by decide)
  refine ⟨⟨wave_leaves_planned, ⟨_, rfl, by decide⟩, by decide +kernel, fun succeeds => ?_,
    _, rfl, fun as yields => ?_⟩, ⟨by decide +kernel, fun succeeds => ?_⟩, by decide +kernel,
    fun succeeds => ?_⟩
  · exact frozen (succeeds.within (by decide) rfl).1
  · have posed : (planned 1).pinProblem "final" 1 1 = .ok _ := rfl
    exact frozen (reachable_of_yields posed (by decide) rfl yields).1
  · obtain ⟨request, posed, as, yields⟩ := succeeds.solvable
    cases full_asks.symm.trans posed
    exact full_unsolvable as yields
  · have near := (succeeds.within (by decide) rfl).2
    exact absurd near.2 (by decide)

end TournamentDriver

end Brackets
