import ShuttleWorks.Brackets.Problem

/-! Planning round by round. A wave schedules whatever is ready behind a moving current slot,
an event is generated around what the other events hold, and a re-pin solves everything that
is scheduled again around one dragged match. -/

namespace Brackets
open Lib Engine

structure RoundResult where
  playUnitIds : List PlayUnitId := []
  status : SolverStatus := .unknown
  scheduleResult : Option ScheduleResult := none
  startedAtCurrentSlot : Int := 0
  deriving DecidableEq, Repr

def RoundResult.Scheduled (r : RoundResult) : Prop := r.status = .optimal ∨ r.status = .feasible

instance (r : RoundResult) : Decidable r.Scheduled := inferInstanceAs (Decidable (_ ∨ _))

inductive DriverError
  | build (e : BuildError)
  | notScheduled (id : PlayUnitId)
  | locked (id : PlayUnitId)
  | eventStarted (id : EventId)
  deriving DecidableEq, Repr

def liftBuild {α : Type} : Except BuildError α → Except DriverError α
  | .error e => .error (.build e)
  | .ok a => .ok a

@[simp] theorem liftBuild_eq_ok {α : Type} {x : Except BuildError α} {a : α} :
    liftBuild x = .ok a ↔ x = .ok a := by
  cases x <;> simp [liftBuild]

structure TournamentDriver where
  state : TournamentState
  participants : Participants
  config : ScheduleConfig
  restBetweenRounds : Int := 1
  playerExtras : Option Extras := none

namespace TournamentState

/-- Write an assignment, made from the place the engine gave and the one the unit had. -/
def write (make : Option TournamentAssignment → Assignment → TournamentAssignment)
    (s : TournamentState) (a : Assignment) : TournamentState :=
  { s with
    assignments := Assoc.set a.matchId (make (s.assignment a.matchId) a) s.assignments }

end TournamentState

def newAssignment (a : Assignment) : TournamentAssignment where
  slotId := a.slotId
  courtId := a.courtId
  durationSlots := a.durationSlots

/-- The assignment moved to a place; what is recorded of its playing stays. -/
def movedAssignment (existing : Option TournamentAssignment) (a : Assignment) :
    TournamentAssignment where
  slotId := a.slotId
  courtId := a.courtId
  durationSlots := a.durationSlots
  actualStartSlot := existing.bind TournamentAssignment.actualStartSlot
  actualEndSlot := existing.bind TournamentAssignment.actualEndSlot

namespace TournamentState

def place : TournamentState → Assignment → TournamentState := write fun _ => newAssignment

def moveTo : TournamentState → Assignment → TournamentState := write movedAssignment

def eventUnits (s : TournamentState) (eventId : EventId) : List PlayUnit :=
  s.playUnits.rows.filter fun unit => unit.eventId = eventId

end TournamentState

namespace TournamentDriver

variable (d : TournamentDriver)

/-! ## The next wave -/

def currentSlot : Int :=
  advanceCurrentSlot d.state d.config.currentSlot d.restBetweenRounds

/-- `prepare_next_round_problem`; nothing where no unit is ready. -/
def prepareNextRoundProblem :
    Except BuildError (Option (List PlayUnitId × Int × ScheduleRequest)) :=
  let ready := d.state.findReadyPlayUnits
  if ready = [] then .ok none
  else do
    let request ← buildProblem d.state d.participants ready
      { d.config with currentSlot := d.currentSlot } [] d.playerExtras
    return some (ready, d.currentSlot, request)

def scheduleNextRound (solver : Solver) : Except DriverError (RoundResult × TournamentState) := do
  match ← liftBuild d.prepareNextRoundProblem with
  | none => return ({}, d.state)
  | some (ready, currentSlot, request) =>
    let result := solver request
    return ({ playUnitIds := ready, status := result.status, scheduleResult := some result
              startedAtCurrentSlot := currentSlot },
      if result.Solved then result.assignments.foldl TournamentState.place d.state else d.state)

/-! ## Re-pinning -/

/-- What a scheduled unit is to the re-solve: dragged, locked where it is, or free. -/
def partition (id : PlayUnitId) (slotId courtId : Int) (p : PlayUnitId × TournamentAssignment) :
    Option PreviousAssignment :=
  if p.1 = id then
    some { matchId := p.1, slotId := p.2.slotId, courtId := p.2.courtId
           pinnedSlotId := some slotId, pinnedCourtId := some courtId }
  else if d.state.Locked p.1 p.2 d.config.currentSlot then
    some { matchId := p.1, slotId := p.2.slotId, courtId := p.2.courtId, locked := true }
  else none

def repinAndResolve (solver : Solver) (id : PlayUnitId) (slotId courtId : Int) :
    Except DriverError (RoundResult × TournamentState) :=
  match d.state.assignment id with
  | none => .error (.notScheduled id)
  | some a =>
    if d.state.Locked id a d.config.currentSlot then .error (.locked id)
    else do
      let ids := d.state.assignments.map Prod.fst
      let request ← liftBuild (buildProblem d.state d.participants ids d.config
        (d.state.assignments.filterMap (d.partition id slotId courtId)) d.playerExtras)
      let result := solver request
      return ({ playUnitIds := ids, status := result.status, scheduleResult := some result
                startedAtCurrentSlot := d.config.currentSlot },
        if result.Solved then result.assignments.foldl TournamentState.moveTo d.state else d.state)

/-! ## Generating an event -/

/-- The event without its assignments. -/
def wiped (eventId : EventId) (wipe : Bool) : TournamentState :=
  if wipe then
    { d.state with
      assignments := d.state.assignments.filter fun p =>
        p.1 ∉ (d.state.eventUnits eventId).map PlayUnit.id }
  else d.state

def readyUnits (s : TournamentState) (eventId : EventId) : List PlayUnitId :=
  ((s.eventUnits eventId).filter fun unit => ¬ s.Assigned unit.id ∧ s.Resolved unit).map PlayUnit.id

/-- What the other events hold, which may not move. -/
def heldElsewhere (s : TournamentState) (eventId : EventId) : List PreviousAssignment :=
  s.assignments.filterMap fun p =>
    match s.playUnits.get p.1 with
    | none => none
    | some unit =>
      if unit.eventId = eventId then none
      else some { matchId := p.1, slotId := p.2.slotId, courtId := p.2.courtId, locked := true }

def generateEvent (solver : Solver) (eventId : EventId) (wipe : Bool) :
    Except DriverError (RoundResult × TournamentState) :=
  if d.state.eventUnits eventId = [] then .ok ({}, d.state)
  else if ∃ unit ∈ d.state.eventUnits eventId, ∃ r ∈ d.state.result unit.id, r.walkover = false then
    .error (.eventStarted eventId)
  else
    let s := d.wiped eventId wipe
    let ready := readyUnits s eventId
    if ready = [] then .ok ({}, s)
    else do
      let held := heldElsewhere s eventId
      let request ← liftBuild (buildProblem s d.participants
        (ready ++ held.map PreviousAssignment.matchId) d.config held d.playerExtras)
      let result := solver request
      return ({ playUnitIds := ready, status := result.status, scheduleResult := some result
                startedAtCurrentSlot := d.config.currentSlot },
        if result.Solved then
          (result.assignments.filter fun a => a.matchId ∈ ready).foldl TournamentState.place s
        else s)

end TournamentDriver

/-! ## Committing a candidate -/

inductive CommitError
  | unknownPlayUnit (id : PlayUnitId)
  | notReady (id : PlayUnitId)
  deriving DecidableEq, Repr

/-- One cell of `commit_next_round`. -/
def commitCell (ready : List PlayUnitId) (s : TournamentState) (cell : Assignment) :
    Except CommitError TournamentState :=
  if ¬ s.playUnits.Has cell.matchId then .error (.unknownPlayUnit cell.matchId)
  else if cell.matchId ∉ ready then .error (.notReady cell.matchId)
  else .ok (s.place cell)

/-- `commit_next_round`: every cell, or none of them. -/
def commitNextRound (s : TournamentState) (cells : List Assignment) :
    Except CommitError TournamentState :=
  cells.foldlM (commitCell s.findReadyPlayUnits) s

/-! ## What a planning call does -/

section Writing

variable {make : Option TournamentAssignment → Assignment → TournamentAssignment}
  {s : TournamentState} {as : List Assignment}

@[simp] theorem write_playUnits (as : List Assignment) (s : TournamentState) :
    (as.foldl (TournamentState.write make) s).playUnits = s.playUnits := by
  induction as generalizing s with
  | nil => rfl
  | cons a as ih => exact ih _

@[simp] theorem write_results (as : List Assignment) (s : TournamentState) :
    (as.foldl (TournamentState.write make) s).results = s.results := by
  induction as generalizing s with
  | nil => rfl
  | cons a as ih => exact ih _

theorem assignment_write (s : TournamentState) (a : Assignment) (id : PlayUnitId) :
    (s.write make a).assignment id =
      if a.matchId = id then some (make (s.assignment a.matchId) a) else s.assignment id :=
  Assoc.get_set _ _ _ _

theorem assignment_write_of_not_mem {id : PlayUnitId} (h : id ∉ as.map Assignment.matchId) :
    (as.foldl (TournamentState.write make) s).assignment id = s.assignment id := by
  induction as generalizing s with
  | nil => rfl
  | cons a as ih =>
    rw [List.map_cons, List.mem_cons, not_or] at h
    rw [List.foldl_cons, ih h.2, assignment_write, if_neg (Ne.symm h.1)]

theorem assignment_write_of_mem (distinct : (as.map Assignment.matchId).Nodup) {a : Assignment}
    (h : a ∈ as) : (as.foldl (TournamentState.write make) s).assignment a.matchId =
      some (make (s.assignment a.matchId) a) := by
  induction as generalizing s with
  | nil => simp at h
  | cons b as ih =>
    obtain ⟨fresh, distinct⟩ := List.nodup_cons.mp distinct
    rw [List.foldl_cons]
    rcases List.mem_cons.mp h with rfl | h
    · rw [assignment_write_of_not_mem fresh, assignment_write, if_pos rfl]
    · have other : b.matchId ≠ a.matchId := fun e => fresh (e ▸ List.mem_map_of_mem h)
      rw [ih distinct h, assignment_write, if_neg other]

theorem assignment_write_cases (distinct : (as.map Assignment.matchId).Nodup) {id : PlayUnitId}
    {x : TournamentAssignment}
    (h : (as.foldl (TournamentState.write make) s).assignment id = some x) :
    (∃ a ∈ as, a.matchId = id ∧ x = make (s.assignment id) a) ∨
      (id ∉ as.map Assignment.matchId ∧ s.assignment id = some x) := by
  by_cases mem : id ∈ as.map Assignment.matchId
  · obtain ⟨a, ha, rfl⟩ := List.mem_map.mp mem
    rw [assignment_write_of_mem distinct ha] at h
    exact .inl ⟨a, ha, rfl, (Option.some.inj h).symm⟩
  · rw [assignment_write_of_not_mem mem] at h
    exact .inr ⟨mem, h⟩

end Writing

/-- The places are a solution of the problem these units pose. -/
def Solution (s : TournamentState) (participants : Participants) (ready : List PlayUnitId)
    (config : ScheduleConfig) (prevs : List PreviousAssignment) (extras : Option Extras)
    (as : List Assignment) : Prop :=
  ∃ request, request.config = config ∧ request.previousAssignments = prevs ∧
    Poses s participants ready extras request ∧ request.scheduler.Yields as

namespace TournamentDriver

variable {d : TournamentDriver} {solver : Solver} {r : RoundResult} {s' : TournamentState}

theorem scheduleNextRound_cases (sound : solver.Sound)
    (h : d.scheduleNextRound solver = .ok (r, s')) :
    (s' = d.state ∧ (r.Scheduled → r.playUnitIds = [])) ∨
      ∃ as, Solution d.state d.participants d.state.findReadyPlayUnits
          { d.config with currentSlot := d.currentSlot } [] d.playerExtras as ∧
        r.playUnitIds = d.state.findReadyPlayUnits ∧ s' = as.foldl TournamentState.place d.state := by
  unfold scheduleNextRound at h
  obtain ⟨prepared, hp, h⟩ := bind_eq_ok.mp h
  rw [liftBuild_eq_ok] at hp
  unfold prepareNextRoundProblem at hp
  dsimp only at hp
  split at hp
  · cases hp
    cases h
    exact .inl ⟨rfl, fun _ => rfl⟩
  · obtain ⟨request, hb, hp⟩ := bind_eq_ok.mp hp
    cases hp
    cases h
    obtain ⟨config, prevs, poses⟩ := buildProblem_eq_ok hb
    by_cases solved : (solver request).Solved
    · rw [if_pos solved]
      exact .inr ⟨_, ⟨request, config, prevs, poses, sound.yields request solved⟩, rfl, rfl⟩
    · rw [if_neg solved]
      exact .inl ⟨rfl, fun scheduled => absurd scheduled solved⟩

theorem scheduleNextRound_answering (ready : List PlayUnitId) (slot : Int)
    (request : ScheduleRequest) (prepared : d.prepareNextRoundProblem = .ok (some (ready, slot, request)))
    (as : List Assignment) : ∃ r, r.Scheduled ∧
      d.scheduleNextRound (.answering request as) = .ok (r, as.foldl TournamentState.place d.state) := by
  have answer : Solver.answering request as request = { status := .optimal, assignments := as } :=
    if_pos rfl
  refine ⟨{ playUnitIds := ready, status := .optimal, startedAtCurrentSlot := slot
            scheduleResult := some { status := .optimal, assignments := as } }, .inl rfl, ?_⟩
  rw [scheduleNextRound, prepared]
  dsimp only [liftBuild, bind, Except.bind]
  rw [answer]
  rfl

theorem repinAndResolve_cases (sound : solver.Sound) {id : PlayUnitId} {slotId courtId : Int}
    (h : d.repinAndResolve solver id slotId courtId = .ok (r, s')) :
    ∃ a, d.state.assignment id = some a ∧ ¬ d.state.Locked id a d.config.currentSlot ∧
      ((s' = d.state ∧ ¬ r.Scheduled) ∨
      ∃ as, Solution d.state d.participants (d.state.assignments.map Prod.fst) d.config
          (d.state.assignments.filterMap (d.partition id slotId courtId)) d.playerExtras as ∧
        (r.Scheduled ∧ r.playUnitIds = d.state.assignments.map Prod.fst) ∧
        s' = as.foldl TournamentState.moveTo d.state) := by
  unfold repinAndResolve at h
  split at h
  · cases h
  next a ha =>
  split at h
  · cases h
  next free =>
  refine ⟨a, ha, free, ?_⟩
  obtain ⟨request, hb, h⟩ := bind_eq_ok.mp h
  rw [liftBuild_eq_ok] at hb
  cases h
  obtain ⟨config, prevs, poses⟩ := buildProblem_eq_ok hb
  by_cases solved : (solver request).Solved
  · rw [if_pos solved]
    exact .inr ⟨_, ⟨request, config, prevs, poses, sound.yields request solved⟩, ⟨solved, rfl⟩, rfl⟩
  · rw [if_neg solved]
    exact .inl ⟨rfl, solved⟩

theorem wiped_of_no_units {eventId : EventId} (h : d.state.eventUnits eventId = []) (wipe : Bool) :
    d.wiped eventId wipe = d.state := by
  unfold wiped
  split
  · rw [h]
    simp
  · rfl

/-- Generating an event at most wipes it, or places a solution of its ready units around what the
other events hold. -/
theorem generateEvent_cases (sound : solver.Sound) {eventId : EventId} {wipe : Bool}
    (h : d.generateEvent solver eventId wipe = .ok (r, s')) :
    (s' = d.wiped eventId wipe ∧ ¬ r.Scheduled) ∨
      ∃ as, Solution (d.wiped eventId wipe) d.participants
          (readyUnits (d.wiped eventId wipe) eventId ++
            (heldElsewhere (d.wiped eventId wipe) eventId).map PreviousAssignment.matchId)
          d.config (heldElsewhere (d.wiped eventId wipe) eventId) d.playerExtras as ∧
        (r.Scheduled ∧ r.playUnitIds = readyUnits (d.wiped eventId wipe) eventId) ∧
        s' = (as.filter fun a => a.matchId ∈ readyUnits (d.wiped eventId wipe) eventId).foldl
          TournamentState.place (d.wiped eventId wipe) := by
  unfold generateEvent at h
  split at h
  · next units =>
    cases h
    exact .inl ⟨(wiped_of_no_units units wipe).symm, by decide⟩
  split at h
  · cases h
  dsimp only at h
  split at h
  · cases h
    exact .inl ⟨rfl, by decide⟩
  obtain ⟨request, hb, h⟩ := bind_eq_ok.mp h
  rw [liftBuild_eq_ok] at hb
  cases h
  obtain ⟨config, prevs, poses⟩ := buildProblem_eq_ok hb
  by_cases solved : (solver request).Solved
  · rw [if_pos solved]
    exact .inr ⟨_, ⟨request, config, prevs, poses, sound.yields request solved⟩, ⟨solved, rfl⟩, rfl⟩
  · rw [if_neg solved]
    exact .inl ⟨rfl, solved⟩

end TournamentDriver

end Brackets
