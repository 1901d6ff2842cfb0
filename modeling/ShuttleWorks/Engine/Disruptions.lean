import ShuttleWorks.Engine.Repair

/-! Disruptions of a planned day: a player withdraws, a court closes, a match runs over or
is cancelled. Each is translated into the slice the repair may touch. -/

namespace Engine
open Lib

inductive MatchStateStatus
  | scheduled | called | started | finished | retired
  deriving DecidableEq, Repr

inductive DisruptionType
  | withdrawal | courtClosed | overrun | cancellation
  deriving DecidableEq, Repr

structure Disruption where
  type : DisruptionType
  playerId : Option String := none
  courtId : Option Int := none
  matchId : Option String := none
  extraMinutes : Option Int := none
  deriving DecidableEq, Repr

/-- A repair request whose config, players and matches are the engine's already. -/
structure RepairRequest where
  originalSchedule : List Assignment
  config : ScheduleConfig
  intervalMinutes : Int
  players : List Player
  games : List Match
  matchStates : List (String × MatchStateStatus) := []
  disruption : Disruption
  deriving DecidableEq

inductive RepairError
  | withdrawalPlayer | closedCourt | overrunMatch | unknownMatch (id : String)
  | notInSchedule (id : String) | cancellationMatch
  deriving DecidableEq, Repr

def RepairError.message : RepairError → String
  | .withdrawalPlayer => "withdrawal disruption requires playerId"
  | .closedCourt => "court_closed disruption requires courtId"
  | .overrunMatch => "overrun disruption requires matchId"
  | .unknownMatch id => "unknown matchId: " ++ id
  | .notInSchedule id => "matchId " ++ id ++ " is not in the schedule"
  | .cancellationMatch => "cancellation disruption requires matchId"

namespace RepairRequest

variable (r : RepairRequest)

def assignmentsByMatch : Table Assignment.matchId := Table.ofRows r.originalSchedule

def isFinished (id : String) : Prop := Assoc.get id r.matchStates = some .finished

instance (id : String) : Decidable (r.isFinished id) := inferInstanceAs (Decidable (_ = _))

def movable (wanted : Match → Assignment → Bool) : List String :=
  (r.games.filter fun m => ¬ r.isFinished m.id ∧
    (r.assignmentsByMatch.get m.id).any (wanted m)).map Match.id

def slice : Except RepairError (List String × List String × List Int) :=
  let d := r.disruption
  match d.type with
  | .withdrawal =>
    let playerId := d.playerId.getD ""
    if playerId = "" then .error .withdrawalPlayer
    else .ok ([], (r.games.filter fun m =>
      ¬ r.isFinished m.id ∧ (playerId ∈ m.sideA ∨ playerId ∈ m.sideB)).map Match.id, [])
  | .courtClosed =>
    match d.courtId with
    | none => .error .closedCourt
    | some c => .ok (r.movable fun _ a => a.courtId = c, [], [c])
  | .overrun =>
    let matchId := d.matchId.getD ""
    if matchId = "" then .error .overrunMatch
    else match (Table.ofRows r.games : Table Match.id).get matchId with
      | none => .error (.unknownMatch matchId)
      | some target =>
        match r.assignmentsByMatch.get matchId with
        | none => .error (.notInSchedule matchId)
        | some place => .ok (r.movable fun m a => m.id ≠ matchId ∧
            (∃ pid ∈ m.sideA ++ m.sideB, pid ∈ target.sideA ++ target.sideB) ∧
            place.slotId ≤ a.slotId, [], [])
  | .cancellation =>
    let matchId := d.matchId.getD ""
    if matchId = "" then .error .cancellationMatch
    else match r.assignmentsByMatch.get matchId with
      | none => .ok ([], [matchId], [])
      | some place =>
        let cutoff := place.slotId + max 1 (30 / r.intervalMinutes)
        .ok (r.movable fun m a => m.id ≠ matchId ∧ a.courtId = place.courtId ∧ a.slotId ≤ cutoff,
          [matchId], [])

/-- The hints of `_slice_for`: every match that is left, where it was. -/
def hints (forbidMatches : List String) : Table Assignment.matchId :=
  Table.ofRows ((r.games.filter fun m => m.id ∉ forbidMatches).filterMap fun m =>
    r.assignmentsByMatch.get m.id)

def sliceFor : Except RepairError RepairSpec := do
  let (free, forbidMatches, forbidCourts) ← r.slice
  return {
    freeMatchIds := free
    forbidMatchIds := forbidMatches
    forbidCourtIds := forbidCourts
    hintAssignments := r.hints forbidMatches }

/-- What the repair of a slice is given. -/
def problem (repair : RepairSpec) (lockedAssignments : List LockedAssignment) : RepairProblem where
  config := r.config
  players := r.players
  games := r.games
  repair := repair
  lockedAssignments := lockedAssignments

/-- The ids `_run_repair` reports: what was taken out, and what has a new place. -/
def repairedIds (repair : RepairSpec) (as : List Assignment) : List String :=
  (r.assignmentsByMatch.rows.filter fun prev =>
    prev.matchId ∈ repair.forbidMatchIds ∨
      ((Table.ofRows as : Table Assignment.matchId).get prev.matchId).any fun new =>
        new.slotId ≠ prev.slotId ∨ new.courtId ≠ prev.courtId).map Assignment.matchId

def runRepair (solver : RepairSolver) (lockedAssignments : List LockedAssignment) :
    Except RepairError (ScheduleResult × List String) := do
  let repair ← r.sliceFor
  let result := solver (r.problem repair lockedAssignments)
  return (result, r.repairedIds repair result.assignments)

variable {r : RepairRequest} {repair : RepairSpec}

theorem get_hints {forbidMatches : List String} {m : Match} (hm : m ∈ r.games)
    (stays : m.id ∉ forbidMatches) :
    (r.hints forbidMatches).get m.id = r.assignmentsByMatch.get m.id := by
  have rows : ∀ a ∈ (r.games.filter fun m => m.id ∉ forbidMatches).filterMap fun m =>
      r.assignmentsByMatch.get m.id, r.assignmentsByMatch.get a.matchId = some a := by
    intro a ha
    obtain ⟨m', -, get⟩ := List.mem_filterMap.mp ha
    rw [Table.key_of_get get, get]
  rw [hints, Table.ofRows, Table.get_foldl_put rows]
  split
  · rfl
  next absent =>
  cases get : r.assignmentsByMatch.get m.id with
  | none => rfl
  | some a =>
    refine absurd (List.mem_map.mpr ⟨a, List.mem_filterMap.mpr ⟨m, ?_, get⟩, ?_⟩) absent
    · exact List.mem_filter.mpr ⟨hm, decide_eq_true stays⟩
    · exact Table.key_of_get get

theorem sliceFor_eq_ok (h : r.sliceFor = .ok repair) :
    r.slice = .ok (repair.freeMatchIds, repair.forbidMatchIds, repair.forbidCourtIds) ∧
      repair.hintAssignments = r.hints repair.forbidMatchIds := by
  obtain ⟨⟨free, forbidMatches, forbidCourts⟩, hs, h⟩ := bind_eq_ok.mp h
  cases h
  exact ⟨hs, rfl⟩

/-! ## A court that closes -/

/-- One match and two courts, the first of which closes. -/
def courtCloses (originalSchedule : List Assignment) (policy : CourtPolicy) : RepairRequest where
  originalSchedule := originalSchedule
  config := { totalSlots := 4, courtCount := 2, courtPolicy := policy }
  intervalMinutes := 30
  players := []
  games := [{ id := "final", eventCode := "MS", sideA := ["ann"], sideB := ["bob"] }]
  disruption := { type := .courtClosed, courtId := some 1 }

/-- The repair it asks for, with the matches that may move. -/
def courtRepair (originalSchedule : List Assignment) (policy : CourtPolicy) (free : List String) :
    RepairProblem :=
  (courtCloses originalSchedule policy).problem {
    freeMatchIds := free
    forbidCourtIds := [1]
    hintAssignments := (courtCloses originalSchedule policy).hints [] } []

def finalOn (court : Int) : Assignment := ⟨"final", 0, court, 1⟩

def pinnedRepair : RepairProblem := courtRepair [finalOn 1] .pinned ["final"]

def queuedRepair : RepairProblem := courtRepair [finalOn 1] .queue ["final"]

def keptRepair : RepairProblem := courtRepair [finalOn 2] .pinned []

def unplannedRepair : RepairProblem := courtRepair [] .pinned []

theorem pinned_answer : (RepairSolver.answering pinnedRepair [finalOn 2]).Sound := by
  apply RepairSolver.answering_sound
  · refine ⟨⟨fun _ => 0, fun _ => 2⟩, ?_, ?_, rfl⟩
    · apply Scheduler.satisfies_alone (m := ⟨"final", "MS", 1, ["ann"], ["bob"]⟩) rfl rfl rfl
      all_goals decide
    · unfold RepairProblem.Forbids
      decide +kernel
  · decide +kernel

theorem kept_answer : (RepairSolver.answering keptRepair [finalOn 2]).Sound := by
  apply RepairSolver.answering_sound
  · refine ⟨⟨fun _ => 0, fun _ => 2⟩, ?_, ?_, rfl⟩
    · apply Scheduler.satisfies_held (m := ⟨"final", "MS", 1, ["ann"], ["bob"]⟩) rfl
      case held =>
        intro prev hp m found
        obtain rfl := List.mem_singleton.mp hp
        cases found
        decide
      case frozen => exact fun early => absurd early (by decide)
      case near =>
        intro prev hp _ free
        obtain rfl := List.mem_singleton.mp hp
        exact absurd (by decide) free
      case locks => rfl
      all_goals decide
    · unfold RepairProblem.Forbids
      decide +kernel
  · decide +kernel

theorem queued_answer : (RepairSolver.answering queuedRepair [finalOn 1]).Sound := by
  apply RepairSolver.answering_sound
  · refine ⟨⟨fun _ => 0, fun _ => 1⟩, ?_, ?_, rfl⟩
    · apply Scheduler.satisfies_alone (m := ⟨"final", "MS", 1, ["ann"], ["bob"]⟩) rfl rfl rfl
      all_goals decide
    · unfold RepairProblem.Forbids
      decide +kernel
  · decide +kernel

theorem unplanned_answer : (RepairSolver.answering unplannedRepair [finalOn 1]).Sound := by
  apply RepairSolver.answering_sound
  · refine ⟨⟨fun _ => 0, fun _ => 1⟩, ?_, ?_, rfl⟩
    · apply Scheduler.satisfies_alone (m := ⟨"final", "MS", 1, ["ann"], ["bob"]⟩) rfl rfl rfl
      all_goals decide
    · unfold RepairProblem.Forbids
      decide +kernel
  · decide +kernel

theorem runRepair_courtCloses (originalSchedule : List Assignment) (policy : CourtPolicy)
    (solver : RepairSolver) (free : List String)
    (slice : (courtCloses originalSchedule policy).slice = .ok (free, [], [1])) :
    ∃ ids, (courtCloses originalSchedule policy).runRepair solver [] =
      .ok (solver (courtRepair originalSchedule policy free), ids) := by
  unfold runRepair sliceFor
  rw [slice]
  exact ⟨_, rfl⟩

end RepairRequest

open RepairRequest

/-- **What a repair promises.** Every surviving match that may not move is in the schedule at its
old slot and court, and where the closed courts are barred to everything that is placed, nothing
that was placed is on one. -/
theorem repair_keeps {solver : RepairSolver} (sound : solver.Sound) (p : RepairProblem)
    (solved : (solver p).Solved) :
    (∀ m ∈ p.surviving, m.id ∉ p.repair.freeMatchIds →
      ∀ ref ∈ p.repair.hintAssignments.get m.id,
        (∃ a ∈ (solver p).assignments, a.matchId = m.id) ∧
          ∀ a ∈ (solver p).assignments, a.matchId = m.id →
            a.slotId = ref.slotId ∧ a.courtId = ref.courtId) ∧
    (p.Barred → ∀ a ∈ (solver p).assignments, p.MayPlace a.matchId →
      a.courtId ∉ p.repair.forbidCourtIds) := by
  have yields := sound.yields p solved
  constructor
  · intro m hm held ref hr
    constructor
    · have has : p.scheduler.games.Has m.id := RepairProblem.has_games.mpr ⟨m, hm, rfl⟩
      rw [Table.Has, ← yields.ids] at has
      exact List.mem_map.mp has
    · rintro a ha e
      rw [← e] at held hr
      exact yields.kept ha held hr
  · intro barred a ha may
    exact yields.barred barred ha may

/-- The match leaves the court that closes; planned on the other court, it stays where it was. -/
theorem pinnedRepair_keeps :
    (pinnedRepair.Barred ∧ ∀ a ∈ [finalOn 2], pinnedRepair.MayPlace a.matchId →
      a.courtId ∉ pinnedRepair.repair.forbidCourtIds) ∧
    (∀ m ∈ pinnedRepair.surviving, m.id ∉ pinnedRepair.repair.freeMatchIds →
      ∀ ref ∈ pinnedRepair.repair.hintAssignments.get m.id,
        (∃ a ∈ [finalOn 2], a.matchId = m.id) ∧ ∀ a ∈ [finalOn 2], a.matchId = m.id →
          a.slotId = ref.slotId ∧ a.courtId = ref.courtId) ∧
    ∃ m ∈ keptRepair.surviving, m.id ∉ keptRepair.repair.freeMatchIds ∧
      ∃ ref ∈ keptRepair.repair.hintAssignments.get m.id,
        (∃ a ∈ [finalOn 2], a.matchId = m.id) ∧ ∀ a ∈ [finalOn 2], a.matchId = m.id →
          a.slotId = ref.slotId ∧ a.courtId = ref.courtId := by
  have answer := RepairSolver.answering_self pinnedRepair [finalOn 2]
  have promise := repair_keeps pinned_answer pinnedRepair (by rw [answer]; exact .inl rfl)
  rw [answer] at promise
  have barred : pinnedRepair.Barred := by
    intro c hc
    refine ⟨.inl (by decide), fun _ m hm _ _ => ?_⟩
    obtain rfl := List.mem_singleton.mp hm
    exact List.mem_singleton.mpr rfl
  have kept := RepairSolver.answering_self keptRepair [finalOn 2]
  have promise' := repair_keeps kept_answer keptRepair (by rw [kept]; exact .inl rfl)
  rw [kept] at promise'
  refine ⟨⟨barred, promise.2 barred⟩, promise.1, _, List.mem_singleton_self _, by decide, finalOn 2,
    rfl, ?_⟩
  exact promise'.1 _ (List.mem_singleton_self _) (by decide) (finalOn 2) rfl

/-- The court that closes is given to the match again: from the pool, or because the match had no
place that could be moved. -/
theorem repair_reuses_court :
    (∃ solver : RepairSolver, solver.Sound ∧ ∃ result ids,
      (courtCloses [finalOn 1] .queue).runRepair solver [] = .ok (result, ids) ∧ result.Solved ∧
        ∃ a ∈ result.assignments, queuedRepair.MayPlace a.matchId ∧
          a.courtId ∈ queuedRepair.repair.forbidCourtIds) ∧
    ∃ solver : RepairSolver, solver.Sound ∧ ∃ result ids,
      (courtCloses [] .pinned).runRepair solver [] = .ok (result, ids) ∧ result.Solved ∧
        ∃ a ∈ result.assignments, unplannedRepair.MayPlace a.matchId ∧
          a.courtId ∈ unplannedRepair.repair.forbidCourtIds := by
  constructor
  · obtain ⟨ids, run⟩ := runRepair_courtCloses [finalOn 1] .queue
      (.answering queuedRepair [finalOn 1]) ["final"] (by decide +kernel)
    refine ⟨_, queued_answer, _, ids, run, ?_⟩
    rw [← queuedRepair, RepairSolver.answering_self]
    exact ⟨.inl rfl, finalOn 1, by simp, ⟨.inl (by decide), by decide⟩, by decide⟩
  · obtain ⟨ids, run⟩ := runRepair_courtCloses [] .pinned
      (.answering unplannedRepair [finalOn 1]) [] (by decide +kernel)
    refine ⟨_, unplanned_answer, _, ids, run, ?_⟩
    rw [← unplannedRepair, RepairSolver.answering_self]
    exact ⟨.inl rfl, finalOn 1, by simp, ⟨.inr (by decide), by decide⟩, by decide⟩

end Engine
