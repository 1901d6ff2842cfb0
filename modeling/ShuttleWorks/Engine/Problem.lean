import Mathlib.Data.List.Dedup
import Mathlib.Data.String.Basic
import ShuttleWorks.Lib.Assoc
import ShuttleWorks.Lib.Span
import ShuttleWorks.Lib.Table

/-! What the scheduling engine is asked: matches with the players on their two sides,
the players' availability and rest, the matches that must stay, and the courts and slots
of the day. Of the configuration only what decides which schedules are allowed is kept. -/

namespace Engine
open Lib

structure Player where
  id : String
  name : String
  availability : List (Int × Int) := []
  restSlots : Int := 1
  restIsHard : Bool := true
  deriving DecidableEq, Repr

structure Match where
  id : String
  eventCode : String
  durationSlots : Nat := 1
  sideA : List String := []
  sideB : List String := []
  deriving DecidableEq, Repr

/-- `get_player_ids`: everybody on a side, once each, in order. -/
def Match.playerIds (m : Match) : List String :=
  (m.sideA ++ m.sideB).dedup.insertionSort (· ≤ ·)

@[simp] theorem Match.mem_playerIds {m : Match} {id : String} :
    id ∈ m.playerIds ↔ id ∈ m.sideA ∨ id ∈ m.sideB := by
  rw [Match.playerIds, (List.perm_insertionSort _ _).mem_iff, List.mem_dedup, List.mem_append]

/-- A match that has a place already: one that may not move, one that is dragged to a new
place, or a hint. -/
structure PreviousAssignment where
  matchId : String
  slotId : Int
  courtId : Int
  locked : Bool := false
  pinnedSlotId : Option Int := none
  pinnedCourtId : Option Int := none
  deriving DecidableEq, Repr

/-- A match that is under way, or was, and must not move. -/
structure LockedAssignment where
  matchId : String
  courtId : Int
  timeSlot : Int
  deriving DecidableEq, Repr

inductive CourtPolicy
  | pinned | queue
  deriving DecidableEq, Repr

inductive CourtOverride
  | pinned | pool
  deriving DecidableEq, Repr

structure ScheduleConfig where
  totalSlots : Int
  courtCount : Int
  defaultRestSlots : Int := 1
  freezeHorizonSlots : Int := 0
  currentSlot : Int := 0
  softRestEnabled : Bool := false
  enableGameProximity : Bool := false
  minGameSpacingSlots : Option Int := none
  maxGameSpacingSlots : Option Int := none
  allowPlayerOverlap : Bool := false
  breakSlots : List (Int × Int) := []
  closedCourtWindows : List (Int × Int × Int) := []
  closedCourtIds : List Int := []
  courtPolicy : CourtPolicy := .pinned
  courtOverrides : List (Int × CourtOverride) := []
  deriving DecidableEq, Repr

structure ScheduleRequest where
  config : ScheduleConfig
  players : List Player
  games : List Match
  previousAssignments : List PreviousAssignment := []
  lockedAssignments : List LockedAssignment := []
  deriving DecidableEq, Repr

/-- A place the engine gives a match. -/
structure Assignment where
  matchId : String
  slotId : Int
  courtId : Int
  durationSlots : Nat
  deriving DecidableEq, Repr

inductive SolverStatus
  | optimal | feasible | infeasible | unknown | modelInvalid
  deriving DecidableEq, Repr

structure ScheduleResult where
  status : SolverStatus
  assignments : List Assignment := []
  infeasibleReasons : List String := []
  candidates : List (List Assignment) := []
  deriving DecidableEq, Repr

def Assignment.span (a : Assignment) : Span := ⟨a.slotId, a.slotId + a.durationSlots⟩

/-! ## The scheduler's tables -/

/-- The request as the scheduler keeps it: tables in id order, in which a later entry
replaces an earlier one with its id. -/
structure Scheduler where
  config : ScheduleConfig
  players : Table Player.id
  games : Table Match.id
  previousAssignments : Table PreviousAssignment.matchId
  lockedAssignments : List LockedAssignment := []

namespace ScheduleRequest

def scheduler (request : ScheduleRequest) : Scheduler where
  config := request.config
  players := Table.ofRows (request.players.insertionSort fun p q => p.id ≤ q.id)
  games := Table.ofRows (request.games.insertionSort fun m n => m.id ≤ n.id)
  previousAssignments := Table.ofRows request.previousAssignments
  lockedAssignments := request.lockedAssignments

end ScheduleRequest

namespace Scheduler

/-- `locked_matches`: what either of the two kinds of lock fixes, in a request that gives each match
one previous assignment. -/
def lockedMatches (s : Scheduler) : List String :=
  (s.previousAssignments.rows.filter PreviousAssignment.locked).map PreviousAssignment.matchId ++
    s.lockedAssignments.map LockedAssignment.matchId

def courts (s : Scheduler) : List Int :=
  (List.range s.config.courtCount.toNat).map fun (i : Nat) => (i : Int) + 1

theorem mem_courts {s : Scheduler} {c : Int} :
    c ∈ s.courts ↔ 1 ≤ c ∧ c ≤ s.config.courtCount := by
  simp only [courts, List.mem_map, List.mem_range]
  constructor
  · rintro ⟨i, hi, rfl⟩
    omega
  · rintro ⟨lower, upper⟩
    exact ⟨(c - 1).toNat, by omega, by omega⟩

theorem courts_nodup (s : Scheduler) : s.courts.Nodup :=
  List.nodup_range.map fun i j (h : (i : Int) + 1 = j + 1) => by omega

/-- The windows a court is closed in, the ones of whole days among them; what is outside
the courts or empty is left out. -/
def closureWindows (s : Scheduler) : List (Int × Int × Int) :=
  let allDay := (s.config.closedCourtIds.filter fun c => 1 ≤ c ∧ c ≤ s.config.courtCount).map
    fun c => (c, 0, s.config.totalSlots)
  (s.config.closedCourtWindows ++ allDay).filter fun w =>
    1 ≤ w.1 ∧ w.1 ≤ s.config.courtCount ∧ w.2.1 < w.2.2

end Scheduler

end Engine
