import Mathlib.Data.PNat.Basic
import ShuttleWorks.Brackets.Driver

/-! The engine configuration of a workspace. The meet's day is turned into slots, breaks and
closures; a bracket takes the same configuration, with its own slot axis and with the courts
the meet occupies in place of the closures. -/

namespace Brackets
open Lib Engine

/-- A time of day, `HH:mm`. -/
structure HHMMTime where
  hours : Fin 24
  minutes : Fin 60
  deriving DecidableEq, Repr

def timeToMinutes (time : HHMMTime) : Nat := time.hours * 60 + time.minutes

/-- `_time_to_slot`; a time before the start of the day is on the next day. -/
def timeToSlot (time dayStart : HHMMTime) (intervalMinutes : ℕ+) : Nat :=
  let minutes :=
    if timeToMinutes time < timeToMinutes dayStart then timeToMinutes time + 24 * 60
    else timeToMinutes time
  (minutes - timeToMinutes dayStart) / intervalMinutes

structure BreakWindow where
  start : HHMMTime
  «end» : HHMMTime
  deriving DecidableEq, Repr

/-- A closure; a bound that is left out is the start or the end of the day. -/
structure CourtClosure where
  courtId : Int
  fromTime : Option HHMMTime := none
  toTime : Option HHMMTime := none
  deriving DecidableEq, Repr

/-- The tournament configuration, as far as it decides which schedules are allowed. -/
structure TournamentConfig where
  intervalMinutes : ℕ+
  dayStart : HHMMTime
  dayEnd : HHMMTime
  breaks : List BreakWindow := []
  courtCount : ℕ+
  defaultRestMinutes : Nat
  freezeHorizonSlots : Nat
  enableGameProximity : Option Bool := some false
  minGameSpacingSlots : Option Nat := none
  maxGameSpacingSlots : Option Nat := none
  allowPlayerOverlap : Option Bool := some false
  courtPolicy : Option CourtPolicy := none
  courtOverrides : Option (List (Int × CourtOverride)) := none
  closedCourts : List Int := []
  courtClosures : List CourtClosure := []
  deriving DecidableEq, Repr

namespace TournamentConfig

variable (config : TournamentConfig)

def slotOf (time : HHMMTime) : Int := timeToSlot time config.dayStart config.intervalMinutes

def daySlots : Int :=
  let last := timeToMinutes config.dayEnd
  let last := if last ≤ timeToMinutes config.dayStart then last + 24 * 60 else last
  ((last - timeToMinutes config.dayStart) / config.intervalMinutes : Nat)

def hasCourt (c : Int) : Prop := 1 ≤ c ∧ c ≤ (config.courtCount : Nat)

instance (c : Int) : Decidable (config.hasCourt c) := inferInstanceAs (Decidable (_ ∧ _))

/-- The window of a time-bounded closure, clamped to the day. -/
def closureWindow (totalSlots : Int) (closure : CourtClosure) : Int × Int × Int :=
  let clamp (t : Int) := max 0 (min t totalSlots)
  (closure.courtId, clamp ((closure.fromTime.map config.slotOf).getD 0),
    clamp ((closure.toTime.map config.slotOf).getD totalSlots))

def buildClosedCourtWindows (totalSlots : Int) : List (Int × Int × Int) :=
  ((config.closedCourts.filter fun c => config.hasCourt c ∧ 0 < totalSlots).map
    fun c => (c, 0, totalSlots)) ++
  ((config.courtClosures.filter fun closure => config.hasCourt closure.courtId).map
    (config.closureWindow totalSlots)).filter fun w => w.2.1 < w.2.2

def breakSlots : List (Int × Int) :=
  (config.breaks.map fun b => (config.slotOf b.start, config.slotOf b.end)).filter
    fun w => w.1 < w.2

/-- `schedule_config_from_dto`. -/
def scheduleConfig : ScheduleConfig where
  totalSlots := config.daySlots
  courtCount := (config.courtCount : Nat)
  defaultRestSlots := (config.defaultRestMinutes / config.intervalMinutes : Nat)
  freezeHorizonSlots := config.freezeHorizonSlots
  currentSlot := 0
  breakSlots := config.breakSlots
  closedCourtIds := config.closedCourts.filter fun c => config.hasCourt c
  closedCourtWindows := config.buildClosedCourtWindows config.daySlots
  courtPolicy := config.courtPolicy.getD .pinned
  courtOverrides := config.courtOverrides.getD []
  softRestEnabled := false
  enableGameProximity := config.enableGameProximity.getD false
  minGameSpacingSlots := config.minGameSpacingSlots.map fun (n : Nat) => (n : Int)
  maxGameSpacingSlots := config.maxGameSpacingSlots.map fun (n : Nat) => (n : Int)
  allowPlayerOverlap := config.allowPlayerOverlap.getD false

def scheduleConfigForBracket (courtCount totalSlots : Int)
    (closedCourtWindows : List (Int × Int × Int)) : ScheduleConfig :=
  { config.scheduleConfig with
    courtCount, totalSlots, closedCourtWindows
    closedCourtIds := []
    currentSlot := 0 }

end TournamentConfig

/-! ## The stored document -/

/-- The stored configuration; what is left out takes its default. -/
structure StoredConfig where
  intervalMinutes : Option ℕ+ := none
  dayStart : Option HHMMTime := none
  dayEnd : Option HHMMTime := none
  breaks : Option (List BreakWindow) := none
  courtCount : Option ℕ+ := none
  defaultRestMinutes : Option Nat := none
  freezeHorizonSlots : Option Nat := none
  enableGameProximity : Option Bool := none
  minGameSpacingSlots : Option Nat := none
  maxGameSpacingSlots : Option Nat := none
  allowPlayerOverlap : Option Bool := none
  courtPolicy : Option CourtPolicy := none
  courtOverrides : Option (List (Int × CourtOverride)) := none
  closedCourts : Option (List Int) := none
  courtClosures : Option (List CourtClosure) := none
  deriving DecidableEq, Repr

/-- The stored bracket session, but for its assignments. -/
structure BracketBlob where
  courts : Option ℕ+ := none
  totalSlots : Option Int := none
  intervalMinutes : Option ℕ+ := none
  deriving DecidableEq, Repr

/-- An assignment of the stored meet schedule. -/
structure MeetAssignment where
  courtId : Option Int
  slotId : Option Int
  durationSlots : Option Int := none
  deriving DecidableEq, Repr

/-- A workspace document: the configuration, the bracket session and the meet schedule. -/
structure Workspace where
  config : StoredConfig := {}
  bracketSession : BracketBlob := {}
  schedule : List MeetAssignment := []
  deriving DecidableEq, Repr

def pick {α : Type} (camel legacy : Option α) (default : α) : α := camel.getD (legacy.getD default)

/-- `durationSlots or 1`. -/
def MeetAssignment.duration (a : MeetAssignment) : Int :=
  match a.durationSlots with
  | none => 1
  | some 0 => 1
  | some d => d

def meetOccupiedWindows (schedule : List MeetAssignment) (courtCount : Int) :
    List (Int × Int × Int) :=
  schedule.filterMap fun a =>
    match a.courtId, a.slotId with
    | some c, some s =>
      if 1 ≤ c ∧ c ≤ courtCount ∧ 0 < a.duration then some (c, s, s + a.duration) else none
    | _, _ => none

namespace Workspace

variable (doc : Workspace)

def courtCount : ℕ+ := pick doc.config.courtCount doc.bracketSession.courts 2

def intervalMinutes : ℕ+ := pick doc.config.intervalMinutes doc.bracketSession.intervalMinutes 30

def totalSlots : Int := doc.bracketSession.totalSlots.getD 128

/-- The stored configuration on the defaults of `_hydrated_session_config`. -/
def tournamentConfig : TournamentConfig where
  intervalMinutes := doc.intervalMinutes
  dayStart := doc.config.dayStart.getD ⟨9, 0⟩
  dayEnd := doc.config.dayEnd.getD ⟨18, 0⟩
  breaks := doc.config.breaks.getD []
  courtCount := doc.courtCount
  defaultRestMinutes := doc.config.defaultRestMinutes.getD 0
  freezeHorizonSlots := doc.config.freezeHorizonSlots.getD 0
  enableGameProximity := some (doc.config.enableGameProximity.getD false)
  minGameSpacingSlots := doc.config.minGameSpacingSlots
  maxGameSpacingSlots := doc.config.maxGameSpacingSlots
  allowPlayerOverlap := some (doc.config.allowPlayerOverlap.getD false)
  courtPolicy := doc.config.courtPolicy
  courtOverrides := doc.config.courtOverrides
  closedCourts := doc.config.closedCourts.getD []
  courtClosures := doc.config.courtClosures.getD []

/-- The engine configuration of `_hydrated_session_config`. -/
def sessionConfig : ScheduleConfig :=
  doc.tournamentConfig.scheduleConfigForBracket (doc.courtCount : Nat) doc.totalSlots
    (meetOccupiedWindows doc.schedule (doc.courtCount : Nat))

end Workspace

end Brackets
