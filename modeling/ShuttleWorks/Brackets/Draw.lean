import ShuttleWorks.Lib.Json
import ShuttleWorks.Lib.Table

/-! Draws: the play units of an event with their two bracket slots, the rounds
they are scheduled in and the segments they are shown in. A slot is a
participant or an outcome of a feeder unit, never both and never neither. -/

namespace Brackets
open Lib

abbrev PlayUnitId := String
abbrev EventId := String
abbrev ParticipantId := String

/-- A side as the ids on it; the absent side (`None`) is the empty list. -/
abbrev Side := List ParticipantId

def BYE : ParticipantId := "__BYE__"

inductive ParticipantType
  | player | team
  deriving DecidableEq, Repr

structure Participant where
  id : ParticipantId
  name : String
  type : ParticipantType := .player
  memberIds : List ParticipantId := []
  seed : Option Int := none
  deriving DecidableEq, Repr

/-- Which participant of its feeder fills a slot. -/
inductive FeederTake
  | winner | loser
  deriving DecidableEq, Repr

/-- One side of a play unit. -/
inductive BracketSlot
  | participant (participantId : ParticipantId)
  | feeder (feederPlayUnitId : PlayUnitId) (feederTake : FeederTake)
  deriving DecidableEq, Repr

namespace BracketSlot

def feederPlayUnitId : BracketSlot → Option PlayUnitId
  | .participant _ => none
  | .feeder id _ => some id

/-- The slot takes an outcome of the unit `id`. -/
def FedBy (id : PlayUnitId) (slot : BracketSlot) : Prop := slot.feederPlayUnitId = some id

instance (id : PlayUnitId) (slot : BracketSlot) : Decidable (slot.FedBy id) :=
  inferInstanceAs (Decidable (_ = _))

@[simp] theorem fedBy_participant (id : PlayUnitId) (p : ParticipantId) :
    ¬ (participant p).FedBy id := by
  simp [FedBy, feederPlayUnitId]

@[simp] theorem fedBy_feeder (id f : PlayUnitId) (take : FeederTake) :
    (feeder f take).FedBy id ↔ f = id := by
  simp [FedBy, feederPlayUnitId]

def refreshSide (side : Side) : BracketSlot → Side
  | .participant p => if p = BYE then [] else [p]
  | .feeder _ _ => side

end BracketSlot

inductive PlayUnitKind
  | match | tie | block
  deriving DecidableEq, Repr

/-- A unit's metadata; a key the unit does not carry is at the default its readers use. -/
structure Metadata where
  segment : Option String := none
  segmentOrder : Nat := 0
  round : Nat := 0
  matchIndex : Nat := 0
  positions : Option (Nat × Nat) := none
  conditional : Bool := false
  cycle : Option Nat := none
  extra : List (String × String) := []
  deriving DecidableEq, Repr

/-- A play unit together with its slots of the draw. -/
structure PlayUnit where
  id : PlayUnitId
  eventId : EventId
  sideA : Side := []
  sideB : Side := []
  slotA : BracketSlot
  slotB : BracketSlot
  expectedDurationSlots : Int := 1
  durationVarianceSlots : Nat := 0
  dependencies : List PlayUnitId := []
  metadata : Metadata := {}
  kind : PlayUnitKind := .match
  childUnitIds : List PlayUnitId := []
  deriving DecidableEq, Repr

abbrev PlayUnits := Table PlayUnit.id
abbrev Participants := Table Participant.id

namespace PlayUnit

/-- The two slots of a unit. -/
inductive Place
  | A | B
  deriving DecidableEq, Repr

def slot (unit : PlayUnit) : Place → BracketSlot
  | .A => unit.slotA
  | .B => unit.slotB

def side (unit : PlayUnit) : Place → Side
  | .A => unit.sideA
  | .B => unit.sideB

end PlayUnit

/-- One named sub-bracket with its own rounds. -/
structure DrawSegment where
  id : String
  label : String
  order : Nat
  rounds : List (List PlayUnitId)
  positions : Option (Nat × Nat) := none
  deriving DecidableEq, Repr

structure Event where
  id : EventId
  typeTags : List String := []
  formatPluginName : String := ""
  parameters : JsonObject := []
  deriving DecidableEq

structure Draw where
  event : Event
  participants : Participants
  playUnits : PlayUnits
  rounds : List (List PlayUnitId) := []
  segments : Option (List DrawSegment) := none

/-! ## Outcomes -/

inductive WinnerSide
  | A | B | NONE
  deriving DecidableEq, Repr

structure Result where
  winnerSide : WinnerSide := .NONE
  score : Option JsonObject := none
  finishedAtSlot : Option Int := none
  walkover : Bool := false
  reason : Option String := none
  deriving DecidableEq

structure TournamentAssignment where
  slotId : Int
  courtId : Int
  durationSlots : Nat := 1
  actualStartSlot : Option Int := none
  actualEndSlot : Option Int := none
  deriving DecidableEq, Repr

namespace PlayUnit

def winnerParticipantId (unit : PlayUnit) : WinnerSide → Option ParticipantId
  | .A => unit.sideA.head?
  | .B => unit.sideB.head?
  | .NONE => none

end PlayUnit

/-- A walkover has no real loser, and one who retired or forfeited may not play on. -/
def loserCannotContinue (walkover : Bool) (reason : Option String) : Bool :=
  walkover || reason == some "retired" || reason == some "forfeit"

namespace PlayUnit

def loserParticipantId (unit : PlayUnit) (result : Result) : Option ParticipantId :=
  if loserCannotContinue result.walkover result.reason then none
  else match result.winnerSide with
    | .A => unit.sideB.head?
    | .B => unit.sideA.head?
    | .NONE => none

def fed (unit : PlayUnit) (result : Result) : FeederTake → Option ParticipantId
  | .winner => unit.winnerParticipantId result.winnerSide
  | .loser => unit.loserParticipantId result

end PlayUnit

/-- `fed or BYE`: no participant, or one with the empty id, leaves a bye. -/
def orBye : Option ParticipantId → ParticipantId
  | none => BYE
  | some p => if p = "" then BYE else p

end Brackets
