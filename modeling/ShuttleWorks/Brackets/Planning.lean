import ShuttleWorks.Brackets.Placing
import ShuttleWorks.Brackets.Sweep

/-! What the desk does to a scheduled unit: its play is started, finished or taken back, and the
unit is put on a court by hand or taken off. -/

namespace Brackets
open Lib

namespace TournamentState

def Seated (s : TournamentState) (id : PlayUnitId) : Prop :=
  ∃ unit ∈ s.playUnits.get id, unit.sideA ≠ [] ∧ unit.sideB ≠ []

instance (s : TournamentState) (id : PlayUnitId) : Decidable (s.Seated id) :=
  decidable_of_iff ((s.playUnits.get id).any fun unit =>
    unit.sideA ≠ [] ∧ unit.sideB ≠ []) (by simp [Seated, Option.any_eq_true])

def setAssignment (s : TournamentState) (id : PlayUnitId) (a : TournamentAssignment) :
    TournamentState :=
  { s with assignments := Assoc.set id a s.assignments }

end TournamentState

inductive MatchAction
  | start | finish | reset
  deriving DecidableEq, Repr

inductive ActionError
  | noAssignment (id : PlayUnitId)
  | notFound (id : PlayUnitId)
  | unresolved (id : PlayUnitId)
  | hasResult (id : PlayUnitId)
  | courtBusy (courtId : Int) (id : PlayUnitId)
  | notStarted (id : PlayUnitId)
  deriving DecidableEq, Repr

/-- Who plays on the court, other than the unit itself: a match of the operations board, or a unit
whose play was started and not finished. -/
def courtHolder (s : TournamentState) (playing : List (PlayUnitId × Int)) (id : PlayUnitId)
    (courtId : Int) : Option PlayUnitId :=
  ((playing.filter fun p => p.2 = courtId ∧ p.1 ≠ id).map Prod.fst ++
    (s.assignments.filter fun p => p.1 ≠ id ∧ p.2.courtId = courtId ∧
      p.2.actualStartSlot.isSome ∧ p.2.actualEndSlot = none).map Prod.fst).head?

/-- `BracketMatchActionService.apply`; `playing` are the board's matches under way. -/
def matchAction (s : TournamentState) (playing : List (PlayUnitId × Int)) (id : PlayUnitId)
    (action : MatchAction) (slot : Option Int) : Except ActionError TournamentState :=
  match s.assignment id with
  | none => .error (.noAssignment id)
  | some a =>
    match action with
    | .start =>
      if ¬ s.Seated id then .error (.unresolved id)
      else if s.Resulted id then .error (.hasResult id)
      else
        match courtHolder s playing id a.courtId with
        | some other => .error (.courtBusy a.courtId other)
        | none =>
          .ok (s.setAssignment id
            { a with actualStartSlot := some (slot.getD a.slotId), actualEndSlot := none })
    | .finish =>
      if ¬ s.Seated id then .error (.unresolved id)
      else if a.actualStartSlot = none then .error (.notStarted id)
      else
        .ok (s.setAssignment id
          { a with actualEndSlot := some (slot.getD (a.slotId + a.durationSlots)) })
    | .reset =>
      if s.Resulted id then .error (.hasResult id)
      else .ok (s.setAssignment id { a with actualStartSlot := none, actualEndSlot := none })

/-- What an accepted action records of the play. -/
structure Acted (s : TournamentState) (id : PlayUnitId) (action : MatchAction) (slot : Option Int)
    (a a' : TournamentAssignment) : Prop where
  stored : s.assignment id = some a
  place : a'.slotId = a.slotId ∧ a'.courtId = a.courtId ∧ a'.durationSlots = a.durationSlots
  started : action ≠ .reset → a'.actualStartSlot.isSome
  ended : match action with
    | .finish => a'.actualEndSlot = some (slot.getD (a.slotId + a.durationSlots))
    | _ => a'.actualEndSlot = none

theorem matchAction_eq_ok {s s' : TournamentState} {playing : List (PlayUnitId × Int)}
    {id : PlayUnitId} {action : MatchAction} {slot : Option Int}
    (h : matchAction s playing id action slot = .ok s') :
    ∃ a a', Acted s id action slot a a' ∧ s' = s.setAssignment id a' := by
  unfold matchAction at h
  split at h
  · cases h
  next a ha =>
  cases action with
  | start =>
    dsimp only at h
    split_ifs at h with seated resulted
    split at h
    · cases h
    · cases h
      refine ⟨a, _, ?_, rfl⟩
      exact ⟨ha, ⟨rfl, rfl, rfl⟩, fun _ => rfl, rfl⟩
  | finish =>
    dsimp only at h
    split_ifs at h with seated started
    cases h
    refine ⟨a, _, ?_, rfl⟩
    exact ⟨ha, ⟨rfl, rfl, rfl⟩, fun _ => Option.isSome_iff_ne_none.mpr started, rfl⟩
  | reset =>
    dsimp only at h
    split_ifs at h with resulted
    cases h
    refine ⟨a, _, ?_, rfl⟩
    exact ⟨ha, ⟨rfl, rfl, rfl⟩, fun ne => absurd rfl ne, rfl⟩

/-! ## The plan

Waves, candidates, events and re-pins place units while results and recorded times come in; a
match that was over early holds its court and its players no longer than that. -/

open Engine

/-- The candidates `schedule_next_round_stream` offers; nothing is written. -/
def TournamentDriver.streamNextRound (d : TournamentDriver) (solver : Solver) :
    Except BuildError (List (List Assignment)) := do
  match ← d.prepareNextRoundProblem with
  | none => return []
  | some (_, _, request) => return (solver request).candidates

/-- A session under way, the earliest end recorded of every play since its unit was placed, and the
candidates streamed since anything was placed. The last two are kept by nobody. -/
structure Plan where
  driver : TournamentDriver
  draws : List EventId
  freed : PlayUnitId → Option Int := fun _ => none
  offered : List (List Assignment) := []

inductive PlanOp
  | wave (solver : Solver)
  | stream (solver : Solver)
  | commit (cells : List Assignment)
  | generate (solver : Solver) (eventId : EventId) (wipe : Bool)
  | repin (solver : Solver) (id : PlayUnitId) (slotId courtId : Int)
  | record (id : PlayUnitId) (result : Result)
  | start (playing : List (PlayUnitId × Int)) (id : PlayUnitId) (slot : Option Int)
  | finish (playing : List (PlayUnitId × Int)) (id : PlayUnitId) (slot : Option Int)

namespace Plan

variable (p : Plan)

def state : TournamentState := p.driver.state

def live (s : TournamentState) : Plan := { p with driver := { p.driver with state := s } }

def placed (s : TournamentState) : Plan := { p.live s with offered := [] }

def earliest (before : Option Int) (recorded : Int) : Int :=
  match before with
  | none => recorded
  | some first => min first recorded

def Dropped (eventId : EventId) (wipe : Bool) (id : PlayUnitId) : Prop :=
  wipe = true ∧ id ∈ (p.state.eventUnits eventId).map PlayUnit.id

instance (eventId : EventId) (wipe : Bool) (id : PlayUnitId) : Decidable (p.Dropped eventId wipe id) :=
  inferInstanceAs (Decidable (_ ∧ _))

def apply : PlanOp → Option Plan
  | .wave solver => (p.driver.scheduleNextRound solver).toOption.map fun r => p.placed r.2
  | .stream solver => (p.driver.streamNextRound solver).toOption.map fun candidates =>
      { p with offered := p.offered ++ candidates }
  | .commit cells => (commitNextRound p.state cells).toOption.map p.placed
  | .generate solver eventId wipe =>
    (p.driver.generateEvent solver eventId wipe).toOption.map fun r =>
      { p.placed r.2 with freed := fun id => if p.Dropped eventId wipe id then none else p.freed id }
  | .repin solver id slotId courtId =>
    (p.driver.repinAndResolve solver id slotId courtId).toOption.map fun r => p.placed r.2
  | .record id result => (recordResult p.state p.draws id result).toOption.map fun r => p.live r.1
  | .start playing id slot => (matchAction p.state playing id .start slot).toOption.map p.live
  | .finish playing id slot => (matchAction p.state playing id .finish slot).toOption.map fun s =>
      { p.live s with
        freed := Function.update p.freed id
          (((s.assignment id).bind TournamentAssignment.actualEndSlot).map (earliest (p.freed id))) }

/-! ## The timetables -/

def holdsUntil (id : PlayUnitId) (a : TournamentAssignment) : Int :=
  match p.freed id with
  | none => a.span.stop
  | some first => min first a.span.stop

def timetable : Timetable PlayUnitId Int := fun id =>
  (p.state.assignment id).map fun a => ⟨a.courtId, a.slotId, p.holdsUntil id a⟩

def planned : Timetable PlayUnitId Int := fun id =>
  (p.state.assignment id).map fun a => ⟨a.courtId, a.span⟩

/-- Somebody plays in both units. -/
def Shares (u v : PlayUnitId) : Prop := ∃ unit ∈ p.state.playUnits.get u,
  ∃ other ∈ p.state.playUnits.get v, ∃ pid, pid ∈ unit.players p.driver.participants ∧
    pid ∈ other.players p.driver.participants

def Needs (u d : PlayUnitId) : Prop := ∃ unit ∈ p.state.playUnits.get u, d ∈ unit.dependencies

/-! ## Runs -/

def InDay : Prop := p.state.findReadyPlayUnits ≠ [] →
  0 ≤ p.driver.currentSlot ∧ p.driver.currentSlot < p.driver.config.totalSlots

def Careful : PlanOp → Prop
  | .wave _ => p.InDay
  | .stream _ => p.InDay
  | .commit cells => cells ∈ p.offered
  | .generate _ eventId wipe => ∀ unit ∈ p.state.eventUnits eventId,
      ¬ (p.driver.wiped eventId wipe).Assigned unit.id
  | _ => True

def KeepsOrder : PlanOp → Prop
  | .generate _ eventId wipe =>
    ∀ id ∈ TournamentDriver.readyUnits (p.driver.wiped eventId wipe) eventId,
      ¬ p.state.Resulted id ∧ ∀ d, p.Needs id d → ¬ (p.driver.wiped eventId wipe).Assigned d
  | .repin _ _ _ _ => ∀ id, ∀ a ∈ p.state.assignment id,
      ¬ p.state.Locked id a p.driver.config.currentSlot → ∀ d, p.Needs id d → ¬ p.state.Assigned d
  | _ => True

end Plan

def PlanOp.Sound : PlanOp → Prop
  | .wave solver => solver.Sound
  | .stream solver => solver.Sound
  | .generate solver _ _ => solver.Sound
  | .repin solver _ _ _ => solver.Sound
  | _ => True

def Plan.Fresh (p : Plan) : Prop := p.state.assignments = [] ∧ (∀ id, p.freed id = none) ∧ p.offered = []

def Plan.Reached (allowed : Plan → PlanOp → Prop) : Plan → Prop :=
  Reachable Plan.Fresh fun p op p' => op.Sound ∧ allowed p op ∧ p.apply op = some p'

end Brackets
