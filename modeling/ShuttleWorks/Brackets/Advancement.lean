import ShuttleWorks.Brackets.Draw

/-! Recording results. A result is stored, the winner and the loser go to the
slots that wait for them, and a sweep walks over every unit that is left with an
empty side, pass after pass until one changes nothing. -/

namespace Brackets
open Lib

/-- The play units of every registered draw, what they ended in and where they are planned. -/
structure TournamentState where
  playUnits : PlayUnits := Table.empty
  results : List (PlayUnitId × Result) := []
  assignments : List (PlayUnitId × TournamentAssignment) := []
  deriving DecidableEq

namespace TournamentState

def result (s : TournamentState) (id : PlayUnitId) : Option Result := Assoc.get id s.results

def Resulted (s : TournamentState) (id : PlayUnitId) : Prop := (s.result id).isSome

instance (s : TournamentState) (id : PlayUnitId) : Decidable (s.Resulted id) :=
  inferInstanceAs (Decidable (_ = true))

end TournamentState

/-! ## Propagation -/

/-- A slot that waits for the recorded unit gets the participant it feeds. -/
def resolveSlot (recorded : PlayUnit) (result : Result) : BracketSlot → BracketSlot
  | .participant p => .participant p
  | .feeder id take =>
    if id = recorded.id then .participant (orBye (recorded.fed result take)) else .feeder id take

def refreshPlayUnitSides (unit : PlayUnit) : PlayUnit :=
  { unit with
    sideA := unit.slotA.refreshSide unit.sideA
    sideB := unit.slotB.refreshSide unit.sideB }

/-- The downstream unit of the same draw has a slot that waits for the recorded one. -/
def Receives (recorded downstream : PlayUnit) : Prop :=
  downstream.eventId = recorded.eventId ∧ recorded.id ∈ downstream.dependencies ∧
    (downstream.slotA.FedBy recorded.id ∨ downstream.slotB.FedBy recorded.id)

instance (recorded downstream : PlayUnit) : Decidable (Receives recorded downstream) :=
  inferInstanceAs (Decidable (_ ∧ _))

def receive (recorded : PlayUnit) (result : Result) (downstream : PlayUnit) : PlayUnit :=
  if Receives recorded downstream then
    refreshPlayUnitSides
      { downstream with
        slotA := resolveSlot recorded result downstream.slotA
        slotB := resolveSlot recorded result downstream.slotB }
  else downstream

@[simp] theorem receive_id (recorded : PlayUnit) (result : Result) (unit : PlayUnit) :
    (receive recorded result unit).id = unit.id := by
  unfold receive
  split <;> rfl

/-- `_record_and_propagate`: the state after it and the downstream units it resolved. -/
def recordAndPropagate (s : TournamentState) (recorded : PlayUnit) (result : Result) :
    TournamentState × List PlayUnitId :=
  ({ s with
      playUnits := s.playUnits.update (receive recorded result) (receive_id recorded result)
      results := Assoc.set recorded.id result s.results },
    (s.playUnits.rows.filter (fun unit => Receives recorded unit)).map PlayUnit.id)

/-! ## The sweep -/

/-- The side that wins by walkover, when some side is empty. -/
def walkoverSide (unit : PlayUnit) : Option WinnerSide :=
  match unit.sideA.isEmpty, unit.sideB.isEmpty with
  | true, true => some .NONE
  | true, false => some .B
  | false, true => some .A
  | false, false => none

def walkover (winnerSide : WinnerSide) : Result := { winnerSide, walkover := true }

/-- The unit a pass of the sweep walks over when it comes to `id`, and the side that wins. -/
def dueWalkover (s : TournamentState) (draws : List EventId) (id : PlayUnitId) :
    Option (PlayUnit × WinnerSide) :=
  match s.playUnits.get id with
  | none => none
  | some unit =>
    if s.Resulted id then none
    else if ∃ d ∈ unit.dependencies, ¬ s.Resulted d then none
    else if unit.eventId ∉ draws then none
    else (walkoverSide unit).map (unit, ·)

/-- What a pass carries: the state, the units it changed and whether it recorded anything. -/
structure Sweep where
  state : TournamentState
  touched : List PlayUnitId := []
  changed : Bool := false

def sweepUnit (draws : List EventId) (w : Sweep) (id : PlayUnitId) : Sweep :=
  match dueWalkover w.state draws id with
  | none => w
  | some (unit, side) =>
    let (state, downstream) := recordAndPropagate w.state unit (walkover side)
    { state, touched := w.touched ++ id :: downstream, changed := true }

def sweepPass (draws : List EventId) (s : TournamentState) : Sweep :=
  (s.playUnits.rows.map PlayUnit.id).foldl (sweepUnit draws) { state := s }

/-- `_sweep_walkovers` with a bound on the passes; `none` when the bound is too small. -/
def sweepWalkovers (draws : List EventId) :
    Nat → TournamentState → Option (TournamentState × List PlayUnitId)
  | 0, _ => none
  | passes + 1, s =>
    let w := sweepPass draws s
    if w.changed then
      (sweepWalkovers draws passes w.state).map fun (s', touched) => (s', w.touched ++ touched)
    else some (w.state, w.touched)

/-! ## Recording -/

inductive AdvanceError
  | unknownPlayUnit (id : PlayUnitId)
  | noDrawRegistered (eventId : EventId)
  | alreadyHasResult (id : PlayUnitId)
  | sideIsEmpty (id : PlayUnitId) (side : WinnerSide)
  | alreadyInState (id : PlayUnitId)
  | noRounds
  | sweepUnfinished
  deriving DecidableEq, Repr

/-- `seen`, then every id of the sweep that is not yet among them. -/
def dedupe (resolved swept : List PlayUnitId) : List PlayUnitId :=
  swept.foldl (fun affected id => if id ∈ affected then affected else affected ++ [id]) resolved

/-- `record_result`: the state after it and every unit it changed besides the recorded one. -/
def recordResult (s : TournamentState) (draws : List EventId) (id : PlayUnitId)
    (result : Result) : Except AdvanceError (TournamentState × List PlayUnitId) :=
  match s.playUnits.get id with
  | none => .error (.unknownPlayUnit id)
  | some unit =>
    if unit.eventId ∉ draws then .error (.noDrawRegistered unit.eventId)
    else if s.Resulted id then .error (.alreadyHasResult id)
    else if result.winnerSide = .A ∧ unit.sideA = [] then .error (.sideIsEmpty id .A)
    else if result.winnerSide = .B ∧ unit.sideB = [] then .error (.sideIsEmpty id .B)
    else
      let (s', resolved) := recordAndPropagate s unit result
      -- no pass but the last leaves every unit as it was, so this bound is never met
      match sweepWalkovers draws (s.playUnits.rows.length + 1) s' with
      | none => .error .sweepUnfinished
      | some (s'', swept) => .ok (s'', dedupe resolved swept)

/-- `auto_walkover_byes`, for one unit of round 0. -/
def autoWalkover (eventId : EventId) (s : TournamentState) (id : PlayUnitId) :
    Except AdvanceError TournamentState :=
  if s.Resulted id then .ok s
  else
    match s.playUnits.get id with
    | none => .error (.unknownPlayUnit id)
    | some unit =>
      match walkoverSide unit with
      | none => .ok s
      | some side => (recordResult s [eventId] id (walkover side)).map Prod.fst

def autoWalkoverByes (s : TournamentState) (draw : Draw) : Except AdvanceError TournamentState :=
  match draw.rounds with
  | [] => .error .noRounds
  | round :: _ => round.foldlM (autoWalkover draw.event.id) s

/-! ## Registration -/

def insertPlayUnit (s : TournamentState) (unit : PlayUnit) : Except AdvanceError TournamentState :=
  match s.playUnits.insert unit with
  | none => .error (.alreadyInState unit.id)
  | some playUnits => .ok { s with playUnits }

def registerDraw (s : TournamentState) (draw : Draw) : Except AdvanceError TournamentState := do
  let s ← draw.playUnits.rows.foldlM insertPlayUnit s
  autoWalkoverByes s draw

def findReadyPlayUnits (s : TournamentState) : List PlayUnitId :=
  (s.playUnits.rows.filter fun unit =>
    ¬ s.Resulted unit.id ∧ (Assoc.get unit.id s.assignments).isNone ∧
      unit.sideA ≠ [] ∧ unit.sideB ≠ [] ∧ ∀ d ∈ unit.dependencies, s.Resulted d).map PlayUnit.id

/-! ## Reconciliation -/

def fillSlot (recorded : PlayUnit) (result : Result) (side : Side) (slot : BracketSlot) :
    BracketSlot :=
  if side = [] then resolveSlot recorded result slot else slot

/-- The downstream unit has an empty side whose slot waits for the recorded unit. -/
def Awaits (recorded downstream : PlayUnit) : Prop :=
  downstream.eventId = recorded.eventId ∧ recorded.id ∈ downstream.dependencies ∧
    ((downstream.slotA.FedBy recorded.id ∧ downstream.sideA = []) ∨
      (downstream.slotB.FedBy recorded.id ∧ downstream.sideB = []))

instance (recorded downstream : PlayUnit) : Decidable (Awaits recorded downstream) :=
  inferInstanceAs (Decidable (_ ∧ _))

def fill (recorded : PlayUnit) (result : Result) (downstream : PlayUnit) : PlayUnit :=
  if Awaits recorded downstream then
    refreshPlayUnitSides
      { downstream with
        slotA := fillSlot recorded result downstream.sideA downstream.slotA
        slotB := fillSlot recorded result downstream.sideB downstream.slotB }
  else downstream

@[simp] theorem fill_id (recorded : PlayUnit) (result : Result) (unit : PlayUnit) :
    (fill recorded result unit).id = unit.id := by
  unfold fill
  split <;> rfl

/-- `_propagate_recorded_result_into_empty_slots`. -/
def propagateIntoEmptySlots (playUnits : PlayUnits) (recorded : PlayUnit) (result : Result) :
    PlayUnits × List PlayUnitId :=
  (playUnits.update (fill recorded result) (fill_id recorded result),
    (playUnits.rows.filter (fun unit => Awaits recorded unit)).map PlayUnit.id)

/-- The recorded winner's side is empty: the row is left to the guard that reports it. -/
def Unrecoverable (unit : PlayUnit) (result : Result) : Prop :=
  (result.winnerSide = .A ∧ unit.sideA = []) ∨ (result.winnerSide = .B ∧ unit.sideB = [])

instance (unit : PlayUnit) (result : Result) : Decidable (Unrecoverable unit result) :=
  inferInstanceAs (Decidable (_ ∨ _))

/-- One unit of a round in `reconcile_recorded_results`; a draw holds the units of its rounds. -/
def reconcileUnit (w : TournamentState × List PlayUnitId) (id : PlayUnitId) :
    TournamentState × List PlayUnitId :=
  match w.1.result id, w.1.playUnits.get id with
  | some result, some unit =>
    if Unrecoverable unit result then w
    else
      let (playUnits, changed) := propagateIntoEmptySlots w.1.playUnits unit result
      ({ w.1 with playUnits }, dedupe w.2 changed)
  | _, _ => w

/-- `reconcile_recorded_results` over the rounds of every draw, draw after draw. -/
def reconcileRecordedResults (s : TournamentState) (draws : List (List (List PlayUnitId))) :
    TournamentState × List PlayUnitId :=
  draws.foldl (fun w rounds => rounds.foldl (fun w round => round.foldl reconcileUnit w) w) (s, [])

end Brackets
