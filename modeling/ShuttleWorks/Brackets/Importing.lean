import ShuttleWorks.Brackets.Formats.Rounds
import ShuttleWorks.Brackets.Rows
import ShuttleWorks.Engine.Problem

/-! Importing a draw that was paired elsewhere. Round 0 names its sides, a later round
names the units whose winners it takes; a record of completed matches names both. The draws
are registered, the imported results stored and their winners carried forward. -/

namespace Brackets
open Lib

inductive ImportError
  | noEvents
  | duplicateRosterPlayer (id : ParticipantId)
  | duplicateEvent (id : EventId)
  | duplicatedAcrossEvents (id : PlayUnitId)
  | conflictingParticipant (id : ParticipantId)
  | noRounds (event : EventId)
  | duplicateParticipant (event : EventId) (id : ParticipantId)
  | unknownRosterPlayers (event : EventId) (id : ParticipantId) (missing : List ParticipantId)
  | labelsPerRound (event : EventId)
  | codesPerRound (event : EventId)
  | topologyWithoutCodes (event : EventId)
  | repeatedCodes (event : EventId)
  | importedMatchCount (event : EventId) (declared imported : Nat)
  | expectedMatchCount (event : EventId)
  | duplicatePlayUnit (event : EventId) (id : PlayUnitId)
  | unknownParticipant (event : EventId) (id : ParticipantId)
  | completedSidesMissing (event : EventId) (id : PlayUnitId)
  | completedResultMissing (event : EventId) (id : PlayUnitId)
  | feederNotEarlier (event : EventId) (id : PlayUnitId) (place : PlayUnit.Place)
  | feederCannotAdvance (event : EventId) (feeder : PlayUnitId)
  | feederWithoutResult (event : EventId) (feeder : PlayUnitId)
  | winnerDiffers (event : EventId) (feeder : PlayUnitId) (place : PlayUnit.Place)
      (id : PlayUnitId)
  | sameFeederTwice (event : EventId) (id : PlayUnitId)
  | feedersMissing (event : EventId) (id : PlayUnitId) (round : Nat)
  | feedersUnknown (event : EventId) (id : PlayUnitId)
  | topologyExcluded (event : EventId)
  | topologyEdgeCount (event : EventId) (declared imported : Nat)
  | advance (error : AdvanceError)
  | assignmentUnknown (id : PlayUnitId)
  | assignmentDuplicate (id : PlayUnitId)
  | assignmentCourt (court : Int) (courts : Nat)
  | assignmentHorizon (id : PlayUnitId)
  | columnsMissing (columns : List String)
  | noRows
  | malformedCell (column : String)
  | malformedRound (event : EventId)
  | roundsNotContiguous (event : EventId) (rounds : List Int)
  | representationColumns
  | representationUnknown (code : String)
  | representationConflict
  deriving DecidableEq, Repr

/-! ## The payload -/

structure ParticipantIn where
  id : ParticipantId
  name : String
  members : List ParticipantId := []
  seed : Option Int := none
  deriving DecidableEq, Repr

/-- An imported result names a winner. -/
structure ImportResultIn where
  winnerSide : WinnerSide
  score : Option JsonObject := none
  walkover : Bool := false
  reason : Option String := none
  decided : winnerSide ≠ .NONE := by decide
  deriving DecidableEq

/-- One imported unit; the ids on its sides are not empty. -/
structure ImportPlayUnitIn where
  id : PlayUnitId
  sideA : Side := []
  sideB : Side := []
  feederA : Option PlayUnitId := none
  feederB : Option PlayUnitId := none
  durationSlots : Nat := 1
  result : Option ImportResultIn := none
  playedOn : Option String := none
  localTime : Option String := none
  courtLabel : Option String := none
  sourceUrl : Option String := none
  sourceRef : Option String := none
  named : "" ∉ sideA ++ sideB := by decide
  deriving DecidableEq

inductive RecordScope
  | fullDraw | completedMatchesOnly | finalsOnly
  deriving DecidableEq, Repr

inductive TopologyScope
  | none | provenWinnerAdvancement
  deriving DecidableEq, Repr

structure ImportEventIn where
  id : EventId
  discipline : String := "GEN"
  format : String := "se"
  participants : List ParticipantIn
  rounds : List (List ImportPlayUnitIn)
  recordScope : RecordScope := .fullDraw
  historical : Bool := false
  advertisedSize : Option Nat := none
  roundLabels : Option (List String) := none
  roundCodes : Option (List String) := none
  topologyScope : Option TopologyScope := none
  topologyEdgeCount : Option Nat := none
  importedMatchCount : Option Nat := none
  expectedMatchCount : Option Nat := none
  sourceUrl : Option String := none
  identityScope : Option String := none
  deriving DecidableEq

structure BracketAssignmentIn where
  playUnitId : PlayUnitId
  slotId : Nat
  courtId : Nat
  durationSlots : Nat := 1
  deriving DecidableEq, Repr

structure ImportTournamentIn where
  courts : Nat
  totalSlots : Nat
  restBetweenRounds : Nat := 1
  intervalMinutes : Nat := 30
  startTime : Option String := none
  roster : Option (List ParticipantId) := none
  events : List ImportEventIn
  assignments : List BracketAssignmentIn := []
  deriving DecidableEq

/-- The driver-free session both parsers give. -/
structure BracketSession where
  state : TournamentState
  draws : List Draw
  totalSlots : Nat
  courtCount : Nat
  intervalMinutes : Nat
  restBetweenRounds : Nat
  startTime : Option String
  events : List (EventId × EventMeta)

namespace ImportPlayUnitIn

def side (mu : ImportPlayUnitIn) : PlayUnit.Place → Side
  | .A => mu.sideA
  | .B => mu.sideB

def feeder (mu : ImportPlayUnitIn) : PlayUnit.Place → Option PlayUnitId
  | .A => mu.feederA
  | .B => mu.feederB

/-- The metadata an imported unit keeps besides its place, as far as it was given. -/
def facts (mu : ImportPlayUnitIn) : List (String × String) :=
  [("played_on", mu.playedOn), ("local_time", mu.localTime), ("court_label", mu.courtLabel),
    ("source_url", mu.sourceUrl), ("source_ref", mu.sourceRef)].filterMap
      fun p => p.2.map (p.1, ·)

end ImportPlayUnitIn

def ImportEventIn.HistoricalRecords (ev : ImportEventIn) : Prop := ev.recordScope ≠ .fullDraw

instance (ev : ImportEventIn) : Decidable ev.HistoricalRecords :=
  inferInstanceAs (Decidable (_ ≠ _))

/-! ## Building the draw of an event -/

/-- The rounds that are built and the units of the one at hand. -/
structure Building where
  rounds : List (List PlayUnit) := []
  row : List PlayUnit := []

def Building.seenIds (b : Building) : List PlayUnitId := (b.rounds.flatten ++ b.row).map PlayUnit.id

def Building.add (b : Building) (unit : PlayUnit) : Building := { b with row := b.row ++ [unit] }

def Building.close (b : Building) : Building := { rounds := b.rounds ++ [b.row] }

/-- What the loop over the rounds of an event carries: beside the units, the imported units
with their rounds and the number of feeder edges. -/
structure Importing extends Building where
  imported : List (PlayUnitId × ImportPlayUnitIn × Nat) := []
  topologyEdges : Nat := 0

/-- `_slot_from_side`: the first id of a side, or a bye. -/
def slotFromSide (eventId : EventId) (participants : Participants) :
    Side → Except ImportError BracketSlot
  | [] => .ok (.participant BYE)
  | head :: _ =>
    if participants.Has head then .ok (.participant head)
    else .error (.unknownParticipant eventId head)

def KNOCKOUT_PREDECESSOR : List (String × String) :=
  [("R32", "R64"), ("R16", "R32"), ("QF", "R16"), ("SF", "QF"), ("Final", "SF")]

/-- The codes of two rounds are not those of neighbours in a knockout. -/
def CodesApart (ev : ImportEventIn) (feederRound round : Nat) : Prop :=
  ∃ codes ∈ ev.roundCodes, ev.topologyScope = some .provenWinnerAdvancement ∧
    Assoc.get (codes.getD round "") KNOCKOUT_PREDECESSOR ≠ some (codes.getD feederRound "")

instance (ev : ImportEventIn) (feederRound round : Nat) :
    Decidable (CodesApart ev feederRound round) := by
  unfold CodesApart
  cases ev.roundCodes with
  | none => exact isFalse fun ⟨_, h, _⟩ => nomatch h
  | some codes => exact decidable_of_iff _ ⟨fun h => ⟨codes, rfl, h⟩, fun ⟨_, e, h⟩ => by cases e; exact h⟩

def ImportPlayUnitIn.winningSide (mu : ImportPlayUnitIn) (result : ImportResultIn) : Side :=
  if result.winnerSide = .A then mu.sideA else mu.sideB

/-- `_historical_slot`: the slot of a completed match's side, and its feeder if it names one. -/
def historicalSlot (ev : ImportEventIn) (mu : ImportPlayUnitIn) (place : PlayUnit.Place)
    (concrete : BracketSlot) (round : Nat)
    (imported : List (PlayUnitId × ImportPlayUnitIn × Nat)) :
    Except ImportError (BracketSlot × Option PlayUnitId) :=
  match mu.feeder place with
  | none => .ok (concrete, none)
  | some feederId =>
    match Assoc.get feederId imported with
    | none => .error (.feederNotEarlier ev.id mu.id place)
    | some (feeder, feederRound) =>
      if round ≤ feederRound then .error (.feederNotEarlier ev.id mu.id place)
      else if CodesApart ev feederRound round then .error (.feederCannotAdvance ev.id feederId)
      else
        match feeder.result with
        | none => .error (.feederWithoutResult ev.id feederId)
        | some result =>
          if (feeder.winningSide result).Perm (mu.side place) then
            .ok (.feeder feederId .winner, some feederId)
          else .error (.winnerDiffers ev.id feederId place mu.id)

/-- A unit with given sides: one of round 0, or a completed match of any round. -/
def concreteUnit (ev : ImportEventIn) (participants : Participants) (round matchIndex : Nat)
    (imported : List (PlayUnitId × ImportPlayUnitIn × Nat)) (mu : ImportPlayUnitIn) :
    Except ImportError PlayUnit := do
  let slotA ← slotFromSide ev.id participants mu.sideA
  let slotB ← slotFromSide ev.id participants mu.sideB
  let unit : PlayUnit :=
    { id := mu.id, eventId := ev.id, sideA := mu.sideA, sideB := mu.sideB, slotA, slotB
      expectedDurationSlots := mu.durationSlots
      metadata := { round, matchIndex, extra := mu.facts } }
  if ev.HistoricalRecords then
    reject (mu.sideA = [] ∨ mu.sideB = []) (.completedSidesMissing ev.id mu.id)
    reject (mu.result = none) (.completedResultMissing ev.id mu.id)
    let (slotA, feederA) ← historicalSlot ev mu .A slotA round imported
    let (slotB, feederB) ← historicalSlot ev mu .B slotB round imported
    let dependencies := feederA.toList ++ feederB.toList
    reject (¬ dependencies.Nodup) (.sameFeederTwice ev.id mu.id)
    .ok { unit with slotA, slotB, dependencies }
  else .ok unit

/-- A unit of a later round: it takes the winners of two units that were seen. Its own id is
among the seen ones already. -/
def openUnit (ev : ImportEventIn) (round matchIndex : Nat) (seen : List PlayUnitId)
    (mu : ImportPlayUnitIn) : Except ImportError PlayUnit :=
  match mu.feederA, mu.feederB with
  | some feederA, some feederB =>
    if feederA ∉ seen ++ [mu.id] ∨ feederB ∉ seen ++ [mu.id] then
      .error (.feedersUnknown ev.id mu.id)
    else
      .ok
        { id := mu.id, eventId := ev.id, slotA := .feeder feederA .winner
          slotB := .feeder feederB .winner, expectedDurationSlots := mu.durationSlots
          dependencies := [feederA, feederB], metadata := { round, matchIndex } }
  | _, _ => .error (.feedersMissing ev.id mu.id round)

def placedUnit (ev : ImportEventIn) (participants : Participants) (round matchIndex : Nat)
    (st : Importing) (mu : ImportPlayUnitIn) : Except ImportError PlayUnit :=
  if round = 0 ∨ ev.HistoricalRecords then
    concreteUnit ev participants round matchIndex st.imported mu
  else openUnit ev round matchIndex st.seenIds mu

def importUnit (ev : ImportEventIn) (participants : Participants) (round : Nat) (st : Importing)
    (p : ImportPlayUnitIn × Nat) : Except ImportError Importing := do
  let (mu, matchIndex) := p
  reject (mu.id ∈ st.seenIds) (.duplicatePlayUnit ev.id mu.id)
  let unit ← placedUnit ev participants round matchIndex st mu
  .ok
    { toBuilding := st.toBuilding.add unit
      imported := st.imported ++ [(mu.id, mu, round)]
      -- only the edges of completed matches are counted
      topologyEdges := st.topologyEdges +
        if ev.HistoricalRecords then unit.dependencies.length else 0 }

def importRound (ev : ImportEventIn) (participants : Participants) (st : Importing)
    (p : List ImportPlayUnitIn × Nat) : Except ImportError Importing := do
  let st ← p.1.zipIdx.foldlM (importUnit ev participants p.2) st
  .ok { st with toBuilding := st.toBuilding.close }

def participantOf (p : ParticipantIn) : Participant :=
  { id := p.id, name := p.name, type := if 1 < p.members.length then .team else .player
    memberIds := p.members, seed := p.seed }

/-- The roster players a participant names that the roster does not have. -/
def missingRosterIds (rosterIds : Option (List ParticipantId)) (p : ParticipantIn) :
    List ParticipantId :=
  match rosterIds with
  | none => []
  | some ids =>
    ((if p.members = [] then [p.id] else p.members).filter (· ∉ ids)).dedup.insertionSort (· ≤ ·)

def addParticipant (rosterIds : Option (List ParticipantId)) (eventId : EventId)
    (participants : Participants) (p : ParticipantIn) : Except ImportError Participants := do
  reject (participants.Has p.id) (.duplicateParticipant eventId p.id)
  let missing := missingRosterIds rosterIds p
  reject (missing ≠ []) (.unknownRosterPlayers eventId p.id missing)
  .ok (participants.put (participantOf p))

/-- What is checked of an event before its units are. -/
def checkCounts (ev : ImportEventIn) : Except ImportError Unit := do
  let imported := (ev.rounds.map List.length).sum
  reject (∃ labels ∈ ev.roundLabels, labels.length ≠ ev.rounds.length) (.labelsPerRound ev.id)
  reject (∃ codes ∈ ev.roundCodes, codes.length ≠ ev.rounds.length) (.codesPerRound ev.id)
  reject (ev.topologyScope = some .provenWinnerAdvancement ∧ ev.roundCodes = none)
    (.topologyWithoutCodes ev.id)
  reject (∃ codes ∈ ev.roundCodes, ¬ codes.Nodup) (.repeatedCodes ev.id)
  reject (∃ declared ∈ ev.importedMatchCount, declared ≠ imported)
    (.importedMatchCount ev.id (ev.importedMatchCount.getD 0) imported)
  reject (∃ expected ∈ ev.expectedMatchCount, expected < imported) (.expectedMatchCount ev.id)

def RecordScope.text : RecordScope → String
  | .fullDraw => "full_draw"
  | .completedMatchesOnly => "completed_matches_only"
  | .finalsOnly => "finals_only"

def TopologyScope.text : TopologyScope → String
  | .none => "none"
  | .provenWinnerAdvancement => "proven_winner_advancement"

def orNull {α : Type} (f : α → Json) : Option α → Json
  | none => .null
  | some a => f a

def importedEvent (ev : ImportEventIn) (participants : Participants) (topologyEdges : Nat) :
    Event where
  id := ev.id
  typeTags := [ev.format]
  formatPluginName := ev.format
  parameters :=
    [("imported", .bool true),
      ("participant_count", .int participants.rows.length),
      ("record_scope", .str ev.recordScope.text),
      ("historical", .bool ev.historical),
      ("bracket_size", orNull (fun n : Nat => .int n) ev.advertisedSize),
      ("round_labels", .arr ((ev.roundLabels.getD []).map .str)),
      ("round_codes", .arr ((ev.roundCodes.getD []).map .str)),
      ("topology_scope", orNull (fun t => .str t.text) ev.topologyScope),
      ("topology_edge_count", .int topologyEdges),
      ("imported_match_count",
        .int (ev.importedMatchCount.getD (ev.rounds.map List.length).sum)),
      ("expected_match_count", orNull (fun n : Nat => .int n) ev.expectedMatchCount),
      ("source_url", orNull .str ev.sourceUrl),
      ("identity_scope", orNull .str ev.identityScope)]

def buildDrawFromImport (rosterIds : Option (List ParticipantId)) (ev : ImportEventIn) :
    Except ImportError Draw := do
  reject (ev.rounds = []) (.noRounds ev.id)
  let participants ← ev.participants.foldlM (addParticipant rosterIds ev.id) Table.empty
  checkCounts ev
  let st ← ev.rounds.zipIdx.foldlM (importRound ev participants) {}
  reject (ev.topologyScope = some .none ∧ st.topologyEdges ≠ 0) (.topologyExcluded ev.id)
  reject (∃ declared ∈ ev.topologyEdgeCount, declared ≠ st.topologyEdges)
    (.topologyEdgeCount ev.id (ev.topologyEdgeCount.getD 0) st.topologyEdges)
  .ok (plainDraw (importedEvent ev participants st.topologyEdges) participants.rows st.rounds)

/-! ## The tournament -/

abbrev Identity := String × ParticipantType × List ParticipantId

/-- What the loop over the events carries. -/
structure Parsing where
  state : TournamentState := {}
  draws : List Draw := []
  participants : List (ParticipantId × Identity) := []
  events : List (EventId × EventMeta) := []

def Parsing.playUnitIds (st : Parsing) : List PlayUnitId :=
  st.draws.flatMap fun d => d.playUnits.rows.map PlayUnit.id

/-- A participant that several events have is the same in all of them. -/
def checkIdentity (known : List (ParticipantId × Identity)) (p : Participant) :
    Except ImportError (List (ParticipantId × Identity)) :=
  let identity : Identity := (p.name, p.type, p.memberIds.insertionSort (· ≤ ·))
  match Assoc.get p.id known with
  | none => .ok (Assoc.set p.id identity known)
  | some prior =>
    if prior = identity then .ok known else .error (.conflictingParticipant p.id)

def ImportResultIn.toResult (r : ImportResultIn) : Result :=
  { winnerSide := r.winnerSide, score := r.score, walkover := r.walkover, reason := r.reason }

/-- An imported result takes the place of what registration recorded. -/
def storeResult (s : TournamentState) (mu : ImportPlayUnitIn) : TournamentState :=
  match mu.result with
  | none => s
  | some r => { s with results := Assoc.set mu.id r.toResult s.results }

/-- `_max_duration(ev) or 1`: the length of the first unit of round 0. -/
def importedDuration (ev : ImportEventIn) : Nat :=
  match ev.rounds with
  | (mu :: _) :: _ => max mu.durationSlots 1
  | _ => 1

def importedMeta (ev : ImportEventIn) (draw : Draw) : EventMeta where
  discipline := ev.discipline
  format := ev.format
  durationSlots := importedDuration ev
  bracketSize := ev.advertisedSize
  status :=
    if ev.historical ∧ ev.rounds.flatten ≠ [] ∧ ∀ mu ∈ ev.rounds.flatten, mu.result ≠ none then
      "completed"
    else if ∃ mu ∈ ev.rounds.flatten, mu.result ≠ none then "started"
    else "draft"
  config := draw.event.parameters

def importEvent (rosterIds : Option (List ParticipantId)) (st : Parsing) (ev : ImportEventIn) :
    Except ImportError Parsing := do
  reject (ev.id ∈ eventIds st.draws) (.duplicateEvent ev.id)
  let draw ← buildDrawFromImport rosterIds ev
  let collisions := (draw.playUnits.rows.map PlayUnit.id).filter (· ∈ st.playUnitIds)
  reject (collisions ≠ [])
    (.duplicatedAcrossEvents ((collisions.insertionSort (· ≤ ·)).headD ""))
  let participants ← draw.participants.rows.foldlM checkIdentity st.participants
  let state ← (registerDraw st.state draw).mapError .advance
  .ok
    { state := ev.rounds.flatten.foldl storeResult state
      draws := st.draws ++ [draw]
      participants
      events := Assoc.set ev.id (importedMeta ev draw) st.events }

def importAssignment (body : ImportTournamentIn) (s : TournamentState) (a : BracketAssignmentIn) :
    Except ImportError TournamentState := do
  reject (¬ s.playUnits.Has a.playUnitId) (.assignmentUnknown a.playUnitId)
  reject ((Assoc.get a.playUnitId s.assignments).isSome) (.assignmentDuplicate a.playUnitId)
  reject (¬ (1 ≤ a.courtId ∧ a.courtId ≤ body.courts)) (.assignmentCourt a.courtId body.courts)
  reject (body.totalSlots < a.slotId + a.durationSlots) (.assignmentHorizon a.playUnitId)
  .ok
    { s with
      assignments := Assoc.set a.playUnitId
        { slotId := a.slotId, courtId := a.courtId, durationSlots := a.durationSlots }
        s.assignments }

def addRosterId (ids : List ParticipantId) (id : ParticipantId) :
    Except ImportError (List ParticipantId) := do
  reject (id ∈ ids) (.duplicateRosterPlayer id)
  .ok (ids ++ [id])

def parseJsonPayload (body : ImportTournamentIn) : Except ImportError BracketSession := do
  reject (body.events = []) .noEvents
  let _ ← (body.roster.getD []).foldlM addRosterId []
  let st ← body.events.foldlM (importEvent body.roster) {}
  let state := (reconcileRecordedResults st.state (st.draws.map Draw.rounds)).1
  let state ← body.assignments.foldlM (importAssignment body) state
  .ok
    { state, draws := st.draws, events := st.events
      totalSlots := body.totalSlots, courtCount := body.courts
      intervalMinutes := body.intervalMinutes
      restBetweenRounds := body.restBetweenRounds, startTime := body.startTime }

end Brackets
