import Mathlib.Data.String.Basic
import ShuttleWorks.Brackets.Formats.Segments

/-! Stored draws. An event, its matches and its results are rows; the rounds and the
segments of a draw are not stored but read back from the places its matches carry. -/

namespace Brackets
open Lib

/-! ## Rows -/

structure EventRow where
  id : EventId
  discipline : String
  format : String
  durationSlots : Nat
  bracketSize : Option Nat
  seededCount : Nat
  rrRounds : Option Int
  config : JsonObject
  status : String
  version : Nat := 1

structure MatchRow where
  eventId : EventId
  id : PlayUnitId
  roundIndex : Nat
  matchIndex : Nat
  kind : String
  slotA : JsonObject
  slotB : JsonObject
  sideA : List ParticipantId
  sideB : List ParticipantId
  dependencies : List PlayUnitId
  expectedDurationSlots : Int
  durationVarianceSlots : Nat
  childUnitIds : List PlayUnitId
  metadata : Metadata
  version : Nat := 1

structure ResultRow where
  eventId : EventId
  matchId : PlayUnitId
  winnerSide : String
  score : Option JsonObject
  finishedAtSlot : Option Int
  walkover : Bool
  reason : Option String

def MatchRow.key (row : MatchRow) : EventId × PlayUnitId := (row.eventId, row.id)

def ResultRow.key (row : ResultRow) : EventId × PlayUnitId := (row.eventId, row.matchId)

/-- The bracket tables of one tournament. -/
structure BracketStore where
  events : Table EventRow.id := Table.empty
  matchRows : Table MatchRow.key := Table.empty
  results : Table ResultRow.key := Table.empty

inductive StoreError
  | eventExists (id : EventId)
  | matchExists (id : PlayUnitId)
  | unknownMatch (eventId : EventId) (id : PlayUnitId)
  | unknownPlayUnit (id : PlayUnitId)
  | noDraw (eventId : EventId)
  | noResult (id : PlayUnitId)
  | notASlot
  | notASide (value : String)
  deriving DecidableEq, Repr

/-! ## Slots, kinds and sides as they are stored -/

/-- `_slot_to_dict`: only a slot that takes a loser says what it takes. -/
def slotToDict : BracketSlot → JsonObject
  | .participant p => [("participant_id", .str p), ("feeder_play_unit_id", .null)]
  | .feeder id .winner => [("participant_id", .null), ("feeder_play_unit_id", .str id)]
  | .feeder id .loser =>
    [("participant_id", .null), ("feeder_play_unit_id", .str id), ("feeder_take", .str "loser")]

/-- An id under a key of a stored slot; a missing key reads as `null`. -/
def slotId (raw : JsonObject) (key : String) : Option Json :=
  match Assoc.get key raw with
  | none => none
  | some .null => none
  | some value => some value

/-- `_dict_to_slot`: a slot is a participant or a feeder, never both and never neither. -/
def dictToSlot (raw : JsonObject) : Except StoreError BracketSlot :=
  match slotId raw "participant_id", slotId raw "feeder_play_unit_id" with
  | some (.str p), none => .ok (.participant p)
  | none, some (.str id) =>
    match slotId raw "feeder_take" with
    | none => .ok (.feeder id .winner)
    | some (.str "") => .ok (.feeder id .winner)
    | some (.str "winner") => .ok (.feeder id .winner)
    | some (.str "loser") => .ok (.feeder id .loser)
    | some _ => .error .notASlot
  | _, _ => .error .notASlot

theorem dictToSlot_slotToDict (slot : BracketSlot) : dictToSlot (slotToDict slot) = .ok slot := by
  cases slot with
  | participant p => rfl
  | feeder id take => cases take <;> rfl

/-- `kind.value`. -/
def PlayUnitKind.value : PlayUnitKind → String
  | .match => "match"
  | .tie => "tie"
  | .block => "block"

def lower (s : String) : String := String.ofList (s.toList.map Char.toLower)

def upper (s : String) : String := String.ofList (s.toList.map Char.toUpper)

/-- `_parse_play_unit_kind`: any other text is a match. -/
def parsePlayUnitKind (value : String) : PlayUnitKind :=
  if lower value = "tie" then .tie else if lower value = "block" then .block else .match

theorem parsePlayUnitKind_upper (kind : PlayUnitKind) :
    parsePlayUnitKind (upper kind.value) = kind := by
  cases kind <;> decide

/-- `winner_side.value`. -/
def WinnerSide.value : WinnerSide → String
  | .A => "A"
  | .B => "B"
  | .NONE => "none"

def parseWinnerSide (value : String) : Except StoreError WinnerSide :=
  if value = "A" then .ok .A
  else if value = "B" then .ok .B
  else if value = "none" then .ok .NONE
  else .error (.notASide value)

theorem parseWinnerSide_value (side : WinnerSide) : parseWinnerSide side.value = .ok side := by
  cases side <;> rfl

/-! ## Writing -/

/-- The row of a unit at its place in the rounds. -/
def matchRow (eventId : EventId) (r m : Nat) (unit : PlayUnit) : MatchRow where
  eventId := eventId
  id := unit.id
  roundIndex := r
  matchIndex := m
  kind := upper unit.kind.value
  slotA := slotToDict unit.slotA
  slotB := slotToDict unit.slotB
  sideA := unit.sideA
  sideB := unit.sideB
  dependencies := unit.dependencies
  expectedDurationSlots := unit.expectedDurationSlots
  durationVarianceSlots := unit.durationVarianceSlots
  childUnitIds := unit.childUnitIds
  metadata := unit.metadata

def resultRow (eventId : EventId) (id : PlayUnitId) (result : Result) : ResultRow where
  eventId := eventId
  matchId := id
  winnerSide := result.winnerSide.value
  score := result.score
  finishedAtSlot := result.finishedAtSlot
  walkover := result.walkover
  reason := result.reason

/-- What an event is created with, besides its draw. -/
structure EventMeta where
  discipline : String := ""
  format : String
  durationSlots : Nat := 1
  bracketSize : Option Nat := none
  seededCount : Nat := 0
  rrRounds : Option Int := none
  config : JsonObject := []
  status : String := "draft"

namespace BracketStore

/-- `create_event`, which starts as a draft. -/
def createEvent (store : BracketStore) (eventId : EventId) (info : EventMeta) :
    Except StoreError BracketStore :=
  match store.events.insert
    { id := eventId, discipline := info.discipline, format := info.format
      durationSlots := info.durationSlots, bracketSize := info.bracketSize
      seededCount := info.seededCount, rrRounds := info.rrRounds, config := info.config
      status := "draft" } with
  | none => .error (.eventExists eventId)
  | some events => .ok { store with events }

/-- `set_event_status`; an event that is not there stays so. -/
def setEventStatus (store : BracketStore) (eventId : EventId) (status : String) : BracketStore :=
  match store.events.get eventId with
  | none => store
  | some row =>
    { store with events := store.events.put { row with status, version := row.version + 1 } }

def createMatch (store : BracketStore) (row : MatchRow) : Except StoreError BracketStore :=
  match store.matchRows.insert row with
  | none => .error (.matchExists row.id)
  | some matchRows => .ok { store with matchRows }

/-- `update_match` with the slots and sides of a unit. -/
def updateMatch (store : BracketStore) (eventId : EventId) (unit : PlayUnit) :
    Except StoreError BracketStore :=
  match store.matchRows.get (eventId, unit.id) with
  | none => .error (.unknownMatch eventId unit.id)
  | some row =>
    .ok { store with
      matchRows := store.matchRows.put
        { row with
          slotA := slotToDict unit.slotA
          slotB := slotToDict unit.slotB
          sideA := unit.sideA
          sideB := unit.sideB
          version := row.version + 1 } }

def recordResult (store : BracketStore) (eventId : EventId) (id : PlayUnitId) (result : Result) :
    BracketStore :=
  { store with results := store.results.put (resultRow eventId id result) }

end BracketStore

/-- The row of the unit that stands at this place of the draw. -/
def placedRow (units : PlayUnits) (eventId : EventId) (place : Nat × Nat × PlayUnitId) :
    Except StoreError MatchRow :=
  match units.get place.2.2 with
  | none => .error (.unknownPlayUnit place.2.2)
  | some unit => .ok (matchRow eventId place.1 place.2.1 unit)

/-- `_persist_event`: the event and its matches, place by place of the rounds. -/
def persistEvent (store : BracketStore) (draw : Draw) (info : EventMeta) (s : TournamentState) :
    Except StoreError BracketStore := do
  let store ← store.createEvent draw.event.id info
  let rows ← (entries draw.rounds).mapM (placedRow s.playUnits draw.event.id)
  rows.foldlM BracketStore.createMatch (store.setEventStatus draw.event.id info.status)

/-- The results a state holds already, written when the matches are there. -/
def persistResult (s : TournamentState) (store : BracketStore) (p : PlayUnitId × Result) :
    Except StoreError BracketStore :=
  match s.playUnits.get p.1 with
  | none => .error (.unknownPlayUnit p.1)
  | some unit => .ok (store.recordResult unit.eventId p.1 p.2)

/-- The tables after a bracket was created from these draws. -/
def persistDraws (draws : List (Draw × EventMeta)) (s : TournamentState) :
    Except StoreError BracketStore := do
  let store ← draws.foldlM (fun store p => persistEvent store p.1 p.2 s) {}
  s.results.foldlM (persistResult s) store

/-- A downstream unit's row, and its result if it has one by now. -/
def persistDownstream (s : TournamentState) (draws : List EventId) (store : BracketStore)
    (id : PlayUnitId) : Except StoreError BracketStore :=
  match s.playUnits.get id with
  | none => .error (.unknownPlayUnit id)
  | some unit =>
    if unit.eventId ∉ draws then .error (.noDraw unit.eventId)
    else do
      let store ← store.updateMatch unit.eventId unit
      match s.result id with
      | none => .ok store
      | some result => .ok (store.recordResult unit.eventId id result)

/-- The first result starts an event that was generated. -/
def BracketStore.start (store : BracketStore) (eventId : EventId) : BracketStore :=
  match store.events.get eventId with
  | none => store
  | some row => if row.status = "generated" then store.setEventStatus eventId "started" else store

/-- `_persist_result_advancement`: the recorded result and the rows of the affected units. -/
def persistResultAdvancement (store : BracketStore) (s : TournamentState) (draws : List EventId)
    (id : PlayUnitId) (affected : List PlayUnitId) : Except StoreError BracketStore :=
  match s.playUnits.get id with
  | none => .error (.unknownPlayUnit id)
  | some unit =>
    match s.result id with
    | none => .error (.noResult id)
    | some result =>
      affected.foldlM (persistDownstream s draws)
        ((store.recordResult unit.eventId id result).start unit.eventId)

/-! ## Reading back -/

/-- `_play_unit_from_row`, with its two slots. -/
def playUnitFromRow (eventId : EventId) (row : MatchRow) : Except StoreError PlayUnit := do
  let slotA ← dictToSlot row.slotA
  let slotB ← dictToSlot row.slotB
  return {
    id := row.id
    eventId := eventId
    sideA := row.sideA
    sideB := row.sideB
    slotA := slotA
    slotB := slotB
    expectedDurationSlots := row.expectedDurationSlots
    durationVarianceSlots := row.durationVarianceSlots
    dependencies := row.dependencies
    metadata := row.metadata
    kind := parsePlayUnitKind row.kind
    childUnitIds := row.childUnitIds }

/-- The rows of one segment as the segment they came from. -/
def segmentFromRows (formatId : String) (rows : List MatchRow) (p : Nat × String) : DrawSegment :=
  let own := rows.filter fun row => row.metadata.segment = some p.2
  let positions := own.findSome? fun row => segmentPositions p.2 row.metadata.positions
  { id := p.2
    label := segmentLabel formatId p.2 positions
    order := p.1
    rounds := regroup (own.map fun row => (row.metadata.round, row.metadata.matchIndex, row.id))
    positions := positions }

def segmentOrderOf (rows : List MatchRow) (segId : String) : Nat :=
  ((rows.find? fun row => row.metadata.segment = some segId).map
    fun row => row.metadata.segmentOrder).getD 0

def segmentsFromMatchMeta (formatId : String) (rows : List MatchRow) : Option (List DrawSegment) :=
  let ids := (rows.filterMap fun row => row.metadata.segment).dedup
  if ids = [] then none
  else
    let buckets := (ids.map fun segId => (segmentOrderOf rows segId, segId)).insertionSort columnLe
    some (buckets.map (segmentFromRows formatId rows))

def rowLe (a b : MatchRow) : Prop :=
  a.roundIndex < b.roundIndex ∨ (a.roundIndex = b.roundIndex ∧ a.matchIndex ≤ b.matchIndex)

instance : DecidableRel rowLe := fun _ _ => inferInstanceAs (Decidable (_ ∨ _))

def BracketStore.listMatches (store : BracketStore) (eventId : EventId) : List MatchRow :=
  (store.matchRows.rows.filter fun row => row.eventId = eventId).insertionSort rowLe

/-- `_hydrate_draw`; the participants come from their own rows. -/
def hydrateDraw (row : EventRow) (participants : Participants) (rows : List MatchRow)
    (s : TournamentState) : Except StoreError (Draw × TournamentState) := do
  let units ← rows.mapM (playUnitFromRow row.id)
  return ({
      event := { id := row.id, formatPluginName := row.format, parameters := row.config }
      participants := participants
      playUnits := Table.ofRows units
      rounds := regroup (rows.map fun row => (row.roundIndex, row.matchIndex, row.id))
      segments := segmentsFromMatchMeta row.format rows },
    { s with playUnits := units.foldl Table.put s.playUnits })

/-- `_hydrate_results`. -/
def hydrateResult (s : TournamentState) (row : ResultRow) : Except StoreError TournamentState := do
  let winnerSide ← parseWinnerSide row.winnerSide
  let result : Result :=
    { winnerSide, score := row.score, finishedAtSlot := row.finishedAtSlot
      walkover := row.walkover, reason := row.reason }
  return { s with results := Assoc.set row.matchId result s.results }

/-- One event of the session: its draw and its results. -/
def hydrateEvent (store : BracketStore) (participants : EventId → Participants)
    (w : List Draw × TournamentState) (row : EventRow) :
    Except StoreError (List Draw × TournamentState) := do
  let (draw, s) ← hydrateDraw row (participants row.id) (store.listMatches row.id) w.2
  let results := store.results.rows.filter fun result => result.eventId = row.id
  let s ← (results.insertionSort fun a b => a.matchId ≤ b.matchId).foldlM hydrateResult s
  return (w.1 ++ [draw], s)

/-- `_hydrate_session`: the draws and the state of the stored events, reconciled; `none` when no
event is stored. -/
def hydrateSession (store : BracketStore) (participants : EventId → Participants) :
    Except StoreError (Option (List Draw × TournamentState)) :=
  if store.events.rows = [] then .ok none
  else do
    let rows := store.events.rows.insertionSort fun a b => a.id ≤ b.id
    let (draws, s) ← rows.foldlM (hydrateEvent store participants) ([], {})
    return some (draws, (reconcileRecordedResults s (draws.map Draw.rounds)).1)

end Brackets
