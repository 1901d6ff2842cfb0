import ShuttleWorks.Operations.MatchState
import ShuttleWorks.Sync.OperationLog

/-! The tables a live write goes to, beside the node's operation log, and the
writes of one row. -/

namespace Operations
open Lib Sync

/-! ## Rows -/

structure Match where
  tournamentId : Uuid
  id : String
  courtId : Option Int := none
  timeSlot : Option Int := none
  status : MatchStatus := .scheduled
  version : Nat := 1
  machineVersion : Nat := 1
  deriving DecidableEq

structure MatchScore where
  sideA : Fin 100
  sideB : Fin 100
  deriving DecidableEq

def MatchScore.modelDump (x : MatchScore) : Json :=
  .obj [("sideA", .int x.sideA), ("sideB", .int x.sideB)]

/-- The columns of `match_states` that a document writes. -/
structure MatchStateFields where
  status : WireStatus := .scheduled
  calledAt : Option String := none
  actualStartTime : Option String := none
  actualEndTime : Option String := none
  notes : Option String := none
  originalSlotId : Option Nat := none
  originalCourtId : Option Nat := none
  setScores : Option (List MatchScore) := none
  scoreSideA : Option Nat := none
  scoreSideB : Option Nat := none
  deriving DecidableEq

structure MatchState where
  tournamentId : Uuid
  matchId : String
  fields : MatchStateFields
  deriving DecidableEq

structure Command where
  id : Uuid
  tournamentId : Uuid
  matchId : String
  action : String
  payload : Option JsonObject
  submittedBy : Uuid
  appliedAt : Option Timestamp := none
  rejectedAt : Option Timestamp := none
  rejectionReason : Option String := none
  deriving DecidableEq

abbrev MatchKey := Uuid × String

def Match.key (m : Match) : MatchKey := (m.tournamentId, m.id)

def MatchState.key (m : MatchState) : MatchKey := (m.tournamentId, m.matchId)

/-- The node's database; `documents` holds `tournaments.data`. -/
structure LiveStore where
  sync : Store := {}
  documents : List (Uuid × JsonObject) := []
  matchRows : Table Match.key := .empty
  matchStates : Table MatchState.key := .empty
  commands : Table Command.id := .empty

/-! ## JSON of columns -/

def jsonOption {α : Type} (f : α → Json) (x : Option α) : Json := (x.map f).getD .null

def jsonText : Option String → Json := jsonOption .str

def jsonNat : Option Nat → Json := jsonOption (fun n => .int n)

def jsonScores : Option (List MatchScore) → Json :=
  jsonOption (fun xs => .arr (xs.map MatchScore.modelDump))

def MatchStateFields.toJson (x : MatchStateFields) : JsonObject :=
  [("status", .str x.status.text), ("called_at", jsonText x.calledAt),
    ("actual_start_time", jsonText x.actualStartTime),
    ("actual_end_time", jsonText x.actualEndTime), ("notes", jsonText x.notes),
    ("original_slot_id", jsonNat x.originalSlotId),
    ("original_court_id", jsonNat x.originalCourtId), ("set_scores", jsonScores x.setScores),
    ("score_side_a", jsonNat x.scoreSideA), ("score_side_b", jsonNat x.scoreSideB)]

/-! ## Writes of one row -/

namespace LiveStore

def listForTournament (s : LiveStore) (tournamentId : Uuid) : List Match :=
  (s.matchRows.rows.filter (fun m => m.tournamentId = tournamentId)).insertionSort
    (fun a b => a.id ≤ b.id)

/-- A new row has version 1; every later write bumps it. -/
def setStatus (s : LiveStore) (tournamentId : Uuid) (matchId : String) (status : MatchStatus)
    (expectedVersion : Option Nat := none) : Except LiveError (Match × LiveStore) :=
  match s.matchRows.get (tournamentId, matchId) with
  | none =>
    if ∀ expected ∈ expectedVersion, expected = 0 then
      let row : Match := { tournamentId := tournamentId, id := matchId, status := status }
      .ok (row, { s with matchRows := s.matchRows.put row })
    else conflict
      { matchId := matchId
        message := "Match " ++ matchId ++ " does not exist yet (expected version " ++
          toString (expectedVersion.getD 0) ++ ")."
        currentVersion := some 0
        seenVersion := expectedVersion }
  | some row =>
    if ∀ expected ∈ expectedVersion, expected = row.version then
      let row := { row with status := status, version := row.version + 1 }
      .ok (row, { s with matchRows := s.matchRows.put row })
    else conflict
      { matchId := matchId
        message := "Match " ++ matchId ++ " was updated since you last loaded it (current version " ++
          toString row.version ++ ", you sent " ++ toString (expectedVersion.getD 0) ++ ")."
        currentVersion := some row.version
        seenVersion := expectedVersion }

def upsertState (s : LiveStore) (tournamentId : Uuid) (matchId : String)
    (fields : MatchStateFields) : MatchState × LiveStore :=
  let row : MatchState := { tournamentId := tournamentId, matchId := matchId, fields := fields }
  (row, { s with matchStates := s.matchStates.put row })

def deleteState (s : LiveStore) (tournamentId : Uuid) (matchId : String) : LiveStore :=
  { s with matchStates := s.matchStates.erase (tournamentId, matchId) }

/-- The number of removed rows, and the store without them. -/
def resetStates (s : LiveStore) (tournamentId : Uuid) : Nat × LiveStore :=
  let removed := fun (m : MatchState) => decide (m.tournamentId = tournamentId)
  (s.matchStates.rows.countP removed, { s with matchStates := s.matchStates.remove removed })

/-- Project an applied command into the wire-state row. -/
def mirrorCommandState (s : LiveStore) (tournamentId : Uuid) (matchId : String)
    (target : MatchStatus) (stamp : String) : LiveStore :=
  let fields := ((s.matchStates.get (tournamentId, matchId)).map MatchState.fields).getD {}
  let fields := { fields with status := canonicalToLegacy target }
  let fields :=
    match target with
    | .called => { fields with calledAt := some stamp }
    | .playing => { fields with actualStartTime := some (fields.actualStartTime.getD stamp) }
    | .finished | .retired => { fields with actualEndTime := some (fields.actualEndTime.getD stamp) }
    | .scheduled =>
      { fields with calledAt := none, actualStartTime := none, actualEndTime := none }
  (s.upsertState tournamentId matchId fields).2

def statusOf (s : LiveStore) (tournamentId : Uuid) (matchId : String) : MatchStatus :=
  ((s.matchRows.get (tournamentId, matchId)).map Match.status).getD .scheduled

/-- Reject a second playing match on one court. -/
def assertCourtAvailable (s : LiveStore) (tournamentId : Uuid) (matchId : String)
    (next : MatchStatus) : Except LiveError Unit :=
  match occupiesCourtNow next, (s.matchRows.get (tournamentId, matchId)).bind Match.courtId with
  | true, some court =>
    let rows := ((s.listForTournament tournamentId).filter (fun m => m.id ≠ matchId)).map
      (fun m => (⟨m.id, m.status, m.courtId⟩ : OccupancyMatch))
    if deriveCourtStates (rows ++ [⟨matchId, .playing, some court⟩]) court ≠ .disputed then .ok ()
    else
      let other := rows.find? (fun m => m.courtId = some court ∧ m.status = .playing)
      conflict
        { matchId := matchId
          message := "Court " ++ toString court ++ " already has a playing match (" ++
            (other.map OccupancyMatch.id).getD "?" ++
            "); finish or move it before starting this match"
          currentStatus := some .playing
          attemptedStatus := some .playing }
  | _, _ => .ok ()

end LiveStore

/-! ## The operation log -/

/-- The settings a live write reads; `nodeId` is the configured identity, if it is a UUID. -/
structure Settings where
  env : Env
  nodeId : Option Uuid
  uuid5 : String → Uuid

/-- What a request brings along: the staged actor, the clock and fresh values. -/
structure Ambient where
  actor : Option TransitionActor
  inputs : AppendInputs
  deriving DecidableEq

/-- The identity to log under; only an event node logs. -/
def eventNodeId (c : Settings) (what : String) : Except LiveError (Option Uuid) :=
  if c.env.deploymentProfile ≠ "event_node" then .ok none
  else
    match c.nodeId with
    | some nodeId => .ok (some nodeId)
    | none => .error (.value ("event-node match " ++ what ++ " require a UUID node identity"))

/-- Append an operation on a match inside the transaction of the write it records. -/
def appendIfEventNode (c : Settings) (s : LiveStore) (x : Ambient) (tournamentId : Uuid)
    (op : LocalOperation) (what : String := "mutations") : Except LiveError LiveStore := do
  match ← eventNodeId c what with
  | none => .ok s
  | some nodeId =>
    match appendLocalOperation c.env s.sync x.actor tournamentId nodeId op x.inputs with
    | .ok (_, sync) => .ok { s with sync := sync }
    | .error e => .error (.sync e)

end Operations
