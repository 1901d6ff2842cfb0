import ShuttleWorks.Sync.Schemas

/-! The cloud's read-only view of an event: its sections, and the effect of one
accepted operation on them. Payloads are JSON documents that nobody validated,
so every access that Python can refuse is a possible exception here. -/

namespace Sync
open Lib

def allowedCommandClasses : List String :=
  [ "competition.replace.v1", "match.record_result.v3", "bracket.pin.v1", "record_bracket_result",
    "match_state.update.v1", "match_state.delete.v1", "match_state.replace.v1",
    "match_state.reset_all.v1", "match_state.bulk_upsert.v1", "match.command.v1",
    "bracket.match_action.v1", "bracket.assignment.v1", "bracket.lifecycle.replace.v1",
    "bracket.lifecycle.delete.v1", "meet.schedule.commit.v1", "roster.replace.v1" ]

/-- The branches of the projection's chain of command types. -/
inductive ProjectionCommand
  | competitionReplace
  | recordResult
  | matchState
  | matchStateReplace
  | matchStateResetAll
  | matchStateBulkUpsert
  | scheduleCommit
  | rosterReplace
  | bracketPin
  | bracketMatchAction
  | bracketAssignment
  | lifecycleReplace
  | lifecycleDelete
  | other
  deriving DecidableEq

def projectionCommand (commandType : String) : ProjectionCommand :=
  if commandType = "competition.replace.v1" then .competitionReplace
  else if commandType = "record_bracket_result" ∨ commandType = "match.record_result.v3" then
    .recordResult
  else if commandType = "match_state.update.v1" ∨ commandType = "match_state.delete.v1" ∨
      commandType = "match.command.v1" then
    .matchState
  else if commandType = "match_state.replace.v1" then .matchStateReplace
  else if commandType = "match_state.reset_all.v1" then .matchStateResetAll
  else if commandType = "match_state.bulk_upsert.v1" then .matchStateBulkUpsert
  else if commandType = "meet.schedule.commit.v1" then .scheduleCommit
  else if commandType = "roster.replace.v1" then .rosterReplace
  else if commandType = "bracket.pin.v1" then .bracketPin
  else if commandType = "bracket.match_action.v1" then .bracketMatchAction
  else if commandType = "bracket.assignment.v1" then .bracketAssignment
  else if commandType = "bracket.lifecycle.replace.v1" then .lifecycleReplace
  else if commandType = "bracket.lifecycle.delete.v1" then .lifecycleDelete
  else .other

/-- A section with one dictionary for each aggregate. -/
abbrev Section := List (String × JsonObject)

/-- The sections of a projection document. The first two are always there; the
others appear with the first operation that writes them. `normalized` holds the
`competition` slice, the only key ever set under it, and `checkpoint` is written
by a rebuild alone. -/
structure ProjectionData where
  bracketResults : Section := []
  matchStates : Section := []
  checkpoint : Option Json := none
  normalized : Option JsonObject := none
  roster : Option JsonObject := none
  bracket : Option Json := none
  schedule : Option JsonObject := none
  bracketPin : Option JsonObject := none
  bracketMatchActions : Option Section := none
  bracketAssignments : Option Section := none
  bracketLifecycle : Option JsonObject := none
  deriving DecidableEq

namespace ProjectionData

def sectionJson (s : Section) : Json := .obj (s.map (fun p => (p.1, .obj p.2)))

/-- The document as stored. -/
def toJson (d : ProjectionData) : Json :=
  let member (key : String) (value : Option Json) := value.toList.map (fun v => (key, v))
  .obj ([("bracketResults", sectionJson d.bracketResults),
      ("matchStates", sectionJson d.matchStates)] ++
    member "checkpoint" d.checkpoint ++
    member "normalized" (d.normalized.map (fun c => .obj [("competition", .obj c)])) ++
    member "roster" (d.roster.map .obj) ++
    member "bracket" d.bracket ++
    member "schedule" (d.schedule.map .obj) ++
    member "bracketPin" (d.bracketPin.map .obj) ++
    member "bracketMatchActions" (d.bracketMatchActions.map sectionJson) ++
    member "bracketAssignments" (d.bracketAssignments.map sectionJson) ++
    member "bracketLifecycle" (d.bracketLifecycle.map .obj))

end ProjectionData

/-! ## Python's view of a JSON value -/

def pyType : Json → String
  | .null => "NoneType"
  | .bool _ => "bool"
  | .int _ => "int"
  | .float _ => "float"
  | .str _ => "str"
  | .arr _ => "list"
  | .obj _ => "dict"

def typeError {α : Type} (message : String) : Except Raised α :=
  .error (.exception "TypeError" message)

def pyIter : Json → Except Raised (List Json)
  | .arr xs => .ok xs
  | .obj kvs => .ok (kvs.map (fun p => .str p.1))
  | .str s => .ok (s.toList.map (fun c => .str (String.singleton c)))
  | j => typeError ("'" ++ pyType j ++ "' object is not iterable")

/-- `list(value or [])`. -/
def pyList (j : Json) : Except Raised (List Json) := if j.truthy then pyIter j else .ok []

/-- `value[key]` with a string key. -/
def pyItem (key : String) : Json → Except Raised Json
  | .obj kvs =>
    match Assoc.get key kvs with
    | some v => .ok v
    | none => .error (.exception "KeyError" ("'" ++ key ++ "'"))
  | .str _ => typeError "string indices must be integers, not 'str'"
  | .arr _ => typeError "list indices must be integers or slices, not str"
  | j => typeError ("'" ++ pyType j ++ "' object is not subscriptable")

/-- An attribute that only a dict has; the result is the dict. -/
def pyDictAttr (name : String) : Json → Except Raised JsonObject
  | .obj kvs => .ok kvs
  | j => .error (.exception "AttributeError"
      ("'" ++ pyType j ++ "' object has no attribute '" ++ name ++ "'"))

/-- `payload.get(key, default)`. -/
def getD (key : String) (default : Json) (payload : JsonObject) : Json :=
  (Assoc.get key payload).getD default

/-- `hmac.compare_digest` of two strings. -/
def compareDigest (a b : String) : Except Raised Bool :=
  if (a.toList ++ b.toList).all (fun c => c.toNat < 128) then .ok (a = b)
  else typeError "comparing strings with non-ASCII characters is not supported"

/-! ## One operation -/

section
variable (o : OperationEnvelope)

def receipt : JsonObject :=
  [("operationId", .str o.operationId), ("sequence", .int o.sequence),
    ("acceptedAtNode", .str o.acceptedAtNode)]

def versionReceipt (version : Json) : JsonObject := ("version", version) :: receipt o

def invalidPayload {α : Type} (message : String) : Except Raised α :=
  refuse 409 "invalid_operation_payload" message

/-- The rows of a replacement snapshot, sorted by the text of their match id;
`none` when some item is not an object. -/
def orderedSnapshot (env : Env) (snapshot : List Json) : Option (List JsonObject) :=
  let rows := snapshot.filterMap (fun j => match j with | .obj m => some m | _ => none)
  let sortKey (m : JsonObject) := pyStr env (getD "matchId" (.str "") m)
  if rows.length = snapshot.length then
    some (rows.insertionSort (fun a b => sortKey a ≤ sortKey b))
  else none

/-- One snapshot row becomes the state of its match. -/
def replaceState (env : Env) (versions : JsonObject) (states : Section) (row : JsonObject) :
    Except Raised Section :=
  match Assoc.get "matchId" row with
  | none => invalidPayload "Match-state replacement snapshot is invalid"
  | some j =>
    let matchId := pyStr env j
    .ok (Assoc.set matchId
      (Assoc.merge (Assoc.erase "matchId" row)
        (versionReceipt o ((Assoc.get matchId versions).getD .null))) states)

def replaceMatchStates (env : Env) (data : ProjectionData) : Except Raised ProjectionData := do
  match Assoc.get "snapshot" o.payload, Assoc.get "resultingVersions" o.payload,
      Assoc.get "sourceSchemaVersion" o.payload with
  | some (.arr snapshot), some (.obj versions), some _ =>
    match orderedSnapshot env snapshot with
    | none => invalidPayload "Match-state replacement snapshot is invalid"
    | some rows =>
      let expected := utf8Sha256 env (canonicalJson (.arr (rows.map .obj)))
      let same ← compareDigest (pyStr env (getD "snapshotDigest" (.str "") o.payload)) expected
      if same then
        let states ← rows.foldlM (replaceState o env versions) []
        .ok { data with matchStates := states }
      else invalidPayload "Match-state replacement digest is invalid"
  | _, _, _ => invalidPayload "Match-state replacement payload is invalid"

def resetState (env : Env) (states : Section) (affected : Json) : Except Raised Section := do
  let matchId ← pyItem "matchId" affected
  let row ← pyDictAttr "get" affected
  .ok (Assoc.set (pyStr env matchId)
    ([("status", .str "scheduled"), ("deleted", .bool true)] ++
      versionReceipt o (getD "version" .null row)) states)

def upsertState (states : Section) (update : String × Json) : Except Raised Section := do
  match update.2 with
  | .obj payload =>
    let versions ← pyDictAttr "get" (getD "resultingVersions" (.obj []) o.payload)
    .ok (Assoc.set update.1
      (Assoc.merge payload (versionReceipt o (getD update.1 .null versions))) states)
  | j => typeError ("'" ++ pyType j ++ "' object is not a mapping")

def payloadKey (key : String) : Json := getD key .null o.payload

def setAggregate (s : Section) (payload : JsonObject) : Section :=
  Assoc.set o.aggregateId (Assoc.merge payload (receipt o)) s

/-- The chain of command types; a type outside it changes nothing. -/
def applyCommand (env : Env) (data : ProjectionData) : Except Raised ProjectionData := do
  match projectionCommand o.commandType with
  | .competitionReplace =>
    let roster := [("players", getD "players" (.arr []) o.payload),
      ("bracketPlayers", getD "bracketPlayers" (.arr []) o.payload)]
    .ok { data with roster := some roster }
  | .recordResult =>
    let bracket :=
      match Assoc.get "bracketSnapshot" o.payload with
      | some (.obj snapshot) => some (.obj snapshot)
      | _ => data.bracket
    .ok { data with
      bracketResults := setAggregate o data.bracketResults
        (Assoc.erase "bracketSnapshot" o.payload)
      bracket := bracket }
  | .matchState =>
    .ok { data with matchStates := setAggregate o data.matchStates o.payload }
  | .matchStateReplace => replaceMatchStates o env data
  | .matchStateResetAll =>
    let affected ← pyIter (getD "affectedMatches" (.arr []) o.payload)
    let states ← affected.foldlM (resetState o env) data.matchStates
    .ok { data with matchStates := states }
  | .matchStateBulkUpsert =>
    let updates ← pyDictAttr "items" (getD "updates" (.obj []) o.payload)
    let states ← updates.foldlM (upsertState o) data.matchStates
    .ok { data with matchStates := states }
  | .scheduleCommit =>
    .ok { data with schedule := some (Assoc.merge o.payload (receipt o)) }
  | .rosterReplace =>
    let players ← pyList (payloadKey o "players")
    let bracketPlayers ← pyList (payloadKey o "bracketPlayers")
    let changes ← pyList (payloadKey o "changes")
    let roster := [("players", .arr players), ("bracketPlayers", .arr bracketPlayers),
      ("changes", .arr changes), ("operationId", .str o.operationId), ("sequence", .int o.sequence)]
    .ok { data with roster := some roster }
  | .bracketPin =>
    let pin := [("playUnitId", payloadKey o "playUnitId"), ("slotId", payloadKey o "slotId"),
      ("courtId", payloadKey o "courtId"), ("operationId", .str o.operationId),
      ("sequence", .int o.sequence)]
    .ok { data with bracket := some (payloadKey o "bracketSnapshot"), bracketPin := some pin }
  | .bracketMatchAction =>
    .ok { data with
      bracketMatchActions := some (setAggregate o (data.bracketMatchActions.getD []) o.payload) }
  | .bracketAssignment =>
    .ok { data with
      bracketAssignments := some (setAggregate o (data.bracketAssignments.getD []) o.payload) }
  | .lifecycleReplace =>
    let lifecycle := [("action", payloadKey o "action"), ("operationId", .str o.operationId),
      ("sequence", .int o.sequence)]
    .ok { data with
      bracket := some (payloadKey o "bracketSnapshot"), bracketLifecycle := some lifecycle }
  | .lifecycleDelete =>
    let lifecycle := [("action", .str "delete"), ("operationId", .str o.operationId),
      ("sequence", .int o.sequence)]
    .ok { data with bracket := some .null, bracketLifecycle := some lifecycle }
  | .other => .ok data

def competitionOf : Option JsonObject :=
  match Assoc.get "competition" o.payload with
  | some (.obj competition) => some competition
  | _ => none

/-- `data.setdefault("normalized", {})["competition"] = …`. -/
def setCompetition (data : ProjectionData) : ProjectionData :=
  match competitionOf o with
  | some competition => { data with normalized := some competition }
  | none => data

def applyCloudProjectionData (env : Env) (data : ProjectionData) : Except Raised ProjectionData :=
  applyCommand o env (setCompetition o data)

end

end Sync
