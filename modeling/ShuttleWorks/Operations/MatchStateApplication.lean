import ShuttleWorks.Operations.LiveStore

/-! The transaction boundary of live match-state writes and the routes in front
of it. A write that raises is rolled back, so each use case answers with the new
store or an error. -/

namespace Operations
open Lib Sync

section
variable (c : Settings) (x : Ambient) (tournamentId actorId : Uuid)

/-! ## One match -/

def MatchStateApplication.update (s : LiveStore) (matchId : String) (fields : MatchStateFields)
    (target : MatchStatus) (expectedVersion : Nat) :
    Except LiveError ((MatchState × Match) × LiveStore) := do
  -- The transition is checked on the row as it was before the write.
  let previous := s.matchRows.get (tournamentId, matchId)
  let (canonical, s) ← s.setStatus tournamentId matchId target (some expectedVersion)
  let _ ← transitionMatch matchId ((previous.map Match.machineVersion).getD 1)
    ((previous.map Match.status).getD .scheduled) target
  let (state, s) := s.upsertState tournamentId matchId fields
  let s ← appendIfEventNode c s x tournamentId
    { actorId := actorId
      commandType := "match_state.update.v1"
      aggregateType := "match"
      aggregateId := matchId
      payload := Assoc.merge [("status", .str target.value)] fields.toJson
      expectedVersion := some expectedVersion }
  .ok ((state, canonical), s)

def MatchStateApplication.delete (s : LiveStore) (matchId : String) (expectedVersion : Nat) :
    Except LiveError (Match × LiveStore) := do
  let previous := s.matchRows.get (tournamentId, matchId)
  let s := s.deleteState tournamentId matchId
  let (canonical, s) ← s.setStatus tournamentId matchId .scheduled (some expectedVersion)
  let _ ← transitionMatch matchId ((previous.map Match.machineVersion).getD 1)
    ((previous.map Match.status).getD .scheduled) .scheduled
  let s ← appendIfEventNode c s x tournamentId
    { actorId := actorId
      commandType := "match_state.delete.v1"
      aggregateType := "match"
      aggregateId := matchId
      payload := [("status", .str MatchStatus.scheduled.value), ("deleted", .bool true)]
      expectedVersion := some expectedVersion }
  .ok (canonical, s)

/-! ## Every match -/

def affectedMatch (m : Match) (status : MatchStatus) : Json :=
  .obj [("matchId", .str m.id), ("status", .str status.value), ("version", .int m.version)]

/-- Back to scheduled, if the row is elsewhere. -/
def resetMatch (s : LiveStore) (row : Match) : Except LiveError (Match × LiveStore) :=
  if row.status = .scheduled then .ok (row, s)
  else s.setStatus tournamentId row.id .scheduled (some row.version)

def resetAffected (acc : List Json × LiveStore) (row : Match) :
    Except LiveError (List Json × LiveStore) := do
  let (canonical, s) ← resetMatch tournamentId acc.2 row
  .ok (acc.1 ++ [affectedMatch canonical .scheduled], s)

/-- `int(payload.get("clearedStateCount", 0))`. -/
def clearedStateCount (o : EventOperation) : Except LiveError Int :=
  match getD "clearedStateCount" (.int 0) o.payload with
  | .int n => .ok n
  | .bool b => .ok (if b then 1 else 0)
  | j => .error (.sync (.exception "TypeError"
      ("int() argument must be a string, a bytes-like object or a real number, not '" ++
        pyType j ++ "'")))

/-- Reset the exact current match set in one retry-safe transaction. -/
def MatchStateApplication.resetAll (s : LiveStore) (operationId : Uuid) :
    Except LiveError (Int × LiveStore) := do
  match s.sync.operations.get operationId with
  | some existing =>
    if existing.tournamentId ≠ tournamentId ∨
        existing.commandType ≠ "match_state.reset_all.v1" then
      .error (.value "operation id is already used by another command")
    else
      let cleared ← clearedStateCount existing
      .ok (cleared, s)
  | none =>
    let (cleared, s) := s.resetStates tournamentId
    let (affected, s) ← (s.listForTournament tournamentId).foldlM (resetAffected tournamentId) ([], s)
    let s ← appendIfEventNode c s x tournamentId
      { actorId := actorId
        commandType := "match_state.reset_all.v1"
        aggregateType := "match"
        aggregateId := tournamentId
        payload := [("clearedStateCount", .int cleared), ("affectedMatches", .arr affected)]
        operationId := some operationId }
    .ok (cleared, s)

/-! ## Merging and replacing -/

/-- `json.dumps(value, sort_keys=True, separators=(",", ":"))`, which escapes
whatever is not ASCII. -/
def compactJson (value : Json) : String := String.ofList (value.dumps Json.escapeAscii)

def keyLengthError {α : Type} : Except LiveError α :=
  .error (.value "Idempotency-Key must be between 1 and 200 characters")

def mergeMatch (acc : List Match × LiveStore) (p : String × MatchStateFields) :
    Except LiveError (List Match × LiveStore) := do
  let (row, s) ← acc.2.setStatus tournamentId p.1 p.2.status.canonical
  .ok (acc.1 ++ [row], s)

/-- Merge a sorted state map and record one replayable operation. -/
def MatchStateApplication.bulkMerge (s : LiveStore) (updates : List (String × MatchStateFields))
    (idempotencyKey : String) : Except LiveError (JsonObject × LiveStore) := do
  if idempotencyKey = "" ∨ 200 < idempotencyKey.length then keyLengthError
  else
    let fingerprint := utf8Sha256 c.env
      (compactJson (.obj (updates.map (fun p => (p.1, .obj p.2.toJson)))))
    let operationId := c.uuid5
      ("shuttleworks:match-state-bulk:" ++ tournamentId ++ ":" ++ idempotencyKey)
    match s.sync.operations.get operationId with
    | some existing =>
      if Assoc.get "requestHash" existing.payload ≠ some (.str fingerprint) then
        .error (.value "Idempotency-Key was already used with a different payload")
      else .ok (existing.payload, s)
    | none =>
      let fieldsMap := updates.insertionSort (fun p q => p.1 ≤ q.1)
      let (rows, s) ← fieldsMap.foldlM (mergeMatch tournamentId) ([], s)
      let s := fieldsMap.foldl (fun s p => (s.upsertState tournamentId p.1 p.2).2) s
      let payload : JsonObject :=
        [("requestHash", .str fingerprint),
          ("updates", .obj (fieldsMap.map (fun p => (p.1, .obj p.2.toJson)))),
          ("resultingVersions", .obj (rows.map (fun m => (m.id, .int m.version)))),
          ("affectedMatches", .arr (rows.map (fun m => affectedMatch m m.status)))]
      let s ← appendIfEventNode c s x tournamentId
        { actorId := actorId
          commandType := "match_state.bulk_upsert.v1"
          aggregateType := "match"
          aggregateId := tournamentId
          payload := payload
          operationId := some operationId }
      .ok (payload, s)

/-- What an upload replaces the match states with. -/
structure Replacement where
  updates : List (String × MatchStateFields)
  statuses : List (String × MatchStatus)
  snapshot : List JsonObject
  lastUpdated : Json
  sourceSchemaVersion : Json

def orderedRows (env : Env) (snapshot : List JsonObject) : List JsonObject :=
  let sortKey (row : JsonObject) := pyStr env (getD "matchId" (.str "") row)
  snapshot.insertionSort (fun a b => sortKey a ≤ sortKey b)

/-- A row the upload does not name goes back to scheduled. -/
def resetUnnamed (statuses : List (String × MatchStatus)) (acc : JsonObject × LiveStore)
    (row : Match) : Except LiveError (JsonObject × LiveStore) := do
  if Assoc.get row.id statuses = none ∧ row.status ≠ .scheduled then
    let (canonical, s) ← acc.2.setStatus tournamentId row.id .scheduled (some row.version)
    .ok (Assoc.set row.id (.int canonical.version) acc.1, s)
  else .ok acc

def importMatch (statuses : List (String × MatchStatus)) (acc : JsonObject × LiveStore)
    (p : String × MatchStateFields) : Except LiveError (JsonObject × LiveStore) := do
  match Assoc.get p.1 statuses with
  | none => .error (.sync (.exception "KeyError" ("'" ++ p.1 ++ "'")))
  | some status =>
    let (canonical, s) ← acc.2.setStatus tournamentId p.1 status
    .ok (Assoc.set p.1 (.int canonical.version) acc.1, (s.upsertState tournamentId p.1 p.2).2)

/-- The operation an import would be recorded as; none where nothing is recorded. -/
def importOperationId (idempotencyKey : String) : Except LiveError (Option Uuid) := do
  match ← eventNodeId c "mutations" with
  | none => .ok none
  | some _ =>
    if idempotencyKey = "" then
      .error (.value "Idempotency-Key header required for event-node imports")
    else .ok (some (c.uuid5
      ("shuttleworks:match-state-replace:" ++ tournamentId ++ ":" ++ idempotencyKey)))

/-- The answer to an import made before under the same key. -/
def replayedImport (existing : EventOperation) (snapshotDigest : String) :
    Except LiveError JsonObject :=
  if existing.commandType ≠ "match_state.replace.v1" then
    .error (.value "Idempotency-Key is already used by another operation")
  else if Assoc.get "snapshotDigest" existing.payload ≠ some (.str snapshotDigest) then
    .error (.value "Idempotency-Key was already used with a different snapshot")
  else
    match getD "response" .null existing.payload with
    | .obj response => .ok response
    | _ => .ok []

/-- Replace all match state in one transaction and operation. -/
def MatchStateApplication.replaceImport (s : LiveStore) (r : Replacement)
    (idempotencyKey : String) : Except LiveError (JsonObject × LiveStore) := do
  if idempotencyKey = "" ∨ 200 < idempotencyKey.length then keyLengthError
  else
    let orderedSnapshot := orderedRows c.env r.snapshot
    let snapshotDigest := utf8Sha256 c.env (compactJson (.arr (orderedSnapshot.map .obj)))
    let operationId ← importOperationId c tournamentId idempotencyKey
    match operationId.bind s.sync.operations.get with
    | some existing =>
      let response ← replayedImport existing snapshotDigest
      .ok (response, s)
    | none =>
      let s := (s.resetStates tournamentId).2
      let (versions, s) ← (s.listForTournament tournamentId).foldlM
        (resetUnnamed tournamentId r.statuses) ([], s)
      let updates := r.updates.insertionSort (fun p q => p.1 ≤ q.1)
      let (versions, s) ← updates.foldlM (importMatch tournamentId r.statuses) (versions, s)
      let response : JsonObject :=
        [("message", .str "Tournament state imported successfully"),
          ("matchCount", .int r.updates.length), ("lastUpdated", r.lastUpdated)]
      let s ← appendIfEventNode c s x tournamentId
        { actorId := actorId
          commandType := "match_state.replace.v1"
          aggregateType := "match"
          aggregateId := tournamentId
          payload := [("idempotencyKey", .str idempotencyKey),
            ("sourceSchemaVersion", r.sourceSchemaVersion), ("snapshotDigest", .str snapshotDigest),
            ("snapshot", .arr (orderedSnapshot.map .obj)), ("resultingVersions", .obj versions),
            ("response", .obj response)]
          operationId := operationId }
      .ok (response, s)

end

/-! ## The wire document -/

/-- A text of bounded length. -/
abbrev Bounded (least most : Nat) := {t : String // least ≤ t.length ∧ t.length ≤ most}

abbrev TimestampText := Bounded 0 64

/-- A validated match-state document. -/
structure MatchStateDTO where
  matchId : Bounded 1 100
  status : WireStatus := .scheduled
  calledAt : Option TimestampText := none
  actualStartTime : Option TimestampText := none
  actualEndTime : Option TimestampText := none
  score : Option MatchScore := none
  sets : Option {xs : List MatchScore // xs.length ≤ 5} := none
  notes : Option (Bounded 0 2000) := none
  updatedAt : Option TimestampText := none
  originalSlotId : Option (Fin 10001) := none
  originalCourtId : Option (Fin 65) := none
  deriving DecidableEq

namespace MatchStateDTO

/-- `model_dump(mode="json")`. -/
def modelDump (d : MatchStateDTO) : JsonObject :=
  [("matchId", .str d.matchId.val), ("status", .str d.status.text),
    ("calledAt", jsonText (d.calledAt.map Subtype.val)),
    ("actualStartTime", jsonText (d.actualStartTime.map Subtype.val)),
    ("actualEndTime", jsonText (d.actualEndTime.map Subtype.val)),
    ("score", jsonOption MatchScore.modelDump d.score),
    ("sets", jsonScores (d.sets.map Subtype.val)), ("notes", jsonText (d.notes.map Subtype.val)),
    ("updatedAt", jsonText (d.updatedAt.map Subtype.val)),
    ("originalSlotId", jsonNat (d.originalSlotId.map Fin.val)),
    ("originalCourtId", jsonNat (d.originalCourtId.map Fin.val))]

/-- `_dto_to_fields`. -/
def toFields (d : MatchStateDTO) : MatchStateFields where
  status := d.status
  calledAt := d.calledAt.map Subtype.val
  actualStartTime := d.actualStartTime.map Subtype.val
  actualEndTime := d.actualEndTime.map Subtype.val
  notes := d.notes.map Subtype.val
  originalSlotId := d.originalSlotId.map Fin.val
  originalCourtId := d.originalCourtId.map Fin.val
  setScores := d.sets.map Subtype.val
  scoreSideA := d.score.map (fun x => x.sideA.val)
  scoreSideB := d.score.map (fun x => x.sideB.val)

end MatchStateDTO

/-- A parsed upload: the documents under distinct match ids, in file order. -/
structure MatchStatesUpload where
  matchStates : List MatchStateDTO
  distinct : (matchStates.map (fun d => d.matchId.val)).Nodup
  lastUpdated : Json
  version : Json

/-- The snapshot as the route hands it over. -/
def MatchStatesUpload.snapshot (u : MatchStatesUpload) : List JsonObject :=
  (u.matchStates.insertionSort (fun d e => d.matchId.val ≤ e.matchId.val)).map
    (fun d => Assoc.merge [("matchId", .str d.matchId.val)] d.modelDump)

def MatchStatesUpload.replacement (u : MatchStatesUpload) : Replacement where
  updates := u.matchStates.map (fun d => (d.matchId.val, d.toFields))
  statuses := u.matchStates.map (fun d => (d.matchId.val, d.status.canonical))
  snapshot := u.snapshot
  lastUpdated := u.lastUpdated
  sourceSchemaVersion := u.version

/-! ## Routes -/

/-- The `If-Match` header; an unreadable one keeps Python's text of it. -/
inductive IfMatch
  | missing
  | unreadable (raw : String)
  | version (n : Int)
  deriving DecidableEq

section
variable (c : Settings) (x : Ambient) (tournamentId : Uuid)

def ensureTournament (s : LiveStore) : Except LiveError Unit :=
  if s.sync.tournaments.Has tournamentId then .ok ()
  else .error (.http 404 "STATE_CORRUPT" ("tournament not found: " ++ tournamentId))

def requireActor (user : Option Uuid) (message : String) : Except LiveError Uuid :=
  match user with
  | some actorId => .ok actorId
  | none => .error (.http 422 "INVALID_INPUT" message)

def notUuid : String := "current user id is not a UUID"

/-- A match that was never written has version 0. -/
def enforceIfMatch (s : LiveStore) (matchId : String) (header : IfMatch) : Except LiveError Nat :=
  let current := ((s.matchRows.get (tournamentId, matchId)).map Match.version).getD 0
  match header with
  | .missing =>
    .error (.preconditionFailed matchId "If-Match header required for match mutations")
  | .unreadable raw =>
    .error (.preconditionFailed matchId ("If-Match header is not a valid version: " ++ raw))
  | .version n =>
    if n = current then .ok current
    else .error (.preconditionFailed matchId ("Match version is " ++ toString current ++
      "; If-Match sent " ++ toString n ++ ". Reload and retry."))

/-- A conflict keeps its 409; anything else a write raises is reported as a 500. -/
def hideFailure {α : Type} : Except LiveError α → Except LiveError α
  | .ok a => .ok a
  | .error (.conflict e) => .error (.conflict e)
  | .error _ => .error (.http 500 "MATCH_STATE_WRITE_FAILED" "could not persist match state")

def updateMatchState (s : LiveStore) (user : Option Uuid) (matchId : String) (header : IfMatch)
    (document : MatchStateDTO) : Except LiveError ((MatchState × Match) × LiveStore) := do
  ensureTournament tournamentId s
  let seenVersion ← enforceIfMatch tournamentId s matchId header
  let actorId ← requireActor user notUuid
  let target := document.status.canonical
  let current := s.statusOf tournamentId matchId
  if target ≠ current then assertValidTransition matchId current target
  s.assertCourtAvailable tournamentId matchId target
  hideFailure (MatchStateApplication.update c x tournamentId actorId s matchId document.toFields
    target seenVersion)

def deleteMatchState (s : LiveStore) (user : Option Uuid) (matchId : String) (header : IfMatch) :
    Except LiveError (Match × LiveStore) := do
  ensureTournament tournamentId s
  let seenVersion ← enforceIfMatch tournamentId s matchId header
  let actorId ← requireActor user notUuid
  MatchStateApplication.delete c x tournamentId actorId s matchId seenVersion

def resetAllMatchStates (s : LiveStore) (user : Option Uuid) (idempotencyKey : Option Uuid) :
    Except LiveError (Int × LiveStore) := do
  ensureTournament tournamentId s
  let actorId ← requireActor user notUuid
  MatchStateApplication.resetAll c x tournamentId actorId s
    (idempotencyKey.getD x.inputs.freshId)

/-- A `ValueError` of an import is a 409. -/
def valueConflict {α : Type} : Except LiveError α → Except LiveError α
  | .error (.value message) => .error (.http 409 "STATE_VERSION_CONFLICT" message)
  | r => r

def importMatchStates (s : LiveStore) (user : Option Uuid) (upload : MatchStatesUpload)
    (idempotencyKey : String) : Except LiveError (JsonObject × LiveStore) := do
  ensureTournament tournamentId s
  let actorId ← requireActor user notUuid
  valueConflict (MatchStateApplication.replaceImport c x tournamentId actorId s upload.replacement
    idempotencyKey)

/-- The documents of a bulk request, under distinct match ids. -/
structure BulkStates where
  documents : List (String × MatchStateDTO)
  distinct : (documents.map Prod.fst).Nodup

def importMatchStatesBulk (s : LiveStore) (user : Option Uuid) (states : BulkStates)
    (idempotencyKey : String) : Except LiveError (JsonObject × LiveStore) := do
  if states.documents.isEmpty then
    .ok ([("message", .str "No match states to import"), ("importedCount", .int 0)], s)
  else
    let actorId ← requireActor user notUuid
    ensureTournament tournamentId s
    let (_, s') ← valueConflict (MatchStateApplication.bulkMerge c x tournamentId actorId s
      (states.documents.map (fun p => (p.1, p.2.toFields))) idempotencyKey)
    let total := s'.matchStates.rows.countP (fun m => m.tournamentId = tournamentId)
    .ok ([("message", .str "Match states imported successfully"),
      ("importedCount", .int states.documents.length), ("totalStates", .int total)], s')

end

end Operations
