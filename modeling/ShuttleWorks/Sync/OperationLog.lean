import ShuttleWorks.Sync.Transfer

/-! The event node's operation log: sequence allocation, appending with an
outbox row, and the envelope an operation travels in. -/

namespace Sync
open Lib

/-- Reserve the next sequence of an epoch. -/
def allocateOperationSequence (s : Store) (tournamentId : Uuid) (authorityEpoch : Nat) :
    Except Raised (Nat × Store) := do
  let s := ensureOperationSequence s tournamentId authorityEpoch
  let row ← found (s.operationSequences.get (tournamentId, authorityEpoch)) 409
    "sequence_allocator_missing" "Operation sequence allocator is unavailable"
  let taken := { row with nextSequence := row.nextSequence + 1 }
  .ok (row.nextSequence, { s with operationSequences := s.operationSequences.put taken })

/-- What a caller asks to be logged. -/
structure LocalOperation where
  actorId : Uuid
  commandType : String
  aggregateType : String
  aggregateId : String
  payload : JsonObject
  expectedVersion : Option Nat := none
  operationId : Option Uuid := none
  occurredAtLocal : Option Timestamp := none
  traceparent : Option String := none
  deriving DecidableEq

def carriesCompetition (commandType : String) : Bool :=
  commandType ∈ ["roster.replace.v1", "bracket.lifecycle.replace.v1", "bracket.lifecycle.delete.v1"]

/-- Values drawn while an operation is appended: the tournament's package and
competition slice, and fresh identifiers and the clock. -/
structure AppendInputs where
  checkpoint : JsonObject
  competition : JsonObject
  token : String
  freshId : Uuid
  now : Timestamp
  deriving DecidableEq

/-- Append an operation and its outbox row inside the caller's transaction. -/
def appendLocalOperation (env : Env) (s : Store) (actor : Option TransitionActor)
    (tournamentId nodeId : Uuid) (op : LocalOperation) (inputs : AppendInputs) :
    Except Raised (EventOperation × Store) := do
  let payload :=
    if carriesCompetition op.commandType then
      Assoc.set "competition" (.obj inputs.competition) op.payload
    else op.payload
  let (authority, s) ← ensureLocalAuthority env s actor tournamentId nodeId inputs.checkpoint
    inputs.token inputs.now
  let (sequence, s) ← allocateOperationSequence s tournamentId authority.epoch
  let operation : EventOperation :=
    { operationId := op.operationId.getD inputs.freshId
      tournamentId := tournamentId
      nodeId := nodeId
      authorityEpoch := authority.epoch
      sequence := sequence
      actorId := op.actorId
      commandType := op.commandType
      aggregateType := op.aggregateType
      aggregateId := op.aggregateId
      expectedVersion := op.expectedVersion
      payload := payload
      occurredAtLocal := op.occurredAtLocal.getD inputs.now
      acceptedAtNode := inputs.now
      traceparent := op.traceparent
      schemaVersion := currentOperationSchemaVersion }
  let s ← s.insertOperation env operation
  match s.outbox.insert { operationId := operation.operationId } with
  | none => .error (integrityError env "sync_outbox_pkey")
  | some outbox => .ok (operation, { s with outbox := outbox })

/-- The envelope of a stored operation; `column` is how the database's timestamp
column gives back an instant it was given. -/
def EventOperation.envelope (column : Timestamp → Timestamp) (o : EventOperation) :
    OperationEnvelope :=
  { operationId := o.operationId
    eventId := o.tournamentId
    nodeId := o.nodeId
    authorityEpoch := o.authorityEpoch
    sequence := o.sequence
    actorId := o.actorId
    commandType := o.commandType
    aggregateType := o.aggregateType
    aggregateId := o.aggregateId
    expectedVersion := o.expectedVersion
    payload := o.payload
    occurredAtLocal := column o.occurredAtLocal
    acceptedAtNode := column o.acceptedAtNode
    traceparent := o.traceparent
    schemaVersion := o.schemaVersion }

/-- The schema's bounds are checked again when the envelope is built. -/
def operationToEnvelope (column : Timestamp → Timestamp) (o : EventOperation) :
    Except Raised OperationEnvelope :=
  if (o.envelope column).WellFormed then .ok (o.envelope column)
  else .error (.exception "ValidationError" "OperationEnvelope")

/-! ## Rebuilding a projection from a checkpoint and the receipted operations of an epoch -/

section
variable (env : Env) (column : Timestamp → Timestamp)

/-- The replay checks on one operation, given the sequence it must have. -/
def checkReplay (s : Store) (authority : TournamentAuthority) (expectedSequence : Nat)
    (o : EventOperation) : Except Raised Nat := do
  require (o.sequence = expectedSequence) 409 "rebuild_sequence_gap"
    "Accepted operations are not contiguous"
    [("expected_sequence", .int expectedSequence), ("actual_sequence", .int o.sequence)]
  require (o.nodeId = authority.nodeId) 409 "rebuild_scope_mismatch"
    "Operation node does not match authority"
  require (supportsOperationSchema o.schemaVersion) 409 "unsupported_operation_schema"
    "Operation schema is incompatible"
  require (o.commandType ∈ authority.allowedCommandClasses.getD []) 409
    "command_class_not_granted" "Operation command class is outside the signed authority grant"
  require ((s.inboxOf authority.key).any (fun r =>
      r.operationId = o.operationId ∧ r.sequence = o.sequence)) 409 "rebuild_receipt_missing"
    "Accepted operation has no matching cloud receipt"
  .ok (expectedSequence + 1)

def replay (data : ProjectionData) (o : EventOperation) : Except Raised ProjectionData := do
  let envelope ← operationToEnvelope column o
  applyCloudProjectionData envelope env data

/-- The immutable baseline a rebuilt document records. -/
def baseline (checkpoint : JsonObject) (checkpointHash : String) : Json :=
  .obj [("checkpointSchemaVersion", getD "checkpointSchemaVersion" .null checkpoint),
    ("checkpointHash", .str checkpointHash), ("stateVersion", getD "stateVersion" (.int 0) checkpoint),
    ("normalized", getD "normalized" .null checkpoint)]

/-- Atomically rebuild a cloud projection from a checkpoint and receipts. Every
state of an authority can be rebuilt from. -/
def rebuildCloudProjection (s : Store) (checkpoint : JsonObject) (checkpointHash : String)
    (authorityEpoch : Nat) : Except Raised (CloudEventProjection × Store) := do
  let tournamentId ← validateCheckpoint env checkpoint (some checkpointHash)
  let authority ← found (s.authorities.get (tournamentId, authorityEpoch)) 404
    "authority_not_found" "Authority epoch does not exist"
  require (authority.checkpointHash = checkpointHash) 409 "checkpoint_hash_mismatch"
    "Rebuild checkpoint does not match the authority epoch"
  require (pyEqInt authority.checkpointSchemaVersion
      (getD "checkpointSchemaVersion" .null checkpoint)) 409 "unsupported_checkpoint_schema"
    "Rebuild checkpoint schema does not match the authority epoch"
  let operations := s.operationsOf (tournamentId, authorityEpoch)
  let expectedSequence ← operations.foldlM (checkReplay s authority) 1
  let highest := expectedSequence - 1
  let actualSequence := cloudCursor s tournamentId authorityEpoch
  require (actualSequence = highest) 409 "rebuild_cursor_mismatch"
    "Cloud sync cursor does not match accepted operations"
    [("expected_sequence", .int highest), ("actual_sequence", .int actualSequence)]
  let data ← operations.foldlM (replay env column)
    { checkpoint := some (baseline checkpoint checkpointHash) }
  let projection : CloudEventProjection :=
    { tournamentId := tournamentId, authorityEpoch := authorityEpoch, lastSequence := highest,
      data := data }
  .ok (projection, { s with projections := s.projections.put projection })

end

end Sync
