import ShuttleWorks.Sync.Authority

/-! Ordered ingestion on the cloud: validation of a whole batch against the
epoch's cursor, then the projection and the rows of its new operations, all in
one transaction. -/

namespace Sync
open Lib

section
variable (env : Env)

/-! ## Quarantine -/

def quarantine (s : Store) (tournamentId : Uuid) (batch : SyncBatchRequest)
    (o : OperationEnvelope) (reason : String) (detail : JsonObject) : Store :=
  { s with quarantine := s.quarantine ++
    [{ tournamentId := tournamentId
       nodeId := batch.nodeId
       authorityEpoch := batch.authorityEpoch
       operationId := o.operationId
       reasonCode := reason
       detail := Assoc.merge
        [("sequence", .int o.sequence), ("schemaVersion", .int o.schemaVersion)] detail }] }

def quarantineBatch (s : Store) (tournamentId : Uuid) (batch : SyncBatchRequest) (reason : String)
    (detail : JsonObject) : Store :=
  batch.operations.foldl (fun s o => quarantine s tournamentId batch o reason detail) s

/-! ## Validation -/

/-- Why an envelope is quarantined; the refusal carries the same code. -/
structure Rejection where
  reason : String
  message : String
  detail : JsonObject := []
  errorDetail : JsonObject := []
  deriving DecidableEq

def Rejection.error (r : Rejection) : Raised :=
  .protocol ⟨409, r.reason, r.message, r.errorDetail⟩

/-- What the validation loop decides about one envelope. -/
inductive Verdict
  | new
  | duplicate
  | rejected (r : Rejection)
  deriving DecidableEq

def inScope (tournamentId : Uuid) (batch : SyncBatchRequest) (o : OperationEnvelope) : Prop :=
  o.eventId = tournamentId ∧ o.nodeId = batch.nodeId ∧ o.authorityEpoch = batch.authorityEpoch

instance (tournamentId : Uuid) (batch : SyncBatchRequest) (o : OperationEnvelope) :
    Decidable (inScope tournamentId batch o) :=
  inferInstanceAs (Decidable (_ ∧ _ ∧ _))

def judge (s : Store) (authority : TournamentAuthority) (tournamentId : Uuid)
    (batch : SyncBatchRequest) (current expected : Nat) (o : OperationEnvelope) : Verdict :=
  if ¬ inScope tournamentId batch o then
    .rejected { reason := "envelope_scope_mismatch"
                message := "Operation scope does not match batch" }
  else if ¬ supportsOperationSchema o.schemaVersion then
    .rejected { reason := "unsupported_operation_schema"
                message := "Operation schema is incompatible" }
  else if o.commandType ∉ authority.allowedCommandClasses.getD [] then
    .rejected { reason := "command_class_not_granted"
                message := "Operation command class is outside the signed authority grant"
                detail := [("commandType", .str o.commandType)] }
  else
    match s.inbox.get o.operationId with
    | some existing =>
      if existing.sequence ≤ current then .duplicate
      else
        .rejected { reason := "operation_id_collision"
                    message := "Operation ID has conflicting sequence" }
    | none =>
      if o.sequence < expected then
        if s.operations.Has o.operationId then .duplicate
        else
          .rejected { reason := "sequence_collision", message := "Sequence is already occupied" }
      else if o.sequence ≠ expected then
        .rejected { reason := "sequence_gap"
                    message := "Operation batch is not contiguous"
                    detail := [("expectedSequence", .int expected)]
                    errorDetail := [("expected_sequence", .int expected)] }
      else .new

/-- The validation loop: the new operations and the number of duplicates, or
the first envelope that is refused. -/
def validateOperations (s : Store) (authority : TournamentAuthority) (tournamentId : Uuid)
    (batch : SyncBatchRequest) (current : Nat) :
    Nat → List OperationEnvelope →
      Except (OperationEnvelope × Rejection) (List OperationEnvelope × Nat)
  | _, [] => .ok ([], 0)
  | expected, o :: os =>
    match judge s authority tournamentId batch current expected o with
    | .rejected r => .error (o, r)
    | .duplicate =>
      (validateOperations s authority tournamentId batch current expected os).map
        (fun p => (p.1, p.2 + 1))
    | .new =>
      (validateOperations s authority tournamentId batch current (expected + 1) os).map
        (fun p => (o :: p.1, p.2))

/-! ## The session's view of the projection row -/

/-- The projection row as the session has loaded it, beside the document it was
loaded with: on flush the column is written only if the two compare unequal. -/
structure HeldProjection where
  committed : ProjectionData
  row : CloudEventProjection
  deriving DecidableEq

/-- The transaction of one request. A session does not flush by itself: what is
added to it, the database does not hold before the commit. -/
structure Session where
  store : Store
  loaded : Option HeldProjection := none
  pending : List CloudEventProjection := []
  added : List EventOperation := []

/-- INSERT of an operation and of its receipt. -/
def insertReceipted (s : Store) (o : EventOperation) : Except Raised Store := do
  let s ← s.insertOperation env o
  s.insertInbox env
    { operationId := o.operationId, tournamentId := o.tournamentId,
      authorityEpoch := o.authorityEpoch, sequence := o.sequence }

/-- Write the loaded projection row. -/
def writeLoaded (s : Store) : Option HeldProjection → Store
  | none => s
  | some held =>
    let stored := (s.projections.get held.row.tournamentId).map CloudEventProjection.data
    let data := if held.row.data = held.committed then stored.getD held.row.data else held.row.data
    { s with projections := s.projections.put { held.row with data := data } }

def flush (session : Session) : Except Raised Store := do
  let s := writeLoaded session.store session.loaded
  let s ← session.pending.foldlM (fun s row => s.insertProjection env row) s
  session.added.foldlM (insertReceipted env) s

def Store.loadProjection (s : Store) (tournamentId : Uuid) : Option HeldProjection :=
  (s.projections.get tournamentId).map fun row => ⟨row.data, row⟩

/-- `session.get(CloudEventProjection, …)`: a loaded row comes from the identity
map, any other from the database. Rows that are only added are not found. -/
def getProjection (session : Session) (tournamentId : Uuid) : Session :=
  match session.loaded with
  | some _ => session
  | none => { session with loaded := session.store.loadProjection tournamentId }

/-- Fold an operation into the loaded row. The new document is a shallow copy, so
an existing `normalized` dictionary is shared with the loaded document and its
competition slice changes in both. -/
def HeldProjection.fold (o : OperationEnvelope) (held : HeldProjection) :
    Except Raised HeldProjection := do
  let data ← applyCloudProjectionData o env held.row.data
  let committed :=
    if held.committed.normalized.isSome then setCompetition o held.committed else held.committed
  .ok ⟨committed, { held.row with data := data, lastSequence := o.sequence }⟩

/-- The row of an operation on a document of its own. -/
def firstRow (o : OperationEnvelope) (d : ProjectionData) : CloudEventProjection :=
  { tournamentId := o.eventId, authorityEpoch := o.authorityEpoch, lastSequence := o.sequence,
    data := d }

/-- Update disposable projection state from one accepted operation. Without a
loaded row of its epoch, the operation adds a row under the same key. -/
def applyCloudProjection (session : Session) (o : OperationEnvelope) : Except Raised Session := do
  let session := getProjection session o.eventId
  match session.loaded.filter fun held => held.row.authorityEpoch = o.authorityEpoch with
  | some held =>
    let held ← held.fold env o
    .ok { session with loaded := some held }
  | none =>
    let data ← applyCloudProjectionData o env {}
    .ok { session with pending := session.pending ++ [firstRow o data] }

/-! ## The transaction -/

/-- The row stored for an accepted envelope. -/
def EventOperation.ofEnvelope (tournamentId : Uuid) (o : OperationEnvelope) : EventOperation :=
  { operationId := o.operationId
    tournamentId := tournamentId
    nodeId := o.nodeId
    authorityEpoch := o.authorityEpoch
    sequence := o.sequence
    actorId := o.actorId
    commandType := o.commandType
    aggregateType := o.aggregateType
    aggregateId := o.aggregateId
    expectedVersion := o.expectedVersion
    payload := o.payload
    occurredAtLocal := o.occurredAtLocal
    acceptedAtNode := o.acceptedAtNode
    traceparent := o.traceparent
    schemaVersion := o.schemaVersion }

/-- The apply loop; an exception comes with the operation it stopped at. -/
def applyOperations (tournamentId : Uuid) :
    Session → List OperationEnvelope → Except (OperationEnvelope × Raised) Session
  | session, [] => .ok session
  | session, o :: os =>
    match applyCloudProjection env session o with
    | .error e => .error (o, e)
    | .ok session =>
      applyOperations tournamentId
        { session with added := session.added ++ [.ofEnvelope tournamentId o] } os

/-- Advance the cursor from `current`, where another request may have moved it,
and flush. -/
def commitBatch (session : Session) (tournamentId : Uuid) (authorityEpoch current highest : Nat) :
    Except Raised Store := do
  require ((session.store.checkpoints.get (tournamentId, authorityEpoch)).any
      (fun c => c.highestContiguousSequence = current)) 503 "ingestion_retry_required"
    "Another request advanced this authority epoch; retry the batch"
  let s ← flush env session
  let checkpoint : SyncCheckpoint :=
    { tournamentId := tournamentId, authorityEpoch := authorityEpoch,
      highestContiguousSequence := highest }
  .ok { s with checkpoints := s.checkpoints.put checkpoint }

def applyFailure : Raised → Rejection × Raised
  | .protocol e =>
    ({ reason :=
        if e.code = "version_conflict" ∨ e.code = "stale_version" then "version_conflict"
        else "projection_apply_failed"
       message := e.message
       detail := [("error", .str e.code), ("message", .str e.message)] }, .protocol e)
  | .exception type message =>
    ({ reason := "projection_apply_failed"
       message := "Operation could not be applied"
       detail := [("error", .str type),
        ("message", .str (String.ofList (message.toList.take 500)))] },
      .protocol ⟨409, "projection_apply_failed", "Operation could not be applied", []⟩)

/-- The checks on the path and the node before the batch is read: the authority
and its cursor. -/
def admitBatch (s : Store) (tournamentId : Uuid) (capability : String) (batch : SyncBatchRequest)
    (authority : TournamentAuthority) : Except Raised SyncCheckpoint := do
  require (authority.nodeId = batch.nodeId ∧ capabilityMatches env authority capability) 403
    "invalid_authority_capability" "Node capability is invalid"
  let tournament ← getTournament s tournamentId
  let _ ← enrolledDevice env s tournament batch.nodeId
  found (s.checkpoints.get (tournamentId, batch.authorityEpoch)) 503 "ingestion_retry_required"
    "Authority cursor is unavailable; retry the batch"

/-- One attempt at a batch. -/
def ingestOnce (s : Store) (tournamentId : Uuid) (capability : String) (batch : SyncBatchRequest) :
    Store × Except Raised SyncBatchResponse :=
  let wrongEpoch : Store × Except Raised SyncBatchResponse :=
    (if s.tournaments.Has tournamentId then
        quarantineBatch s tournamentId batch "wrong_authority_epoch"
          [("authorityEpoch", .int batch.authorityEpoch)]
      else s,
      refuse 409 "wrong_authority_epoch" "Authority epoch is not active")
  match s.authorities.get (tournamentId, batch.authorityEpoch) with
  | none => wrongEpoch
  | some authority =>
    if authority.state ≠ .active then wrongEpoch
    else
      match admitBatch env s tournamentId capability batch authority with
      | .error e => (s, .error e)
      | .ok checkpoint =>
        let current := checkpoint.highestContiguousSequence
        match validateOperations s authority tournamentId batch current (current + 1)
            batch.operations with
        | .error (o, r) => (quarantine s tournamentId batch o r.reason r.detail, .error r.error)
        | .ok (newOperations, duplicates) =>
          match applyOperations env tournamentId { store := s } newOperations with
          | .error (o, e) =>
            let (r, raised) := applyFailure e
            (quarantine s tournamentId batch o r.reason r.detail, .error raised)
          | .ok session =>
            let highest := current + newOperations.length
            match commitBatch env session tournamentId batch.authorityEpoch current highest with
            | .error e => (s, .error e)
            | .ok s' =>
              (s', .ok
                { highestContiguousSequence := highest
                  accepted := newOperations.length
                  duplicates := duplicates })

/-- Accept a batch; a uniqueness violation at commit is taken for a race and
retried once. -/
def ingestBatch (s : Store) (tournamentId : Uuid) (capability : String)
    (batch : SyncBatchRequest) : Store × Except Raised SyncBatchResponse :=
  match ingestOnce env s tournamentId capability batch with
  | (s₁, .error e) =>
    if e.isIntegrityError then
      match ingestOnce env s₁ tournamentId capability batch with
      | (s₂, .error e₂) =>
        if e₂.isIntegrityError then
          (s₂, refuse 503 "ingestion_retry_required"
            "Concurrent ingestion conflicted; retry from the acknowledged cursor")
        else (s₂, .error e₂)
      | r => r
    else (s₁, .error e)
  | r => r

end

end Sync
