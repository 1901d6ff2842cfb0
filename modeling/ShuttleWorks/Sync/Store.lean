import ShuttleWorks.Lib.Table
import ShuttleWorks.Sync.ProjectionData

/-! The tables of the synchronization protocol. One `Store` serves as a cloud
database or as an event node's: both run the same schema. Primary keys are kept
by `Lib.Table`; the secondary uniqueness constraints by the insertions below. -/

namespace Sync
open Lib

/-! ## Rows -/

structure Tournament where
  id : Uuid
  orgId : Option Uuid
  deriving DecidableEq

structure EventNodeDevice where
  deviceId : Uuid
  orgId : Uuid
  label : String
  publicKey : String
  enrolledBy : Uuid
  revokedAt : Option Timestamp := none
  revocationReason : Option String := none
  deriving DecidableEq

inductive AuthorityState
  | preparing
  | active
  | closed
  | recovered
  | cloud
  deriving DecidableEq

def AuthorityState.live : AuthorityState → Bool
  | .preparing | .active => true
  | .closed | .recovered | .cloud => false

structure TournamentAuthority where
  tournamentId : Uuid
  epoch : Nat
  nodeId : Uuid
  state : AuthorityState
  checkpointHash : String
  checkpointSchemaVersion : Nat
  capabilityDigest : String
  grant : Option Json := none
  grantSignature : Option String := none
  grantKeyId : Option String := none
  allowedCommandClasses : Option (List String) := none
  readyAt : Option Timestamp := none
  closedAt : Option Timestamp := none
  recoveryReason : Option String := none
  deriving DecidableEq

inductive TransitionType
  | checkout
  | checkpointImport
  | localInitialization
  | returnToCloud
  | plannedTransfer
  | lostNodeRecovery
  deriving DecidableEq

structure AuthorityTransition where
  tournamentId : Uuid
  transitionType : TransitionType
  fromEpoch : Option Nat
  toEpoch : Option Nat
  actorId : Uuid
  deviceId : Uuid
  reason : String
  declaredLastSequence : Option Nat
  evidenceHash : Option String
  detail : JsonObject
  deriving DecidableEq

structure EventOperation where
  operationId : Uuid
  tournamentId : Uuid
  nodeId : Uuid
  authorityEpoch : Nat
  sequence : Nat
  actorId : Uuid
  commandType : String
  aggregateType : String
  aggregateId : String
  expectedVersion : Option Nat
  payload : JsonObject
  occurredAtLocal : Timestamp
  acceptedAtNode : Timestamp
  traceparent : Option String
  schemaVersion : Nat
  deriving DecidableEq

structure EventOperationSequence where
  tournamentId : Uuid
  authorityEpoch : Nat
  nextSequence : Nat
  deriving DecidableEq

/-- Delivery state on the node; instants are microseconds. -/
structure SyncOutbox where
  operationId : Uuid
  attemptCount : Nat := 0
  nextAttemptAt : Option Int := none
  acknowledgedAt : Option Int := none
  permanentlyBlockedAt : Option Int := none
  lastErrorCode : Option String := none
  deriving DecidableEq

structure SyncInbox where
  operationId : Uuid
  tournamentId : Uuid
  authorityEpoch : Nat
  sequence : Nat
  deriving DecidableEq

structure SyncCheckpoint where
  tournamentId : Uuid
  authorityEpoch : Nat
  highestContiguousSequence : Nat
  deriving DecidableEq

structure CloudEventProjection where
  tournamentId : Uuid
  authorityEpoch : Nat
  lastSequence : Nat
  data : ProjectionData
  deriving DecidableEq

structure SyncQuarantine where
  tournamentId : Uuid
  nodeId : Uuid
  authorityEpoch : Nat
  operationId : Uuid
  reasonCode : String
  detail : JsonObject
  deriving DecidableEq

/-! ## Tables -/

/-- A tournament's epoch, the key of most tables. -/
abbrev EpochKey := Uuid × Nat

def TournamentAuthority.key (a : TournamentAuthority) : EpochKey := (a.tournamentId, a.epoch)

def EventOperation.epochKey (o : EventOperation) : EpochKey := (o.tournamentId, o.authorityEpoch)

def SyncInbox.epochKey (r : SyncInbox) : EpochKey := (r.tournamentId, r.authorityEpoch)

def SyncCheckpoint.key (c : SyncCheckpoint) : EpochKey := (c.tournamentId, c.authorityEpoch)

def EventOperationSequence.key (q : EventOperationSequence) : EpochKey :=
  (q.tournamentId, q.authorityEpoch)

structure Store where
  tournaments : Table Tournament.id := .empty
  devices : Table EventNodeDevice.deviceId := .empty
  authorities : Table TournamentAuthority.key := .empty
  transitions : List AuthorityTransition := []
  operations : Table EventOperation.operationId := .empty
  operationSequences : Table EventOperationSequence.key := .empty
  outbox : Table SyncOutbox.operationId := .empty
  inbox : Table SyncInbox.operationId := .empty
  checkpoints : Table SyncCheckpoint.key := .empty
  projections : Table CloudEventProjection.tournamentId := .empty
  quarantine : List SyncQuarantine := []
  deriving DecidableEq

namespace Store

variable (env : Env)

/-- INSERT of an authority epoch: one live epoch at most for a tournament. -/
def insertAuthority (s : Store) (a : TournamentAuthority) : Except Raised Store :=
  if a.state.live ∧ ∃ b ∈ s.authorities.rows, b.tournamentId = a.tournamentId ∧ b.state.live then
    .error (integrityError env "uq_tournament_authority_one_live_epoch")
  else
    match s.authorities.insert a with
    | none => .error (integrityError env "tournament_authority_epochs_pkey")
    | some t => .ok { s with authorities := t }

def insertCheckpoint (s : Store) (c : SyncCheckpoint) : Except Raised Store :=
  match s.checkpoints.insert c with
  | none => .error (integrityError env "sync_checkpoints_pkey")
  | some t => .ok { s with checkpoints := t }

def insertProjection (s : Store) (p : CloudEventProjection) : Except Raised Store :=
  match s.projections.insert p with
  | none => .error (integrityError env "cloud_event_projections_pkey")
  | some t => .ok { s with projections := t }

/-- INSERT of an operation: one row at most for a sequence of an epoch. -/
def insertOperation (s : Store) (o : EventOperation) : Except Raised Store :=
  if ∃ p ∈ s.operations.rows, p.epochKey = o.epochKey ∧ p.sequence = o.sequence then
    .error (integrityError env "uq_event_operations_epoch_sequence")
  else
    match s.operations.insert o with
    | none => .error (integrityError env "event_operations_pkey")
    | some t => .ok { s with operations := t }

/-- INSERT of a receipt: one row at most for a sequence of an epoch. -/
def insertInbox (s : Store) (r : SyncInbox) : Except Raised Store :=
  if ∃ p ∈ s.inbox.rows, p.epochKey = r.epochKey ∧ p.sequence = r.sequence then
    .error (integrityError env "uq_sync_inbox_epoch_sequence")
  else
    match s.inbox.insert r with
    | none => .error (integrityError env "sync_inbox_pkey")
    | some t => .ok { s with inbox := t }

def maxEpoch (s : Store) (tournamentId : Uuid) : Option Nat :=
  ((s.authorities.rows.filter (fun a => a.tournamentId = tournamentId)).map
    TournamentAuthority.epoch).max?

def operationsOf (s : Store) (key : EpochKey) : List EventOperation :=
  (s.operations.rows.filter (fun o => o.epochKey = key)).insertionSort
    (fun o p => o.sequence ≤ p.sequence)

def inboxOf (s : Store) (key : EpochKey) : List SyncInbox :=
  s.inbox.rows.filter (fun r => r.epochKey = key)

end Store

end Sync
