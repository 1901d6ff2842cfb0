import ShuttleWorks.Sync.Authority

/-! Transitions out of an epoch: return to cloud, planned transfer, recovery of
a lost node; and the epoch that local mode opens by itself. -/

namespace Sync
open Lib

section
variable (env : Env)

/-- What a privileged transition is asked with. -/
structure TransitionRequest where
  actorId : Uuid
  deviceId : Uuid
  reason : String
  declaredLastSequence : Nat
  confirmation : Bool
  deriving DecidableEq

/-- Close a drained node epoch and create the next cloud-controlled epoch. -/
def returnToCloud (s : Store) (tournamentId nodeId : Uuid) (authorityEpoch : Nat)
    (capability : String) (r : TransitionRequest) (snapshotHash token : String)
    (now : Timestamp) : Except Raised ((TournamentAuthority × TournamentAuthority) × Store) := do
  let reason ← requireTransitionEvidence r.reason r.confirmation (some snapshotHash)
  let authority ← requireActiveCapability env s tournamentId authorityEpoch nodeId capability
  let cloudSequence := cloudCursor s tournamentId authorityEpoch
  require (r.declaredLastSequence = cloudSequence) 409 "operations_not_drained"
    "Cloud has not durably received the declared final sequence"
    [("declared_last_sequence", .int r.declaredLastSequence),
      ("highest_contiguous_sequence", .int cloudSequence)]
  let expected ← cloudProjectionDigest env s tournamentId authorityEpoch
  require (snapshotHash = expected) 409 "snapshot_hash_mismatch"
    "Cloud projection digest does not match the final snapshot"
  let s₁ := retire s authority .closed now authority.recoveryReason
  let (cloud, s₂) ← cloudEpoch env s₁ tournamentId (nextEpoch s₁ tournamentId) snapshotHash token now
  .ok ((retired authority .closed now authority.recoveryReason, cloud), appendTransition s₂
    { tournamentId := tournamentId
      transitionType := .returnToCloud
      fromEpoch := some authority.epoch
      toEpoch := some cloud.epoch
      actorId := r.actorId
      deviceId := r.deviceId
      reason := reason
      declaredLastSequence := some r.declaredLastSequence
      evidenceHash := some snapshotHash
      detail := [("cloudConfirmedSequence", .int cloudSequence)] })

/-- Relinquish one node and prepare a replacement at a new epoch. -/
def plannedTransfer (s : Store) (tournamentId nodeId newNodeId : Uuid) (authorityEpoch : Nat)
    (capability : String) (r : TransitionRequest) (handoffHash token : String) (now : Timestamp) :
    Except Raised ((TournamentAuthority × TournamentAuthority × String) × Store) := do
  let reason ← requireTransitionEvidence r.reason r.confirmation (some handoffHash)
  require (nodeId ≠ newNodeId) 409 "same_authority_node" "Transfer requires a different node"
  let authority ← requireActiveCapability env s tournamentId authorityEpoch nodeId capability
  let cloudSequence := cloudCursor s tournamentId authorityEpoch
  require (r.declaredLastSequence = cloudSequence) 409 "operations_not_drained"
    "Cloud has not durably received the declared handoff sequence"
    [("declared_last_sequence", .int r.declaredLastSequence),
      ("highest_contiguous_sequence", .int cloudSequence)]
  let s₁ := retire s authority .closed now authority.recoveryReason
  let ((replacement, replacementCapability), s₂) ← preparingEpoch env s₁ tournamentId
    (nextEpoch s₁ tournamentId) newNodeId handoffHash token
  .ok ((retired authority .closed now authority.recoveryReason, replacement,
      replacementCapability), appendTransition s₂
    { tournamentId := tournamentId
      transitionType := .plannedTransfer
      fromEpoch := some authority.epoch
      toEpoch := some replacement.epoch
      actorId := r.actorId
      deviceId := r.deviceId
      reason := reason
      declaredLastSequence := some r.declaredLastSequence
      evidenceHash := some handoffHash
      detail := [("oldNodeId", .str nodeId), ("newNodeId", .str newNodeId)] })

/-! ## Lost-node recovery -/

/-- The recovery of an epoch that was recorded last. -/
def priorRecovery (s : Store) (tournamentId : Uuid) (authorityEpoch : Nat) :
    Option AuthorityTransition :=
  (s.transitions.filter (fun t => t.tournamentId = tournamentId ∧
    t.transitionType = .lostNodeRecovery ∧ t.fromEpoch = some authorityEpoch)).getLast?

/-- The receipted operations after the backup, up to the cloud's cursor. -/
def receiptedSuffix (s : Store) (key : EpochKey) (backupSequence cloudSequence : Nat) :
    List EventOperation :=
  (s.operationsOf key).filter (fun o =>
    s.inbox.Has o.operationId ∧ backupSequence < o.sequence ∧ o.sequence ≤ cloudSequence)

/-- The manifest has the expected five keys and values, and no others. -/
def manifestMatches (manifest : JsonObject) (authorityEpoch backupSequence : Nat)
    (backupHash : String) (cloudSequence : Nat) (expectedIds : List Uuid) : Bool :=
  manifest.length = 5 ∧ (Assoc.get "sourceAuthorityEpoch" manifest).any (pyEqInt authorityEpoch) ∧
    (Assoc.get "backupSequence" manifest).any (pyEqInt backupSequence) ∧
    Assoc.get "backupHash" manifest = some (.str backupHash) ∧
    (Assoc.get "cloudSequence" manifest).any (pyEqInt cloudSequence) ∧
    Assoc.get "replayedOperationIds" manifest = some (.arr (expectedIds.map .str))

/-- Prepare a replacement only from an exact, replay-complete checkpoint. -/
def recoverLostNode (s : Store) (tournamentId newNodeId : Uuid) (authorityEpoch : Nat)
    (r : TransitionRequest) (backupSequence : Nat) (backupHash : String)
    (recoveryCheckpoint : JsonObject) (token : String) (now : Timestamp) :
    Except Raised ((TournamentAuthority × TournamentAuthority × String) × Store) := do
  let reason ← requireTransitionEvidence r.reason r.confirmation (some backupHash)
  let prior := priorRecovery s tournamentId authorityEpoch
  require (prior = none) 409 "recovery_already_completed"
    "This authority epoch has already been recovered"
    [("replacement_authority_epoch",
      ((prior.bind AuthorityTransition.toEpoch).map (fun n => Json.int n)).getD .null)]
  let authority ← found (activeAuthority s tournamentId) 409 "no_active_authority"
    "No active node authority can be recovered"
  require (authority.epoch = authorityEpoch) 409 "wrong_authority_epoch"
    "Recovery evidence does not match the active authority epoch"
    [("active_authority_epoch", .int authority.epoch)]
  require (authority.nodeId ≠ newNodeId) 409 "same_authority_node"
    "Recovery requires a replacement node"
  let cloudSequence := cloudCursor s tournamentId authority.epoch
  let claimed : JsonObject := [("declared_last_sequence", .int r.declaredLastSequence),
    ("highest_contiguous_sequence", .int cloudSequence)]
  require (r.declaredLastSequence ≤ cloudSequence) 409 "node_ahead_unverifiable"
    "The lost node claimed operations that cloud has not receipted" claimed
  require (cloudSequence ≤ r.declaredLastSequence) 409 "recovery_incomplete"
    "Recovery checkpoint does not include every cloud-receipted operation" claimed
  require (backupSequence ≤ cloudSequence) 409 "backup_ahead_unverifiable"
    "Backup contains operations that cloud cannot verify"
    [("backup_sequence", .int backupSequence), ("highest_contiguous_sequence", .int cloudSequence)]
  let checkpointTournamentId ← validateCheckpoint env recoveryCheckpoint none
  require (checkpointTournamentId = tournamentId) 409 "recovery_tournament_mismatch"
    "Recovery checkpoint belongs to another tournament"
  match Assoc.get "recovery" recoveryCheckpoint with
  | some (.obj manifest) =>
    let expected := receiptedSuffix s (tournamentId, authorityEpoch) backupSequence cloudSequence
    let expectedIds := expected.map EventOperation.operationId
    require (manifestMatches manifest authorityEpoch backupSequence backupHash cloudSequence
        expectedIds) 409 "recovery_evidence_mismatch"
      "Recovery manifest does not match the exact receipted operation suffix"
      [("expected_replayed_operation_ids", .arr (expectedIds.map .str))]
    require (expected.length = cloudSequence - backupSequence) 409 "recovery_operations_missing"
      "Cloud does not retain every operation required to rebuild this backup"
    let recoveryHash := checkpointDigest env recoveryCheckpoint
    let s₁ := retire s authority .recovered now (some reason)
    let ((replacement, replacementCapability), s₂) ← preparingEpoch env s₁ tournamentId
      (nextEpoch s₁ tournamentId) newNodeId recoveryHash token
    .ok ((retired authority .recovered now (some reason), replacement, replacementCapability),
      appendTransition s₂
      { tournamentId := tournamentId
        transitionType := .lostNodeRecovery
        fromEpoch := some authority.epoch
        toEpoch := some replacement.epoch
        actorId := r.actorId
        deviceId := r.deviceId
        reason := reason
        declaredLastSequence := some r.declaredLastSequence
        evidenceHash := some recoveryHash
        detail := [("lostNodeId", .str authority.nodeId), ("replacementNodeId", .str newNodeId),
          ("sourceAuthorityEpoch", .int authorityEpoch), ("backupSequence", .int backupSequence),
          ("backupHash", .str backupHash), ("recoveryCheckpointHash", .str recoveryHash),
          ("cloudHighestContiguousSequence", .int cloudSequence),
          ("replayedOperationIds", .arr (expectedIds.map .str)),
          ("possiblyMissingOperations", .bool false)] })
  | _ =>
    refuse 409 "recovery_evidence_missing" "Recovery checkpoint has no recovery manifest"

/-! ## Local mode -/

/-- Create an explicit standalone epoch for local mode; it has no cloud cursor. -/
def ensureLocalAuthority (s : Store) (actor : Option TransitionActor) (tournamentId nodeId : Uuid)
    (checkpoint : JsonObject) (token : String) (now : Timestamp) :
    Except Raised (TournamentAuthority × Store) := do
  match activeAuthority s tournamentId with
  | some active =>
    require (active.nodeId = nodeId) 409 "wrong_authority_node"
      "Another node owns this tournament"
    .ok (active, s)
  | none =>
    let tournament ← getTournament s tournamentId
    let device ← enrolledDevice env s tournament nodeId
    let epoch := nextEpoch s tournamentId
    let digest := checkpointDigest env checkpoint
    let grant ← authorityGrant env tournamentId nodeId epoch digest
      currentCheckpointSchemaVersion device.2
    let authority := grantedAuthority env tournamentId nodeId epoch .active digest
      currentCheckpointSchemaVersion token grant (some now)
    let s₁ ← s.insertAuthority env authority
    .ok (authority, recordEpochCreation (ensureOperationSequence s₁ tournamentId epoch) actor
      authority .localInitialization "local_initialization" (s.maxEpoch tournamentId))

end

end Sync
