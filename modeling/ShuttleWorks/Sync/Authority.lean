import ShuttleWorks.Sync.Store

/-! Authority epochs: device enrollment, checkout, readiness, return, planned
transfer, lost-node recovery and the standalone epoch of local mode. A refused
transition commits nothing, so each function answers with the new store or an
error. -/

namespace Sync
open Lib

section
variable (env : Env)

def capabilityDigest (capability : String) : String := utf8Sha256 env capability

def capabilityMatches (authority : TournamentAuthority) (capability : String) : Bool :=
  authority.capabilityDigest = capabilityDigest env capability

/-! ## Devices -/

/-- `session.get(Tournament, …)` or a 404. -/
def getTournament (s : Store) (tournamentId : Uuid) : Except Raised Tournament :=
  found (s.tournaments.get tournamentId) 404 "tournament_not_found" "Tournament does not exist"

/-- Resolve a node identity and its public-key fingerprint. Cloud never falls
back to a caller-supplied UUID. -/
def enrolledDevice (s : Store) (tournament : Tournament) (nodeId : Uuid) :
    Except Raised (Option EventNodeDevice × String) := do
  match s.devices.get nodeId with
  | none =>
    require (env.environment ≠ "cloud") 403 "device_not_enrolled" "Event node is not enrolled"
    .ok (none, "local-bootstrap")
  | some device =>
    require (device.revokedAt = none) 403 "device_revoked" "Event node enrollment is revoked"
    require (tournament.orgId = some device.orgId) 404 "device_not_found"
      "Event node is not enrolled for this organization"
    match env.publicKeyFingerprint device.publicKey with
    | .ok fingerprint => .ok (some device, fingerprint)
    | .error e => .error (.protocol e)

def enrollDevice (s : Store) (tournamentId nodeId : Uuid) (label publicKey : String)
    (actorId : Uuid) : Except Raised (EventNodeDevice × Store) := do
  let tournament ← getTournament s tournamentId
  let orgId ← found tournament.orgId 409 "tournament_org_required"
    "Tournament has no organization owner"
  let _ ← (env.publicKeyFingerprint publicKey).mapError Raised.protocol
  require (¬ s.devices.Has nodeId) 409 "device_already_enrolled" "Event node is already enrolled"
  require (∀ d ∈ s.devices.rows, d.publicKey ≠ publicKey) 409 "device_public_key_in_use"
    "Public key is already enrolled"
  let device : EventNodeDevice :=
    { deviceId := nodeId, orgId := orgId, label := pyStrip label, publicKey := publicKey,
      enrolledBy := actorId }
  .ok (device, { s with devices := s.devices.put device })

/-! ## Evidence -/

/-- The stripped reason of a confirmed transition. -/
def requireTransitionEvidence (reason : String) (confirmation : Bool)
    (evidenceHash : Option String) : Except Raised String := do
  let reason := pyStrip reason
  require (reason ≠ "") 422 "recovery_reason_required" "A reason is required"
  require (confirmation = true) 409 "confirmation_required"
    "Authority transition requires explicit confirmation"
  require (∀ h ∈ evidenceHash, (h.length = 64 ∨ h.length = 128) ∧ ∀ c ∈ h.toList, c ∈ hexdigits)
    422 "invalid_evidence_hash" "Evidence hash must be a SHA-256 or SHA-512 digest"
  .ok reason

def revokeDevice (s : Store) (tournamentId nodeId : Uuid) (reason : String) (confirmation : Bool)
    (now : Timestamp) : Except Raised (EventNodeDevice × Store) := do
  let reason ← requireTransitionEvidence reason confirmation none
  match s.tournaments.get tournamentId, s.devices.get nodeId with
  | some tournament, some device =>
    require (tournament.orgId = some device.orgId) 404 "device_not_found"
      "Event node is not enrolled for this organization"
    if device.revokedAt = none then
      let revoked := { device with revokedAt := some now, revocationReason := some reason }
      .ok (revoked, { s with devices := s.devices.put revoked })
    else .ok (device, s)
  | _, _ =>
    refuse 404 "device_not_found" "Event node is not enrolled for this organization"

/-! ## Epoch rows -/

/-- The live authority of a tournament with the highest epoch. -/
def activeAuthority (s : Store) (tournamentId : Uuid) : Option TournamentAuthority :=
  ((s.authorities.rows.filter (fun a => a.tournamentId = tournamentId ∧ a.state.live)).insertionSort
    (fun a b => b.epoch ≤ a.epoch)).head?

def nextEpoch (s : Store) (tournamentId : Uuid) : Nat := (s.maxEpoch tournamentId).getD 0 + 1

/-- The signed capability grant of an epoch. -/
def authorityGrant (tournamentId nodeId : Uuid) (epoch : Nat) (checkpointHash : String)
    (checkpointSchemaVersion : Nat) (nodeKeyFingerprint : String) :
    Except Raised (JsonObject × String × String) := do
  let payload : JsonObject :=
    [("grantSchemaVersion", .int 1), ("tournamentId", .str tournamentId), ("nodeId", .str nodeId),
      ("authorityEpoch", .int epoch), ("checkpointHash", .str checkpointHash),
      ("checkpointSchemaVersion", .int checkpointSchemaVersion),
      ("allowedCommandClasses", .arr (allowedCommandClasses.map .str)),
      ("nodeKeyFingerprint", .str nodeKeyFingerprint)]
  let signer ← env.privateSigningKey.mapError Raised.protocol
  let signature := signer.sign (canonicalJson (.obj payload))
  .ok (Assoc.merge payload [("keyId", .str signer.keyId), ("signature", .str signature)],
    signer.keyId, signature)

def ensureOperationSequence (s : Store) (tournamentId : Uuid) (authorityEpoch : Nat) : Store :=
  let row : EventOperationSequence :=
    { tournamentId := tournamentId, authorityEpoch := authorityEpoch, nextSequence := 1 }
  if s.operationSequences.Has (tournamentId, authorityEpoch) then s
  else { s with operationSequences := s.operationSequences.put row }

def appendTransition (s : Store) (t : AuthorityTransition) : Store :=
  { s with transitions := s.transitions ++ [t] }

/-- The authenticated operator staged on the session, if any. -/
structure TransitionActor where
  id : Uuid
  type : String
  deriving DecidableEq

/-- Persist creation evidence with the epoch. Without a staged actor the node
itself is the actor: as a device when it installs a checkpoint, else as a system. -/
def recordEpochCreation (s : Store) (actor : Option TransitionActor)
    (authority : TournamentAuthority) (transitionType : TransitionType) (reason : String)
    (previousEpoch : Option Nat) : Store :=
  let actorType :=
    match actor with
    | some a => a.type
    | none => if transitionType = .checkpointImport then "device" else "system"
  appendTransition s
    { tournamentId := authority.tournamentId
      transitionType := transitionType
      fromEpoch := previousEpoch
      toEpoch := some authority.epoch
      actorId := (actor.map TransitionActor.id).getD authority.nodeId
      deviceId := authority.nodeId
      reason := reason
      declaredLastSequence := some 0
      evidenceHash := some authority.checkpointHash
      detail := [("actorType", .str actorType),
        ("grantKeyId", (authority.grantKeyId.map Json.str).getD .null)] }

/-- The row of an epoch granted to a node. -/
def grantedAuthority (tournamentId nodeId : Uuid) (epoch : Nat) (state : AuthorityState)
    (checkpointHash : String) (checkpointSchemaVersion : Nat) (token : String)
    (grant : JsonObject × String × String) (readyAt : Option Timestamp) : TournamentAuthority :=
  { tournamentId := tournamentId
    epoch := epoch
    nodeId := nodeId
    state := state
    checkpointHash := checkpointHash
    checkpointSchemaVersion := checkpointSchemaVersion
    capabilityDigest := capabilityDigest env token
    grant := some (.obj grant.1)
    grantSignature := some grant.2.2
    grantKeyId := some grant.2.1
    allowedCommandClasses := some allowedCommandClasses
    readyAt := readyAt }

/-! ## Checkout -/

def alreadyGranted {α : Type} (detail : JsonObject) : Except Raised α :=
  refuse 409 "authority_already_granted"
    "Tournament already has an active or preparing authority" detail

/-- A uniqueness violation is reported as a lost race for the tournament. -/
def translateRace {α : Type} : Except Raised α → Except Raised α
  | .ok a => .ok a
  | .error e => if e.isIntegrityError then alreadyGranted [] else .error e

/-- `checkpoint` is the package built from the tournament's rows, `token` the
fresh capability. -/
def beginCheckout (s : Store) (actor : Option TransitionActor) (tournamentId nodeId : Uuid)
    (schemaVersion : Nat) (checkpoint : JsonObject) (token : String) :
    Except Raised ((TournamentAuthority × String × JsonObject) × Store) := do
  require (supportsCheckpointSchema (.int schemaVersion)) 409 "unsupported_checkpoint_schema"
    "Checkpoint schema is incompatible"
  let tournament ← getTournament s tournamentId
  let device ← enrolledDevice env s tournament nodeId
  match activeAuthority s tournamentId with
  | some active =>
    alreadyGranted [("node_id", .str active.nodeId), ("authority_epoch", .int active.epoch)]
  | none =>
    let epoch := nextEpoch s tournamentId
    let digest := checkpointDigest env checkpoint
    let grant ← authorityGrant env tournamentId nodeId epoch digest schemaVersion device.2
    let authority := grantedAuthority env tournamentId nodeId epoch .preparing digest schemaVersion
      token grant none
    translateRace do
      let s₁ ← s.insertAuthority env authority
      let s₂ ← (ensureOperationSequence s₁ tournamentId epoch).insertCheckpoint env
        { tournamentId := tournamentId, authorityEpoch := epoch, highestContiguousSequence := 0 }
      .ok ((authority, token, checkpoint), recordEpochCreation s₂ actor authority .checkout
        "checkout" (s.maxEpoch tournamentId))

/-! ## Readiness -/

def readyProofPayload (tournamentId nodeId : Uuid) (authorityEpoch : Nat)
    (checkpointHash : String) : JsonObject :=
  [("readyProofSchemaVersion", .int 1), ("tournamentId", .str tournamentId),
    ("nodeId", .str nodeId), ("authorityEpoch", .int authorityEpoch),
    ("checkpointHash", .str checkpointHash)]

def requiresProof : Bool :=
  env.environment = "cloud" ∨ env.deploymentProfile = "cloud" ∨
    env.deploymentProfile = "event_node"

def verifyReadyProof (s : Store) (tournament : Tournament) (tournamentId nodeId : Uuid)
    (authorityEpoch : Nat) (checkpointHash : String) (readyProof : Option String) :
    Except Raised Unit := do
  match readyProof with
  | none =>
    require (requiresProof env = false) 409 "ready_proof_required"
      "Event node proof-of-possession is required"
  | some proof =>
    let device ← enrolledDevice env s tournament nodeId
    let device ← found device.1 403 "device_not_enrolled" "Event node is not enrolled"
    require (env.verifies device.publicKey proof
        (canonicalJson (.obj (readyProofPayload tournamentId nodeId authorityEpoch checkpointHash))))
      403 "invalid_ready_proof" "Event node proof-of-possession is invalid"

def markReady (s : Store) (tournamentId nodeId : Uuid) (authorityEpoch : Nat) (capability : String)
    (checkpointHash : String) (readyProof : Option String) (now : Timestamp) :
    Except Raised (TournamentAuthority × Store) := do
  let authority ← found (s.authorities.get (tournamentId, authorityEpoch)) 404
    "authority_not_found" "Authority epoch does not exist"
  require (authority.nodeId = nodeId ∧ capabilityMatches env authority capability) 403
    "invalid_authority_capability" "Node capability is invalid"
  require (authority.checkpointHash = checkpointHash) 409 "checkpoint_hash_mismatch"
    "Imported checkpoint proof does not match"
  let tournament ← getTournament s tournamentId
  verifyReadyProof env s tournament tournamentId nodeId authorityEpoch checkpointHash readyProof
  if authority.state = .active then .ok (authority, s)
  else
    require (authority.state = .preparing) 409 "invalid_authority_state"
      "Authority cannot become ready"
    let ready := { authority with state := .active, readyAt := some now }
    .ok (ready, { s with authorities := s.authorities.put ready })

/-! ## Leaving an epoch -/

def cloudAuthorityNodeId : Uuid := "00000000-0000-0000-0000-000000000000"

def requireActiveCapability (s : Store) (tournamentId : Uuid) (authorityEpoch : Nat)
    (nodeId : Uuid) (capability : String) : Except Raised TournamentAuthority := do
  let authority ← found (s.authorities.get (tournamentId, authorityEpoch)) 404
    "authority_not_found" "Authority epoch does not exist"
  require (authority.state = .active) 409 "invalid_authority_state"
    "Only an active authority can transition"
  require (authority.nodeId = nodeId ∧ capabilityMatches env authority capability) 403
    "invalid_authority_capability" "Node capability is invalid"
  let tournament ← getTournament s tournamentId
  let _ ← enrolledDevice env s tournament nodeId
  .ok authority

/-- The next epoch, under cloud control. -/
def cloudEpoch (s : Store) (tournamentId : Uuid) (epoch : Nat) (snapshotHash token : String)
    (now : Timestamp) : Except Raised (TournamentAuthority × Store) := do
  let authority : TournamentAuthority :=
    { tournamentId := tournamentId
      epoch := epoch
      nodeId := cloudAuthorityNodeId
      state := .cloud
      checkpointHash := snapshotHash
      checkpointSchemaVersion := currentCheckpointSchemaVersion
      capabilityDigest := capabilityDigest env token
      readyAt := some now }
  let s ← s.insertAuthority env authority
  .ok (authority, s)

/-- The next epoch, prepared for a node. -/
def preparingEpoch (s : Store) (tournamentId : Uuid) (epoch : Nat) (nodeId : Uuid)
    (checkpointHash token : String) : Except Raised ((TournamentAuthority × String) × Store) := do
  let tournament ← getTournament s tournamentId
  let device ← enrolledDevice env s tournament nodeId
  let grant ← authorityGrant env tournamentId nodeId epoch checkpointHash
    currentCheckpointSchemaVersion device.2
  let authority := grantedAuthority env tournamentId nodeId epoch .preparing checkpointHash
    currentCheckpointSchemaVersion token grant none
  let s ← s.insertAuthority env authority
  let s ← (ensureOperationSequence s tournamentId epoch).insertCheckpoint env
    { tournamentId := tournamentId, authorityEpoch := epoch, highestContiguousSequence := 0 }
  .ok ((authority, token), s)

/-- The highest contiguous accepted sequence of an epoch, 0 without a cursor row. -/
def cloudCursor (s : Store) (tournamentId : Uuid) (epoch : Nat) : Nat :=
  match s.checkpoints.get (tournamentId, epoch) with
  | some checkpoint => checkpoint.highestContiguousSequence
  | none => 0

/-- An epoch's row with a state that is no longer live. -/
def retired (authority : TournamentAuthority) (state : AuthorityState) (now : Timestamp)
    (recoveryReason : Option String) : TournamentAuthority :=
  { authority with state := state, closedAt := some now, recoveryReason := recoveryReason }

def retire (s : Store) (authority : TournamentAuthority) (state : AuthorityState)
    (now : Timestamp) (recoveryReason : Option String) : Store :=
  { s with authorities := s.authorities.put (retired authority state now recoveryReason) }

/-- The deterministic digest by which cloud confirms a final view. A missing
projection is the empty one; a projection of another epoch or sequence is refused. -/
def cloudProjectionDigest (s : Store) (tournamentId : Uuid) (authorityEpoch : Nat) :
    Except Raised String := do
  let finalSequence := cloudCursor s tournamentId authorityEpoch
  let data ←
    match s.projections.get tournamentId with
    | none => (.ok {} : Except Raised ProjectionData)
    | some projection => do
      require (projection.authorityEpoch = authorityEpoch) 409 "projection_epoch_mismatch"
        "Cloud projection does not match the authority epoch"
        [("expected_authority_epoch", .int authorityEpoch),
          ("actual_authority_epoch", .int projection.authorityEpoch)]
      require (projection.lastSequence = finalSequence) 409 "projection_cursor_mismatch"
        "Cloud projection does not match the final accepted sequence"
        [("expected_sequence", .int finalSequence), ("actual_sequence", .int projection.lastSequence)]
      .ok projection.data
  .ok (utf8Sha256 env (canonicalJson (.obj [("authorityEpoch", .int authorityEpoch),
    ("lastSequence", .int finalSequence), ("data", data.toJson)])))

end

end Sync
