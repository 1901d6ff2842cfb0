import ShuttleWorks.Lib.Interleaving
import ShuttleWorks.Sync.OperationLog

/-! Transactions that append to the log of one node, statement by statement. Each reads what
is committed and what it wrote itself, waits for the rows that others have written, and gives
everything back when it fails. -/

namespace Sync
open Lib

/-- One call of `append_local_operation`. -/
structure AppendCall where
  actor : Option TransitionActor
  tournamentId : Uuid
  nodeId : Uuid
  op : LocalOperation
  inputs : AppendInputs
  deriving DecidableEq

/-- A row written by a statement. -/
inductive NodeWrite
  | authority (a : TournamentAuthority)
  | transition (t : AuthorityTransition)
  | counter (q : EventOperationSequence)
  | operation (o : EventOperation)
  | outbox (r : SyncOutbox)
  deriving DecidableEq

/-- An entry of a primary key or of a unique index. -/
inductive NodeKey
  | epoch (key : EpochKey)
  | liveEpoch (tournamentId : Uuid)
  | counter (key : EpochKey)
  | operation (operationId : Uuid)
  | sequence (key : EpochKey) (sequence : Nat)
  | outbox (operationId : Uuid)
  deriving DecidableEq

def NodeWrite.keys : NodeWrite → List NodeKey
  | .authority a =>
    if a.state.live then [.epoch a.key, .liveEpoch a.tournamentId] else [.epoch a.key]
  | .transition _ => []
  | .counter q => [.counter q.key]
  | .operation o => [.operation o.operationId, .sequence o.epochKey o.sequence]
  | .outbox r => [.outbox r.operationId]

def Store.write (s : Store) : NodeWrite → Store
  | .authority a => { s with authorities := (s.authorities.insert a).getD s.authorities }
  | .transition t => appendTransition s t
  | .counter q => { s with operationSequences := s.operationSequences.put q }
  | .operation o => { s with operations := (s.operations.insert o).getD s.operations }
  | .outbox r => { s with outbox := (s.outbox.insert r).getD s.outbox }

def written (ws : List NodeWrite) (s : Store) : Store := ws.foldl Store.write s

theorem written_concat (ws : List NodeWrite) (w : NodeWrite) (s : Store) :
    written (ws ++ [w]) s = (written ws s).write w := by
  simp [written]

/-- The next statement of a call. -/
inductive AppendPhase
  /-- `SELECT` of the live authority. -/
  | authority
  /-- None was found: `SELECT` of the tournament, the device and the highest epoch. -/
  | enrollment
  | openEpoch (a : TournamentAuthority) (previous : Option Nat)
  /-- `SELECT` of the counter of an epoch. -/
  | counter (epoch : Nat)
  | openCounter (epoch : Nat)
  /-- `UPDATE … RETURNING next_sequence` -/
  | allocate (epoch : Nat)
  | operation (epoch sequence : Nat)
  | outbox (operation : EventOperation)
  deriving DecidableEq

/-- A transaction: the calls it still makes, the first of them at its next statement, and the
rows it has written. -/
structure AppendTx where
  calls : List AppendCall
  phase : AppendPhase := .authority
  writes : List NodeWrite := []
  deriving DecidableEq

namespace AppendTx

def start (calls : List AppendCall) : AppendTx := { calls := calls }

def locks (tx : AppendTx) : List NodeKey := tx.writes.flatMap NodeWrite.keys

def view (s : Store) (tx : AppendTx) : Store := written tx.writes s

end AppendTx

/-- The row of a new local epoch. -/
def localAuthority (env : Env) (s : Store) (call : AppendCall) :
    Except Raised TournamentAuthority := do
  let tournament ← getTournament s call.tournamentId
  let device ← enrolledDevice env s tournament call.nodeId
  let epoch := nextEpoch s call.tournamentId
  let digest := checkpointDigest env call.inputs.checkpoint
  let grant ← authorityGrant env call.tournamentId call.nodeId epoch digest
    currentCheckpointSchemaVersion device.2
  .ok (grantedAuthority env call.tournamentId call.nodeId epoch .active digest
    currentCheckpointSchemaVersion call.inputs.token grant (some call.inputs.now))

/-- The row of an appended operation. -/
def AppendCall.operation (call : AppendCall) (epoch sequence : Nat) : EventOperation where
  operationId := call.op.operationId.getD call.inputs.freshId
  tournamentId := call.tournamentId
  nodeId := call.nodeId
  authorityEpoch := epoch
  sequence := sequence
  actorId := call.op.actorId
  commandType := call.op.commandType
  aggregateType := call.op.aggregateType
  aggregateId := call.op.aggregateId
  expectedVersion := call.op.expectedVersion
  payload :=
    if carriesCompetition call.op.commandType then
      Assoc.set "competition" (.obj call.inputs.competition) call.op.payload
    else call.op.payload
  occurredAtLocal := call.op.occurredAtLocal.getD call.inputs.now
  acceptedAtNode := call.inputs.now
  traceparent := call.op.traceparent
  schemaVersion := currentOperationSchemaVersion

/-- The evidence that is kept with a new local epoch. -/
def AppendCall.creation (call : AppendCall) (a : TournamentAuthority) (previous : Option Nat) :
    AuthorityTransition where
  tournamentId := a.tournamentId
  transitionType := .localInitialization
  fromEpoch := previous
  toEpoch := some a.epoch
  actorId := (call.actor.map TransitionActor.id).getD a.nodeId
  deviceId := a.nodeId
  reason := "local_initialization"
  declaredLastSequence := some 0
  evidenceHash := some a.checkpointHash
  detail :=
    [("actorType", .str ((call.actor.map TransitionActor.type).getD "system")),
      ("grantKeyId", (a.grantKeyId.map Json.str).getD .null)]

/-- The writes of a statement, unless it has to wait. -/
def AppendTx.send (l : Locking) (others : List AppendTx) (tx : AppendTx) (writes : List NodeWrite)
    (next : AppendTx) : Lib.Progress Store Raised AppendTx :=
  if l.Blocked AppendTx.locks others (writes.flatMap NodeWrite.keys) then .waits
  else .goesOn { next with writes := tx.writes ++ writes }

/-- The next statement of a transaction; one with no call left commits. -/
def AppendTx.exec (l : Locking) (env : Env) (store : Store) (others : List AppendTx)
    (tx : AppendTx) : Lib.Progress Store Raised AppendTx :=
  let s := tx.view store
  match tx.calls with
  | [] => .commits s
  | call :: calls =>
    match tx.phase with
    | .authority =>
      match activeAuthority s call.tournamentId with
      | none => .goesOn { tx with phase := .enrollment }
      | some active =>
        .attempt (require (active.nodeId = call.nodeId) 409 "wrong_authority_node"
          "Another node owns this tournament") fun _ =>
            .goesOn { tx with phase := .counter active.epoch }
    | .enrollment =>
      .attempt (localAuthority env s call) fun a =>
        .goesOn { tx with phase := .openEpoch a (s.maxEpoch call.tournamentId) }
    | .openEpoch a previous =>
      .attempt (s.insertAuthority env a) fun _ =>
        tx.send l others [.authority a, .transition (call.creation a previous)]
          { tx with phase := .counter a.epoch }
    | .counter epoch =>
      if s.operationSequences.Has (call.tournamentId, epoch) then
        .goesOn { tx with phase := .allocate epoch }
      else .goesOn { tx with phase := .openCounter epoch }
    | .openCounter epoch =>
      if s.operationSequences.Has (call.tournamentId, epoch) then
        .fails (integrityError env "event_operation_sequences_pkey")
      else tx.send l others [.counter ⟨call.tournamentId, epoch, 1⟩]
        { tx with phase := .allocate epoch }
    | .allocate epoch =>
      .attempt (found (s.operationSequences.get (call.tournamentId, epoch)) 409
        "sequence_allocator_missing" "Operation sequence allocator is unavailable") fun row =>
          tx.send l others [.counter { row with nextSequence := row.nextSequence + 1 }]
            { tx with phase := .operation epoch row.nextSequence }
    | .operation epoch sequence =>
      .attempt (s.insertOperation env (call.operation epoch sequence)) fun _ =>
        tx.send l others [.operation (call.operation epoch sequence)]
          { tx with phase := .outbox (call.operation epoch sequence) }
    | .outbox operation =>
      match s.outbox.insert { operationId := operation.operationId } with
      | none => .fails (integrityError env "sync_outbox_pkey")
      | some _ => tx.send l others [.outbox { operationId := operation.operationId }]
          { tx with calls := calls, phase := .authority }

end Sync
