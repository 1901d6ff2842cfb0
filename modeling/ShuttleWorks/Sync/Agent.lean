import Mathlib.Algebra.Ring.Int.Defs
import Mathlib.Algebra.Ring.Nat
import ShuttleWorks.Sync.Cloud
import ShuttleWorks.Sync.OperationLog

/-! The agent that drains an event node's outbox to the cloud: the rows that are
due, the batch they make, and what becomes of them when the post is answered,
refused or lost. Instants and delays are microseconds. -/

namespace Sync
open Lib

/-- What an agent is configured with; `column` is the node's timestamp column. -/
structure AgentConfig where
  env : Env
  tournamentId : Uuid
  nodeId : Uuid
  capability : String
  syncBatchSize : Nat
  column : Timestamp → Timestamp

/-! ## The batch -/

/-- Still to be delivered, and not backed off at `now`. -/
def SyncOutbox.due (now : Int) (r : SyncOutbox) : Bool :=
  r.acknowledgedAt = none ∧ r.permanentlyBlockedAt = none ∧ ∀ at' ∈ r.nextAttemptAt, at' ≤ now

def EventOperation.sortsBefore (o p : EventOperation) : Prop :=
  o.authorityEpoch < p.authorityEpoch ∨
    (o.authorityEpoch = p.authorityEpoch ∧ o.sequence ≤ p.sequence)

instance : DecidableRel EventOperation.sortsBefore := fun _ _ => inferInstanceAs (Decidable (_ ∨ _))

def pendingBatch (c : AgentConfig) (s : Store) (now : Int) : List EventOperation :=
  ((s.operations.rows.filter (fun o => o.tournamentId = c.tournamentId ∧ o.nodeId = c.nodeId ∧
    (s.outbox.get o.operationId).any (SyncOutbox.due now))).insertionSort
      EventOperation.sortsBefore).take c.syncBatchSize

def sameEpoch : List EventOperation → List EventOperation
  | [] => []
  | o :: os => (o :: os).filter (fun p => p.authorityEpoch = o.authorityEpoch)

/-- The request body; the schema's bounds are checked when it is built. -/
def syncBatch (c : AgentConfig) (operations : List EventOperation) : Option SyncBatchRequest :=
  match operations with
  | [] => none
  | o :: _ =>
    let envelopes := operations.map (EventOperation.envelope c.column)
    if h : 1 ≤ o.authorityEpoch ∧
        (1 ≤ envelopes.length ∧ envelopes.length ≤ maxSyncBatchOperations) ∧
        ∀ e ∈ envelopes, e.WellFormed then
      some ⟨o.nodeId, o.authorityEpoch, envelopes, h.1, h.2.1, h.2.2⟩
    else none

/-! ## Marking rows -/

def rewriteOf (operations : List EventOperation) (f : SyncOutbox → SyncOutbox) (r : SyncOutbox) :
    SyncOutbox :=
  if ∃ o ∈ operations, o.operationId = r.operationId then f r else r

theorem rewriteOf_operationId {operations : List EventOperation} {f : SyncOutbox → SyncOutbox}
    (hf : ∀ r, (f r).operationId = r.operationId) (r : SyncOutbox) :
    (rewriteOf operations f r).operationId = r.operationId := by
  unfold rewriteOf
  split
  · exact hf r
  · rfl

/-- UPDATE of the outbox rows of some operations. -/
def markOutbox (s : Store) (operations : List EventOperation) (f : SyncOutbox → SyncOutbox)
    (hf : ∀ r, (f r).operationId = r.operationId) : Store :=
  { s with outbox := s.outbox.update (rewriteOf operations f) (rewriteOf_operationId hf) }

def markAcknowledged (s : Store) (operations : List EventOperation) (highest : Nat)
    (acknowledgedAt : Int) : Store :=
  markOutbox s (operations.filter (fun o => o.sequence ≤ highest))
    (fun r => { r with acknowledgedAt := some acknowledgedAt, lastErrorCode := none })
    (fun _ => rfl)

/-- Clock readings and jitters of one pass, by row. -/
structure Pass where
  clock : Uuid → Int
  delay : Uuid → Int

def truncateCode (code : String) : String := String.ofList (code.toList.take 80)

def markRetry (s : Store) (operations : List EventOperation) (code : String) (p : Pass) : Store :=
  markOutbox s operations
    (fun r => { r with
      attemptCount := r.attemptCount + 1
      nextAttemptAt := some (p.clock r.operationId + p.delay r.operationId)
      lastErrorCode := some (truncateCode code) })
    (fun _ => rfl)

/-- Permanent protocol failures are retained for operator action. -/
def markPermanentlyBlocked (s : Store) (operations : List EventOperation) (code : String)
    (p : Pass) : Store :=
  markOutbox s operations
    (fun r => { r with
      attemptCount := r.attemptCount + 1
      nextAttemptAt := none
      permanentlyBlockedAt := some (p.clock r.operationId)
      lastErrorCode := some (truncateCode code) })
    (fun _ => rfl)

/-- The delays a row can be given after its `attempts`-th failure: a quarter
around `min(300, 2^min(attempts, 8))` seconds. -/
def Backoff (attempts : Nat) (delay : Int) : Prop :=
  750000 * (min 300 (2 ^ min attempts 8 : Nat) : Int) ≤ delay ∧
    delay ≤ 1250000 * (min 300 (2 ^ min attempts 8 : Nat) : Int)

instance (attempts : Nat) (delay : Int) : Decidable (Backoff attempts delay) :=
  inferInstanceAs (Decidable (_ ∧ _))

def Pass.Jittered (p : Pass) (s : Store) : Prop :=
  ∀ r ∈ s.outbox.rows, Backoff (r.attemptCount + 1) (p.delay r.operationId)

/-! ## The answer -/

def httpError : Raised → Nat × String
  | .protocol e => (e.statusCode, if e.statusCode = 404 then "http_404" else e.code)
  | .exception _ _ => (500, "http_500")

def retryable (statusCode : Nat) : Bool := statusCode ∈ [408, 425, 429] ∨ 500 ≤ statusCode

/-- What happens to a post. The two failures are transient ones: no connection,
or a retryable status from in between, before or after the cloud handled it. -/
inductive Delivery
  | lost (code : String)
  | unheard (code : String)
  | answered
  deriving DecidableEq

/-- An event node and the cloud it uploads to. -/
structure Link where
  node : Store
  cloud : Store
  deriving DecidableEq

def markAnswer (s : Store) (operations : List EventOperation) (p : Pass) (acknowledgedAt : Int) :
    Except Raised SyncBatchResponse → Store
  | .ok r => markAcknowledged s operations r.highestContiguousSequence acknowledgedAt
  | .error e =>
    if retryable (httpError e).1 then markRetry s operations (httpError e).2 p
    else markPermanentlyBlocked s operations (httpError e).2 p

/-- One drain pass at the instant `now`. A batch that fails the schema's checks
raises before it is posted. -/
def drainOnce (c : AgentConfig) (l : Link) (now : Int) (delivery : Delivery) (p : Pass)
    (acknowledgedAt : Int) : Link :=
  let operations := sameEpoch (pendingBatch c l.node now)
  match syncBatch c operations with
  | none => l
  | some batch =>
    let answer := ingestBatch c.env l.cloud c.tournamentId c.capability batch
    match delivery with
    | .lost code => { l with node := markRetry l.node operations code p }
    | .unheard code => { node := markRetry l.node operations code p, cloud := answer.1 }
    | .answered =>
      { node := markAnswer l.node operations p acknowledgedAt answer.2, cloud := answer.1 }

end Sync
