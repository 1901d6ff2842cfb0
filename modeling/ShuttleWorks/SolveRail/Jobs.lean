import ShuttleWorks.Lib.Machine
import ShuttleWorks.Lib.Table
import ShuttleWorks.Sync.Schemas

/-! The queue of solve jobs: submitting, claiming, heartbeats, completion and the reaper.
Each function works on a row as its transaction read it; the rail decides what of that is stored. -/

namespace SolveRail
open Lib Sync

/-! ## Rows -/

inductive SolveJobStatus
  | queued
  | claimed
  | running
  | succeeded
  | failed
  | infeasible
  | cancelled
  deriving DecidableEq, Repr

namespace SolveJobStatus

def value : SolveJobStatus → String
  | queued => "queued"
  | claimed => "claimed"
  | running => "running"
  | succeeded => "succeeded"
  | failed => "failed"
  | infeasible => "infeasible"
  | cancelled => "cancelled"

/-- `ACTIVE_STATUSES`. -/
def active : List SolveJobStatus := [queued, claimed, running]

/-- `TERMINAL_STATUSES`. -/
def terminal : List SolveJobStatus := [succeeded, failed, infeasible, cancelled]

def isTerminal (status : SolveJobStatus) : Bool := status ∈ terminal

end SolveJobStatus

/-- Points in time, in milliseconds. -/
abbrev Instant := Int

structure SolveJob where
  id : Uuid
  tournamentId : Uuid
  type : String
  status : SolveJobStatus := .queued
  machineVersion : Nat := 1
  params : JsonObject
  inputSnapshot : JsonObject
  traceContext : Option (List (String × String)) := none
  result : Option JsonObject := none
  error : Option JsonObject := none
  progress : Option JsonObject := none
  idempotencyKey : Option String := none
  attempts : Nat := 0
  maxAttempts : Nat := 1
  priority : Int := 100
  claimedBy : Option String := none
  claimedAt : Option Instant := none
  heartbeatAt : Option Instant := none
  createdAt : Instant
  startedAt : Option Instant := none
  finishedAt : Option Instant := none
  deriving DecidableEq

abbrev SolveJobs := Table SolveJob.id

def SolveJob.Active (job : SolveJob) : Prop := job.status ∈ SolveJobStatus.active

instance (job : SolveJob) : Decidable job.Active :=
  inferInstanceAs (Decidable (job.status ∈ SolveJobStatus.active))

/-- `SOLVE_JOB`. -/
def solveJobMachine : StateMachine SolveJobStatus where
  name := "solve_job"
  version := 1
  edges :=
    [ ⟨"claim", [.queued], .claimed, "system", none⟩,
      ⟨"run", [.claimed], .running, "system", none⟩,
      ⟨"succeed", [.running], .succeeded, "system", none⟩,
      ⟨"infeasible", [.running], .infeasible, "system", none⟩,
      ⟨"fail", [.claimed, .running], .failed, "system", none⟩,
      ⟨"reap", [.claimed, .running], .queued, "system", none⟩,
      ⟨"cancel", [.queued, .claimed, .running], .cancelled, "operator", none⟩ ]

inductive RailError
  | transition (e : Refusal)
  | activeSolveJobConflict (existing : SolveJob)
  | userSolveQuotaExceeded (held limit : Nat)
  deriving DecidableEq

def assertValidTransition (current target : SolveJobStatus) : Except RailError Unit :=
  if target ∈ solveJobMachine.targets current then .ok ()
  else .error (.transition ⟨"INVALID_TRANSITION", "illegal solve-job transition '" ++ current.value ++
    "' -> '" ++ target.value ++ "'"⟩)

/-- `apply`, on a row of the given state. -/
def applyEvent (job : SolveJob) (current : SolveJobStatus) (event actor : String) :
    Except RailError SolveJob :=
  match solveJobMachine.check SolveJobStatus.value (fun _ => none) job.machineVersion current event
      actor with
  | .ok e => .ok { job with status := e.target, machineVersion := solveJobMachine.version }
  | .error e => .error (.transition e)

def transition (job : SolveJob) (target : SolveJobStatus) (actor : String := "system") :
    Except RailError SolveJob := do
  assertValidTransition job.status target
  match solveJobMachine.edges.find? (fun e => job.status ∈ e.fromStates ∧ e.target = target) with
  | some e => applyEvent job job.status e.event actor
  | none => .error (.transition ⟨"StopIteration", ""⟩)

/-! ## Submitting -/

def normalizeTraceCarrier : Option (List (String × String)) → Option (List (String × String))
  | none => none
  | some carrier =>
    match carrier.filter (fun p => p.1 ∈ ["traceparent", "tracestate"] ∧ p.2 ≠ "") with
    | [] => none
    | normalized => some normalized

structure EnqueueRequest where
  jobId : Uuid
  tournamentId : Uuid
  type : String
  params : JsonObject
  inputSnapshot : JsonObject
  traceContext : Option (List (String × String)) := none
  idempotencyKey : Option String := none
  priority : Int := 100
  maxAttempts : Nat := 2
  userId : Option Uuid := none
  maxActivePerUser : Option Nat := none
  now : Instant
  deriving DecidableEq

/-- Active jobs over the tournaments the user is a member of; members are (tournament, user). -/
def countActiveForUser (jobs : SolveJobs) (members : List (Uuid × Uuid)) (userId : Uuid) : Nat :=
  (jobs.rows.filter (fun job => job.Active ∧ (job.tournamentId, userId) ∈ members)).length

def seenJob (jobs : SolveJobs) (r : EnqueueRequest) : Option SolveJob :=
  match r.idempotencyKey with
  | none => none
  | some "" => none
  | some key => jobs.rows.find? (fun job =>
      job.tournamentId = r.tournamentId ∧ job.idempotencyKey = some key)

def assertUnderQuota (jobs : SolveJobs) (members : List (Uuid × Uuid)) (r : EnqueueRequest) :
    Except RailError Unit :=
  match r.maxActivePerUser, r.userId with
  | some limit, some userId =>
    let held := countActiveForUser jobs members userId
    if limit ≤ held then .error (.userSolveQuotaExceeded held limit) else .ok ()
  | _, _ => .ok ()

def newJob (r : EnqueueRequest) : SolveJob where
  id := r.jobId
  tournamentId := r.tournamentId
  type := r.type
  params := r.params
  inputSnapshot := r.inputSnapshot
  traceContext := normalizeTraceCarrier r.traceContext
  idempotencyKey := r.idempotencyKey
  priority := r.priority
  maxAttempts := r.maxAttempts
  createdAt := r.now

/-- The job of a submission and whether it is new. -/
def enqueue (jobs : SolveJobs) (members : List (Uuid × Uuid)) (r : EnqueueRequest) :
    Except RailError (SolveJob × Bool) := do
  match seenJob jobs r with
  | some existing => .ok (existing, false)
  | none =>
    match jobs.rows.find? (fun job =>
        job.tournamentId = r.tournamentId ∧ job.type = r.type ∧ job.Active) with
    | some existing => .error (.activeSolveJobConflict existing)
    | none =>
      assertUnderQuota jobs members r
      .ok (newJob r, true)

/-- Cancel a job; cancelling a terminal one changes nothing. -/
def cancel (job : SolveJob) (now : Instant) : Except RailError SolveJob := do
  if job.status.isTerminal then .ok job
  else
    let job ← transition job .cancelled "operator"
    .ok { job with finishedAt := some now }

def getJob (jobs : SolveJobs) (tournamentId jobId : Uuid) : Option SolveJob :=
  (jobs.get jobId).filter (fun job => job.tournamentId = tournamentId)

/-! ## Working -/

/-- `ORDER BY priority, created_at, id`. -/
def SolveJob.before (a b : SolveJob) : Bool :=
  a.priority < b.priority ∨ (a.priority = b.priority ∧
    (a.createdAt < b.createdAt ∨ (a.createdAt = b.createdAt ∧ a.id < b.id)))

/-- The job the next claim tries for. -/
def nextQueued (jobs : SolveJobs) : Option SolveJob :=
  (jobs.rows.filter (fun job => job.status = .queued)).foldl (fun best job =>
    match best with
    | none => some job
    | some first => if job.before first then some job else some first) none

/-- The guarded `UPDATE … WHERE status = 'queued'`; `none` when the row is no longer queued. -/
def claimRow (worker : String) (now : Instant) (job : SolveJob) : Option SolveJob :=
  if job.status = .queued then
    some { job with
      status := .claimed, claimedBy := some worker, claimedAt := some now, heartbeatAt := some now
      attempts := job.attempts + 1 }
  else none

def markRunning (job : SolveJob) (now : Instant) : Except RailError SolveJob := do
  let job ← transition job .running
  .ok { job with startedAt := some now, heartbeatAt := some now }

/-- Refresh the lease of a job that the worker still holds. -/
def heartbeat (job : SolveJob) (worker : String) (progress : Option JsonObject) (now : Instant) :
    SolveJob :=
  if job.claimedBy ≠ some worker then job
  else if job.status ∈ [.claimed, .running] then
    { job with heartbeatAt := some now, progress := progress <|> job.progress }
  else job

def completeSuccess (job : SolveJob) (result : JsonObject) (now : Instant) :
    Except RailError SolveJob := do
  let job ← transition job .succeeded
  .ok { job with result := some result, finishedAt := some now }

def completeInfeasible (job : SolveJob) (result : JsonObject) (now : Instant) :
    Except RailError SolveJob := do
  let job ← transition job .infeasible
  .ok { job with result := some result, finishedAt := some now }

/-- Record a failure; a retryable one goes back to the queue while attempts are left. -/
def fail (job : SolveJob) (error : JsonObject) (retryable : Bool) (now : Instant) :
    Except RailError SolveJob := do
  if retryable ∧ job.attempts < job.maxAttempts then
    let job ← transition job .queued
    .ok { job with
      error := some error, claimedBy := none, claimedAt := none, heartbeatAt := none
      startedAt := none, progress := none }
  else
    let job ← transition job .failed
    .ok { job with error := some error, finishedAt := some now }

inductive OutcomeKind
  | ok
  | error
  | infra
  | cancelled
  | unknown (kind : String)
  deriving DecidableEq

structure RunnerOutcome where
  kind : OutcomeKind
  result : Option JsonObject := none
  error : Option JsonObject := none
  deriving DecidableEq

/-- What the worker makes of its solve, on the row it reads when the child has ended. -/
def recordOutcome (job : SolveJob) (worker : String) (outcome : RunnerOutcome) (now : Instant) :
    Except RailError SolveJob :=
  if job.status = .cancelled then .ok job
  else if job.claimedBy ≠ some worker then .ok job
  else
    match outcome.kind with
    | .ok =>
      let result := outcome.result.getD []
      if Assoc.get "status" result = some (.str "infeasible") then
        completeInfeasible job result now
      else completeSuccess job result now
    | .error => fail job (outcome.error.getD []) false now
    | .infra => fail job (outcome.error.getD []) true now
    | .cancelled => .ok job
    | .unknown kind =>
      fail job [("code", .str "unknown_outcome"), ("message", .str kind)] true now

def Expired (cutoff : Instant) (job : SolveJob) : Prop :=
  job.status ∈ [.claimed, .running] ∧ ∃ beat ∈ job.heartbeatAt, beat < cutoff

instance (cutoff : Instant) (job : SolveJob) : Decidable (Expired cutoff job) :=
  inferInstanceAs (Decidable (_ ∧ ∃ beat ∈ job.heartbeatAt, beat < cutoff))

def leaseExpired (job : SolveJob) : JsonObject :=
  [("code", .str "lease_expired"),
    ("message", .str "worker stopped heartbeating; lease reclaimed"),
    ("detail", .obj [("claimed_by", (job.claimedBy.map Json.str).getD .null)])]

/-- The stale rows as the reaper read them, each with the row it makes of it. -/
def reapExpired (jobs : SolveJobs) (lease : Int) (now : Instant) :
    Except RailError (List (SolveJob × SolveJob)) :=
  (jobs.rows.filter (fun job => Expired (now - lease) job)).mapM (fun job => do
    .ok (job, ← fail job (leaseExpired job) true now))

end SolveRail
