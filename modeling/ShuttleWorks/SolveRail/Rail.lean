import ShuttleWorks.Lib.Transition
import ShuttleWorks.SolveRail.Jobs

/-! The rail: any number of API requests and workers, each transaction reading committed rows
and writing them back later by primary key. Only the claim re-checks the row it writes. -/

namespace SolveRail
open Lib Sync

structure RailStore where
  jobs : SolveJobs
  /-- (tournament, user) of each membership. -/
  members : List (Uuid × Uuid) := []

inductive RailRequest
  | enqueue (r : EnqueueRequest)
  | cancel (tournamentId jobId : Uuid) (now : Instant)
  | claimNext (worker : String) (now : Instant)
  | markRunning (jobId : Uuid) (now : Instant)
  | heartbeat (worker : String) (jobId : Uuid) (progress : Option JsonObject) (now : Instant)
  | recordOutcome (worker : String) (jobId : Uuid) (outcome : RunnerOutcome) (now : Instant)
  | reapExpired (lease : Int) (now : Instant)
  deriving DecidableEq

/-- What a transaction is about to write: a new job, a guarded claim, or rows it read, each with the
row it made of it. -/
inductive Plan
  | insert (job : SolveJob)
  | claim (jobId : Uuid) (worker : String) (now : Instant)
  | update (request : RailRequest) (rows : List (SolveJob × SolveJob))
  deriving DecidableEq

/-- Run a function on one row as it was read; a row that is not there is left alone. -/
def planRow (request : RailRequest) (job : Option SolveJob)
    (f : SolveJob → Except RailError SolveJob) : Except RailError Plan :=
  match job with
  | none => .ok (.update request [])
  | some job => do .ok (.update request [(job, ← f job)])

def RailRequest.plan (s : RailStore) (request : RailRequest) : Except RailError Plan :=
  match request with
  | .enqueue r => do
    let (job, created) ← SolveRail.enqueue s.jobs s.members r
    .ok (if created then .insert job else .update request [])
  | .cancel tournamentId jobId now =>
    planRow request (getJob s.jobs tournamentId jobId) (fun job => SolveRail.cancel job now)
  | .claimNext worker now =>
    match nextQueued s.jobs with
    | none => .ok (.update request [])
    | some job => .ok (.claim job.id worker now)
  | .markRunning jobId now =>
    planRow request (s.jobs.get jobId) (fun job => SolveRail.markRunning job now)
  | .heartbeat worker jobId progress now =>
    planRow request (s.jobs.get jobId) (fun job => .ok (SolveRail.heartbeat job worker progress now))
  | .recordOutcome worker jobId outcome now =>
    planRow request (s.jobs.get jobId) (fun job => SolveRail.recordOutcome job worker outcome now)
  | .reapExpired lease now => do .ok (.update request (← SolveRail.reapExpired s.jobs lease now))

/-! ## Writing back -/

def written {α : Type} [DecidableEq α] (read new current : α) : α :=
  if new = read then current else new

/-- The `UPDATE` of a row read as `read` and made into `new`, over the row as it is now. -/
def SolveJob.flush (read new current : SolveJob) : SolveJob :=
  { current with
    status := written read.status new.status current.status
    result := written read.result new.result current.result
    error := written read.error new.error current.error
    progress := written read.progress new.progress current.progress
    claimedBy := written read.claimedBy new.claimedBy current.claimedBy
    claimedAt := written read.claimedAt new.claimedAt current.claimedAt
    heartbeatAt := written read.heartbeatAt new.heartbeatAt current.heartbeatAt
    startedAt := written read.startedAt new.startedAt current.startedAt
    finishedAt := written read.finishedAt new.finishedAt current.finishedAt }

def overwrite (rows : List (SolveJob × SolveJob)) (current : SolveJob) : SolveJob :=
  match rows.find? (fun p => p.1.id = current.id) with
  | none => current
  | some p => p.1.flush p.2 current

theorem overwrite_id (rows : List (SolveJob × SolveJob)) (current : SolveJob) :
    (overwrite rows current).id = current.id := by
  unfold overwrite
  split <;> rfl

/-- `uq_solve_jobs_active` and `uq_solve_jobs_idempotency_key`. -/
def Indexed (jobs : SolveJobs) : Prop :=
  ((jobs.rows.filter (fun job => job.Active)).map (fun job => (job.tournamentId, job.type))).Nodup ∧
    (jobs.rows.filterMap (fun job =>
      job.idempotencyKey.map (fun key => (job.tournamentId, key)))).Nodup

instance (jobs : SolveJobs) : Decidable (Indexed jobs) := inferInstanceAs (Decidable (_ ∧ _))

/-- Commit a plan; an index that refuses it rolls the transaction back. -/
def RailStore.write (s : RailStore) : Plan → RailStore
  | .insert job =>
    match s.jobs.insert job with
    | none => s
    | some jobs => if Indexed jobs then { s with jobs := jobs } else s
  | .claim jobId worker now =>
    match s.jobs.get jobId with
    | none => s
    | some job =>
      match claimRow worker now job, applyEvent job .queued "claim" "system" with
      | some claimed, .ok _ => { s with jobs := s.jobs.put claimed }
      | _, _ => s
  | .update _ rows =>
    let jobs := s.jobs.update (overwrite rows) (overwrite_id rows)
    if Indexed jobs then { s with jobs := jobs } else s

abbrev Rail := InFlight RailStore Plan

abbrev RailMove := InFlight.Move RailRequest

def RailStore.read (s : RailStore) (request : RailRequest) : Option Plan :=
  (request.plan s).toOption

def railStep : Rail → RailMove → Rail := InFlight.step RailStore.read RailStore.write

/-- Nothing that matters to the transaction happened to the row between its read and its write:
nobody finished the job, a completion still finds the lease it read and a requeue the attempts. -/
def Current (read new job : SolveJob) : Prop :=
  (job.status.isTerminal → job.status = new.status ∧ new.result = read.result) ∧
    (new.result ≠ read.result → job.claimedBy = read.claimedBy) ∧
    (new.status = .queued → job.attempts = read.attempts)

instance (read new job : SolveJob) : Decidable (Current read new job) :=
  inferInstanceAs (Decidable (_ ∧ _ ∧ _))

/-- A job is enqueued with an attempt to spend, and who changes a status meets the row as read. -/
def Undisturbed (s : RailStore) : Plan → Prop
  | .insert job => 0 < job.maxAttempts
  | .claim .. => True
  | .update _ rows => ∀ p ∈ rows, p.2.status ≠ p.1.status →
      ∀ job ∈ s.jobs.get p.1.id, Current p.1 p.2 job

instance (s : RailStore) (plan : Plan) : Decidable (Undisturbed s plan) :=
  match plan with
  | .insert job => inferInstanceAs (Decidable (0 < job.maxAttempts))
  | .claim .. => .isTrue trivial
  | .update _ rows => inferInstanceAs (Decidable (∀ p ∈ rows, p.2.status ≠ p.1.status →
      ∀ job ∈ s.jobs.get p.1.id, Current p.1 p.2 job))

def RailSteps : Rail → RailMove → Rail → Prop :=
  InFlight.Steps RailStore.read RailStore.write Undisturbed

def Idle (r : Rail) : Prop := r.store.jobs.rows = [] ∧ r.plans = []

end SolveRail
