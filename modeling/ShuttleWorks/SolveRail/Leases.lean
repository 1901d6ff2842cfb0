import ShuttleWorks.SolveRail.Rail

/-! What the rail guarantees: a finished job keeps its status and its result, a result comes from
the worker that holds the lease, and no job is attempted more often than it may be. -/

namespace SolveRail
open Lib Sync

/-! ## What a transaction makes of a row -/

/-- The row `new` is what some transaction may make of the row `read`. -/
structure Made (request : RailRequest) (read new : SolveJob) : Prop where
  requeued : new.status ≠ read.status → new.status = .queued → read.attempts < read.maxAttempts
  result : new.result ≠ read.result → new.status ≠ read.status ∧ ∃ worker jobId outcome now,
    request = .recordOutcome worker jobId outcome now ∧ read.claimedBy = some worker

theorem Made.same (request : RailRequest) (job : SolveJob) : Made request job job :=
  ⟨fun h => absurd rfl h, fun h => absurd rfl h⟩

theorem Made.moved {request : RailRequest} {read new : SolveJob} (result : new.result = read.result)
    (status : new.status ≠ .queued) : Made request read new :=
  ⟨fun _ queued => absurd queued status, fun changed => absurd result changed⟩

theorem target_of_event : ∀ e ∈ solveJobMachine.edges, ∀ e' ∈ solveJobMachine.edges,
    e.event = e'.event → e.target = e'.target := by decide

theorem target_not_source : ∀ e ∈ solveJobMachine.edges, e.target ∉ e.fromStates := by decide

theorem transition_eq_ok {job job' : SolveJob} {target : SolveJobStatus} {actor : String}
    (h : transition job target actor = .ok job') :
    target ≠ job.status ∧
      job' = { job with status := target, machineVersion := solveJobMachine.version } := by
  unfold transition at h
  simp only [bind_eq_ok] at h
  obtain ⟨-, -, h⟩ := h
  split at h
  · next e found =>
    have source := List.find?_some found
    simp only [decide_eq_true_eq] at source
    unfold applyEvent at h
    split at h
    · next e' checked =>
      cases h
      obtain ⟨-, member, -, event, -⟩ := StateMachine.check_eq_ok checked
      have known := List.mem_of_find?_eq_some found
      rw [target_of_event e' member e known event, source.2]
      refine ⟨fun same => ?_, rfl⟩
      exact target_not_source e known (by rw [source.2, same]; exact source.1)
    · cases h
  · cases h

section
variable {request : RailRequest} {job job' : SolveJob} {now : Instant}

theorem cancel_made (h : cancel job now = .ok job') : Made request job job' := by
  unfold cancel at h
  split at h
  · cases h
    exact .same _ _
  · rw [bind_eq_ok] at h
    obtain ⟨moved, h₁, h⟩ := h
    obtain ⟨-, rfl⟩ := transition_eq_ok h₁
    cases h
    exact .moved rfl nofun

theorem markRunning_made (h : markRunning job now = .ok job') : Made request job job' := by
  unfold markRunning at h
  rw [bind_eq_ok] at h
  obtain ⟨moved, h₁, h⟩ := h
  obtain ⟨-, rfl⟩ := transition_eq_ok h₁
  cases h
  exact .moved rfl nofun

theorem heartbeat_made (worker : String) (progress : Option JsonObject) :
    Made request job (heartbeat job worker progress now) := by
  unfold heartbeat
  split
  · exact .same _ _
  · split
    · exact ⟨fun h => absurd rfl h, fun h => absurd rfl h⟩
    · exact .same _ _

theorem fail_made {error : JsonObject} {retryable : Bool}
    (h : fail job error retryable now = .ok job') : Made request job job' := by
  unfold fail at h
  split at h
  · next retry =>
    rw [bind_eq_ok] at h
    obtain ⟨moved, h₁, h⟩ := h
    obtain ⟨-, rfl⟩ := transition_eq_ok h₁
    cases h
    exact ⟨fun _ _ => retry.2, fun changed => absurd rfl changed⟩
  · rw [bind_eq_ok] at h
    obtain ⟨moved, h₁, h⟩ := h
    obtain ⟨-, rfl⟩ := transition_eq_ok h₁
    cases h
    exact .moved rfl nofun

theorem recordOutcome_made {worker : String} {jobId : Uuid} {outcome : RunnerOutcome}
    (h : recordOutcome job worker outcome now = .ok job') :
    Made (.recordOutcome worker jobId outcome now) job job' := by
  unfold recordOutcome at h
  split at h
  · cases h
    exact .same _ _
  · split at h
    · cases h
      exact .same _ _
    · next lease =>
      have lease := not_not.mp lease
      have completed : ∀ {target : SolveJobStatus} {actor : String} {moved : SolveJob}
          {result : JsonObject}, transition job target actor = .ok moved → target ≠ .queued →
          Made (.recordOutcome worker jobId outcome now) job
            { moved with result := some result, finishedAt := some now } := by
        intro target actor moved result h final
        obtain ⟨changed, rfl⟩ := transition_eq_ok h
        exact ⟨fun _ queued => absurd queued final,
          fun _ => ⟨changed, worker, jobId, outcome, now, rfl, lease⟩⟩
      split at h
      · dsimp only at h
        split at h
        · unfold completeInfeasible at h
          rw [bind_eq_ok] at h
          obtain ⟨moved, h₁, h⟩ := h
          cases h
          exact completed h₁ (by decide)
        · unfold completeSuccess at h
          rw [bind_eq_ok] at h
          obtain ⟨moved, h₁, h⟩ := h
          cases h
          exact completed h₁ (by decide)
      · exact fail_made h
      · exact fail_made h
      · cases h
        exact .same _ _
      · exact fail_made h

end

/-! ## Plans -/

/-- A plan that fits the store: new jobs are queued and unattempted, and rows to be updated are of
stored jobs. -/
def Planned (s : RailStore) : Plan → Prop
  | .insert job => job.attempts = 0 ∧ job.result = none
  | .claim .. => True
  | .update request rows => ∀ p ∈ rows, Made request p.1 p.2 ∧
      ∃ job, s.jobs.get p.1.id = some job ∧ job.maxAttempts = p.1.maxAttempts

def Bounded (s : RailStore) : Prop :=
  ∀ id job, s.jobs.get id = some job →
    job.attempts ≤ job.maxAttempts ∧ (job.status = .queued → job.attempts < job.maxAttempts)

variable {jobs : SolveJobs} {s : RailStore} {status : SolveJobStatus} {r r' : Rail}
  {ms : List RailMove}

theorem enqueue_eq_ok {members : List (Uuid × Uuid)} {r : EnqueueRequest} {job : SolveJob}
    (h : enqueue jobs members r = .ok (job, true)) : job = newJob r := by
  unfold enqueue at h
  split at h
  · cases h
  · split at h
    · cases h
    · rw [bind_eq_ok] at h
      obtain ⟨-, -, h⟩ := h
      cases h
      rfl

theorem planRow_planned {request : RailRequest} {job : Option SolveJob}
    {f : SolveJob → Except RailError SolveJob} {plan : Plan}
    (stored : ∀ row, job = some row → s.jobs.get row.id = some row)
    (made : ∀ row row', job = some row → f row = .ok row' → Made request row row')
    (h : planRow request job f = .ok plan) : Planned s plan := by
  unfold planRow at h
  split at h
  · cases h
    exact fun p hp => absurd hp List.not_mem_nil
  · next row =>
    rw [bind_eq_ok] at h
    obtain ⟨row', h₁, h⟩ := h
    cases h
    intro p hp
    rw [List.mem_singleton.mp hp]
    exact ⟨made row row' rfl h₁, row, stored row rfl, rfl⟩

theorem get_stored {id : Uuid} {row : SolveJob} (h : jobs.get id = some row) :
    jobs.get row.id = some row := by
  rw [Table.key_of_get h]
  exact h

theorem reapExpired_eq_ok {lease now : Int} {rows : List (SolveJob × SolveJob)}
    (h : reapExpired jobs lease now = .ok rows) :
    ∀ p ∈ rows, p.1 ∈ jobs.rows ∧ fail p.1 (leaseExpired p.1) true now = .ok p.2 := by
  intro p hp
  obtain ⟨job, stale, h⟩ := mapM_mem h p hp
  rw [bind_eq_ok] at h
  obtain ⟨job', failed, h⟩ := h
  cases h
  exact ⟨(List.mem_filter.mp stale).1, failed⟩

theorem plan_planned {request : RailRequest} {plan : Plan} (h : request.plan s = .ok plan) :
    Planned s plan := by
  have nothing : Planned s (.update request []) := fun p hp => absurd hp List.not_mem_nil
  cases request with
  | enqueue r =>
    simp only [RailRequest.plan, bind_eq_ok] at h
    obtain ⟨⟨job, created⟩, queued, h⟩ := h
    cases h
    cases created with
    | false => exact nothing
    | true =>
      rw [enqueue_eq_ok queued]
      exact ⟨rfl, rfl⟩
  | cancel tournamentId jobId now =>
    refine planRow_planned ?_ (fun _ _ _ => cancel_made) h
    intro row found
    obtain ⟨found, -⟩ := Option.filter_eq_some_iff.mp found
    exact get_stored found
  | claimNext worker now =>
    simp only [RailRequest.plan] at h
    split at h
    · cases h
      exact nothing
    · cases h
      exact trivial
  | markRunning jobId now =>
    exact planRow_planned (fun _ => get_stored) (fun _ _ _ => markRunning_made) h
  | heartbeat worker jobId progress now =>
    refine planRow_planned (fun _ => get_stored) ?_ h
    intro row row' _ beat
    cases beat
    exact heartbeat_made worker progress
  | recordOutcome worker jobId outcome now =>
    exact planRow_planned (fun _ => get_stored) (fun _ _ _ => recordOutcome_made) h
  | reapExpired lease now =>
    simp only [RailRequest.plan, bind_eq_ok] at h
    obtain ⟨rows, reaped, h⟩ := h
    cases h
    intro p hp
    obtain ⟨member, failed⟩ := reapExpired_eq_ok reaped p hp
    exact ⟨fail_made failed, p.1, Table.get_eq_some_iff.mpr ⟨member, rfl⟩, rfl⟩

/-! ## Commits -/

theorem claimRow_eq_some {worker : String} {now : Instant} {job claimed : SolveJob}
    (h : claimRow worker now job = some claimed) : job.status = .queued ∧
      claimed = { job with
        status := .claimed, claimedBy := some worker, claimedAt := some now
        heartbeatAt := some now, attempts := job.attempts + 1 } := by
  unfold claimRow at h
  split at h
  · next queued =>
    cases h
    exact ⟨queued, rfl⟩
  · cases h

theorem write_get (s : RailStore) (plan : Plan) (id : Uuid) :
    (s.write plan).jobs.get id = s.jobs.get id ∨
      (∃ job, plan = .insert job ∧ job.id = id ∧ s.jobs.get id = none ∧
        (s.write plan).jobs.get id = some job) ∨
      (∃ worker now job claimed, plan = .claim id worker now ∧ s.jobs.get id = some job ∧
        claimRow worker now job = some claimed ∧ (s.write plan).jobs.get id = some claimed) ∨
      ∃ request rows, plan = .update request rows ∧
        (s.write plan).jobs.get id = (s.jobs.get id).map (overwrite rows) := by
  cases plan with
  | insert job =>
    simp only [RailStore.write]
    split
    · exact .inl rfl
    · next jobs inserted =>
      split
      · obtain ⟨absent, rows⟩ := Table.insert_eq_some.mp inserted
        have found := Table.get_of_rows_concat rows id
        by_cases same : job.id = id
        · subst same
          refine .inr (.inl ⟨job, rfl, rfl, Table.get_eq_none_iff.mpr absent, ?_⟩)
          rw [found, if_pos rfl]
        · exact .inl (by rw [found, if_neg same])
      · exact .inl rfl
  | claim jobId worker now =>
    simp only [RailStore.write]
    split
    · exact .inl rfl
    · next job stored =>
      split
      · next claimed _ moved _ =>
        have key : claimed.id = jobId := by
          rw [(claimRow_eq_some moved).2]
          exact (Table.key_of_get stored : job.id = jobId)
        by_cases same : jobId = id
        · subst same
          refine .inr (.inr (.inl ⟨worker, now, job, claimed, rfl, stored, moved, ?_⟩))
          rw [← key]
          exact Table.get_put_self _ _
        · exact .inl (Table.get_put_of_ne _ (fun h => same (key.symm.trans h)))
      · exact .inl rfl
  | update request rows =>
    simp only [RailStore.write]
    split
    · exact .inr (.inr (.inr ⟨request, rows, rfl, Table.get_update _ (overwrite_id rows) id⟩))
    · exact .inl rfl

theorem overwrite_bounds (rows : List (SolveJob × SolveJob)) (job : SolveJob) :
    (overwrite rows job).attempts = job.attempts ∧
      (overwrite rows job).maxAttempts = job.maxAttempts := by
  unfold overwrite
  split <;> exact ⟨rfl, rfl⟩

theorem overwrite_cases (rows : List (SolveJob × SolveJob)) (job : SolveJob) :
    overwrite rows job = job ∨
      ∃ p ∈ rows, p.1.id = job.id ∧ overwrite rows job = p.1.flush p.2 job := by
  unfold overwrite
  split
  · exact .inl rfl
  · next p found =>
    exact .inr ⟨p, List.mem_of_find?_eq_some found, by simpa using List.find?_some found, rfl⟩

theorem write_maxAttempts {plan : Plan} {id : Uuid} {job : SolveJob}
    (h : s.jobs.get id = some job) :
    ∃ job', (s.write plan).jobs.get id = some job' ∧ job'.maxAttempts = job.maxAttempts := by
  rcases write_get s plan id with same | ⟨_, -, -, absent, -⟩ |
    ⟨worker, now, row, claimed, -, stored, moved, found⟩ | ⟨_, rows, -, found⟩
  · exact ⟨job, same.trans h, rfl⟩
  · rw [h] at absent
    cases absent
  · rw [h] at stored
    cases stored
    exact ⟨claimed, found, by rw [(claimRow_eq_some moved).2]⟩
  · rw [h] at found
    exact ⟨_, found, (overwrite_bounds rows job).2⟩

theorem Planned.write {plan other : Plan} (h : Planned s other) :
    Planned (s.write plan) other := by
  cases other with
  | insert job => exact h
  | claim => exact trivial
  | update request rows =>
    intro p hp
    obtain ⟨made, job, found, bound⟩ := h p hp
    obtain ⟨job', found', bound'⟩ := write_maxAttempts found
    exact ⟨made, job', found', bound'.trans bound⟩

theorem Bounded.write {plan : Plan} (h : Bounded s) (planned : Planned s plan)
    (undisturbed : Undisturbed s plan) : Bounded (s.write plan) := by
  intro id job' found'
  rcases write_get s plan id with same | ⟨job, rfl, -, -, found⟩ |
    ⟨worker, now, job, claimed, -, stored, moved, found⟩ | ⟨request, rows, rfl, found⟩
  · exact h id job' (same.symm.trans found')
  · rw [found] at found'
    cases found'
    have none := planned.1
    have some : 0 < job'.maxAttempts := undisturbed
    exact ⟨by omega, fun _ => by omega⟩
  · rw [found] at found'
    cases found'
    obtain ⟨queued, rfl⟩ := claimRow_eq_some moved
    exact ⟨(h id job stored).2 queued, nofun⟩
  · rw [found] at found'
    obtain ⟨job, stored, rfl⟩ := Option.map_eq_some_iff.mp found'
    obtain ⟨within, queued⟩ := h id job stored
    obtain ⟨attempts, maxAttempts⟩ := overwrite_bounds rows job
    rw [attempts, maxAttempts]
    refine ⟨within, fun now => ?_⟩
    rcases overwrite_cases rows job with same | ⟨p, hp, key, flushed⟩
    · exact queued (same ▸ now)
    · rw [flushed] at now
      by_cases moved : p.2.status = p.1.status
      · exact queued (by simpa [SolveJob.flush, written, moved] using now)
      · have target : p.2.status = .queued := by simpa [SolveJob.flush, written, moved] using now
        have there : s.jobs.get p.1.id = some job := by
          rw [key, Table.key_of_get stored]
          exact stored
        obtain ⟨made, row, found, bound⟩ := planned p hp
        rw [there] at found
        cases found
        have spent := (undisturbed p hp moved job there).2.2 target
        have := made.requeued moved target
        omega

/-- The row under `id` is finished, with this status and result. -/
def Finished (s : RailStore) (id : Uuid) (status : SolveJobStatus) (result : Option JsonObject) :
    Prop :=
  ∃ job, s.jobs.get id = some job ∧ job.status.isTerminal ∧ job.status = status ∧
    job.result = result

instance (s : RailStore) (id : Uuid) (status : SolveJobStatus) (result : Option JsonObject) :
    Decidable (Finished s id status result) :=
  inferInstanceAs (Decidable (∃ job ∈ s.jobs.get id, job.status.isTerminal ∧
    job.status = status ∧ job.result = result))

theorem Finished.write {plan : Plan} {id : Uuid} {result : Option JsonObject}
    (planned : Planned s plan) (undisturbed : Undisturbed s plan)
    (h : Finished s id status result) : Finished (s.write plan) id status result := by
  obtain ⟨job, stored, terminal, rfl, rfl⟩ := h
  rcases write_get s plan id with same | ⟨_, -, -, absent, -⟩ |
    ⟨worker, now, row, claimed, -, stored', moved, -⟩ | ⟨request, rows, rfl, found⟩
  · exact ⟨job, same.trans stored, terminal, rfl, rfl⟩
  · rw [stored] at absent
    cases absent
  · rw [stored] at stored'
    cases stored'
    rw [(claimRow_eq_some moved).1] at terminal
    cases terminal
  · rw [stored] at found
    suffices kept : (overwrite rows job).status = job.status ∧
        (overwrite rows job).result = job.result from
      ⟨_, found, by rw [kept.1]; exact terminal, kept⟩
    rcases overwrite_cases rows job with same | ⟨p, hp, key, flushed⟩
    · rw [same]
      exact ⟨rfl, rfl⟩
    · rw [flushed]
      have there : s.jobs.get p.1.id = some job := by
        rw [key]
        exact get_stored stored
      by_cases moved : p.2.status = p.1.status
      · have result : p.2.result = p.1.result := by
          by_contra changed
          exact ((planned p hp).1.result changed).1 moved
        simp [SolveJob.flush, written, moved, result]
      · obtain ⟨status, result⟩ := (undisturbed p hp moved job there).1 terminal
        simp [SolveJob.flush, written, status, result]

def RailStore.resultOf (s : RailStore) (id : Uuid) : Option JsonObject :=
  (s.jobs.get id).bind SolveJob.result

theorem write_result {plan : Plan} {id : Uuid} (planned : Planned s plan)
    (undisturbed : Undisturbed s plan) (changed : (s.write plan).resultOf id ≠ s.resultOf id) :
    ∃ worker jobId outcome now rows job,
      plan = .update (.recordOutcome worker jobId outcome now) rows ∧
        s.jobs.get id = some job ∧ job.claimedBy = some worker := by
  rcases write_get s plan id with same | ⟨job, rfl, -, absent, found⟩ |
    ⟨worker, now, row, claimed, -, stored, moved, found⟩ | ⟨request, rows, rfl, found⟩
  · exact absurd (by rw [RailStore.resultOf, same]; rfl) changed
  · refine absurd ?_ changed
    simp [RailStore.resultOf, found, absent, planned.2]
  · refine absurd ?_ changed
    simp [RailStore.resultOf, found, stored, (claimRow_eq_some moved).2]
  · cases stored : s.jobs.get id with
    | none =>
      refine absurd ?_ changed
      simp [RailStore.resultOf, found, stored]
    | some job =>
      have changed : (overwrite rows job).result ≠ job.result := by
        simpa [RailStore.resultOf, found, stored] using changed
      rcases overwrite_cases rows job with same | ⟨p, hp, key, flushed⟩
      · exact absurd (by rw [same]) changed
      · have result : p.2.result ≠ p.1.result := by
          intro same
          exact changed (by simp [flushed, SolveJob.flush, written, same])
        have there : s.jobs.get p.1.id = some job := by
          rw [key]
          exact get_stored stored
        obtain ⟨moved, worker, jobId, outcome, now, rfl, lease⟩ := (planned p hp).1.result result
        have held := (undisturbed p hp moved job there).2.1 result
        exact ⟨worker, jobId, outcome, now, rows, job, rfl, rfl, held.trans lease⟩

/-! ## Runs -/

theorem rail_fits (run : Reachable Idle RailSteps r) :
    InFlight.Fits Bounded Planned r := by
  refine InFlight.Fits.reachable ?_ ?_ ?_ run
  · rintro r ⟨empty, idle⟩
    refine ⟨fun id job found => ?_, fun plan hplan => ?_⟩
    · rw [Table.get_eq_some_iff, empty] at found
      exact absurd found.1 List.not_mem_nil
    · rw [idle] at hplan
      exact absurd hplan List.not_mem_nil
  · intro store request plan _ h
    unfold RailStore.read at h
    cases made : request.plan store with
    | error e =>
      rw [made] at h
      cases h
    | ok plan' =>
      rw [made] at h
      cases h
      exact plan_planned made
  · exact fun store plan bounded planned undisturbed =>
      ⟨bounded.write planned undisturbed, fun other fits => fits.write⟩

theorem railStep_store (r : Rail) (m : RailMove) :
    (InFlight.step RailStore.read RailStore.write r m).store = r.store ∨
      ∃ n plan, m = .commit n ∧ r.plans[n]? = some plan ∧
        (InFlight.step RailStore.read RailStore.write r m).store = r.store.write plan := by
  cases m with
  | start request =>
    simp only [InFlight.step]
    split <;> exact .inl rfl
  | commit n =>
    simp only [InFlight.step]
    split
    · exact .inl rfl
    · next plan found => exact .inr ⟨n, plan, rfl, found, rfl⟩
  | rollback n => exact .inl rfl

theorem Finished.step {m : RailMove} {id : Uuid} {result : Option JsonObject}
    (run : Reachable Idle RailSteps r) (step : RailSteps r m r')
    (h : Finished r.store id status result) : Finished r'.store id status result := by
  obtain ⟨meets, rfl⟩ := step
  rcases railStep_store r m with same | ⟨n, plan, rfl, found, committed⟩
  · rw [same]
    exact h
  · rw [committed]
    exact h.write ((rail_fits run).plans plan (List.mem_of_getElem? found)) (meets plan found)

theorem Finished.run {id : Uuid} {result : Option JsonObject} (reached : Reachable Idle RailSteps r)
    (run : Run RailSteps r ms r') (h : Finished r.store id status result) :
    Finished r'.store id status result := by
  induction run with
  | nil => exact h
  | cons step _ ih => exact ih (.step reached step) (h.step reached step)

/-- **Solve jobs are safe.** In every run in which whoever changes a status meets the row as it was
read: attempts stay within bounds, a finished job keeps its status and its result whatever follows,
and a result changes only when the worker that holds the job's lease completes it. -/
theorem solve_jobs_safe {r : Rail} (run : Reachable Idle RailSteps r) :
    (∀ id job, r.store.jobs.get id = some job → job.attempts ≤ job.maxAttempts) ∧
      (∀ id status result ms r', Finished r.store id status result → Run RailSteps r ms r' →
        Finished r'.store id status result) ∧
      ∀ m r' id, RailSteps r m r' → r'.store.resultOf id ≠ r.store.resultOf id →
        ∃ n worker jobId outcome now rows job, m = .commit n ∧
          r.plans[n]? = some (.update (.recordOutcome worker jobId outcome now) rows) ∧
          r.store.jobs.get id = some job ∧ job.claimedBy = some worker := by
  have fits := rail_fits run
  refine ⟨fun id job found => (fits.store id job found).1,
    fun _ _ _ _ _ finished later => finished.run run later, ?_⟩
  rintro m r' id ⟨meets, rfl⟩ changed
  rcases railStep_store r m with same | ⟨n, plan, rfl, found, committed⟩
  · exact absurd (by rw [same]) changed
  · rw [committed] at changed
    obtain ⟨worker, jobId, outcome, now, rows, job, rfl, stored, held⟩ :=
      write_result (fits.plans plan (List.mem_of_getElem? found)) (meets plan found) changed
    exact ⟨n, worker, jobId, outcome, now, rows, job, rfl, found, stored, held⟩

namespace RailRehearsal

def jobId : Uuid := "33333333-3333-4333-8333-333333333333"

def submission : EnqueueRequest where
  jobId := jobId
  tournamentId := "11111111-1111-4111-8111-111111111111"
  type := "meet_schedule_solve"
  params := [("random_seed", .int 7)]
  inputSnapshot := []
  now := 0

def worker : String := "worker-a"

def schedule : JsonObject := [("status", .str "optimal")]

def solved : RailRequest := .recordOutcome worker jobId { kind := .ok, result := some schedule } 900

def idle : Rail := ⟨{ jobs := .empty }, []⟩

def opening : List RailMove :=
  [.start (.enqueue submission), .commit 0, .start (.claimNext worker 10), .commit 0,
    .start (.markRunning jobId 20), .commit 0]

def overlap : List RailMove :=
  [.start solved, .start (.cancel submission.tournamentId jobId 800), .commit 1]

def after (ms : List RailMove) : Rail := ms.foldl railStep idle

def Undisturbed (r : Rail) : List RailMove → Prop
  | [] => True
  | m :: ms => InFlight.Meets SolveRail.Undisturbed r m ∧ Undisturbed (railStep r m) ms

instance Undisturbed.decidable : (r : Rail) → (ms : List RailMove) → Decidable (Undisturbed r ms)
  | _, [] => .isTrue trivial
  | r, m :: ms =>
    have := Undisturbed.decidable (railStep r m) ms
    inferInstanceAs (Decidable (_ ∧ _))

theorem reachable_foldl (h : Reachable Idle RailSteps r) (undisturbed : Undisturbed r ms) :
    Reachable Idle RailSteps (ms.foldl railStep r) := by
  induction ms generalizing r with
  | nil => exact h
  | cons m ms ih => exact ih (.step h ⟨undisturbed.1, rfl⟩) undisturbed.2

theorem solved_reachable : Reachable Idle RailSteps (after (opening ++ [.start solved])) :=
  reachable_foldl (.init ⟨rfl, rfl⟩) (by decide +kernel)

end RailRehearsal

open RailRehearsal in
theorem solve_jobs_safe_solved :
    (railStep (after (opening ++ [.start solved])) (.commit 0)).store.resultOf jobId =
        some schedule ∧
      ∃ job holder, (after (opening ++ [.start solved])).store.jobs.get jobId = some job ∧
        job.claimedBy = some holder := by
  have done : (railStep (after (opening ++ [.start solved])) (.commit 0)).store.resultOf jobId =
      some schedule := by decide +kernel
  have before : (after (opening ++ [.start solved])).store.resultOf jobId = none := by
    decide +kernel
  obtain ⟨_, holder, _, _, _, _, job, -, -, stored, held⟩ :=
    (solve_jobs_safe solved_reachable).2.2 (.commit 0)
      (railStep (after (opening ++ [.start solved])) (.commit 0)) jobId ⟨by decide +kernel, rfl⟩
      (by rw [done, before]; nofun)
  exact ⟨done, job, holder, stored, held⟩

open RailRehearsal in
/-- A completion read before a cancel and committed after it: the cancelled job succeeds. -/
theorem cancelled_job_succeeds :
    let cancelled := after (opening ++ overlap)
    Idle idle ∧ 0 < submission.maxAttempts ∧ Finished cancelled.store jobId .cancelled none ∧
      Finished (railStep cancelled (.commit 0)).store jobId .succeeded (some schedule) := by
  refine ⟨⟨rfl, rfl⟩, by decide, ?_, ?_⟩
  · decide +kernel
  · decide +kernel

end SolveRail
