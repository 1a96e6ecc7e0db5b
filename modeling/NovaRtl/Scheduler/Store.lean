import NovaRtl.Scheduler.Contracts
import NovaRtl.Transact.Program

/-!
# The scheduler's store and its transactions

`Database` holds the three tables. `World` adds what one process keeps in memory (the
worker table) and what only the workers themselves know: how often each one was started,
and whether it may still be running. The transactions below are the bodies of the
`with self._write_connection()` blocks; each returns its value and the new world, or an
error, in which case the connection rolls back.
-/

namespace NovaRtl.Scheduler

abbrev byJobId (r : JobRecord) : EntityId := r.jobId

def JobRecord.withProgress (r : JobRecord) (set : JobProgress → JobProgress) : JobRecord :=
  { r with toJobProgress := set r.toJobProgress }

@[simp] theorem JobRecord.withProgress_spec (r : JobRecord) (set : JobProgress → JobProgress) :
    (r.withProgress set).toJobSpec = r.toJobSpec := rfl

@[simp] theorem JobRecord.withProgress_progress (r : JobRecord)
    (set : JobProgress → JobProgress) : (r.withProgress set).toJobProgress = set r.toJobProgress :=
  rfl

/-- `scheduler_metadata`, `scheduler_jobs` in submission order and `scheduler_job_events`
in `event_index` order. `job_id` is `UNIQUE`. -/
structure Database where
  policy : Option SchedulerPolicy
  jobs : List JobRecord
  events : List SchedulerEventRecord
  unique : (jobs.map byJobId).Nodup

namespace Database

def empty (policy : SchedulerPolicy) : Database := ⟨some policy, [], [], List.nodup_nil⟩

def row? (db : Database) (job : EntityId) : Option JobRecord := Table.lookup byJobId db.jobs job

/-- `UPDATE scheduler_jobs SET … WHERE …` with its row count. -/
def update (db : Database) (where_ : JobRecord → Bool) (set : JobProgress → JobProgress) :
    Nat × Database :=
  (db.jobs.countP where_,
    { db with
      jobs := db.jobs.map fun r => if where_ r then r.withProgress set else r
      unique := by
        rw [List.map_map]
        convert db.unique using 2
        funext r
        simp only [Function.comp_apply]
        split <;> rfl })

def insert (db : Database) (spec : JobSpec) (fresh : ∀ r ∈ db.jobs, r.jobId ≠ spec.jobId) :
    Database :=
  { db with
    jobs := db.jobs ++ [⟨spec, ⟨.queued, [], none, none, none⟩⟩]
    unique := by
      rw [List.map_append]
      refine List.Nodup.append db.unique (List.nodup_singleton _) ?_
      simpa [List.disjoint_singleton] using fresh }

/-- `_append_event` -/
def appendEvent (db : Database) (job : EntityId) (eventType : EventType) (timestamp : Instant)
    (logs : List ArtifactRef) (errorCode : Option String) : Database :=
  { db with events := db.events ++ [⟨job, eventType, timestamp, logs, errorCode⟩] }

end Database

structure World where
  db : Database
  /-- A constructed scheduler exists in the running process. -/
  online : Bool
  /-- `self._workers` -/
  workers : EntityId → Option WorkerControl
  /-- How often the job's worker was started. -/
  starts : EntityId → Nat
  /-- The worker was started since its last confirmed termination, and its client has not
  reported the job complete. -/
  alive : EntityId → Bool
  /-- The worker confirmed a termination at some time, or its client reported the job
  complete. -/
  gone : EntityId → Bool

/-- The queue before the first submission under `policy`, and no process. -/
def World.initial (policy : SchedulerPolicy) : World :=
  ⟨.empty policy, false, fun _ => none, fun _ => 0, fun _ => false, fun _ => false⟩

/-- The report that the worker of a job has ended. -/
def World.ended (w : World) (job : EntityId) : World :=
  { w with
    alive := Function.update w.alive job false
    gone := Function.update w.gone job true }

/-- A worker's answer to `start`. -/
inductive StartOutcome where
  | returned
  | raised
  | interrupted
  deriving DecidableEq

/-- A worker's answer to `terminate_and_wait`. -/
inductive TerminateOutcome where
  | returned (termination : WorkerTermination)
  | raised
  | interrupted
  deriving DecidableEq

/-- Where a termination is asked for. -/
inductive CallSite where
  | startFailure | lostDispatch | cancellation | reconciliation
  deriving DecidableEq

inductive Request where
  | now
  | start (job : EntityId) (worker : WorkerControl)
  | terminateAndWait (site : CallSite) (job : EntityId) (worker : WorkerControl)

abbrev Answer : Request → Type
  | .now => Instant
  | .start _ _ => StartOutcome
  | .terminateAndWait _ _ _ => TerminateOutcome

/-- A call of `start` may leave a process behind whatever it returns; only a termination
that reports `terminated` is known to have ended it. -/
def World.answered (w : World) : (r : Request) → Answer r → World
  | .now, _ => w
  | .start job _, _ =>
    { w with
      starts := Function.update w.starts job (w.starts job + 1)
      alive := Function.update w.alive job true }
  | .terminateAndWait _ job _, .returned termination =>
    if termination.terminated then w.ended job else w
  | .terminateAndWait _ _ _, _ => w

abbrev Transaction (β : Type) := World → Except SchedulerError (β × World)

/-! ## Admission -/

/-- SQLite's `SUM` over an integer column. -/
def sqliteSum (column : List Nat) : Except SchedulerError Nat :=
  if column.sum < 2 ^ 63 then .ok column.sum else .error (.operationalError "integer overflow")

/-- `_consumed_on_connection` -/
def consumedOn (db : Database) (run : EntityId) : Except SchedulerError BudgetUsage := do
  let rows := db.jobs.filter fun r => r.runId = run
  let candidates ← sqliteSum (rows.map fun r => r.candidateCost)
  let tokens ← sqliteSum (rows.map fun r => r.tokenCost)
  return ⟨candidates, tokens⟩

/-- Python binds only integers below `2 ^ 63` to a SQLite parameter. -/
def bindable (spec : JobSpec) : Bool :=
  [spec.cpuCores, spec.memoryBytes, spec.wallTimeMs, spec.candidateCost, spec.tokenCost,
    spec.retryDepth].all (· < 2 ^ 63)

/-- The transaction of `submit`. -/
def admitJob (policy : SchedulerPolicy) (spec : JobSpec) : Transaction Unit := fun w =>
  if h : ∀ r ∈ w.db.jobs, r.jobId ≠ spec.jobId then do
    let consumed ← consumedOn w.db spec.runId
    requireBudget (consumed.candidateCount + spec.candidateCost ≤ policy.maxCandidates)
      "run candidate budget exceeded"
    requireBudget (consumed.tokenCount + spec.tokenCost ≤ policy.maxTokens)
      "run token budget exceeded"
    if bindable spec then
      let db := (w.db.insert spec h).appendEvent spec.jobId .queued spec.submittedAt [] none
      return ((), { w with db })
    else throw .overflowError
  else throw (.jobState ("job already exists: " ++ spec.jobId))

/-! ## Dispatch -/

/-- The rows that hold a lease of this kind. -/
def leases (db : Database) (kind : JobKind) : List JobRecord :=
  db.jobs.filter fun r => r.kind = kind && r.status.active

/-- `COUNT(*)`, `SUM(cpu_cores)` and `SUM(memory_bytes)` over the leases of a kind. -/
def leaseTotals (db : Database) (kind : JobKind) : Except SchedulerError (Nat × Nat × Nat) := do
  let cpu ← sqliteSum ((leases db kind).map fun r => r.cpuCores)
  let memory ← sqliteSum ((leases db kind).map fun r => r.memoryBytes)
  return ((leases db kind).length, cpu, memory)

/-- The scan of `_reserve_next_dispatch` over the queued rows. -/
def selectQueued (policy : SchedulerPolicy) (w : World) :
    List JobRecord → List JobKind → Except SchedulerError (Option JobRecord)
  | [], _ => .ok none
  | record :: rest, blockedKinds =>
    if record.kind ∈ blockedKinds then selectQueued policy w rest blockedKinds
    else if w.workers record.jobId = none then
      selectQueued policy w rest (record.kind :: blockedKinds)
    else do
      let limits := policy.kindLimits record.kind
      let (count, cpu, memory) ← leaseTotals w.db record.kind
      if limits.maxConcurrency ≤ count ∨ limits.cpuCores < cpu + record.cpuCores ∨
          limits.memoryBytes < memory + record.memoryBytes then
        selectQueued policy w rest (record.kind :: blockedKinds)
      else return some record

def queuedRows (db : Database) : List JobRecord := db.jobs.filter fun r => r.status = .queued

/-- `_reserve_next_dispatch` -/
def reserveNextDispatch (policy : SchedulerPolicy) (now : Instant) :
    Transaction (Option JobRecord) := fun w => do
  match ← selectQueued policy w (queuedRows w.db) [] with
  | none => return (none, w)
  | some record =>
    let (_, db) := w.db.update (fun r => r.jobId = record.jobId ∧ r.status = .queued)
      fun p => { p with status := .dispatching }
    return (some (record.withProgress fun p => { p with status := .dispatching }),
      { w with db := db.appendEvent record.jobId .dispatching now [] none })

/-- The transaction after a successful start. `false` when the row is not `DISPATCHING`
any more, and then nothing is written. -/
def commitRunning (job : EntityId) (now : Instant) : Transaction Bool := fun w =>
  let (rowcount, db) := w.db.update (fun r => r.jobId = job ∧ r.status = .dispatching)
    fun p => { p with status := .running, startedAt := some now }
  if rowcount ≠ 1 then .ok (false, w)
  else .ok (true, { w with db := db.appendEvent job .running now [] none })

/-! ## Cancellation, quarantine and completion -/

/-- The first transaction of `_cancel`: the status it found and the merged logs, or `none`
where a terminal or missing job is skipped. -/
def requestCancellation (job : EntityId) (logs : List ArtifactRef) (errorCode : Option String)
    (skipIfTerminal : Bool) (now : Instant) :
    Transaction (Option (JobStatus × List ArtifactRef)) := fun w =>
  match w.db.row? job with
  | none => absent w
  | some r =>
    if ¬ r.status.nonterminal then absent w
    else if r.status = .quarantined then
      throw (.jobState ("quarantined job requires explicit reconciliation: " ++ job))
    else do
      let merged ← mergeArtifacts r.partialLogArtifacts logs
      let (_, db) := w.db.update (fun s => s.jobId = job) fun p =>
        { p with status := .cancelling, partialLogArtifacts := merged, errorCode }
      return (some (r.status, merged),
        { w with db := db.appendEvent job .cancellationRequested now merged errorCode })
where
  absent (w : World) : Except SchedulerError (Option (JobStatus × List ArtifactRef) × World) :=
    if skipIfTerminal then .ok (none, w)
    else .error (.jobState ("job is missing or terminal: " ++ job))

/-- The transaction of `_quarantine`. -/
def commitQuarantine (job : EntityId) (logs : List ArtifactRef) (errorCode : String)
    (expected : JobStatus) (now : Instant) : Transaction Unit := fun w =>
  let (rowcount, db) := w.db.update (fun r => r.jobId = job ∧ r.status = expected) fun p =>
    { p with
      status := .quarantined, partialLogArtifacts := logs, errorCode := some errorCode }
  if rowcount ≠ 1 then .error (.jobState ("job cannot enter quarantine: " ++ job))
  else .ok ((), { w with db := db.appendEvent job .quarantined now logs (some errorCode) })

/-- The statuses that end a job. -/
inductive FinalStatus where
  | completed | cancelled | infrastructureError
  deriving DecidableEq, Repr

def FinalStatus.status : FinalStatus → JobStatus
  | .completed => .completed
  | .cancelled => .cancelled
  | .infrastructureError => .infrastructureError

def FinalStatus.eventType : FinalStatus → EventType
  | .completed => .completed
  | .cancelled => .cancelled
  | .infrastructureError => .infrastructureError

/-- The transaction of `_finish`. Completion is the client's report that the worker is
done with the job. -/
def commitFinish (job : EntityId) (status : FinalStatus) (logs : List ArtifactRef)
    (errorCode : Option String) (expected : JobStatus) (now : Instant) : Transaction Unit :=
  fun w =>
    let (rowcount, db) := w.db.update (fun r => r.jobId = job ∧ r.status = expected) fun p =>
      { p with
        status := status.status, partialLogArtifacts := logs, endedAt := some now, errorCode }
    if rowcount ≠ 1 then .error (.jobState ("job is missing or has unexpected state: " ++ job))
    else
      let written := { w with db := db.appendEvent job status.eventType now logs errorCode }
      .ok ((), if status = .completed then written.ended job else written)

/-- The transaction of `record_partial_logs`. -/
def commitPartialLogs (job : EntityId) (artifacts : List ArtifactRef) : Transaction Unit :=
  fun w =>
    match w.db.row? job with
    | none => absent
    | some r =>
      if ¬ r.status.nonterminal then absent
      else do
        let merged ← mergeArtifacts r.partialLogArtifacts artifacts
        let (_, db) := w.db.update (fun s => s.jobId = job) fun p =>
          { p with partialLogArtifacts := merged }
        return ((), { w with db })
where
  absent : Except SchedulerError (Unit × World) :=
    .error (.jobState ("job is missing or terminal: " ++ job))

/-- `_initialize`: store the policy, or compare it with the stored one. The hash and the
canonical bytes that are compared determine the policy. -/
def initializeDatabase (policy : SchedulerPolicy) : Transaction Unit := fun w =>
  match w.db.policy with
  | none => .ok ((), { w with db := { w.db with policy := some policy } })
  | some stored =>
    if stored ≠ policy then
      .error (.policyMismatch "resumed scheduler policy differs from persisted policy")
    else .ok ((), w)

end NovaRtl.Scheduler
