import NovaRtl.Scheduler.Store

/-!
# The operations of `BoundedScheduler`

Each method is a program over the transactions of `Store` and the calls to the clock and
the workers. Reading the worker table and writing it are atomic steps of their own. The
`policy` argument is `self.policy`.
-/

namespace NovaRtl.Scheduler

open Transact Transact.Prog

abbrev Op := Prog World SchedulerError Answer

def utcNow : Op Instant := .call .now .ret

def callStart (job : EntityId) (worker : WorkerControl) : Op StartOutcome :=
  .call (.start job worker) .ret

def callTerminate (site : CallSite) (job : EntityId) (worker : WorkerControl) :
    Op TerminateOutcome := .call (.terminateAndWait site job worker) .ret

def transactNow {β : Type} (f : Instant → Transaction β) : Op β := do
  let now ← utcNow
  transact (f now)

def setWorker (job : EntityId) (worker : Option WorkerControl) : Op Unit :=
  modify fun w => { w with workers := Function.update w.workers job worker }

/-- `self._workers[job_id]` -/
def requireWorker (job : EntityId) : Op WorkerControl := do
  match ← read fun w => w.workers job with
  | some worker => return worker
  | none => .throw (.keyError job)

/-! ## Read-only queries -/

def unknownJob (job : EntityId) : SchedulerError := .jobState ("unknown job: " ++ job)

/-- `job`: the record of one row. -/
def jobRecord (job : EntityId) : Op JobRecord := do
  match ← read fun w => w.db.row? job with
  | some record => return record
  | none => .throw (unknownJob job)

def consumed (run : EntityId) : Op BudgetUsage :=
  transact fun w => do
    let usage ← consumedOn w.db run
    return (usage, w)

def eventsOf (db : Database) (job : EntityId) : List SchedulerEventRecord :=
  db.events.filter fun e => e.jobId = job

def events (job : EntityId) : Op (List SchedulerEventRecord) := read fun w => eventsOf w.db job

/-- `handle` -/
def handle (job : EntityId) : Op EntityId := do
  let _ ← jobRecord job
  return job

/-! ## Ending a job -/

/-- `_attempt_termination`: `none` when the worker raised. -/
def attemptTermination (site : CallSite) (job : EntityId) (worker : WorkerControl) :
    Op (Option WorkerTermination) := do
  match ← callTerminate site job worker with
  | .returned termination => return some termination
  | .raised => return none
  | .interrupted => .throw .interrupted

/-- `termination.partial_log_artifacts if termination else ()` -/
def terminationLogs : Option WorkerTermination → List ArtifactRef
  | some termination => termination.partialLogArtifacts
  | none => []

def confirmed : Option WorkerTermination → Bool
  | some termination => termination.terminated
  | none => false

/-- `_quarantine` -/
def quarantine (job : EntityId) (logs : List ArtifactRef) (errorCode : String)
    (expected : JobStatus) : Op Unit :=
  transactNow (commitQuarantine job logs errorCode expected)

/-- `_finish` with `dispatch_after=False`. -/
def finishOnly (job : EntityId) (status : FinalStatus) (logs : List ArtifactRef)
    (errorCode : Option String) (expected : JobStatus) : Op Unit := do
  lift (validateArtifacts logs)
  transactNow (commitFinish job status logs errorCode expected)
  setWorker job none

/-! ## Dispatch -/

/-- The branch of `dispatch` in which `worker.start()` raised. -/
def recoverStart (job : EntityId) (worker : WorkerControl) : Op Unit := do
  let termination ← attemptTermination .startFailure job worker
  if confirmed termination then
    finishOnly job .infrastructureError (terminationLogs termination)
      (some "WORKER_START_FAILED") .dispatching
  else
    quarantine job (terminationLogs termination) "WORKER_START_TERMINATION_UNCONFIRMED"
      .dispatching

/-- The branch in which the row left `DISPATCHING` before the start was committed. -/
def abandonStart (job : EntityId) (worker : WorkerControl) : Op Unit := do
  let _ ← attemptTermination .lostDispatch job worker
  .throw (.jobState ("dispatch state changed before worker start commit: " ++ job))

/-- One pass of the loop of `dispatch` for a reserved job. -/
def startReserved (job : EntityId) : Op Unit := do
  let worker ← requireWorker job
  match ← callStart job worker with
  | .interrupted => .throw .interrupted
  | .raised => recoverStart job worker
  | .returned =>
    if ← transactNow (commitRunning job) then return () else abandonStart job worker

/-- The loop of `dispatch`, at most `fuel` passes. -/
def dispatchLoop (policy : SchedulerPolicy) : Nat → Op Unit
  | 0 => .throw .outOfFuel
  | fuel + 1 => do
    match ← transactNow (reserveNextDispatch policy) with
    | none => return ()
    | some record => do
      startReserved record.jobId
      dispatchLoop policy fuel

/-- Every pass but the last takes one job off the queue, so the queue bounds the loop. -/
def dispatch (policy : SchedulerPolicy) : Op Unit := do
  let queued ← read fun w => (queuedRows w.db).length
  dispatchLoop policy (queued + 1)

/-- `_finish` with `dispatch_after=True`. -/
def finish (policy : SchedulerPolicy) (job : EntityId) (status : FinalStatus)
    (logs : List ArtifactRef) (errorCode : Option String) (expected : JobStatus) : Op Unit := do
  finishOnly job status logs errorCode expected
  dispatch policy

/-! ## Public operations -/

def submit (policy : SchedulerPolicy) (job : JobRequest) : Op EntityId := do
  let now ← utcNow
  let spec ← lift (validateRequest policy job now)
  transact (admitJob policy spec)
  match job.worker with
  | some worker => setWorker job.jobId (some worker)
  | none => pure ()
  dispatch policy
  return job.jobId

def attachWorker (policy : SchedulerPolicy) (job : EntityId) (worker : WorkerControl) :
    Op EntityId := do
  let record ← jobRecord job
  if record.status ≠ .queued then
    .throw (.jobState ("worker can attach only to a queued job: " ++ job))
  else do
    setWorker job (some worker)
    dispatch policy
    return job

/-- `JobHandle.complete` -/
def complete (policy : SchedulerPolicy) (job : EntityId) (logs : List ArtifactRef) : Op Unit :=
  finish policy job .completed logs none .running

/-- What `_cancel` does after its request was committed. -/
def settleCancellation (policy : SchedulerPolicy) (job : EntityId) (errorCode : Option String)
    (prior : JobStatus) (merged : List ArtifactRef) : Op Unit := do
  if prior = .queued then finish policy job .cancelled merged errorCode .cancelling
  else do
    let termination ← match ← read fun w => w.workers job with
      | some worker => attemptTermination .cancellation job worker
      | none => pure none
    let completedLogs ← lift (mergeArtifacts merged (terminationLogs termination))
    if confirmed termination then
      finish policy job .cancelled completedLogs errorCode .cancelling
    else
      quarantine job completedLogs "WORKER_TERMINATION_UNCONFIRMED" .cancelling

/-- `_cancel` -/
def cancelJob (policy : SchedulerPolicy) (job : EntityId) (logs : List ArtifactRef)
    (errorCode : Option String) (skipIfTerminal : Bool) : Op Bool := do
  lift (validateArtifacts logs)
  match ← transactNow (requestCancellation job logs errorCode skipIfTerminal) with
  | none => return false
  | some (prior, merged) => do
    settleCancellation policy job errorCode prior merged
    return true

/-- `JobHandle.cancel` -/
def cancel (policy : SchedulerPolicy) (job : EntityId) (logs : List ArtifactRef) : Op Unit := do
  let _ ← cancelJob policy job logs none false
  return ()

/-- A row of the sweep's snapshot has passed its absolute deadline or its wall time. -/
def rowExpired (row : JobRecord) (instant : Instant) : Except SchedulerError Bool := do
  let absoluteExpired := row.deadline ≤ instant
  let wallExpired ← match row.startedAt with
    | none => pure false
    | some startedAt => do
      let limit ← addMilliseconds startedAt row.wallTimeMs
      pure (decide (limit ≤ instant))
  return absoluteExpired || wallExpired

/-- The loop of `enforce_deadlines` over the rows of its snapshot. -/
def sweep (policy : SchedulerPolicy) (instant : Instant) : List JobRecord → Op (List EntityId)
  | [] => return []
  | row :: rest => do
    if ← lift (rowExpired row instant) then do
      let cancelled ← cancelJob policy row.jobId [] (some "DEADLINE_EXCEEDED") true
      let expired ← sweep policy instant rest
      return if cancelled then row.jobId :: expired else expired
    else sweep policy instant rest

/-- The rows that `enforce_deadlines` looks at. -/
def sweepRows (db : Database) : List JobRecord :=
  db.jobs.filter fun r =>
    r.status = .queued || r.status = .dispatching || r.status = .running

def enforceDeadlines (policy : SchedulerPolicy) (now : Option DateTime) : Op (List EntityId) := do
  let instant ← match now with
    | some value => pure value
    | none => do
      let value ← utcNow
      pure ⟨value, some 0⟩
  if instant.utcOffset ≠ some 0 then
    .throw (.valueError "deadline enforcement time must be timezone-aware UTC")
  else do
    let rows ← read fun w => sweepRows w.db
    sweep policy instant.instant rows

def recordPartialLogs (job : EntityId) (artifacts : List ArtifactRef) : Op Unit := do
  lift (validateArtifacts artifacts)
  transact (commitPartialLogs job artifacts)

/-- `record.error_code or default`; Python takes the empty text for false. -/
def errorCodeOr (errorCode : Option String) (default : String) : String :=
  match errorCode with
  | some code => if code = "" then default else code
  | none => default

/-- `reconcile_quarantined` -/
def reconcileQuarantined (policy : SchedulerPolicy) (job : EntityId) (worker : WorkerControl) :
    Op JobRecord := do
  let record ← jobRecord job
  if record.status ≠ .quarantined then
    .throw (.jobState ("job is not quarantined: " ++ job))
  else do
    setWorker job (some worker)
    let termination ← attemptTermination .reconciliation job worker
    let logs ← lift (mergeArtifacts record.partialLogArtifacts (terminationLogs termination))
    if confirmed termination then
      finish policy job .infrastructureError logs
        (some (errorCodeOr record.errorCode "QUARANTINED_WORKER_TERMINATED")) .quarantined
    else
      quarantine job logs "WORKER_TERMINATION_UNCONFIRMED" .quarantined
    jobRecord job

/-! ## Construction -/

abbrev WorkerResolver := JobRecord → Option WorkerControl

/-- `_attempt_termination(worker) if worker else None` -/
def attemptIfAny (job : EntityId) : Option WorkerControl → Op (Option WorkerTermination)
  | some worker => attemptTermination .reconciliation job worker
  | none => return none

/-- The branch of `_reconcile_nonterminal` for a row left in `DISPATCHING`. -/
def reconcileDispatching (record : JobRecord) (worker : Option WorkerControl) : Op Unit := do
  let termination ← attemptIfAny record.jobId worker
  let logs ← lift (mergeArtifacts record.partialLogArtifacts (terminationLogs termination))
  if confirmed termination then
    finishOnly record.jobId .infrastructureError logs (some "INTERRUPTED_DURING_DISPATCH")
      .dispatching
  else
    quarantine record.jobId logs "INTERRUPTED_DISPATCH_WORKER_UNCONFIRMED" .dispatching

/-- `_resume_cancellation` -/
def resumeCancellation (record : JobRecord) (worker : Option WorkerControl) : Op Unit := do
  let termination ← attemptIfAny record.jobId worker
  let logs ← lift (mergeArtifacts record.partialLogArtifacts (terminationLogs termination))
  if confirmed termination then
    finishOnly record.jobId .cancelled logs record.errorCode .cancelling
  else
    quarantine record.jobId logs "WORKER_TERMINATION_UNCONFIRMED" .cancelling

/-- The branches of `_reconcile_nonterminal` for one record of its snapshot. -/
def reconcileOne (policy : SchedulerPolicy) (record : JobRecord)
    (worker : Option WorkerControl) : Op Unit :=
  match record.status, worker with
  | .dispatching, _ => reconcileDispatching record worker
  | .running, none =>
    quarantine record.jobId record.partialLogArtifacts "WORKER_OWNERSHIP_LOST" .running
  | .cancelling, _ => resumeCancellation record worker
  | .quarantined, some control => do
    let _ ← reconcileQuarantined policy record.jobId control
    return ()
  | _, _ => return ()

/-- The loop of `_reconcile_nonterminal`. -/
def reconcileAll (policy : SchedulerPolicy) (resolver : WorkerResolver) :
    List JobRecord → Op Unit
  | [] => return ()
  | record :: rest => do
    match resolver record with
    | some worker => setWorker record.jobId (some worker)
    | none => pure ()
    reconcileOne policy record (resolver record)
    reconcileAll policy resolver rest

/-- `_reconcile_nonterminal` -/
def reconcileNonterminal (policy : SchedulerPolicy) (resolver : WorkerResolver) : Op Unit := do
  let records ← read fun w => w.db.jobs.filter fun r => r.status.nonterminal
  reconcileAll policy resolver records
  dispatch policy

/-- `BoundedScheduler(database_path, policy, worker_resolver=…)`. A constructor that raises
leaves no scheduler behind. -/
def construct (policy : SchedulerPolicy) (resolver : WorkerResolver) : Op Unit := do
  modify fun w => { w with workers := fun _ => none }
  transact (initializeDatabase policy)
  reconcileNonterminal policy resolver
  modify fun w => { w with online := true }

end NovaRtl.Scheduler
