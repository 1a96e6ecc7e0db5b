import Mathlib.Algebra.Ring.Nat
import Mathlib.Data.Fintype.Basic
import NovaRtl.Contracts.Base
import NovaRtl.Transact.Table

/-!
# Records of the job scheduler

The value types of `orchestrator/scheduler.py` and the checks on them. Instants are
microseconds since the Unix epoch. A `JobRecord` is a row of `scheduler_jobs`: the columns
fixed at submission (`JobSpec`) and the ones an `UPDATE` may set (`JobProgress`).
-/

namespace NovaRtl.Scheduler

abbrev Instant := Int

/-- `datetime.max` in UTC. -/
def maxInstant : Instant := 253402300799999999

inductive JobKind where
  | synthesisSta | formal | openroad | planner
  deriving DecidableEq, Repr

instance : Fintype JobKind where
  elems := {.synthesisSta, .formal, .openroad, .planner}
  complete kind := by cases kind <;> decide

def JobKind.ofName? : String → Option JobKind
  | "SYNTHESIS_STA" => some .synthesisSta
  | "FORMAL" => some .formal
  | "OPENROAD" => some .openroad
  | "PLANNER" => some .planner
  | _ => none

inductive JobStatus where
  | queued | dispatching | running | cancelling | quarantined
  | completed | cancelled | infrastructureError
  deriving DecidableEq, Repr

/-- `_ACTIVE_STATUSES`: the statuses that hold a lease. -/
def JobStatus.active : JobStatus → Bool
  | .dispatching | .running | .cancelling | .quarantined => true
  | _ => false

/-- `_NONTERMINAL_STATUSES` -/
def JobStatus.nonterminal (s : JobStatus) : Bool := s = .queued || s.active

abbrev JobStatus.terminal (s : JobStatus) : Prop := s.nonterminal = false

inductive EventType where
  | queued | dispatching | running | cancellationRequested | quarantined
  | completed | cancelled | infrastructureError
  deriving DecidableEq, Repr

inductive Classification where
  | publicData | internal | restrictedRtl
  deriving DecidableEq, Repr

structure ArtifactRef where
  artifactId : EntityId
  uri : String
  sha256 : String
  mediaType : String
  sizeBytes : Nat
  createdAt : Instant
  producerStageResultId : Option EntityId
  classification : Classification
  deriving DecidableEq, Repr

/-- A recoverable worker capability; only its identity is known to the scheduler. -/
structure WorkerControl where
  handle : Nat
  deriving DecidableEq, Repr

structure WorkerTermination where
  terminated : Bool
  partialLogArtifacts : List ArtifactRef
  deriving DecidableEq, Repr

inductive SchedulerError where
  | budgetExceeded (message : String)
  | policyMismatch (message : String)
  | jobState (message : String)
  /-- Raised by Python or SQLite themselves. -/
  | valueError (message : String)
  | overflowError
  | operationalError (message : String)
  | keyError (key : String)
  /-- A worker call raised a `BaseException` that is no `Exception`. -/
  | interrupted
  /-- The loop bound of the model; by `dispatch_solo` it is never reached. -/
  | outOfFuel
  deriving DecidableEq, Repr

structure JobKindLimits where
  maxConcurrency : Nat
  cpuCores : Nat
  memoryBytes : Nat
  wallTimeMs : Nat
  maxConcurrency_pos : 0 < maxConcurrency
  cpuCores_pos : 0 < cpuCores
  memoryBytes_pos : 0 < memoryBytes
  wallTimeMs_pos : 0 < wallTimeMs
  deriving DecidableEq

/-- Total in the kind: `all_queues_are_explicit` requires limits for every queue. -/
structure SchedulerPolicy where
  kindLimits : JobKind → JobKindLimits
  maxCandidates : Nat
  maxTokens : Nat
  maxRetryDepth : Nat
  maxCandidates_pos : 0 < maxCandidates
  maxTokens_pos : 0 < maxTokens
  deriving DecidableEq

/-- A Python `datetime`: its instant and its offset from UTC, `none` when it is naive. -/
structure DateTime where
  instant : Instant
  utcOffset : Option Int
  deriving DecidableEq, Repr

/-- A submission, as the unvalidated dataclass carries it. -/
structure JobRequest where
  jobId : EntityId
  runId : EntityId
  kind : String
  cpuCores : Int
  memoryBytes : Int
  wallTimeMs : Int
  candidateCost : Int
  tokenCost : Int
  retryDepth : Int
  deadline : DateTime
  worker : Option WorkerControl

structure BudgetUsage where
  candidateCount : Nat
  tokenCount : Nat
  deriving DecidableEq, Repr

/-- The columns of a job that no statement updates. -/
structure JobSpec where
  jobId : EntityId
  runId : EntityId
  kind : JobKind
  cpuCores : Nat
  memoryBytes : Nat
  wallTimeMs : Nat
  candidateCost : Nat
  tokenCost : Nat
  retryDepth : Nat
  deadline : Instant
  submittedAt : Instant
  cpuCores_pos : 0 < cpuCores
  memoryBytes_pos : 0 < memoryBytes
  wallTimeMs_pos : 0 < wallTimeMs
  deriving DecidableEq

/-- The columns of a job that the scheduler updates. -/
structure JobProgress where
  status : JobStatus
  partialLogArtifacts : List ArtifactRef
  startedAt : Option Instant
  endedAt : Option Instant
  errorCode : Option String
  deriving DecidableEq

structure JobRecord extends JobSpec, JobProgress
  deriving DecidableEq

structure SchedulerEventRecord where
  jobId : EntityId
  eventType : EventType
  timestamp : Instant
  partialLogArtifacts : List ArtifactRef
  errorCode : Option String
  deriving DecidableEq

/-! ## Request validation -/

def requirePositive (name : String) (value : Int) : Except SchedulerError { n : Nat // 0 < n } :=
  if h : value ≤ 0 then .error (.valueError (name ++ " must be a positive integer"))
  else .ok ⟨value.toNat, by omega⟩

def requireNonnegative (name : String) (value : Int) : Except SchedulerError Nat :=
  if value < 0 then .error (.valueError (name ++ " must be a nonnegative integer"))
  else .ok value.toNat

def requireBudget (ok : Prop) [Decidable ok] (message : String) : Except SchedulerError Unit :=
  if ok then .ok () else .error (.budgetExceeded message)

/-- `value + timedelta(milliseconds=ms)`, which overflows past `datetime.max`. -/
def addMilliseconds (value : Instant) (ms : Nat) : Except SchedulerError Instant :=
  if value + 1000 * ms ≤ maxInstant then .ok (value + 1000 * ms) else .error .overflowError

/-- The deadline must leave room for the whole wall time budget. -/
def requireDeadline (deadline : DateTime) (now : Instant) (wallTimeMs : Nat) :
    Except SchedulerError Unit := do
  if deadline.utcOffset ≠ some 0 then
    throw (.valueError "deadline must be timezone-aware UTC")
  requireBudget (now < deadline.instant)
    "job deadline cannot accommodate its wall time budget"
  let latest ← addMilliseconds now wallTimeMs
  requireBudget (latest ≤ deadline.instant)
    "job deadline cannot accommodate its wall time budget"

/-- The name of a kind in error texts. -/
def JobKind.name : JobKind → String
  | .synthesisSta => "SYNTHESIS_STA"
  | .formal => "FORMAL"
  | .openroad => "OPENROAD"
  | .planner => "PLANNER"

/-- `_validate_request`, returning the columns that the accepted request fixes. -/
def validateRequest (policy : SchedulerPolicy) (job : JobRequest) (now : Instant) :
    Except SchedulerError JobSpec := do
  if ¬ (isEntityId job.jobId ∧ isEntityId job.runId) then
    throw (.valueError "job_id and run_id must be canonical entity IDs")
  let some kind := JobKind.ofName? job.kind
    | throw (.valueError ("unknown job kind: " ++ job.kind))
  let cpuCores ← requirePositive "cpu_cores" job.cpuCores
  let memoryBytes ← requirePositive "memory_bytes" job.memoryBytes
  let wallTimeMs ← requirePositive "wall_time_ms" job.wallTimeMs
  let candidateCost ← requireNonnegative "candidate_cost" job.candidateCost
  let tokenCost ← requireNonnegative "token_cost" job.tokenCost
  let retryDepth ← requireNonnegative "retry_depth" job.retryDepth
  let limits := policy.kindLimits kind
  requireBudget (cpuCores.1 ≤ limits.cpuCores) (kind.name ++ " CPU budget exceeded")
  requireBudget (memoryBytes.1 ≤ limits.memoryBytes) (kind.name ++ " memory budget exceeded")
  requireBudget (wallTimeMs.1 ≤ limits.wallTimeMs) (kind.name ++ " wall time budget exceeded")
  requireBudget (retryDepth ≤ policy.maxRetryDepth) "retry depth budget exceeded"
  requireDeadline job.deadline now wallTimeMs
  return {
    jobId := job.jobId, runId := job.runId, kind, cpuCores := cpuCores.1
    memoryBytes := memoryBytes.1, wallTimeMs := wallTimeMs.1, candidateCost, tokenCost
    retryDepth, deadline := job.deadline.instant, submittedAt := now
    cpuCores_pos := cpuCores.2, memoryBytes_pos := memoryBytes.2
    wallTimeMs_pos := wallTimeMs.2 }

theorem validateRequest_jobId {policy : SchedulerPolicy} {job : JobRequest} {now : Instant}
    {spec : JobSpec} (h : validateRequest policy job now = .ok spec) : spec.jobId = job.jobId := by
  simp only [validateRequest, bind, Except.bind, pure, Except.pure] at h
  repeat' split at h
  all_goals cases h
  all_goals rfl

/-! ## Partial logs -/

abbrev byArtifactId : ArtifactRef → EntityId := ArtifactRef.artifactId

/-- `_validate_artifacts` -/
def validateArtifacts (artifacts : List ArtifactRef) : Except SchedulerError Unit :=
  if (artifacts.map byArtifactId).Nodup then .ok ()
  else .error (.valueError "partial log artifact IDs must be unique")

def mergeArtifact (merged : List ArtifactRef) (artifact : ArtifactRef) :
    Except SchedulerError (List ArtifactRef) :=
  match Table.lookup byArtifactId merged artifact.artifactId with
  | some prior =>
    if prior ≠ artifact then
      .error (.jobState ("partial log artifact identity conflicts: " ++ artifact.artifactId))
    else .ok (Table.assign byArtifactId merged artifact)
  | none => .ok (Table.assign byArtifactId merged artifact)

/-- `_merge_artifacts` -/
def mergeArtifacts (first second : List ArtifactRef) : Except SchedulerError (List ArtifactRef) :=
  second.foldlM mergeArtifact (Table.dict byArtifactId first)

theorem mergeArtifact_ok {merged next : List ArtifactRef} {artifact : ArtifactRef}
    (hnodup : (merged.map byArtifactId).Nodup)
    (h : mergeArtifact merged artifact = .ok next) :
    (next.map byArtifactId).Nodup ∧ ∀ a, a ∈ next ↔ a = artifact ∨ a ∈ merged := by
  have hassign : next = Table.assign byArtifactId merged artifact := by
    unfold mergeArtifact at h
    split at h
    · split at h
      · cases h
      · exact (Except.ok.inj h).symm
    · exact (Except.ok.inj h).symm
  subst hassign
  refine ⟨Table.nodup_assign hnodup _, fun a => Table.mem_assign_of_consistent fun b hb hkey => ?_⟩
  have hlook : Table.lookup byArtifactId merged artifact.artifactId = some b :=
    (Table.lookup_eq_some hnodup).mpr ⟨hb, hkey⟩
  by_contra hne
  simp [mergeArtifact, hlook, hne] at h

theorem foldlM_mergeArtifact_ok {merged second next : List ArtifactRef}
    (hnodup : (merged.map byArtifactId).Nodup)
    (h : second.foldlM mergeArtifact merged = .ok next) :
    (next.map byArtifactId).Nodup ∧ ∀ a, a ∈ next ↔ a ∈ merged ∨ a ∈ second := by
  induction second generalizing merged with
  | nil =>
    obtain rfl := Except.ok.inj h
    exact ⟨hnodup, by simp⟩
  | cons artifact rest ih =>
    rw [List.foldlM_cons] at h
    cases hone : mergeArtifact merged artifact with
    | error e => simp [hone] at h; cases h
    | ok middle =>
      obtain ⟨hmid, hmem⟩ := mergeArtifact_ok hnodup hone
      rw [hone] at h
      obtain ⟨hnext, hnextMem⟩ := ih hmid h
      refine ⟨hnext, fun a => ?_⟩
      rw [hnextMem, hmem, List.mem_cons]
      tauto

/-- Merged logs have distinct identities and are the two lists together, except that of
two entries of `first` with one identity only the later stays. -/
theorem mergeArtifacts_ok {first second merged : List ArtifactRef}
    (h : mergeArtifacts first second = .ok merged) :
    (merged.map byArtifactId).Nodup ∧
      ∀ a, a ∈ merged ↔ a ∈ Table.dict byArtifactId first ∨ a ∈ second :=
  foldlM_mergeArtifact_ok (Table.nodup_dict first) h

theorem mergeArtifacts_nil (first : List ArtifactRef) :
    mergeArtifacts first [] = .ok (Table.dict byArtifactId first) := rfl

end NovaRtl.Scheduler
