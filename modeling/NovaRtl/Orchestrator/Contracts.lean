import NovaRtl.Adapters.Base
import NovaRtl.Contracts.Checks
import NovaRtl.Scheduler.Contracts

/-!
# State machines and events of a run

The two state machines of `orchestrator/state.py`, its state records, and `RunEvent` of
`contracts/events.py`.
-/

namespace NovaRtl.Orchestrator

open Scheduler (ArtifactRef Instant)

inductive StateError where
  /-- `IllegalTransitionError` -/
  | illegal (text : String)
  /-- `StaleStateError` -/
  | stale (text : String)
  /-- `StateIntegrityError` -/
  | integrity (text : String)
  /-- `LedgerAppendError` -/
  | append (text : String)
  /-- `LedgerIntegrityError` -/
  | ledgerIntegrity (text : String)
  | value (text : String)
  /-- A contract's field is outside its type. -/
  | validation (field : String)
  /-- A value has no canonical JSON. -/
  | encoding
  /-- An integer does not fit a column. -/
  | overflow
  /-- `sqlite3.IntegrityError` -/
  | database (text : String)
  /-- A statement or the commit did not get through. -/
  | outage
  /-- The artifact store raised. -/
  | storage
  deriving DecidableEq, Repr

inductive RunState where
  | created
  | ingesting
  | baselining
  | evidenceBuild
  | searching
  | finalPhysical
  | finalVerification
  | reporting
  | completed
  | failedInput
  | failedBaseline
  | budgetExhausted
  | cancelled
  deriving DecidableEq, Repr

def RunState.text : RunState → String
  | created => "CREATED"
  | ingesting => "INGESTING"
  | baselining => "BASELINING"
  | evidenceBuild => "EVIDENCE_BUILD"
  | searching => "SEARCHING"
  | finalPhysical => "FINAL_PHYSICAL"
  | finalVerification => "FINAL_VERIFICATION"
  | reporting => "REPORTING"
  | completed => "COMPLETED"
  | failedInput => "FAILED_INPUT"
  | failedBaseline => "FAILED_BASELINE"
  | budgetExhausted => "BUDGET_EXHAUSTED"
  | cancelled => "CANCELLED"

/-- `RUN_TRANSITIONS` -/
def runTransitions : RunState → List RunState
  | .created => [.ingesting, .failedInput, .cancelled]
  | .ingesting => [.baselining, .failedInput, .cancelled]
  | .baselining => [.evidenceBuild, .failedBaseline, .budgetExhausted, .cancelled]
  | .evidenceBuild => [.searching, .failedBaseline, .budgetExhausted, .cancelled]
  | .searching => [.finalPhysical, .budgetExhausted, .cancelled]
  | .finalPhysical => [.finalVerification, .budgetExhausted, .cancelled]
  | .finalVerification => [.reporting, .budgetExhausted, .cancelled]
  | .reporting => [.completed, .budgetExhausted, .cancelled]
  | _ => []

inductive CandidateState where
  | proposed
  | validated
  | materialized
  | preflight
  | fastSynth
  | formal
  | fullSta
  | physical
  | feasible
  | pareto
  | dominated
  | selected
  | rejected
  | inconclusive
  | infrastructureError
  | recoveryEligible
  deriving DecidableEq, Repr

def CandidateState.text : CandidateState → String
  | proposed => "PROPOSED"
  | validated => "VALIDATED"
  | materialized => "MATERIALIZED"
  | preflight => "PREFLIGHT"
  | fastSynth => "FAST_SYNTH"
  | formal => "FORMAL"
  | fullSta => "FULL_STA"
  | physical => "PHYSICAL"
  | feasible => "FEASIBLE"
  | pareto => "PARETO"
  | dominated => "DOMINATED"
  | selected => "SELECTED"
  | rejected => "REJECTED"
  | inconclusive => "INCONCLUSIVE"
  | infrastructureError => "INFRASTRUCTURE_ERROR"
  | recoveryEligible => "RECOVERY_ELIGIBLE"

def evaluationFailures : List CandidateState :=
  [.rejected, .inconclusive, .infrastructureError, .recoveryEligible]

/-- `CANDIDATE_TRANSITIONS` -/
def candidateTransitions : CandidateState → List CandidateState
  | .proposed => [.validated]
  | .validated => .materialized :: evaluationFailures
  | .materialized => .preflight :: evaluationFailures
  | .preflight => .fastSynth :: evaluationFailures
  | .fastSynth => .formal :: evaluationFailures
  | .formal => .fullSta :: evaluationFailures
  | .fullSta => .physical :: evaluationFailures
  | .physical => .feasible :: evaluationFailures
  | .feasible => [.pareto, .dominated, .selected]
  | _ => []

theorem RunState.text_injective : Function.Injective RunState.text := by
  intro state state' h
  cases state <;> cases state' <;> first | rfl | simp [text] at h

theorem CandidateState.text_injective : Function.Injective CandidateState.text := by
  intro state state' h
  cases state <;> cases state' <;> first | rfl | simp [text] at h

/-- `^[A-Z][A-Z0-9_]{2,127}$` -/
def isStableUpper (text : String) : Bool :=
  match text.toList with
  | [] => false
  | c :: rest =>
    c.isUpper && rest.all (fun d => d.isUpper || d.isDigit || d = '_') &&
      2 ≤ rest.length && rest.length ≤ 127

/-- `^[a-z][a-z0-9-]{2,95}$` -/
def isSchemaName (text : String) : Bool :=
  match text.toList with
  | [] => false
  | c :: rest =>
    c.isLower && rest.all (fun d => d.isLower || d.isDigit || d = '-') &&
      2 ≤ rest.length && rest.length ≤ 95

structure ResourceUsage where
  cpuTimeMs : ℕ
  wallTimeMs : ℕ
  peakRssBytes : ℕ
  deriving DecidableEq, Repr

structure RunEventFields where
  eventId : EntityId
  runId : EntityId
  sequence : ℕ
  eventType : String
  entityType : String
  entityId : EntityId
  timestamp : Instant
  priorState : Option String
  newState : Option String
  policyHash : String
  payloadSchemaName : String
  payloadSchemaVersion : ℕ
  payloadArtifact : ArtifactRef
  durationMs : ℕ
  resourceUsage : ResourceUsage
  status : StageStatus
  errorCode : Option String
  deriving DecidableEq

def RunEventFields.check (event : RunEventFields) : Except StateError Unit := do
  require (isEntityId event.eventId) (.validation "event_id")
  require (isEntityId event.runId) (.validation "run_id")
  require (isStableUpper event.eventType) (.validation "event_type")
  require (isStableUpper event.entityType) (.validation "entity_type")
  require (isEntityId event.entityId) (.validation "entity_id")
  require (event.priorState.all isStableUpper) (.validation "prior_state")
  require (event.newState.all isStableUpper) (.validation "new_state")
  require (isHashRef event.policyHash) (.validation "policy_hash")
  require (isSchemaName event.payloadSchemaName) (.validation "payload_schema_name")
  require (0 < event.payloadSchemaVersion) (.validation "payload_schema_version")
  require (event.errorCode.all isStableUpper) (.validation "error_code")
  require (¬ (event.priorState ≠ none ∧ event.priorState = event.newState))
    (.value "state transition must change state")
  if event.status = .pass then
    require (event.errorCode = none) (.value "PASS event cannot declare error_code")
  else require (event.errorCode ≠ none) (.value "non-pass event requires error_code")
  require (event.resourceUsage.wallTimeMs ≤ event.durationMs)
    (.value "resource wall time cannot exceed event duration")

structure RunEvent extends RunEventFields where
  valid : toRunEventFields.check = .ok ()

structure RunStateFields where
  runId : EntityId
  state : RunState
  sequence : ℕ
  policyHash : String
  payloadArtifact : ArtifactRef
  updatedAt : Instant
  deriving DecidableEq

def RunStateFields.check (record : RunStateFields) : Except StateError Unit := do
  require (isEntityId record.runId) (.validation "run_id")
  require (0 < record.sequence) (.validation "sequence")
  require (isHashRef record.policyHash) (.validation "policy_hash")

structure RunStateRecord extends RunStateFields where
  valid : toRunStateFields.check = .ok ()

structure CandidateStateFields where
  runId : EntityId
  candidateId : EntityId
  state : CandidateState
  sequence : ℕ
  recoveryParentCandidateId : Option EntityId
  payloadArtifact : ArtifactRef
  updatedAt : Instant
  deriving DecidableEq

def CandidateStateFields.check (record : CandidateStateFields) : Except StateError Unit := do
  require (isEntityId record.runId) (.validation "run_id")
  require (isEntityId record.candidateId) (.validation "candidate_id")
  require (0 < record.sequence) (.validation "sequence")
  require (record.recoveryParentCandidateId.all isEntityId)
    (.validation "recovery_parent_candidate_id")

structure CandidateStateRecord extends CandidateStateFields where
  valid : toCandidateStateFields.check = .ok ()

theorem RunEvent.fields_injective : Function.Injective RunEvent.toRunEventFields := by
  rintro ⟨⟩ ⟨⟩ h
  simp_all

theorem RunStateRecord.fields_injective :
    Function.Injective RunStateRecord.toRunStateFields := by
  rintro ⟨⟩ ⟨⟩ h
  simp_all

theorem CandidateStateRecord.fields_injective :
    Function.Injective CandidateStateRecord.toCandidateStateFields := by
  rintro ⟨⟩ ⟨⟩ h
  simp_all

instance : DecidableEq RunEvent := RunEvent.fields_injective.decidableEq

instance : DecidableEq RunStateRecord := RunStateRecord.fields_injective.decidableEq

instance : DecidableEq CandidateStateRecord := CandidateStateRecord.fields_injective.decidableEq

/-- `RunEvent(...)` -/
def RunEventFields.construct (event : RunEventFields) : Except StateError RunEvent :=
  match h : event.check with
  | .ok _ => .ok ⟨event, h⟩
  | .error e => .error e

/-- `RunStateRecord(...)` -/
def RunStateFields.construct (record : RunStateFields) : Except StateError RunStateRecord :=
  match h : record.check with
  | .ok _ => .ok ⟨record, h⟩
  | .error e => .error e

/-- `CandidateStateRecord(...)` -/
def CandidateStateFields.construct (record : CandidateStateFields) :
    Except StateError CandidateStateRecord :=
  match h : record.check with
  | .ok _ => .ok ⟨record, h⟩
  | .error e => .error e

theorem RunEventFields.construct_ok {fields : RunEventFields} {event : RunEvent}
    (h : fields.construct = .ok event) : event.toRunEventFields = fields := by
  unfold construct at h
  split at h
  · cases h
    rfl
  · cases h

theorem RunStateFields.construct_ok {fields : RunStateFields} {record : RunStateRecord}
    (h : fields.construct = .ok record) : record.toRunStateFields = fields := by
  unfold construct at h
  split at h
  · cases h
    rfl
  · cases h

theorem CandidateStateFields.construct_ok {fields : CandidateStateFields}
    {record : CandidateStateRecord} (h : fields.construct = .ok record) :
    record.toCandidateStateFields = fields := by
  unfold construct at h
  split at h
  · cases h
    rfl
  · cases h

theorem RunEvent.construct_eq (event : RunEvent) :
    event.toRunEventFields.construct = .ok event := by
  unfold RunEventFields.construct
  split
  next => rfl
  next e h => exact absurd (event.valid.symm.trans h) (by simp)

theorem RunStateRecord.construct_eq (record : RunStateRecord) :
    record.toRunStateFields.construct = .ok record := by
  unfold RunStateFields.construct
  split
  next => rfl
  next e h => exact absurd (record.valid.symm.trans h) (by simp)

theorem CandidateStateRecord.construct_eq (record : CandidateStateRecord) :
    record.toCandidateStateFields.construct = .ok record := by
  unfold CandidateStateFields.construct
  split
  next => rfl
  next e h => exact absurd (record.valid.symm.trans h) (by simp)

end NovaRtl.Orchestrator
