import Mathlib.Data.Rat.Init
import NovaRtl.Contracts.Base
import NovaRtl.Contracts.Reporting

/-!
# Recovery contracts

The contracts of `contracts/recovery.py`, each with the checks of its validator in their order, and
`validate_recovery_authority_chain`. Canonical hashes are parameters.
-/

namespace NovaRtl.Recovery

inductive FailureFamily where
  | baselineInputError
  | analysisViewOrActivityMismatch
  | infrastructureTransient
  | adapterOrParserError
  | constraintBindingDelta
  | cdcInvariantDelta
  | formalModelMismatch
  | invalidProposalSchema
  | unknownOrInapplicableTransform
  | protectedStructureViolation
  | rtlParseOrElabFailure
  | fastSynthStructuralFailure
  | formalSemanticFailure
  | formalInconclusive
  | timingNoGain
  | timingRegression
  | criticalPathMigration
  | holdRegression
  | areaPolicyViolation
  | powerPolicyViolation
  | physicalCorrelationMiss
  | congestionOrRoutabilityRisk
  | repeatedNonProgress
  | validButDominated
  deriving DecidableEq, Repr

def FailureFamily.text : FailureFamily → String
  | baselineInputError => "BASELINE_INPUT_ERROR"
  | analysisViewOrActivityMismatch => "ANALYSIS_VIEW_OR_ACTIVITY_MISMATCH"
  | infrastructureTransient => "INFRASTRUCTURE_TRANSIENT"
  | adapterOrParserError => "ADAPTER_OR_PARSER_ERROR"
  | constraintBindingDelta => "CONSTRAINT_BINDING_DELTA"
  | cdcInvariantDelta => "CDC_INVARIANT_DELTA"
  | formalModelMismatch => "FORMAL_MODEL_MISMATCH"
  | invalidProposalSchema => "INVALID_PROPOSAL_SCHEMA"
  | unknownOrInapplicableTransform => "UNKNOWN_OR_INAPPLICABLE_TRANSFORM"
  | protectedStructureViolation => "PROTECTED_STRUCTURE_VIOLATION"
  | rtlParseOrElabFailure => "RTL_PARSE_OR_ELAB_FAILURE"
  | fastSynthStructuralFailure => "FAST_SYNTH_STRUCTURAL_FAILURE"
  | formalSemanticFailure => "FORMAL_SEMANTIC_FAILURE"
  | formalInconclusive => "FORMAL_INCONCLUSIVE"
  | timingNoGain => "TIMING_NO_GAIN"
  | timingRegression => "TIMING_REGRESSION"
  | criticalPathMigration => "CRITICAL_PATH_MIGRATION"
  | holdRegression => "HOLD_REGRESSION"
  | areaPolicyViolation => "AREA_POLICY_VIOLATION"
  | powerPolicyViolation => "POWER_POLICY_VIOLATION"
  | physicalCorrelationMiss => "PHYSICAL_CORRELATION_MISS"
  | congestionOrRoutabilityRisk => "CONGESTION_OR_ROUTABILITY_RISK"
  | repeatedNonProgress => "REPEATED_NON_PROGRESS"
  | validButDominated => "VALID_BUT_DOMINATED"

inductive Repairability where
  | noRetry
  | deterministicRetry
  | localRevision
  | familySwitch
  | opportunityReanalysis
  | parentBranch
  | humanReview
  deriving DecidableEq, Repr

inductive RecoveryAction where
  | retryInfrastructure
  | repairSchema
  | correctExecutorOutput
  | localParameterRevision
  | narrowTransformScope
  | switchOperationSameFamily
  | switchTransformFamily
  | opportunityReanalysis
  | targetNewPathCluster
  | branchFromAlternateParent
  | repartitionFormalProof
  | physicalOnlyRecommendation
  | rejectCandidate
  | abandonLineage
  | stopRunOrRequestHuman
  deriving DecidableEq, Repr

def RecoveryAction.text : RecoveryAction → String
  | retryInfrastructure => "RETRY_INFRASTRUCTURE"
  | repairSchema => "REPAIR_SCHEMA"
  | correctExecutorOutput => "CORRECT_EXECUTOR_OUTPUT"
  | localParameterRevision => "LOCAL_PARAMETER_REVISION"
  | narrowTransformScope => "NARROW_TRANSFORM_SCOPE"
  | switchOperationSameFamily => "SWITCH_OPERATION_SAME_FAMILY"
  | switchTransformFamily => "SWITCH_TRANSFORM_FAMILY"
  | opportunityReanalysis => "OPPORTUNITY_REANALYSIS"
  | targetNewPathCluster => "TARGET_NEW_PATH_CLUSTER"
  | branchFromAlternateParent => "BRANCH_FROM_ALTERNATE_PARENT"
  | repartitionFormalProof => "REPARTITION_FORMAL_PROOF"
  | physicalOnlyRecommendation => "PHYSICAL_ONLY_RECOMMENDATION"
  | rejectCandidate => "REJECT_CANDIDATE"
  | abandonLineage => "ABANDON_LINEAGE"
  | stopRunOrRequestHuman => "STOP_RUN_OR_REQUEST_HUMAN"

def terminalActions : List RecoveryAction :=
  [.physicalOnlyRecommendation, .rejectCandidate, .abandonLineage, .stopRunOrRequestHuman]

def protectedFailureActions : List RecoveryAction := [.rejectCandidate, .stopRunOrRequestHuman]

def infrastructureFailureActions : List RecoveryAction :=
  [.retryInfrastructure, .stopRunOrRequestHuman]

inductive Stage where
  | rtlParse
  | yosysSynth
  | constraintBinding
  | clockInventory
  | cdcInvariant
  | formalModelPreflight
  | eqySmoke
  | fastSynth
  | openstaFull
  | openroadPhysical
  | openroadPlacedCts
  | openroadRouted
  | formalEquivalence
  | simulation
  | powerAnalysis
  | evidenceGraph
  | opportunityFormation
  | plannerProvider
  deriving DecidableEq, Repr

def viewStages : List Stage :=
  [.openstaFull, .openroadPhysical, .openroadPlacedCts, .openroadRouted, .powerAnalysis]

inductive SubjectType where
  | run
  | baseline
  | planner
  | proposal
  | candidate
  | opportunity
  | infrastructure
  deriving DecidableEq, Repr

inductive FailureSeverity where
  | low
  | medium
  | high
  | critical
  deriving DecidableEq, Repr

inductive ConstraintBindingStatus where
  | equivalent
  | approvedSemanticRemap
  | forbiddenDelta
  | notChecked
  deriving DecidableEq, Repr

inductive ProtectedStructureStatus where
  | unchanged
  | changed
  | unknown
  deriving DecidableEq, Repr

structure EvidenceRef where
  evidenceId : EntityId
  kind : String
  artifactId : EntityId
  jsonPointer : Option String
  snapshotHash : String
  deriving DecidableEq, Repr

def validateEvidence (refs : List EvidenceRef) (label : String) : Except String Unit := do
  requireUnique (refs.map EvidenceRef.evidenceId) (label ++ " evidence IDs")
  require ((refs.map EvidenceRef.snapshotHash).dedup.length = 1)
    (label ++ " evidence must resolve in one snapshot")

structure FailureEvent where
  failureEventId : EntityId
  runId : EntityId
  subjectType : SubjectType
  subjectId : EntityId
  candidateId : Option EntityId
  proposalId : Option EntityId
  parentCandidateId : Option EntityId
  opportunityId : Option EntityId
  failedStage : Stage
  analysisViewId : Option EntityId
  failureFamily : FailureFamily
  failureScope : SubjectType
  repairability : Repairability
  severity : FailureSeverity
  retryable : Bool
  constraintHashVerified : Bool
  analysisViewHashVerified : Bool
  constraintBindingStatus : ConstraintBindingStatus
  protectedStructureStatus : ProtectedStructureStatus
  metricDelta : List (String × ℚ)
  primaryEvidenceRefs : List EvidenceRef
  rawStageResultRef : Option EntityId
  providerResultRef : Option EntityId
  classifierVersion : String

/-- The identity that the subject type requires, with the requirement's text. -/
def FailureEvent.entityField (failure : FailureEvent) : Option (Option EntityId × String) :=
  match failure.subjectType with
  | .candidate => some (failure.candidateId, "CANDIDATE failure requires candidate_id")
  | .proposal => some (failure.proposalId, "PROPOSAL failure requires proposal_id")
  | .opportunity => some (failure.opportunityId, "OPPORTUNITY failure requires opportunity_id")
  | .baseline => some (failure.candidateId, "BASELINE failure requires candidate_id")
  | .run | .planner | .infrastructure => none

def FailureEvent.check (failure : FailureEvent) : Except String Unit := do
  match failure.entityField with
  | none => pure ()
  | some (field, requirement) =>
    require (field ≠ none) requirement
    require (field = some failure.subjectId) "subject_id must match its entity-specific ID"
  require (¬ (failure.failedStage ∈ viewStages ∧ failure.analysisViewId = none))
    "view-specific failure requires analysis_view_id"
  require (¬ (failure.failedStage ∉ viewStages ∧ failure.analysisViewId ≠ none))
    "view-independent failure cannot declare analysis_view_id"
  require (¬ (failure.repairability = .noRetry ∧ failure.retryable))
    "NO_RETRY failure cannot be retryable"
  require (¬ (failure.repairability = .humanReview ∧ failure.retryable))
    "HUMAN_REVIEW failure cannot be automatically retryable"
  if failure.failedStage = .plannerProvider then
    require (failure.subjectType = .planner ∧ failure.providerResultRef ≠ none)
      "PLANNER_PROVIDER failure requires PLANNER subject and provider_result_ref"
    require (failure.rawStageResultRef = none)
      "PLANNER_PROVIDER failure cannot fabricate a stage result"
  else
    require (failure.rawStageResultRef ≠ none) "EDA failure requires raw_stage_result_ref"
    require (failure.providerResultRef = none) "EDA failure cannot declare provider_result_ref"
  validateEvidence failure.primaryEvidenceRefs "failure"

structure RepairDirective where
  repairDirectiveId : EntityId
  failureEventId : EntityId
  allowedScope : String
  observed : List String
  preserve : List String
  prohibit : List String
  recommendedActions : List String
  recommendedRoles : List EntityId
  evidenceRefs : List EvidenceRef
  compilerRuleRefs : List String

def RepairDirective.check (directive : RepairDirective) : Except String Unit := do
  requireUnique directive.observed "observations"
  requireUnique directive.preserve "preserve tokens"
  requireUnique directive.prohibit "prohibit tokens"
  requireUnique directive.recommendedActions "recommended actions"
  requireUnique directive.recommendedRoles "recommended roles"
  requireUnique directive.compilerRuleRefs "compiler rule refs"
  require (∀ token ∈ directive.preserve, token ∉ directive.prohibit)
    "preserve and prohibit tokens must be disjoint"
  validateEvidence directive.evidenceRefs "repair directive"

structure CandidateFailureFingerprint where
  candidateFailureFingerprintId : EntityId
  candidateId : EntityId
  targetConeFingerprint : String
  operationFamily : String
  operation : String
  parameterFingerprint : String
  astDiffFingerprint : String
  mappedDeltaFingerprint : String
  ancestorLineage : List EntityId
  failureFamily : FailureFamily
  formalCounterexampleFingerprint : Option String
  metricResponseClass : String

def CandidateFailureFingerprint.check (fingerprint : CandidateFailureFingerprint) :
    Except String Unit := do
  requireUnique fingerprint.ancestorLineage "ancestor lineage"
  require (fingerprint.candidateId ∉ fingerprint.ancestorLineage)
    "candidate cannot appear in its ancestor lineage"

/-- A route plan without its own hash. -/
structure RoutePlanPayload where
  recoveryRoutePlanId : EntityId
  failureEventId : EntityId
  repairDirectiveId : EntityId
  allowedActions : List RecoveryAction
  eligibleRoles : List EntityId
  excludedTransformFamilies : List String
  nextParentCandidateIds : List EntityId
  remainingFamilyBudget : ℕ
  remainingLineageBudget : ℕ
  remainingTokenBudget : ℕ
  remainingLatencyBudgetMs : ℕ
  policyHash : String
  deriving DecidableEq

structure RecoveryRoutePlan extends RoutePlanPayload where
  routePlanHash : String
  deriving DecidableEq

/-- A request without its own hash. -/
structure RequestPayload where
  recoveryRequestId : EntityId
  failureEventId : EntityId
  failureEventHash : String
  failureFamily : FailureFamily
  repairDirectiveId : EntityId
  repairDirectiveHash : String
  recoveryRoutePlanId : EntityId
  recoveryRoutePlanHash : String
  routePlan : RecoveryRoutePlan
  candidateLineageIds : List EntityId
  candidateFailureFingerprintIds : List EntityId
  allowedActions : List RecoveryAction
  excludedTransformFamilies : List String
  eligibleRoles : List EntityId
  authorizedEvidenceIds : List EntityId
  remainingFamilyBudget : ℕ
  remainingLineageBudget : ℕ
  remainingTokenBudget : ℕ
  remainingLatencyBudgetMs : ℕ
  policyHash : String
  deadline : ℕ

structure RecoveryRequest extends RequestPayload where
  requestHash : String

/-- A decision without its own hash. -/
structure DecisionPayload where
  recoveryDecisionId : EntityId
  failureEventId : EntityId
  recoveryRequestId : EntityId
  recoveryRequestHash : String
  recoveryRoutePlanId : EntityId
  recoveryRoutePlanHash : String
  action : RecoveryAction
  nextParentCandidateId : Option EntityId
  invokeReasoning : Bool
  selectedRoles : List EntityId
  excludedTransformFamilies : List String
  remainingFamilyBudget : ℕ
  remainingLineageBudget : ℕ
  reasonCodes : List String
  policyVersion : String
  recoveryAdviceId : Option EntityId

structure RecoveryDecision extends DecisionPayload where
  decisionHash : String

/-- The canonical hashes of the recovery contracts, each without the contract's own hash. -/
structure Hashes where
  failure : FailureEvent → String
  directive : RepairDirective → String
  routePlan : RoutePlanPayload → String
  request : RequestPayload → String
  decision : DecisionPayload → String

section Validators

variable (hashes : Hashes)

def RecoveryRoutePlan.check (plan : RecoveryRoutePlan) : Except String Unit := do
  requireUnique plan.allowedActions "allowed actions"
  requireUnique plan.eligibleRoles "eligible roles"
  requireUnique plan.excludedTransformFamilies "excluded transform families"
  requireUnique plan.nextParentCandidateIds "next parent candidate IDs"
  require (plan.routePlanHash = hashes.routePlan plan.toRoutePlanPayload)
    "route_plan_hash does not match canonical route plan"

/-- The checks of a request that read nothing but the request and its route plan. -/
def RequestPayload.checkPlan (request : RequestPayload) : Except String Unit := do
  let plan := request.routePlan
  require (request.recoveryRoutePlanId = plan.recoveryRoutePlanId ∧
      request.recoveryRoutePlanHash = plan.routePlanHash)
    "RecoveryRequest must bind the exact route plan"
  require (request.failureEventId = plan.failureEventId ∧
      request.repairDirectiveId = plan.repairDirectiveId)
    "RecoveryRequest lineage must match the route plan"
  require (request.policyHash = plan.policyHash)
    "RecoveryRequest policy hash must match the route plan"
  require (request.allowedActions ⊆ plan.allowedActions)
    "RecoveryRequest allowed actions exceed the route plan"
  require (request.eligibleRoles ⊆ plan.eligibleRoles)
    "RecoveryRequest eligible roles exceed the route plan"
  require (plan.excludedTransformFamilies ⊆ request.excludedTransformFamilies)
    "RecoveryRequest exclusions cannot weaken the route plan"
  require (plan.nextParentCandidateIds ⊆ request.candidateLineageIds)
    "route-plan parents must resolve in request candidate lineage"
  require (¬ (request.failureFamily = .protectedStructureViolation ∧
      ¬ request.allowedActions ⊆ protectedFailureActions))
    "protected-structure failure cannot authorize nonterminal recovery"
  require (¬ (request.failureFamily = .infrastructureTransient ∧
      ¬ request.allowedActions ⊆ infrastructureFailureActions))
    "infrastructure failure cannot authorize RTL repair"
  require (request.remainingFamilyBudget ≤ plan.remainingFamilyBudget ∧
      request.remainingLineageBudget ≤ plan.remainingLineageBudget ∧
      request.remainingTokenBudget ≤ plan.remainingTokenBudget ∧
      request.remainingLatencyBudgetMs ≤ plan.remainingLatencyBudgetMs)
    "RecoveryRequest budget cannot exceed the route plan"

def RecoveryRequest.check (request : RecoveryRequest) : Except String Unit := do
  requireUnique request.candidateLineageIds "candidate lineage IDs"
  requireUnique request.candidateFailureFingerprintIds "candidate failure fingerprint IDs"
  requireUnique request.allowedActions "allowed actions"
  requireUnique request.excludedTransformFamilies "excluded transform families"
  requireUnique request.eligibleRoles "eligible roles"
  requireUnique request.authorizedEvidenceIds "authorized evidence IDs"
  request.checkPlan
  require (request.requestHash = hashes.request request.toRequestPayload)
    "request_hash does not match canonical RecoveryRequest"

def RecoveryDecision.check (decision : RecoveryDecision) : Except String Unit := do
  requireUnique decision.selectedRoles "selected roles"
  requireUnique decision.excludedTransformFamilies "excluded transform families"
  requireUnique decision.reasonCodes "reason codes"
  if decision.action ∈ terminalActions then
    require (decision.nextParentCandidateId = none)
      "terminal recovery decision cannot have a next parent"
  else
    require (decision.nextParentCandidateId ≠ none)
      "nonterminal recovery decision requires a next parent"
  if decision.invokeReasoning then
    require (decision.selectedRoles ≠ [] ∧ decision.recoveryAdviceId ≠ none)
      "reasoning decision requires roles and recovery advice"
  else
    require (decision.selectedRoles = [] ∧ decision.recoveryAdviceId = none)
      "deterministic-only decision cannot reference reasoning output"
  require (decision.decisionHash = hashes.decision decision.toDecisionPayload)
    "decision_hash does not match canonical recovery decision"

/-- The part of `validate_recovery_authority_chain` about the failure and its directive. -/
def validateReferences (failure : FailureEvent) (directive : RepairDirective)
    (request : RecoveryRequest) : Except String Unit := do
  require (request.failureEventId = failure.failureEventId)
    "RecoveryRequest failure reference does not resolve"
  require (request.failureEventHash = hashes.failure failure)
    "RecoveryRequest failure hash does not resolve"
  require (request.failureFamily = failure.failureFamily)
    "RecoveryRequest failure family does not resolve"
  require (request.repairDirectiveId = directive.repairDirectiveId)
    "RecoveryRequest repair directive reference does not resolve"
  require (request.repairDirectiveHash = hashes.directive directive)
    "RecoveryRequest repair directive hash does not resolve"
  require (directive.failureEventId = failure.failureEventId)
    "RepairDirective does not belong to the failure event"

/-- The part about the decision, for a chain without advice. -/
def validateDecision (failure : FailureEvent) (request : RecoveryRequest)
    (decision : RecoveryDecision) : Except String Unit := do
  let plan := request.routePlan
  require (decision.failureEventId = failure.failureEventId ∧
      decision.recoveryRequestId = request.recoveryRequestId ∧
      decision.recoveryRequestHash = request.requestHash ∧
      decision.recoveryRoutePlanId = plan.recoveryRoutePlanId ∧
      decision.recoveryRoutePlanHash = plan.routePlanHash)
    "RecoveryDecision authority references do not resolve"
  require (decision.action ∈ request.allowedActions)
    "RecoveryDecision action is outside the allowed action set"
  require (∀ parent ∈ decision.nextParentCandidateId,
      parent ∈ plan.nextParentCandidateIds ∧ parent ∈ request.candidateLineageIds)
    "RecoveryDecision parent is outside the route plan"
  require (decision.selectedRoles ⊆ request.eligibleRoles)
    "RecoveryDecision selected roles exceed eligible roles"
  require (request.excludedTransformFamilies ⊆ decision.excludedTransformFamilies)
    "RecoveryDecision cannot weaken excluded transform families"
  require (decision.remainingFamilyBudget ≤ request.remainingFamilyBudget ∧
      decision.remainingLineageBudget ≤ request.remainingLineageBudget)
    "RecoveryDecision budget cannot increase"
  require (¬ (failure.failureFamily = .protectedStructureViolation ∧
      decision.action ∉ protectedFailureActions))
    "PROTECTED_STRUCTURE_VIOLATION requires reject or stop action"
  require (¬ (failure.failureFamily = .infrastructureTransient ∧
      decision.action ∉ infrastructureFailureActions))
    "INFRASTRUCTURE_TRANSIENT requires deterministic retry or stop"
  require (¬ decision.invokeReasoning) "reasoning decision must resolve its RecoveryAdvice"

/-- `validate_recovery_authority_chain` for a chain without advice. -/
def validateRecoveryAuthorityChain (failure : FailureEvent) (directive : RepairDirective)
    (request : RecoveryRequest) (decision : RecoveryDecision) : Except String Unit := do
  validateReferences hashes failure directive request
  validateDecision failure request decision

end Validators

end NovaRtl.Recovery
