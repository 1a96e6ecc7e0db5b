import NovaRtl.Contracts.Recovery

/-!
# Persisting a recovery

`recovery/execution.py`: `apply_recovery` publishes the recovery chain of a failure and writes its
identities into an experiment record. The experiment's candidate is never compared with the
failure's, nor is the fingerprint's family, nor its place in the request.
-/

namespace NovaRtl.Recovery

/-- A chain without its own hash. -/
structure ChainPayload where
  failure : FailureEvent
  directive : RepairDirective
  fingerprint : CandidateFailureFingerprint
  routePlan : RecoveryRoutePlan
  request : RecoveryRequest
  decision : RecoveryDecision

structure RecoveryChain extends ChainPayload where
  chainHash : String

structure ExecutionHashes extends Hashes where
  chain : ChainPayload → String

structure RecoveryApplication (Artifact : Type) where
  experimentRecord : ExperimentRecord
  recoveryDecisionId : EntityId
  artifactRefs : List Artifact

section Apply

variable {Artifact : Type} (hashes : ExecutionHashes)

/-- `RecoveryChain.links_and_hash_resolve` -/
def RecoveryChain.check (chain : RecoveryChain) : Except String Unit := do
  require (chain.directive.failureEventId = chain.failure.failureEventId)
    "repair directive does not resolve its failure event"
  require (some chain.fingerprint.candidateId = chain.failure.candidateId)
    "failure fingerprint does not resolve its candidate"
  require (chain.decision.failureEventId = chain.failure.failureEventId)
    "recovery decision does not resolve its failure event"
  require (chain.routePlan = chain.request.routePlan)
    "recovery route plan does not resolve its request"
  validateRecoveryAuthorityChain hashes.toHashes chain.failure chain.directive chain.request
    chain.decision
  require (chain.chainHash = hashes.chain chain.toChainPayload)
    "recovery chain hash is not canonical"

/-- The last 16 digits of the chain's hash name its artifact. -/
def RecoveryChain.artifactId (chain : RecoveryChain) : EntityId :=
  "artifact_recovery_chain_" ++
    String.ofList (chain.chainHash.toList.drop (chain.chainHash.toList.length - 16))

/-- The arguments of `apply_recovery`, each a contract of its own. -/
structure RecoveryArguments where
  failure : Accepted FailureEvent.check
  directive : Accepted RepairDirective.check
  fingerprint : Accepted CandidateFailureFingerprint.check
  routePlan : Accepted (RecoveryRoutePlan.check hashes.toHashes)
  request : Accepted (RecoveryRequest.check hashes.toHashes)
  decision : Accepted (RecoveryDecision.check hashes.toHashes)

variable {hashes}

def RecoveryArguments.payload (arguments : RecoveryArguments hashes) : ChainPayload where
  failure := arguments.failure.1
  directive := arguments.directive.1
  fingerprint := arguments.fingerprint.1
  routePlan := arguments.routePlan.1
  request := arguments.request.1
  decision := arguments.decision.1

def updatedRecord (experiment : ExperimentRecord) (payload : ChainPayload) : ExperimentRecord :=
  { experiment with
    failureEventId := some payload.failure.failureEventId
    repairDirectiveId := some payload.directive.repairDirectiveId
    candidateFailureFingerprintId := some payload.fingerprint.candidateFailureFingerprintId
    recoveryDecisionId := some payload.decision.recoveryDecisionId
    descendantOutcome := some ("RECOVERY_" ++ payload.decision.action.text) }

/-- `apply_recovery`, where `publish` stores the chain's canonical JSON under an identity. -/
def applyRecovery (publish : EntityId → RecoveryChain → Except String Artifact)
    (experiment : Accepted ExperimentRecord.check) (arguments : RecoveryArguments hashes) :
    Except String (RecoveryApplication Artifact) := do
  let payload := arguments.payload
  require (some payload.fingerprint.candidateId = payload.failure.candidateId)
    "failure fingerprint does not resolve its candidate"
  validateRecoveryAuthorityChain hashes.toHashes payload.failure payload.directive payload.request
    payload.decision
  require (payload.routePlan = payload.request.routePlan)
    "recovery route plan does not resolve its request"
  let chain ← construct (RecoveryChain.check hashes) ⟨payload, hashes.chain payload⟩
  let ref ← publish chain.1.artifactId chain.1
  let updated ← construct ExperimentRecord.check (updatedRecord experiment.1 payload)
  return ⟨updated.1, payload.decision.recoveryDecisionId, [ref]⟩

/-- What the persisted chain is about. -/
structure AboutOneFailure (record : ExperimentRecord) (chain : ChainPayload) : Prop where
  candidate : some record.candidateId = chain.failure.candidateId ∧
    some chain.fingerprint.candidateId = chain.failure.candidateId
  family : chain.fingerprint.failureFamily = chain.failure.failureFamily
  listed : chain.fingerprint.candidateFailureFingerprintId ∈
    chain.request.candidateFailureFingerprintIds
  plan : chain.routePlan.failureEventId = chain.failure.failureEventId ∧
    chain.decision.failureEventId = chain.failure.failureEventId ∧
    chain.decision.action ∈ chain.routePlan.allowedActions
  parent : ∀ parent ∈ chain.decision.nextParentCandidateId,
    parent ∈ chain.request.candidateLineageIds
  decisionBudgets :
    chain.decision.remainingFamilyBudget ≤ chain.request.remainingFamilyBudget ∧
      chain.decision.remainingLineageBudget ≤ chain.request.remainingLineageBudget
  requestBudgets :
    chain.request.remainingFamilyBudget ≤ chain.routePlan.remainingFamilyBudget ∧
      chain.request.remainingLineageBudget ≤ chain.routePlan.remainingLineageBudget ∧
      chain.request.remainingTokenBudget ≤ chain.routePlan.remainingTokenBudget ∧
      chain.request.remainingLatencyBudgetMs ≤ chain.routePlan.remainingLatencyBudgetMs

/-- The application's record names the chain, and its artifact is the published chain. -/
structure Persists (publish : EntityId → RecoveryChain → Except String Artifact)
    (application : RecoveryApplication Artifact) (chain : RecoveryChain) : Prop where
  published : ∃ ref, publish chain.artifactId chain = .ok ref ∧ application.artifactRefs = [ref]
  failure : application.experimentRecord.failureEventId = some chain.failure.failureEventId
  directive :
    application.experimentRecord.repairDirectiveId = some chain.directive.repairDirectiveId
  fingerprint : application.experimentRecord.candidateFailureFingerprintId =
    some chain.fingerprint.candidateFailureFingerprintId
  decision :
    application.experimentRecord.recoveryDecisionId = some chain.decision.recoveryDecisionId

end Apply

section Bound

variable {Artifact : Type} {hashes : ExecutionHashes}
  {publish : EntityId → RecoveryChain → Except String Artifact}
  {experiment : Accepted ExperimentRecord.check} {arguments : RecoveryArguments hashes}
  {application : RecoveryApplication Artifact}

/-- What a request keeps of its route plan. -/
theorem request_within_plan (request : Accepted (RecoveryRequest.check hashes.toHashes)) :
    request.1.failureEventId = request.1.routePlan.failureEventId ∧
      request.1.allowedActions ⊆ request.1.routePlan.allowedActions ∧
      request.1.remainingFamilyBudget ≤ request.1.routePlan.remainingFamilyBudget ∧
      request.1.remainingLineageBudget ≤ request.1.routePlan.remainingLineageBudget ∧
      request.1.remainingTokenBudget ≤ request.1.routePlan.remainingTokenBudget ∧
      request.1.remainingLatencyBudgetMs ≤ request.1.routePlan.remainingLatencyBudgetMs := by
  have h := request.2
  simp only [RecoveryRequest.check, seq_eq_ok] at h
  obtain ⟨-, -, -, -, -, -, hplan, -⟩ := h
  simp only [RequestPayload.checkPlan, seq_eq_ok, require_eq_ok] at hplan
  obtain ⟨-, hlineage, -, hactions, -, -, -, -, -, hbudgets⟩ := hplan
  exact ⟨hlineage.1, hactions, hbudgets⟩

/-- What the authority chain says about a decision. -/
theorem decision_within_request {failure : FailureEvent} {directive : RepairDirective}
    {request : RecoveryRequest} {decision : RecoveryDecision}
    (h : validateRecoveryAuthorityChain hashes.toHashes failure directive request decision =
      .ok ()) :
    request.failureEventId = failure.failureEventId ∧
      decision.failureEventId = failure.failureEventId ∧
      decision.action ∈ request.allowedActions ∧
      (∀ parent ∈ decision.nextParentCandidateId, parent ∈ request.candidateLineageIds) ∧
      decision.remainingFamilyBudget ≤ request.remainingFamilyBudget ∧
      decision.remainingLineageBudget ≤ request.remainingLineageBudget := by
  simp only [validateRecoveryAuthorityChain, seq_eq_ok] at h
  obtain ⟨hreferences, hdecision⟩ := h
  simp only [validateReferences, seq_eq_ok, require_eq_ok] at hreferences
  simp only [validateDecision, seq_eq_ok, require_eq_ok] at hdecision
  obtain ⟨hfailure, -⟩ := hreferences
  obtain ⟨hids, hallowed, hparent, -, -, hbudgets, -⟩ := hdecision
  exact ⟨hfailure, hids.1, hallowed, fun parent hmem => (hparent parent hmem).2, hbudgets⟩

theorem applyRecovery_eq_ok (h : applyRecovery publish experiment arguments = .ok application) :
    ∃ ref, publish (RecoveryChain.mk arguments.payload
          (hashes.chain arguments.payload)).artifactId
        ⟨arguments.payload, hashes.chain arguments.payload⟩ = .ok ref ∧
      some arguments.payload.fingerprint.candidateId = arguments.payload.failure.candidateId ∧
      validateRecoveryAuthorityChain hashes.toHashes arguments.payload.failure
        arguments.payload.directive arguments.payload.request arguments.payload.decision =
          .ok () ∧
      arguments.payload.routePlan = arguments.payload.request.routePlan ∧
      application = ⟨updatedRecord experiment.1 arguments.payload,
        arguments.payload.decision.recoveryDecisionId, [ref]⟩ := by
  simp only [applyRecovery, seq_eq_ok, require_eq_ok] at h
  obtain ⟨hcandidate, hchain, hplan, h⟩ := h
  simp only [bind_eq_ok, construct_eq_ok, pure, Except.pure, Except.ok.injEq] at h
  obtain ⟨chain, hpayload, ref, hpublish, updated, hupdated, rfl⟩ := h
  rw [hpayload] at hpublish
  exact ⟨ref, hpublish, hcandidate, hchain, hplan, by rw [hupdated]⟩

/-- The persisted chain is about one candidate and one failure exactly if the three links that are
not checked hold. -/
theorem recovery_bound_iff (h : applyRecovery publish experiment arguments = .ok application) :
    ∃ chain, Persists publish application chain ∧
      (AboutOneFailure application.experimentRecord chain.toChainPayload ↔
        some experiment.1.candidateId = arguments.failure.1.candidateId ∧
          arguments.fingerprint.1.failureFamily = arguments.failure.1.failureFamily ∧
          arguments.fingerprint.1.candidateFailureFingerprintId ∈
            arguments.request.1.candidateFailureFingerprintIds) := by
  obtain ⟨ref, hpublish, hcandidate, hchain, hplan, rfl⟩ := applyRecovery_eq_ok h
  refine ⟨⟨arguments.payload, hashes.chain arguments.payload⟩,
    ⟨⟨ref, hpublish, rfl⟩, rfl, rfl, rfl, rfl⟩, ?_⟩
  constructor
  · intro habout
    exact ⟨habout.candidate.1, habout.family, habout.listed⟩
  · rintro ⟨hexperiment, hfamily, hlisted⟩
    obtain ⟨hfailure, hdecision, hallowed, hparent, hbudgets⟩ := decision_within_request hchain
    obtain ⟨hlineage, hactions, hrequest⟩ := request_within_plan arguments.request
    constructor
    case candidate => exact ⟨hexperiment, hcandidate⟩
    case family => exact hfamily
    case listed => exact hlisted
    case plan =>
      refine ⟨?_, hdecision, ?_⟩
      · rw [hplan]
        exact hlineage.symm.trans hfailure
      · rw [hplan]
        exact hactions hallowed
    case parent => exact hparent
    case decisionBudgets => exact hbudgets
    case requestBudgets =>
      rw [hplan]
      exact hrequest

end Bound

section Sample

def sampleEvidence : EvidenceRef :=
  ⟨"evidence_one", "METRIC", "artifact_one", none,
    "sha256:16a0eeb0791b6c92451fd284dd9f599e0a7dbe7f6ebea6e2d2d06c7f74aec112"⟩

def sampleFailure : FailureEvent where
  failureEventId := "failure_one"
  runId := "run_one"
  subjectType := .candidate
  subjectId := "cand_one"
  candidateId := some "cand_one"
  proposalId := none
  parentCandidateId := some "cand_root"
  opportunityId := none
  failedStage := .fastSynth
  analysisViewId := none
  failureFamily := .timingNoGain
  failureScope := .candidate
  repairability := .localRevision
  severity := .low
  retryable := true
  constraintHashVerified := true
  analysisViewHashVerified := true
  constraintBindingStatus := .equivalent
  protectedStructureStatus := .unchanged
  metricDelta := []
  primaryEvidenceRefs := [sampleEvidence]
  rawStageResultRef := some "stage_one"
  providerResultRef := none
  classifierVersion := "v1"

def sampleDirective : RepairDirective where
  repairDirectiveId := "directive_one"
  failureEventId := "failure_one"
  allowedScope := "LOCAL"
  observed := ["no gain"]
  preserve := ["interface"]
  prohibit := ["new_clock"]
  recommendedActions := ["revise"]
  recommendedRoles := []
  evidenceRefs := [sampleEvidence]
  compilerRuleRefs := ["RULE_ONE"]

def sampleFingerprint : CandidateFailureFingerprint where
  candidateFailureFingerprintId := "fingerprint_one"
  candidateId := "cand_one"
  targetConeFingerprint := "cone:v1:one"
  operationFamily := "LOGIC_RESTRUCTURE"
  operation := "BALANCE_TREE"
  parameterFingerprint := "params:v1:one"
  astDiffFingerprint := "astdiff:v1:one"
  mappedDeltaFingerprint := "mapdelta:v1:one"
  ancestorLineage := ["cand_root"]
  failureFamily := .timingNoGain
  formalCounterexampleFingerprint := none
  metricResponseClass := "NO_GAIN"

/-- The hashes of the sample's contracts. -/
def sampleHashes : ExecutionHashes where
  failure _ := "sha256:74b922f2fb6f1e6efd4bcb75c8f6eb1b15810130c08cd1e9b10a26eea308ecba"
  directive _ := "sha256:0e2f40fe96ffa463b1de1ae606db8353172cc3670d91965e81a734a2e4866576"
  routePlan _ := "sha256:203f51749bc2f0ee18b1e96df76c5e377f1e609b4d1dda5c7dfe17fcfdc37a06"
  request _ := "sha256:1007281f01bc3ba1875d6d42aa83a25f07fd9c43772ef72e7902805a62a8001a"
  decision _ := "sha256:9d9aca591f74718d6464d8343b3997d48f2f43395ce8d98ffdb496cd7a7d0448"
  chain _ := "sha256:a1108958c8fda3dbe771a495af5102d9133b1e9f118c2a43615931f058e61788"

def samplePolicyHash : String :=
  "sha256:823412d1eacb67956220e532959f0104603057c88704863ca38e7cd188fda812"

def samplePlan : RecoveryRoutePlan where
  recoveryRoutePlanId := "route_plan_one"
  failureEventId := "failure_one"
  repairDirectiveId := "directive_one"
  allowedActions := [.localParameterRevision, .abandonLineage]
  eligibleRoles := []
  excludedTransformFamilies := []
  nextParentCandidateIds := ["cand_root"]
  remainingFamilyBudget := 2
  remainingLineageBudget := 4
  remainingTokenBudget := 0
  remainingLatencyBudgetMs := 1000
  policyHash := samplePolicyHash
  routePlanHash := "sha256:203f51749bc2f0ee18b1e96df76c5e377f1e609b4d1dda5c7dfe17fcfdc37a06"

def sampleRequest : RecoveryRequest where
  recoveryRequestId := "recovery_request_one"
  failureEventId := "failure_one"
  failureEventHash := sampleHashes.failure sampleFailure
  failureFamily := .timingNoGain
  repairDirectiveId := "directive_one"
  repairDirectiveHash := sampleHashes.directive sampleDirective
  recoveryRoutePlanId := "route_plan_one"
  recoveryRoutePlanHash := samplePlan.routePlanHash
  routePlan := samplePlan
  candidateLineageIds := ["cand_root", "cand_one"]
  candidateFailureFingerprintIds := ["fingerprint_one"]
  allowedActions := [.localParameterRevision, .abandonLineage]
  excludedTransformFamilies := []
  eligibleRoles := []
  authorizedEvidenceIds := ["evidence_one"]
  remainingFamilyBudget := 2
  remainingLineageBudget := 4
  remainingTokenBudget := 0
  remainingLatencyBudgetMs := 1000
  policyHash := samplePolicyHash
  deadline := 4102444800
  requestHash := "sha256:1007281f01bc3ba1875d6d42aa83a25f07fd9c43772ef72e7902805a62a8001a"

def sampleDecision : RecoveryDecision where
  recoveryDecisionId := "recovery_decision_one"
  failureEventId := "failure_one"
  recoveryRequestId := "recovery_request_one"
  recoveryRequestHash := sampleRequest.requestHash
  recoveryRoutePlanId := "route_plan_one"
  recoveryRoutePlanHash := samplePlan.routePlanHash
  action := .localParameterRevision
  nextParentCandidateId := some "cand_root"
  invokeReasoning := false
  selectedRoles := []
  excludedTransformFamilies := []
  remainingFamilyBudget := 1
  remainingLineageBudget := 3
  reasonCodes := ["ROUTED_TIMING_NO_GAIN"]
  policyVersion := "v1"
  recoveryAdviceId := none
  decisionHash := "sha256:9d9aca591f74718d6464d8343b3997d48f2f43395ce8d98ffdb496cd7a7d0448"

theorem sampleContracts_ok : sampleFailure.check = .ok () ∧ sampleDirective.check = .ok () ∧
    sampleFingerprint.check = .ok () ∧ samplePlan.check sampleHashes.toHashes = .ok () ∧
    sampleRequest.check sampleHashes.toHashes = .ok () ∧
    sampleDecision.check sampleHashes.toHashes = .ok () := by
  decide +kernel

/-- The chain of the candidate `cand_one`. -/
def sampleArguments : RecoveryArguments sampleHashes where
  failure := ⟨sampleFailure, sampleContracts_ok.1⟩
  directive := ⟨sampleDirective, sampleContracts_ok.2.1⟩
  fingerprint := ⟨sampleFingerprint, sampleContracts_ok.2.2.1⟩
  routePlan := ⟨samplePlan, sampleContracts_ok.2.2.2.1⟩
  request := ⟨sampleRequest, sampleContracts_ok.2.2.2.2.1⟩
  decision := ⟨sampleDecision, sampleContracts_ok.2.2.2.2.2⟩

def sampleExperiment (candidate : EntityId) : ExperimentRecord where
  experimentRecordId := "experiment_one"
  runId := "run_one"
  opportunityId := "opportunity_one"
  proposalId := "prop_one"
  parentCandidateId := "cand_root"
  candidateId := candidate
  sourceHash := "sha256:41cf6794ba4200b839c53531555f0f3998df4cbb01a4d5cb0b94e3ca5e23947d"
  patchHash := "sha256:a4895eb44afc336fecbba6e520cd67e178dace0276655d102fceffa8e5f70570"
  stageResultIds := ["stage_one"]
  proofResultId := none
  proofOutcome := none
  counterexampleArtifactId := none
  beforeMetrics := []
  afterMetrics := []
  failureEventId := none
  repairDirectiveId := none
  candidateFailureFingerprintId := none
  recoveryDecisionId := none
  descendantOutcome := none
  roleIds := []
  modelConfigurationHashes := []
  promptHashes := []
  contextPackHashes := []
  terminalDisposition := "TIMING_NO_GAIN"

theorem sampleExperiments_ok : (sampleExperiment "cand_one").check = .ok () ∧
    (sampleExperiment "cand_two").check = .ok () := by
  decide +kernel

def samplePublish (id : EntityId) (_ : RecoveryChain) : Except String EntityId := .ok id

theorem sampleApplied_isOk :
    (applyRecovery samplePublish ⟨sampleExperiment "cand_one", sampleExperiments_ok.1⟩
        sampleArguments).isOk ∧
      (applyRecovery samplePublish ⟨sampleExperiment "cand_two", sampleExperiments_ok.2⟩
        sampleArguments).isOk := by
  decide +kernel

theorem recovery_bound_iff_sample :
    ∃ application chain, applyRecovery samplePublish
        ⟨sampleExperiment "cand_one", sampleExperiments_ok.1⟩ sampleArguments = .ok application ∧
      Persists samplePublish application chain ∧
      AboutOneFailure application.experimentRecord chain.toChainPayload := by
  have hok := sampleApplied_isOk.1
  cases happly : applyRecovery samplePublish
      ⟨sampleExperiment "cand_one", sampleExperiments_ok.1⟩ sampleArguments with
  | error e => simp [happly, Except.isOk, Except.toBool] at hok
  | ok application =>
    obtain ⟨chain, hpersists, hiff⟩ := recovery_bound_iff happly
    exact ⟨application, chain, rfl, hpersists, hiff.mpr ⟨rfl, rfl, List.mem_singleton_self _⟩⟩

/-- The failure of `cand_one` is written into the record of `cand_two`. -/
theorem other_candidate_applied :
    ¬ ∀ (hashes : ExecutionHashes) (publish : EntityId → RecoveryChain → Except String EntityId)
      (experiment : Accepted ExperimentRecord.check) (arguments : RecoveryArguments hashes)
      (application : RecoveryApplication EntityId),
      applyRecovery publish experiment arguments = .ok application →
        AboutOneFailure application.experimentRecord arguments.payload := by
  intro h
  have hok := sampleApplied_isOk.2
  cases happly : applyRecovery samplePublish
      ⟨sampleExperiment "cand_two", sampleExperiments_ok.2⟩ sampleArguments with
  | error e => simp [happly, Except.isOk, Except.toBool] at hok
  | ok application =>
    have habout := h sampleHashes samplePublish _ sampleArguments application happly
    obtain ⟨ref, -, -, -, -, rfl⟩ := applyRecovery_eq_ok happly
    have hsame : "cand_two" = "cand_one" := Option.some.inj habout.candidate.1
    exact absurd hsame (by decide)

end Sample

end NovaRtl.Recovery
