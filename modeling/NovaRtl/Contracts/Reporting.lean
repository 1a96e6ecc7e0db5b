import NovaRtl.Contracts.Base
import NovaRtl.Contracts.Checks

/-!
# Reporting contracts

`ParetoRecord` and `ExperimentRecord` of `contracts/reporting.py`, and the names of the official
comparison of `evaluation/metrics.py`. A dictionary is the list of its items.
-/

namespace NovaRtl

inductive CorrectnessContract where
  | strictSeqEquiv
  | retimingEquiv
  | latencyAware
  deriving DecidableEq, Repr

inductive SelectionClass where
  | primaryStrict
  | secondaryRetimed
  | exploratoryLatencyAware
  deriving DecidableEq, Repr

/-- The contract that a selection class requires. -/
def SelectionClass.expected : SelectionClass → CorrectnessContract
  | .primaryStrict => .strictSeqEquiv
  | .secondaryRetimed => .retimingEquiv
  | .exploratoryLatencyAware => .latencyAware

inductive PhysicalStage where
  | openroadPhysical
  | openroadPlacedCts
  | openroadRouted
  deriving DecidableEq, Repr

/-- `mapping.get(name)` -/
def item? {α : Type} (mapping : List (String × α)) (name : String) : Option α :=
  (mapping.find? fun item => item.1 = name).map Prod.snd

theorem item?_isSome {α : Type} {mapping : List (String × α)} {name : String} :
    (item? mapping name).isSome ↔ name ∈ mapping.map Prod.fst := by
  simp [item?, List.find?_isSome]

structure ParetoRecord (Value : Type) where
  paretoRecordId : EntityId
  candidateId : EntityId
  correctnessContract : CorrectnessContract
  selectionClass : SelectionClass
  feasibilityPredicateVersion : String
  requiredViewMetricIds : List (EntityId × EntityId)
  metricVector : List (String × Value)
  dominatedCandidateIds : List EntityId
  objectivePolicyRank : ℕ
  bindingHash : String
  clockHash : String
  cdcHash : String
  formalHash : String
  physicalStage : PhysicalStage
  comparisonIdentityHashes : List (String × String)
  recordedAt : ℕ
  contract_expected : correctnessContract = selectionClass.expected
  dominatedCandidateIds_nodup : dominatedCandidateIds.Nodup
  self_not_dominated : candidateId ∉ dominatedCandidateIds

inductive ProofOutcome where
  | pass
  | fail
  | inconclusive
  | infrastructureError
  deriving DecidableEq, Repr

/-- The fields that are checked or updated. Of a metric set, only the analysis view is read. -/
structure ExperimentRecord where
  experimentRecordId : EntityId
  runId : EntityId
  opportunityId : EntityId
  proposalId : EntityId
  parentCandidateId : EntityId
  candidateId : EntityId
  sourceHash : String
  patchHash : String
  stageResultIds : List EntityId
  proofResultId : Option EntityId
  proofOutcome : Option ProofOutcome
  counterexampleArtifactId : Option EntityId
  beforeMetrics : List (EntityId × Option EntityId)
  afterMetrics : List (EntityId × Option EntityId)
  failureEventId : Option EntityId
  repairDirectiveId : Option EntityId
  candidateFailureFingerprintId : Option EntityId
  recoveryDecisionId : Option EntityId
  descendantOutcome : Option String
  roleIds : List EntityId
  modelConfigurationHashes : List String
  promptHashes : List String
  contextPackHashes : List String
  terminalDisposition : String

def requireUnique {α : Type} [DecidableEq α] (values : List α) (label : String) :
    Except String Unit :=
  require values.Nodup (label ++ " must be unique")

def validateMetricMap (metrics : List (EntityId × Option EntityId)) (label : String) :
    Except String Unit :=
  forM metrics fun item => require (item.2 = some item.1)
    (label ++ " metric view key must match MetricSet analysis_view_id")

def ExperimentRecord.check (record : ExperimentRecord) : Except String Unit := do
  require (record.parentCandidateId ≠ record.candidateId) "candidate cannot be its own parent"
  requireUnique record.stageResultIds "stage result IDs"
  requireUnique record.roleIds "role IDs"
  requireUnique record.modelConfigurationHashes "model configuration hashes"
  requireUnique record.promptHashes "prompt hashes"
  requireUnique record.contextPackHashes "context pack hashes"
  validateMetricMap record.beforeMetrics "before"
  validateMetricMap record.afterMetrics "after"
  require (sortedSet (record.beforeMetrics.map Prod.fst) =
      sortedSet (record.afterMetrics.map Prod.fst))
    "before and after metrics must cover the same analysis views"
  require (record.proofResultId = none ↔ record.proofOutcome = none)
    "proof result ID and outcome must be present together"
  require (¬ (record.proofOutcome = some .pass ∧ record.counterexampleArtifactId ≠ none))
    "PASS proof cannot reference a counterexample"
  require (¬ (record.failureEventId = none ∧ ¬ (record.repairDirectiveId = none ∧
      record.candidateFailureFingerprintId = none ∧ record.recoveryDecisionId = none ∧
      record.descendantOutcome = none)))
    "recovery lineage requires a failure_event_id"

def officialMetricVector : List String :=
  ["setup_wns_ns", "setup_tns_ns", "hold_wns_ns", "hold_tns_ns", "failing_endpoints",
    "mapped_area_um2", "physical_area_um2", "power_total_uw", "source_change_lines",
    "evaluation_runtime_ms"]

def requiredComparisonIdentities : List String :=
  ["analysis_view_set", "constraint_source", "power_activity", "platform_lock",
    "constraint_binding", "clock_graph", "cdc_inventory", "formal_model"]

end NovaRtl
