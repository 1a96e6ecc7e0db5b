import Mathlib.Data.Rat.Init
import NovaRtl.Planner.Contracts
import NovaRtl.Transact.Table

/-!
# Authorization of proposals

Each of the three planners has a check of its own that decides which proposals it may pass on. The
heuristic planner is handed the opportunity, the other two look it up. The council looks at neither
the editability of the opportunity nor its protected neighbors.

## Main definitions

* `isSafe`, `semanticError`, `proposalIsAuthorized` — the checks of the three planners.
* `Authorized` — what a proposal must satisfy.
-/

namespace NovaRtl.Planner

variable {φ : Type} (registry : TransformRegistry φ) (opportunities : List OptimizationOpportunity)
  (proposal : OptimizationProposal φ) (opportunity : OptimizationOpportunity)
  (request : PlannerRequest)

/-- `self._opportunities.get(opportunity_id)` of a planner constructed with `opportunities` -/
def getOpportunity (opportunityId : Identifier) : Option OptimizationOpportunity :=
  Table.lookup OptimizationOpportunity.opportunityId
    (Table.dict OptimizationOpportunity.opportunityId opportunities) opportunityId

/-- The `try` block of the checks. -/
def registeredDescriptor : Except String TransformCapabilityMetadata := do
  let descriptor ← registry.getDescriptor proposal.transformation.operation
  registry.validateParameters proposal.transformation.operation proposal.transformation.parameters
  return descriptor

/-- `HeuristicPlanner._is_safe` -/
def isSafe : Bool :=
  if opportunity.editability ≠ .rtlEditable then false
  else if proposal.parentCandidateId ≠ request.parentCandidateId ∨
      proposal.opportunityId ≠ request.opportunityId ∨
      proposal.target.sourceSpanId ∉ opportunity.sourceSpans ∨
      proposal.target.sourceSpanId ∈ opportunity.protectedNeighbors ∨
      proposal.transformation.operation ∉ opportunity.eligibleTransformFamilies ∨
      proposal.correctness.contract ∉ opportunity.proofContracts then false
  else if ¬ evidenceIds proposal.evidenceRefs ⊆ request.authorizedEvidenceIds.toFinset then false
  else if snapshots proposal.evidenceRefs ≠ {request.evidenceSnapshotHash} then false
  else
    match registeredDescriptor registry proposal with
    | .error _ => false
    | .ok descriptor =>
      descriptor.family = proposal.transformation.family &&
        descriptor.correctnessContract = proposal.correctness.contract

/-- `SingleAgentPlanner._semantic_error` -/
def semanticError : Option String :=
  match getOpportunity opportunities request.opportunityId with
  | none => some "unknown opportunity"
  | some opportunity =>
    if opportunity.editability ≠ .rtlEditable then some "opportunity is protected or not editable"
    else if proposal.parentCandidateId ≠ request.parentCandidateId ∨
        proposal.opportunityId ≠ request.opportunityId then
      some "proposal lineage differs from planner request"
    else if proposal.target.sourceSpanId ∉ opportunity.sourceSpans ∨
        proposal.target.sourceSpanId ∈ opportunity.protectedNeighbors then
      some "proposal target is not an authorized editable source span"
    else if proposal.transformation.operation ∉ opportunity.eligibleTransformFamilies then
      some "proposal transform is not eligible for the opportunity"
    else if proposal.correctness.contract ∉ opportunity.proofContracts then
      some "proposal correctness contract is not authorized"
    else if ¬ evidenceIds proposal.evidenceRefs ⊆ request.authorizedEvidenceIds.toFinset then
      some "proposal cites private or unauthorized evidence"
    else if snapshots proposal.evidenceRefs ≠ {request.evidenceSnapshotHash} then
      some "proposal evidence snapshot is stale"
    else
      match registeredDescriptor registry proposal with
      | .error _ => some "proposal operation or parameters are not registered"
      | .ok descriptor =>
        if descriptor.family ≠ proposal.transformation.family ∨
            descriptor.correctnessContract ≠ proposal.correctness.contract then
          some "proposal registry metadata differs"
        else none

/-- `CouncilPlanner._proposal_is_authorized`; no value is the `KeyError` of an unknown
opportunity. -/
def proposalIsAuthorized : Option Bool :=
  (getOpportunity opportunities request.opportunityId).map fun opportunity =>
    if proposal.parentCandidateId ≠ request.parentCandidateId ∨
        proposal.opportunityId ≠ request.opportunityId ∨
        proposal.target.sourceSpanId ∉ opportunity.sourceSpans ∨
        proposal.transformation.operation ∉ opportunity.eligibleTransformFamilies ∨
        proposal.correctness.contract ∉ opportunity.proofContracts then false
    else if ¬ evidenceIds proposal.evidenceRefs ⊆ request.authorizedEvidenceIds.toFinset then false
    else if snapshots proposal.evidenceRefs ≠ {request.evidenceSnapshotHash} then false
    else
      match registeredDescriptor registry proposal with
      | .error _ => false
      | .ok descriptor =>
        descriptor.family = proposal.transformation.family &&
          descriptor.correctnessContract = proposal.correctness.contract

/-! ## What the checks decide -/

/-- A proposal for the request's opportunity that edits an authorized span by a registered
capability, on authorized evidence of the request's snapshot. -/
structure Authorized : Prop where
  parent_eq : proposal.parentCandidateId = request.parentCandidateId
  opportunity_eq : proposal.opportunityId = request.opportunityId
  editable : opportunity.editability = .rtlEditable
  target_mem : proposal.target.sourceSpanId ∈ opportunity.sourceSpans
  target_unprotected : proposal.target.sourceSpanId ∉ opportunity.protectedNeighbors
  operation_mem : proposal.transformation.operation ∈ opportunity.eligibleTransformFamilies
  contract_mem : proposal.correctness.contract ∈ opportunity.proofContracts
  evidence_subset : evidenceIds proposal.evidenceRefs ⊆ request.authorizedEvidenceIds.toFinset
  snapshots_eq : snapshots proposal.evidenceRefs = {request.evidenceSnapshotHash}
  registered : ∃ descriptor, registeredDescriptor registry proposal = .ok descriptor ∧
    descriptor.family = proposal.transformation.family ∧
      descriptor.correctnessContract = proposal.correctness.contract

variable {registry opportunities proposal opportunity request}

/-- An opportunity that authorizes a transform is editable. -/
theorem OptimizationOpportunity.editable_of_mem {operation : StableUpperString}
    (h : operation ∈ opportunity.eligibleTransformFamilies) :
    opportunity.editability = .rtlEditable := by
  by_contra hne
  rw [opportunity.uneditable_unauthorized hne] at h
  cases h

theorem isSafe_iff :
    isSafe registry proposal opportunity request ↔
      Authorized registry proposal opportunity request := by
  constructor
  · intro h
    unfold isSafe at h
    split_ifs at h with heditable hlists hevidence hsnapshot
    simp only [ne_eq, not_or, not_not] at heditable hlists hevidence hsnapshot
    obtain ⟨hparent, hid, htarget, hprotected, hoperation, hcontract⟩ := hlists
    refine ⟨hparent, hid, heditable, htarget, hprotected, hoperation, hcontract, hevidence,
      hsnapshot, ?_⟩
    cases hdescriptor : registeredDescriptor registry proposal with
    | error message => simp [hdescriptor] at h
    | ok descriptor => exact ⟨descriptor, rfl, by simpa [hdescriptor] using h⟩
  · rintro ⟨hparent, hid, heditable, htarget, hprotected, hoperation, hcontract, hevidence,
      hsnapshot, descriptor, hdescriptor, hfamily, hmetadata⟩
    simp [isSafe, hparent, hid, heditable, htarget, hprotected, hoperation, hcontract, hevidence,
      hsnapshot, hdescriptor, hfamily, hmetadata]

theorem semanticError_eq_none_iff
    (h : getOpportunity opportunities request.opportunityId = some opportunity) :
    semanticError registry opportunities proposal request = none ↔
      Authorized registry proposal opportunity request := by
  unfold semanticError
  rw [h]
  constructor
  · intro hnone
    dsimp only at hnone
    split_ifs at hnone with heditable hlineage htarget hoperation hcontract hevidence hsnapshot
    simp only [ne_eq, not_or, not_not] at heditable hlineage htarget hsnapshot
    refine ⟨hlineage.1, hlineage.2, heditable, htarget.1, htarget.2, hoperation, hcontract,
      hevidence, hsnapshot, ?_⟩
    cases hdescriptor : registeredDescriptor registry proposal with
    | error message => simp [hdescriptor] at hnone
    | ok descriptor =>
      simp only [hdescriptor] at hnone
      split_ifs at hnone with hmetadata
      exact ⟨descriptor, rfl, by simpa using hmetadata⟩
  · rintro ⟨hparent, hid, heditable, htarget, hprotected, hoperation, hcontract, hevidence,
      hsnapshot, descriptor, hdescriptor, hfamily, hmetadata⟩
    simp [hparent, hid, heditable, htarget, hprotected, hoperation, hcontract, hevidence,
      hsnapshot, hdescriptor, hfamily, hmetadata]

/-- What the council does not check follows from the opportunity's contract. -/
theorem proposalIsAuthorized_eq_true_iff
    (h : getOpportunity opportunities request.opportunityId = some opportunity) :
    proposalIsAuthorized registry opportunities proposal request = some true ↔
      Authorized registry proposal opportunity request := by
  simp only [proposalIsAuthorized, h, Option.map_some, Option.some.injEq]
  constructor
  · intro htrue
    split_ifs at htrue with hlists hevidence hsnapshot
    simp only [ne_eq, not_or, not_not] at hlists hevidence hsnapshot
    obtain ⟨hparent, hid, htarget, hoperation, hcontract⟩ := hlists
    refine ⟨hparent, hid, opportunity.editable_of_mem hoperation, htarget,
      fun hprotected => opportunity.spans_unprotected htarget hprotected, hoperation, hcontract,
      hevidence, hsnapshot, ?_⟩
    cases hdescriptor : registeredDescriptor registry proposal with
    | error message => simp [hdescriptor] at htrue
    | ok descriptor => exact ⟨descriptor, rfl, by simpa [hdescriptor] using htrue⟩
  · rintro ⟨hparent, hid, heditable, htarget, hprotected, hoperation, hcontract, hevidence,
      hsnapshot, descriptor, hdescriptor, hfamily, hmetadata⟩
    simp [hparent, hid, htarget, hoperation, hcontract, hevidence, hsnapshot, hdescriptor,
      hfamily, hmetadata]

/-! ## A proposal for a Boolean tree -/

def sampleCandidate : Identifier := ⟨"candidate_baseline", by decide +kernel⟩

def sampleSpan : Identifier := ⟨"span_tree", by decide +kernel⟩

def sampleOpportunityId : Identifier := ⟨"opportunity_tree", by decide +kernel⟩

theorem sampleSnapshot_isHashRef : isHashRef
    "sha256:3b02ba04fc7a67bde510fde174dfab0c6868dd81ef8a87cf86f7f1e1c4412c12" := by
  decide +kernel

def sampleSnapshot : HashRef :=
  ⟨"sha256:3b02ba04fc7a67bde510fde174dfab0c6868dd81ef8a87cf86f7f1e1c4412c12",
    sampleSnapshot_isHashRef⟩

def sampleRegistryHash : HashRef :=
  ⟨"sha256:aaeeb51ef773eabe4ddd86d35847bf81511848bd5000b3248e1ac28f42073756", by decide +kernel⟩

def samplePolicyHash : HashRef :=
  ⟨"sha256:51fb1bc8f8f360b19a8158fef52e18314f2902c6a191e9b454d7175c83fbe314", by decide +kernel⟩

def unbalancedBooleanTree : StableUpperString := ⟨"UNBALANCED_BOOLEAN_TREE", by decide +kernel⟩

def balanceBooleanTree : StableUpperString := ⟨"BALANCE_BOOLEAN_TREE", by decide +kernel⟩

def logicRestructuring : StableUpperString := ⟨"LOGIC_RESTRUCTURING", by decide +kernel⟩

def sampleToken : StableUpperString := ⟨noProtectedNodeInEditSet, by decide +kernel⟩

def sampleEvidence : EvidenceRef where
  evidenceId := sampleSpan
  kind := .sourceSpan
  artifactId := ⟨"artifact_graph", by decide +kernel⟩
  jsonPointer := none
  snapshotHash := sampleSnapshot
  pointer_valid := noPointer_valid

theorem sampleEvidence_snapshot : OneSnapshot [sampleEvidence] := ⟨by simp, by simp [snapshots]⟩

def sampleOpportunity : OptimizationOpportunity where
  opportunityId := sampleOpportunityId
  parentCandidateId := sampleCandidate
  rootCause := unbalancedBooleanTree
  editability := .rtlEditable
  sourceSpans := [sampleSpan]
  protectedNeighbors := []
  eligibleTransformFamilies := [balanceBooleanTree]
  proofContracts := [.strictSeqEquiv]
  evidenceRefs := [sampleEvidence]
  spans_nodup := by simp
  neighbors_nodup := by simp
  families_nodup := by simp
  contracts_nodup := by simp
  spans_unprotected := by simp
  refs_snapshot := sampleEvidence_snapshot
  editable_actionable := fun _ => ⟨by simp, by simp, by simp, by simp [evidenceIds, sampleEvidence]⟩
  uneditable_unauthorized := by simp

def sampleProposal (proposalId : Identifier) : OptimizationProposal ℚ where
  proposalId
  parentCandidateId := sampleCandidate
  opportunityId := sampleOpportunityId
  diagnosisRefs := [⟨"diagnosis_tree", by decide +kernel⟩]
  target := ⟨"top", sampleSpan, "cone:v1:tree"⟩
  transformation :=
    { operation := balanceBooleanTree
      family := logicRestructuring
      parameters := [("operator", .str "&")]
      parameters_ne := by simp
      names_nodup := by simp }
  preconditions := [sampleToken]
  correctness := ⟨.strictSeqEquiv, "top", sampleToken⟩
  prediction := ⟨.improve, .neutral, 1 / 2⟩
  evidenceRefs := [sampleEvidence]
  abortConditions := [sampleToken]
  diagnosis_ne := by simp
  abort_ne := by simp
  diagnosis_nodup := by simp
  preconditions_nodup := by simp
  abort_nodup := by simp
  unprotected := by simp [sampleToken]
  refs_snapshot := sampleEvidence_snapshot
  target_cited := by simp [evidenceIds, sampleEvidence]

/-- Of the parameters, the operator is checked. -/
def sampleRegistry : TransformRegistry ℚ where
  capabilities :=
    [{ metadata := ⟨balanceBooleanTree, logicRestructuring, .strictSeqEquiv⟩
       parameterModel := fun parameters =>
        if parameters = [("operator", .str "&")] then .ok () else .error "operator" }]
  registryHash := sampleRegistryHash
  operations_nodup := by simp

theorem sampleSpan_nodup : [sampleSpan].Nodup := List.nodup_singleton sampleSpan

theorem sampleSpan_subset : [sampleSpan] ⊆ [sampleSpan] := List.Subset.refl _

theorem sampleRequestId_isEntityId : isEntityId "planner_request_one" := by decide +kernel

theorem sampleLimit_pos : 0 < 3 := by decide

theorem sampleBudget_pos : 0 < 1000 := by decide

def samplePlannerRequest (plannerMode : PlannerMode) : PlannerRequest where
  plannerRequestId := ⟨"planner_request_one", sampleRequestId_isEntityId⟩
  runId := ⟨"run_one", by decide +kernel⟩
  parentCandidateId := sampleCandidate
  opportunityId := sampleOpportunityId
  evidenceSnapshotHash := sampleSnapshot
  designContractHash := samplePolicyHash
  policyHash := samplePolicyHash
  transformRegistryHash := sampleRegistryHash
  authorizedEvidenceIds := [sampleSpan]
  plannerMode
  proposalLimit := 3
  tokenBudget := 1000
  latencyBudgetMs := 1000
  deadline := 0
  deterministicSeed := 0
  requiredOutputSchemaName := "optimization-proposal"
  requiredOutputSchemaVersion := 2
  authorized_ne := by simp
  authorized_nodup := sampleSpan_nodup
  proposalLimit_pos := sampleLimit_pos
  tokenBudget_pos := sampleBudget_pos
  latencyBudgetMs_pos := sampleBudget_pos

theorem sampleOpportunity_known :
    getOpportunity [sampleOpportunity] sampleOpportunityId = some sampleOpportunity := by
  simp [getOpportunity, Table.dict, Table.assign, Table.lookup, sampleOpportunity]

/-! ## Agreement -/

/-- The three checks accept the same proposals for an opportunity that the planners know. -/
theorem authorization_checks_agree {singleAgent council : List OptimizationOpportunity}
    (hsingle : getOpportunity singleAgent request.opportunityId = some opportunity)
    (hcouncil : getOpportunity council request.opportunityId = some opportunity) :
    (isSafe registry proposal opportunity request = true ↔
        semanticError registry singleAgent proposal request = none) ∧
      (semanticError registry singleAgent proposal request = none ↔
        proposalIsAuthorized registry council proposal request = some true) := by
  have hsemantic : semanticError registry singleAgent proposal request = none ↔
      Authorized registry proposal opportunity request := semanticError_eq_none_iff hsingle
  exact ⟨isSafe_iff.trans hsemantic.symm,
    hsemantic.trans (proposalIsAuthorized_eq_true_iff hcouncil).symm⟩

theorem authorization_checks_agree_sample :
    (isSafe sampleRegistry (sampleProposal ⟨"proposal_one", by decide +kernel⟩) sampleOpportunity
          (samplePlannerRequest .singleAgent) = true ↔
        semanticError sampleRegistry [sampleOpportunity]
          (sampleProposal ⟨"proposal_one", by decide +kernel⟩)
          (samplePlannerRequest .singleAgent) = none) ∧
      (semanticError sampleRegistry [sampleOpportunity]
          (sampleProposal ⟨"proposal_one", by decide +kernel⟩)
          (samplePlannerRequest .singleAgent) = none ↔
        proposalIsAuthorized sampleRegistry [sampleOpportunity]
          (sampleProposal ⟨"proposal_one", by decide +kernel⟩)
          (samplePlannerRequest .singleAgent) = some true) :=
  authorization_checks_agree sampleOpportunity_known sampleOpportunity_known

end NovaRtl.Planner
