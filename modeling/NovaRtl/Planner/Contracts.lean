import Mathlib.Data.Finset.Card
import NovaRtl.Contracts.Reporting
import NovaRtl.Text.Json

/-!
# Contracts of the planners

Evidence references, opportunities, proposals and planner requests, as far as a planner reads them,
each with what its validator accepts. Also the transform registry, of which a planner sees the
operations, their metadata and whether parameters are accepted.
-/

namespace NovaRtl.Planner

open Text

instance identifier_lawfulBEq : LawfulBEq Identifier := inferInstance

inductive JsonScalar (φ : Type) where
  | null
  | bool (b : Bool)
  | int (n : ℤ)
  | float (x : φ)
  | str (s : String)
  deriving DecidableEq

def JsonScalar.toJson {φ : Type} : JsonScalar φ → Json φ
  | null => .null
  | bool b => .bool b
  | int n => .int n
  | float x => .float x
  | str s => .str s

/-- `^[A-Z][A-Z0-9_]{2,127}$` -/
def isStableUpper (text : String) : Bool :=
  match text.toList with
  | [] => false
  | c :: rest =>
    c.isUpper && rest.all (fun d => d.isUpper || d.isDigit || d = '_') &&
      2 ≤ rest.length && rest.length ≤ 127

abbrev StableUpperString := { text : String // isStableUpper text }

/-- What planner code raises. Pydantic's `ValidationError` is a `ValueError`. -/
inductive PlannerError where
  | contextIntegrity (message : String)
  | artifactStore (message : String)
  | plannerIntegrity (message : String)
  | singleAgentPlanner (message : String)
  | councilPolicy (message : String)
  | councilIsolation (message : String)
  | councilBudget (message : String)
  | councilFanin (message : String)
  | councilPlanning (message : String)
  | validation (message : String)
  | valueError (message : String)
  | typeError
  | keyError
  | indexError
  | overflowError
  deriving DecidableEq, Repr

/-! ## Evidence references -/

inductive EvidenceKind where
  | path
  | arc
  | cone
  | sourceSpan
  | clock
  | cdc
  | binding
  | physical
  | formal
  | metric
  | history
  deriving DecidableEq, Repr

/-- In a JSON pointer, `~0` and `~1` are the only escapes. -/
def validEscapes : List Char → Bool
  | [] => true
  | '~' :: '0' :: rest => validEscapes rest
  | '~' :: '1' :: rest => validEscapes rest
  | '~' :: _ => false
  | _ :: rest => validEscapes rest

/-- `json_pointer_is_rfc6901` -/
def isJsonPointer (value : String) : Bool :=
  (value.toList.isEmpty || value.toList.head? = some '/') && validEscapes value.toList

structure EvidenceRef where
  evidenceId : Identifier
  kind : EvidenceKind
  artifactId : Identifier
  jsonPointer : Option String
  snapshotHash : HashRef
  pointer_valid : ∀ value ∈ jsonPointer, isJsonPointer value
  deriving DecidableEq

theorem noPointer_valid : ∀ value ∈ (none : Option String), isJsonPointer value := nofun

/-- `{item.evidence_id for item in refs}` -/
def evidenceIds (refs : List EvidenceRef) : Finset Identifier :=
  (refs.map EvidenceRef.evidenceId).toFinset

/-- `{item.snapshot_hash for item in refs}` -/
def snapshots (refs : List EvidenceRef) : Finset HashRef :=
  (refs.map EvidenceRef.snapshotHash).toFinset

/-- `_validate_evidence_snapshot` -/
structure OneSnapshot (refs : List EvidenceRef) : Prop where
  ids_nodup : (refs.map EvidenceRef.evidenceId).Nodup
  one_snapshot : (snapshots refs).card = 1

/-! ## Opportunities and proposals -/

inductive Editability where
  | rtlEditable
  | protectedOrUnsafe
  | noRtlAction
  | insufficientEvidence
  deriving DecidableEq, Repr

structure OptimizationOpportunity where
  opportunityId : Identifier
  parentCandidateId : Identifier
  /-- The category of the first root cause. -/
  rootCause : StableUpperString
  editability : Editability
  sourceSpans : List Identifier
  protectedNeighbors : List Identifier
  eligibleTransformFamilies : List StableUpperString
  proofContracts : List CorrectnessContract
  evidenceRefs : List EvidenceRef
  spans_nodup : sourceSpans.Nodup
  neighbors_nodup : protectedNeighbors.Nodup
  families_nodup : eligibleTransformFamilies.Nodup
  contracts_nodup : proofContracts.Nodup
  spans_unprotected : sourceSpans.Disjoint protectedNeighbors
  refs_snapshot : OneSnapshot evidenceRefs
  editable_actionable : editability = .rtlEditable →
    sourceSpans ≠ [] ∧ eligibleTransformFamilies ≠ [] ∧ proofContracts ≠ [] ∧
      ∀ span ∈ sourceSpans, span ∈ evidenceIds evidenceRefs
  uneditable_unauthorized : editability ≠ .rtlEditable → eligibleTransformFamilies = []

structure ProposalTarget where
  hierarchy : String
  sourceSpanId : Identifier
  coneFingerprint : String
  deriving DecidableEq

structure Transformation (φ : Type) where
  operation : StableUpperString
  family : StableUpperString
  parameters : List (String × JsonScalar φ)
  parameters_ne : parameters ≠ []
  names_nodup : (parameters.map Prod.fst).Nodup

structure ProposalCorrectness where
  contract : CorrectnessContract
  proofScope : String
  resetModel : StableUpperString
  deriving DecidableEq

inductive TimingDirection where
  | improve
  | neutral
  | regress
  | unknown
  deriving DecidableEq, Repr

inductive AreaDirection where
  | decrease
  | neutral
  | smallIncrease
  | increase
  | unknown
  deriving DecidableEq, Repr

structure ProposalPrediction (φ : Type) where
  timingDirection : TimingDirection
  areaDirection : AreaDirection
  confidence : φ

def noProtectedNodeInEditSet : String := "NO_PROTECTED_NODE_IN_EDIT_SET"

structure OptimizationProposal (φ : Type) where
  proposalId : Identifier
  parentCandidateId : Identifier
  opportunityId : Identifier
  diagnosisRefs : List Identifier
  target : ProposalTarget
  transformation : Transformation φ
  preconditions : List StableUpperString
  correctness : ProposalCorrectness
  prediction : ProposalPrediction φ
  evidenceRefs : List EvidenceRef
  abortConditions : List StableUpperString
  diagnosis_ne : diagnosisRefs ≠ []
  abort_ne : abortConditions ≠ []
  diagnosis_nodup : diagnosisRefs.Nodup
  preconditions_nodup : preconditions.Nodup
  abort_nodup : abortConditions.Nodup
  unprotected : noProtectedNodeInEditSet ∈ preconditions.map Subtype.val
  refs_snapshot : OneSnapshot evidenceRefs
  target_cited : target.sourceSpanId ∈ evidenceIds evidenceRefs

/-! ## Requests -/

inductive PlannerMode where
  | heuristic
  | singleAgent
  | agentCouncil
  deriving DecidableEq, Repr

/-- The deadline is an instant in microseconds. -/
structure PlannerRequest where
  plannerRequestId : Identifier
  runId : Identifier
  parentCandidateId : Identifier
  opportunityId : Identifier
  evidenceSnapshotHash : HashRef
  designContractHash : HashRef
  policyHash : HashRef
  transformRegistryHash : HashRef
  authorizedEvidenceIds : List Identifier
  plannerMode : PlannerMode
  proposalLimit : ℕ
  tokenBudget : ℕ
  latencyBudgetMs : ℕ
  deadline : ℤ
  deterministicSeed : ℕ
  requiredOutputSchemaName : String
  requiredOutputSchemaVersion : ℕ
  authorized_ne : authorizedEvidenceIds ≠ []
  authorized_nodup : authorizedEvidenceIds.Nodup
  proposalLimit_pos : 0 < proposalLimit
  tokenBudget_pos : 0 < tokenBudget
  latencyBudgetMs_pos : 0 < latencyBudgetMs

/-! ## The transform registry -/

structure TransformCapabilityMetadata where
  operation : StableUpperString
  family : StableUpperString
  correctnessContract : CorrectnessContract
  deriving DecidableEq

/-- A capability; its parameter model accepts parameters or says what is wrong with them. -/
structure TransformCapability (φ : Type) where
  metadata : TransformCapabilityMetadata
  parameterModel : List (String × JsonScalar φ) → Except String Unit

structure TransformRegistry (φ : Type) where
  capabilities : List (TransformCapability φ)
  registryHash : HashRef
  operations_nodup : (capabilities.map fun capability => capability.metadata.operation).Nodup

namespace TransformRegistry

variable {φ : Type} (registry : TransformRegistry φ)

def resolve (operation : StableUpperString) : Except String (TransformCapability φ) :=
  match registry.capabilities.find? fun capability => capability.metadata.operation = operation with
  | some capability => .ok capability
  | none => .error ("transform operation is not registered: " ++ operation.val)

def getDescriptor (operation : StableUpperString) : Except String TransformCapabilityMetadata := do
  return (← registry.resolve operation).metadata

def validateParameters (operation : StableUpperString) (parameters : List (String × JsonScalar φ)) :
    Except String Unit := do
  (← registry.resolve operation).parameterModel parameters

end TransformRegistry

end NovaRtl.Planner
