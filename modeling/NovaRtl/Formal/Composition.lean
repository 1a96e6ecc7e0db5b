import NovaRtl.Contracts.Base
import NovaRtl.Contracts.Checks
import NovaRtl.Text.Files
import NovaRtl.Transforms.SourceEdit

/-!
# Composition manifests

`build_composition_manifest` of `formal/compose.py`. The plan of a proof lists its gold and gate
sources under names of its own, so a changed file is looked up by the hash of its content.
-/

namespace NovaRtl.Formal

open Text

/-- ASCII letters and digits, dots, underscores, slashes and hyphens. -/
def isSafeText (value : String) : Bool :=
  value ≠ "" && value.toList.all fun c =>
    c.isAlpha || c.isDigit || c = '.' || c = '_' || c = '/' || c = '-'

structure FormalSourceIdentity where
  relativePath : String
  sha256 : HashRef
  path_safe : isSafeText relativePath && normalizedPath relativePath

inductive CompositionError where
  | message (text : String)
  | validation
  deriving DecidableEq, Repr

structure PlanPayload where
  top : String
  goldSources : List FormalSourceIdentity
  gateSources : List FormalSourceIdentity
  goldSnapshotHash : HashRef
  gateSnapshotHash : HashRef
  formalModelContractId : EntityId
  resetAssumptionHash : HashRef
  environmentAssumptionHash : HashRef
  recipe : String
  recipeHash : HashRef

/-- The manifest without its own hash. -/
structure ManifestPayload where
  candidateId : EntityId
  parentFullSnapshotHash : HashRef
  candidateFullSnapshotHash : HashRef
  changedSourcePaths : List String
  changedSpanIds : List EntityId
  changedParentHashes : List (String × HashRef)
  changedCandidateHashes : List (String × HashRef)
  unchangedSourceHashes : List (String × HashRef)
  proofPlanHash : HashRef
  proofGoldHash : HashRef
  proofGateHash : HashRef
  proofTop : String
  parameterizations : List String
  boundaryInputs : List String
  boundaryOutputs : List String
  stateElements : List String
  assumptionHashes : List String
  dischargeObligations : List String

structure Hashes where
  /-- `_hash_bytes` -/
  ofBytes : ByteArray → HashRef
  /-- `canonical_sha256` of a list of identities -/
  ofFiles : List FormalSourceIdentity → HashRef
  ofPlan : PlanPayload → HashRef
  ofManifest : ManifestPayload → HashRef

/-- Sorted and unique. -/
def Canonical (xs : List String) : Prop := xs.Pairwise (· < ·)

instance (xs : List String) : Decidable (Canonical xs) :=
  inferInstanceAs (Decidable (xs.Pairwise (· < ·)))

variable (hashes : Hashes)

structure StrictEquivalencePlan extends PlanPayload where
  planHash : HashRef
  top_ne : top ≠ ""
  recipe_ne : recipe ≠ ""
  goldSources_ne : goldSources ≠ []
  contract_id : isEntityId formalModelContractId
  paths_canonical : Canonical (goldSources.map FormalSourceIdentity.relativePath)
  paths_eq : goldSources.map FormalSourceIdentity.relativePath =
    gateSources.map FormalSourceIdentity.relativePath
  recipeHash_eq : recipeHash = hashes.ofBytes (encode recipe)
  planHash_eq : planHash = hashes.ofPlan toPlanPayload

/-- The validator of a sequence of the manifest whose items satisfy `item`. -/
def CanonicalItems (item : String → Bool) (xs : List String) : Prop :=
  xs.all item ∧ Canonical xs

instance (item : String → Bool) (xs : List String) : Decidable (CanonicalItems item xs) :=
  inferInstanceAs (Decidable (_ ∧ _))

namespace ManifestPayload

variable (payload : ManifestPayload)

/-- Each sequence is sorted and unique, and most of them are nonempty. -/
def SequencesValid : Prop :=
  payload.changedSourcePaths ≠ [] ∧ Canonical payload.changedSourcePaths ∧
    payload.changedSpanIds ≠ [] ∧ CanonicalItems isEntityId payload.changedSpanIds ∧
    payload.parameterizations ≠ [] ∧ CanonicalItems (· ≠ "") payload.parameterizations ∧
    payload.boundaryInputs ≠ [] ∧ CanonicalItems (· ≠ "") payload.boundaryInputs ∧
    payload.boundaryOutputs ≠ [] ∧ CanonicalItems (· ≠ "") payload.boundaryOutputs ∧
    CanonicalItems (· ≠ "") payload.stateElements ∧
    CanonicalItems isHashRef payload.assumptionHashes ∧
    payload.dischargeObligations ≠ [] ∧ CanonicalItems (· ≠ "") payload.dischargeObligations

instance : Decidable payload.SequencesValid :=
  inferInstanceAs (Decidable (_ ∧ _))

/-- The maps cover the edit set, the unchanged sources are apart from it, and each changed source
has two hashes. -/
def ClosureValid : Prop :=
  (payload.changedParentHashes.map Prod.fst ⊆ payload.changedSourcePaths ∧
      payload.changedSourcePaths ⊆ payload.changedParentHashes.map Prod.fst) ∧
    (payload.changedCandidateHashes.map Prod.fst ⊆ payload.changedSourcePaths ∧
      payload.changedSourcePaths ⊆ payload.changedCandidateHashes.map Prod.fst) ∧
    (∀ path ∈ payload.changedSourcePaths, path ∉ payload.unchangedSourceHashes.map Prod.fst) ∧
    ∀ path ∈ payload.changedSourcePaths,
      payload.changedParentHashes.lookup path ≠ payload.changedCandidateHashes.lookup path

instance : Decidable payload.ClosureValid :=
  inferInstanceAs (Decidable (_ ∧ _))

/-- The validators of `CompositionClosureManifest`. -/
def Valid : Prop :=
  isEntityId payload.candidateId ∧ payload.proofTop ≠ "" ∧ payload.SequencesValid ∧
    payload.ClosureValid

instance : Decidable payload.Valid :=
  inferInstanceAs (Decidable (_ ∧ _))

end ManifestPayload

structure CompositionClosureManifest extends ManifestPayload where
  manifestHash : HashRef
  valid : toManifestPayload.Valid
  manifestHash_eq : manifestHash = hashes.ofManifest toManifestPayload

def sourceIdentity (hashes : Hashes) (root : Directory) (path : String) :
    Except CompositionError FormalSourceIdentity :=
  if hsafe : isSafeText path && normalizedPath path then
    match root path with
    | .file bytes =>
      if (decode bytes).isSome then
        .ok ⟨path, hashes.ofBytes bytes, hsafe⟩
      else .error (.message ("formal source is not readable UTF-8: " ++ path))
    | _ => .error (.message ("formal source is missing or unsafe: " ++ path))
  else .error .validation

/-- `_source_identities` -/
def sourceIdentities (hashes : Hashes) (root : Directory) (sourcePaths : List String) :
    Except CompositionError (List FormalSourceIdentity) := do
  require (sourcePaths ≠ [] ∧ sourcePaths.Nodup)
    (.message "formal source path set must be nonempty and unique")
  (sorted sourcePaths).mapM (sourceIdentity hashes root)

/-- The entry of `{item.relative_path: item.sha256 for item in identities}`. -/
def shaOf (identities : List FormalSourceIdentity) (path : String) : Option HashRef :=
  (identities.find? fun item => item.relativePath = path).map FormalSourceIdentity.sha256

def requiredDischarges : List String :=
  ["ALL_INSTANTIATIONS_COVERED", "NO_STATE_IN_SCOPE", "UNCHANGED_FILES_BYTE_IDENTICAL"]

structure ManifestRequest where
  candidateId : EntityId
  fullSourcePaths : List String
  changedSourcePaths : List String
  changedSpanIds : List EntityId
  parameterizations : List String
  boundaryInputs : List String
  boundaryOutputs : List String
  stateElements : List String
  assumptionHashes : List String
  dischargeObligations : List String

/-- The manifest for the identities of both trees. -/
def manifestOf (hashes : Hashes) (parent candidate : List FormalSourceIdentity)
    (proofPlan : StrictEquivalencePlan hashes) (request : ManifestRequest) :
    Except CompositionError (CompositionClosureManifest hashes) := do
  let paths := sorted (parent.map FormalSourceIdentity.relativePath)
  let actualChanged := paths.filter fun path => shaOf parent path ≠ shaOf candidate path
  let declaredChanged := sortedSet request.changedSourcePaths
  require (declaredChanged ≠ [] ∧ actualChanged = declaredChanged)
    (.message "full RTL snapshot contains a change outside compositional scope")
  require (request.changedSpanIds ≠ [] ∧ request.changedSpanIds.Nodup)
    (.message "composition changed-span set must be nonempty and unique")
  require ((∀ path ∈ declaredChanged, shaOf parent path ∈
        proofPlan.goldSources.map fun item => some item.sha256) ∧
      ∀ path ∈ declaredChanged, shaOf candidate path ∈
        proofPlan.gateSources.map fun item => some item.sha256)
    (.message "strict proof sources do not contain every changed RTL implementation")
  let expectedAssumptions :=
    [proofPlan.resetAssumptionHash.val, proofPlan.environmentAssumptionHash.val]
  require (request.assumptionHashes ⊆ expectedAssumptions ∧
      expectedAssumptions ⊆ request.assumptionHashes)
    (.message "composition assumptions do not match the proof plan")
  require (requiredDischarges ⊆ request.dischargeObligations)
    (.message "composition closure obligations are incomplete")
  let hashesOf (identities : List FormalSourceIdentity) (paths : List String) :=
    paths.filterMap fun path => (shaOf identities path).map fun sha => (path, sha)
  let payload : ManifestPayload := {
    candidateId := request.candidateId
    parentFullSnapshotHash := hashes.ofFiles parent
    candidateFullSnapshotHash := hashes.ofFiles candidate
    changedSourcePaths := declaredChanged
    changedSpanIds := sorted request.changedSpanIds
    changedParentHashes := hashesOf parent declaredChanged
    changedCandidateHashes := hashesOf candidate declaredChanged
    unchangedSourceHashes := hashesOf parent (paths.filter fun path => path ∉ declaredChanged)
    proofPlanHash := proofPlan.planHash
    proofGoldHash := proofPlan.goldSnapshotHash
    proofGateHash := proofPlan.gateSnapshotHash
    proofTop := proofPlan.top
    parameterizations := sorted request.parameterizations
    boundaryInputs := sorted request.boundaryInputs
    boundaryOutputs := sorted request.boundaryOutputs
    stateElements := sorted request.stateElements
    assumptionHashes := sorted request.assumptionHashes
    dischargeObligations := sorted request.dischargeObligations }
  if hvalid : payload.Valid then
    return { payload with
      manifestHash := hashes.ofManifest payload
      valid := hvalid
      manifestHash_eq := rfl }
  else throw .validation

def buildCompositionManifest (hashes : Hashes) (parentRoot candidateRoot : Directory)
    (proofPlan : StrictEquivalencePlan hashes) (request : ManifestRequest) :
    Except CompositionError (CompositionClosureManifest hashes) := do
  let parent ← sourceIdentities hashes parentRoot request.fullSourcePaths
  let candidate ← sourceIdentities hashes candidateRoot request.fullSourcePaths
  manifestOf hashes parent candidate proofPlan request

end NovaRtl.Formal
