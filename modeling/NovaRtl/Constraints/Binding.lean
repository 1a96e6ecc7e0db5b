import NovaRtl.Contracts.CanonicalJson
import NovaRtl.Contracts.Checks
import NovaRtl.Order.Frontier

/-!
# Constraint bindings

`audit_constraint_binding` of `constraints/binding.py`. The manifest of a baseline keeps the hashes
of its commands, the names of its analysis views and the numbers of its endpoints, and a candidate is
compared with that.
-/

namespace NovaRtl.Constraints

open Text

inductive AuditError where
  | safetyPreflight (code message : String)
  | validation (message : String)
  | valueError (message : String)
  deriving DecidableEq, Repr

/-! ## Contracts -/

structure ConstraintCommandResolution where
  commandId : Identifier
  normalizedCommand : String
  selectors : List String
  resolvedObjectIds : List String
  command_ne : normalizedCommand ≠ ""
  selectors_ne : selectors ≠ []
  selectors_nonempty : ∀ selector ∈ selectors, selector ≠ ""
  objects_nonempty : ∀ id ∈ resolvedObjectIds, id ≠ ""

/-- `canonical_sha256({"normalized_command": command})` -/
def commandHash (command : String) : HashRef :=
  canonicalHash noFloats (.obj [("normalized_command", .str command)]) rfl

/-- `canonical_sha256({"resolved_object_ids": ids})` -/
def objectSetHash (ids : List String) : HashRef :=
  canonicalHash noFloats (.obj [("resolved_object_ids", textsJson ids)]) (by simp)

structure ResolvedConstraintCommand where
  commandId : Identifier
  normalizedCommandHash : HashRef
  resolvedObjectIds : List String
  resolvedObjectSetHash : HashRef
  deriving DecidableEq

def ResolvedConstraintCommand.check (command : ResolvedConstraintCommand) :
    Except AuditError Unit := do
  require (command.resolvedObjectIds ≠ [] ∧ ∀ id ∈ command.resolvedObjectIds, id ≠ "")
    (.validation "resolved_object_ids")
  require (command.resolvedObjectIds = sorted command.resolvedObjectIds)
    (.validation "resolved object IDs must be sorted")
  require command.resolvedObjectIds.Nodup (.validation "resolved object IDs must be unique")
  require (command.resolvedObjectSetHash = objectSetHash command.resolvedObjectIds)
    (.validation "resolved_object_set_hash does not match resolved object IDs")

structure ConstraintCoverage where
  sequentialEndpointsTotal : ℕ
  timedEndpoints : ℕ
  reviewedExceptionEndpoints : ℕ
  unresolvedSelectors : ℕ
  deriving DecidableEq

def ConstraintCoverage.check (coverage : ConstraintCoverage) : Except AuditError Unit := do
  require (coverage.unresolvedSelectors = 0) (.validation "unresolved_selectors must be zero")
  require (coverage.timedEndpoints + coverage.reviewedExceptionEndpoints =
      coverage.sequentialEndpointsTotal)
    (.validation ("timed_endpoints + reviewed_exception_endpoints must equal " ++
      "sequential_endpoints_total"))

inductive BaselineComparison where
  | equivalent
  | approvedSemanticRemap
  | forbiddenDelta
  deriving DecidableEq, Repr

/-- A manifest without its own hash. -/
structure BindingPayload where
  bindingManifestId : String
  candidateId : String
  sdcHash : String
  netlistSnapshotHash : String
  analysisViewIds : List String
  resolvedCommands : List ResolvedConstraintCommand
  coverage : ConstraintCoverage
  comparisonToBaseline : BaselineComparison
  reviewedMappingRefs : List String

structure ConstraintBindingManifest extends BindingPayload where
  effectiveBindingHash : HashRef

def ResolvedConstraintCommand.toJson (command : ResolvedConstraintCommand) : Json Empty :=
  .obj [("command_id", .str command.commandId.val),
    ("normalized_command_hash", .str command.normalizedCommandHash.val),
    ("resolved_object_ids", textsJson command.resolvedObjectIds),
    ("resolved_object_set_hash", .str command.resolvedObjectSetHash.val)]

@[simp] theorem ResolvedConstraintCommand.toJson_writable (command : ResolvedConstraintCommand) :
    command.toJson.writable = true := by
  simp [ResolvedConstraintCommand.toJson]

def ConstraintCoverage.toJson (coverage : ConstraintCoverage) : Json Empty :=
  .obj [("sequential_endpoints_total", .int coverage.sequentialEndpointsTotal),
    ("timed_endpoints", .int coverage.timedEndpoints),
    ("reviewed_exception_endpoints", .int coverage.reviewedExceptionEndpoints),
    ("unresolved_selectors", .int coverage.unresolvedSelectors)]

def BaselineComparison.text : BaselineComparison → String
  | equivalent => "EQUIVALENT"
  | approvedSemanticRemap => "APPROVED_SEMANTIC_REMAP"
  | forbiddenDelta => "FORBIDDEN_DELTA"

def BindingPayload.toJson (payload : BindingPayload) : Json Empty :=
  .obj [("schema_version", .int 1), ("binding_manifest_id", .str payload.bindingManifestId),
    ("candidate_id", .str payload.candidateId), ("sdc_hash", .str payload.sdcHash),
    ("netlist_snapshot_hash", .str payload.netlistSnapshotHash),
    ("analysis_view_ids", textsJson payload.analysisViewIds),
    ("resolved_commands", .arr (payload.resolvedCommands.map ResolvedConstraintCommand.toJson)),
    ("coverage", payload.coverage.toJson),
    ("comparison_to_baseline", .str payload.comparisonToBaseline.text),
    ("reviewed_mapping_refs", textsJson payload.reviewedMappingRefs)]

/-- `id_sequences_are_sorted_unique` -/
def checkIdSequence (ids : List String) : Except AuditError Unit := do
  require (ids = sorted ids) (.validation "identity sequences must be sorted")
  require ids.Nodup (.validation "identity sequences must be unique")

def ConstraintBindingManifest.check (manifest : ConstraintBindingManifest) :
    Except AuditError Unit := do
  require (isEntityId manifest.bindingManifestId) (.validation "binding_manifest_id")
  require (isEntityId manifest.candidateId) (.validation "candidate_id")
  require (isHashRef manifest.sdcHash) (.validation "sdc_hash")
  require (isHashRef manifest.netlistSnapshotHash) (.validation "netlist_snapshot_hash")
  require (manifest.analysisViewIds ≠ [] ∧ ∀ id ∈ manifest.analysisViewIds, isEntityId id)
    (.validation "analysis_view_ids")
  checkIdSequence manifest.analysisViewIds
  require (manifest.resolvedCommands ≠ []) (.validation "resolved_commands")
  require (∀ id ∈ manifest.reviewedMappingRefs, isEntityId id)
    (.validation "reviewed_mapping_refs")
  checkIdSequence manifest.reviewedMappingRefs
  require (manifest.resolvedCommands.map ResolvedConstraintCommand.commandId).Nodup
    (.validation "resolved command IDs must be unique")
  require (¬ (manifest.comparisonToBaseline = .equivalent ∧ manifest.reviewedMappingRefs ≠ []))
    (.validation "EQUIVALENT binding cannot declare reviewed mappings")
  require (¬ (manifest.comparisonToBaseline = .approvedSemanticRemap ∧
      manifest.reviewedMappingRefs = []))
    (.validation "APPROVED_SEMANTIC_REMAP requires reviewed mapping refs")
  require (canonicalSha256 noFloats manifest.toBindingPayload.toJson =
      some manifest.effectiveBindingHash)
    (.validation "effective_binding_hash does not match canonical binding identity")

/-! ## The audit -/

/-- The inputs of an audit, without the baseline. The two mappings are lists with distinct keys. -/
structure AuditInputs where
  bindingManifestId : String
  candidateId : String
  sdcHash : String
  netlistSnapshotHash : String
  analysisViewHashes : List (String × String)
  expectedAnalysisViewHashes : List (String × String)
  expectedCommandIds : List String
  commandResolutions : List ConstraintCommandResolution
  sequentialEndpointIds : List String
  timedEndpointIds : List String
  reviewedExceptionEndpointIds : List String
  views_nodup : (analysisViewHashes.map Prod.fst).Nodup
  expectedViews_nodup : (expectedAnalysisViewHashes.map Prod.fst).Nodup

def ConstraintCommandResolution.resolve (item : ConstraintCommandResolution) :
    ResolvedConstraintCommand where
  commandId := item.commandId
  normalizedCommandHash := commandHash item.normalizedCommand
  resolvedObjectIds := sortedSet item.resolvedObjectIds
  resolvedObjectSetHash := objectSetHash (sortedSet item.resolvedObjectIds)

namespace AuditInputs

variable (inputs : AuditInputs)

def viewIds : List String := inputs.analysisViewHashes.map Prod.fst

def commandIds : List String := inputs.commandResolutions.map fun item => item.commandId.val

def emptyCommands : List ConstraintCommandResolution :=
  inputs.commandResolutions.filter fun item => item.resolvedObjectIds = []

def resolvedCommands : List ResolvedConstraintCommand :=
  (sortedBy (fun item => item.commandId.val) inputs.commandResolutions).map
    ConstraintCommandResolution.resolve

def coverage : ConstraintCoverage where
  sequentialEndpointsTotal := inputs.sequentialEndpointIds.dedup.length
  timedEndpoints := inputs.timedEndpointIds.dedup.length
  reviewedExceptionEndpoints := inputs.reviewedExceptionEndpointIds.dedup.length
  unresolvedSelectors := 0

/-- The timed and the excepted endpoints partition the sequential ones, and none is repeated. -/
def EndpointsCovered : Prop :=
  (inputs.sequentialEndpointIds.Nodup ∧ inputs.timedEndpointIds.Nodup ∧
      inputs.reviewedExceptionEndpointIds.Nodup) ∧
    (∀ id ∈ inputs.timedEndpointIds, id ∉ inputs.reviewedExceptionEndpointIds) ∧
    inputs.timedEndpointIds ⊆ inputs.sequentialEndpointIds ∧
    inputs.reviewedExceptionEndpointIds ⊆ inputs.sequentialEndpointIds ∧
    inputs.sequentialEndpointIds ⊆ inputs.timedEndpointIds ++ inputs.reviewedExceptionEndpointIds

instance : Decidable inputs.EndpointsCovered := inferInstanceAs (Decidable (_ ∧ _))

def payload : BindingPayload where
  bindingManifestId := inputs.bindingManifestId
  candidateId := inputs.candidateId
  sdcHash := inputs.sdcHash
  netlistSnapshotHash := inputs.netlistSnapshotHash
  analysisViewIds := sorted inputs.viewIds
  resolvedCommands := inputs.resolvedCommands
  coverage := inputs.coverage
  comparisonToBaseline := .equivalent
  reviewedMappingRefs := []

end AuditInputs

/-- What a candidate is compared by. -/
def SameBinding (baseline : ConstraintBindingManifest) (inputs : AuditInputs) : Prop :=
  baseline.sdcHash = inputs.sdcHash ∧ baseline.analysisViewIds = sorted inputs.viewIds ∧
    baseline.resolvedCommands = inputs.resolvedCommands ∧ baseline.coverage = inputs.coverage

instance (baseline : ConstraintBindingManifest) (inputs : AuditInputs) :
    Decidable (SameBinding baseline inputs) :=
  inferInstanceAs (Decidable (_ ∧ _))

def compareToBaseline (inputs : AuditInputs) :
    Option ConstraintBindingManifest → Except AuditError Unit
  | none => .ok ()
  | some baseline => require (SameBinding baseline inputs)
    (.safetyPreflight "CONSTRAINT_BINDING_FORBIDDEN_DELTA"
      "candidate selector binding differs from the locked baseline intent")

def buildManifest (inputs : AuditInputs) : Except AuditError ConstraintBindingManifest :=
  match canonicalSha256 noFloats inputs.payload.toJson with
  | none => .error (.valueError "Exceeds the limit for integer string conversion")
  | some effectiveBindingHash => do
    let manifest : ConstraintBindingManifest := { inputs.payload with effectiveBindingHash }
    manifest.check
    return manifest

/-- `audit_constraint_binding` -/
def auditConstraintBinding (inputs : AuditInputs) (baseline : Option ConstraintBindingManifest) :
    Except AuditError ConstraintBindingManifest := do
  require (inputs.analysisViewHashes ≠ [] ∧
      inputs.analysisViewHashes ⊆ inputs.expectedAnalysisViewHashes ∧
      inputs.expectedAnalysisViewHashes ⊆ inputs.analysisViewHashes)
    (.safetyPreflight "ANALYSIS_VIEW_HASH_MISMATCH"
      "required analysis-view identities are missing or differ from the locked set")
  require (inputs.expectedCommandIds ≠ [] ∧
      inputs.expectedCommandIds = sorted inputs.expectedCommandIds ∧
      inputs.expectedCommandIds.Nodup)
    (.safetyPreflight "CONSTRAINT_COMMAND_IDENTITY_INVALID"
      "expected constraint command identities must be sorted and unique")
  require inputs.commandIds.Nodup
    (.safetyPreflight "CONSTRAINT_COMMAND_IDENTITY_INVALID"
      "resolved constraint command identities must be unique")
  require (inputs.commandIds ⊆ inputs.expectedCommandIds ∧
      inputs.expectedCommandIds ⊆ inputs.commandIds)
    (.safetyPreflight "CONSTRAINT_COMMAND_INVENTORY_INCOMPLETE"
      "resolved command inventory must exactly cover every expected SDC command")
  require (inputs.emptyCommands = [])
    (.safetyPreflight "CONSTRAINT_SELECTOR_UNRESOLVED"
      ("constraint selectors resolved to empty object sets: " ++
        ", ".intercalate (inputs.emptyCommands.map fun item => item.commandId.val)))
  require inputs.EndpointsCovered
    (.safetyPreflight "CONSTRAINT_ENDPOINT_COVERAGE_INCOMPLETE"
      "timed and reviewed-exception endpoints must disjointly cover every endpoint")
  forM inputs.resolvedCommands ResolvedConstraintCommand.check
  inputs.coverage.check
  compareToBaseline inputs baseline
  buildManifest inputs

end NovaRtl.Constraints
