import NovaRtl.Adapters.Base
import NovaRtl.Contracts.CanonicalJson
import NovaRtl.Contracts.Checks
import NovaRtl.Scheduler.Contracts
import NovaRtl.Text.JsonObjects

/-!
# Migration of legacy stage results

`StageResultV1ToV2` of `contracts/migrations.py`. The legacy payload is a JSON object; the context
holds the registries by which its entries are renamed and resolved. The dictionaries of the context
are functions, with `none` for an absent key.
-/

namespace NovaRtl.Migrations

open Text Scheduler

/-! ## Stage results -/

/-- `Stage` of `contracts/execution.py` -/
inductive Stage where
  | rtlParse | yosysSynth | constraintBinding | clockInventory | cdcInvariant
  | formalModelPreflight | eqySmoke | fastSynth | openstaFull | openroadPhysical
  | openroadPlacedCts | openroadRouted | formalEquivalence | simulation | powerAnalysis
  | evidenceGraph | opportunityFormation
  deriving DecidableEq, Repr

def Stage.ofText? : String → Option Stage
  | "RTL_PARSE" => some .rtlParse
  | "YOSYS_SYNTH" => some .yosysSynth
  | "CONSTRAINT_BINDING" => some .constraintBinding
  | "CLOCK_INVENTORY" => some .clockInventory
  | "CDC_INVARIANT" => some .cdcInvariant
  | "FORMAL_MODEL_PREFLIGHT" => some .formalModelPreflight
  | "EQY_SMOKE" => some .eqySmoke
  | "FAST_SYNTH" => some .fastSynth
  | "OPENSTA_FULL" => some .openstaFull
  | "OPENROAD_PHYSICAL" => some .openroadPhysical
  | "OPENROAD_PLACED_CTS" => some .openroadPlacedCts
  | "OPENROAD_ROUTED" => some .openroadRouted
  | "FORMAL_EQUIVALENCE" => some .formalEquivalence
  | "SIMULATION" => some .simulation
  | "POWER_ANALYSIS" => some .powerAnalysis
  | "EVIDENCE_GRAPH" => some .evidenceGraph
  | "OPPORTUNITY_FORMATION" => some .opportunityFormation
  | _ => none

def viewStages : List Stage :=
  [.openstaFull, .openroadPhysical, .openroadPlacedCts, .openroadRouted, .powerAnalysis]

def formalStages : List Stage := [.formalModelPreflight, .eqySmoke, .formalEquivalence]

def timingStages : List Stage :=
  [.openstaFull, .openroadPhysical, .openroadPlacedCts, .openroadRouted]

/-- `M3_STAGE_EXTENSION_IDENTITIES` -/
def stageExtensionIdentities : Stage → Option (List String)
  | .evidenceGraph => some ["analysis_view_set", "cdc_inventory", "clock_inventory",
      "critical_path_records", "protection_policy", "synthesis_structure"]
  | .opportunityFormation => some ["evidence_graph", "protection_policy", "transform_registry"]
  | _ => none

/-- `M3_EXTENSION_IDENTITIES` -/
def extensionIdentities : List String :=
  ["analysis_view_set", "cdc_inventory", "clock_inventory", "critical_path_records",
    "protection_policy", "synthesis_structure", "evidence_graph", "transform_registry"]

def registeredStageInputExtensions : List String :=
  ["analysis_view_set", "cdc_inventory", "clock_inventory", "critical_path_records",
    "evidence_graph", "legacy_migration_adapter", "legacy_source_object", "protection_policy",
    "synthesis_structure", "transform_registry"]

/-- The statuses by their text. -/
def statusOfText? : String → Option StageStatus
  | "PASS" => some .pass
  | "FAIL" => some .fail
  | "INCONCLUSIVE" => some .inconclusive
  | "INFRASTRUCTURE_ERROR" => some .infrastructureError
  | _ => none

def severityText : Severity → String
  | .info => "INFO"
  | .warning => "WARNING"
  | .error => "ERROR"
  | .fatal => "FATAL"

/-- `INPUT_HASH_FIELDS` -/
inductive InputField where
  | rtlSnapshot | designContract | constraints | constraintBinding | analysisView
  | powerActivity | platformLock | toolRecipe | formalModel | parentStageResult
  deriving DecidableEq, Repr

def InputField.text : InputField → String
  | rtlSnapshot => "rtl_snapshot"
  | designContract => "design_contract"
  | constraints => "constraints"
  | constraintBinding => "constraint_binding"
  | analysisView => "analysis_view"
  | powerActivity => "power_activity"
  | platformLock => "platform_lock"
  | toolRecipe => "tool_recipe"
  | formalModel => "formal_model"
  | parentStageResult => "parent_stage_result"

def InputField.all : List InputField :=
  [.rtlSnapshot, .designContract, .constraints, .constraintBinding, .analysisView,
    .powerActivity, .platformLock, .toolRecipe, .formalModel, .parentStageResult]

theorem InputField.mem_all (field : InputField) : field ∈ InputField.all := by
  cases field <;> decide

structure StageInputHashes where
  hash : InputField → Option HashRef
  extensions : List (String × HashRef)

/-- `METRIC_VALUE_FIELDS` -/
inductive MetricField where
  | setupWnsNs | setupTnsNs | holdWnsNs | holdTnsNs | failingEndpoints | criticalPathDelayNs
  | estimatedFmaxMhz | mappedAreaUm2 | physicalAreaUm2 | cellCount | registerCount | bufferCount
  | powerTotalUw | wirelengthUm | congestionOverflow
  deriving DecidableEq, Repr

def MetricField.text : MetricField → String
  | setupWnsNs => "setup_wns_ns"
  | setupTnsNs => "setup_tns_ns"
  | holdWnsNs => "hold_wns_ns"
  | holdTnsNs => "hold_tns_ns"
  | failingEndpoints => "failing_endpoints"
  | criticalPathDelayNs => "critical_path_delay_ns"
  | estimatedFmaxMhz => "estimated_fmax_mhz"
  | mappedAreaUm2 => "mapped_area_um2"
  | physicalAreaUm2 => "physical_area_um2"
  | cellCount => "cell_count"
  | registerCount => "register_count"
  | bufferCount => "buffer_count"
  | powerTotalUw => "power_total_uw"
  | wirelengthUm => "wirelength_um"
  | congestionOverflow => "congestion_overflow"

def MetricField.all : List MetricField :=
  [.setupWnsNs, .setupTnsNs, .holdWnsNs, .holdTnsNs, .failingEndpoints, .criticalPathDelayNs,
    .estimatedFmaxMhz, .mappedAreaUm2, .physicalAreaUm2, .cellCount, .registerCount,
    .bufferCount, .powerTotalUw, .wirelengthUm, .congestionOverflow]

theorem MetricField.mem_all (field : MetricField) : field ∈ MetricField.all := by
  cases field <;> decide

/-- `FiniteFloat`, `PositiveFloat`, `NonNegativeFloat` and `NonNegativeInt` -/
inductive MetricKind where
  | finiteFloat | positiveFloat | nonNegativeFloat | nonNegativeInt
  deriving DecidableEq

def MetricField.kind : MetricField → MetricKind
  | setupWnsNs | setupTnsNs | holdWnsNs | holdTnsNs => .finiteFloat
  | criticalPathDelayNs | estimatedFmaxMhz => .positiveFloat
  | mappedAreaUm2 | physicalAreaUm2 | powerTotalUw | wirelengthUm | congestionOverflow =>
    .nonNegativeFloat
  | failingEndpoints | cellCount | registerCount | bufferCount => .nonNegativeInt

inductive MetricValue (φ : Type) where
  | float (x : φ)
  | int (n : ℕ)

structure MetricSet (φ : Type) where
  analysisViewId : Option Identifier
  value : MetricField → Option (MetricValue φ)
  runtimeMs : ℕ
  missingMetricReasons : MetricField → Option String

structure ToolFingerprint where
  toolId : EntityId
  executable : String
  version : String
  versionArgs : List String
  executableSha256 : HashRef
  buildHash : HashRef
  adapterVersion : String
  containerDigest : Option HashRef

structure StageResult (φ : Type) where
  stageResultId : Identifier
  runId : Identifier
  candidateId : Identifier
  stage : Stage
  analysisViewId : Option Identifier
  status : StageStatus
  toolFingerprint : ToolFingerprint
  inputHashes : StageInputHashes
  metrics : MetricSet φ
  diagnostics : List Diagnostic
  rawArtifacts : List ArtifactRef
  startedAt : Instant
  endedAt : Instant

inductive MigrationError where
  /-- A `ValueError` of the adapter. -/
  | valueError (message : String)
  /-- The fields that are not translatable, sorted. -/
  | fieldSet (unknown missing : List String)
  /-- The payload has no canonical JSON. -/
  | unwritable
  /-- A `ValidationError` of Pydantic at a field of the result, or of its coherence. -/
  | validation (location : String)
  deriving DecidableEq

/-! ## The context -/

def infrastructureCode (code : String) : Bool :=
  "INFRASTRUCTURE_".toList.isPrefixOf code.toList

structure LegacyDiagnosticRule where
  code : String
  severity : Severity
  evidenceIds : List EntityId
  evidence_nodup : evidenceIds.Nodup
  evidence_or_infrastructure : evidenceIds ≠ [] ∨ infrastructureCode code = true

/-- `runtime_ms` is required of every stage. -/
structure LegacyStageExpectation where
  requiredInputFields : List InputField
  requiredMetricFields : List MetricField
  unavailableMetricReasons : MetricField → Option String
  requiredArtifactIds : List EntityId
  allowedStatuses : List StageStatus
  classified : ∀ field, field ∈ requiredMetricFields ↔ unavailableMetricReasons field = none

structure LegacyMigrationContext where
  sourceObjectHash : HashRef
  artifactIndex : String → List ArtifactRef
  toolFingerprints : List ToolFingerprint
  stageExpectations : Stage → Option LegacyStageExpectation
  diagnosticCodeRegistry : String → Option LegacyDiagnosticRule
  legacyFieldAliases : String → Option InputField
  authorizedEvidenceIds : List EntityId
  expectedInputHashes : InputField → Option HashRef
  migrationAdapterVersion : String
  migrationAdapterHash : HashRef
  uri_eq : ∀ uri, ∀ artifact ∈ artifactIndex uri, artifact.uri = uri
  aliases_pinned : ∀ name field, legacyFieldAliases name = some field →
    (expectedInputHashes field).isSome
  required_pinned : ∀ stage expectation, stageExpectations stage = some expectation →
    ∀ field ∈ expectation.requiredInputFields, (expectedInputHashes field).isSome
  evidence_authorized : ∀ token rule, diagnosticCodeRegistry token = some rule →
    ∀ id ∈ rule.evidenceIds, id ∈ authorizedEvidenceIds

/-! ## Reading the payload -/

variable {φ : Type}

/-- A dictionary of JSON values. -/
structure LegacyPayload (φ : Type) where
  fields : List (String × Json φ)
  keysUnique : (Json.obj fields).keysUnique = true

/-- `legacy[name]`, for the fields of the payload. -/
def LegacyPayload.field (legacy : LegacyPayload φ) (name : String) : Json φ :=
  (legacy.fields.lookup name).getD .null

/-- What Pydantic does with numbers and times. -/
structure Pydantic (φ : Type) extends Numbers φ where
  /-- The instant and the offset that a text or a number stands for. -/
  datetime : Json φ → Option (Instant × ℤ)

def isNull : Json φ → Bool
  | .null => true
  | _ => false

def isOne : Json φ → Bool
  | .int n => n = 1
  | _ => false

def textOf : Json φ → Option String
  | .str s => some s
  | _ => none

def entityId : Json φ → Option Identifier
  | .str s => if h : isEntityId s = true then some ⟨s, h⟩ else none
  | _ => none

def hashRef : Json φ → Option HashRef
  | .str s => if h : isHashRef s = true then some ⟨s, h⟩ else none
  | _ => none

/-- A value that may be `null`. -/
def optional {α : Type} (read : Json φ → Option α) (j : Json φ) : Option (Option α) :=
  if isNull j then some none else (read j).map some

def endsWithZ (s : String) : Bool := s.toList.getLast? = some 'Z'

/-- `UtcDatetime` -/
def utcDatetime (P : Pydantic φ) (j : Json φ) : Option Instant := do
  match j with
  | .arr _ | .obj _ => none
  | .str s => guard (endsWithZ s)
  | _ => pure ()
  let (instant, offset) ← P.datetime j
  guard (offset = 0)
  return instant

def floatOf (N : Numbers φ) : Json φ → Option φ
  | .float x => some x
  | .int n => N.ofInt n
  | _ => none

def nonNegativeInt : Json φ → Option ℕ
  | .int n => if 0 ≤ n then some n.toNat else none
  | _ => none

def metricValue (N : Numbers φ) (kind : MetricKind) (j : Json φ) : Option (MetricValue φ) :=
  match kind with
  | .finiteFloat => (floatOf N j).map .float
  | .positiveFloat => ((floatOf N j).filter fun x => N.compareZero x = .gt).map .float
  | .nonNegativeFloat => ((floatOf N j).filter fun x => N.compareZero x ≠ .lt).map .float
  | .nonNegativeInt => (nonNegativeInt j).map .int

/-- The value that a reader gives, or the place where it gives none. -/
def validated {α : Type} (location : String) : Option α → Except MigrationError α
  | some a => pure a
  | none => throw (.validation location)

/-! ## The source -/

def legacyStageResultFields : List String :=
  ["schema_version", "stage_result_id", "run_id", "candidate_id", "stage", "analysis_view_id",
    "status", "tool_name", "tool_version", "input_hashes", "metrics", "diagnostics",
    "raw_artifacts", "started_at", "ended_at"]

/-- `_validate_source` -/
def validateSource (F : Floats φ) (legacy : LegacyPayload φ) (context : LegacyMigrationContext) :
    Except MigrationError Unit := do
  let names := legacy.fields.map Prod.fst
  let unknown := names.filter (· ∉ legacyStageResultFields)
  let missing := legacyStageResultFields.filter (· ∉ names)
  require (unknown = [] ∧ missing = []) (.fieldSet (sorted unknown) (sorted missing))
  require (isOne (legacy.field "schema_version"))
    (.valueError "legacy StageResult schema_version must be exactly 1")
  match canonicalSha256 F (.obj legacy.fields) with
  | none => throw .unwritable
  | some hash =>
    require (hash = context.sourceObjectHash)
      (.valueError "legacy source-object hash does not match migration context")

/-- `_require_string` -/
def requireString (legacy : LegacyPayload φ) (name : String) : Except MigrationError String :=
  match (textOf (legacy.field name)).filter (· ≠ "") with
  | some s => pure s
  | none => throw (.valueError s!"legacy {name} must be a nonempty string")

/-- `_resolve_tool` -/
def resolveTool (legacy : LegacyPayload φ) (context : LegacyMigrationContext) :
    Except MigrationError ToolFingerprint := do
  let toolName ← requireString legacy "tool_name"
  let toolVersion ← requireString legacy "tool_version"
  match context.toolFingerprints.filter fun item =>
      item.toolId = toolName ∧ item.version = toolVersion with
  | [item] => return item
  | _ => throw (.valueError
      "legacy tool name/version must resolve to exactly one tool fingerprint")

/-! ## Input hashes -/

/-- One turn of the loop of `_normalize_input_hashes`. -/
def normalizeEntry (N : Numbers φ) (context : LegacyMigrationContext)
    (normalized : InputField → Json φ) (entry : String × Json φ) :
    Except MigrationError (InputField → Json φ) := do
  match context.legacyFieldAliases entry.1 with
  | none => throw (.valueError s!"unregistered legacy input alias: {entry.1}")
  | some field =>
    require (isNull (normalized field) ∨ Json.equal N (normalized field) entry.2)
      (.valueError s!"conflicting legacy input hashes for {field.text}")
    return Function.update normalized field entry.2

def migrationExtensions (context : LegacyMigrationContext) : List (String × HashRef) :=
  [("legacy_source_object", context.sourceObjectHash),
    ("legacy_migration_adapter", context.migrationAdapterHash)]

/-- The validation of `StageInputHashes`. -/
def validateInputHashes (normalized : InputField → Json φ) (extensions : List (String × HashRef)) :
    Except MigrationError StageInputHashes := do
  require (∀ field ∈ InputField.all, (optional hashRef (normalized field)).isSome)
    (.validation "input_hashes")
  require (∀ extension ∈ extensions, extension.1 ∈ registeredStageInputExtensions)
    (.validation "input_hashes")
  return ⟨fun field => hashRef (normalized field), extensions⟩

/-- `_normalize_input_hashes` -/
def normalizeInputHashes (N : Numbers φ) (legacy : LegacyPayload φ)
    (context : LegacyMigrationContext) (expectation : LegacyStageExpectation) :
    Except MigrationError StageInputHashes := do
  match legacy.field "input_hashes" with
  | .obj source =>
    let normalized ← source.foldlM (normalizeEntry N context) fun _ => .null
    let missing := expectation.requiredInputFields.filter fun field => isNull (normalized field)
    require (missing = []) (.valueError ("legacy input hashes miss required identity: " ++
      ", ".intercalate (sorted (missing.map InputField.text))))
    InputField.all.forM fun field =>
      require (∀ expected ∈ context.expectedInputHashes field,
        Json.equal N (normalized field) (.str expected.val) = true)
        (.valueError s!"legacy input does not match expected input identity for {field.text}")
    validateInputHashes normalized (migrationExtensions context)
  | _ => throw (.valueError "legacy input_hashes must be a mapping")

/-! ## Metrics -/

/-- The metrics before they are validated. -/
structure NormalizedMetrics (φ : Type) where
  value : MetricField → Json φ
  analysisViewId : Json φ
  runtimeMs : Json φ
  missingMetricReasons : MetricField → Option String

/-- `source.get(name)` -/
def valueOf (source : List (String × Json φ)) (name : String) : Json φ :=
  (source.lookup name).getD .null

/-- `_normalize_metrics` -/
def normalizeMetrics (legacy : LegacyPayload φ) (expectation : LegacyStageExpectation) :
    Except MigrationError (NormalizedMetrics φ) := do
  match legacy.field "metrics" with
  | .obj source =>
    let allowed := MetricField.all.map MetricField.text ++ ["runtime_ms"]
    let unknown := (source.map Prod.fst).filter (· ∉ allowed)
    require (unknown = []) (.valueError ("unregistered legacy metric: " ++
      ", ".intercalate (sorted unknown)))
    let required := "runtime_ms" :: expectation.requiredMetricFields.map MetricField.text
    let missing := required.filter fun name => isNull (valueOf source name)
    require (missing = []) (.valueError ("legacy result is missing required metric: " ++
      ", ".intercalate (sorted missing)))
    let present := MetricField.all.filter fun field =>
      (expectation.unavailableMetricReasons field).isSome ∧ ¬ isNull (valueOf source field.text)
    require (present = []) (.valueError
      ("legacy result reports metrics the registered stage could not produce: " ++
        ", ".intercalate (sorted (present.map MetricField.text))))
    return ⟨fun field => valueOf source field.text, legacy.field "analysis_view_id",
      valueOf source "runtime_ms", expectation.unavailableMetricReasons⟩
  | _ => throw (.valueError "legacy metrics must be a mapping")

/-- The validation of `MetricSet`. -/
def validateMetrics (N : Numbers φ) (metrics : NormalizedMetrics φ) :
    Except MigrationError (MetricSet φ) := do
  let analysisViewId ← validated "metrics.analysis_view_id" (optional entityId metrics.analysisViewId)
  require (∀ field ∈ MetricField.all,
    (optional (metricValue N field.kind) (metrics.value field)).isSome) (.validation "metrics")
  let value := fun field : MetricField => metricValue N field.kind (metrics.value field)
  let runtimeMs ← validated "metrics.runtime_ms" (nonNegativeInt metrics.runtimeMs)
  require (∀ field ∈ MetricField.all,
    isNull (metrics.value field) = (metrics.missingMetricReasons field).isSome)
    (.validation "metrics")
  return ⟨analysisViewId, value, runtimeMs, metrics.missingMetricReasons⟩

/-! ## Diagnostics -/

/-- What a legacy diagnostic says. -/
structure LegacyDiagnostic (φ : Type) where
  token : Json φ
  suppliedSeverity : Json φ
  message : Json φ
  suppliedEvidence : Option (List String)

/-- The fields of an item of `diagnostics`. -/
def readDiagnostic (item : Json φ) : Except MigrationError (LegacyDiagnostic φ) := do
  match item with
  | .str s => return ⟨.str s, .null, .str s, none⟩
  | .obj fields =>
    let names := fields.map Prod.fst
    require ((∀ name ∈ names, name ∈ ["code", "severity", "message", "evidence_refs"]) ∧
      ∀ name ∈ ["code", "message", "evidence_refs"], name ∈ names)
      (.valueError "legacy diagnostic field set is not translatable")
    match valueOf fields "evidence_refs" with
    | .arr items =>
      match items.mapM textOf with
      | some evidence => return ⟨valueOf fields "code", valueOf fields "severity",
          valueOf fields "message", some evidence⟩
      | none => throw (.valueError "legacy diagnostic evidence must be a string list")
    | _ => throw (.valueError "legacy diagnostic evidence must be a string list")
  | _ => throw (.valueError "legacy diagnostic must be a string or mapping")

/-- The validation of `Diagnostic`. -/
def validateDiagnostic (rule : LegacyDiagnosticRule) (message : Json φ) :
    Except MigrationError Diagnostic := do
  let message ← validated "message" ((textOf message).filter (· ≠ ""))
  require (rule.evidenceIds ≠ [] ∨ infrastructureCode rule.code = true)
    (.validation "evidence_refs")
  require rule.evidenceIds.Nodup (.validation "evidence_refs")
  return ⟨rule.code, rule.severity, message, rule.evidenceIds⟩

def normalizeDiagnostic (context : LegacyMigrationContext) (item : Json φ) :
    Except MigrationError Diagnostic := do
  let diagnostic ← readDiagnostic item
  match textOf diagnostic.token with
  | some token =>
    match context.diagnosticCodeRegistry token with
    | none => throw (.valueError s!"unregistered legacy diagnostic code: {token}")
    | some rule =>
      require (isNull diagnostic.suppliedSeverity = true ∨
        textOf diagnostic.suppliedSeverity = some (severityText rule.severity))
        (.valueError "legacy diagnostic severity conflicts with registry")
      require (∀ evidence ∈ diagnostic.suppliedEvidence, evidence = rule.evidenceIds)
        (.valueError "legacy diagnostic evidence conflicts with registry")
      validateDiagnostic rule diagnostic.message
  | none => throw (.valueError "legacy diagnostic code must be a string")

/-- `_normalize_diagnostics` -/
def normalizeDiagnostics (legacy : LegacyPayload φ) (context : LegacyMigrationContext) :
    Except MigrationError (List Diagnostic) :=
  match legacy.field "diagnostics" with
  | .arr items => items.mapM (normalizeDiagnostic context)
  | _ => throw (.valueError "legacy diagnostics must be a list")

/-! ## Artifacts -/

/-- The address of an item of `raw_artifacts`, and what it says about the artifact. -/
def readArtifact (item : Json φ) :
    Except MigrationError (String × Option (Json φ × Json φ)) := do
  match item with
  | .str uri => return (uri, none)
  | .obj fields =>
    let names := fields.map Prod.fst
    require ((∀ name ∈ names, name ∈ ["uri", "sha256", "size_bytes"]) ∧
      ∀ name ∈ ["uri", "sha256", "size_bytes"], name ∈ names)
      (.valueError "legacy artifact metadata field set is not translatable")
    match textOf (valueOf fields "uri") with
    | some uri => return (uri, some (valueOf fields "sha256", valueOf fields "size_bytes"))
    | none => throw (.valueError "legacy artifact URI must be a string")
  | _ => throw (.valueError "legacy artifact must be a URI string or metadata mapping")

def resolveArtifact (N : Numbers φ) (context : LegacyMigrationContext) (item : Json φ) :
    Except MigrationError ArtifactRef := do
  let (uri, metadata) ← readArtifact item
  match context.artifactIndex uri with
  | [artifact] =>
    require (∀ said ∈ metadata, Json.equal N said.1 (.str artifact.sha256) = true ∧
      Json.equal N said.2 (.int artifact.sizeBytes) = true)
      (.valueError "legacy artifact metadata does not match the artifact index")
    return artifact
  | _ => throw (.valueError "legacy artifact URI must resolve to exactly one artifact")

/-- `_resolve_artifacts` -/
def resolveArtifacts (N : Numbers φ) (legacy : LegacyPayload φ) (context : LegacyMigrationContext)
    (expectation : LegacyStageExpectation) (status : StageStatus) :
    Except MigrationError (List ArtifactRef) := do
  match legacy.field "raw_artifacts" with
  | .arr [] => throw (.valueError "legacy raw_artifacts must be a nonempty list")
  | .arr source =>
    let resolved ← source.mapM (resolveArtifact N context)
    let artifactIds := resolved.map ArtifactRef.artifactId
    require artifactIds.Nodup (.valueError "resolved legacy artifact IDs must be unique")
    let missing := expectation.requiredArtifactIds.filter (· ∉ artifactIds)
    require (status = .pass → missing = []) (.valueError ("legacy PASS lacks required artifact: " ++
      ", ".intercalate (sortedSet missing)))
    return resolved
  | _ => throw (.valueError "legacy raw_artifacts must be a nonempty list")

/-! ## The result -/

/-- The input hashes that a stage needs: `_validate_stage_identity`. -/
def requiredIdentities (stage : Stage) : List InputField :=
  [.rtlSnapshot, .designContract, .platformLock, .toolRecipe] ++
    (if stage ∈ viewStages then [.constraints, .constraintBinding, .analysisView] else []) ++
    (if stage = .powerAnalysis then [.powerActivity] else []) ++
    (if stage ∈ formalStages then [.formalModel] else []) ++
    (if (stageExtensionIdentities stage).isSome then [.constraints, .constraintBinding] else []) ++
    (if stage = .opportunityFormation then [.parentStageResult] else [])

def validateStageIdentity (stage : Stage) (analysisViewId : Option Identifier)
    (inputHashes : StageInputHashes) : Except MigrationError Unit := do
  require (stage ∈ viewStages ↔ analysisViewId.isSome) (.validation "analysis_view_id")
  require (∀ field ∈ requiredIdentities stage, (inputHashes.hash field).isSome)
    (.validation "input_hashes")
  let names := inputHashes.extensions.map Prod.fst
  match stageExtensionIdentities stage with
  | some expected =>
    require ((∀ name ∈ expected, name ∈ names) ∧ ∀ name ∈ names, name ∈ expected)
      (.validation "input_hashes.extensions")
  | none =>
    require (∀ name ∈ names, name ∉ extensionIdentities)
      (.validation "input_hashes.extensions")

/-- `validated_result_is_coherent` -/
def validateCoherence (result : StageResult φ) : Except MigrationError Unit := do
  require (result.startedAt ≤ result.endedAt) (.validation "ended_at")
  validateStageIdentity result.stage result.analysisViewId result.inputHashes
  require (result.metrics.analysisViewId = result.analysisViewId)
    (.validation "metrics.analysis_view_id")
  require (result.status = .pass ∨ result.diagnostics ≠ []) (.validation "diagnostics")
  require (result.rawArtifacts.map ArtifactRef.artifactId).Nodup (.validation "raw_artifacts")
  require (∀ artifact ∈ result.rawArtifacts,
    artifact.producerStageResultId = some result.stageResultId.val) (.validation "raw_artifacts")
  let has := fun field => (result.metrics.value field).isSome = true
  require (result.status = .pass → result.stage ∈ timingStages →
    (has .setupWnsNs ∧ has .setupTnsNs) ∨ (has .holdWnsNs ∧ has .holdTnsNs)) (.validation "metrics")
  require (result.status = .pass → result.stage ∈ [Stage.yosysSynth, .fastSynth] →
    has .cellCount ∧ has .mappedAreaUm2) (.validation "metrics")
  require (result.status = .pass → result.stage = .powerAnalysis →
    has .powerTotalUw ∧ (result.inputHashes.hash .powerActivity).isSome) (.validation "metrics")

/-- `StageResult.model_validate` of the fields that the adapter resolved and the ones it leaves. -/
def validateResult (P : Pydantic φ) (legacy : LegacyPayload φ) (stage : Stage)
    (status : StageStatus) (toolFingerprint : ToolFingerprint) (inputHashes : StageInputHashes)
    (metrics : NormalizedMetrics φ) (diagnostics : List Diagnostic)
    (rawArtifacts : List ArtifactRef) : Except MigrationError (StageResult φ) := do
  let stageResultId ← validated "stage_result_id" (entityId (legacy.field "stage_result_id"))
  let runId ← validated "run_id" (entityId (legacy.field "run_id"))
  let candidateId ← validated "candidate_id" (entityId (legacy.field "candidate_id"))
  let analysisViewId ← validated "analysis_view_id"
    (optional entityId (legacy.field "analysis_view_id"))
  let metrics ← validateMetrics P.toNumbers metrics
  require (rawArtifacts ≠ []) (.validation "raw_artifacts")
  let startedAt ← validated "started_at" (utcDatetime P (legacy.field "started_at"))
  let endedAt ← validated "ended_at" (utcDatetime P (legacy.field "ended_at"))
  let result : StageResult φ :=
    ⟨stageResultId, runId, candidateId, stage, analysisViewId, status, toolFingerprint,
      inputHashes, metrics, diagnostics, rawArtifacts, startedAt, endedAt⟩
  validateCoherence result
  return result

/-- The stage, what is expected of it, and the status. -/
def registeredStage (legacy : LegacyPayload φ) (context : LegacyMigrationContext) :
    Except MigrationError (Stage × LegacyStageExpectation × StageStatus) := do
  let name ← requireString legacy "stage"
  match (Stage.ofText? name).bind fun stage =>
      (context.stageExpectations stage).map fun expectation => (stage, expectation) with
  | none => throw (.valueError s!"no registered legacy stage expectation for {name}")
  | some (stage, expectation) =>
    let statusName ← requireString legacy "status"
    match (statusOfText? statusName).filter (· ∈ expectation.allowedStatuses) with
    | none => throw (.valueError s!"legacy status is not allowed for {name}: {statusName}")
    | some status => return (stage, expectation, status)

/-- `StageResultV1ToV2.migrate` -/
def migrate (P : Pydantic φ) (legacy : LegacyPayload φ) (context : LegacyMigrationContext) :
    Except MigrationError (StageResult φ) := do
  validateSource P.toFloats legacy context
  let (stage, expectation, status) ← registeredStage legacy context
  let toolFingerprint ← resolveTool legacy context
  let inputHashes ← normalizeInputHashes P.toNumbers legacy context expectation
  let metrics ← normalizeMetrics legacy expectation
  let diagnostics ← normalizeDiagnostics legacy context
  let rawArtifacts ← resolveArtifacts P.toNumbers legacy context expectation status
  validateResult P legacy stage status toolFingerprint inputHashes metrics diagnostics rawArtifacts

/-! ## The audit -/

structure MigrationAuditPayload where
  sourceObjectHash : HashRef
  migrationAdapterVersion : String
  migrationAdapterHash : HashRef
  migratedStageResultId : Identifier
  migratedStageResultHash : HashRef

/-- `StageResultV1ToV2.audit_payload` -/
def auditPayload (P : Pydantic φ) (schema : Schema φ (StageResult φ)) (migrated : StageResult φ)
    (legacy : LegacyPayload φ) (context : LegacyMigrationContext) :
    Except MigrationError MigrationAuditPayload := do
  let expectedResult ← migrate P legacy context
  match canonicalJsonBytes P.toFloats schema migrated,
      canonicalJsonBytes P.toFloats schema expectedResult with
  | some bytes, some expected =>
    require (bytes.data = expected.data)
      (.valueError "migrated result does not belong to the migration context")
    require (migrated.inputHashes.extensions.Perm (migrationExtensions context))
      (.valueError "migrated result does not belong to the migration context")
    return ⟨context.sourceObjectHash, context.migrationAdapterVersion,
      context.migrationAdapterHash, migrated.stageResultId, sha256 bytes⟩
  | _, _ => throw .unwritable

end NovaRtl.Migrations
