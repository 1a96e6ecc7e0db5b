import NovaRtl.Artifacts.Store
import NovaRtl.Planner.CouncilRounds
import NovaRtl.Transact.Ends
import NovaRtl.Transforms.Patch
import NovaRtl.Transforms.Syntax.Edit

/-!
# The transform executor

`TransformExecutor.materialize` of `transforms/executor.py`. The sources of the parent are copied to
a temporary directory, the edit of the transform is applied to the copy, and the copy is renamed to
the workspace of the candidate. What capabilities and the artifact store answer is given.
-/

namespace NovaRtl.Transforms

open Text Transact
open Planner (OptimizationProposal)
open Scheduler (ArtifactRef Instant)

inductive ExecutorError where
  /-- `TransformExecutionError` -/
  | execution (message : String)
  /-- `cannot read UTF-8 source {path}: {error}` -/
  | unreadable (path : String)
  | unauthorizedDiff (cause : SyntaxBackendError)
  | registry (message : String)
  | capability (message : String)
  | store (cause : Artifacts.StoreError)
  /-- A value has no canonical JSON. -/
  | valueError
  /-- `CandidateRecord` rejects its fields. -/
  | validation (message : String)
  | osError
  deriving DecidableEq

/-! ## The registry -/

structure TransformCapabilityMetadata extends Planner.TransformCapabilityMetadata where
  allowedAstNodeKinds : List String

/-- A capability. A match is none if it is not of a model. -/
structure TransformCapability (φ Context Match Parameters : Type) where
  metadata : TransformCapabilityMetadata
  parameterModel : List (String × Planner.JsonScalar φ) → Except String Parameters
  matchContext : Context → Except String (Option Match)
  preflight : Match → Parameters → Except String Unit
  rewrite : Match → Parameters → Except String SourceEdit
  fingerprint : Match → Parameters → Except String String

structure TransformRegistry (φ Context Match Parameters : Type) where
  capabilities : List (TransformCapability φ Context Match Parameters)
  operations_nodup : (capabilities.map fun capability => capability.metadata.operation).Nodup

variable {φ Context Match Parameters : Type}

def TransformRegistry.resolve (registry : TransformRegistry φ Context Match Parameters)
    (operation : Planner.StableUpperString) :
    Except ExecutorError (TransformCapability φ Context Match Parameters) :=
  match registry.capabilities.find? fun capability => capability.metadata.operation = operation with
  | some capability => .ok capability
  | none => .error (.registry ("transform operation is not registered: " ++ operation.val))

/-! ## Requests and candidates -/

structure MaterializationRequest (φ Context : Type) where
  runId : String
  parentCandidateId : String
  parentRoot : Directory
  sourcePaths : SourcePaths
  proposal : OptimizationProposal φ
  authorizedSpan : SourceSpanRecord
  protectedSpans : List SourceSpanRecord
  parsedAst : ParsedSlangAst
  transformContext : Context
  lineageDepth : ℤ
  createdAt : Instant

/-- `CandidateRecord` of a candidate that is not evaluated. -/
structure CandidateRecord where
  candidateId : EntityId
  runId : EntityId
  parentCandidateId : EntityId
  lineageDepth : ℤ
  proposalId : EntityId
  opportunityId : EntityId
  rtlSnapshotArtifact : ArtifactRef
  patchArtifact : ArtifactRef
  sourceHash : String
  changedSpans : List EntityId
  transformFingerprint : String
  requiredCorrectnessContract : CorrectnessContract
  createdAt : Instant
  deriving DecidableEq

structure MaterializedCandidate where
  candidate : CandidateRecord
  /-- The name of the directory under the candidates' root. -/
  workspace : String
  appliedEdit : AppliedSourceEdit
  deriving DecidableEq

/-- The directories under the candidates' root. -/
abbrev Workspaces := String → Option Directory

/-- Where the operating system may fail. -/
inductive Point where
  /-- The temporary directory and the files that are written to it. -/
  | staging
  | chmod
  | replace
  deriving DecidableEq

/-- What the artifact store answers, and which operations fail. -/
structure Surroundings where
  putBytes : Artifacts.Call → Except Artifacts.StoreError Instant
  fails : Point → Bool

/-! ## Sources -/

section Sources

variable {paths : SourcePaths}

/-- A source of the loop in `_read_sources`. -/
def readSource (root : Directory) (path : String) : Except ExecutorError String := do
  require (normalizedPath path) (.execution "source path must be normalized and relative")
  match root path with
  | .file bytes =>
    match readText bytes with
    | some text => .ok text
    | none => .error (.unreadable path)
  | _ => .error (.execution ("source is missing, linked, or escapes root: " ++ path))

def readInto (root : Directory) (sources : Sources paths) (path : {path // path ∈ paths.paths}) :
    Except ExecutorError (Sources paths) := do
  return Function.update sources path (← readSource root path.1)

/-- `_read_sources` -/
def readSources (root : Directory) : Except ExecutorError (Sources paths) := do
  let sources ← (sortedPaths paths).foldlM (readInto root) fun _ => ""
  require (paths.paths ≠ []) (.execution "source path set must be nonempty and unique")
  return sources

/-- The copy that the edit is applied to. -/
def stage (sources : Sources paths) : Directory :=
  (sortedPaths paths).foldl (fun staging path => staging.writeText path.1 (sources path))
    fun _ => .absent

/-- The paths whose texts differ, in order. -/
def changedPaths (before after : Sources paths) : List String :=
  ((sortedPaths paths).filter fun path => before path ≠ after path).map Subtype.val

def snapshotFile (sources : Sources paths) (path : {path // path ∈ paths.paths}) : Json Empty :=
  .obj [("relative_path", .str path.1), ("sha256", .str (sha256Text (encode (sources path)))),
    ("text", .str (sources path))]

def snapshotJson (sources : Sources paths) : Json Empty :=
  .obj [("schema_version", .int 1),
    ("files", .arr ((sortedPaths paths).map (snapshotFile sources)))]

theorem snapshotJson_writable (sources : Sources paths) : (snapshotJson sources).writable := by
  simp [snapshotJson, snapshotFile, Json.writable_int_of_lt]

/-- `_snapshot_bytes` -/
def snapshotBytes (sources : Sources paths) : ByteArray :=
  encode ((Json.dumps noFloats (snapshotJson sources)).get
    (Json.isSome_dumps.mpr (snapshotJson_writable sources)))

end Sources

/-! ## Identity -/

def timingText : Planner.TimingDirection → String
  | .improve => "IMPROVE"
  | .neutral => "NEUTRAL"
  | .regress => "REGRESS"
  | .unknown => "UNKNOWN"

def areaText : Planner.AreaDirection → String
  | .decrease => "DECREASE"
  | .neutral => "NEUTRAL"
  | .smallIncrease => "SMALL_INCREASE"
  | .increase => "INCREASE"
  | .unknown => "UNKNOWN"

/-- `proposal.model_dump(mode="json")` -/
def proposalJson (proposal : OptimizationProposal φ) : Json φ :=
  .obj [("schema_version", .int 2), ("proposal_id", .str proposal.proposalId.val),
    ("parent_candidate_id", .str proposal.parentCandidateId.val),
    ("opportunity_id", .str proposal.opportunityId.val),
    ("diagnosis_refs", Planner.idsJson proposal.diagnosisRefs), ("target", proposal.target.toJson),
    ("transformation", proposal.transformation.toJson),
    ("preconditions", Planner.codesJson proposal.preconditions),
    ("correctness", proposal.correctness.toJson),
    ("prediction", .obj [
      ("timing_direction", .str (timingText proposal.prediction.timingDirection)),
      ("area_direction", .str (areaText proposal.prediction.areaDirection)),
      ("confidence", .float proposal.prediction.confidence)]),
    ("evidence_refs", .arr (proposal.evidenceRefs.map Planner.EvidenceRef.toJson)),
    ("abort_conditions", Planner.codesJson proposal.abortConditions)]

def identityJson (parentCandidateId : String) (proposal : OptimizationProposal φ)
    (sourceHash patchHash fingerprint : String) : Json φ :=
  .obj [("parent_candidate_id", .str parentCandidateId), ("proposal", proposalJson proposal),
    ("source_hash", .str sourceHash), ("patch_hash", .str patchHash),
    ("transform_fingerprint", .str fingerprint)]

/-- `f"cand_{candidate_digest[:24]}"` -/
def candidateIdOf (digest : HashRef) : String :=
  "cand_" ++ String.ofList ((hashDigits digest.val).toList.take 24)

def snapshotCall (snapshot : ByteArray) : Artifacts.Call where
  data := snapshot
  mediaType := "application/vnd.nova-rtl.rtl-snapshot+json"
  classification := .restrictedRtl
  readOnly := false

def patchCall (patch : ByteArray) : Artifacts.Call where
  data := patch
  mediaType := "text/x-diff"
  classification := .restrictedRtl
  readOnly := false

/-- `^[a-z][a-z0-9_]*:v[0-9]+:[A-Za-z0-9._-]+$` -/
def isFingerprint (text : String) : Bool :=
  match text.toList.splitOn ':' with
  | [c :: name, 'v' :: d :: version, e :: rest] =>
    c.isLower && name.all (fun c => c.isLower || c.isDigit || c = '_') &&
      (d :: version).all Char.isDigit &&
      (e :: rest).all fun c => c.isAlphanum || c = '.' || c = '_' || c = '-'
  | _ => false

/-! ## Materialization -/

/-- What a capability makes of a request. -/
structure Rewrite where
  edit : SourceEdit
  allowedAstNodeKinds : List String
  fingerprint : String

/-- The sources before and after the edit, and the edited copy. -/
structure EditedCopy (paths : SourcePaths) where
  before : Sources paths
  after : Sources paths
  staging : Directory
  applied : AppliedSourceEdit

structure Draft (paths : SourcePaths) extends EditedCopy paths where
  candidateId : String
  snapshotRef : ArtifactRef
  patchRef : ArtifactRef
  fingerprint : String

structure TransformExecutor (φ Context Match Parameters : Type) where
  registry : TransformRegistry φ Context Match Parameters
  floats : Floats φ
  hashes : Syntax.Hashes

namespace TransformExecutor

variable (executor : TransformExecutor φ Context Match Parameters)
  (request : MaterializationRequest φ Context) (around : Surroundings)

/-- The checks of the proposal, and the rewrite of its capability. -/
def rewrite : Except ExecutorError Rewrite := do
  let proposal := request.proposal
  require (proposal.parentCandidateId.val = request.parentCandidateId)
    (.execution "proposal parent does not match materialization parent")
  require (proposal.target.sourceSpanId.val = request.authorizedSpan.sourceSpanId)
    (.execution "proposal target does not match authorized source span")
  let capability ← executor.registry.resolve proposal.transformation.operation
  let metadata := capability.metadata
  require (proposal.transformation.family = metadata.family)
    (.execution "proposal transform family does not match registry")
  require (proposal.correctness.contract = metadata.correctnessContract)
    (.execution "proposal correctness contract does not match registry")
  let parameters ←
    (capability.parameterModel proposal.transformation.parameters).mapError .validation
  match ← (capability.matchContext request.transformContext).mapError .capability with
  | none => .error (.execution "transform capability returned an invalid match type")
  | some found => do
    (capability.preflight found parameters).mapError .capability
    let edit ← (capability.rewrite found parameters).mapError .capability
    let fingerprint ← (capability.fingerprint found parameters).mapError .capability
    return ⟨edit, metadata.allowedAstNodeKinds, fingerprint⟩

/-- The edit, applied to a copy of the parent's sources. -/
def editCopy (edit : SourceEdit) (allowedAstNodeKinds : List String) :
    Except ExecutorError (EditedCopy request.sourcePaths) := do
  let before ← readSources request.parentRoot
  require (around.fails .staging = false) .osError
  let (applied, staging) ← (Syntax.applyAuthorizedEdit executor.hashes (stage before)
    request.parsedAst request.authorizedSpan request.protectedSpans edit
    allowedAstNodeKinds).mapError .unauthorizedDiff
  let after ← readSources staging
  require (changedPaths before after = [request.authorizedSpan.relativePath])
    (.unauthorizedDiff
      (.message "transform must change exactly the one proposal-authorized source file"))
  return ⟨before, after, staging, applied⟩

/-- `put_bytes` -/
def put (call : Artifacts.Call) : Except ExecutorError ArtifactRef :=
  ((around.putBytes call).mapError .store).map call.ref

/-- Everything before the candidate's workspace is looked at. -/
def draft : Except ExecutorError (Draft request.sourcePaths) := do
  let rewrite ← executor.rewrite request
  let copy ← executor.editCopy request around rewrite.edit rewrite.allowedAstNodeKinds
  let patch := patchBytes copy.before copy.after
  require (patch ≠ ByteArray.empty) (.execution "transform produced an empty patch")
  let snapshotRef ← put around (snapshotCall (snapshotBytes copy.after))
  let patchRef ← put around (patchCall patch)
  match canonicalSha256 executor.floats (identityJson request.parentCandidateId request.proposal
    snapshotRef.sha256 patchRef.sha256 rewrite.fingerprint) with
  | none => .error .valueError
  | some digest =>
    return ⟨copy, candidateIdOf digest, snapshotRef, patchRef, rewrite.fingerprint⟩

/-- An existing workspace must agree with the snapshot; otherwise the copy becomes the workspace. -/
def publish {paths : SourcePaths} (draft : Draft paths) :
    EStateM ExecutorError Workspaces Unit := do
  match (← get) draft.candidateId with
  | some workspace => do
    let existing : Sources paths ← ofExcept (readSources workspace)
    check (snapshotBytes existing = snapshotBytes draft.after)
      (.execution "existing candidate workspace disagrees with content identity")
  | none => do
    check (around.fails .chmod = false) .osError
    check (around.fails .replace = false) .osError
    modify fun workspaces => Function.update workspaces draft.candidateId (some draft.staging)

/-- The candidate, if `CandidateRecord` accepts it. -/
def record {paths : SourcePaths} (draft : Draft paths) : Except ExecutorError CandidateRecord := do
  require (isEntityId draft.candidateId ∧ isEntityId request.runId ∧
      isEntityId request.parentCandidateId ∧ 0 < request.lineageDepth ∧
      isEntityId request.authorizedSpan.sourceSpanId ∧ isFingerprint draft.fingerprint)
    (.validation "fields")
  require (request.parentCandidateId ≠ draft.candidateId)
    (.validation "candidate cannot be its own parent")
  require (draft.snapshotRef.artifactId ≠ draft.patchRef.artifactId)
    (.validation "candidate RTL snapshot and patch artifacts must be distinct")
  require (request.proposal.correctness.contract = .strictSeqEquiv)
    (.validation "PRIMARY_STRICT requires correctness contract STRICT_SEQ_EQUIV")
  return {
    candidateId := draft.candidateId
    runId := request.runId
    parentCandidateId := request.parentCandidateId
    lineageDepth := request.lineageDepth
    proposalId := request.proposal.proposalId.val
    opportunityId := request.proposal.opportunityId.val
    rtlSnapshotArtifact := draft.snapshotRef
    patchArtifact := draft.patchRef
    sourceHash := draft.snapshotRef.sha256
    changedSpans := [request.authorizedSpan.sourceSpanId]
    transformFingerprint := draft.fingerprint
    requiredCorrectnessContract := request.proposal.correctness.contract
    createdAt := request.createdAt }

def materialize : EStateM ExecutorError Workspaces MaterializedCandidate := do
  let draft ← ofExcept (executor.draft request around)
  publish around draft
  let candidate ← ofExcept (record request draft)
  return ⟨candidate, draft.candidateId, draft.applied⟩

end TransformExecutor

end NovaRtl.Transforms
