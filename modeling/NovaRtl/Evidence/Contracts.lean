import Mathlib.Data.Prod.Lex
import Mathlib.Data.String.Basic
import NovaRtl.Contracts.Base
import NovaRtl.Text.Json

/-!
# Contracts of the design evidence

The records that enter the evidence graph and the path clusters, with what their validators accept.
A contract is hashed without its own hash, so each one extends its payload.
-/

namespace NovaRtl.Evidence

open Text

/-- Python's `float`. -/
class FloatArith (φ : Type) where
  /-- The literal `mantissa * 10 ^ -places`. -/
  literal : ℕ → ℕ → φ
  ofNat : ℕ → φ
  lt : φ → φ → Bool
  le : φ → φ → Bool
  add : φ → φ → φ
  sub : φ → φ → φ
  mul : φ → φ → φ
  div : φ → φ → φ
  neg : φ → φ
  abs : φ → φ
  isFinite : φ → Bool
  /-- `round(x, 6)` -/
  roundSix : φ → φ

inductive ProtectionKind where
  | cdc
  | clock
  | reset
  deriving DecidableEq, Repr

/-! ## The source map -/

structure SourceSpanRecord (φ : Type) where
  sourceSpanId : Identifier
  rtlSnapshotHash : HashRef
  relativePath : String
  startLine : ℕ
  startColumn : ℕ
  endLine : ℕ
  endColumn : ℕ
  ownerHierarchy : String
  sourceTextHash : HashRef
  mappingConfidence : φ
  isProtected : Bool
  protectionKinds : List ProtectionKind
  protected_eq : isProtected = !protectionKinds.isEmpty

inductive MappedObjectKind where
  | cell
  | pin
  | port
  deriving DecidableEq, Repr

inductive PortDirection where
  | input
  | output
  | inout
  deriving DecidableEq, Repr

structure MappedObjectRecord where
  objectId : Identifier
  semanticName : String
  kind : MappedObjectKind
  ownerHierarchy : String
  moduleType : String
  cellType : Option String
  portDirection : Option PortDirection
  sourceSpanIds : List Identifier
  fanout : ℕ
  isProtected : Bool
  protectionKinds : List ProtectionKind
  structuralAliases : List String
  protected_eq : isProtected = !protectionKinds.isEmpty

structure MappedConnectivityEdge where
  netId : Identifier
  sourceObject : String
  destinationObject : String
  deriving DecidableEq, Repr

structure SourceMapPayload (φ : Type) where
  candidateId : Identifier
  rtlSnapshotHash : HashRef
  synthesisStructureHash : HashRef
  mappedObjects : List MappedObjectRecord
  connectivityEdges : List MappedConnectivityEdge
  sourceSpans : List (SourceSpanRecord φ)

/-! ## Critical paths -/

inductive PathType where
  | max
  | min
  deriving DecidableEq, Repr

structure CriticalPathRecord (φ : Type) where
  pathId : Identifier
  candidateId : Identifier
  analysisViewId : Identifier
  pathType : PathType
  pathGroup : String
  launchClockId : Identifier
  captureClockId : Identifier
  startpoint : String
  endpoint : String
  arrivalNs : φ
  requiredNs : φ
  slackNs : φ
  cellDelayNs : φ
  netDelayNs : φ
  logicDepth : ℕ
  maxFanout : ℕ
  objectSequence : List String
  sourceSpanRefs : List Identifier
  rawReportArtifactId : Identifier
  sequence_ne : objectSequence ≠ []
  refs_nodup : sourceSpanRefs.Nodup

/-! ## Clocks and clock-domain crossings -/

structure MasterClockEntry (φ : Type) where
  clockId : Identifier
  domainId : Identifier
  sourceObject : String
  periodNs : φ
  waveformNs : φ × φ
  activeConsumerCount : ℕ

structure GeneratedClockEntry (φ : Type) where
  clockId : Identifier
  domainId : Identifier
  masterClockId : Identifier
  sourceObject : String
  multiplyBy : ℕ
  divideBy : ℕ
  waveformNs : φ × φ
  activeConsumerCount : ℕ

structure ClockLineageEdge where
  parentClockId : Identifier
  childClockId : Identifier
  deriving DecidableEq

structure ClockInventoryPayload (φ : Type) where
  candidateId : Identifier
  expectedGeneratedClocksPerMaster : ℕ
  masterClocks : List (MasterClockEntry φ)
  generatedClocks : List (GeneratedClockEntry φ)
  lineageEdges : List ClockLineageEdge

inductive SignalClass where
  | singleBitControl
  | multiBitData
  | pulse
  | fifoPointer
  | reset
  deriving DecidableEq, Repr

inductive CrossingStatus where
  | approved
  | unapproved
  | ambiguous
  deriving DecidableEq, Repr

structure CdcCrossing where
  crossingId : Identifier
  sourceDomainId : Identifier
  destinationDomainId : Identifier
  sourceObject : String
  destinationObject : String
  signalClass : SignalClass
  recognizedPattern : Option Identifier
  structuralFingerprint : HashRef
  protocolPropertyRefs : List Identifier
  status : CrossingStatus
  domains_ne : sourceDomainId ≠ destinationDomainId
  approved_recognized : status = .approved → recognizedPattern.isSome
  refs_nodup : protocolPropertyRefs.Nodup

structure CdcInventoryPayload where
  candidateId : Identifier
  crossings : List CdcCrossing
  approvedPatternRegistryHash : HashRef
  newUnapprovedCount : ℕ
  changedApprovedStructureCount : ℕ
  removedApprovedStructureCount : ℕ
  ambiguousCount : ℕ

/-! ## The identity of the inputs -/

structure AnalysisViewEvidenceIdentity (φ : Type) where
  analysisViewId : Identifier
  analysisViewHash : HashRef
  openstaStageResultHash : HashRef
  openroadStageResultHash : HashRef
  openroadMetricsHash : HashRef
  physicalAreaUm2 : φ
  wirelengthUm : φ
  congestionOverflow : φ
  physicalCellCount : ℕ
  physicalRegisterCount : ℕ
  physicalBufferCount : ℕ

structure EvidenceInputIdentityPayload (φ : Type) where
  candidateId : Identifier
  rtlSnapshotHash : HashRef
  designContractHash : HashRef
  constraintBindingHash : HashRef
  platformLockHash : HashRef
  synthesisStructureHash : HashRef
  clockInventoryHash : HashRef
  cdcInventoryHash : HashRef
  protectionPolicyHash : HashRef
  analysisViews : List (AnalysisViewEvidenceIdentity φ)

/-- `canonical_sha256` of the payloads of the input contracts. -/
structure InputHashes (φ : Type) where
  ofIdentity : EvidenceInputIdentityPayload φ → HashRef
  ofSourceMap : SourceMapPayload φ → HashRef
  ofClockInventory : ClockInventoryPayload φ → HashRef
  ofCdcInventory : CdcInventoryPayload → HashRef

variable {φ : Type} (hashes : InputHashes φ)

structure SourceMapSnapshot extends SourceMapPayload φ where
  sourceMapHash : HashRef
  objects_ne : mappedObjects ≠ []
  spans_ne : sourceSpans ≠ []
  names_canonical : (mappedObjects.map MappedObjectRecord.semanticName).Pairwise (· < ·)
  spans_canonical : (sourceSpans.map fun span => span.sourceSpanId.val).Pairwise (· < ·)
  spans_known : ∀ item ∈ mappedObjects, ∀ id ∈ item.sourceSpanIds,
    id ∈ sourceSpans.map SourceSpanRecord.sourceSpanId
  edges_canonical : (connectivityEdges.map fun edge =>
    toLex (edge.netId.val, toLex (edge.sourceObject, edge.destinationObject))).Pairwise (· < ·)
  edges_known : ∀ edge ∈ connectivityEdges,
    edge.sourceObject ∈ mappedObjects.map MappedObjectRecord.semanticName ∧
      edge.destinationObject ∈ mappedObjects.map MappedObjectRecord.semanticName
  hash_eq : sourceMapHash = hashes.ofSourceMap toSourceMapPayload

/-- Five master clocks, each with as many generated clocks, which the lineage edges join to their
masters. -/
structure ClockInventory extends ClockInventoryPayload φ where
  clockGraphHash : HashRef
  masters_length : masterClocks.length = 5
  masters_nodup : (masterClocks.map MasterClockEntry.clockId).Nodup
  generated_nodup : (generatedClocks.map GeneratedClockEntry.clockId).Nodup
  ids_disjoint : (masterClocks.map MasterClockEntry.clockId).Disjoint
    (generatedClocks.map GeneratedClockEntry.clockId)
  masters_known : ∀ clock ∈ generatedClocks,
    clock.masterClockId ∈ masterClocks.map MasterClockEntry.clockId
  per_master : ∀ master ∈ masterClocks,
    (generatedClocks.filter fun clock => clock.masterClockId = master.clockId).length =
      expectedGeneratedClocksPerMaster
  edges_nodup : lineageEdges.Nodup
  edges_eq : ∀ edge, edge ∈ lineageEdges ↔
    edge ∈ generatedClocks.map fun clock => ⟨clock.masterClockId, clock.clockId⟩
  hash_eq : clockGraphHash = hashes.ofClockInventory toClockInventoryPayload

structure CDCInventory extends CdcInventoryPayload where
  inventoryHash : HashRef
  crossings_nodup : (crossings.map CdcCrossing.crossingId).Nodup
  ambiguous_eq : ambiguousCount =
    (crossings.filter fun crossing => crossing.status = .ambiguous).length
  unapproved_le : newUnapprovedCount ≤
    (crossings.filter fun crossing => crossing.status = .unapproved).length
  hash_eq : inventoryHash = hashes.ofCdcInventory toCdcInventoryPayload

structure EvidenceInputIdentity extends EvidenceInputIdentityPayload φ where
  identityHash : HashRef
  views_ne : analysisViews ≠ []
  views_canonical : (analysisViews.map fun view => view.analysisViewId.val).Pairwise (· < ·)
  hash_eq : identityHash = hashes.ofIdentity toEvidenceInputIdentityPayload

structure EvidenceGraphBuildInputs where
  inputIdentity : EvidenceInputIdentity hashes
  sourceMap : SourceMapSnapshot hashes
  criticalPaths : List (CriticalPathRecord φ)
  clockInventory : ClockInventory hashes
  cdcInventory : CDCInventory hashes
  paths_ne : criticalPaths ≠ []

end NovaRtl.Evidence
