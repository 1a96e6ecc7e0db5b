import NovaRtl.Contracts.CanonicalJson
import NovaRtl.Planner.Contracts
import NovaRtl.Scheduler.Contracts

/-!
# Evidence access

`InMemoryEvidenceProvider` of `planner/evidence.py`. A fetch walks the requested identifiers and
writes an audit record of each decision. It stops at the first denial, so the records of the objects
before it stay although none of them is returned.
-/

namespace NovaRtl.Planner

open Text
open Scheduler (Classification)

/-! ## Evidence objects -/

def EvidenceKind.text : EvidenceKind → String
  | path => "PATH"
  | arc => "ARC"
  | cone => "CONE"
  | sourceSpan => "SOURCE_SPAN"
  | clock => "CLOCK"
  | cdc => "CDC"
  | binding => "BINDING"
  | physical => "PHYSICAL"
  | formal => "FORMAL"
  | metric => "METRIC"
  | history => "HISTORY"

def classificationText : Classification → String
  | .publicData => "PUBLIC"
  | .internal => "INTERNAL"
  | .restrictedRtl => "RESTRICTED_RTL"

section Json

variable {φ : Type}

def EvidenceRef.toJson (ref : EvidenceRef) : Json φ :=
  .obj [("evidence_id", .str ref.evidenceId.val), ("kind", .str ref.kind.text),
    ("artifact_id", .str ref.artifactId.val),
    ("json_pointer", match ref.jsonPointer with
      | none => .null
      | some pointer => .str pointer),
    ("snapshot_hash", .str ref.snapshotHash.val)]

def payloadJson (payload : List (String × JsonScalar φ)) : Json φ :=
  .obj (payload.map fun item => (item.1, item.2.toJson))

/-- An object without its own hash. -/
structure EvidenceContent (φ : Type) where
  evidenceRef : EvidenceRef
  classification : Classification
  payload : List (String × JsonScalar φ)
  sizeBytes : ℕ
  tokenEstimate : ℕ

def EvidenceContent.toJson (content : EvidenceContent φ) : Json φ :=
  .obj [("schema_version", .int 1), ("evidence_ref", content.evidenceRef.toJson),
    ("classification", .str (classificationText content.classification)),
    ("payload", payloadJson content.payload), ("size_bytes", .int content.sizeBytes),
    ("token_estimate", .int content.tokenEstimate)]

end Json

variable {φ : Type}

/-- One token for each four bytes. -/
def estimateTokens (size : ℕ) : ℕ := max 1 ((size + 3) / 4)

/-- An object whose derived fields are canonical. -/
structure EvidenceObject (F : Floats φ) extends EvidenceContent φ where
  contentHash : HashRef
  payload_ne : payload ≠ []
  keys_nodup : (payload.map Prod.fst).Nodup
  size_eq : (canonicalBytes F (payloadJson payload)).map ByteArray.size = some sizeBytes
  tokens_eq : tokenEstimate = estimateTokens sizeBytes
  hash_eq : canonicalSha256 F toEvidenceContent.toJson = some contentHash

/-- `EvidenceObject.build`; no value is the `ValueError` of a payload that cannot be written. -/
def EvidenceObject.build (F : Floats φ) (evidenceRef : EvidenceRef)
    (classification : Classification) (payload : List (String × JsonScalar φ))
    (payload_ne : payload ≠ []) (keys_nodup : (payload.map Prod.fst).Nodup) :
    Option (EvidenceObject F) :=
  match hsize : (canonicalBytes F (payloadJson payload)).map ByteArray.size with
  | none => none
  | some sizeBytes =>
    let content : EvidenceContent φ :=
      ⟨evidenceRef, classification, payload, sizeBytes, estimateTokens sizeBytes⟩
    match hhash : canonicalSha256 F content.toJson with
    | none => none
    | some contentHash => some
        { toEvidenceContent := content
          contentHash
          payload_ne
          keys_nodup
          size_eq := hsize
          tokens_eq := rfl
          hash_eq := hhash }

theorem EvidenceObject.build_eq_some {F : Floats φ} {evidenceRef : EvidenceRef}
    {classification : Classification} {payload : List (String × JsonScalar φ)}
    {payload_ne : payload ≠ []} {keys_nodup : (payload.map Prod.fst).Nodup}
    {item : EvidenceObject F}
    (h : EvidenceObject.build F evidenceRef classification payload payload_ne keys_nodup =
      some item) :
    item.evidenceRef = evidenceRef ∧ item.classification = classification ∧
      item.payload = payload := by
  unfold EvidenceObject.build at h
  split at h
  · cases h
  · dsimp only at h
    split at h
    · cases h
    · obtain rfl := Option.some.inj h
      exact ⟨rfl, rfl, rfl⟩

/-! ## Audit records -/

inductive AccessDecision where
  | granted
  | denied
  deriving DecidableEq, Repr

inductive ReasonCode where
  | invalidEvidenceId
  | unauthorizedEvidence
  | missingEvidence
  | staleSnapshot
  | unauthorizedKind
  | unauthorizedClassification
  | authorized
  deriving DecidableEq, Repr

def ReasonCode.text : ReasonCode → String
  | invalidEvidenceId => "INVALID_EVIDENCE_ID"
  | unauthorizedEvidence => "UNAUTHORIZED_EVIDENCE"
  | missingEvidence => "MISSING_EVIDENCE"
  | staleSnapshot => "STALE_SNAPSHOT"
  | unauthorizedKind => "UNAUTHORIZED_KIND"
  | unauthorizedClassification => "UNAUTHORIZED_CLASSIFICATION"
  | authorized => "AUTHORIZED"

/-- `reason_code.lower().replace("_", " ")` -/
def ReasonCode.phrase (code : ReasonCode) : String :=
  String.ofList (code.text.toList.map fun c => if c = '_' then ' ' else c.toLower)

/-- A record without its own hash. -/
structure RetrievalPayload where
  sequence : ℕ
  roleId : String
  evidenceId : String
  reason : String
  decision : AccessDecision
  reasonCode : ReasonCode
  expectedSnapshotHash : String
  returnedHash : Option HashRef
  returnedSizeBytes : ℕ
  returnedTokens : ℕ
  deriving DecidableEq

def RetrievalPayload.toJson {φ : Type} (payload : RetrievalPayload) : Json φ :=
  .obj [("schema_version", .int 1), ("sequence", .int payload.sequence),
    ("role_id", .str payload.roleId), ("evidence_id", .str payload.evidenceId),
    ("reason", .str payload.reason),
    ("decision", .str (if payload.decision = .granted then "GRANTED" else "DENIED")),
    ("reason_code", .str payload.reasonCode.text),
    ("expected_snapshot_hash", .str payload.expectedSnapshotHash),
    ("returned_hash", match payload.returnedHash with
      | none => .null
      | some hash => .str hash.val),
    ("returned_size_bytes", .int payload.returnedSizeBytes),
    ("returned_tokens", .int payload.returnedTokens)]

structure RetrievalAuditRecord extends RetrievalPayload where
  recordHash : HashRef
  deriving DecidableEq

/-- The validator of a record of which `hashRecord` is the canonical hash. -/
def RetrievalAuditRecord.check (hashRecord : RetrievalPayload → HashRef)
    (item : RetrievalAuditRecord) : Except PlannerError Unit := do
  require (item.roleId ≠ "") (.validation "role_id")
  require (item.evidenceId ≠ "") (.validation "evidence_id")
  require (item.reason ≠ "") (.validation "reason")
  require (isHashRef item.expectedSnapshotHash) (.validation "expected_snapshot_hash")
  require (¬ (item.decision = .granted ∧ item.returnedHash = none))
    (.validation "granted retrieval requires returned evidence identity")
  require (¬ (item.decision = .denied ∧ (item.returnedHash ≠ none ∨ item.returnedSizeBytes ≠ 0 ∨
      item.returnedTokens ≠ 0)))
    (.validation "denied retrieval cannot expose evidence content")
  require (item.recordHash = hashRecord item.toRetrievalPayload)
    (.validation "retrieval audit hash is not canonical")

/-! ## The provider -/

/-- What the provider reads of the planner policy. -/
structure AccessPolicy where
  allowedEvidenceKinds : List EvidenceKind
  allowedClassifications : List Classification

structure InMemoryEvidenceProvider (F : Floats φ) where
  objects : List (EvidenceObject F)
  grants : List (String × List String)
  policy : AccessPolicy
  objects_nodup : (objects.map fun item => item.evidenceRef.evidenceId).Nodup

/-- The arguments of a fetch. -/
structure FetchCall where
  roleId : String
  evidenceIds : List String
  expectedSnapshotHash : String
  reason : String

abbrev AuditLog := List RetrievalAuditRecord

section Provider

variable {F : Floats φ} (hashRecord : RetrievalPayload → HashRef)
  (provider : InMemoryEvidenceProvider F) (call : FetchCall)

/-- The record that `_record` builds when the log has `sequence` records. -/
def auditRecord (sequence : ℕ) (evidenceId : String) (decision : AccessDecision)
    (reasonCode : ReasonCode) (item : Option (EvidenceObject F)) : RetrievalAuditRecord :=
  let payload : RetrievalPayload :=
    { sequence
      roleId := call.roleId
      evidenceId
      reason := call.reason
      decision
      reasonCode
      expectedSnapshotHash := call.expectedSnapshotHash
      returnedHash := item.map EvidenceObject.contentHash
      returnedSizeBytes := (item.map fun object => object.sizeBytes).getD 0
      returnedTokens := (item.map fun object => object.tokenEstimate).getD 0 }
  ⟨payload, hashRecord payload⟩

/-- `_record` -/
def record (evidenceId : String) (decision : AccessDecision) (reasonCode : ReasonCode)
    (item : Option (EvidenceObject F)) : EStateM PlannerError AuditLog Unit := fun audit =>
  let item := auditRecord hashRecord call audit.length evidenceId decision reasonCode item
  match item.check hashRecord with
  | .error e => .error e audit
  | .ok _ => .ok () (audit ++ [item])

/-- The record of a denial and the error after it. -/
def deny {α : Type} (evidenceId : String) (reasonCode : ReasonCode) (message : String) :
    EStateM PlannerError AuditLog α := do
  record (F := F) hashRecord call evidenceId .denied reasonCode none
  throw (.contextIntegrity message)

/-- `self._grants.get(role_id, frozenset())` -/
def InMemoryEvidenceProvider.granted : List String :=
  (item? provider.grants call.roleId).getD []

/-- `self._objects.get(evidence_id)` -/
def InMemoryEvidenceProvider.object? (evidenceId : String) : Option (EvidenceObject F) :=
  provider.objects.find? fun item => item.evidenceRef.evidenceId.val = evidenceId

/-- The checks of an object that the role may see. -/
def reasonCodeOf (item : EvidenceObject F) : ReasonCode :=
  if item.evidenceRef.snapshotHash.val ≠ call.expectedSnapshotHash then .staleSnapshot
  else if item.evidenceRef.kind ∉ provider.policy.allowedEvidenceKinds then .unauthorizedKind
  else if item.classification ∉ provider.policy.allowedClassifications then
    .unauthorizedClassification
  else .authorized

/-- The body of the loop of `fetch`. -/
def access (evidenceId : String) : EStateM PlannerError AuditLog (EvidenceObject F) := do
  if ¬ isEntityId evidenceId then
    deny (F := F) hashRecord call evidenceId .invalidEvidenceId
      "retrieval requires a stable evidence ID"
  else if evidenceId ∉ provider.granted call then
    deny (F := F) hashRecord call evidenceId .unauthorizedEvidence
      ("evidence " ++ evidenceId ++ " is not authorized for role " ++ call.roleId)
  else
    match provider.object? evidenceId with
    | none =>
      deny (F := F) hashRecord call evidenceId .missingEvidence
        ("evidence " ++ evidenceId ++ " failed " ++ ReasonCode.missingEvidence.phrase)
    | some item =>
      let reasonCode := reasonCodeOf provider call item
      if reasonCode ≠ .authorized then
        deny (F := F) hashRecord call evidenceId reasonCode
          ("evidence " ++ evidenceId ++ " failed " ++ reasonCode.phrase)
      else
        record hashRecord call evidenceId .granted .authorized (some item)
        return item

def fetch : EStateM PlannerError AuditLog (List (EvidenceObject F)) := do
  if ¬ call.evidenceIds.Nodup then throw (.contextIntegrity "evidence IDs must be unique")
  call.evidenceIds.mapM (access hashRecord provider call)

end Provider

end NovaRtl.Planner
