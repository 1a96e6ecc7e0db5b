import NovaRtl.Planner.CouncilRounds
import NovaRtl.Planner.Heuristic
import NovaRtl.Transact.Ends

/-!
# The council planner

`CouncilPlanner` of `planner/council.py`: two blinded proposers, two mandatory critics and a chair,
one round of calls each. The heuristic planner answers when the deliberation fails with an error of
the council. The resolved proposals are kept from call to call.

## Main definitions

* `CouncilPlanner.confer` — the three rounds and the shortlist.
* `CouncilPlanner.convene`, `CouncilPlanner.conclude` — what is before and after the shortlist.
* `CouncilPlanner.deliberate`, `CouncilPlanner.fallback` — the two ways to a result.
* `CouncilPlanner.propose` — the planner.
-/

namespace NovaRtl.Planner

open Text
open Scheduler (ArtifactRef Instant)

/-! ## Canonical payloads of contracts -/

section Json

variable {φ : Type}

def CritiqueObjection.toJson (objection : CritiqueObjection) : Json φ :=
  .obj [("objection_id", .str objection.objectionId.val),
    ("severity", .str objection.severity.text), ("category", .str objection.category.val),
    ("message", .str objection.message),
    ("evidence_refs", .arr (objection.evidenceRefs.map EvidenceRef.toJson)),
    ("requested_disposition", .str objection.requestedDisposition.text)]

def CritiqueReport.toJson (report : CritiqueReport) : Json φ :=
  .obj [("schema_version", .int 1), ("critique_report_id", .str report.critiqueReportId.val),
    ("critic_role", .str report.criticRole.val), ("critic_class", .str report.criticClass.text),
    ("proposal_card_id", .str report.proposalCardId.val),
    ("objections", .arr (report.objections.map CritiqueObjection.toJson))]

def CritiqueDisposition.toJson (disposition : CritiqueDisposition) : Json φ :=
  .obj [("schema_version", .int 1),
    ("critique_disposition_id", .str disposition.critiqueDispositionId.val),
    ("objection_id", .str disposition.objectionId.val), ("action", .str disposition.action.text),
    ("reason_code", .str disposition.reasonCode.val),
    ("resulting_proposal_id", textJson (disposition.resultingProposalId.map Subtype.val)),
    ("chair_evidence_refs", .arr (disposition.chairEvidenceRefs.map EvidenceRef.toJson))]

def ProposalCard.toJson (card : ProposalCard) : Json φ :=
  .obj [("proposal_card_id", .str card.proposalCardId.val),
    ("proposal_id", .str card.proposalId.val),
    ("normalized_proposal_hash", .str card.normalizedProposalHash.val)]

def ProposalShortlist.toJson (shortlist : ProposalShortlist) : Json φ :=
  .obj [("schema_version", .int 1),
    ("proposal_shortlist_id", .str shortlist.proposalShortlistId.val),
    ("status", .str shortlist.status.text),
    ("ordered_proposal_ids", idsJson shortlist.orderedProposalIds),
    ("fallback_eligible", .bool shortlist.fallbackEligible),
    ("unresolved_mandatory_finding_count", .int shortlist.unresolvedMandatoryFindingCount)]

def artifactJson (showInstant : Instant → String) (ref : ArtifactRef) : Json φ :=
  .obj [("artifact_id", .str ref.artifactId), ("uri", .str ref.uri), ("sha256", .str ref.sha256),
    ("media_type", .str ref.mediaType), ("size_bytes", .int ref.sizeBytes),
    ("created_at", .str (showInstant ref.createdAt)),
    ("producer_stage_result_id", textJson ref.producerStageResultId),
    ("classification", .str (classificationText ref.classification))]

def PrivateRoleRecord.toJson (showInstant : Instant → String) (item : PrivateRoleRecord) : Json φ :=
  .obj [("role_id", .str item.roleId.text), ("role_kind", .str item.roleKind.text),
    ("private_pack_hash", .str item.privatePackHash),
    ("retrieved_evidence_ids", idsJson item.retrievedEvidenceIds),
    ("blinded_round", .bool item.blindedRound),
    ("structured_submission_artifact", artifactJson showInstant item.structuredSubmissionArtifact),
    ("input_tokens", .int item.inputTokens), ("output_tokens", .int item.outputTokens),
    ("latency_ms", .int item.latencyMs), ("status", .str item.status.text)]

end Json

/-! ## The planner -/

structure CouncilPlanner {φ : Type} (F : Floats φ) where
  contextRequests : List ContextRequest
  commonEnvelope : List (String × Json φ)
  evidenceProvider : InMemoryEvidenceProvider F
  heuristic : HeuristicPlanner φ
  opportunities : List OptimizationOpportunity
  registry : TransformRegistry φ
  policy : CouncilPolicy
  outputSchemaHash : HashRef
  runtime : CouncilRuntime φ

/-- The state that survives a call. `resolved` has one proposal for each identifier, and `completed`
has the role calls so far, which the source does not keep. -/
structure CouncilState (φ : Type) where
  audit : AuditLog
  resolved : List (OptimizationProposal φ)
  councilRequest : Option CouncilRequest
  councilTrace : Option CouncilTrace
  councilResult : Option CouncilResult
  completed : List (CouncilRoleOutcome φ)

/-- A call, with what the artifact store and the roles answer during it. -/
structure CouncilCall (φ : Type) where
  request : PlannerRequest
  store : ArtifactStore
  invoke : CouncilRoleCall φ → ℕ → Option (CouncilRoleOutcome φ)

structure Hearing (φ : Type) where
  call : CouncilRoleCall φ
  outcome : CouncilRoleOutcome φ

/-- What a deliberation comes to: what the roles submitted and the proposals of the shortlist. -/
structure Minutes (φ : Type) where
  packs : List RoleContextPack
  proposers : List (Hearing φ)
  critics : List (Hearing φ)
  chair : Hearing φ
  entries : List (HashRef × OptimizationProposal φ)
  critiques : List (List CritiqueReport)
  dispositions : List CritiqueDisposition
  revisions : List CouncilRevisionRecord
  shortlist : ProposalShortlist
  chosen : List (OptimizationProposal φ)

def Minutes.cards {φ : Type} (minutes : Minutes φ) : List ProposalCard := minutes.entries.map card

def hearings {φ : Type} (calls : List (CouncilRoleCall φ)) (outcomes : List (CouncilRoleOutcome φ)) :
    List (Hearing φ) :=
  (calls.zip outcomes).map fun (call, outcome) => ⟨call, outcome⟩

/-- What a result of the council rests on. -/
inductive Basis (φ : Type) where
  | deliberated (minutes : Minutes φ)
  | heuristic (proposals : List (OptimizationProposal φ))

def Basis.proposals {φ : Type} : Basis φ → List (OptimizationProposal φ)
  | deliberated minutes => minutes.chosen
  | heuristic proposals => proposals

/-- From this number on an integer is too large for a float. -/
def floatLimit : ℕ := 2 ^ 1024 - 2 ^ 970

/-- `datetime.min` -/
def minInstant : Instant := -62135596800000000

def microsecondsPerSecond : ℤ := 1000000

def roleCompleted : StableUpperString := ⟨"ROLE_COMPLETED", by decide +kernel⟩

def councilFailed : StableUpperString := ⟨"COUNCIL_FAILED", by decide +kernel⟩

def councilFallback : StableUpperString := ⟨"COUNCIL_FALLBACK", by decide +kernel⟩

def councilFailureFallback : StableUpperString :=
  ⟨"COUNCIL_FAILURE_FALLBACK", by decide +kernel⟩

def boundedCouncilRuntime : Identifier := ⟨"bounded_council_runtime", by decide +kernel⟩

/-- `f"artifact_council_{role_id}_"` -/
def submissionStem (role : CouncilRole) : String := "artifact_council_" ++ role.text ++ "_"

theorem submissionStem_isStem (role : CouncilRole) : isStem 16 (submissionStem role) := by
  cases role <;> decide +kernel

/-- `content.hex()` -/
def hexText (content : ByteArray) : String :=
  String.ofList (content.data.toList.flatMap fun byte =>
    [hexDigit (byte.toNat / 16), hexDigit byte.toNat])

/-- `canonical_sha256({"role": role, key: value})` -/
def roleHash (key : String) (value : Json Empty) (h : value.writable = true)
    (role : CouncilRole) : HashRef :=
  canonicalHash noFloats (.obj [("role", .str role.text), (key, value)]) (by simp [h])

def promptHash : CouncilRole → HashRef :=
  roleHash "prompt_version" (.int 1) (Json.writable_int_of_lt (by simp))

def modelConfigurationHash : CouncilRole → HashRef :=
  roleHash "provider" (.str "bounded_runtime") (by simp)

def retrievalLogHash : CouncilRole → HashRef := roleHash "retrieval" (.str "audited") (by simp)

/-- `type(error).__name__` and `str(error)` -/
def PlannerError.parts : PlannerError → String × String
  | .contextIntegrity message => ("ContextIntegrityError", message)
  | .artifactStore message => ("ArtifactStoreError", message)
  | .plannerIntegrity message => ("PlannerIntegrityError", message)
  | .singleAgentPlanner message => ("SingleAgentPlannerError", message)
  | .councilPolicy message => ("CouncilPolicyError", message)
  | .councilIsolation message => ("CouncilIsolationError", message)
  | .councilBudget message => ("CouncilBudgetError", message)
  | .councilFanin message => ("CouncilFaninError", message)
  | .councilPlanning message => ("CouncilPlanningError", message)
  | .validation message => ("ValidationError", message)
  | .valueError message => ("ValueError", message)
  | .typeError => ("TypeError", "unhashable type")
  | .keyError => ("KeyError", "")
  | .indexError => ("IndexError", "tuple index out of range")
  | .overflowError => ("OverflowError", "date value out of range")

/-- The errors that `propose` answers with a fallback. -/
def PlannerError.IsCouncil : PlannerError → Prop
  | .councilBudget _ | .councilFanin _ | .councilIsolation _ | .councilPlanning _ => True
  | _ => False

instance (e : PlannerError) : Decidable e.IsCouncil := by
  cases e <;> unfold PlannerError.IsCouncil <;> infer_instance

namespace CouncilPlanner

variable {φ : Type} {F : Floats φ} (planner : CouncilPlanner F) (call : CouncilCall φ)

/-! ## Before the first round -/

def checkAuthority : Except PlannerError OptimizationOpportunity := do
  require (call.request.plannerMode = .agentCouncil)
    (.councilPlanning "council planner requires AGENT_COUNCIL mode")
  require (call.request.policyHash = planner.policy.policyHash)
    (.councilPlanning "council policy identity changed")
  require (call.request.transformRegistryHash = planner.registry.registryHash)
    (.councilPlanning "council transform registry identity changed")
  match getOpportunity planner.opportunities call.request.opportunityId with
  | none => .error (.councilPlanning "council opportunity identity is unknown")
  | some opportunity => .ok opportunity

/-- The deadline of a round in milliseconds. -/
def deadlineMs : Except PlannerError ℕ := do
  require (call.request.latencyBudgetMs < floatLimit) .overflowError
  return min (planner.policy.deadlineSeconds * 1000) (max 1 call.request.latencyBudgetMs)

def aggregateTokenBudget : ℕ :=
  min call.request.tokenBudget planner.policy.maxAggregateTokens

def requestHash (route : CouncilRoute) : HashRef :=
  canonicalHash noFloats
    (.obj [("planner_request_id", .str call.request.plannerRequestId.val),
      ("route", .str route.routeHash.val)]) (by simp)

def contextPolicyHash : HashRef :=
  canonicalHash noFloats
    (.obj [("redaction_policy_hashes", textsJson (planner.contextRequests.map fun item =>
      item.redactionPolicyHash.val))]) (by simp)

/-- The request of a deliberation, or of its failure, named by a hash. -/
def councilRequest (route : CouncilRoute) (identity contextPolicyHash : HashRef) :
    CouncilRequest where
  councilRequestId := hashedId "council_request_" 24 identity
  plannerRequestId := call.request.plannerRequestId
  councilRouteId := route.councilRouteId
  councilRouteHash := route.routeHash
  blindedProposerRoles := route.proposerRoles
  criticRoles := route.criticRoles
  chairRole := route.chairRole
  contextPolicyHash
  fanOutLimit := planner.policy.fanOutLimit
  fanInLimit := planner.policy.fanInLimit
  aggregateTokenBudget := aggregateTokenBudget planner call
  aggregateLatencyBudgetMs :=
    min call.request.latencyBudgetMs (planner.policy.deadlineSeconds * 1000)
  deadline := call.request.deadline
  eventStreamId := hashedId "council_events_" 24 identity

/-! ## The rounds -/

def proposerCalls (route : CouncilRoute) (packs : List RoleContextPack) :
    List (CouncilRoleCall φ) :=
  (route.proposerRoles.zip packs).map fun (role, pack) =>
    { roleId := role
      roleKind := .proposer
      inputPayload := .obj [("role_id", .str role.text),
        ("context_pack_hash", .str pack.renderedMessageHash)]
      tokenBudget := aggregateTokenBudget planner call / route.proposerRoles.length }

def criticCalls (route : CouncilRoute) (cards : List ProposalCard) : List (CouncilRoleCall φ) :=
  route.criticRoles.map fun role =>
    { roleId := role
      roleKind := .critic
      inputPayload := .obj [("role_id", .str role.text),
        ("cards", .arr (cards.map ProposalCard.toJson)),
        ("snapshot_hash", .str call.request.evidenceSnapshotHash.val)]
      tokenBudget := aggregateTokenBudget planner call / 4 }

def chairCall (route : CouncilRoute) (cards : List ProposalCard)
    (critiques : List CritiqueReport) : CouncilRoleCall φ where
  roleId := route.chairRole
  roleKind := .chair
  inputPayload := .obj [("role_id", .str route.chairRole.text),
    ("cards", .arr (cards.map ProposalCard.toJson)),
    ("critiques", .arr (critiques.map CritiqueReport.toJson)),
    ("max_final_proposals",
      .int (min call.request.proposalLimit planner.policy.maxFinalProposals : ℕ)),
    ("max_revisions", .int planner.policy.maxRevisions)]
  tokenBudget := aggregateTokenBudget planner call / 4

/-- What the chair submits, with the final identifiers as they come. -/
structure ChairOutput (φ : Type) where
  dispositions : List CritiqueDisposition
  revisions : List CouncilRevisionRecord
  finalIds : List (Json φ)

def readChair (output : List (String × Json φ)) : Option (ChairOutput φ) := do
  return { dispositions := ← readItems planner.runtime.validateDisposition "dispositions" output
           revisions := ← readItems planner.runtime.validateRevision "revision_records" output
           finalIds := ← (item? output "final_proposal_ids").bind iterate }

/-- The proposals of the first round, if each is authorized. -/
def readProposals (outcomes : List (CouncilRoleOutcome φ)) :
    Except PlannerError (List (OptimizationProposal φ)) := do
  require (Passed outcomes) (.councilPlanning "mandatory proposer failed")
  let proposals ← readRound planner.runtime.validateProposal "proposals"
    "proposer output schema is invalid" outcomes
  require (proposals.flatten ≠ [] ∧ ∀ item ∈ proposals.flatten,
      proposalIsAuthorized planner.registry planner.opportunities item call.request = some true)
    (.councilPlanning "proposer output is unauthorized")
  return proposals.flatten

def readCritiques (outcomes : List (CouncilRoleOutcome φ)) :
    Except PlannerError (List (List CritiqueReport)) := do
  require (Passed outcomes) (.councilPlanning "mandatory critic failed")
  readRound planner.runtime.validateCritique "critiques" "critic output schema is invalid" outcomes

/-- What the chair closes, with the shortlist and its proposals. -/
def close (entries : List (HashRef × OptimizationProposal φ)) (critiques : List CritiqueReport)
    (outcome : CouncilRoleOutcome φ) :
    Except PlannerError (ChairOutput φ × ProposalShortlist × List (OptimizationProposal φ)) := do
  require (Passed [outcome]) (.councilPlanning "proposal chair failed")
  match planner.readChair outcome.output with
  | none => .error (.councilPlanning "chair output schema is invalid")
  | some chair => do
    let shortlist ← buildCouncilShortlist planner.runtime.numberValue planner.policy
      (entries.map card) critiques chair.dispositions chair.revisions chair.finalIds
    match resolveIds (Table.dict OptimizationProposal.proposalId (entries.map Prod.snd))
        shortlist.orderedProposalIds with
    | none =>
      .error (.councilPlanning "runtime revision lacks a validated proposal artifact")
    | some chosen => .ok (chair, shortlist, chosen)

/-- The part of `_deliberate` from the first round to the shortlist. -/
def confer (route : CouncilRoute) (deadlineMs : ℕ) (packs : List RoleContextPack) :
    Session φ (Minutes φ) := do
  let round := runRoleRound planner.policy call.invoke deadlineMs
  let proposerCalls := planner.proposerCalls call route packs
  let proposerOutcomes ← round proposerCalls
  let proposals ← ofExcept (planner.readProposals call proposerOutcomes)
  let entries ← ofExcept (normalizeProposalCards F proposals)
  let criticCalls := planner.criticCalls call route (entries.map card)
  let criticOutcomes ← round criticCalls
  let critiques ← ofExcept (planner.readCritiques criticOutcomes)
  let chairCall := planner.chairCall call route (entries.map card) critiques.flatten
  match ← round [chairCall] with
  | [] => throw .indexError
  | chairOutcome :: _ => do
    let (chair, shortlist, chosen) ←
      ofExcept (planner.close entries critiques.flatten chairOutcome)
    return {
      packs
      proposers := hearings proposerCalls proposerOutcomes
      critics := hearings criticCalls criticOutcomes
      chair := ⟨chairCall, chairOutcome⟩
      entries
      critiques
      dispositions := chair.dispositions
      revisions := chair.revisions
      shortlist
      chosen }

/-! ## After the last round -/

/-- `_role_record` -/
def roleRecord (hearing : Hearing φ) (privatePackHash : String) (retrievalIds : List Identifier) :
    Except PlannerError PrivateRoleRecord := do
  match canonicalBytes F (.obj hearing.outcome.output) with
  | none => .error unwritable
  | some content => do
    let identity := canonicalHash noFloats (.obj [("content_hex", .str (hexText content))])
      (by simp)
    let role := hearing.call.roleId
    let artifact ← call.store.publish content
      (hashedId (submissionStem role) 16 identity (submissionStem_isStem role)) .restrictedRtl
    require retrievalIds.Nodup (.validation "retrieved evidence IDs must be unique")
    require (0 ≤ hearing.outcome.inputTokens ∧ 0 ≤ hearing.outcome.outputTokens ∧
        0 ≤ hearing.outcome.latencyMs)
      (.validation "Input should be greater than or equal to 0")
    return {
      roleId := role
      roleKind := hearing.call.roleKind
      privatePackHash
      retrievedEvidenceIds := retrievalIds
      blindedRound := hearing.call.roleKind ≠ .chair
      structuredSubmissionArtifact := { artifact with createdAt := call.request.deadline }
      inputTokens := hearing.outcome.inputTokens.toNat
      outputTokens := hearing.outcome.outputTokens.toNat
      latencyMs := hearing.outcome.latencyMs.toNat
      status := hearing.outcome.status }

/-- The record of a role whose private pack is the payload of its call. -/
def openRecord (hearing : Hearing φ) : Except PlannerError PrivateRoleRecord := do
  let privatePackHash ← hashOrRaise F hearing.call.inputPayload
  roleRecord (F := F) call hearing privatePackHash.val []

def records (minutes : Minutes φ) : Except PlannerError (List PrivateRoleRecord) := do
  let proposers ← (minutes.proposers.zip minutes.packs).mapM fun (hearing, pack) =>
    roleRecord (F := F) call hearing pack.privatePackHash pack.retrievalGrants
  let critics ← minutes.critics.mapM (openRecord (F := F) call)
  let chair ← openRecord (F := F) call minutes.chair
  return proposers ++ critics ++ [chair]

/-- The trace of a deliberation. -/
def trace (route : CouncilRoute) (councilRequestId : Identifier)
    (records : List PrivateRoleRecord) : Except PlannerError CouncilTrace := do
  let roles := route.selected
  let identity := canonicalHash noFloats
    (.obj [("request", .str councilRequestId.val), ("roles", rolesJson roles)])
    (by simp [rolesJson])
  let timestamp (index : ℕ) : Instant :=
    call.request.deadline - (roles.length - index : ℤ) * microsecondsPerSecond
  require (∀ index < roles.length, minInstant ≤ timestamp index) .overflowError
  let trace : CouncilTrace :=
    { councilTraceId := hashedId "council_trace_" 24 identity councilTrace_isStem
      selectedRoleIds := roles
      events := roles.zipIdx.map fun (role, index) =>
        ⟨index, roleCompleted, role, timestamp index⟩
      promptHashes := roles.map promptHash
      modelConfigurationHashes := roles.map modelConfigurationHash
      contextPackHashes := records.map PrivateRoleRecord.privatePackHash
      retrievalLogHashes := roles.map retrievalLogHash
      inputTokens := (records.map PrivateRoleRecord.inputTokens).sum
      outputTokens := (records.map PrivateRoleRecord.outputTokens).sum
      latencyMs := (records.map PrivateRoleRecord.latencyMs).sum
      deadlineOutcome := .met
      cancelled := false
      traceCompletenessPercent := 100 }
  trace.check
  return trace

/-- The council result of a deliberation. -/
def councilResult (route : CouncilRoute) (councilRequestId : Identifier) (minutes : Minutes φ)
    (records : List PrivateRoleRecord) (trace : CouncilTrace) :
    Except PlannerError CouncilResult := do
  let envelopeHash ← hashOrRaise F (.obj planner.commonEnvelope)
  let shortlistHash ← hashOrRaise noFloats minutes.shortlist.toJson
  let recordHashes ← records.mapM fun item =>
    hashOrRaise noFloats (item.toJson planner.runtime.showInstant)
  let critiqueHashes ← minutes.critiques.flatten.mapM fun report =>
    hashOrRaise noFloats report.toJson
  let dispositionHashes ← minutes.dispositions.mapM fun disposition =>
    hashOrRaise noFloats disposition.toJson
  let hashesJson (hashes : List HashRef) : Json Empty := textsJson (hashes.map Subtype.val)
  let identity ← hashOrRaise noFloats (.obj
    [("council_request_id", .str councilRequestId.val), ("shortlist_hash", .str shortlistHash.val),
      ("role_record_hashes", hashesJson recordHashes),
      ("critique_hashes", hashesJson critiqueHashes),
      ("disposition_hashes", hashesJson dispositionHashes),
      ("final_proposal_ids", idsJson minutes.shortlist.orderedProposalIds)])
  let result : CouncilResult :=
    { councilResultId := hashedId "council_result_" 24 identity
      councilRequestId
      status := minutes.shortlist.status
      proposalShortlist := minutes.shortlist
      councilTraceId := trace.councilTraceId
      runId := call.request.runId
      opportunityId := call.request.opportunityId
      snapshotHash := call.request.evidenceSnapshotHash
      policyHash := planner.policy.policyHash
      routeReasonCodes := route.reasonCodes
      selectedRoleIds := route.selected
      commonSafetyEnvelopeHash := envelopeHash
      privateRoleRecords := records
      proposalCards := minutes.cards
      critiqueReports := minutes.critiques.flatten
      critiqueDispositions := minutes.dispositions
      revisionRecords := minutes.revisions
      finalOrderedProposalIds := minutes.shortlist.orderedProposalIds
      totalTokens := (records.map fun item => item.inputTokens + item.outputTokens).sum
      totalLatencyMs := (records.map PrivateRoleRecord.latencyMs).sum
      deadlineOutcome := .met
      traceCompletenessPercent := 100 }
  result.check
  return result

def payload (finalIds : List Identifier) (councilResultId : Identifier) (trace : CouncilTrace) :
    ResultPayload where
  runId := call.request.runId
  opportunityId := call.request.opportunityId
  plannerMode := .agentCouncil
  status := if finalIds = [] then .noSafeProposal else .pass
  proposalIds := finalIds
  rejectedOutputDiagnostics := []
  contextPackHashes := trace.contextPackHashes
  councilResultId := some councilResultId
  providerId := some boundedCouncilRuntime
  modelId := some "role_scoped_structured_provider"
  promptHash := some (canonicalHash noFloats
    (.obj [("prompt_hashes", textsJson (trace.promptHashes.map Subtype.val))]) (by simp))
  outputSchemaHash := planner.outputSchemaHash
  inputTokens := trace.inputTokens
  outputTokens := trace.outputTokens
  latencyMs := trace.latencyMs
  fallbackUsed := false
  upstreamProviderResultId := none

/-- The part of `_deliberate` after the shortlist. -/
def conclude (route : CouncilRoute) (request : CouncilRequest) (minutes : Minutes φ) :
    EStateM PlannerError (CouncilState φ) PlannerResult := do
  modify fun s => { s with resolved := updateResolved s.resolved minutes.chosen }
  let records ← ofExcept (records (F := F) call minutes)
  Transact.check
    ((records.map fun item => item.inputTokens + item.outputTokens).sum ≤
      request.aggregateTokenBudget)
    (.councilBudget "council exceeded request aggregate token budget")
  let trace ← ofExcept (trace call route request.councilRequestId records)
  modify fun s => { s with councilTrace := some trace }
  let result ← ofExcept
    (planner.councilResult call route request.councilRequestId minutes records trace)
  modify fun s => { s with councilResult := some result }
  let payload :=
    planner.payload call minutes.shortlist.orderedProposalIds result.councilResultId trace
  let identity ← ofExcept (hashOrRaise noFloats (payload.toJson false))
  ofExcept (payload.result identity)

/-! ## The two ways to a result -/

/-- The part of `_deliberate` up to the shortlist. -/
def convene : EStateM PlannerError (CouncilState φ) (CouncilRoute × CouncilRequest × Minutes φ) := do
  let opportunity ← ofExcept (planner.checkAuthority call)
  let route ← ofExcept (routeRoles opportunity planner.policy)
  let deadlineMs ← ofExcept (planner.deadlineMs call)
  let request := planner.councilRequest call route (requestHash call route)
    planner.contextPolicyHash
  ofExcept request.check
  modify fun s => { s with councilRequest := some request }
  let packs ← Transact.onPart CouncilState.audit (fun audit s => { s with audit })
    (buildBlindedProposerContexts planner.runtime planner.contextRequests call.request
      route.proposerRoles planner.commonEnvelope planner.evidenceProvider call.store)
  let minutes ← Transact.onPart CouncilState.completed (fun completed s => { s with completed })
    (planner.confer call route deadlineMs packs)
  return (route, request, minutes)

/-- `_deliberate`, with what it came to -/
def deliberate : EStateM PlannerError (CouncilState φ) (PlannerResult × Minutes φ) := do
  let (route, request, minutes) ← planner.convene call
  let result ← planner.conclude call route request minutes
  return (result, minutes)

def failureHash (e : PlannerError) : HashRef :=
  canonicalHash noFloats
    (.obj [("planner_request_id", .str call.request.plannerRequestId.val),
      ("error_type", .str e.parts.1), ("error", .str e.parts.2)]) (by simp)

/-- The trace of a failed deliberation. -/
def failureTrace (route : CouncilRoute) (e : PlannerError) : Except PlannerError CouncilTrace := do
  let trace : CouncilTrace :=
    { councilTraceId := hashedId "council_trace_" 24 (failureHash call e) councilTrace_isStem
      selectedRoleIds := route.selected
      events := route.selected.head?.toList.map fun role =>
        ⟨0, councilFailed, role, call.request.deadline⟩
      promptHashes := []
      modelConfigurationHashes := []
      contextPackHashes := []
      retrievalLogHashes := []
      inputTokens := 0
      outputTokens := 0
      latencyMs := 0
      deadlineOutcome := .met
      cancelled := false
      traceCompletenessPercent := 20 }
  trace.check
  return trace

/-- The request of a failed deliberation, the last one if there is any. -/
def failureRequest (route : CouncilRoute) (last : Option CouncilRequest) (e : PlannerError) :
    Except PlannerError CouncilRequest :=
  match last with
  | some request => .ok request
  | none => do
    let request := planner.councilRequest call route (failureHash call e)
      (canonicalHash noFloats (.obj [("failure", .str (failureHash call e).val)]) (by simp))
    request.check
    return request

/-- The council result of a failed deliberation. -/
def failureResult (route : CouncilRoute) (shortlist : ProposalShortlist)
    (councilRequestId councilTraceId : Identifier) (e : PlannerError) :
    Except PlannerError CouncilResult := do
  let envelopeHash ← hashOrRaise F (.obj planner.commonEnvelope)
  let result : CouncilResult :=
    { councilResultId := hashedId "council_result_" 24 (failureHash call e)
      councilRequestId
      status := .partialResult
      proposalShortlist := shortlist
      councilTraceId
      runId := call.request.runId
      opportunityId := call.request.opportunityId
      snapshotHash := call.request.evidenceSnapshotHash
      policyHash := planner.policy.policyHash
      routeReasonCodes := route.reasonCodes ++ [councilFailureFallback]
      selectedRoleIds := route.selected
      commonSafetyEnvelopeHash := envelopeHash
      privateRoleRecords := []
      proposalCards := []
      critiqueReports := []
      critiqueDispositions := []
      revisionRecords := []
      finalOrderedProposalIds := []
      totalTokens := 0
      totalLatencyMs := 0
      deadlineOutcome := .met
      traceCompletenessPercent := 20 }
  result.check
  return result

def fallbackPayload (e : PlannerError) (councilResultId : Identifier)
    (proposals : List (OptimizationProposal φ)) : ResultPayload where
  runId := call.request.runId
  opportunityId := call.request.opportunityId
  plannerMode := .agentCouncil
  status := .partialResult
  proposalIds := proposals.map OptimizationProposal.proposalId
  rejectedOutputDiagnostics :=
    [⟨councilFallback, e.parts.1 ++ ": " ++ e.parts.2, [call.request.opportunityId]⟩]
  contextPackHashes := []
  councilResultId := some councilResultId
  providerId := none
  modelId := none
  promptHash := none
  outputSchemaHash := planner.outputSchemaHash
  inputTokens := 0
  outputTokens := 0
  latencyMs := 0
  fallbackUsed := true
  upstreamProviderResultId := some councilResultId

/-- The part of `_fallback` that records the failure. -/
def recordFailure (e : PlannerError) : EStateM PlannerError (CouncilState φ) CouncilResult := do
  match getOpportunity planner.opportunities call.request.opportunityId with
  | none => throw .keyError
  | some opportunity => do
    let route ← ofExcept (routeRoles opportunity planner.policy)
    let shortlist : ProposalShortlist :=
      { proposalShortlistId := hashedId "proposal_shortlist_" 24 (failureHash call e)
          proposalShortlist_isStem
        status := .partialResult
        orderedProposalIds := []
        fallbackEligible := true
        unresolvedMandatoryFindingCount := 1 }
    ofExcept shortlist.check
    let trace ← ofExcept (failureTrace call route e)
    modify fun s => { s with councilTrace := some trace }
    let s ← get
    let request ← ofExcept (planner.failureRequest call route s.councilRequest e)
    modify fun s => { s with councilRequest := some request }
    let result ← ofExcept (planner.failureResult call route shortlist request.councilRequestId
      trace.councilTraceId e)
    modify fun s => { s with councilResult := some result }
    return result

/-- `_fallback`, with the proposals of the result -/
def fallback (e : PlannerError) :
    EStateM PlannerError (CouncilState φ) (PlannerResult × List (OptimizationProposal φ)) := do
  let result ← planner.recordFailure call e
  let heuristic ← ofExcept
    (planner.heuristic.propose { call.request with plannerMode := .heuristic })
  let proposals ← ofExcept (planner.heuristic.proposalsFor heuristic)
  modify fun s => { s with resolved := updateResolved s.resolved proposals }
  let identity := canonicalHash noFloats
    (.obj [("request", .str call.request.plannerRequestId.val),
      ("fallback", .str heuristic.plannerResultId.val),
      ("failure", .str (failureHash call e).val)]) (by simp)
  let planned ← ofExcept
    ((planner.fallbackPayload call e result.councilResultId proposals).result identity)
  return (planned, proposals)

/-- `propose`, with what the result rests on -/
def propose : EStateM PlannerError (CouncilState φ) (PlannerResult × Basis φ) := do
  let _ ← ofExcept (planner.checkAuthority call)
  Transact.rescue PlannerError.IsCouncil
    (do
      let (result, minutes) ← planner.deliberate call
      return (result, .deliberated minutes))
    fun e => do
      let (result, proposals) ← planner.fallback call e
      return (result, .heuristic proposals)

/-- `proposals_for` -/
def proposalsFor (s : CouncilState φ) (result : PlannerResult) :
    Except PlannerError (List (OptimizationProposal φ)) :=
  match resolveIds s.resolved result.proposalIds with
  | none => .error (.councilPlanning "council result references an unknown proposal")
  | some items => .ok items

end CouncilPlanner

end NovaRtl.Planner
