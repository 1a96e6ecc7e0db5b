import NovaRtl.Planner.Results

/-!
# Contracts of the council

The policy, route, request, role outputs, trace and result of a council in `contracts/planning.py`.
What a single field admits is in the types. A rule across fields is a field of a contract that a
role submits, and a step of `check` for a contract that the planner builds.
-/

namespace NovaRtl.Planner

open Text
open Scheduler (ArtifactRef)

/-! ## Roles -/

inductive CouncilRole where
  | timingForensics
  | arithmeticSpecialist
  | fsmSpecialist
  | fanoutResourceSpecialist
  | logicDomainSpecialist
  | formalCritic
  | ppaCritic
  | proposalChair
  deriving DecidableEq, Repr

namespace CouncilRole

def text : CouncilRole → String
  | timingForensics => "timing_forensics"
  | arithmeticSpecialist => "arithmetic_specialist"
  | fsmSpecialist => "fsm_specialist"
  | fanoutResourceSpecialist => "fanout_resource_specialist"
  | logicDomainSpecialist => "logic_domain_specialist"
  | formalCritic => "formal_critic"
  | ppaCritic => "ppa_critic"
  | proposalChair => "proposal_chair"

theorem text_isEntityId (role : CouncilRole) : isEntityId role.text := by
  cases role <;> decide +kernel

def id (role : CouncilRole) : Identifier := ⟨role.text, role.text_isEntityId⟩

/-- The role with that identifier. -/
def ofText (text : String) : Option CouncilRole :=
  [timingForensics, arithmeticSpecialist, fsmSpecialist, fanoutResourceSpecialist,
    logicDomainSpecialist, formalCritic, ppaCritic, proposalChair].find? (·.text = text)

theorem text_injective : Function.Injective text := by
  intro role role' h
  have hof : ∀ role : CouncilRole, ofText role.text = some role := by
    intro role
    cases role <;> decide +kernel
  exact Option.some.inj ((hof role).symm.trans ((congrArg ofText h).trans (hof role')))

end CouncilRole

inductive RoleKind where
  | proposer
  | critic
  | chair
  deriving DecidableEq, Repr

def RoleKind.text : RoleKind → String
  | proposer => "PROPOSER"
  | critic => "CRITIC"
  | chair => "CHAIR"

inductive RoleStatus where
  | pass
  | noSafeProposal
  | error
  | timeout
  deriving DecidableEq, Repr

def RoleStatus.text : RoleStatus → String
  | pass => "PASS"
  | noSafeProposal => "NO_SAFE_PROPOSAL"
  | error => "ERROR"
  | timeout => "TIMEOUT"

/-! ## Policy, route and request -/

structure CouncilPolicy where
  maxReasoningRoles : ℕ
  maxStrategistRoles : ℕ
  maxFinalProposals : ℕ
  maxRevisions : ℕ
  maxAggregateTokens : ℕ
  deadlineSeconds : ℕ
  fanOutLimit : ℕ
  fanInLimit : ℕ
  policyHash : HashRef
  reasoning_bounds : 0 < maxReasoningRoles ∧ maxReasoningRoles ≤ 5
  strategist_bounds : 2 ≤ maxStrategistRoles ∧ maxStrategistRoles ≤ 3
  final_bounds : 0 < maxFinalProposals ∧ maxFinalProposals ≤ 3
  revisions_le : maxRevisions ≤ 1
  tokens_bounds : 0 < maxAggregateTokens ∧ maxAggregateTokens ≤ 30000
  deadline_bounds : 0 < deadlineSeconds ∧ deadlineSeconds ≤ 120
  fanOut_bounds : 0 < fanOutLimit ∧ fanOutLimit ≤ 4
  fanIn_pos : 0 < fanInLimit
  fanIn_le : fanInLimit ≤ fanOutLimit

/-- A route without its identifier and hash. -/
structure RoutePayload where
  opportunityId : Identifier
  policyHash : HashRef
  rootCause : StableUpperString
  proposerRoles : List CouncilRole
  criticRoles : List CouncilRole
  chairRole : CouncilRole
  reasonCodes : List StableUpperString

def RoutePayload.selected (payload : RoutePayload) : List CouncilRole :=
  payload.proposerRoles ++ payload.criticRoles ++ [payload.chairRole]

/-- The rules of the validator besides the canonical hash. -/
def RoutePayload.check (payload : RoutePayload) : Except PlannerError Unit := do
  require payload.proposerRoles.Nodup (.validation "council proposer roles must be unique")
  require payload.criticRoles.Nodup (.validation "council critic roles must be unique")
  require payload.reasonCodes.Nodup (.validation "council route reason codes must be unique")
  require (payload.criticRoles.toFinset = {.formalCritic, .ppaCritic})
    (.validation "council route requires formal and PPA critics")
  require payload.selected.Nodup (.validation "council selected roles must be unique")
  require (payload.selected.length ≤ 5)
    (.validation "council route exceeds the absolute role bound")

structure CouncilRoute extends RoutePayload where
  councilRouteId : Identifier
  routeHash : HashRef

structure CouncilRequest where
  councilRequestId : Identifier
  plannerRequestId : Identifier
  councilRouteId : Identifier
  councilRouteHash : HashRef
  blindedProposerRoles : List CouncilRole
  criticRoles : List CouncilRole
  chairRole : CouncilRole
  contextPolicyHash : HashRef
  fanOutLimit : ℕ
  fanInLimit : ℕ
  aggregateTokenBudget : ℕ
  aggregateLatencyBudgetMs : ℕ
  deadline : ℤ
  eventStreamId : Identifier

def CouncilRequest.check (request : CouncilRequest) : Except PlannerError Unit := do
  let selected := request.blindedProposerRoles.toFinset ∪ request.criticRoles.toFinset
  require request.blindedProposerRoles.Nodup
    (.validation "blinded proposer roles must be unique")
  require request.criticRoles.Nodup (.validation "critic roles must be unique")
  require (.formalCritic ∈ request.criticRoles ∧ .ppaCritic ∈ request.criticRoles)
    (.validation "council request requires both mandatory critics")
  require (selected.card = request.blindedProposerRoles.length + request.criticRoles.length)
    (.validation "proposer and critic roles must be disjoint")
  require (request.chairRole ∉ selected)
    (.validation "chair role must be independent from proposer and critic roles")
  require (selected.card ≤ request.fanOutLimit)
    (.validation "fan_out_limit cannot be smaller than selected parallel roles")
  require (request.fanInLimit ≤ request.fanOutLimit)
    (.validation "fan_in_limit cannot exceed fan_out_limit")

/-! ## What the roles submit -/

inductive Severity where
  | mandatory
  | advisory
  deriving DecidableEq, Repr

def Severity.text : Severity → String
  | mandatory => "MANDATORY"
  | advisory => "ADVISORY"

inductive Action where
  | accept
  | revise
  | reject
  deriving DecidableEq, Repr

def Action.text : Action → String
  | accept => "ACCEPT"
  | revise => "REVISE"
  | reject => "REJECT"

inductive CriticClass where
  | formal
  | ppa
  deriving DecidableEq, Repr

def CriticClass.text : CriticClass → String
  | formal => "FORMAL"
  | ppa => "PPA"

structure CritiqueObjection where
  objectionId : Identifier
  severity : Severity
  category : StableUpperString
  message : String
  evidenceRefs : List EvidenceRef
  requestedDisposition : Action
  message_ne : message ≠ ""
  refs_ne : evidenceRefs ≠ []

/-- `_require_one_snapshot` -/
def InOneSnapshot (refs : List EvidenceRef) : Prop := (snapshots refs).card = 1

instance (refs : List EvidenceRef) : Decidable (InOneSnapshot refs) :=
  inferInstanceAs (Decidable (_ = _))

structure CritiqueReport where
  critiqueReportId : Identifier
  criticRole : Identifier
  criticClass : CriticClass
  proposalCardId : Identifier
  objections : List CritiqueObjection
  objections_nodup : (objections.map CritiqueObjection.objectionId).Nodup
  one_snapshot : objections.flatMap CritiqueObjection.evidenceRefs ≠ [] →
    InOneSnapshot (objections.flatMap CritiqueObjection.evidenceRefs)

structure CritiqueDisposition where
  critiqueDispositionId : Identifier
  objectionId : Identifier
  action : Action
  reasonCode : StableUpperString
  resultingProposalId : Option Identifier
  chairEvidenceRefs : List EvidenceRef
  one_snapshot : InOneSnapshot chairEvidenceRefs
  result_iff : resultingProposalId = none ↔ action = .reject

structure CouncilRevisionRecord where
  revisionId : Identifier
  sourceProposalId : Identifier
  revisedProposalId : Identifier
  reasonCodes : List StableUpperString
  codes_ne : reasonCodes ≠ []

structure ProposalCard where
  proposalCardId : Identifier
  proposalId : Identifier
  normalizedProposalHash : HashRef
  deriving DecidableEq

/-! ## What the planner records -/

inductive CouncilStatus where
  | pass
  | noSafeProposal
  | insufficientEvidence
  | partialResult
  | plannerError
  | cancelled
  | budgetExhausted
  deriving DecidableEq, Repr

def CouncilStatus.text : CouncilStatus → String
  | pass => "PASS"
  | noSafeProposal => "NO_SAFE_PROPOSAL"
  | insufficientEvidence => "INSUFFICIENT_EVIDENCE"
  | partialResult => "PARTIAL"
  | plannerError => "PLANNER_ERROR"
  | cancelled => "CANCELLED"
  | budgetExhausted => "BUDGET_EXHAUSTED"

inductive DeadlineOutcome where
  | met
  | exceeded
  | cancelled
  deriving DecidableEq, Repr

structure ProposalShortlist where
  proposalShortlistId : Identifier
  status : CouncilStatus
  orderedProposalIds : List Identifier
  fallbackEligible : Bool
  unresolvedMandatoryFindingCount : ℕ

def ProposalShortlist.check (shortlist : ProposalShortlist) : Except PlannerError Unit := do
  require (shortlist.status ∈ [.pass, .noSafeProposal, .insufficientEvidence, .partialResult])
    (.validation "status")
  require (shortlist.orderedProposalIds.length ≤ 3) (.validation "ordered_proposal_ids")
  require shortlist.orderedProposalIds.Nodup
    (.validation "shortlisted proposal IDs must be unique")
  require (¬ (shortlist.orderedProposalIds ≠ [] ∧ shortlist.unresolvedMandatoryFindingCount ≠ 0))
    (.validation "executable shortlist cannot have unresolved mandatory findings")
  require (¬ (shortlist.status = .pass ∧ shortlist.orderedProposalIds = []))
    (.validation "PASS shortlist requires at least one proposal")
  require (¬ (shortlist.status ∈ [.noSafeProposal, .insufficientEvidence] ∧
      shortlist.orderedProposalIds ≠ []))
    (.validation (shortlist.status.text ++ " shortlist cannot contain proposals"))

structure CouncilTraceEvent where
  sequence : ℕ
  eventType : StableUpperString
  roleId : CouncilRole
  timestamp : ℤ

structure CouncilTrace where
  councilTraceId : Identifier
  selectedRoleIds : List CouncilRole
  events : List CouncilTraceEvent
  promptHashes : List HashRef
  modelConfigurationHashes : List HashRef
  contextPackHashes : List String
  retrievalLogHashes : List HashRef
  inputTokens : ℕ
  outputTokens : ℕ
  latencyMs : ℕ
  deadlineOutcome : DeadlineOutcome
  cancelled : Bool
  traceCompletenessPercent : ℕ

def CouncilTrace.check (trace : CouncilTrace) : Except PlannerError Unit := do
  require (trace.selectedRoleIds ≠ [] ∧ trace.events ≠ []) (.validation "events")
  require trace.selectedRoleIds.Nodup (.validation "selected role IDs must be unique")
  require (trace.events.map CouncilTraceEvent.sequence = List.range trace.events.length)
    (.validation "council trace event sequence must be contiguous from zero")
  require (∀ event ∈ trace.events, event.roleId ∈ trace.selectedRoleIds)
    (.validation "trace event role must be selected")
  require (trace.cancelled = decide (trace.deadlineOutcome = .cancelled))
    (.validation "cancelled flag must match deadline outcome")
  require trace.promptHashes.Nodup (.validation "prompt hashes must be unique")
  require trace.modelConfigurationHashes.Nodup
    (.validation "model configuration hashes must be unique")
  require trace.contextPackHashes.Nodup (.validation "context pack hashes must be unique")
  require trace.retrievalLogHashes.Nodup (.validation "retrieval log hashes must be unique")

structure PrivateRoleRecord where
  roleId : CouncilRole
  roleKind : RoleKind
  privatePackHash : String
  retrievedEvidenceIds : List Identifier
  blindedRound : Bool
  structuredSubmissionArtifact : ArtifactRef
  inputTokens : ℕ
  outputTokens : ℕ
  latencyMs : ℕ
  status : RoleStatus

structure CouncilResult where
  councilResultId : Identifier
  councilRequestId : Identifier
  status : CouncilStatus
  proposalShortlist : ProposalShortlist
  councilTraceId : Identifier
  runId : Identifier
  opportunityId : Identifier
  snapshotHash : HashRef
  policyHash : HashRef
  routeReasonCodes : List StableUpperString
  selectedRoleIds : List CouncilRole
  commonSafetyEnvelopeHash : HashRef
  privateRoleRecords : List PrivateRoleRecord
  proposalCards : List ProposalCard
  critiqueReports : List CritiqueReport
  critiqueDispositions : List CritiqueDisposition
  revisionRecords : List CouncilRevisionRecord
  finalOrderedProposalIds : List Identifier
  totalTokens : ℕ
  totalLatencyMs : ℕ
  deadlineOutcome : DeadlineOutcome
  traceCompletenessPercent : ℕ

/-- The evidence that objections and dispositions cite. -/
def CouncilResult.citedRefs (result : CouncilResult) : List EvidenceRef :=
  (result.critiqueReports.flatMap fun report =>
      report.objections.flatMap CritiqueObjection.evidenceRefs) ++
    result.critiqueDispositions.flatMap CritiqueDisposition.chairEvidenceRefs

def CouncilResult.objectionIds (result : CouncilResult) : List Identifier :=
  result.critiqueReports.flatMap fun report =>
    report.objections.map CritiqueObjection.objectionId

/-- `critic_status_by_role.get(role)`, the status of the last such record -/
def CouncilResult.criticStatus (result : CouncilResult) (role : CouncilRole) : Option RoleStatus :=
  (result.privateRoleRecords.reverse.find? fun item =>
    item.roleKind = .critic ∧ item.roleId = role).map PrivateRoleRecord.status

def CouncilResult.check (result : CouncilResult) : Except PlannerError Unit := do
  let roleIds := result.privateRoleRecords.map PrivateRoleRecord.roleId
  let executable := result.finalOrderedProposalIds ≠ []
  let cardIds := result.proposalCards.map ProposalCard.proposalCardId
  let proposalIds := result.proposalCards.map ProposalCard.proposalId
  let dispositioned := result.critiqueDispositions.map CritiqueDisposition.objectionId
  let revised := result.revisionRecords.map CouncilRevisionRecord.revisedProposalId
  require (result.routeReasonCodes ≠ [] ∧ result.selectedRoleIds ≠ [])
    (.validation "route_reason_codes")
  require (result.revisionRecords.length ≤ 1 ∧ result.finalOrderedProposalIds.length ≤ 3)
    (.validation "revision_records")
  require result.routeReasonCodes.Nodup (.validation "route reason codes must be unique")
  require result.selectedRoleIds.Nodup (.validation "selected role IDs must be unique")
  require roleIds.Nodup (.validation "private role IDs must be unique")
  require (roleIds ⊆ result.selectedRoleIds)
    (.validation "private role records must resolve to selected roles")
  require (result.privateRoleRecords.map PrivateRoleRecord.privatePackHash).Nodup
    (.validation "private pack hashes must not leak across roles")
  require (executable → roleIds.toFinset = result.selectedRoleIds.toFinset)
    (.validation "executable council requires every selected role record")
  require (executable → 2 ≤ result.privateRoleRecords.countP fun item =>
      item.roleKind = .proposer ∧ item.status = .pass)
    (.validation "executable council requires two passing independent proposers")
  require (executable → (result.privateRoleRecords.countP fun item =>
      item.roleKind = .chair ∧ item.status = .pass) = 1)
    (.validation "executable council requires exactly one passing chair")
  require (executable →
      (result.critiqueReports.map CritiqueReport.criticClass).toFinset = {.formal, .ppa} ∧
        result.criticStatus .formalCritic = some .pass ∧
        result.criticStatus .ppaCritic = some .pass)
    (.validation "executable council requires both mandatory critics to pass")
  require cardIds.Nodup (.validation "proposal card IDs must be unique")
  require proposalIds.Nodup (.validation "proposal card proposal IDs must be unique")
  require (∀ report ∈ result.critiqueReports, report.proposalCardId ∈ cardIds)
    (.validation "critique must resolve to a neutral proposal card")
  require result.objectionIds.Nodup (.validation "council objection IDs must be unique")
  require dispositioned.Nodup
    (.validation "critique disposition objection IDs must be unique")
  require (executable → dispositioned.toFinset = result.objectionIds.toFinset)
    (.validation "every critique objection requires exactly one disposition")
  require (dispositioned ⊆ result.objectionIds)
    (.validation "critique disposition must resolve to an objection")
  require result.finalOrderedProposalIds.Nodup (.validation "final proposal IDs must be unique")
  require (result.finalOrderedProposalIds ⊆ proposalIds ++ revised)
    (.validation "final proposals must resolve through neutral proposal cards")
  require (¬ (result.deadlineOutcome ≠ .met ∧ executable))
    (.validation "deadline failure cannot emit executable final proposals")
  require (executable → result.traceCompletenessPercent = 100)
    (.validation "met council deadline requires a complete trace")
  require (result.finalOrderedProposalIds = result.proposalShortlist.orderedProposalIds)
    (.validation "CouncilResult proposals must match its ProposalShortlist")
  require (result.status ∈ [.pass, .noSafeProposal, .insufficientEvidence, .partialResult] →
      result.status = result.proposalShortlist.status)
    (.validation "CouncilResult status must match its ProposalShortlist")
  require (result.status = .pass → executable)
    (.validation "PASS council result requires an executable shortlist")
  require (¬ (result.status ∈ [.noSafeProposal, .insufficientEvidence, .plannerError, .cancelled,
      .budgetExhausted] ∧ executable))
    (.validation (result.status.text ++ " council result cannot emit proposals"))
  require (result.status = .cancelled → result.deadlineOutcome = .cancelled)
    (.validation "CANCELLED council status requires cancelled deadline outcome")
  require (result.deadlineOutcome = .cancelled → result.status = .cancelled)
    (.validation "cancelled deadline requires CANCELLED council status")
  require (result.deadlineOutcome = .exceeded → result.status = .budgetExhausted)
    (.validation "exceeded deadline requires BUDGET_EXHAUSTED council status")
  require (result.totalTokens =
      (result.privateRoleRecords.map fun item => item.inputTokens + item.outputTokens).sum)
    (.validation "total_tokens must equal private role token consumption")
  require (result.totalLatencyMs =
      (result.privateRoleRecords.map PrivateRoleRecord.latencyMs).sum)
    (.validation "total_latency_ms must equal private role latency")
  require (result.citedRefs ≠ [] → snapshots result.citedRefs = {result.snapshotHash})
    (.validation "council evidence must match result snapshot_hash")

end NovaRtl.Planner
