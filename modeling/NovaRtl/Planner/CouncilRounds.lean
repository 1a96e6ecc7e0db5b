import Mathlib.Algebra.Ring.Int.Defs
import NovaRtl.Order.Frontier
import NovaRtl.Planner.Authorization
import NovaRtl.Planner.Context
import NovaRtl.Planner.CouncilContracts

/-!
# Rounds of a council

The functions of `planner/council.py` that `CouncilPlanner` is made of: the route, the blinded
contexts of the proposers, a round of role calls, the cards of proposals and the shortlist. What a
role submits is any mapping of JSON values.
-/

namespace NovaRtl.Planner

open Text
open Scheduler (Instant)

/-- The standard library and Pydantic: `str.lower`, the text of an instant, the number that a float
is, and the validation of what roles submit. -/
structure CouncilRuntime (φ : Type) where
  lower : String → String
  hashRecord : RetrievalPayload → HashRef
  showInstant : Instant → String
  numberValue : φ → ℚ
  validateProposal : Json φ → Option (OptimizationProposal φ)
  validateCritique : Json φ → Option CritiqueReport
  validateDisposition : Json φ → Option CritiqueDisposition
  validateRevision : Json φ → Option CouncilRevisionRecord

structure CouncilRoleCall (φ : Type) where
  roleId : CouncilRole
  roleKind : RoleKind
  inputPayload : Json φ
  tokenBudget : ℕ

structure CouncilRoleOutcome (φ : Type) where
  roleId : String
  status : RoleStatus
  structuredOutput : Option (List (String × Json φ))
  inputTokens : ℤ
  outputTokens : ℤ
  latencyMs : ℤ

def CouncilRoleOutcome.tokens {φ : Type} (outcome : CouncilRoleOutcome φ) : ℤ :=
  outcome.inputTokens + outcome.outputTokens

/-- `outcome.structured_output or {}` -/
def CouncilRoleOutcome.output {φ : Type} (outcome : CouncilRoleOutcome φ) :
    List (String × Json φ) :=
  outcome.structuredOutput.getD []

/-! ## The route -/

def domainRoles : List (String × CouncilRole) :=
  [("SERIAL_ARITHMETIC", .arithmeticSpecialist), ("MUX_AFTER_ARITHMETIC", .arithmeticSpecialist),
    ("FSM_DECODE_DEPTH", .fsmSpecialist), ("HIGH_FANOUT_CONTROL", .fanoutResourceSpecialist),
    ("RESOURCE_ARBITRATION", .fanoutResourceSpecialist)]

def minimumBlindedCouncil : StableUpperString := ⟨"MINIMUM_BLINDED_COUNCIL", by decide +kernel⟩

section Json

variable {φ : Type}

def rolesJson (roles : List CouncilRole) : Json φ := textsJson (roles.map CouncilRole.text)

def codesJson (codes : List StableUpperString) : Json φ := textsJson (codes.map Subtype.val)

def RoutePayload.toJson (payload : RoutePayload) : Json φ :=
  .obj [("schema_version", .int 1), ("opportunity_id", .str payload.opportunityId.val),
    ("policy_hash", .str payload.policyHash.val), ("root_cause", .str payload.rootCause.val),
    ("proposer_roles", rolesJson payload.proposerRoles),
    ("critic_roles", rolesJson payload.criticRoles),
    ("chair_role", .str payload.chairRole.text), ("reason_codes", codesJson payload.reasonCodes)]

theorem RoutePayload.toJson_writable (payload : RoutePayload) :
    (payload.toJson : Json Empty).writable := by
  simp [RoutePayload.toJson, rolesJson, codesJson, Json.writable_int_of_lt]

end Json

/-- `CouncilRoute.build` -/
def CouncilRoute.build (payload : RoutePayload) : Except PlannerError CouncilRoute := do
  let routeHash := canonicalHash noFloats payload.toJson payload.toJson_writable
  payload.check
  return ⟨payload, hashedId "council_route_" 24 routeHash, routeHash⟩

def routeRoles (opportunity : OptimizationOpportunity) (policy : CouncilPolicy) :
    Except PlannerError CouncilRoute := do
  let rootCause := opportunity.rootCause
  let domainRole := (item? domainRoles rootCause.val).getD .logicDomainSpecialist
  let proposerRoles := [.timingForensics, domainRole]
  require (¬ (policy.maxStrategistRoles < proposerRoles.length ∨
      policy.maxReasoningRoles < proposerRoles.length + 2 + 1))
    (.councilPolicy "deterministic council route exceeds policy bounds")
  if h : isStableUpper ("ROOT_CAUSE_" ++ rootCause.val) then
    CouncilRoute.build
      { opportunityId := opportunity.opportunityId
        policyHash := policy.policyHash
        rootCause
        proposerRoles
        criticRoles := [.formalCritic, .ppaCritic]
        chairRole := .proposalChair
        reasonCodes := [⟨"ROOT_CAUSE_" ++ rootCause.val, h⟩, minimumBlindedCouncil] }
  else .error (.validation "reason_codes")

theorem councilTrace_isStem : isStem 24 "council_trace_" := by decide +kernel

theorem proposalShortlist_isStem : isStem 24 "proposal_shortlist_" := by decide +kernel

/-! ## The contexts of the proposers -/

section Contexts

variable {φ : Type} {F : Floats φ} (runtime : CouncilRuntime φ) (requests : List ContextRequest)
  (plannerRequest : PlannerRequest) (proposerRoles : List CouncilRole)
  (commonEnvelope : List (String × Json φ)) (provider : InMemoryEvidenceProvider F)
  (store : ArtifactStore)

/-- The requests of the roles in their order, if no two share private evidence. -/
def blindedRequests : Except PlannerError (List ContextRequest) := do
  require ((requests.map ContextRequest.role).Nodup ∧
      (requests.map ContextRequest.role).toFinset = (proposerRoles.map CouncilRole.id).toFinset)
    (.councilIsolation "proposer context requests must exactly cover the route")
  let ordered := proposerRoles.filterMap fun role =>
    Table.lookup ContextRequest.role requests role.id
  require (ordered.Pairwise fun a b => ∀ id ∈ a.privateEvidenceIds, id ∉ b.privateEvidenceIds)
    (.councilIsolation "proposer private evidence overlap is forbidden")
  return ordered

/-- `except ValueError` around the contexts -/
def isolationError : PlannerError → PlannerError
  | .validation message | .valueError message =>
    .councilIsolation ("cannot build blinded council contexts: " ++ message)
  | e => e

def buildBlindedProposerContexts : EStateM PlannerError AuditLog (List RoleContextPack) := do
  let ordered ← ofExcept (blindedRequests requests proposerRoles)
  let packs ← EStateM.adaptExcept isolationError (ordered.mapM fun request =>
    buildContext runtime.lower runtime.hashRecord provider store commonEnvelope request
      plannerRequest)
  Transact.check (packs.map RoleContextPack.privatePackHash).Nodup
    (.councilIsolation "proposer private context identities must be distinct")
  return packs

end Contexts

/-! ## Role calls -/

section Calls

variable {φ : Type} (policy : CouncilPolicy)
  (invoke : CouncilRoleCall φ → ℕ → Option (CouncilRoleOutcome φ)) (deadlineMs : ℕ)

/-- The role calls that completed, in the source known to the invoker only, are the state. -/
abbrev Session (φ : Type) := EStateM PlannerError (List (CouncilRoleOutcome φ))

/-- `run_role_round`. A call without an outcome is still running at the deadline. -/
def runRoleRound (calls : List (CouncilRoleCall φ)) : Session φ (List (CouncilRoleOutcome φ)) := do
  Transact.check (calls ≠ [] ∧ calls.length ≤ policy.fanOutLimit)
    (.councilBudget "council round exceeds its fan-out policy")
  Transact.check (calls.map CouncilRoleCall.roleId).Nodup
    (.councilBudget "council round role identities must be unique")
  Transact.check (0 < deadlineMs ∧ deadlineMs ≤ policy.deadlineSeconds * 1000)
    (.councilBudget "council round deadline exceeds policy")
  Transact.check (∀ call ∈ calls, 0 < call.tokenBudget)
    (.councilBudget "council role token budgets must be positive")
  let answers := calls.map fun call => invoke call deadlineMs
  modify fun completed => completed ++ answers.filterMap fun answer => answer
  match answers.mapM fun answer => answer with
  | none => throw (.councilBudget "council round exceeded its deadline")
  | some outcomes => do
    Transact.check (outcomes.map CouncilRoleOutcome.roleId =
        calls.map fun call => call.roleId.text)
      (.councilBudget "council invoker changed deterministic role order")
    Transact.check ((outcomes.map CouncilRoleOutcome.tokens).sum ≤ policy.maxAggregateTokens)
      (.councilBudget "council exceeded its aggregate token budget")
    Transact.check (∀ pair ∈ calls.zip outcomes, pair.2.tokens ≤ pair.1.tokenBudget)
      (.councilBudget "council role exceeded its assigned token budget")
    return outcomes

/-- Every role of the round answered. -/
def Passed (outcomes : List (CouncilRoleOutcome φ)) : Prop :=
  ∀ item ∈ outcomes, item.status = .pass ∧ item.structuredOutput.isSome

instance (outcomes : List (CouncilRoleOutcome φ)) : Decidable (Passed outcomes) :=
  inferInstanceAs (Decidable (∀ item ∈ outcomes, _))

/-- `iter(value)`; no value is a `TypeError`. -/
def iterate : Json φ → Option (List (Json φ))
  | .arr items => some items
  | .str s => some (s.toList.map fun c => .str (String.ofList [c]))
  | .obj fields => some (fields.map fun field => .str field.1)
  | _ => none

/-- `[validate(item) for item in output[key]]`; the errors of it are handled alike. -/
def readItems {α : Type} (validate : Json φ → Option α) (key : String)
    (output : List (String × Json φ)) : Option (List α) :=
  ((item? output key).bind iterate).bind fun items => items.mapM validate

/-- The items that the roles of a round submitted, a list for each role. -/
def readRound {α : Type} (validate : Json φ → Option α) (key : String) (message : String)
    (outcomes : List (CouncilRoleOutcome φ)) : Except PlannerError (List (List α)) :=
  match outcomes.mapM fun outcome => readItems validate key outcome.output with
  | none => .error (.councilPlanning message)
  | some items => .ok items

end Calls

/-! ## Cards -/

section Cards

variable {φ : Type}

def contractText : CorrectnessContract → String
  | .strictSeqEquiv => "STRICT_SEQ_EQUIV"
  | .retimingEquiv => "RETIMING_EQUIV"
  | .latencyAware => "LATENCY_AWARE"

def ProposalTarget.toJson (target : ProposalTarget) : Json φ :=
  .obj [("hierarchy", .str target.hierarchy), ("source_span_id", .str target.sourceSpanId.val),
    ("cone_fingerprint", .str target.coneFingerprint)]

def Transformation.toJson (transformation : Transformation φ) : Json φ :=
  .obj [("operation", .str transformation.operation.val),
    ("family", .str transformation.family.val),
    ("parameters", payloadJson transformation.parameters)]

def ProposalCorrectness.toJson (correctness : ProposalCorrectness) : Json φ :=
  .obj [("contract", .str (contractText correctness.contract)),
    ("proof_scope", .str correctness.proofScope), ("reset_model", .str correctness.resetModel.val)]

/-- `_proposal_semantics` -/
def proposalSemantics (proposal : OptimizationProposal φ) : Json φ :=
  .obj [("parent_candidate_id", .str proposal.parentCandidateId.val),
    ("opportunity_id", .str proposal.opportunityId.val), ("target", proposal.target.toJson),
    ("transformation", proposal.transformation.toJson),
    ("preconditions", codesJson proposal.preconditions),
    ("correctness", proposal.correctness.toJson),
    ("evidence_refs", .arr (proposal.evidenceRefs.map EvidenceRef.toJson)),
    ("abort_conditions", codesJson proposal.abortConditions)]

/-- Of proposals with one semantics the one with the least identifier is kept. -/
def keepLeast (byHash : List (HashRef × OptimizationProposal φ))
    (entry : HashRef × OptimizationProposal φ) : List (HashRef × OptimizationProposal φ) :=
  match Table.lookup Prod.fst byHash entry.1 with
  | none => Table.assign Prod.fst byHash entry
  | some incumbent =>
    if entry.2.proposalId.val < incumbent.2.proposalId.val then
      Table.assign Prod.fst byHash entry
    else byHash

def card (entry : HashRef × OptimizationProposal φ) : ProposalCard :=
  ⟨hashedId "proposal_card_" 24 entry.1, entry.2.proposalId, entry.1⟩

/-- `normalize_proposal_cards`, each card with its proposal -/
def normalizeProposalCards (F : Floats φ) (proposals : List (OptimizationProposal φ)) :
    Except PlannerError (List (HashRef × OptimizationProposal φ)) := do
  let entries ← proposals.mapM fun proposal => do
    return (← hashOrRaise F (proposalSemantics proposal), proposal)
  return sortedBy (fun entry => entry.1.val) (entries.foldl keepLeast [])

end Cards

/-! ## The shortlist -/

section Shortlist

variable {φ : Type} (numberValue : φ → ℚ) (policy : CouncilPolicy)

/-- What a value is in a set of Python. -/
inductive SetKey where
  | none
  | number (q : ℚ)
  | text (s : String)
  deriving DecidableEq

/-- `hash(value)`; no value is the `TypeError` of a list or dictionary. -/
def setKey : Json φ → Option SetKey
  | .null => some .none
  | .bool b => some (.number (if b then 1 else 0))
  | .int n => some (.number n)
  | .float x => some (.number (numberValue x))
  | .str s => some (.text s)
  | .arr _ | .obj _ => none

/-- The identifier that a value is, if it is one of `ids`. -/
def identify (ids : List Identifier) : Json φ → Option Identifier
  | .str s => ids.find? fun id => id.val = s
  | _ => none

def shortlistJson (ids : List Identifier) : Json Empty :=
  .obj [("status", .str (if ids = [] then "NO_SAFE_PROPOSAL" else "PASS")),
    ("ordered_proposal_ids", idsJson ids), ("fallback_eligible", .bool (ids = [])),
    ("unresolved_mandatory_finding_count", .int 0)]

theorem shortlistJson_writable (ids : List Identifier) : (shortlistJson ids).writable := by
  simp [shortlistJson, idsJson, Json.writable_int_of_lt]

def requiredReviews (cards : List ProposalCard) : Finset (Identifier × CriticClass) :=
  (cards.flatMap fun card =>
    [(card.proposalCardId, .formal), (card.proposalCardId, .ppa)]).toFinset

def observedReviews (critiques : List CritiqueReport) : Finset (Identifier × CriticClass) :=
  (critiques.map fun report => (report.proposalCardId, report.criticClass)).toFinset

/-- `{objection.objection_id for report in critiques for objection in report.objections}` -/
def objectionIds (critiques : List CritiqueReport) : List Identifier :=
  critiques.flatMap fun report => report.objections.map CritiqueObjection.objectionId

/-- `build_council_shortlist` -/
def buildCouncilShortlist (cards : List ProposalCard) (critiques : List CritiqueReport)
    (dispositions : List CritiqueDisposition) (revisions : List CouncilRevisionRecord)
    (finalIds : List (Json φ)) : Except PlannerError ProposalShortlist := do
  let duplicated : PlannerError :=
    .councilFanin "council final proposal set exceeds policy or is duplicated"
  require (revisions.length ≤ policy.maxRevisions)
    (.councilFanin "council revision count exceeds policy")
  require (finalIds.length ≤ policy.maxFinalProposals) duplicated
  match finalIds.mapM (setKey numberValue) with
  | none => .error .typeError
  | some keys => require keys.Nodup duplicated
  require (observedReviews critiques = requiredReviews cards)
    (.councilFanin "every proposal card requires both mandatory critics")
  let dispositioned := dispositions.map CritiqueDisposition.objectionId
  require (dispositioned.toFinset = (objectionIds critiques).toFinset ∧
      dispositions.length = dispositioned.toFinset.card)
    (.councilFanin "chair must disposition every critic objection exactly once")
  match finalIds.mapM (identify (cards.map ProposalCard.proposalId ++
      revisions.map CouncilRevisionRecord.revisedProposalId)) with
  | none =>
    .error (.councilFanin "shortlist proposal does not resolve through reviewed cards")
  | some ids => do
    let identity := canonicalHash noFloats (shortlistJson ids) (shortlistJson_writable ids)
    let shortlist : ProposalShortlist :=
      { proposalShortlistId := hashedId "proposal_shortlist_" 24 identity
          proposalShortlist_isStem
        status := if ids = [] then .noSafeProposal else .pass
        orderedProposalIds := ids
        fallbackEligible := ids = []
        unresolvedMandatoryFindingCount := 0 }
    shortlist.check
    return shortlist

end Shortlist

end NovaRtl.Planner
