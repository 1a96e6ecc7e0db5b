import NovaRtl.Planner.Heuristic
import NovaRtl.Transact.Ends

/-!
# The single-agent planner

`SingleAgentPlanner` of `planner/single_agent.py`. The provider is asked for proposals, once more if
its output has the wrong shape, and the heuristic planner answers when that does not help. The
answers of the provider and the resolved proposals are kept from call to call.

## Main definitions

* `SingleAgentPlanner.advise` — the answers of the provider and what they amount to.
* `SingleAgentPlanner.propose` — the planner.
* `SingleAgentPlanner.Answered` — when a call returns.
-/

namespace NovaRtl.Planner

open Text
open Scheduler (ArtifactRef)

/-- The standard library and Pydantic: `str.lower`, JSON texts, and the validation of messages and
of an envelope of proposals. -/
structure Runtime (φ : Type) where
  lower : String → String
  hashRecord : RetrievalPayload → HashRef
  loads : ByteArray → Except String (Json φ)
  dumps : Json φ → String
  validateMessages : Json φ → Option (List Message)
  validateEnvelope : Json φ → Except String (List (OptimizationProposal φ))

/-- What the planner reads of its policy. -/
structure PlannerPolicy where
  policyHash : HashRef
  maxProposals : ℕ
  deadlineSeconds : ℕ

structure SingleAgentPlanner {φ : Type} (F : Floats φ) where
  contextRequest : ContextRequest
  commonEnvelope : List (String × Json φ)
  evidenceProvider : InMemoryEvidenceProvider F
  heuristic : HeuristicPlanner φ
  opportunities : List OptimizationOpportunity
  registry : TransformRegistry φ
  policy : PlannerPolicy
  outputSchemaHash : HashRef
  runtime : Runtime φ

/-- The state that survives a call. `resolved` has one proposal for each identifier. -/
structure SingleAgentState (φ : Type) where
  audit : AuditLog
  providerResults : List ProviderResult
  resolved : List (OptimizationProposal φ)
  contextPack : Option RoleContextPack

/-- A call, with what the artifact store and the provider answer during it. -/
structure SingleAgentCall where
  request : PlannerRequest
  store : ArtifactStore
  generate : List Message → ℕ → ProviderResult

/-- What the answers of the provider amount to: a fallback with its diagnostics, or proposals. -/
inductive Verdict (φ : Type) where
  | rejected (diagnostics : List Diagnostic)
  | accepted (proposals : List (OptimizationProposal φ))

structure Advice (φ : Type) where
  results : List ProviderResult
  verdict : Except PlannerError (ProviderResult × Verdict φ)

def providerFailure : StableUpperString := ⟨"PLANNER_PROVIDER_FAILURE", by decide +kernel⟩

def schemaInvalid : StableUpperString := ⟨"PLANNER_SCHEMA_INVALID", by decide +kernel⟩

def semanticRejected : StableUpperString := ⟨"PLANNER_SEMANTIC_REJECTED", by decide +kernel⟩

/-- The messages that ask for a repair of an output. -/
def repairMessages (output firstError : String) : List Message :=
  [⟨.system, "Repair JSON shape only. Do not add evidence, targets, transforms, " ++
      "parameters, RTL, or new technical claims."⟩,
    ⟨.user, "ORIGINAL_STRUCTURED_OUTPUT\n" ++ output ++ "\nSCHEMA_ERRORS\n" ++ firstError⟩]

namespace SingleAgentPlanner

variable {φ : Type} {F : Floats φ} (planner : SingleAgentPlanner F) (call : SingleAgentCall)

/-! ## Asking the provider -/

/-- `_messages` -/
def messages (pack : RoleContextPack) : Except PlannerError (List Message) :=
  let invalid (message : String) : PlannerError :=
    .singleAgentPlanner ("rendered context messages are invalid: " ++ message)
  match call.store.openVerified pack.renderedMessageArtifact with
  | .error message => .error (invalid message)
  | .ok bytes =>
    match planner.runtime.loads bytes with
    | .error message => .error (invalid message)
    | .ok payload =>
      match planner.runtime.validateMessages payload with
      | none => .error (invalid "messages")
      | some messages => .ok messages

/-- `_output` -/
def output (result : ProviderResult) : Except PlannerError (Json φ) :=
  match result.structuredOutputArtifact with
  | none => .error (.singleAgentPlanner "passing provider result lacks output artifact")
  | some ref =>
    let invalid (message : String) : PlannerError :=
      .singleAgentPlanner ("provider output artifact is invalid: " ++ message)
    match call.store.openVerified ref with
    | .error message => .error (invalid message)
    | .ok bytes =>
      match planner.runtime.loads bytes with
      | .error message => .error (invalid message)
      | .ok (.obj fields) => .ok (.obj fields)
      | .ok _ => .error (.singleAgentPlanner "provider output must be a JSON object")

/-- `_diagnostic` -/
def diagnostic (code : StableUpperString) (message : String) : Diagnostic :=
  ⟨code, message, [call.request.opportunityId]⟩

/-- The semantic check of the proposals within the limit. -/
def judge (proposals : List (OptimizationProposal φ)) : Verdict φ :=
  let proposals := proposals.take call.request.proposalLimit
  match proposals.filterMap fun item =>
      semanticError planner.registry planner.opportunities item call.request with
  | [] => .accepted proposals
  | errors => .rejected (errors.map (diagnostic call semanticRejected))

def deadline : ℕ :=
  min planner.policy.deadlineSeconds (max 1 (call.request.latencyBudgetMs / 1000))

/-- The part of `propose` that asks the provider for a repair. -/
def adviseRepair (result : ProviderResult) (output : Json φ) (firstError : String) : Advice φ :=
  let repaired :=
    call.generate (repairMessages (planner.runtime.dumps output) firstError)
      (deadline planner call)
  let verdict : Except PlannerError (Verdict φ) :=
    if repaired.status ≠ .pass then
      .ok (.rejected [diagnostic call schemaInvalid "schema repair provider attempt failed"])
    else
      match planner.output call repaired with
      | .error e => .error e
      | .ok output =>
        match planner.runtime.validateEnvelope output with
        | .error secondError => .ok (.rejected [diagnostic call schemaInvalid
            ("schema remained invalid after one repair: " ++ secondError)])
        | .ok proposals => .ok (planner.judge call proposals)
  ⟨[result, repaired], verdict.map fun verdict => (repaired, verdict)⟩

/-- The part of `propose` from the first call of the provider to the semantic check. -/
def advise (messages : List Message) : Advice φ :=
  let result := call.generate messages (deadline planner call)
  if result.status ≠ .pass then
    ⟨[result], .ok (result, .rejected [diagnostic call providerFailure
      ("provider returned " ++ result.status.text ++ ": " ++
        (result.errorCode.map Subtype.val).getD "None")])⟩
  else
    match planner.output call result with
    | .error e => ⟨[result], .error e⟩
    | .ok output =>
      match planner.runtime.validateEnvelope output with
      | .error firstError => planner.adviseRepair call result output firstError
      | .ok proposals => ⟨[result], .ok (result, planner.judge call proposals)⟩

/-! ## The planner -/

def checkAuthority : Except PlannerError Unit := do
  require (call.request.plannerMode = .singleAgent)
    (.singleAgentPlanner "single-agent planner requires SINGLE_AGENT mode")
  require (call.request.policyHash = planner.policy.policyHash)
    (.singleAgentPlanner "planner policy identity changed")
  require (call.request.transformRegistryHash = planner.registry.registryHash)
    (.singleAgentPlanner "transform registry identity changed")
  require (call.request.proposalLimit ≤ planner.policy.maxProposals)
    (.singleAgentPlanner "proposal limit exceeds planner policy")
  require (call.request.requiredOutputSchemaName = "optimization-proposal" ∧
      call.request.requiredOutputSchemaVersion = 2)
    (.singleAgentPlanner "single-agent output schema is unsupported")

/-- The part of `propose` before the provider is called. -/
def prepare : EStateM PlannerError (SingleAgentState φ) (RoleContextPack × List Message) := do
  ofExcept (planner.checkAuthority call)
  let pack ← Transact.onPart SingleAgentState.audit (fun audit s => { s with audit })
    (buildContext planner.runtime.lower planner.runtime.hashRecord planner.evidenceProvider
      call.store planner.commonEnvelope planner.contextRequest call.request)
  modify fun s => { s with contextPack := some pack }
  let messages ← ofExcept (planner.messages call pack)
  return (pack, messages)

/-- The payload of a result, with the totals of all provider results so far. -/
def payload (s : SingleAgentState φ) (pack : RoleContextPack) (result : ProviderResult)
    (status : ResultStatus) (proposalIds : List Identifier) (diagnostics : List Diagnostic)
    (fallbackUsed : Bool) : ResultPayload where
  runId := call.request.runId
  opportunityId := call.request.opportunityId
  plannerMode := .singleAgent
  status
  proposalIds
  rejectedOutputDiagnostics := diagnostics
  contextPackHashes := [pack.renderedMessageHash]
  councilResultId := none
  providerId := some result.providerId
  modelId := some result.modelId
  promptHash := some result.promptHash
  outputSchemaHash := planner.outputSchemaHash
  inputTokens := (s.providerResults.map ProviderResult.inputTokens).sum
  outputTokens := (s.providerResults.map ProviderResult.outputTokens).sum
  latencyMs := (s.providerResults.map ProviderResult.latencyMs).sum
  fallbackUsed
  upstreamProviderResultId := if fallbackUsed then some result.providerResultId else none

/-- The identity of a payload and the result that it names. -/
def identified (payload : ResultPayload) : Except PlannerError PlannerResult := do
  let identity ← hashOrRaise noFloats (.obj
    [("planner_request_id", .str call.request.plannerRequestId.val),
      ("result", payload.toJson true)])
  payload.result identity

/-- `_fallback`, with the proposals of the result. -/
def fallback (pack : RoleContextPack) (result : ProviderResult) (diagnostics : List Diagnostic) :
    EStateM PlannerError (SingleAgentState φ)
      (PlannerResult × List (OptimizationProposal φ)) := do
  let heuristic ← ofExcept
    (planner.heuristic.propose { call.request with plannerMode := .heuristic })
  let proposals ← ofExcept (planner.heuristic.proposalsFor heuristic)
  modify fun s => { s with resolved := updateResolved s.resolved proposals }
  let s ← get
  let planned ← ofExcept (identified call
    (planner.payload call s pack result heuristic.status heuristic.proposalIds diagnostics true))
  return (planned, proposals)

/-- The end of `propose` when the proposals are accepted. -/
def conclude (pack : RoleContextPack) (result : ProviderResult)
    (proposals : List (OptimizationProposal φ)) :
    EStateM PlannerError (SingleAgentState φ)
      (PlannerResult × List (OptimizationProposal φ)) := do
  modify fun s => { s with resolved := updateResolved s.resolved proposals }
  let s ← get
  let status := if proposals = [] then .noSafeProposal else .pass
  let planned ← ofExcept (identified call (planner.payload call s pack result status
    (proposals.map OptimizationProposal.proposalId) [] false))
  return (planned, proposals)

/-- `propose`, with the proposals that were validated for its result. -/
def propose : EStateM PlannerError (SingleAgentState φ)
    (PlannerResult × List (OptimizationProposal φ)) := do
  let (pack, messages) ← planner.prepare call
  let advice := planner.advise call messages
  modify fun s => { s with providerResults := s.providerResults ++ advice.results }
  let (result, verdict) ← ofExcept advice.verdict
  match verdict with
  | .rejected diagnostics => planner.fallback call pack result diagnostics
  | .accepted proposals => planner.conclude call pack result proposals

/-- `proposals_for` -/
def proposalsFor (s : SingleAgentState φ) (result : PlannerResult) :
    Except PlannerError (List (OptimizationProposal φ)) :=
  match resolveIds s.resolved result.proposalIds with
  | some proposals => .ok proposals
  | none => planner.heuristic.proposalsFor result

end SingleAgentPlanner

end NovaRtl.Planner
