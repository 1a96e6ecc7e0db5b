import NovaRtl.Planner.Context

/-!
# Results of planners

`ProviderResult` and `PlannerResult` of `contracts/planning.py`. A planner result is named by the
canonical hash of its payload.
-/

namespace NovaRtl.Planner

open Text
open Scheduler (ArtifactRef)

/-! ## Provider results -/

inductive ProviderStatus where
  | pass
  | invalidOutput
  | providerError
  | timeout
  | budgetExhausted
  deriving DecidableEq, Repr

def ProviderStatus.text : ProviderStatus → String
  | pass => "PASS"
  | invalidOutput => "INVALID_OUTPUT"
  | providerError => "PROVIDER_ERROR"
  | timeout => "TIMEOUT"
  | budgetExhausted => "BUDGET_EXHAUSTED"

/-- An output is present exactly if the status is `PASS`, and an error code exactly if not. -/
structure ProviderResult where
  providerResultId : Identifier
  status : ProviderStatus
  providerId : Identifier
  modelId : String
  promptHash : HashRef
  structuredOutputArtifact : Option ArtifactRef
  inputTokens : ℕ
  outputTokens : ℕ
  latencyMs : ℕ
  errorCode : Option StableUpperString
  model_ne : modelId ≠ ""
  output_iff : structuredOutputArtifact.isSome ↔ status = .pass
  error_iff : errorCode.isSome ↔ status ≠ .pass

/-! ## Planner results -/

/-- A diagnostic of severity `ERROR`. -/
structure Diagnostic where
  code : StableUpperString
  message : String
  evidenceRefs : List Identifier
  deriving DecidableEq

inductive ResultStatus where
  | pass
  | noSafeProposal
  | partialResult
  | providerError
  | schemaError
  deriving DecidableEq, Repr

def ResultStatus.text : ResultStatus → String
  | pass => "PASS"
  | noSafeProposal => "NO_SAFE_PROPOSAL"
  | partialResult => "PARTIAL"
  | providerError => "PROVIDER_ERROR"
  | schemaError => "SCHEMA_ERROR"

def PlannerMode.text : PlannerMode → String
  | heuristic => "HEURISTIC"
  | singleAgent => "SINGLE_AGENT"
  | agentCouncil => "AGENT_COUNCIL"

/-- A result without its own identifier. -/
structure ResultPayload where
  runId : Identifier
  opportunityId : Identifier
  plannerMode : PlannerMode
  status : ResultStatus
  proposalIds : List Identifier
  rejectedOutputDiagnostics : List Diagnostic
  contextPackHashes : List String
  councilResultId : Option Identifier
  providerId : Option Identifier
  modelId : Option String
  promptHash : Option HashRef
  outputSchemaHash : HashRef
  inputTokens : ℕ
  outputTokens : ℕ
  latencyMs : ℕ
  fallbackUsed : Bool
  upstreamProviderResultId : Option Identifier
  deriving DecidableEq

structure PlannerResult extends ResultPayload where
  plannerResultId : Identifier
  deriving DecidableEq

def ResultPayload.check (payload : ResultPayload) : Except PlannerError Unit := do
  require payload.proposalIds.Nodup (.validation "proposal IDs must be unique")
  require payload.contextPackHashes.Nodup (.validation "context pack hashes must be unique")
  require (¬ (payload.status = .pass ∧ payload.proposalIds = []))
    (.validation "PASS planner result requires a validated proposal")
  require (¬ (payload.status ∈ [.noSafeProposal, .providerError, .schemaError] ∧
      payload.proposalIds ≠ []))
    (.validation (payload.status.text ++ " planner result cannot contain proposals"))
  require (¬ (payload.fallbackUsed ∧ payload.upstreamProviderResultId = none))
    (.validation "fallback must retain its upstream provider result")
  require (¬ (payload.fallbackUsed ∧ payload.rejectedOutputDiagnostics = []))
    (.validation "fallback must retain upstream rejection diagnostics")
  require (¬ (payload.fallbackUsed = false ∧ payload.upstreamProviderResultId ≠ none))
    (.validation "non-fallback result cannot declare an upstream provider result")
  require (¬ (payload.plannerMode = .agentCouncil ∧ payload.status ∈ [.pass, .partialResult] ∧
      payload.councilResultId = none))
    (.validation "council planner result requires council_result_id")
  require (¬ (payload.plannerMode ≠ .agentCouncil ∧ payload.councilResultId ≠ none))
    (.validation "non-council planner result cannot declare council_result_id")

/-! ## Canonical payloads -/

section Json

variable {φ : Type}

def idsJson (ids : List Identifier) : Json φ := .arr (ids.map fun id => .str id.val)

def Diagnostic.toJson (diagnostic : Diagnostic) : Json φ :=
  .obj [("code", .str diagnostic.code.val), ("severity", .str "ERROR"),
    ("message", .str diagnostic.message), ("evidence_refs", idsJson diagnostic.evidenceRefs)]

/-- The payload with `schema_version` if `versioned`; the council leaves that out. -/
def ResultPayload.toJson (versioned : Bool) (payload : ResultPayload) : Json φ :=
  .obj ((if versioned then [("schema_version", .int 1)] else []) ++
    [("run_id", .str payload.runId.val), ("opportunity_id", .str payload.opportunityId.val),
      ("planner_mode", .str payload.plannerMode.text), ("status", .str payload.status.text),
      ("proposal_ids", idsJson payload.proposalIds),
      ("rejected_output_diagnostics",
        .arr (payload.rejectedOutputDiagnostics.map Diagnostic.toJson)),
      ("context_pack_hashes", textsJson payload.contextPackHashes),
      ("council_result_id", textJson (payload.councilResultId.map Subtype.val)),
      ("provider_id", textJson (payload.providerId.map Subtype.val)),
      ("model_id", textJson payload.modelId),
      ("prompt_hash", textJson (payload.promptHash.map Subtype.val)),
      ("output_schema_hash", .str payload.outputSchemaHash.val),
      ("input_tokens", .int payload.inputTokens), ("output_tokens", .int payload.outputTokens),
      ("latency_ms", .int payload.latencyMs), ("fallback_used", .bool payload.fallbackUsed),
      ("upstream_provider_result_id",
        textJson (payload.upstreamProviderResultId.map Subtype.val))])

end Json

/-- `canonical_sha256` of a mapping -/
def hashOrRaise {φ : Type} (F : Floats φ) (j : Json φ) : Except PlannerError HashRef :=
  match canonicalSha256 F j with
  | none => .error unwritable
  | some hash => .ok hash

theorem plannerResult_isStem : isStem 24 "planner_result_" := by decide +kernel

/-- `PlannerResult(planner_result_id=f"planner_result_{identity[-24:]}", **payload)` -/
def ResultPayload.result (payload : ResultPayload) (identity : HashRef) :
    Except PlannerError PlannerResult := do
  payload.check
  return ⟨payload, hashedId "planner_result_" 24 identity plannerResult_isStem⟩

end NovaRtl.Planner
