import NovaRtl.Order.Frontier
import NovaRtl.Planner.Authorization
import NovaRtl.Planner.Results

/-!
# The heuristic planner

`HeuristicPlanner` of `planner/heuristic.py`. It selects from proposals that it was built with, and
the other planners fall back on it.
-/

namespace NovaRtl.Planner

open Text

variable {φ : Type}

/-! ## Resolving identifiers -/

/-- `tuple(table[item] for item in ids)`; no value is a `KeyError`. -/
def resolveIds (table : List (OptimizationProposal φ)) (ids : List Identifier) :
    Option (List (OptimizationProposal φ)) :=
  ids.mapM (Table.lookup OptimizationProposal.proposalId table)

theorem resolveIds_map {table items : List (OptimizationProposal φ)}
    (h : ∀ item ∈ items,
      Table.lookup OptimizationProposal.proposalId table item.proposalId = some item) :
    resolveIds table (items.map OptimizationProposal.proposalId) = some items := by
  unfold resolveIds
  induction items with
  | nil => rfl
  | cons item items ih =>
    obtain ⟨hitem, hitems⟩ := List.forall_mem_cons.mp h
    simp [hitem, ih hitems]

/-- `self._resolved.update({item.proposal_id: item for item in proposals})` -/
def updateResolved (resolved proposals : List (OptimizationProposal φ)) :
    List (OptimizationProposal φ) :=
  proposals.foldl (Table.assign OptimizationProposal.proposalId) resolved

/-! ## The planner -/

structure HeuristicPlanner (φ : Type) where
  opportunities : List OptimizationOpportunity
  proposals : List (OptimizationProposal φ)
  registry : TransformRegistry φ
  outputSchemaHash : HashRef
  opportunities_nodup : (opportunities.map OptimizationOpportunity.opportunityId).Nodup
  proposals_nodup : (proposals.map OptimizationProposal.proposalId).Nodup

namespace HeuristicPlanner

variable (planner : HeuristicPlanner φ) (request : PlannerRequest)

/-- `self._by_opportunity[opportunity_id]` -/
def byOpportunity (opportunityId : Identifier) : List (OptimizationProposal φ) :=
  sortedBy (fun item => item.proposalId.val)
    (planner.proposals.filter fun item => item.opportunityId = opportunityId)

def selected (opportunity : OptimizationOpportunity) : List (OptimizationProposal φ) :=
  ((planner.byOpportunity request.opportunityId).filter fun item =>
    isSafe planner.registry item opportunity request).take request.proposalLimit

def payload (selected : List (OptimizationProposal φ)) : ResultPayload where
  runId := request.runId
  opportunityId := request.opportunityId
  plannerMode := .heuristic
  status := if selected = [] then .noSafeProposal else .pass
  proposalIds := selected.map OptimizationProposal.proposalId
  rejectedOutputDiagnostics := []
  contextPackHashes := []
  councilResultId := none
  providerId := none
  modelId := none
  promptHash := none
  outputSchemaHash := planner.outputSchemaHash
  inputTokens := 0
  outputTokens := 0
  latencyMs := 0
  fallbackUsed := false
  upstreamProviderResultId := none

/-- The checks of `propose`. -/
def opportunityFor : Except PlannerError OptimizationOpportunity := do
  require (request.plannerMode = .heuristic)
    (.plannerIntegrity "heuristic planner requires HEURISTIC mode")
  require (request.transformRegistryHash = planner.registry.registryHash)
    (.plannerIntegrity "planner transform registry identity changed")
  require (request.requiredOutputSchemaName = "optimization-proposal" ∧
      request.requiredOutputSchemaVersion = 2)
    (.plannerIntegrity "planner output schema is unsupported")
  match getOpportunity planner.opportunities request.opportunityId with
  | none => .error (.plannerIntegrity "planner opportunity identity is unknown")
  | some opportunity => do
    require (opportunity.parentCandidateId = request.parentCandidateId)
      (.plannerIntegrity "planner opportunity parent identity changed")
    return opportunity

/-- `HeuristicPlanner.propose` -/
def propose : Except PlannerError PlannerResult := do
  let opportunity ← planner.opportunityFor request
  let payload := planner.payload request (planner.selected request opportunity)
  let identity ← hashOrRaise noFloats (.obj
    [("planner_request_id", .str request.plannerRequestId.val), ("result", payload.toJson true)])
  payload.result identity

/-- `HeuristicPlanner.proposals_for` -/
def proposalsFor (result : PlannerResult) : Except PlannerError (List (OptimizationProposal φ)) :=
  match resolveIds planner.proposals result.proposalIds with
  | none => .error (.plannerIntegrity "planner result references an unknown proposal")
  | some items => .ok items

/-! ## What the planner selects -/

variable {planner request} {opportunity : OptimizationOpportunity}

theorem selected_sublist : (planner.selected request opportunity).Sublist
    (planner.byOpportunity request.opportunityId) :=
  (List.take_sublist _ _).trans List.filter_sublist

theorem mem_of_mem_selected {item : OptimizationProposal φ}
    (h : item ∈ planner.selected request opportunity) : item ∈ planner.proposals := by
  have hmem := selected_sublist.subset h
  rw [byOpportunity, mem_sortedBy] at hmem
  exact List.mem_of_mem_filter hmem

theorem selected_nodup :
    ((planner.selected request opportunity).map OptimizationProposal.proposalId).Nodup := by
  refine (selected_sublist.map _).nodup ?_
  rw [byOpportunity, ((sortedBy_perm _ _).map _).nodup_iff]
  exact (List.filter_sublist.map _).nodup planner.proposals_nodup

theorem payload_check :
    (planner.payload request (planner.selected request opportunity)).check = .ok () := by
  have hstatus : planner.selected request opportunity = [] ∨
      planner.selected request opportunity ≠ [] := eq_or_ne _ _
  simp only [ResultPayload.check, seq_eq_ok, require_eq_ok]
  rcases hstatus with hnone | hsome
  · simp [payload, hnone]
  · simp [payload, hsome, selected_nodup]

theorem payload_toJson_writable :
    ((planner.payload request (planner.selected request opportunity)).toJson true :
      Json Empty).writable := by
  simp [ResultPayload.toJson, payload, idsJson, Json.writable_int_of_lt]

/-- A request that passes the checks is answered, and the answer is resolved. -/
theorem propose_ok (h : planner.opportunityFor request = .ok opportunity) :
    ∃ result, planner.propose request = .ok result ∧
      result.toResultPayload = planner.payload request (planner.selected request opportunity) ∧
      planner.proposalsFor result = .ok (planner.selected request opportunity) := by
  obtain ⟨hash, hhash⟩ := Option.isSome_iff_exists.mp (isSome_canonicalSha256 (F := noFloats)
    (j := .obj [("planner_request_id", .str request.plannerRequestId.val),
      ("result", (planner.payload request (planner.selected request opportunity)).toJson true)])
    |>.mpr (by simp [payload_toJson_writable]))
  have hresolve : resolveIds planner.proposals
      ((planner.selected request opportunity).map OptimizationProposal.proposalId) =
        some (planner.selected request opportunity) :=
    resolveIds_map fun item hitem =>
      (Table.lookup_eq_some planner.proposals_nodup).mpr ⟨mem_of_mem_selected hitem, rfl⟩
  refine ⟨⟨planner.payload request (planner.selected request opportunity),
    hashedId "planner_result_" 24 hash⟩, ?_, rfl, ?_⟩
  · simp only [propose, h, hashOrRaise, hhash, ResultPayload.result, payload_check, bind,
      Except.bind]
    rfl
  · simp only [proposalsFor, payload, hresolve]

end HeuristicPlanner

end NovaRtl.Planner
