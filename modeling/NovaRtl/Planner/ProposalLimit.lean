import NovaRtl.Planner.CouncilRecords

/-!
# Limits on the proposals of a result

A result of a planner lists distinct proposals that its check accepts. The heuristic planner and the
single-agent planner cut the list at the limit of the request. The council compares what its chair
submits with the limit of its own policy only.
-/

namespace NovaRtl.Planner

open Text Transact

variable {φ : Type} {F : Floats φ}

/-- The identifiers are distinct and within the limit, and each is one of an accepted proposal. -/
structure Within (limit : ℕ) (accepts : OptimizationProposal φ → Prop) (ids : List Identifier)
    (resolved : Except PlannerError (List (OptimizationProposal φ))) : Prop where
  length_le : ids.length ≤ limit
  nodup : ids.Nodup
  accepted : ∃ proposals, resolved = .ok proposals ∧
    proposals.map OptimizationProposal.proposalId = ids ∧ ∀ item ∈ proposals, accepts item

variable {limit : ℕ} {accepts : OptimizationProposal φ → Prop} {ids : List Identifier}
  {resolved proposals : List (OptimizationProposal φ)}

/-- Proposals with distinct identifiers are resolved to themselves right after they are recorded. -/
theorem resolveIds_updateResolved
    (h : (proposals.map OptimizationProposal.proposalId).Nodup) :
    resolveIds (updateResolved resolved proposals)
      (proposals.map OptimizationProposal.proposalId) = some proposals :=
  resolveIds_map fun _ hitem => Table.lookup_foldl_assign h hitem

/-! ## The heuristic planner -/

namespace HeuristicPlanner

variable {planner : HeuristicPlanner φ} {request : PlannerRequest} {result : PlannerResult}
  {opportunity : OptimizationOpportunity}

/-- The check of the heuristic planner. -/
def Accepts (planner : HeuristicPlanner φ) (request : PlannerRequest)
    (item : OptimizationProposal φ) : Prop :=
  ∃ opportunity, planner.opportunityFor request = .ok opportunity ∧
    isSafe planner.registry item opportunity request

theorem length_selected_le :
    (planner.selected request opportunity).length ≤ request.proposalLimit :=
  List.length_take_le _ _

theorem accepts_of_mem_selected (h : planner.opportunityFor request = .ok opportunity)
    {item : OptimizationProposal φ} (hitem : item ∈ planner.selected request opportunity) :
    planner.Accepts request item := by
  have hsafe := List.mem_of_mem_take hitem
  exact ⟨opportunity, h, (List.mem_filter.mp hsafe).2⟩

theorem propose_within (h : planner.propose request = .ok result) :
    Within request.proposalLimit (planner.Accepts request) result.proposalIds
      (planner.proposalsFor result) := by
  obtain ⟨opportunity, hopportunity, -⟩ := bind_eq_ok.mp h
  obtain ⟨answer, hanswer, hpayload, hproposals⟩ := propose_ok hopportunity
  obtain rfl : answer = result := Except.ok.inj (hanswer.symm.trans h)
  have hids : answer.proposalIds = (planner.selected request opportunity).map
      OptimizationProposal.proposalId := congrArg ResultPayload.proposalIds hpayload
  refine ⟨?_, hids ▸ selected_nodup, _, hproposals, hids.symm, fun item hitem =>
    accepts_of_mem_selected hopportunity hitem⟩
  rw [hids, List.length_map]
  exact length_selected_le

end HeuristicPlanner

/-! ## The single-agent planner -/

namespace SingleAgentPlanner

variable {planner : SingleAgentPlanner F} {call : SingleAgentCall} {messages : List Message}
  {result : ProviderResult} {s t : SingleAgentState φ} {planned : PlannerResult}

/-- The check of the single-agent planner. -/
def Accepts (planner : SingleAgentPlanner F) (request : PlannerRequest) (fallbackUsed : Bool)
    (item : OptimizationProposal φ) : Prop :=
  if fallbackUsed then planner.heuristic.Accepts { request with plannerMode := .heuristic } item
  else semanticError planner.registry planner.opportunities item request = none

/-- Accepted proposals are within the limit, and each has no semantic error. -/
theorem judge_accepted {items accepted : List (OptimizationProposal φ)}
    (h : planner.judge call items = .accepted accepted) :
    accepted.length ≤ call.request.proposalLimit ∧ ∀ item ∈ accepted,
      semanticError planner.registry planner.opportunities item call.request = none := by
  unfold judge at h
  dsimp only at h
  split at h
  next hnone =>
    obtain rfl := Verdict.accepted.inj h
    exact ⟨List.length_take_le _ _, fun item hitem => List.filterMap_eq_nil_iff.mp hnone item hitem⟩
  · cases h

theorem adviseRepair_accepted {output : Json φ} {firstError : String} {last : ProviderResult}
    {accepted : List (OptimizationProposal φ)}
    (h : (planner.adviseRepair call result output firstError).verdict =
      .ok (last, .accepted accepted)) : ∃ items, planner.judge call items = .accepted accepted := by
  unfold adviseRepair at h
  obtain ⟨verdict, hverdict, heq⟩ := map_eq_ok.mp h
  obtain ⟨-, rfl⟩ := Prod.mk.inj heq
  split at hverdict
  · cases hverdict
  · split at hverdict
    · cases hverdict
    · split at hverdict
      · cases hverdict
      next items _ => exact ⟨items, Except.ok.inj hverdict⟩

theorem advise_accepted {last : ProviderResult} {accepted : List (OptimizationProposal φ)}
    (h : (planner.advise call messages).verdict = .ok (last, .accepted accepted)) :
    ∃ items, planner.judge call items = .accepted accepted := by
  unfold advise at h
  dsimp only at h
  split at h
  · cases h
  · split at h
    · cases h
    · split at h
      · exact adviseRepair_accepted h
      next items _ => exact ⟨items, (Prod.mk.inj (Except.ok.inj h)).2⟩

theorem propose_within (h : planner.propose call s = .ok (planned, proposals) t) :
    Within call.request.proposalLimit (planner.Accepts call.request planned.fallbackUsed)
      planned.proposalIds (planner.proposalsFor t planned) := by
  obtain ⟨⟨pack, messages⟩, u, hprepare, h⟩ := bind_ok.mp h
  obtain ⟨_, v, hmodify, h⟩ := bind_ok.mp h
  obtain rfl := modify_ok.mp hmodify
  obtain ⟨⟨result, verdict⟩, hverdict, h⟩ := ofExcept_bind_ok.mp h
  -- the listed proposals are recorded on both ways
  have hwithin : ∀ {w : SingleAgentState φ} {status : ResultStatus} {diagnostics : List Diagnostic}
      {fallbackUsed : Bool}, t = w.resolve proposals →
      planned.toResultPayload = planner.payload call w pack result status
        (proposals.map OptimizationProposal.proposalId) diagnostics fallbackUsed →
      proposals.length ≤ call.request.proposalLimit →
      (proposals.map OptimizationProposal.proposalId).Nodup →
      (∀ item ∈ proposals, planner.Accepts call.request fallbackUsed item) →
      Within call.request.proposalLimit (planner.Accepts call.request planned.fallbackUsed)
        planned.proposalIds (planner.proposalsFor t planned) := by
    rintro w status diagnostics fallbackUsed rfl hpayload hlength hnodup haccepts
    have hids : planned.proposalIds = proposals.map OptimizationProposal.proposalId :=
      congrArg ResultPayload.proposalIds hpayload
    have hfallback : planned.fallbackUsed = fallbackUsed :=
      congrArg ResultPayload.fallbackUsed hpayload
    rw [hids, hfallback]
    refine ⟨by rwa [List.length_map], hnodup, proposals, ?_, rfl, haccepts⟩
    simp only [proposalsFor, hids, SingleAgentState.resolve, resolveIds_updateResolved hnodup]
  cases verdict with
  | accepted accepted =>
    obtain ⟨items, hjudge⟩ := advise_accepted hverdict
    obtain ⟨hlength, hchecked⟩ := judge_accepted hjudge
    obtain ⟨rfl, rfl, ⟨status, hpayload⟩, -, hnodup⟩ := (conclude_ends accepted).of_ok h
    exact hwithin rfl hpayload hlength hnodup fun item hitem => by
      simpa [Accepts] using hchecked item hitem
  | rejected diagnostics =>
    obtain ⟨opportunity, hopportunity, rfl, rfl, ⟨status, hpayload⟩, -⟩ :=
      (fallback_ends (advise_rejected hverdict)).of_ok h
    refine hwithin rfl hpayload HeuristicPlanner.length_selected_le HeuristicPlanner.selected_nodup
      fun item hitem => ?_
    exact HeuristicPlanner.accepts_of_mem_selected hopportunity hitem

end SingleAgentPlanner

/-! ## The council -/

namespace CouncilPlanner

variable {planner : CouncilPlanner F} {call : CouncilCall φ} {s t : CouncilState φ}
  {planned : PlannerResult} {basis : Basis φ}

/-- The check of the council. -/
def Accepts (planner : CouncilPlanner F) (request : PlannerRequest) (fallbackUsed : Bool)
    (item : OptimizationProposal φ) : Prop :=
  if fallbackUsed then planner.heuristic.Accepts { request with plannerMode := .heuristic } item
  else proposalIsAuthorized planner.registry planner.opportunities item request = some true

/-- The chair, if there was a deliberation, submitted no more identifiers than the limit. -/
def ChairWithin (planner : CouncilPlanner F) (limit : ℕ) : Basis φ → Prop
  | .deliberated minutes => ∀ chair, planner.readChair minutes.chair.outcome.output = some chair →
      chair.finalIds.length ≤ limit
  | .heuristic _ => True

/-- Besides the limit everything holds of each result. -/
theorem propose_within_iff (h : planner.propose call s = .ok (planned, basis) t) :
    Within call.request.proposalLimit (planner.Accepts call.request planned.fallbackUsed)
        planned.proposalIds (proposalsFor t planned) ↔
      planner.ChairWithin call.request.proposalLimit basis := by
  rcases propose_ok h with ⟨minutes, rfl, hdeliberate⟩ | ⟨e, u, proposals, rfl, hfallback⟩
  · obtain ⟨hlists, resolved, hresolved⟩ := deliberate_lists hdeliberate
    obtain ⟨chair, hchair, hlength, -⟩ := hlists.submitted
    have hresolve : proposalsFor t planned = .ok minutes.chosen := by
      have hnodup := hlists.nodup
      rw [hlists.ids] at hnodup
      simp only [proposalsFor, hlists.ids, hresolved, resolveIds_updateResolved hnodup]
    constructor
    · intro hwithin chair' hchair'
      obtain rfl : chair = chair' := Option.some.inj (hchair.symm.trans hchair')
      exact hlength ▸ hwithin.length_le
    · intro hlimit
      refine ⟨hlength ▸ hlimit chair hchair, hlists.nodup, minutes.chosen, hresolve,
        hlists.ids.symm, fun item hitem => ?_⟩
      rw [Accepts, hlists.not_fallback]
      exact hlists.authorized item hitem
  · obtain ⟨opportunity, hopportunity, rfl, hids, hused, resolved, hresolved⟩ :=
      fallback_ok hfallback
    refine iff_of_true ⟨?_, ?_, _, ?_, hids.symm, fun item hitem => ?_⟩ trivial
    · rw [hids, List.length_map]
      exact HeuristicPlanner.length_selected_le
    · exact hids ▸ HeuristicPlanner.selected_nodup
    · simp only [proposalsFor, hids, hresolved,
        resolveIds_updateResolved HeuristicPlanner.selected_nodup]
    · rw [Accepts, hused]
      exact HeuristicPlanner.accepts_of_mem_selected hopportunity hitem

theorem chairWithin_of_policy (h : planner.propose call s = .ok (planned, basis) t)
    (hpolicy : planner.policy.maxFinalProposals ≤ limit) : planner.ChairWithin limit basis := by
  rcases propose_ok h with ⟨minutes, rfl, hdeliberate⟩ | ⟨-, -, proposals, rfl, -⟩
  · obtain ⟨chair, hchair, -, hle⟩ := (deliberate_lists hdeliberate).1.submitted
    intro chair' hchair'
    obtain rfl : chair = chair' := Option.some.inj (hchair.symm.trans hchair')
    exact hle.trans hpolicy
  · trivial

end CouncilPlanner

/-! ## All planners -/

end NovaRtl.Planner
