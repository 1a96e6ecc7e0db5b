import NovaRtl.Recovery.Selection

/-!
# The two entry points of the router

`route_recovery` and `route_recovery_envelope` share the plan and so the choice. They name the
request by recipes of their own: the envelope's request is the one of the routed decision exactly if
the two recipes give one identity and one hash.
-/

namespace NovaRtl.Recovery

section Agreement

variable (hashes : RouterHashes) (failure : FailureEvent) (directive : RepairDirective)
  (history : RecoveryHistory) (budgets : RecoveryBudgets) (policy : RecoveryPolicyRegistry)

/-- The request that `route_recovery` names in its decision. -/
def routedHash (plan : Plan hashes) : String :=
  hashes.routedRequest failure.failureEventId directive.repairDirectiveId
    plan.plan.1.routePlanHash budgets.deadline

def routedId (plan : Plan hashes) : EntityId :=
  entityId "recovery_request"
    (hashes.routedRequestId (routedHash hashes failure directive budgets plan))

/-- Both recipes give the same identity and the same hash. -/
def SameRequest (fingerprintIds : List EntityId) : Prop :=
  ∃ plan, makePlan hashes failure directive history budgets policy = .ok plan ∧
    routedId hashes failure directive budgets plan =
      (requestFor hashes failure directive budgets policy plan fingerprintIds).recoveryRequestId ∧
    routedHash hashes failure directive budgets plan =
      hashes.request (requestFor hashes failure directive budgets policy plan fingerprintIds)

/-- What two decisions choose. -/
structure SameChoice (first second : DecisionPayload) : Prop where
  action : first.action = second.action
  parent : first.nextParentCandidateId = second.nextParentCandidateId
  excluded : first.excludedTransformFamilies = second.excludedTransformFamilies
  family : first.remainingFamilyBudget = second.remainingFamilyBudget
  lineage : first.remainingLineageBudget = second.remainingLineageBudget

variable {hashes failure directive history budgets policy}
  {decision : Accepted (RecoveryDecision.check hashes.toHashes)}
  {envelope : RecoveryEnvelope hashes.toHashes} {advice : Option RecoveryAction}
  {fingerprintIds : List EntityId}

theorem routeRecovery_eq_ok
    (h : routeRecovery hashes failure directive history budgets policy advice = .ok decision) :
    ∃ plan, makePlan hashes failure directive history budgets policy = .ok plan ∧
      makeDecision hashes failure budgets policy plan
        (routedId hashes failure directive budgets plan)
        (routedHash hashes failure directive budgets plan) = .ok decision := by
  simp only [routeRecovery, bind_eq_ok] at h
  obtain ⟨plan, hplan, -, -, hdecision⟩ := h
  exact ⟨plan, hplan, hdecision⟩

theorem routeRecoveryEnvelope_eq_ok
    (h : routeRecoveryEnvelope hashes failure directive history budgets policy fingerprintIds =
      .ok envelope) :
    ∃ plan, makePlan hashes failure directive history budgets policy = .ok plan ∧
      envelope.request.1.toRequestPayload =
        requestFor hashes failure directive budgets policy plan fingerprintIds ∧
      envelope.request.1.requestHash =
        hashes.request (requestFor hashes failure directive budgets policy plan fingerprintIds) ∧
      makeDecision hashes failure budgets policy plan envelope.request.1.recoveryRequestId
        envelope.request.1.requestHash = .ok envelope.decision ∧
      validateRecoveryAuthorityChain hashes.toHashes failure directive envelope.request.1
        envelope.decision.1 = .ok () := by
  simp only [routeRecoveryEnvelope, bind_eq_ok, construct_eq_ok, pure, Except.pure,
    Except.ok.injEq] at h
  obtain ⟨plan, hplan, request, hrequest, decision, hdecision, ⟨⟩, hvalid, rfl⟩ := h
  refine ⟨plan, hplan, ?_, ?_, hdecision, hvalid⟩
  · rw [hrequest]
  · rw [hrequest]

theorem makeDecision_sameChoice {plan : Plan hashes} {id id' hash hash' : String}
    {first second : Accepted (RecoveryDecision.check hashes.toHashes)}
    (hfirst : makeDecision hashes failure budgets policy plan id hash = .ok first)
    (hsecond : makeDecision hashes failure budgets policy plan id' hash' = .ok second) :
    SameChoice first.1.toDecisionPayload second.1.toDecisionPayload := by
  rw [makeDecision, construct_eq_ok] at hfirst hsecond
  rw [hfirst, hsecond]
  exact ⟨rfl, rfl, rfl, rfl, rfl⟩

theorem makeDecision_request {plan : Plan hashes} {id hash : String}
    (h : makeDecision hashes failure budgets policy plan id hash = .ok decision) :
    decision.1.recoveryRequestId = id ∧ decision.1.recoveryRequestHash = hash := by
  rw [makeDecision, construct_eq_ok] at h
  rw [h]
  exact ⟨rfl, rfl⟩

/-- The chain resolves a decision's request by its identity and its hash. -/
theorem request_of_valid {request : RecoveryRequest} {routed : RecoveryDecision}
    (h : validateRecoveryAuthorityChain hashes.toHashes failure directive request routed =
      .ok ()) :
    routed.recoveryRequestId = request.recoveryRequestId ∧
      routed.recoveryRequestHash = request.requestHash := by
  simp only [validateRecoveryAuthorityChain, seq_eq_ok] at h
  have hdecision := h.2
  simp only [validateDecision, seq_eq_ok, require_eq_ok] at hdecision
  exact ⟨hdecision.1.2.1, hdecision.1.2.2.1⟩

/-- A routed decision that passes names the request of the envelope. -/
theorem sameRequest_of_passes
    (hroute : routeRecovery hashes failure directive history budgets policy advice = .ok decision)
    (henvelope : routeRecoveryEnvelope hashes failure directive history budgets policy
      fingerprintIds = .ok envelope)
    (hpasses : validateRecoveryAuthorityChain hashes.toHashes failure directive envelope.request.1
      decision.1 = .ok ()) :
    SameRequest hashes failure directive history budgets policy fingerprintIds := by
  obtain ⟨plan, hplan, hrouted⟩ := routeRecovery_eq_ok hroute
  obtain ⟨plan', hplan', hpayload, hhash, -⟩ := routeRecoveryEnvelope_eq_ok henvelope
  obtain rfl : plan = plan' := by
    rw [hplan] at hplan'
    exact Except.ok.inj hplan'
  obtain ⟨hid, hrequestHash⟩ := request_of_valid hpasses
  obtain ⟨hroutedId, hroutedHash⟩ := makeDecision_request hrouted
  refine ⟨plan, hplan, ?_, ?_⟩
  · rw [← hroutedId, hid, hpayload]
  · rw [← hroutedHash, hrequestHash, hhash]

end Agreement

/-! ## One failure at both entry points -/

def sampleRouterHashes : RouterHashes where
  toHashes := sampleHashes.toHashes
  planId _ _ _ := "sha256:9f0da1db4b6fc4d8b2c6a5f2bc80bb1a9b3a6f0bd0a1e1d8ffdf6a83f7a0a0d2"
  routedRequest _ _ _ _ :=
    "sha256:51d5cfa0bbf75b50eb1e0b1b28b1e8a0cf1c7a2f9adf4e2c7aab3a4c0f6d8b77"
  routedRequestId _ := "sha256:2c54b3f2f6d5a1b2b4f7c5be0ea02e5a61cc10cc90e2ddde07ff1a3c11b7a8e4"
  requestId _ _ := "sha256:e3a1c6f5b7d80942bb6a7d64cf0f5b3d29e9d3f8c5a4b6e7f8091a2b3c4d5e6f"
  decisionId requestHash _ := requestHash

def sampleBudgets : RecoveryBudgets := ⟨2, 4, 0, 1000, 4102444800⟩

def sampleActions : List RecoveryAction := [.localParameterRevision, .abandonLineage]

theorem sampleRouted_isOk :
    (routeRecovery sampleRouterHashes sampleFailure sampleDirective ⟨0, [], none⟩ sampleBudgets
        (uniformPolicy sampleActions (by decide)) none).isOk ∧
      (routeRecoveryEnvelope sampleRouterHashes sampleFailure sampleDirective ⟨0, [], none⟩
        sampleBudgets (uniformPolicy sampleActions (by decide)) ["fingerprint_one"]).isOk := by
  decide +kernel

theorem not_sameRequest_sample : ¬ SameRequest sampleRouterHashes sampleFailure sampleDirective
    ⟨0, [], none⟩ sampleBudgets (uniformPolicy sampleActions (by decide)) ["fingerprint_one"] := by
  rintro ⟨plan, -, -, hhash⟩
  have : "sha256:51d5cfa0bbf75b50eb1e0b1b28b1e8a0cf1c7a2f9adf4e2c7aab3a4c0f6d8b77" =
      sampleRequest.requestHash := hhash
  exact absurd this (by decide)

theorem exists_ok_of_isOk {α : Type} {answer : Except String α} (h : answer.isOk) :
    ∃ a, answer = .ok a := by
  cases answer with
  | error e => cases h
  | ok a => exact ⟨a, rfl⟩

end NovaRtl.Recovery
