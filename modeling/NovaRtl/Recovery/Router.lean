import Mathlib.Data.List.Basic
import NovaRtl.Contracts.Recovery

/-!
# Recovery routing

`recovery/router.py`: one action for a failure, under the budgets and the history of its lineage.
`routing_terminates` follows a lineage through any failures: what the lineage has left shrinks with
every nonterminal decision.
-/

namespace NovaRtl.Recovery

structure RecoveryRule where
  ruleId : String
  priority : ℕ
  repairability : Repairability
  retryable : Bool
  severity : FailureSeverity
  allowedActions : List RecoveryAction
  requiredEvidenceKinds : List String
  allowedActions_ne_nil : allowedActions ≠ []
  requiredEvidenceKinds_ne_nil : requiredEvidenceKinds ≠ []

/-- An accepted registry has one rule for every failure family. -/
structure RecoveryPolicyRegistry where
  policyVersion : String
  similarityThreshold : ℚ
  wnsProgressEpsilonNs : ℚ
  areaProgressEpsilonPercent : ℚ
  repeatedFailureCount : ℕ
  maxRecoveryDepth : ℕ
  rules : FailureFamily → RecoveryRule
  policyHash : String
  similarityThreshold_mem : 0 ≤ similarityThreshold ∧ similarityThreshold ≤ 1
  wnsProgressEpsilonNs_nonneg : 0 ≤ wnsProgressEpsilonNs
  areaProgressEpsilonPercent_nonneg : 0 ≤ areaProgressEpsilonPercent
  repeatedFailureCount_pos : 0 < repeatedFailureCount
  ruleIds_unique : Function.Injective fun family => (rules family).ruleId

structure RecoveryBudgets where
  remainingFamilyBudget : ℕ
  remainingLineageBudget : ℕ
  remainingTokenBudget : ℕ
  remainingLatencyBudgetMs : ℕ
  deadline : ℕ

structure RecoveryHistory where
  recoveryDepth : ℕ
  previousActions : List RecoveryAction
  currentTransformFamily : Option String

structure RecoveryEnvelope (hashes : Hashes) where
  routePlan : Accepted (RecoveryRoutePlan.check hashes)
  request : Accepted (RecoveryRequest.check hashes)
  decision : Accepted (RecoveryDecision.check hashes)

def defaultAction : FailureFamily → RecoveryAction
  | .baselineInputError => .stopRunOrRequestHuman
  | .analysisViewOrActivityMismatch => .stopRunOrRequestHuman
  | .infrastructureTransient => .retryInfrastructure
  | .adapterOrParserError => .correctExecutorOutput
  | .constraintBindingDelta => .rejectCandidate
  | .cdcInvariantDelta => .rejectCandidate
  | .formalModelMismatch => .stopRunOrRequestHuman
  | .invalidProposalSchema => .repairSchema
  | .unknownOrInapplicableTransform => .rejectCandidate
  | .protectedStructureViolation => .rejectCandidate
  | .rtlParseOrElabFailure => .narrowTransformScope
  | .fastSynthStructuralFailure => .narrowTransformScope
  | .formalSemanticFailure => .narrowTransformScope
  | .formalInconclusive => .repartitionFormalProof
  | .timingNoGain => .localParameterRevision
  | .timingRegression => .switchTransformFamily
  | .criticalPathMigration => .opportunityReanalysis
  | .holdRegression => .localParameterRevision
  | .areaPolicyViolation => .localParameterRevision
  | .powerPolicyViolation => .localParameterRevision
  | .physicalCorrelationMiss => .physicalOnlyRecommendation
  | .congestionOrRoutabilityRisk => .localParameterRevision
  | .repeatedNonProgress => .targetNewPathCluster
  | .validButDominated => .abandonLineage

def escalationLevel : RecoveryAction → ℕ
  | .retryInfrastructure => 0
  | .repairSchema | .correctExecutorOutput => 1
  | .localParameterRevision | .narrowTransformScope => 2
  | .switchOperationSameFamily | .switchTransformFamily | .repartitionFormalProof => 3
  | .opportunityReanalysis | .targetNewPathCluster | .branchFromAlternateParent => 5
  | .physicalOnlyRecommendation | .rejectCandidate | .abandonLineage
  | .stopRunOrRequestHuman => 6

/-- The hashes of the payloads that identities are made of. -/
structure RouterHashes extends Hashes where
  planId : EntityId → EntityId → RecoveryAction → String
  routedRequest : EntityId → EntityId → String → ℕ → String
  routedRequestId : String → String
  requestId : String → EntityId → String
  decisionId : String → RecoveryAction → String

/-- `_id` -/
def entityId (label hash : String) : EntityId :=
  label ++ "_" ++ String.ofList ((hashDigits hash).toList.take 20)

def terminalAction (allowed : List RecoveryAction) : Except String RecoveryAction :=
  match [RecoveryAction.abandonLineage, .rejectCandidate, .stopRunOrRequestHuman].find?
      (· ∈ allowed) with
  | some action => .ok action
  | none => .error "exhausted recovery policy has no terminal action"

/-- The first allowed action that is eligible, or else a terminal one. -/
def escalate (allowed : List RecoveryAction) (eligible : RecoveryAction → Bool) :
    Except String RecoveryAction :=
  match allowed.find? eligible with
  | some action => .ok action
  | none => terminalAction allowed

/-- The highest level of the history. An empty history is below every action, as level zero is. -/
def previousLevel (actions : List RecoveryAction) : ℕ :=
  (actions.map escalationLevel).foldr max 0

/-- The default action of the family, or a higher one if the family's budget is spent. -/
def budgetedAction (allowed : List RecoveryAction) (failure : FailureEvent)
    (budgets : RecoveryBudgets) : Except String RecoveryAction :=
  if budgets.remainingFamilyBudget = 0 ∧
      escalationLevel (defaultAction failure.failureFamily) ≤ 3 then
    escalate allowed fun item =>
      escalationLevel .opportunityReanalysis ≤ escalationLevel item ∧ item ∉ terminalActions
  else .ok (defaultAction failure.failureFamily)

/-- `_select_action` -/
def selectAction (failure : FailureEvent) (history : RecoveryHistory) (budgets : RecoveryBudgets)
    (policy : RecoveryPolicyRegistry) : Except String RecoveryAction :=
  let allowed := (policy.rules failure.failureFamily).allowedActions
  if failure.repairability = .humanReview ∨
      failure.retryable = false ∧ defaultAction failure.failureFamily ∉ terminalActions then
    if .stopRunOrRequestHuman ∈ allowed then .ok .stopRunOrRequestHuman
    else terminalAction allowed
  else if budgets.remainingLineageBudget = 0 ∨
      policy.maxRecoveryDepth ≤ history.recoveryDepth then
    terminalAction allowed
  else do
    let selected ← budgetedAction allowed failure budgets
    if escalationLevel selected < previousLevel history.previousActions then
      escalate allowed fun item => previousLevel history.previousActions ≤ escalationLevel item
    else .ok selected

section Route

variable (hashes : RouterHashes) (failure : FailureEvent) (directive : RepairDirective)
  (history : RecoveryHistory) (budgets : RecoveryBudgets) (policy : RecoveryPolicyRegistry)

structure Plan where
  plan : Accepted (RecoveryRoutePlan.check hashes.toHashes)
  action : RecoveryAction
  parent : Option EntityId
  excluded : List String

/-- The parent of the next candidate. -/
def nextParent (action : RecoveryAction) : Except String (Option EntityId) :=
  if action ∈ terminalActions then .ok none
  else
    let preferred :=
      if action = .retryInfrastructure then failure.candidateId else failure.parentCandidateId
    match preferred.or failure.candidateId with
    | some parent => .ok (some parent)
    | none => .error "nonterminal recovery has no authorized parent"

def excludedFamilies : List String :=
  if failure.failureFamily = .repeatedNonProgress then history.currentTransformFamily.toList else []

/-- `_plan` -/
def makePlan : Except String (Plan hashes) := do
  let action ← selectAction failure history budgets policy
  let parent ← nextParent failure action
  let excluded := excludedFamilies failure history
  let payload : RoutePlanPayload :=
    { recoveryRoutePlanId := entityId "route_plan"
        (hashes.planId failure.failureEventId directive.repairDirectiveId action)
      failureEventId := failure.failureEventId
      repairDirectiveId := directive.repairDirectiveId
      allowedActions := (policy.rules failure.failureFamily).allowedActions
      eligibleRoles := directive.recommendedRoles
      excludedTransformFamilies := excluded
      nextParentCandidateIds := parent.toList
      remainingFamilyBudget := budgets.remainingFamilyBudget
      remainingLineageBudget := budgets.remainingLineageBudget
      remainingTokenBudget := budgets.remainingTokenBudget
      remainingLatencyBudgetMs := budgets.remainingLatencyBudgetMs
      policyHash := policy.policyHash }
  let plan ← construct (RecoveryRoutePlan.check hashes.toHashes)
    { payload with routePlanHash := hashes.routePlan payload }
  return ⟨plan, action, parent, excluded⟩

/-- The decision about a plan, for a request with the given identity. -/
def decisionFor (plan : Plan hashes) (requestId requestHash : String) : DecisionPayload :=
  { recoveryDecisionId := entityId "recovery_decision" (hashes.decisionId requestHash plan.action)
    failureEventId := failure.failureEventId
    recoveryRequestId := requestId
    recoveryRequestHash := requestHash
    recoveryRoutePlanId := plan.plan.1.recoveryRoutePlanId
    recoveryRoutePlanHash := plan.plan.1.routePlanHash
    action := plan.action
    nextParentCandidateId := plan.parent
    invokeReasoning := false
    selectedRoles := []
    excludedTransformFamilies := plan.excluded
    remainingFamilyBudget := budgets.remainingFamilyBudget -
      if plan.action ∈ terminalActions then 0 else 1
    remainingLineageBudget := budgets.remainingLineageBudget -
      if plan.action ∈ terminalActions ∨ plan.action = .retryInfrastructure then 0 else 1
    reasonCodes := ["ROUTED_" ++ failure.failureFamily.text]
    policyVersion := policy.policyVersion
    recoveryAdviceId := none }

def makeDecision (plan : Plan hashes) (requestId requestHash : String) :
    Except String (Accepted (RecoveryDecision.check hashes.toHashes)) :=
  let payload := decisionFor hashes failure budgets policy plan requestId requestHash
  construct (RecoveryDecision.check hashes.toHashes)
    { payload with decisionHash := hashes.decision payload }

/-- Advice is refused. Of it, only the proposed action is read. -/
def refuseAdvice (allowed : List RecoveryAction) : Option RecoveryAction → Except String Unit
  | none => .ok ()
  | some proposedAction =>
    if proposedAction ∈ allowed then
      .error "M7 deterministic routing cannot consume recovery advice"
    else .error "recovery advice action is outside the policy envelope"

def routeRecovery (advice : Option RecoveryAction) :
    Except String (Accepted (RecoveryDecision.check hashes.toHashes)) := do
  let plan ← makePlan hashes failure directive history budgets policy
  refuseAdvice plan.plan.1.allowedActions advice
  let requestHash := hashes.routedRequest failure.failureEventId directive.repairDirectiveId
    plan.plan.1.routePlanHash budgets.deadline
  makeDecision hashes failure budgets policy plan
    (entityId "recovery_request" (hashes.routedRequestId requestHash)) requestHash

/-- The request of the envelope, without its hash. -/
def requestFor (plan : Plan hashes) (fingerprintIds : List EntityId) : RequestPayload :=
  { recoveryRequestId := entityId "recovery_request"
      (hashes.requestId plan.plan.1.routePlanHash failure.failureEventId)
    failureEventId := failure.failureEventId
    failureEventHash := hashes.failure failure
    failureFamily := failure.failureFamily
    repairDirectiveId := directive.repairDirectiveId
    repairDirectiveHash := hashes.directive directive
    recoveryRoutePlanId := plan.plan.1.recoveryRoutePlanId
    recoveryRoutePlanHash := plan.plan.1.routePlanHash
    routePlan := plan.plan.1
    candidateLineageIds := (failure.parentCandidateId.toList ++ failure.candidateId.toList ++
      [failure.subjectId]).eraseDups
    candidateFailureFingerprintIds := fingerprintIds.eraseDups
    allowedActions := plan.plan.1.allowedActions
    excludedTransformFamilies := plan.excluded
    eligibleRoles := plan.plan.1.eligibleRoles
    authorizedEvidenceIds := sortedSet
      ((failure.primaryEvidenceRefs ++ directive.evidenceRefs).map EvidenceRef.evidenceId)
    remainingFamilyBudget := budgets.remainingFamilyBudget
    remainingLineageBudget := budgets.remainingLineageBudget
    remainingTokenBudget := budgets.remainingTokenBudget
    remainingLatencyBudgetMs := budgets.remainingLatencyBudgetMs
    policyHash := policy.policyHash
    deadline := budgets.deadline }

def routeRecoveryEnvelope (fingerprintIds : List EntityId) :
    Except String (RecoveryEnvelope hashes.toHashes) := do
  let plan ← makePlan hashes failure directive history budgets policy
  let payload := requestFor hashes failure directive budgets policy plan fingerprintIds
  let request ← construct (RecoveryRequest.check hashes.toHashes)
    { payload with requestHash := hashes.request payload }
  let decision ← makeDecision hashes failure budgets policy plan
    request.1.recoveryRequestId request.1.requestHash
  validateRecoveryAuthorityChain hashes.toHashes failure directive request.1 decision.1
  return ⟨plan.plan, request, decision⟩

end Route

section Selection

variable {allowed : List RecoveryAction} {action : RecoveryAction}

theorem escalationLevel_le (action : RecoveryAction) : escalationLevel action ≤ 6 := by
  cases action <;> decide

theorem escalationLevel_of_terminal (h : action ∈ terminalActions) :
    escalationLevel action = 6 := by
  cases action <;> revert h <;> decide

theorem le_previousLevel {actions : List RecoveryAction} (h : action ∈ actions) :
    escalationLevel action ≤ previousLevel actions := by
  induction actions with
  | nil => cases h
  | cons other actions ih =>
    simp only [previousLevel, List.map_cons, List.foldr_cons, le_max_iff]
    rcases List.mem_cons.mp h with rfl | h
    · exact .inl le_rfl
    · exact .inr (ih h)

theorem previousLevel_le (actions : List RecoveryAction) : previousLevel actions ≤ 6 := by
  induction actions with
  | nil => exact Nat.zero_le _
  | cons action actions ih =>
    simp only [previousLevel, List.map_cons, List.foldr_cons, max_le_iff]
    exact ⟨escalationLevel_le action, ih⟩

theorem terminalAction_ok (h : terminalAction allowed = .ok action) :
    action ∈ terminalActions := by
  unfold terminalAction at h
  split at h
  next found hfound =>
    obtain rfl := Except.ok.inj h
    have hmem := List.mem_of_find?_eq_some hfound
    revert hmem
    cases found <;> decide
  next => cases h

theorem escalate_ok {eligible : RecoveryAction → Bool}
    (h : escalate allowed eligible = .ok action) :
    eligible action = true ∨ action ∈ terminalActions := by
  unfold escalate at h
  split at h
  next found hfound =>
    obtain rfl := Except.ok.inj h
    exact .inl (List.find?_some hfound)
  next => exact .inr (terminalAction_ok h)

variable {failure : FailureEvent} {history : RecoveryHistory} {budgets : RecoveryBudgets}
  {policy : RecoveryPolicyRegistry}

/-- Without family budget, what is selected is no retry. -/
theorem budgetedAction_level (hfamily : budgets.remainingFamilyBudget = 0)
    (h : budgetedAction allowed failure budgets = .ok action) : 0 < escalationLevel action := by
  unfold budgetedAction at h
  split_ifs at h with hlow
  · rcases escalate_ok h with heligible | hterminal
    · exact lt_of_lt_of_le (by decide) (of_decide_eq_true heligible).1
    · simp [escalationLevel_of_terminal hterminal]
  · obtain rfl := Except.ok.inj h
    omega

/-- A nonterminal action needs lineage budget and depth, and a retry needs family budget. -/
theorem selectAction_nonterminal (h : selectAction failure history budgets policy = .ok action)
    (hnonterminal : action ∉ terminalActions) :
    0 < budgets.remainingLineageBudget ∧ history.recoveryDepth < policy.maxRecoveryDepth ∧
      (budgets.remainingFamilyBudget = 0 → action ≠ .retryInfrastructure) := by
  unfold selectAction at h
  dsimp only at h
  split_ifs at h with hstop hhuman hspent
  · obtain rfl := Except.ok.inj h
    exact absurd (by decide) hnonterminal
  · exact absurd (terminalAction_ok h) hnonterminal
  · exact absurd (terminalAction_ok h) hnonterminal
  · push Not at hspent
    refine ⟨Nat.pos_of_ne_zero hspent.1, hspent.2, ?_⟩
    rintro hfamily rfl
    obtain ⟨selected, hselected, h⟩ := bind_eq_ok.mp h
    have hlevel := budgetedAction_level hfamily hselected
    split_ifs at h with hbelow
    · rcases escalate_ok h with heligible | hterminal
      · have hle := of_decide_eq_true heligible
        simp only [escalationLevel] at hle
        omega
      · exact hnonterminal hterminal
    · obtain rfl := Except.ok.inj h
      exact absurd hlevel (by decide)

/-- No action is below a level of the history. -/
theorem previousLevel_le_selectAction
    (h : selectAction failure history budgets policy = .ok action) :
    previousLevel history.previousActions ≤ escalationLevel action := by
  have hterminal : action ∈ terminalActions →
      previousLevel history.previousActions ≤ escalationLevel action := by
    intro hmem
    rw [escalationLevel_of_terminal hmem]
    exact previousLevel_le _
  unfold selectAction at h
  dsimp only at h
  split_ifs at h with hstop hhuman hspent
  · obtain rfl := Except.ok.inj h
    exact hterminal (by decide)
  · exact hterminal (terminalAction_ok h)
  · exact hterminal (terminalAction_ok h)
  · obtain ⟨selected, -, h⟩ := bind_eq_ok.mp h
    split_ifs at h with hbelow
    · rcases escalate_ok h with heligible | hmem
      · simpa using heligible
      · exact hterminal hmem
    · obtain rfl := Except.ok.inj h
      exact Nat.le_of_not_lt hbelow

end Selection

section Answers

variable {hashes : RouterHashes} {failure : FailureEvent} {directive : RepairDirective}
  {history : RecoveryHistory} {budgets : RecoveryBudgets} {policy : RecoveryPolicyRegistry}
  {plan : Plan hashes} {decision : Accepted (RecoveryDecision.check hashes.toHashes)}

/-- The action and the budgets of a decision. -/
structure Decides (history : RecoveryHistory) (budgets : RecoveryBudgets)
    (policy : RecoveryPolicyRegistry) (failure : FailureEvent) (decision : DecisionPayload) :
    Prop where
  selected : selectAction failure history budgets policy = .ok decision.action
  family : decision.remainingFamilyBudget =
    budgets.remainingFamilyBudget - if decision.action ∈ terminalActions then 0 else 1
  lineage : decision.remainingLineageBudget = budgets.remainingLineageBudget -
    if decision.action ∈ terminalActions ∨ decision.action = .retryInfrastructure then 0 else 1

theorem makePlan_action (h : makePlan hashes failure directive history budgets policy = .ok plan) :
    selectAction failure history budgets policy = .ok plan.action := by
  simp only [makePlan, bind_eq_ok, pure, Except.pure, Except.ok.injEq] at h
  obtain ⟨action, haction, parent, -, routePlan, -, rfl⟩ := h
  exact haction

theorem makeDecision_decides {requestId requestHash : String}
    (hplan : makePlan hashes failure directive history budgets policy = .ok plan)
    (h : makeDecision hashes failure budgets policy plan requestId requestHash = .ok decision) :
    Decides history budgets policy failure decision.1.toDecisionPayload := by
  rw [makeDecision, construct_eq_ok] at h
  rw [h]
  exact ⟨makePlan_action hplan, rfl, rfl⟩

theorem routeRecovery_decides {advice : Option RecoveryAction}
    (h : routeRecovery hashes failure directive history budgets policy advice = .ok decision) :
    Decides history budgets policy failure decision.1.toDecisionPayload := by
  simp only [routeRecovery, bind_eq_ok] at h
  obtain ⟨plan, hplan, -, -, h⟩ := h
  exact makeDecision_decides hplan h

theorem routeRecoveryEnvelope_decides {fingerprintIds : List EntityId}
    {envelope : RecoveryEnvelope hashes.toHashes}
    (h : routeRecoveryEnvelope hashes failure directive history budgets policy fingerprintIds =
      .ok envelope) :
    Decides history budgets policy failure envelope.decision.1.toDecisionPayload := by
  simp only [routeRecoveryEnvelope, bind_eq_ok, pure, Except.pure, Except.ok.injEq] at h
  obtain ⟨plan, hplan, request, -, decision, hdecision, -, -, rfl⟩ := h
  exact makeDecision_decides hplan hdecision

end Answers

/-- What a failure lineage carries from one request to the next. -/
structure Lineage where
  recoveryDepth : ℕ
  previousActions : List RecoveryAction
  remainingFamilyBudget : ℕ
  remainingLineageBudget : ℕ

/-- The entry point that routes a failure. -/
inductive Entry where
  | decision (advice : Option RecoveryAction)
  | envelope (fingerprintIds : List EntityId)

/-- What a request brings besides what the lineage carries. -/
structure Round where
  failure : Accepted FailureEvent.check
  directive : Accepted RepairDirective.check
  currentTransformFamily : Option String
  remainingTokenBudget : ℕ
  remainingLatencyBudgetMs : ℕ
  deadline : ℕ
  entry : Entry

namespace Lineage

variable (hashes : RouterHashes) (policy : RecoveryPolicyRegistry)

def history (lineage : Lineage) (round : Round) : RecoveryHistory :=
  ⟨lineage.recoveryDepth, lineage.previousActions, round.currentTransformFamily⟩

def budgets (lineage : Lineage) (round : Round) : RecoveryBudgets :=
  ⟨lineage.remainingFamilyBudget, lineage.remainingLineageBudget, round.remainingTokenBudget,
    round.remainingLatencyBudgetMs, round.deadline⟩

def budgetSum (lineage : Lineage) : ℕ :=
  lineage.remainingFamilyBudget + lineage.remainingLineageBudget

def route (lineage : Lineage) (round : Round) : Except String RecoveryDecision :=
  match round.entry with
  | .decision advice =>
    (routeRecovery hashes round.failure.1 round.directive.1 (lineage.history round)
      (lineage.budgets round) policy advice).map Subtype.val
  | .envelope fingerprintIds =>
    (routeRecoveryEnvelope hashes round.failure.1 round.directive.1 (lineage.history round)
      (lineage.budgets round) policy fingerprintIds).map fun envelope => envelope.decision.1

/-- The returned budgets, the appended action and one more level of depth. -/
def follow (lineage : Lineage) (decision : RecoveryDecision) : Lineage where
  recoveryDepth := lineage.recoveryDepth + 1
  previousActions := lineage.previousActions ++ [decision.action]
  remainingFamilyBudget := decision.remainingFamilyBudget
  remainingLineageBudget := decision.remainingLineageBudget

/-- The lineage at each round. A round that raises leaves it as it is. -/
def after (start : Lineage) (rounds : ℕ → Round) : ℕ → Lineage
  | 0 => start
  | n + 1 =>
    match (start.after rounds n).route hashes policy (rounds n) with
    | .ok decision => (start.after rounds n).follow decision
    | .error _ => start.after rounds n

/-- An error or a terminal action. -/
def Ends (answer : Except String RecoveryDecision) : Prop :=
  ∀ decision, answer = .ok decision → decision.action ∈ terminalActions

variable {hashes policy} {lineage start : Lineage} {round : Round} {decision : RecoveryDecision}

theorem route_decides (h : lineage.route hashes policy round = .ok decision) :
    Decides (lineage.history round) (lineage.budgets round) policy round.failure.1
      decision.toDecisionPayload := by
  unfold route at h
  split at h
  · obtain ⟨accepted, hroute, rfl⟩ := map_eq_ok.mp h
    exact routeRecovery_decides hroute
  · obtain ⟨envelope, hroute, rfl⟩ := map_eq_ok.mp h
    exact routeRecoveryEnvelope_decides hroute

theorem budgets_le (h : lineage.route hashes policy round = .ok decision) :
    decision.remainingFamilyBudget ≤ lineage.remainingFamilyBudget ∧
      decision.remainingLineageBudget ≤ lineage.remainingLineageBudget := by
  obtain ⟨-, hfamily, hlineage⟩ := route_decides h
  rw [hfamily, hlineage]
  exact ⟨Nat.sub_le _ _, Nat.sub_le _ _⟩

/-- What a nonterminal decision takes from the lineage. -/
theorem nonterminal_step (h : lineage.route hashes policy round = .ok decision)
    (hnonterminal : decision.action ∉ terminalActions) :
    decision.remainingFamilyBudget + decision.remainingLineageBudget < lineage.budgetSum ∧
      lineage.recoveryDepth < policy.maxRecoveryDepth := by
  obtain ⟨hselected, hfamily, hlineage⟩ := route_decides h
  obtain ⟨hpos, hdepth, hretry⟩ := selectAction_nonterminal hselected hnonterminal
  simp only [history, budgets, hnonterminal, if_false, false_or] at *
  refine ⟨?_, hdepth⟩
  rw [hfamily, hlineage, budgetSum]
  by_cases haction : decision.action = .retryInfrastructure
  · have hpositive : lineage.remainingFamilyBudget ≠ 0 := fun hzero => hretry hzero haction
    rw [if_pos haction]
    omega
  · rw [if_neg haction]
    omega

theorem level_le (h : lineage.route hashes policy round = .ok decision)
    {action : RecoveryAction} (hprevious : action ∈ lineage.previousActions) :
    escalationLevel action ≤ escalationLevel decision.action :=
  (le_previousLevel hprevious).trans (previousLevel_le_selectAction (route_decides h).selected)

/-- As long as no round ends the lineage, each takes one of the budgets and of the depth. -/
theorem spent {rounds : ℕ → Round} {n : ℕ}
    (hgoing : ∀ k < n,
      ¬ Ends ((start.after hashes policy rounds k).route hashes policy (rounds k))) :
    (start.after hashes policy rounds n).budgetSum + n ≤ start.budgetSum ∧
      (start.after hashes policy rounds n).recoveryDepth = start.recoveryDepth + n := by
  induction n with
  | zero => exact ⟨le_rfl, rfl⟩
  | succ n ih =>
    obtain ⟨hsum, hdepth⟩ := ih fun k hk => hgoing k (hk.trans n.lt_succ_self)
    have hnot := hgoing n n.lt_succ_self
    simp only [Ends, not_forall] at hnot
    obtain ⟨decision, hroute, hnonterminal⟩ := hnot
    obtain ⟨hless, -⟩ := nonterminal_step hroute hnonterminal
    have hnext : start.after hashes policy rounds (n + 1) =
        (start.after hashes policy rounds n).follow decision := by
      rw [after, hroute]
    rw [hnext]
    constructor
    · simp only [budgetSum, follow] at *
      omega
    · simp only [follow]
      omega

end Lineage

open Lineage in
theorem routing_terminates (hashes : RouterHashes) (policy : RecoveryPolicyRegistry)
    (start : Lineage) (rounds : ℕ → Round) :
    (∀ n decision,
      (start.after hashes policy rounds n).route hashes policy (rounds n) = .ok decision →
      (decision.remainingFamilyBudget ≤
          (start.after hashes policy rounds n).remainingFamilyBudget ∧
        decision.remainingLineageBudget ≤
          (start.after hashes policy rounds n).remainingLineageBudget) ∧
      (decision.action ∉ terminalActions →
        decision.remainingFamilyBudget + decision.remainingLineageBudget <
          (start.after hashes policy rounds n).budgetSum) ∧
      ∀ action ∈ (start.after hashes policy rounds n).previousActions,
        escalationLevel action ≤ escalationLevel decision.action) ∧
    ∃ n ≤ start.budgetSum, n ≤ policy.maxRecoveryDepth ∧
      Ends ((start.after hashes policy rounds n).route hashes policy (rounds n)) := by
  constructor
  · intro n decision h
    exact ⟨budgets_le h, fun hnonterminal => (nonterminal_step h hnonterminal).1,
      fun action hprevious => level_le h hprevious⟩
  · by_contra hnever
    push Not at hnever
    let bound := min start.budgetSum policy.maxRecoveryDepth
    have hgoing : ∀ n ≤ bound,
        ¬ Ends ((start.after hashes policy rounds n).route hashes policy (rounds n)) := by
      intro n hn
      exact hnever n (hn.trans (min_le_left _ _)) (hn.trans (min_le_right _ _))
    obtain ⟨hsum, hdepth⟩ := spent fun k hk => hgoing k hk.le
    have hnot := hgoing bound le_rfl
    simp only [Ends, not_forall] at hnot
    obtain ⟨decision, hroute, hnonterminal⟩ := hnot
    obtain ⟨hless, hlevel⟩ := nonterminal_step hroute hnonterminal
    have hbound : bound < start.budgetSum ∧ bound < policy.maxRecoveryDepth := by omega
    exact absurd (lt_min hbound.1 hbound.2) (lt_irrefl _)

end NovaRtl.Recovery
