import Mathlib.Data.List.Nodup
import Mathlib.Tactic.NormNum
import NovaRtl.Recovery.Execution
import NovaRtl.Recovery.Router

/-!
# Selected actions and rule tables

A registry admits any rule table, and the router falls back on actions of its own. `Covered` is what
a rule must allow for what the router is asked: exactly then the router finds an action, and an
allowed one.
-/

namespace NovaRtl.Recovery

variable {allowed : List RecoveryAction} {action : RecoveryAction}
  {eligible : RecoveryAction → Bool}

/-- The actions that an exhausted recovery ends with. -/
def lastResorts : List RecoveryAction := [.abandonLineage, .rejectCandidate, .stopRunOrRequestHuman]

/-- What the router goes on with when the budget of the family is spent. -/
def goesOn (action : RecoveryAction) : Bool :=
  escalationLevel .opportunityReanalysis ≤ escalationLevel action ∧ action ∉ terminalActions

def HasLastResort (allowed : List RecoveryAction) : Prop := ∃ action ∈ allowed, action ∈ lastResorts

def Reaches (allowed : List RecoveryAction) (level : ℕ) : Prop :=
  ∃ action ∈ allowed, level ≤ escalationLevel action

theorem terminalAction_cases (allowed : List RecoveryAction) :
    (∃ action, terminalAction allowed = .ok action ∧ action ∈ allowed ∧ action ∈ lastResorts) ∨
      (∃ e, terminalAction allowed = .error e) ∧ ¬ HasLastResort allowed := by
  unfold terminalAction
  split
  next action hfound =>
    have hmem := List.find?_some hfound
    exact .inl ⟨action, rfl, by simpa using hmem, List.mem_of_find?_eq_some hfound⟩
  next hnone =>
    refine .inr ⟨⟨_, rfl⟩, fun ⟨action, hallowed, hlast⟩ => ?_⟩
    have := List.find?_eq_none.mp hnone action hlast
    simp [hallowed] at this

theorem escalate_cases (allowed : List RecoveryAction) (eligible : RecoveryAction → Bool) :
    (∃ action, escalate allowed eligible = .ok action ∧ action ∈ allowed ∧
      (eligible action ∨ action ∈ lastResorts)) ∨
      (∃ e, escalate allowed eligible = .error e) ∧ ¬ HasLastResort allowed ∧
        ∀ action ∈ allowed, eligible action = false := by
  unfold escalate
  split
  next action hfound =>
    exact .inl ⟨action, rfl, List.mem_of_find?_eq_some hfound, .inl (List.find?_some hfound)⟩
  next hnone =>
    have hineligible : ∀ action ∈ allowed, eligible action = false := by
      simpa using List.find?_eq_none.mp hnone
    obtain ⟨action, hok, hallowed, hlast⟩ | ⟨herror, hlast⟩ := terminalAction_cases allowed
    · exact .inl ⟨action, hok, hallowed, .inr hlast⟩
    · exact .inr ⟨herror, hlast, hineligible⟩

theorem escalationLevel_of_lastResort (h : action ∈ lastResorts) : escalationLevel action = 6 := by
  apply escalationLevel_of_terminal
  revert h
  cases action <;> decide

theorem level_of_goesOn (h : goesOn action) : escalationLevel action = 5 := by
  revert h
  cases action <;> decide

theorem HasLastResort.reaches (h : HasLastResort allowed) (level : ℕ) (hlevel : level ≤ 6) :
    Reaches allowed level :=
  have ⟨action, hallowed, hlast⟩ := h
  ⟨action, hallowed, hlevel.trans (escalationLevel_of_lastResort hlast).ge⟩

/-! ## What a rule must allow -/

variable {failure : FailureEvent} {history : RecoveryHistory} {budgets : RecoveryBudgets}
  {policy : RecoveryPolicyRegistry}

/-- The failure goes to a person, or has no automatic recovery. -/
def NeedsHuman (failure : FailureEvent) : Prop :=
  failure.repairability = .humanReview ∨
    failure.retryable = false ∧ defaultAction failure.failureFamily ∉ terminalActions

def Exhausted (history : RecoveryHistory) (budgets : RecoveryBudgets)
    (policy : RecoveryPolicyRegistry) : Prop :=
  budgets.remainingLineageBudget = 0 ∨ policy.maxRecoveryDepth ≤ history.recoveryDepth

/-- The default action needs family budget, and none is left. -/
def FamilySpent (failure : FailureEvent) (budgets : RecoveryBudgets) : Prop :=
  budgets.remainingFamilyBudget = 0 ∧ escalationLevel (defaultAction failure.failureFamily) ≤ 3

instance : Decidable (NeedsHuman failure) := inferInstanceAs (Decidable (_ ∨ _))

instance : Decidable (Exhausted history budgets policy) := inferInstanceAs (Decidable (_ ∨ _))

instance : Decidable (FamilySpent failure budgets) := inferInstanceAs (Decidable (_ ∧ _))

/-- The rule of the family covers what the router falls back on: a last resort where recovery ends,
else an action that goes on when the family's budget is spent and one that is not below the history,
and the default action where it is selected. -/
def Covered (failure : FailureEvent) (history : RecoveryHistory) (budgets : RecoveryBudgets)
    (policy : RecoveryPolicyRegistry) : Prop :=
  let allowed := (policy.rules failure.failureFamily).allowedActions
  let level := previousLevel history.previousActions
  let default := defaultAction failure.failureFamily
  if NeedsHuman failure ∨ Exhausted history budgets policy then HasLastResort allowed
  else if FamilySpent failure budgets then
    (HasLastResort allowed ∨ ∃ action ∈ allowed, goesOn action) ∧ Reaches allowed level
  else if escalationLevel default < level then Reaches allowed level
  else default ∈ allowed

/-- The router finds an action, and an allowed one. -/
def FindsAllowed (failure : FailureEvent) (history : RecoveryHistory) (budgets : RecoveryBudgets)
    (policy : RecoveryPolicyRegistry) : Prop :=
  ∃ action, selectAction failure history budgets policy = .ok action ∧
    action ∈ (policy.rules failure.failureFamily).allowedActions

theorem terminalAction_finds_iff (allowed : List RecoveryAction) :
    (∃ action, terminalAction allowed = .ok action ∧ action ∈ allowed) ↔ HasLastResort allowed := by
  obtain ⟨action, hok, hallowed, hlast⟩ | ⟨⟨e, herror⟩, hlast⟩ := terminalAction_cases allowed
  · exact iff_of_true ⟨action, hok, hallowed⟩ ⟨action, hallowed, hlast⟩
  · refine iff_of_false (fun ⟨action, hok, _⟩ => ?_) hlast
    rw [herror] at hok
    cases hok

/-- An action that is not below the history is found exactly if one is allowed. -/
theorem escalate_finds_iff (allowed : List RecoveryAction) {level : ℕ} (hlevel : level ≤ 6) :
    (∃ action, escalate allowed (fun item => level ≤ escalationLevel item) = .ok action ∧
      action ∈ allowed) ↔ Reaches allowed level := by
  obtain ⟨action, hok, hallowed, heligible⟩ | ⟨⟨e, herror⟩, -, hineligible⟩ :=
    escalate_cases allowed fun item => level ≤ escalationLevel item
  · refine iff_of_true ⟨action, hok, hallowed⟩ ⟨action, hallowed, ?_⟩
    rcases heligible with heligible | hlast
    · simpa using heligible
    · rw [escalationLevel_of_lastResort hlast]
      exact hlevel
  · refine iff_of_false (fun ⟨action, hok, _⟩ => ?_) fun ⟨action, hallowed, hreaches⟩ => ?_
    · rw [herror] at hok
      cases hok
    · have := hineligible action hallowed
      simp [hreaches] at this

/-- The last step of the selection. -/
def notBelow (allowed : List RecoveryAction) (level : ℕ) (selected : RecoveryAction) :
    Except String RecoveryAction :=
  if escalationLevel selected < level then
    escalate allowed fun item => level ≤ escalationLevel item
  else .ok selected

theorem selectAction_eq (failure : FailureEvent) (history : RecoveryHistory)
    (budgets : RecoveryBudgets) (policy : RecoveryPolicyRegistry) :
    selectAction failure history budgets policy =
      let allowed := (policy.rules failure.failureFamily).allowedActions
      let level := previousLevel history.previousActions
      if NeedsHuman failure then
        if .stopRunOrRequestHuman ∈ allowed then .ok .stopRunOrRequestHuman
        else terminalAction allowed
      else if Exhausted history budgets policy then terminalAction allowed
      else if FamilySpent failure budgets then
        (escalate allowed goesOn).bind (notBelow allowed level)
      else notBelow allowed level (defaultAction failure.failureFamily) := by
  have hbudgeted (allowed : List RecoveryAction) : budgetedAction allowed failure budgets =
      if FamilySpent failure budgets then escalate allowed goesOn
      else .ok (defaultAction failure.failureFamily) := rfl
  unfold selectAction
  dsimp only
  rw [hbudgeted]
  by_cases hspent : FamilySpent failure budgets
  · rw [if_pos hspent]
    simp only [if_pos hspent]
    rfl
  · rw [if_neg hspent]
    simp only [if_neg hspent]
    rfl

theorem notBelow_finds_iff (allowed : List RecoveryAction) {level : ℕ} (hlevel : level ≤ 6)
    (selected : RecoveryAction) :
    (∃ action, notBelow allowed level selected = .ok action ∧ action ∈ allowed) ↔
      if escalationLevel selected < level then Reaches allowed level else selected ∈ allowed := by
  unfold notBelow
  split_ifs with hbelow
  · exact escalate_finds_iff allowed hlevel
  · constructor
    · rintro ⟨action, hok, hallowed⟩
      obtain rfl := Except.ok.inj hok
      exact hallowed
    · exact fun hallowed => ⟨selected, rfl, hallowed⟩

/-- With the family's budget spent, the router goes on upwards, or else ends the lineage. -/
theorem spentAction_finds_iff (allowed : List RecoveryAction) {level : ℕ} (hlevel : level ≤ 6) :
    (∃ action, (escalate allowed goesOn).bind (notBelow allowed level) = .ok action ∧
      action ∈ allowed) ↔
      (HasLastResort allowed ∨ ∃ action ∈ allowed, goesOn action) ∧ Reaches allowed level := by
  obtain ⟨selected, hok, hallowed, hselected⟩ | ⟨⟨e, herror⟩, hlast, hnone⟩ :=
    escalate_cases allowed goesOn
  · have hgoes : HasLastResort allowed ∨ ∃ action ∈ allowed, goesOn action :=
      hselected.symm.imp (fun h => ⟨selected, hallowed, h⟩) fun h => ⟨selected, hallowed, h⟩
    rw [hok, Except.bind, notBelow_finds_iff allowed hlevel]
    split_ifs with hbelow
    · exact ⟨fun h => ⟨hgoes, h⟩, And.right⟩
    · exact iff_of_true hallowed ⟨hgoes, selected, hallowed, Nat.le_of_not_lt hbelow⟩
  · rw [herror]
    refine iff_of_false ?_ ?_
    · rintro ⟨action, hok, -⟩
      cases hok
    · rintro ⟨hresort | ⟨action, hallowed, hgoes⟩, -⟩
      · exact hlast hresort
      · rw [hnone action hallowed] at hgoes
        cases hgoes

/-- The router finds an allowed action exactly if the rule covers what it falls back on. -/
theorem findsAllowed_iff_covered (failure : FailureEvent) (history : RecoveryHistory)
    (budgets : RecoveryBudgets) (policy : RecoveryPolicyRegistry) :
    FindsAllowed failure history budgets policy ↔ Covered failure history budgets policy := by
  have hlevel := previousLevel_le history.previousActions
  unfold FindsAllowed Covered
  rw [selectAction_eq]
  dsimp only
  by_cases hhuman : NeedsHuman failure
  · have hends : NeedsHuman failure ∨ Exhausted history budgets policy := .inl hhuman
    rw [if_pos hhuman, if_pos hends]
    split_ifs with hstop
    · refine iff_of_true ⟨_, rfl, hstop⟩ ⟨_, hstop, ?_⟩
      decide
    · exact terminalAction_finds_iff _
  · rw [if_neg hhuman]
    by_cases hexhausted : Exhausted history budgets policy
    · have hends : NeedsHuman failure ∨ Exhausted history budgets policy := .inr hexhausted
      rw [if_pos hexhausted, if_pos hends]
      exact terminalAction_finds_iff _
    · rw [if_neg hexhausted, if_neg (not_or.mpr ⟨hhuman, hexhausted⟩)]
      by_cases hspent : FamilySpent failure budgets
      · rw [if_pos hspent, if_pos hspent]
        exact spentAction_finds_iff _ hlevel
      · rw [if_neg hspent, if_neg hspent]
        exact notBelow_finds_iff _ hlevel _

/-! ## A registry that rejects every candidate -/

def allFamilies : List FailureFamily :=
  [.baselineInputError, .analysisViewOrActivityMismatch, .infrastructureTransient,
    .adapterOrParserError, .constraintBindingDelta, .cdcInvariantDelta, .formalModelMismatch,
    .invalidProposalSchema, .unknownOrInapplicableTransform, .protectedStructureViolation,
    .rtlParseOrElabFailure, .fastSynthStructuralFailure, .formalSemanticFailure,
    .formalInconclusive, .timingNoGain, .timingRegression, .criticalPathMigration,
    .holdRegression, .areaPolicyViolation, .powerPolicyViolation, .physicalCorrelationMiss,
    .congestionOrRoutabilityRisk, .repeatedNonProgress, .validButDominated]

theorem mem_allFamilies (family : FailureFamily) : family ∈ allFamilies := by
  cases family <;> decide

theorem FailureFamily.text_injective : Function.Injective FailureFamily.text := by
  intro first second h
  have hnodup : (allFamilies.map FailureFamily.text).Nodup := by decide +kernel
  exact List.inj_on_of_nodup_map hnodup (mem_allFamilies first) (mem_allFamilies second) h

theorem ruleId_injective : Function.Injective fun family : FailureFamily =>
    "RECOVERY_" ++ family.text := by
  intro first second h
  exact FailureFamily.text_injective (String.append_right_inj _ |>.mp h)

/-- The same actions and the same priority for every family. -/
def uniformPolicy (actions : List RecoveryAction) (hactions : actions ≠ []) :
    RecoveryPolicyRegistry where
  policyVersion := "v1"
  similarityThreshold := 17 / 20
  wnsProgressEpsilonNs := 1 / 100
  areaProgressEpsilonPercent := 1 / 10
  repeatedFailureCount := 1
  maxRecoveryDepth := 4
  rules family :=
    { ruleId := "RECOVERY_" ++ family.text
      priority := 0
      repairability := .localRevision
      retryable := true
      severity := .low
      allowedActions := actions
      requiredEvidenceKinds := ["METRIC"]
      allowedActions_ne_nil := hactions
      requiredEvidenceKinds_ne_nil := by decide }
  policyHash := samplePolicyHash
  similarityThreshold_mem := by norm_num
  wnsProgressEpsilonNs_nonneg := by norm_num
  areaProgressEpsilonPercent_nonneg := by norm_num
  repeatedFailureCount_pos := Nat.one_pos
  ruleIds_unique := ruleId_injective

/-- The default action is no action of the rule. -/
theorem default_not_allowed :
    ¬ ∀ (failure : Accepted FailureEvent.check) (history : RecoveryHistory)
      (budgets : RecoveryBudgets) (policy : RecoveryPolicyRegistry),
      FindsAllowed failure.1 history budgets policy := by
  intro h
  obtain ⟨action, hok, hallowed⟩ := h ⟨sampleFailure, sampleContracts_ok.1⟩ ⟨0, [], none⟩
    ⟨2, 4, 0, 1000, 4102444800⟩ (uniformPolicy [.rejectCandidate] (by decide))
  obtain rfl : RecoveryAction.localParameterRevision = action := Except.ok.inj hok
  exact absurd hallowed (by decide)

end NovaRtl.Recovery
