import Mathlib.Data.Finset.Image
import Mathlib.Data.List.MinMax
import NovaRtl.Adapters.Base
import NovaRtl.Order.Iteration
import NovaRtl.Recovery.Agreement
import NovaRtl.Recovery.Fingerprint

/-!
# Classification of failures

`recovery/classifier.py`. The family of a failure is a family of least priority among those that the
diagnostics name. The registry admits families of equal priority: then it is the first one that the
run meets when it goes through the set, and the cited artifact is the first one in any case.
-/

namespace NovaRtl.Recovery

/-! ## Diagnostics -/

/-- `DIAGNOSTIC_FAMILIES` -/
def diagnosticFamilies : List (String × FailureFamily) :=
  [("ANALYSIS_VIEW_MISMATCH", .analysisViewOrActivityMismatch),
    ("ACTIVITY_IDENTITY_MISMATCH", .analysisViewOrActivityMismatch),
    ("ADAPTER_PARSE_ERROR", .adapterOrParserError),
    ("CONSTRAINT_BINDING_DELTA", .constraintBindingDelta),
    ("CDC_INVARIANT_DELTA", .cdcInvariantDelta),
    ("FORMAL_MODEL_MISMATCH", .formalModelMismatch),
    ("INVALID_PROPOSAL_SCHEMA", .invalidProposalSchema),
    ("UNKNOWN_TRANSFORM", .unknownOrInapplicableTransform),
    ("INAPPLICABLE_TRANSFORM", .unknownOrInapplicableTransform),
    ("PROTECTED_STRUCTURE_VIOLATION", .protectedStructureViolation),
    ("RTL_PARSE_ERROR", .rtlParseOrElabFailure),
    ("RTL_ELABORATION_ERROR", .rtlParseOrElabFailure),
    ("FAST_SYNTH_STRUCTURAL_FAILURE", .fastSynthStructuralFailure),
    ("FORMAL_COUNTEREXAMPLE", .formalSemanticFailure),
    ("FORMAL_INCONCLUSIVE", .formalInconclusive),
    ("TIMING_NO_GAIN", .timingNoGain),
    ("TIMING_REGRESSION", .timingRegression),
    ("CRITICAL_PATH_MIGRATION", .criticalPathMigration),
    ("HOLD_REGRESSION", .holdRegression),
    ("AREA_POLICY_EXCEEDED", .areaPolicyViolation),
    ("POWER_POLICY_EXCEEDED", .powerPolicyViolation),
    ("PHYSICAL_CORRELATION_MISS", .physicalCorrelationMiss),
    ("CONGESTION_RISK", .congestionOrRoutabilityRisk),
    ("VALID_BUT_DOMINATED", .validButDominated)]

/-- `EVIDENCE_KIND.get(family, "HISTORY")` -/
def evidenceKind : FailureFamily → String
  | .constraintBindingDelta => "BINDING"
  | .cdcInvariantDelta => "CDC"
  | .formalModelMismatch | .formalSemanticFailure | .formalInconclusive => "FORMAL"
  | .rtlParseOrElabFailure => "SOURCE_SPAN"
  | .fastSynthStructuralFailure => "CONE"
  | .timingNoGain | .timingRegression | .holdRegression | .areaPolicyViolation
  | .powerPolicyViolation => "METRIC"
  | .criticalPathMigration => "PATH"
  | .physicalCorrelationMiss | .congestionOrRoutabilityRisk => "PHYSICAL"
  | _ => "HISTORY"

/-- `EvidenceKind` -/
def evidenceKinds : List String :=
  ["PATH", "ARC", "CONE", "SOURCE_SPAN", "CLOCK", "CDC", "BINDING", "PHYSICAL", "FORMAL", "METRIC",
    "HISTORY"]

/-- What the classifier reads of a stage result. -/
structure StageResult where
  stageResultId : EntityId
  runId : EntityId
  candidateId : EntityId
  stage : Stage
  analysisViewId : Option EntityId
  status : StageStatus
  rtlSnapshot : Option String
  constraints : Option String
  analysisView : Option String
  diagnosticCodes : List String
  rawArtifactIds : List EntityId

/-- `setup_wns_ns`, `hold_wns_ns`, `mapped_area_um2` and `physical_area_um2` of a view. -/
structure ViewMetrics where
  setupWnsNs : Option ℚ
  holdWnsNs : Option ℚ
  mappedAreaUm2 : Option ℚ
  physicalAreaUm2 : Option ℚ

/-- What the classifier reads of a candidate. -/
structure CandidateView where
  proposalId : Option EntityId
  parentCandidateId : Option EntityId
  opportunityId : Option EntityId
  perViewMetrics : List (EntityId × ViewMetrics)

def deltaFields : List (String × (ViewMetrics → Option ℚ)) :=
  [("setup_wns_ns", ViewMetrics.setupWnsNs), ("hold_wns_ns", ViewMetrics.holdWnsNs),
    ("mapped_area_um2", ViewMetrics.mappedAreaUm2),
    ("physical_area_um2", ViewMetrics.physicalAreaUm2)]

/-- `_metric_delta`, for differences that a double can hold. -/
def metricDelta (candidate baseline : Option CandidateView) : List (String × ℚ) :=
  match candidate, baseline with
  | some candidate, some baseline =>
    let views := sortedSet ((candidate.perViewMetrics.map Prod.fst).filter fun view =>
      view ∈ baseline.perViewMetrics.map Prod.fst)
    views.flatMap fun view => deltaFields.filterMap fun (field, value) => do
      let after ← (candidate.perViewMetrics.lookup view).bind value
      let before ← (baseline.perViewMetrics.lookup view).bind value
      return (view ++ "_" ++ field ++ "_delta", toDouble (after - before))
  | _, _ => []

/-! ## The classifier -/

/-- The identities that `_stable_id` makes. -/
structure ClassifierHashes where
  evidenceId : EntityId → FailureFamily → String → EntityId
  failureId : EntityId → FailureFamily → String → List (String × ℚ) → List EntityId → EntityId

def matchedFamilies (result : StageResult) : List FailureFamily :=
  result.diagnosticCodes.filterMap fun code => diagnosticFamilies.lookup code

section Classify

variable (hashes : ClassifierHashes) (policy : RecoveryPolicyRegistry) (result : StageResult)
  (candidate baseline : Option CandidateView)

def priority (family : FailureFamily) : ℕ := (policy.rules family).priority

def classifiedFamily (order : SetOrder FailureFamily) : FailureFamily :=
  if result.status = .infrastructureError then .infrastructureTransient
  else ((order.iterate (matchedFamilies result)).argmin (priority policy)).getD
    .adapterOrParserError

/-- No diagnostic names a family. -/
def ambiguous : Bool := result.status ≠ .infrastructureError ∧ matchedFamilies result = []

def requiredKinds (family : FailureFamily) : List String :=
  match (policy.rules family).requiredEvidenceKinds with
  | [] => [evidenceKind family]
  | kinds => kinds

def evidenceFor (family : FailureFamily) (artifactId : EntityId) (snapshotHash : String) :
    List EvidenceRef :=
  (requiredKinds policy family).map fun kind =>
    { evidenceId := hashes.evidenceId result.stageResultId family kind
      kind
      artifactId
      jsonPointer := some ("/diagnostics/" ++ kind.toLower)
      snapshotHash }

/-- The event of a family that cites an artifact. -/
def eventFor (family : FailureFamily) (artifactId : EntityId) (snapshotHash : String) :
    FailureEvent :=
  let rule := policy.rules family
  let subject : SubjectType :=
    if family = .infrastructureTransient then .infrastructure else .candidate
  let evidence := evidenceFor hashes policy result family artifactId snapshotHash
  let delta := metricDelta candidate baseline
  { failureEventId := hashes.failureId result.stageResultId family policy.policyHash delta
      (evidence.map EvidenceRef.evidenceId)
    runId := result.runId
    subjectType := subject
    subjectId := if subject = .infrastructure then result.runId else result.candidateId
    candidateId := some result.candidateId
    proposalId := candidate.bind CandidateView.proposalId
    parentCandidateId := candidate.bind CandidateView.parentCandidateId
    opportunityId := candidate.bind CandidateView.opportunityId
    failedStage := result.stage
    analysisViewId := result.analysisViewId
    failureFamily := family
    failureScope := subject
    repairability := if ambiguous result then .humanReview else rule.repairability
    severity := rule.severity
    retryable := if ambiguous result then false else rule.retryable
    constraintHashVerified := result.constraints ≠ none
    analysisViewHashVerified := result.analysisViewId = none ∨ result.analysisView ≠ none
    constraintBindingStatus :=
      if family = .constraintBindingDelta then .forbiddenDelta else .notChecked
    protectedStructureStatus :=
      if family = .cdcInvariantDelta ∨ family = .protectedStructureViolation then .changed
      else .unknown
    metricDelta := delta
    primaryEvidenceRefs := evidence
    rawStageResultRef := some result.stageResultId
    providerResultRef := none
    classifierVersion := "m7-classifier-v1" }

/-- `classify`, after the family is chosen. -/
def report (family : FailureFamily) : Except String (Accepted FailureEvent.check) :=
  match result.rtlSnapshot, result.rawArtifactIds with
  | none, _ => .error "stage result lacks RTL snapshot identity"
  | some _, [] => .error "tuple index out of range"
  | some snapshotHash, artifactId :: _ => do
    require (∀ kind ∈ requiredKinds policy family, kind ∈ evidenceKinds) "kind"
    construct FailureEvent.check
      (eventFor hashes policy result candidate baseline family artifactId snapshotHash)

def classify (order : SetOrder FailureFamily) : Except String (Accepted FailureEvent.check) := do
  require (result.status ≠ .pass) "failure classifier accepts only a non-pass StageResult"
  report hashes policy result candidate baseline (classifiedFamily policy result order)

end Classify

/-! ## Two runs -/

/-- What a failure is classified as, with the confidence that its repairability and its retry
express, and the evidence it cites. -/
structure Classification where
  failureFamily : FailureFamily
  repairability : Repairability
  retryable : Bool
  severity : FailureSeverity
  evidence : Finset EvidenceRef
  deriving DecidableEq

def FailureEvent.classification (event : FailureEvent) : Classification :=
  ⟨event.failureFamily, event.repairability, event.retryable, event.severity,
    event.primaryEvidenceRefs.toFinset⟩

section Runs

variable (hashes : ClassifierHashes) (policy : RecoveryPolicyRegistry) (result : StageResult)
  (candidate baseline : Option CandidateView)

/-- The classification, or nothing if the classifier raises. -/
def outcome (order : SetOrder FailureFamily) : Option Classification :=
  (classify hashes policy result candidate baseline order).toOption.map
    fun event => event.1.classification

/-- The same result with its diagnostics and its artifacts in another order. -/
def Reordered (result reordered : StageResult) : Prop :=
  ∃ codes artifacts, codes.Perm result.diagnosticCodes ∧ artifacts.Perm result.rawArtifactIds ∧
    reordered = { result with diagnosticCodes := codes, rawArtifactIds := artifacts }

/-- No order matters, neither in the result nor of the set. -/
def OrderFree : Prop :=
  ∀ reordered order reordered' order', Reordered result reordered → Reordered result reordered' →
    outcome hashes policy reordered candidate baseline order =
      outcome hashes policy reordered' candidate baseline order'

/-- The families that may be chosen: of the matched ones those of least priority. -/
def Choosable (family : FailureFamily) : Prop :=
  if result.status = .infrastructureError then family = .infrastructureTransient
  else if matchedFamilies result = [] then family = .adapterOrParserError
  else family ∈ matchedFamilies result ∧
    ∀ other ∈ matchedFamilies result, priority policy family ≤ priority policy other

/-- The contracts admit an event of the family. -/
structure Reportable (family : FailureFamily) : Prop where
  failed : result.status ≠ .pass
  snapshot : result.rtlSnapshot ≠ none
  artifact : result.rawArtifactIds ≠ []
  stage : result.stage ≠ .plannerProvider
  view : result.stage ∈ viewStages ↔ result.analysisViewId ≠ none
  kinds : ∀ kind ∈ (policy.rules family).requiredEvidenceKinds, kind ∈ evidenceKinds
  evidence : ((policy.rules family).requiredEvidenceKinds.map
    (hashes.evidenceId result.stageResultId family)).Nodup
  retry : ambiguous result = false → (policy.rules family).retryable →
    (policy.rules family).repairability ≠ .noRetry ∧
      (policy.rules family).repairability ≠ .humanReview

end Runs

variable {hashes : ClassifierHashes} {policy : RecoveryPolicyRegistry}
  {result reordered : StageResult} {candidate baseline : Option CandidateView}
  {family : FailureFamily} {artifactId : EntityId} {snapshotHash : String}

/-! ## The event of a family -/

theorem requiredKinds_eq (family : FailureFamily) :
    requiredKinds policy family = (policy.rules family).requiredEvidenceKinds := by
  have hne := (policy.rules family).requiredEvidenceKinds_ne_nil
  unfold requiredKinds
  split
  next hnil => exact absurd hnil hne
  next => rfl

theorem validateEvidence_evidenceFor :
    validateEvidence (evidenceFor hashes policy result family artifactId snapshotHash) "failure" =
        .ok () ↔
      ((policy.rules family).requiredEvidenceKinds.map
        (hashes.evidenceId result.stageResultId family)).Nodup := by
  have hids : (evidenceFor hashes policy result family artifactId snapshotHash).map
      EvidenceRef.evidenceId = (policy.rules family).requiredEvidenceKinds.map
        (hashes.evidenceId result.stageResultId family) := by
    rw [evidenceFor, requiredKinds_eq, List.map_map]
    rfl
  have hsnapshot : (evidenceFor hashes policy result family artifactId snapshotHash).map
      EvidenceRef.snapshotHash =
        List.replicate (policy.rules family).requiredEvidenceKinds.length snapshotHash := by
    rw [evidenceFor, requiredKinds_eq, List.map_map]
    exact List.map_const' ..
  have hlength : (policy.rules family).requiredEvidenceKinds.length ≠ 0 :=
    mt List.length_eq_zero_iff.mp (policy.rules family).requiredEvidenceKinds_ne_nil
  simp only [validateEvidence, requireUnique, seq_eq_ok, require_eq_ok, hids, hsnapshot,
    List.replicate_dedup hlength, List.length_singleton, and_true]

/-- What the validator of a failure event asks for. -/
theorem FailureEvent.check_eq_ok_iff (failure : FailureEvent) :
    failure.check = .ok () ↔
      (∀ item ∈ failure.entityField, item.1 = some failure.subjectId) ∧
        (failure.failedStage ∈ viewStages ↔ failure.analysisViewId ≠ none) ∧
        (failure.retryable →
          failure.repairability ≠ .noRetry ∧ failure.repairability ≠ .humanReview) ∧
        (if failure.failedStage = .plannerProvider then
          (failure.subjectType = .planner ∧ failure.providerResultRef ≠ none) ∧
            failure.rawStageResultRef = none
        else failure.rawStageResultRef ≠ none ∧ failure.providerResultRef = none) ∧
        validateEvidence failure.primaryEvidenceRefs "failure" = .ok () := by
  unfold FailureEvent.check
  cases failure.entityField with
  | none =>
    split_ifs with hplanner <;> simp only [seq_eq_ok, require_eq_ok] <;> grind
  | some item =>
    obtain ⟨field, requirement⟩ := item
    split_ifs with hplanner <;>
      simp only [seq_eq_ok, require_eq_ok, Option.mem_some_iff, forall_eq'] <;> grind
theorem eventFor_check :
    (eventFor hashes policy result candidate baseline family artifactId snapshotHash).check =
        .ok () ↔
      result.stage ≠ .plannerProvider ∧
        (result.stage ∈ viewStages ↔ result.analysisViewId ≠ none) ∧
        ((policy.rules family).requiredEvidenceKinds.map
          (hashes.evidenceId result.stageResultId family)).Nodup ∧
        (ambiguous result = false → (policy.rules family).retryable →
          (policy.rules family).repairability ≠ .noRetry ∧
            (policy.rules family).repairability ≠ .humanReview) := by
  have hsubject : ∀ item ∈ (eventFor hashes policy result candidate baseline family artifactId
      snapshotHash).entityField, item.1 = some (eventFor hashes policy result candidate baseline
        family artifactId snapshotHash).subjectId := by
    by_cases hinfra : family = .infrastructureTransient
    · simp [FailureEvent.entityField, eventFor, hinfra]
    · simp [FailureEvent.entityField, eventFor, hinfra]
  have hplanner : (eventFor hashes policy result candidate baseline family artifactId
      snapshotHash).subjectType ≠ .planner := by
    simp only [eventFor]
    split_ifs <;> decide
  have hretry : ((eventFor hashes policy result candidate baseline family artifactId
      snapshotHash).retryable → (eventFor hashes policy result candidate baseline family artifactId
        snapshotHash).repairability ≠ .noRetry ∧ (eventFor hashes policy result candidate baseline
          family artifactId snapshotHash).repairability ≠ .humanReview) ↔
      (ambiguous result = false → (policy.rules family).retryable →
        (policy.rules family).repairability ≠ .noRetry ∧
          (policy.rules family).repairability ≠ .humanReview) := by
    cases hambiguous : ambiguous result <;> simp [eventFor, hambiguous]
  rw [FailureEvent.check_eq_ok_iff, and_iff_right hsubject, hretry]
  simp only [hplanner, false_and]
  rw [show (eventFor hashes policy result candidate baseline family artifactId
    snapshotHash).primaryEvidenceRefs = evidenceFor hashes policy result family artifactId
      snapshotHash from rfl, validateEvidence_evidenceFor]
  by_cases hstage : result.stage = .plannerProvider
  · simp [eventFor, hstage]
  · simp only [eventFor, hstage, if_false, ne_eq, reduceCtorEq, not_false_eq_true, and_self,
      true_and]
    tauto

/-! ## What a run returns -/

theorem report_eq_ok {event : Accepted FailureEvent.check} :
    report hashes policy result candidate baseline family = .ok event ↔
      ∃ snapshotHash artifactId rest, result.rtlSnapshot = some snapshotHash ∧
        result.rawArtifactIds = artifactId :: rest ∧
        (∀ kind ∈ (policy.rules family).requiredEvidenceKinds, kind ∈ evidenceKinds) ∧
        event.1 =
          eventFor hashes policy result candidate baseline family artifactId snapshotHash := by
  unfold report
  rw [requiredKinds_eq]
  cases hsnapshot : result.rtlSnapshot with
  | none => simp
  | some snapshotHash =>
    cases hartifacts : result.rawArtifactIds with
    | nil => simp
    | cons artifactId rest =>
      simp only [seq_eq_ok, require_eq_ok, construct_eq_ok]
      constructor
      · rintro ⟨hkinds, hevent⟩
        exact ⟨snapshotHash, artifactId, rest, rfl, rfl, hkinds, hevent⟩
      · rintro ⟨_, _, _, ⟨⟩, ⟨⟩, hkinds, hevent⟩
        exact ⟨hkinds, hevent⟩

theorem outcome_of_reportable {order : SetOrder FailureFamily} {rest : List EntityId}
    (hreportable : Reportable hashes policy result (classifiedFamily policy result order))
    (hsnapshot : result.rtlSnapshot = some snapshotHash)
    (hartifacts : result.rawArtifactIds = artifactId :: rest) :
    outcome hashes policy result candidate baseline order =
      some (eventFor hashes policy result candidate baseline (classifiedFamily policy result order)
        artifactId snapshotHash).classification := by
  have hcheck : (eventFor hashes policy result candidate baseline
      (classifiedFamily policy result order) artifactId snapshotHash).check = .ok () :=
    eventFor_check.mpr
      ⟨hreportable.stage, hreportable.view, hreportable.evidence, hreportable.retry⟩
  have hreport : report hashes policy result candidate baseline
      (classifiedFamily policy result order) = .ok ⟨_, hcheck⟩ :=
    report_eq_ok.mpr
      ⟨snapshotHash, artifactId, rest, hsnapshot, hartifacts, hreportable.kinds, rfl⟩
  have hclassify : classify hashes policy result candidate baseline order = .ok ⟨_, hcheck⟩ :=
    seq_eq_ok.mpr ⟨require_eq_ok.mpr hreportable.failed, hreport⟩
  rw [outcome, hclassify]
  rfl

theorem outcome_of_not_reportable {order : SetOrder FailureFamily}
    (h : ¬ Reportable hashes policy result (classifiedFamily policy result order)) :
    outcome hashes policy result candidate baseline order = none := by
  unfold outcome
  cases hclassify : classify hashes policy result candidate baseline order with
  | error e => rfl
  | ok event =>
    refine absurd ?_ h
    obtain ⟨hfailed, hreport⟩ := seq_eq_ok.mp hclassify
    obtain ⟨snapshotHash, artifactId, rest, hsnapshot, hartifacts, hkinds, hevent⟩ :=
      report_eq_ok.mp hreport
    have hcheck := event.2
    rw [hevent, eventFor_check] at hcheck
    exact
      { failed := require_eq_ok.mp hfailed
        snapshot := by simp [hsnapshot]
        artifact := by simp [hartifacts]
        stage := hcheck.1
        view := hcheck.2.1
        kinds := hkinds
        evidence := hcheck.2.2.1
        retry := hcheck.2.2.2 }

/-! ## Reordering -/

theorem Reordered.mem_matchedFamilies (h : Reordered result reordered) :
    family ∈ matchedFamilies reordered ↔ family ∈ matchedFamilies result := by
  obtain ⟨codes, artifacts, hcodes, -, rfl⟩ := h
  exact (hcodes.filterMap _).mem_iff

theorem Reordered.mem_rawArtifactIds (h : Reordered result reordered) :
    artifactId ∈ reordered.rawArtifactIds ↔ artifactId ∈ result.rawArtifactIds := by
  obtain ⟨codes, artifacts, -, hartifacts, rfl⟩ := h
  exact hartifacts.mem_iff

theorem Reordered.matchedFamilies_eq_nil (h : Reordered result reordered) :
    matchedFamilies reordered = [] ↔ matchedFamilies result = [] := by
  simp only [List.eq_nil_iff_forall_not_mem, h.mem_matchedFamilies]

theorem Reordered.ambiguous_eq (h : Reordered result reordered) :
    ambiguous reordered = ambiguous result := by
  have hnil := h.matchedFamilies_eq_nil
  obtain ⟨codes, artifacts, -, -, rfl⟩ := h
  simp only [ambiguous, hnil]

theorem Reordered.eventFor_eq (h : Reordered result reordered) :
    eventFor hashes policy reordered candidate baseline family artifactId snapshotHash =
      eventFor hashes policy result candidate baseline family artifactId snapshotHash := by
  have hambiguous := h.ambiguous_eq
  obtain ⟨codes, artifacts, -, -, rfl⟩ := h
  unfold eventFor
  rw [hambiguous]
  rfl

theorem Reordered.reportable (h : Reordered result reordered) :
    Reportable hashes policy reordered family ↔ Reportable hashes policy result family := by
  have hambiguous := h.ambiguous_eq
  obtain ⟨codes, artifacts, -, hartifacts, rfl⟩ := h
  have hnil : artifacts = [] ↔ result.rawArtifactIds = [] := by
    constructor
    · rintro rfl
      exact hartifacts.nil_eq.symm
    · intro hempty
      rw [hempty] at hartifacts
      exact hartifacts.eq_nil
  constructor
  · intro hreportable
    exact { hreportable with
      artifact := mt hnil.mpr hreportable.artifact
      retry := hambiguous ▸ hreportable.retry }
  · intro hreportable
    exact { hreportable with
      artifact := mt hnil.mp hreportable.artifact
      retry := hambiguous ▸ hreportable.retry }

/-- Whatever the orders are, a choosable family is chosen. -/
theorem choosable_classifiedFamily (h : Reordered result reordered) (order : SetOrder FailureFamily) :
    Choosable policy result (classifiedFamily policy reordered order) := by
  have hnil := h.matchedFamilies_eq_nil
  have hmem : ∀ family, family ∈ matchedFamilies reordered ↔ family ∈ matchedFamilies result :=
    fun family => h.mem_matchedFamilies
  have hstatus : reordered.status = result.status := by
    obtain ⟨codes, artifacts, -, -, rfl⟩ := h
    rfl
  unfold Choosable classifiedFamily
  rw [hstatus]
  split_ifs with hinfra hempty
  · rfl
  · have hiterate : order.iterate (matchedFamilies reordered) = [] := by
      simp [List.eq_nil_iff_forall_not_mem, SetOrder.mem_iterate, hmem, hempty]
    rw [hiterate]
    rfl
  · cases hmin : (order.iterate (matchedFamilies reordered)).argmin (priority policy) with
    | none =>
      have hiterate := List.argmin_eq_none.mp hmin
      refine absurd ?_ hempty
      rw [List.eq_nil_iff_forall_not_mem]
      intro family hfamily
      have := (order.mem_iterate).mpr ((hmem family).mpr hfamily)
      rw [hiterate] at this
      cases this
    | some least =>
      refine ⟨(hmem least).mp ((order.mem_iterate).mp (List.argmin_mem hmin)), ?_⟩
      intro other hother
      exact List.le_of_mem_argmin ((order.mem_iterate).mpr ((hmem other).mpr hother)) hmin

/-- A run may meet any family of the set first. -/
def meetsFirst (family : FailureFamily) : SetOrder FailureFamily where
  iterate inserted :=
    if family ∈ inserted then family :: inserted.dedup.erase family else inserted.dedup
  iterate_perm inserted := by
    split_ifs with hmem
    · exact (List.perm_cons_erase (List.mem_dedup.mpr hmem)).symm
    · exact List.Perm.refl _

theorem argmin_cons_of_forall_le {l : List FailureFamily}
    (h : ∀ other ∈ l, priority policy family ≤ priority policy other) :
    (family :: l).argmin (priority policy) = some family := by
  rw [List.argmin_cons]
  cases hmin : l.argmin (priority policy) with
  | none => rfl
  | some least => exact if_neg (not_lt.mpr (h least (List.argmin_mem hmin)))

theorem classifiedFamily_meetsFirst (h : Choosable policy result family)
    {artifacts : List EntityId} :
    classifiedFamily policy { result with rawArtifactIds := artifacts } (meetsFirst family) =
      family := by
  unfold Choosable at h
  unfold classifiedFamily
  split_ifs at h ⊢ with hinfra hempty
  · exact h.symm
  · simp only [matchedFamilies] at hempty ⊢
    rw [hempty, h]
    rfl
  · obtain ⟨hmem, hleast⟩ := h
    have hiterate : (meetsFirst family).iterate (matchedFamilies result) =
        family :: (matchedFamilies result).dedup.erase family := if_pos hmem
    simp only [matchedFamilies] at hiterate hleast ⊢
    rw [hiterate, argmin_cons_of_forall_le]
    · rfl
    · intro other hother
      exact hleast other (List.mem_dedup.mp (List.mem_of_mem_erase hother))

/-- Any choosable family may be reported, with any of the artifacts. -/
theorem exists_run (hchoosable : Choosable policy result family)
    (hmem : artifactId ∈ result.rawArtifactIds) :
    ∃ reordered order rest, Reordered result reordered ∧
      classifiedFamily policy reordered order = family ∧
      reordered.rtlSnapshot = result.rtlSnapshot ∧
      reordered.rawArtifactIds = artifactId :: rest :=
  ⟨{ result with rawArtifactIds := artifactId :: result.rawArtifactIds.erase artifactId },
    meetsFirst family, result.rawArtifactIds.erase artifactId,
    ⟨_, _, .refl _, (List.perm_cons_erase hmem).symm, rfl⟩,
    classifiedFamily_meetsFirst hchoosable, rfl, rfl⟩

theorem evidence_mem {ref : EvidenceRef} (hmem : ref ∈ (eventFor hashes policy result candidate
    baseline family artifactId snapshotHash).classification.evidence) :
    ref.artifactId = artifactId := by
  rw [FailureEvent.classification, List.mem_toFinset] at hmem
  obtain ⟨kind, -, rfl⟩ := List.mem_map.mp hmem
  rfl

theorem evidence_nonempty : (eventFor hashes policy result candidate baseline family artifactId
    snapshotHash).classification.evidence.Nonempty := by
  have hne := (policy.rules family).requiredEvidenceKinds_ne_nil
  obtain ⟨kind, hkind⟩ := List.exists_mem_of_ne_nil _ hne
  rw [← requiredKinds_eq] at hkind
  exact ⟨_, List.mem_toFinset.mpr (List.mem_map_of_mem hkind)⟩

/-- If no order matters, a family that is reported is the only choosable one, and with one
artifact. -/
theorem agree_of_free {other : FailureFamily} {a b : EntityId}
    (hfree : OrderFree hashes policy result candidate baseline)
    (hreportable : Reportable hashes policy result family)
    (hchoosable : Choosable policy result family) (hother : Choosable policy result other)
    (ha : a ∈ result.rawArtifactIds) (hb : b ∈ result.rawArtifactIds) :
    other = family ∧ a = b := by
  obtain ⟨snapshotHash, hsnapshot⟩ := Option.ne_none_iff_exists'.mp hreportable.snapshot
  obtain ⟨first, order, rest, hfirst, hchosen, hsnapshot₁, hartifacts⟩ := exists_run hchoosable ha
  obtain ⟨second, order', rest', hsecond, hchosen', hsnapshot₂, hartifacts'⟩ :=
    exists_run hother hb
  have hsame := hfree first order second order' hfirst hsecond
  have hreportable₁ : Reportable hashes policy first (classifiedFamily policy first order) := by
    rw [hchosen]
    exact hfirst.reportable.mpr hreportable
  rw [outcome_of_reportable hreportable₁ (hsnapshot₁.trans hsnapshot) hartifacts, hchosen] at hsame
  by_cases hreportable₂ : Reportable hashes policy second (classifiedFamily policy second order')
  · rw [outcome_of_reportable hreportable₂ (hsnapshot₂.trans hsnapshot) hartifacts',
      hchosen'] at hsame
    have hclass := Option.some.inj hsame
    refine ⟨(congrArg Classification.failureFamily hclass).symm, ?_⟩
    have hnonempty : (eventFor hashes policy first candidate baseline family a
        snapshotHash).classification.evidence.Nonempty := evidence_nonempty
    obtain ⟨ref, href⟩ := hnonempty
    rw [← evidence_mem href]
    rw [hclass] at href
    exact evidence_mem href
  · rw [outcome_of_not_reportable hreportable₂] at hsame
    cases hsame

theorem outcome_eq_of_unique {first second : StageResult} {order order' : SetOrder FailureFamily}
    (hfirst : Reordered result first) (hsecond : Reordered result second)
    (hfamily : classifiedFamily policy first order = classifiedFamily policy second order')
    (hartifact : ∀ a ∈ result.rawArtifactIds, ∀ b ∈ result.rawArtifactIds, a = b) :
    outcome hashes policy first candidate baseline order =
      outcome hashes policy second candidate baseline order' := by
  by_cases hreportable : Reportable hashes policy result (classifiedFamily policy first order)
  · have hreportable₁ := hfirst.reportable.mpr hreportable
    have hreportable₂ : Reportable hashes policy second
        (classifiedFamily policy second order') := by
      rw [← hfamily]
      exact hsecond.reportable.mpr hreportable
    obtain ⟨snapshotHash, hsnapshot⟩ := Option.ne_none_iff_exists'.mp hreportable₁.snapshot
    obtain ⟨a, rest, ha⟩ := List.exists_cons_of_ne_nil hreportable₁.artifact
    obtain ⟨b, rest', hb⟩ := List.exists_cons_of_ne_nil hreportable₂.artifact
    have hsnapshot' : second.rtlSnapshot = some snapshotHash := by
      rw [← hsnapshot]
      obtain ⟨_, _, -, -, rfl⟩ := hfirst
      obtain ⟨_, _, -, -, rfl⟩ := hsecond
      rfl
    have hab : a = b := by
      apply hartifact
      · rw [← hfirst.mem_rawArtifactIds, ha]
        exact List.mem_cons_self
      · rw [← hsecond.mem_rawArtifactIds, hb]
        exact List.mem_cons_self
    rw [outcome_of_reportable hreportable₁ hsnapshot ha,
      outcome_of_reportable hreportable₂ hsnapshot' hb, hfirst.eventFor_eq, hsecond.eventFor_eq,
      hfamily, hab]
  · rw [outcome_of_not_reportable (mt hfirst.reportable.mp hreportable),
      outcome_of_not_reportable (mt hsecond.reportable.mp (hfamily ▸ hreportable))]

def sampleResult : StageResult where
  stageResultId := "stage_one"
  runId := "run_one"
  candidateId := "cand_one"
  stage := .fastSynth
  analysisViewId := none
  status := .fail
  rtlSnapshot := some "sha256:16a0eeb0791b6c92451fd284dd9f599e0a7dbe7f6ebea6e2d2d06c7f74aec112"
  constraints := none
  analysisView := none
  diagnosticCodes := ["TIMING_NO_GAIN", "HOLD_REGRESSION"]
  rawArtifactIds := ["artifact_one"]

def sampleClassifierHashes : ClassifierHashes where
  evidenceId _ family kind := "evidence_" ++ (family.text ++ kind).toLower
  failureId _ family _ _ _ := "failure_" ++ family.text.toLower

theorem samplePriorities_eq (first second : FailureFamily) :
    priority (uniformPolicy sampleActions (by decide)) first =
      priority (uniformPolicy sampleActions (by decide)) second := rfl

end NovaRtl.Recovery
