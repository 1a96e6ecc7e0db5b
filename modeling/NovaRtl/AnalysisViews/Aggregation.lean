import Mathlib.Algebra.Order.Field.Rat
import Mathlib.Data.List.MinMax
import NovaRtl.Contracts.Checks
import NovaRtl.Contracts.Migrations

/-!
# Aggregation of the required analysis views

`aggregate_required_views` of `analysis_views/aggregation.py`: every required stage of every
required view has to be there and measured, and the view with the smallest slack is the worst one.
Measured values are rationals.
-/

namespace NovaRtl.AnalysisViews

open Migrations (Stage StageResult MetricField InputField)

inductive Check where
  | setup | hold | power
  deriving DecidableEq, Repr

/-- The fields of `AnalysisViewContract` that the aggregation reads. -/
structure AnalysisViewContract where
  analysisViewId : Identifier
  check : Check
  required : Bool
  sdcHash : HashRef
  requiredStages : List String
  /-- `canonical_sha256(contract)` -/
  contractHash : HashRef
  stages_ne : requiredStages ≠ []

inductive StageEntry where
  | result (result : StageResult ℚ)
  /-- An object that is not a `StageResult`. -/
  | untyped

/-- The entries by view and stage. -/
abbrev Results := Identifier → Option (String → Option StageEntry)

inductive AggregationError where
  /-- `IncompleteRequiredViewError(text)` -/
  | incompleteRequiredView (text : String)
  /-- The `ValueError` of `min` and `max` for an empty sequence. -/
  | emptySequence

open AggregationError

/-! ## Stages -/

def measuredTimingViolationCodes : List String :=
  ["TIMING_SETUP_VIOLATION", "TIMING_HOLD_VIOLATION", "PHYSICAL_TIMING_VIOLATION"]

def isCompleteMeasuredTimingViolation (result : StageResult ℚ) : Bool :=
  result.status = .fail && (result.stage = .openstaFull || result.stage = .openroadPhysical) &&
    result.diagnostics ≠ [] &&
    result.diagnostics.all fun diagnostic => diagnostic.code ∈ measuredTimingViolationCodes

/-- `getattr(result.metrics, field)`, if it is a number. -/
def number (result : StageResult ℚ) (field : MetricField) : Option ℚ :=
  match result.metrics.value field with
  | some (.float x) => some x
  | some (.int n) => some n
  | none => none

structure IdentityEnvelope where
  runId : Identifier
  candidateId : Identifier
  rtlSnapshot : Option HashRef
  designContract : Option HashRef
  platformLock : Option HashRef
  constraintBinding : Option HashRef
  deriving DecidableEq

def envelope (result : StageResult ℚ) : IdentityEnvelope where
  runId := result.runId
  candidateId := result.candidateId
  rtlSnapshot := result.inputHashes.hash .rtlSnapshot
  designContract := result.inputHashes.hash .designContract
  platformLock := result.inputHashes.hash .platformLock
  constraintBinding := result.inputHashes.hash .constraintBinding

def IdentityEnvelope.isComplete (envelope : IdentityEnvelope) : Bool :=
  envelope.rtlSnapshot.isSome && envelope.designContract.isSome &&
    envelope.platformLock.isSome && envelope.constraintBinding.isSome

/-- The checked result of a required stage. -/
def stageResult (contract : AnalysisViewContract) (stageResults : String → Option StageEntry)
    (stage : String) : Except AggregationError (StageResult ℚ) :=
  let view := s!"required view {contract.analysisViewId.val}"
  match stageResults stage with
  | none => .error (incompleteRequiredView s!"{view} is missing stage {stage}")
  | some .untyped =>
    .error (incompleteRequiredView s!"{view} stage {stage} is not a typed StageResult")
  | some (.result result) => do
    require (result.analysisViewId = some contract.analysisViewId)
      (incompleteRequiredView s!"{view} result label mismatch")
    require (Stage.ofText? stage = some result.stage)
      (incompleteRequiredView s!"{view} stage label mismatch for {stage}")
    require (result.status = .pass ∨ isCompleteMeasuredTimingViolation result)
      (incompleteRequiredView
        s!"{view} stage {stage} is neither PASS nor a complete measured timing violation")
    require (result.inputHashes.hash .analysisView = some contract.contractHash ∧
        result.inputHashes.hash .constraints = some contract.sdcHash)
      (incompleteRequiredView s!"{view} identity mismatch")
    require (envelope result).isComplete
      (incompleteRequiredView s!"{view} immutable identity is incomplete")
    return result

/-! ## Views -/

/-- `PerViewMetrics` of a setup or hold view. -/
structure TimingMetrics where
  analysisViewId : Identifier
  wnsNs : ℚ
  tnsNs : ℚ
  limitingStage : String
  deriving DecidableEq

/-- `PerViewMetrics` of a power view. -/
structure PowerMetrics where
  analysisViewId : Identifier
  powerTotalUw : ℚ
  limitingStage : String
  deriving DecidableEq

inductive PerViewMetrics where
  | timing (check : Check) (metrics : TimingMetrics)
  | power (metrics : PowerMetrics)
  deriving DecidableEq

/-- The timing metrics of a view of a check. -/
def PerViewMetrics.ofCheck (check : Check) : PerViewMetrics → Option TimingMetrics
  | timing check' metrics => if check' = check then some metrics else none
  | power _ => none

def PerViewMetrics.ofPower : PerViewMetrics → Option PowerMetrics
  | timing _ _ => none
  | power metrics => some metrics

/-- What a required view adds to the identities and the metrics. -/
structure ViewReading where
  envelopes : List IdentityEnvelope
  activities : List HashRef
  metrics : PerViewMetrics

/-- `wns_field` -/
def wnsField (check : Check) : MetricField := if check = .setup then .setupWnsNs else .holdWnsNs

/-- `tns_field` -/
def tnsField (check : Check) : MetricField := if check = .setup then .setupTnsNs else .holdTnsNs

/-- An entry of `measured`. -/
def readTiming (contract : AnalysisViewContract) (entry : String × StageResult ℚ) :
    Except AggregationError TimingMetrics :=
  let lacks (field : MetricField) := incompleteRequiredView
    s!"required view {contract.analysisViewId.val} lacks {field.text}"
  match number entry.2 (wnsField contract.check), number entry.2 (tnsField contract.check) with
  | none, _ => .error (lacks (wnsField contract.check))
  | some _, none => .error (lacks (tnsField contract.check))
  | some wns, some tns => .ok ⟨contract.analysisViewId, wns, tns, entry.1⟩

/-- An entry of `measured_power`, with the activity. -/
def readPower (contract : AnalysisViewContract) (entry : String × StageResult ℚ) :
    Except AggregationError (HashRef × PowerMetrics) :=
  let view := s!"required view {contract.analysisViewId.val}"
  match entry.2.inputHashes.hash .powerActivity, number entry.2 .powerTotalUw with
  | none, _ => .error (incompleteRequiredView s!"{view} lacks power activity identity")
  | some _, none => .error (incompleteRequiredView s!"{view} lacks power_total_uw")
  | some activity, some power => .ok (activity, ⟨contract.analysisViewId, power, entry.1⟩)

/-- `min(items, key=key)`, the first of the smallest items. -/
def firstMin {α : Type} (key : α → ℚ) (items : List α) : Except AggregationError α :=
  match items.argmin key with
  | some item => .ok item
  | none => .error emptySequence

/-- `max(items, key=key)`, the first of the largest items. -/
def firstMax {α : Type} (key : α → ℚ) (items : List α) : Except AggregationError α :=
  match items.argmax key with
  | some item => .ok item
  | none => .error emptySequence

/-- A round of the loop over the required views. -/
def readView (results : Results) (contract : AnalysisViewContract) :
    Except AggregationError ViewReading :=
  match results contract.analysisViewId with
  | none => .error
      (incompleteRequiredView s!"required view {contract.analysisViewId.val} is missing")
  | some stageResults => do
    let stages ← contract.requiredStages.mapM (stageResult contract stageResults)
    let entries := contract.requiredStages.zip stages
    if contract.check = .power then
      let measured ← entries.mapM (readPower contract)
      let worst ← firstMax PowerMetrics.powerTotalUw (measured.map Prod.snd)
      return ⟨stages.map envelope, measured.map Prod.fst, .power worst⟩
    else
      let measured ← entries.mapM (readTiming contract)
      let worst ← firstMin TimingMetrics.wnsNs measured
      return ⟨stages.map envelope, [], .timing contract.check worst⟩

/-! ## The aggregate -/

structure AggregatedMetrics where
  candidateId : Identifier
  setupWnsNs : ℚ
  setupTnsNs : ℚ
  setupViewId : Identifier
  holdWnsNs : ℚ
  holdTnsNs : ℚ
  holdViewId : Identifier
  powerTotalUw : Option ℚ
  powerViewId : Option Identifier
  perViewMetrics : List PerViewMetrics

def requiredViews (contracts : List AnalysisViewContract) : List AnalysisViewContract :=
  contracts.filter AnalysisViewContract.required

/-- The metrics of the views of a check. -/
def timingViews (check : Check) (readings : List ViewReading) : List TimingMetrics :=
  readings.filterMap fun reading => reading.metrics.ofCheck check

/-- The returned metrics. -/
def AggregatedMetrics.ofReadings (identity : IdentityEnvelope) (readings : List ViewReading)
    (setup hold : TimingMetrics) : AggregatedMetrics :=
  let power := (readings.filterMap fun reading => reading.metrics.ofPower).argmax
    PowerMetrics.powerTotalUw
  { candidateId := identity.candidateId
    setupWnsNs := setup.wnsNs
    setupTnsNs := setup.tnsNs
    setupViewId := setup.analysisViewId
    holdWnsNs := hold.wnsNs
    holdTnsNs := hold.tnsNs
    holdViewId := hold.analysisViewId
    powerTotalUw := power.map PowerMetrics.powerTotalUw
    powerViewId := power.map PowerMetrics.analysisViewId
    perViewMetrics := readings.map ViewReading.metrics }

/-- `aggregate_required_views` -/
def aggregateRequiredViews (results : Results) (contracts : List AnalysisViewContract) :
    Except AggregationError AggregatedMetrics := do
  let required := requiredViews contracts
  require (required.map AnalysisViewContract.analysisViewId).Nodup
    (incompleteRequiredView "required analysis-view IDs must be unique")
  require (required.any (·.check = .setup))
    (incompleteRequiredView "required setup view is missing")
  require (required.any (·.check = .hold)) (incompleteRequiredView "required hold view is missing")
  let readings ← required.mapM (readView results)
  let envelopes := (readings.flatMap ViewReading.envelopes).dedup
  require (envelopes.length = 1) (incompleteRequiredView
    "required analysis views do not share one immutable identity envelope")
  require ((readings.flatMap ViewReading.activities).dedup.length ≤ 1) (incompleteRequiredView
    "required power views do not share one activity identity")
  let setup ← firstMin TimingMetrics.wnsNs (timingViews .setup readings)
  let hold ← firstMin TimingMetrics.wnsNs (timingViews .hold readings)
  match envelopes with
  | [] => .error emptySequence
  | identity :: _ => return .ofReadings identity readings setup hold

/-! ## Smallest items -/

section FirstMin

variable {α : Type} {key : α → ℚ} {items : List α} {a b : α}

theorem firstMin_eq_ok : firstMin key items = .ok a ↔ items.argmin key = some a := by
  unfold firstMin
  cases items.argmin key <;> simp

theorem firstMin_mem (h : firstMin key items = .ok a) : a ∈ items :=
  List.argmin_mem (firstMin_eq_ok.mp h)

theorem firstMin_le (h : firstMin key items = .ok a) (hb : b ∈ items) : key a ≤ key b :=
  List.le_of_mem_argmin hb (firstMin_eq_ok.mp h)

theorem exists_firstMin (h : items ≠ []) : ∃ a, firstMin key items = .ok a := by
  cases hmin : items.argmin key with
  | none => exact absurd (List.argmin_eq_none.mp hmin) h
  | some a => exact ⟨a, firstMin_eq_ok.mpr hmin⟩

end FirstMin

/-! ## Measured slack -/

variable {results : Results} {contracts reordered : List AnalysisViewContract}
  {contract : AnalysisViewContract} {check : Check} {reading : ViewReading}

/-- The slack that a stage of a view has measured. -/
def slackAt (results : Results) (contract : AnalysisViewContract) (stage : String) : Option ℚ := do
  let stageResults ← results contract.analysisViewId
  match stageResults stage with
  | some (.result result) => number result (wnsField contract.check)
  | _ => none

/-- The smallest slack of the stages of a view. -/
structure IsWorst (results : Results) (contract : AnalysisViewContract) (slack : ℚ) : Prop where
  le : ∀ stage ∈ contract.requiredStages, ∃ wns, slackAt results contract stage = some wns ∧
    slack ≤ wns
  attained : ∃ stage ∈ contract.requiredStages, slackAt results contract stage = some slack

theorem stageResult_eq_ok {stageResults : String → Option StageEntry} {stage : String}
    {result : StageResult ℚ} (h : stageResult contract stageResults stage = .ok result) :
    stageResults stage = some (.result result) := by
  unfold stageResult at h
  split at h
  · cases h
  · cases h
  · next found hfound =>
    simp only [bind_eq_ok, pure, Except.pure, Except.ok.injEq] at h
    obtain ⟨-, -, -, -, -, -, -, -, -, -, rfl⟩ := h
    exact hfound

theorem readTiming_eq_ok {entry : String × StageResult ℚ} {metrics : TimingMetrics}
    (h : readTiming contract entry = .ok metrics) :
    metrics.analysisViewId = contract.analysisViewId ∧
      number entry.2 (wnsField contract.check) = some metrics.wnsNs := by
  unfold readTiming at h
  split at h
  · cases h
  · cases h
  · next hwns htns =>
    cases h
    exact ⟨rfl, hwns⟩

/-- The entries of `measured` have the slacks of the stages. -/
theorem forall₂_slackAt {stageResults : String → Option StageEntry} {stages : List String}
    {stageResultList : List (StageResult ℚ)} {measured : List TimingMetrics}
    (hresults : results contract.analysisViewId = some stageResults)
    (hstages : List.Forall₂ (fun stage result =>
      stageResult contract stageResults stage = .ok result) stages stageResultList)
    (hmeasured : List.Forall₂ (fun entry metrics => readTiming contract entry = .ok metrics)
      (stages.zip stageResultList) measured) :
    List.Forall₂ (fun stage metrics => metrics.analysisViewId = contract.analysisViewId ∧
      slackAt results contract stage = some metrics.wnsNs) stages measured := by
  induction hstages generalizing measured with
  | nil =>
    cases hmeasured
    exact .nil
  | cons hstage _ ih =>
    rw [List.zip_cons_cons] at hmeasured
    cases hmeasured with
    | cons hentry hmeasured =>
      obtain ⟨hid, hwns⟩ := readTiming_eq_ok hentry
      refine .cons ⟨hid, ?_⟩ (ih hmeasured)
      simp only [slackAt, hresults, stageResult_eq_ok hstage, Option.bind_eq_bind, Option.bind_some]
      exact hwns

/-- The reading of a timing view has the smallest slack of its stages. -/
theorem readView_timing (h : readView results contract = .ok reading)
    (hcheck : contract.check ≠ .power) : ∃ metrics,
      reading.metrics = .timing contract.check metrics ∧
      metrics.analysisViewId = contract.analysisViewId ∧
      IsWorst results contract metrics.wnsNs := by
  unfold readView at h
  split at h
  · cases h
  · next stageResults hresults =>
    simp only [if_neg hcheck, bind_eq_ok, mapM_eq_ok, pure, Except.pure, Except.ok.injEq] at h
    obtain ⟨stages, hstages, measured, hmeasured, worst, hworst, rfl⟩ := h
    have hslacks := forall₂_slackAt hresults hstages hmeasured
    obtain ⟨stage, hstage, hid, hattained⟩ := exists_of_mem_right hslacks (firstMin_mem hworst)
    refine ⟨worst, rfl, hid, fun other hother => ?_, stage, hstage, hattained⟩
    obtain ⟨metrics, hmetrics, -, hslack⟩ := exists_of_mem_left hslacks hother
    exact ⟨_, hslack, firstMin_le hworst hmetrics⟩

/-- The reading of a power view is of no timing check. -/
theorem readView_power (h : readView results contract = .ok reading)
    (hcheck : contract.check = .power) : reading.metrics.ofCheck check = none := by
  unfold readView at h
  split at h
  · cases h
  · simp only [if_pos hcheck, bind_eq_ok, pure, Except.pure, Except.ok.injEq] at h
    obtain ⟨-, -, -, -, -, -, rfl⟩ := h
    rfl

/-! ## Aggregates -/

/-- What an aggregate is made of. -/
structure Aggregates (results : Results) (contracts : List AnalysisViewContract)
    (readings : List ViewReading) (setup hold : TimingMetrics) : Prop where
  ids_nodup : ((requiredViews contracts).map AnalysisViewContract.analysisViewId).Nodup
  has_setup : (requiredViews contracts).any (·.check = .setup)
  has_hold : (requiredViews contracts).any (·.check = .hold)
  reads : List.Forall₂ (fun contract reading => readView results contract = .ok reading)
    (requiredViews contracts) readings
  one_envelope : (readings.flatMap ViewReading.envelopes).dedup.length = 1
  one_activity : (readings.flatMap ViewReading.activities).dedup.length ≤ 1
  setup_min : firstMin TimingMetrics.wnsNs (timingViews .setup readings) = .ok setup
  hold_min : firstMin TimingMetrics.wnsNs (timingViews .hold readings) = .ok hold

theorem Aggregates.of_eq_ok {metrics : AggregatedMetrics}
    (h : aggregateRequiredViews results contracts = .ok metrics) :
    ∃ identity readings setup hold, Aggregates results contracts readings setup hold ∧
      metrics = .ofReadings identity readings setup hold := by
  simp only [aggregateRequiredViews, bind_eq_ok, require_eq_ok, mapM_eq_ok] at h
  obtain ⟨-, hids, -, hsetup, -, hhold, readings, hreads, -, henvelope, -, hactivity, setup,
    hsetupMin, hold, hholdMin, h⟩ := h
  split at h
  · cases h
  · next identity _ _ =>
    cases h
    exact ⟨identity, readings, setup, hold, ⟨hids, hsetup, hhold, hreads, henvelope, hactivity,
      hsetupMin, hholdMin⟩, rfl⟩

theorem Aggregates.exists_eq_ok {readings : List ViewReading} {setup hold : TimingMetrics}
    (h : Aggregates results contracts readings setup hold) :
    ∃ metrics, aggregateRequiredViews results contracts = .ok metrics := by
  obtain ⟨identity, hidentity⟩ := List.length_eq_one_iff.mp h.one_envelope
  refine ⟨.ofReadings identity readings setup hold, ?_⟩
  simp only [aggregateRequiredViews, bind_eq_ok, require_eq_ok, mapM_eq_ok]
  refine ⟨(), h.ids_nodup, (), h.has_setup, (), h.has_hold, readings, h.reads, (),
    h.one_envelope, (), h.one_activity, setup, h.setup_min, hold, h.hold_min, ?_⟩
  rw [hidentity]
  rfl

/-- The timing metrics of a check belong to its required views. -/
theorem Aggregates.mem_timingViews {readings : List ViewReading} {setup hold : TimingMetrics}
    (h : Aggregates results contracts readings setup hold) {metrics : TimingMetrics}
    (hmetrics : metrics ∈ timingViews check readings) :
    ∃ contract ∈ requiredViews contracts, contract.check = check ∧ contract.check ≠ .power ∧
      ∃ reading, readView results contract = .ok reading ∧
        reading.metrics = .timing check metrics := by
  obtain ⟨reading, hreading, hof⟩ := List.mem_filterMap.mp hmetrics
  obtain ⟨contract, hcontract, hread⟩ := exists_of_mem_right h.reads hreading
  by_cases hpower : contract.check = .power
  · rw [readView_power hread hpower] at hof
    cases hof
  · obtain ⟨found, hfound, -, -⟩ := readView_timing hread hpower
    rw [hfound, PerViewMetrics.ofCheck] at hof
    split at hof
    · next heq =>
      cases hof
      exact ⟨contract, hcontract, heq, hpower, reading, hread, heq ▸ hfound⟩
    · cases hof

theorem Aggregates.exists_mem_timingViews {readings : List ViewReading} {setup hold : TimingMetrics}
    (h : Aggregates results contracts readings setup hold) (hcheck : check ≠ .power)
    (hcontract : contract ∈ requiredViews contracts) (heq : contract.check = check) :
    ∃ metrics ∈ timingViews check readings, metrics.analysisViewId = contract.analysisViewId ∧
      IsWorst results contract metrics.wnsNs := by
  obtain ⟨reading, hreading, hread⟩ := exists_of_mem_left h.reads hcontract
  obtain ⟨metrics, hmetrics, hid, hworst⟩ := readView_timing hread (heq ▸ hcheck)
  refine ⟨metrics, List.mem_filterMap.mpr ⟨reading, hreading, ?_⟩, hid, hworst⟩
  rw [hmetrics, PerViewMetrics.ofCheck, if_pos heq]

/-- The smallest slack over the required views of a check and their stages. -/
structure IsMinimum (results : Results) (contracts : List AnalysisViewContract) (check : Check)
    (slack : ℚ) : Prop where
  le : ∀ contract ∈ requiredViews contracts, contract.check = check →
    ∀ stage ∈ contract.requiredStages, ∃ wns, slackAt results contract stage = some wns ∧
      slack ≤ wns
  attained : ∃ contract ∈ requiredViews contracts, contract.check = check ∧
    ∃ stage ∈ contract.requiredStages, slackAt results contract stage = some slack

/-- The first of the smallest metrics has the smallest slack. -/
theorem Aggregates.isMinimum {readings : List ViewReading} {setup hold worst : TimingMetrics}
    (h : Aggregates results contracts readings setup hold) (hcheck : check ≠ .power)
    (hworst : firstMin TimingMetrics.wnsNs (timingViews check readings) = .ok worst) :
    IsMinimum results contracts check worst.wnsNs where
  le contract hcontract heq stage hstage := by
    obtain ⟨metrics, hmetrics, -, hview⟩ := h.exists_mem_timingViews hcheck hcontract heq
    obtain ⟨wns, hwns, hle⟩ := hview.le stage hstage
    exact ⟨wns, hwns, (firstMin_le hworst hmetrics).trans hle⟩
  attained := by
    obtain ⟨contract, hcontract, heq, hpower, reading, hread, hmetrics⟩ :=
      h.mem_timingViews (firstMin_mem hworst)
    obtain ⟨found, hfound, -, hview⟩ := readView_timing hread hpower
    obtain ⟨-, rfl⟩ := PerViewMetrics.timing.inj (hmetrics.symm.trans hfound)
    exact ⟨contract, hcontract, heq, hview.attained⟩

/-! ## Orders of the contracts -/

/-- A permutation of the contracts permutes the readings. -/
theorem Aggregates.reorder {readings : List ViewReading} {setup hold : TimingMetrics}
    (h : Aggregates results contracts readings setup hold) (hperm : reordered.Perm contracts) :
    ∃ readings' setup' hold', readings'.Perm readings ∧
      Aggregates results reordered readings' setup' hold' := by
  have hrequired : (requiredViews reordered).Perm (requiredViews contracts) := hperm.filter _
  obtain ⟨readings', hreads, hreadings⟩ := List.perm_comp_forall₂ hrequired h.reads
  have hne (check : Check) {worst : TimingMetrics}
      (hmin : firstMin TimingMetrics.wnsNs (timingViews check readings) = .ok worst) :
      timingViews check readings' ≠ [] :=
    List.ne_nil_of_mem ((hreadings.filterMap _).mem_iff.mpr (firstMin_mem hmin))
  obtain ⟨setup', hsetup⟩ := exists_firstMin (hne .setup h.setup_min)
  obtain ⟨hold', hhold⟩ := exists_firstMin (hne .hold h.hold_min)
  refine ⟨readings', setup', hold', hreadings, ?_, ?_, ?_, hreads, ?_, ?_, hsetup, hhold⟩
  · exact (hrequired.map _).nodup_iff.mpr h.ids_nodup
  · rw [hrequired.any_eq]
    exact h.has_setup
  · rw [hrequired.any_eq]
    exact h.has_hold
  · rw [(hreadings.flatMap_right _).dedup.length_eq]
    exact h.one_envelope
  · rw [(hreadings.flatMap_right _).dedup.length_eq]
    exact h.one_activity

theorem Aggregates.perm_of_reordered {readings readings' : List ViewReading}
    {setup hold setup' hold' : TimingMetrics}
    (h : Aggregates results contracts readings setup hold)
    (h' : Aggregates results reordered readings' setup' hold') (hperm : reordered.Perm contracts) :
    readings'.Perm readings := by
  obtain ⟨_, _, _, hreadings, hreordered⟩ := h.reorder hperm
  have hunique : Relator.RightUnique fun contract reading =>
      readView results contract = .ok reading :=
    fun _ _ _ hfirst hsecond => Except.ok.inj (hfirst.symm.trans hsecond)
  rwa [hunique.forall₂ h'.reads hreordered.reads]

theorem mem_timingViews_perm {readings readings' : List ViewReading}
    (hperm : readings'.Perm readings) {metrics : TimingMetrics} :
    metrics ∈ timingViews check readings' ↔ metrics ∈ timingViews check readings :=
  (hperm.filterMap _).mem_iff

/-- The first of the smallest metrics in two orders. -/
theorem firstMin_wnsNs_eq {readings readings' : List ViewReading} {worst worst' : TimingMetrics}
    (hperm : readings'.Perm readings)
    (hworst : firstMin TimingMetrics.wnsNs (timingViews check readings) = .ok worst)
    (hworst' : firstMin TimingMetrics.wnsNs (timingViews check readings') = .ok worst') :
    worst'.wnsNs = worst.wnsNs := by
  apply le_antisymm
  · exact firstMin_le hworst' ((mem_timingViews_perm hperm).mpr (firstMin_mem hworst))
  · exact firstMin_le hworst ((mem_timingViews_perm hperm).mp (firstMin_mem hworst'))

/-- One required view of a check alone attains a slack. -/
def OneViewAttains (results : Results) (contracts : List AnalysisViewContract) (check : Check)
    (slack : ℚ) : Prop :=
  ∀ first ∈ requiredViews contracts, ∀ second ∈ requiredViews contracts,
    first.check = check → second.check = check →
    (∃ stage ∈ first.requiredStages, slackAt results first stage = some slack) →
    (∃ stage ∈ second.requiredStages, slackAt results second stage = some slack) → first = second

/-- If one view attains a slack, its metrics are the only ones with that slack. -/
theorem Aggregates.metrics_eq {readings : List ViewReading}
    {setup hold first second : TimingMetrics} (h : Aggregates results contracts readings setup hold)
    (hone : OneViewAttains results contracts check first.wnsNs)
    (hfirst : first ∈ timingViews check readings) (hsecond : second ∈ timingViews check readings)
    (heq : second.wnsNs = first.wnsNs) : second = first := by
  obtain ⟨contract, hcontract, hcheck, hpower, reading, hread, hmetrics⟩ := h.mem_timingViews hfirst
  obtain ⟨contract', hcontract', hcheck', hpower', reading', hread', hmetrics'⟩ :=
    h.mem_timingViews hsecond
  obtain ⟨found, hfound, -, hview⟩ := readView_timing hread hpower
  obtain ⟨found', hfound', -, hview'⟩ := readView_timing hread' hpower'
  obtain ⟨-, rfl⟩ := PerViewMetrics.timing.inj (hmetrics.symm.trans hfound)
  obtain ⟨-, rfl⟩ := PerViewMetrics.timing.inj (hmetrics'.symm.trans hfound')
  obtain rfl := hone contract hcontract contract' hcontract' hcheck hcheck' hview.attained
    (heq ▸ hview'.attained)
  obtain rfl := Except.ok.inj (hread.symm.trans hread')
  exact (PerViewMetrics.timing.inj (hmetrics'.symm.trans hmetrics)).2

/-- The aggregate does not depend on the order of the contracts, up to the view that is blamed if
several attain the worst slack, and the worst slacks are the minima over the required views and
their stages. -/
theorem aggregateRequiredViews_reorder (results : Results)
    (contracts reordered : List AnalysisViewContract) (hperm : reordered.Perm contracts) :
    ((∃ metrics, aggregateRequiredViews results contracts = .ok metrics) ↔
      ∃ metrics, aggregateRequiredViews results reordered = .ok metrics) ∧
    ∀ metrics, aggregateRequiredViews results contracts = .ok metrics →
      IsMinimum results contracts .setup metrics.setupWnsNs ∧
      IsMinimum results contracts .hold metrics.holdWnsNs ∧
      ∀ metrics', aggregateRequiredViews results reordered = .ok metrics' →
        metrics'.setupWnsNs = metrics.setupWnsNs ∧ metrics'.holdWnsNs = metrics.holdWnsNs ∧
        metrics'.perViewMetrics.Perm metrics.perViewMetrics ∧
        (OneViewAttains results contracts .setup metrics.setupWnsNs →
          metrics'.setupTnsNs = metrics.setupTnsNs ∧
            metrics'.setupViewId = metrics.setupViewId) ∧
        (OneViewAttains results contracts .hold metrics.holdWnsNs →
          metrics'.holdTnsNs = metrics.holdTnsNs ∧ metrics'.holdViewId = metrics.holdViewId) := by
  refine ⟨⟨?_, ?_⟩, ?_⟩
  · rintro ⟨metrics, h⟩
    obtain ⟨-, readings, setup, hold, haggregates, -⟩ := Aggregates.of_eq_ok h
    obtain ⟨_, _, _, _, hreordered⟩ := haggregates.reorder hperm
    exact hreordered.exists_eq_ok
  · rintro ⟨metrics, h⟩
    obtain ⟨-, readings, setup, hold, haggregates, -⟩ := Aggregates.of_eq_ok h
    obtain ⟨_, _, _, _, hreordered⟩ := haggregates.reorder hperm.symm
    exact hreordered.exists_eq_ok
  intro metrics h
  obtain ⟨-, readings, setup, hold, haggregates, rfl⟩ := Aggregates.of_eq_ok h
  refine ⟨haggregates.isMinimum (by decide) haggregates.setup_min,
    haggregates.isMinimum (by decide) haggregates.hold_min, fun metrics' h' => ?_⟩
  obtain ⟨-, readings', setup', hold', haggregates', rfl⟩ := Aggregates.of_eq_ok h'
  have hreadings := haggregates.perm_of_reordered haggregates' hperm
  have hsetup := firstMin_wnsNs_eq hreadings haggregates.setup_min haggregates'.setup_min
  have hhold := firstMin_wnsNs_eq hreadings haggregates.hold_min haggregates'.hold_min
  refine ⟨hsetup, hhold, hreadings.map _, fun hone => ?_, fun hone => ?_⟩
  · obtain rfl := haggregates.metrics_eq hone (firstMin_mem haggregates.setup_min)
      ((mem_timingViews_perm hreadings).mp (firstMin_mem haggregates'.setup_min)) hsetup
    exact ⟨rfl, rfl⟩
  · obtain rfl := haggregates.metrics_eq hone (firstMin_mem haggregates.hold_min)
      ((mem_timingViews_perm hreadings).mp (firstMin_mem haggregates'.hold_min)) hhold
    exact ⟨rfl, rfl⟩

/-! ## Three views -/

def sampleHash : HashRef :=
  ⟨"sha256:1111111111111111111111111111111111111111111111111111111111111111", by decide +kernel⟩

def sampleContract (viewId : Identifier) (check : Check) : AnalysisViewContract where
  analysisViewId := viewId
  check := check
  required := true
  sdcHash := sampleHash
  requiredStages := ["OPENSTA_FULL", "OPENROAD_PHYSICAL"]
  contractHash := sampleHash
  stages_ne := by decide

def setupA : AnalysisViewContract := sampleContract ⟨"setup_a", by decide⟩ .setup

def setupB : AnalysisViewContract := sampleContract ⟨"setup_b", by decide⟩ .setup

def holdA : AnalysisViewContract := sampleContract ⟨"hold_a", by decide⟩ .hold

/-- A measured violation, with the given total negative slack. -/
def sampleResult (viewId : Identifier) (stage : Stage) (tns : ℚ) : StageResult ℚ where
  stageResultId := ⟨"stage_a", by decide⟩
  runId := ⟨"run_a", by decide⟩
  candidateId := ⟨"candidate_view", by decide⟩
  stage := stage
  analysisViewId := some viewId
  status := .fail
  toolFingerprint := ⟨"opensta", "sta", "2.5.0", [], sampleHash, sampleHash, "1.0.0", none⟩
  inputHashes := ⟨fun _ => some sampleHash, []⟩
  metrics := {
    analysisViewId := some viewId
    value := fun
      | .setupWnsNs | .holdWnsNs => some (.float (-1))
      | .setupTnsNs | .holdTnsNs => some (.float tns)
      | _ => none
    runtimeMs := 1
    missingMetricReasons := fun
      | .setupWnsNs | .holdWnsNs | .setupTnsNs | .holdTnsNs => none
      | _ => some "not measured" }
  diagnostics := [⟨"TIMING_SETUP_VIOLATION", .error, "setup slack is negative", []⟩]
  rawArtifacts := [⟨"report_a", "artifact://report_a", sampleHash.val, "text/plain", 1, 0,
    some "stage_a", .internal⟩]
  startedAt := 0
  endedAt := 0

/-- Every view has the slack -1; the total negative slack of `setup_b` is larger. -/
def tiedResults : Results := fun viewId =>
  some fun stage => (Stage.ofText? stage).map fun stage =>
    .result (sampleResult viewId stage (if viewId = setupB.analysisViewId then -2 else -1))

/-- The first of two views with the same worst slack is blamed. -/
theorem tied_view_depends_on_order : [setupB, setupA, holdA].Perm [setupA, setupB, holdA] ∧
    ((aggregateRequiredViews tiedResults [setupA, setupB, holdA]).toOption.map fun metrics =>
      (metrics.setupViewId, metrics.setupTnsNs)) = some (setupA.analysisViewId, -1) ∧
    ((aggregateRequiredViews tiedResults [setupB, setupA, holdA]).toOption.map fun metrics =>
      (metrics.setupViewId, metrics.setupTnsNs)) = some (setupB.analysisViewId, -2) :=
  ⟨.swap _ _ _, by decide +kernel, by decide +kernel⟩

theorem aggregateRequiredViews_reorder_sample :
    (∃ metrics, aggregateRequiredViews tiedResults [setupA, setupB, holdA] = .ok metrics) ↔
      ∃ metrics, aggregateRequiredViews tiedResults [setupB, setupA, holdA] = .ok metrics :=
  (aggregateRequiredViews_reorder tiedResults [setupA, setupB, holdA] [setupB, setupA, holdA]
    (.swap _ _ _)).1

end NovaRtl.AnalysisViews
