import Mathlib.Data.Int.Log
import Mathlib.Data.List.DropRight
import Mathlib.Data.Rat.Floor
import NovaRtl.Recovery.Selection

/-!
# Similar failures and stagnation

`recovery/fingerprint.py`. The scan of the history counts the qualifying observations at its end,
but reports only when it has counted one: where one failure is enough, the current one alone is not
reported.
-/

namespace NovaRtl.Recovery

/-! ## Doubles -/

/-- The nearest integer, the even one of two. -/
def roundHalfEven (q : ℚ) : ℤ :=
  if q - ⌊q⌋ < 1 / 2 ∨ q - ⌊q⌋ = 1 / 2 ∧ ⌊q⌋ % 2 = 0 then ⌊q⌋ else ⌊q⌋ + 1

/-- The nearest of the numbers with 53 binary digits. Scores are far from the limits of doubles. -/
def toDouble (q : ℚ) : ℚ :=
  let unit : ℚ := 2 ^ (Int.log 2 |q| - 52)
  roundHalfEven (q / unit) * unit

/-- `round(value, digits)` -/
def roundDigits (value : ℚ) (digits : ℕ) : ℚ :=
  toDouble (roundHalfEven (value * 10 ^ digits) / 10 ^ digits)

/-! ## Similarity -/

def timingFamilies : List FailureFamily :=
  [.timingNoGain, .timingRegression, .criticalPathMigration, .holdRegression,
    .areaPolicyViolation, .powerPolicyViolation, .physicalCorrelationMiss,
    .congestionOrRoutabilityRisk]

/-- The weight of each part that two fingerprints may share. -/
def sharedParts (left right : CandidateFailureFingerprint) : List (ℚ × Bool) :=
  [(0.25, left.targetConeFingerprint = right.targetConeFingerprint),
    (0.20, left.operationFamily = right.operationFamily ∧ left.operation = right.operation),
    (0.20, left.astDiffFingerprint = right.astDiffFingerprint),
    (0.15, left.mappedDeltaFingerprint = right.mappedDeltaFingerprint),
    (0.10, left.parameterFingerprint = right.parameterFingerprint),
    (0.10, left.ancestorLineage = right.ancestorLineage)]

def semanticSimilarity (left right : CandidateFailureFingerprint) : ℚ :=
  if left.failureFamily = .formalSemanticFailure ∧
      left.formalCounterexampleFingerprint ≠ right.formalCounterexampleFingerprint then 0
  else if left.failureFamily ∈ timingFamilies ∧
      left.metricResponseClass ≠ right.metricResponseClass then 0
  else
    let score := (sharedParts left right).foldl
      (fun score (weight, shared) => toDouble (score + if shared then toDouble weight else 0)) 0
    roundDigits score 12

/-! ## Stagnation -/

structure FailureObservation where
  fingerprint : CandidateFailureFingerprint
  wnsImprovementNs : ℚ
  areaChangePercent : ℚ

variable (policy : RecoveryPolicyRegistry)

/-- `_no_progress` -/
def noProgress (wnsImprovementNs areaChangePercent : ℚ) : Bool :=
  ¬ policy.wnsProgressEpsilonNs < wnsImprovementNs ∧
    ¬ policy.areaProgressEpsilonPercent < -areaChangePercent

variable (current : CandidateFailureFingerprint)

/-- The loop of `detect_stagnation` over the reversed history. -/
def scanBack : List FailureObservation → ℕ → Bool
  | [], _ => false
  | observation :: earlier, qualifying =>
    if observation.fingerprint.failureFamily ≠ current.failureFamily then false
    else if semanticSimilarity observation.fingerprint current < policy.similarityThreshold then
      false
    else if ¬ noProgress policy observation.wnsImprovementNs observation.areaChangePercent then
      false
    else if policy.repeatedFailureCount ≤ qualifying + 1 then true
    else scanBack earlier (qualifying + 1)

def detectStagnation (history : List FailureObservation)
    (wnsImprovementNs areaChangePercent : ℚ) : Bool :=
  if ¬ noProgress policy wnsImprovementNs areaChangePercent then false
  else scanBack policy current history.reverse 1

/-- The observation is of the same family, similar and without progress. -/
def qualifies (observation : FailureObservation) : Bool :=
  observation.fingerprint.failureFamily = current.failureFamily ∧
    policy.similarityThreshold ≤ semanticSimilarity observation.fingerprint current ∧
    noProgress policy observation.wnsImprovementNs observation.areaChangePercent

/-- The longest run of qualifying observations at the end of the history. -/
def trailingRun (history : List FailureObservation) : List FailureObservation :=
  history.rtakeWhile (qualifies policy current)

/-- The current observation and the run before it are enough failures without progress. -/
def Stagnates (history : List FailureObservation) (wnsImprovementNs areaChangePercent : ℚ) :
    Prop :=
  noProgress policy wnsImprovementNs areaChangePercent ∧
    policy.repeatedFailureCount ≤ 1 + (trailingRun policy current history).length

variable {policy current}

theorem scanBack_cons (observation : FailureObservation) (earlier : List FailureObservation)
    (qualifying : ℕ) :
    scanBack policy current (observation :: earlier) qualifying =
      (qualifies policy current observation &&
        (policy.repeatedFailureCount ≤ qualifying + 1 ||
          scanBack policy current earlier (qualifying + 1))) := by
  rw [scanBack, qualifies]
  by_cases hfamily : observation.fingerprint.failureFamily = current.failureFamily
  · by_cases hsimilar : semanticSimilarity observation.fingerprint current <
        policy.similarityThreshold
    · simp [hsimilar, not_le.mpr hsimilar]
    · by_cases hprogress :
          noProgress policy observation.wnsImprovementNs observation.areaChangePercent
      · simp [hfamily, hsimilar, not_lt.mp hsimilar, hprogress, Bool.if_true_left]
      · simp [hprogress]
  · simp [hfamily]

/-- What the loop reports from a count on. -/
theorem scanBack_iff (observations : List FailureObservation) (qualifying : ℕ) :
    scanBack policy current observations qualifying ↔
      0 < (observations.takeWhile (qualifies policy current)).length ∧
        policy.repeatedFailureCount ≤
          qualifying + (observations.takeWhile (qualifies policy current)).length := by
  induction observations generalizing qualifying with
  | nil => simp [scanBack]
  | cons observation earlier ih =>
    rw [scanBack_cons, List.takeWhile_cons]
    cases qualifies policy current observation
    · simp
    · simp only [Bool.true_and, Bool.or_eq_true, decide_eq_true_eq, ih, if_true, List.length_cons]
      omega

theorem length_trailingRun (history : List FailureObservation) :
    (trailingRun policy current history).length =
      (history.reverse.takeWhile (qualifies policy current)).length := by
  rw [trailingRun, List.rtakeWhile, List.length_reverse]

theorem detectStagnation_iff (history : List FailureObservation)
    (wnsImprovementNs areaChangePercent : ℚ) :
    detectStagnation policy current history wnsImprovementNs areaChangePercent ↔
      Stagnates policy current history wnsImprovementNs areaChangePercent ∧
        0 < (trailingRun policy current history).length := by
  unfold detectStagnation Stagnates
  rw [length_trailingRun]
  by_cases hprogress : noProgress policy wnsImprovementNs areaChangePercent
  · rw [if_neg (not_not.mpr hprogress), scanBack_iff, and_comm]
    simp only [hprogress, true_and]
  · simp [hprogress]

/-- Stagnation is reported as the count says, except that the current failure alone is not reported
where a count of one makes it enough. -/
theorem stagnation_reported_iff (policy : RecoveryPolicyRegistry)
    (current : CandidateFailureFingerprint) (history : List FailureObservation)
    (wnsImprovementNs areaChangePercent : ℚ) :
    (detectStagnation policy current history wnsImprovementNs areaChangePercent ↔
        Stagnates policy current history wnsImprovementNs areaChangePercent) ↔
      1 < policy.repeatedFailureCount ∨
        noProgress policy wnsImprovementNs areaChangePercent = false ∨
        trailingRun policy current history ≠ [] := by
  have hpos := policy.repeatedFailureCount_pos
  rw [detectStagnation_iff, Stagnates, ← List.length_pos_iff_ne_nil]
  cases noProgress policy wnsImprovementNs areaChangePercent
  · simp
  · simp only [true_and, Bool.true_eq_false, false_or]
    omega

/-- A single failure is not reported although the policy asks for one. -/
theorem first_failure_not_reported :
    ¬ ∀ (policy : RecoveryPolicyRegistry) (current : CandidateFailureFingerprint)
      (history : List FailureObservation) (wnsImprovementNs areaChangePercent : ℚ),
      detectStagnation policy current history wnsImprovementNs areaChangePercent ↔
        Stagnates policy current history wnsImprovementNs areaChangePercent := by
  intro h
  have hreported := (h (uniformPolicy [.rejectCandidate] (by decide)) sampleFingerprint [] 0 0).mpr
    ⟨by decide +kernel, le_rfl⟩
  have hnone : detectStagnation (uniformPolicy [.rejectCandidate] (by decide)) sampleFingerprint
      [] 0 0 = false := by
    decide +kernel
  rw [hnone] at hreported
  cases hreported

end NovaRtl.Recovery
