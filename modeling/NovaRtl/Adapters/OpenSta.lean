import NovaRtl.Adapters.Reports

/-!
# The OpenSTA adapter

`parse_report` of `adapters/opensta.py`.
-/

namespace NovaRtl.Reports.OpenSta

open Text
open Migrations (MetricField)

inductive Check where
  | setup
  | hold
  deriving DecidableEq

def Check.text : Check → String
  | setup => "SETUP"
  | hold => "HOLD"

def Check.wnsField : Check → String
  | setup => "setup_wns_ns"
  | hold => "hold_wns_ns"

def Check.tnsField : Check → String
  | setup => "setup_tns_ns"
  | hold => "hold_tns_ns"

/-- The values of a summary; there is a frequency for a setup check. -/
structure Timing where
  check : Check
  failing : ℤ
  delay : Binary64
  wns : Binary64
  tns : Binary64
  fmax : Option Binary64

namespace Timing

variable (timing : Timing)

def value : MetricField → Option Metric
  | .failingEndpoints => some (.int timing.failing)
  | .criticalPathDelayNs => some (.float timing.delay)
  | .setupWnsNs => if timing.check = .setup then some (.float timing.wns) else none
  | .setupTnsNs => if timing.check = .setup then some (.float timing.tns) else none
  | .holdWnsNs => if timing.check = .hold then some (.float timing.wns) else none
  | .holdTnsNs => if timing.check = .hold then some (.float timing.tns) else none
  | .estimatedFmaxMhz => timing.fmax.map .float
  | _ => none

def violates : Bool := timing.wns.isNegative || timing.tns.isNegative || 0 < timing.failing

/-- The code and message of a violation. -/
def failure (rules : ReportRules) : Option (String × String) :=
  if timing.violates then
    some ("TIMING_" ++ timing.check.text ++ "_VIOLATION",
      timing.check.text.toLower ++ " timing failed: WNS=" ++ rules.general timing.wns ++
        " ns, TNS=" ++ rules.general timing.tns ++ " ns, endpoints=" ++ toString timing.failing)
  else none

end Timing

def readCheck (fields : Fields) : Except Raised Check := do
  let check ← requiredField fields "check"
  if check = Check.setup.text.toList then return .setup
  else if check = Check.hold.text.toList then return .hold
  else throw (malformed ("unsupported timing check: " ++ String.ofList check))

section Read

variable (rules : ReportRules) (text : String)

def readTiming : Except Raised Timing := do
  let fields ← summaryFields rules text "NOVA_OPENSTA_SUMMARY" "NOVA_OPENSTA_END"
  let check ← readCheck fields
  let failing ← strictInt rules fields "failing_endpoints"
  let delay ← finiteFloat rules fields "critical_path_delay_ns"
  require (0 ≤ failing ∧ delay.isPositive)
    (malformed "timing counts must be nonnegative and path delay must be positive")
  match check with
  | .setup =>
    let wns ← finiteFloat rules fields "setup_wns_ns"
    let tns ← finiteFloat rules fields "setup_tns_ns"
    let fmax ← finiteFloat rules fields "estimated_fmax_mhz"
    return ⟨check, failing, delay, wns, tns, some fmax⟩
  | .hold =>
    let wns ← finiteFloat rules fields "hold_wns_ns"
    let tns ← finiteFloat rules fields "hold_tns_ns"
    return ⟨check, failing, delay, wns, tns, none⟩

/-- `parse_report` -/
def parseReport (_exitCode : ℤ) (context : AdapterParseContext) :
    Except Raised ParsedAdapterResult :=
  context.catchReport (readTiming rules text) fun timing =>
    context.metricsResult timing.value (timing.failure rules)

/-! ## What a timing report says -/

/-- The check that a summary is for. -/
def IsCheck (fields : Fields) (check : Check) : Prop :=
  fields.lookup "check".toList = some check.text.toList

/-- The fields of a summary but the frequency. -/
structure TimingFields (fields : Fields) (check : Check) : Prop where
  check_eq : IsCheck fields check
  failing : HasCount rules fields "failing_endpoints"
  delay : HasPositive rules fields "critical_path_delay_ns"
  wns : HasFinite rules fields check.wnsField
  tns : HasFinite rules fields check.tnsField

/-- The grammar and the bounds of a timing report. -/
def TimingReport : Prop :=
  ∃ fields check, summaryFields rules text "NOVA_OPENSTA_SUMMARY" "NOVA_OPENSTA_END" = .ok fields ∧
    TimingFields rules fields check ∧
    (check = .setup → HasPositive rules fields "estimated_fmax_mhz")

/-- The count of endpoints is not too long for `int`, and the frequency of a setup check is not
zero or negative if the rest of the summary is in order. -/
structure Handles : Prop where
  digits_le : ∀ fields check,
    summaryFields rules text "NOVA_OPENSTA_SUMMARY" "NOVA_OPENSTA_END" = .ok fields →
    IsCheck fields check → ∀ digits n, HasDigits rules fields "failing_endpoints" digits n →
      digits.length ≤ maxStrDigits
  fmax_pos : ∀ fields,
    summaryFields rules text "NOVA_OPENSTA_SUMMARY" "NOVA_OPENSTA_END" = .ok fields →
    TimingFields rules fields .setup → ∀ x, HasFloat rules fields "estimated_fmax_mhz" x →
      x.isFinite → x.isPositive

end Read

section Results

variable {rules : ReportRules} {text : String} {fields : Fields} {check : Check}

theorem not_escapes_readCheck : ¬ Escapes (readCheck fields) := by
  simp only [readCheck, escapes_bind, not_escapes_requiredField, false_or, not_exists, not_and]
  intro check _
  split
  · exact not_escapes_pure _
  · split
    · exact not_escapes_pure _
    · exact not_escapes_report _ _

theorem readCheck_eq_ok : readCheck fields = .ok check ↔ IsCheck fields check := by
  simp only [readCheck, bind_eq_ok, requiredField_eq_ok, IsCheck]
  have hne : Check.hold.text.toList ≠ Check.setup.text.toList := by decide
  constructor
  · rintro ⟨value, hvalue, h⟩
    split at h
    next heq => rw [hvalue, heq, ← Except.ok.inj h]
    next =>
      split at h
      next heq => rw [hvalue, heq, ← Except.ok.inj h]
      next => cases h
  · intro h
    refine ⟨_, h, ?_⟩
    cases check with
    | setup => rw [if_pos rfl]; rfl
    | hold => rw [if_neg hne, if_pos rfl]; rfl

theorem escapes_readTiming : Escapes (readTiming rules text) ↔
    ∃ fields check,
      summaryFields rules text "NOVA_OPENSTA_SUMMARY" "NOVA_OPENSTA_END" = .ok fields ∧
      IsCheck fields check ∧
      ∃ digits n, HasDigits rules fields "failing_endpoints" digits n ∧
        maxStrDigits < digits.length := by
  rw [readTiming]
  simp only [escapes_bind, not_escapes_summaryFields, not_escapes_readCheck, readCheck_eq_ok,
    escapes_strictInt, not_escapes_finiteFloat, malformed, not_escapes_require, false_or]
  constructor
  · rintro ⟨fields, hfields, check, hcheck, hlong | ⟨_, _, _, _, _, _, hrest⟩⟩
    · exact ⟨fields, check, hfields, hcheck, hlong⟩
    · cases check <;>
        simp only [escapes_bind, not_escapes_finiteFloat, not_escapes_pure, and_false, false_or,
          exists_false] at hrest
  · rintro ⟨fields, check, hfields, hcheck, hlong⟩
    exact ⟨fields, hfields, check, hcheck, .inl hlong⟩

/-- What was read of a summary. -/
structure Reads (rules : ReportRules) (fields : Fields) (timing : Timing) : Prop where
  check : IsCheck fields timing.check
  failing : ∃ digits, HasDigits rules fields "failing_endpoints" digits timing.failing ∧
    digits.length ≤ maxStrDigits
  failing_nonneg : 0 ≤ timing.failing
  delay : HasFloat rules fields "critical_path_delay_ns" timing.delay
  delay_finite : timing.delay.isFinite
  delay_pos : timing.delay.isPositive
  wns : HasFloat rules fields timing.check.wnsField timing.wns
  wns_finite : timing.wns.isFinite
  tns : HasFloat rules fields timing.check.tnsField timing.tns
  tns_finite : timing.tns.isFinite
  fmax : ∀ x ∈ timing.fmax, HasFloat rules fields "estimated_fmax_mhz" x ∧ x.isFinite
  fmax_isSome : timing.fmax.isSome ↔ timing.check = .setup

theorem readTiming_eq_ok {timing : Timing} : readTiming rules text = .ok timing ↔
    ∃ fields, summaryFields rules text "NOVA_OPENSTA_SUMMARY" "NOVA_OPENSTA_END" = .ok fields ∧
      Reads rules fields timing := by
  rw [readTiming]
  simp only [bind_eq_ok, readCheck_eq_ok, strictInt_eq_ok, finiteFloat_eq_ok]
  constructor
  · rintro ⟨fields, hfields, check, hcheck, failing, hfailing, delay, ⟨hdelay, hfinite⟩, _,
      hrequire, h⟩
    obtain ⟨hnonneg, hpos⟩ := require_eq_ok.mp hrequire
    refine ⟨fields, hfields, ?_⟩
    cases check with
    | setup =>
      simp only [bind_eq_ok, finiteFloat_eq_ok, pure, Except.pure, Except.ok.injEq] at h
      obtain ⟨wns, ⟨hwns, hwnsfinite⟩, tns, ⟨htns, htnsfinite⟩, fmax, hfmax, rfl⟩ := h
      exact ⟨hcheck, hfailing, hnonneg, hdelay, hfinite, hpos, hwns, hwnsfinite, htns, htnsfinite,
        by simpa using hfmax, by simp⟩
    | hold =>
      simp only [bind_eq_ok, finiteFloat_eq_ok, pure, Except.pure, Except.ok.injEq] at h
      obtain ⟨wns, ⟨hwns, hwnsfinite⟩, tns, ⟨htns, htnsfinite⟩, rfl⟩ := h
      exact ⟨hcheck, hfailing, hnonneg, hdelay, hfinite, hpos, hwns, hwnsfinite, htns, htnsfinite,
        by simp, by simp⟩
  · rintro ⟨fields, hfields, hreads⟩
    refine ⟨fields, hfields, timing.check, hreads.check, timing.failing, hreads.failing,
      timing.delay, ⟨hreads.delay, hreads.delay_finite⟩, (),
      require_eq_ok.mpr ⟨hreads.failing_nonneg, hreads.delay_pos⟩, ?_⟩
    obtain ⟨check, failing, delay, wns, tns, fmax⟩ := timing
    cases check with
    | setup =>
      obtain ⟨x, rfl⟩ := Option.isSome_iff_exists.mp (hreads.fmax_isSome.mpr rfl)
      simp only [bind_eq_ok, finiteFloat_eq_ok]
      exact ⟨wns, ⟨hreads.wns, hreads.wns_finite⟩, tns, ⟨hreads.tns, hreads.tns_finite⟩, x,
        hreads.fmax x rfl, rfl⟩
    | hold =>
      have hfmax : fmax = none := by
        simpa using hreads.fmax_isSome
      subst hfmax
      simp only [bind_eq_ok, finiteFloat_eq_ok]
      exact ⟨wns, ⟨hreads.wns, hreads.wns_finite⟩, tns, ⟨hreads.tns, hreads.tns_finite⟩, rfl⟩

theorem Reads.timingFields {timing : Timing} (h : Reads rules fields timing) :
    TimingFields rules fields timing.check where
  check_eq := h.check
  failing :=
    let ⟨digits, hdigits, _⟩ := h.failing
    ⟨digits, timing.failing, hdigits, h.failing_nonneg⟩
  delay := ⟨timing.delay, h.delay, h.delay_finite, h.delay_pos⟩
  wns := ⟨timing.wns, h.wns, h.wns_finite⟩
  tns := ⟨timing.tns, h.tns, h.tns_finite⟩

/-- The contract takes what was read, if the frequency is positive. -/
theorem Reads.accepted_iff {timing : Timing} (h : Reads rules fields timing) :
    Accepted timing.value ↔ ∀ x ∈ timing.fmax, x.isPositive := by
  constructor
  · intro haccepted x hx
    have hmem : Metric.float x ∈ timing.value .estimatedFmaxMhz := Option.mem_map_of_mem _ hx
    have hboth : (x.isFinite && x.isPositive) = true := haccepted .estimatedFmaxMhz _ hmem
    exact (Bool.and_eq_true_iff.mp hboth).2
  · intro hpos field metric hmetric
    cases field with
    | failingEndpoints =>
      obtain rfl := Option.mem_some.mp hmetric
      exact decide_eq_true h.failing_nonneg
    | criticalPathDelayNs =>
      obtain rfl := Option.mem_some.mp hmetric
      exact Bool.and_eq_true_iff.mpr ⟨h.delay_finite, h.delay_pos⟩
    | setupWnsNs | holdWnsNs =>
      obtain rfl := Option.mem_some.mp (Option.mem_ite_none_right.mp hmetric).2
      exact h.wns_finite
    | setupTnsNs | holdTnsNs =>
      obtain rfl := Option.mem_some.mp (Option.mem_ite_none_right.mp hmetric).2
      exact h.tns_finite
    | estimatedFmaxMhz =>
      obtain ⟨x, hx, rfl⟩ := Option.mem_map.mp hmetric
      exact Bool.and_eq_true_iff.mpr ⟨(h.fmax x hx).2, hpos x hx⟩
    | _ => cases hmetric

theorem handled_iff (exitCode : ℤ) (context : AdapterParseContext) :
    Handled (parseReport rules text exitCode context) (TimingReport rules text) ↔
      Handles rules text := by
  rw [parseReport, handled_catchReport_iff, escapes_readTiming]
  · constructor
    · rintro ⟨hescapes, haccepted⟩
      have hdigits : ∀ fields check,
          summaryFields rules text "NOVA_OPENSTA_SUMMARY" "NOVA_OPENSTA_END" = .ok fields →
          IsCheck fields check → ∀ digits n, HasDigits rules fields "failing_endpoints" digits n →
            digits.length ≤ maxStrDigits := by
        intro fields check hfields hcheck digits n hn
        by_contra hlong
        exact hescapes ⟨fields, check, hfields, hcheck, digits, n, hn, Nat.lt_of_not_le hlong⟩
      refine ⟨hdigits, fun fields hfields hrest x hx hfinite => ?_⟩
      obtain ⟨digits, n, hn, hnonneg⟩ := hrest.failing
      obtain ⟨delay, hdelay, hdelayfinite, hdelaypos⟩ := hrest.delay
      obtain ⟨wns, hwns, hwnsfinite⟩ := hrest.wns
      obtain ⟨tns, htns, htnsfinite⟩ := hrest.tns
      have hreads : Reads rules fields ⟨.setup, n, delay, wns, tns, some x⟩ :=
        ⟨hrest.check_eq, ⟨digits, hn, hdigits _ _ hfields hrest.check_eq _ _ hn⟩, hnonneg, hdelay,
          hdelayfinite, hdelaypos, hwns, hwnsfinite, htns, htnsfinite,
          fun y hy => Option.mem_some.mp hy ▸ ⟨hx, hfinite⟩, by simp⟩
      exact hreads.accepted_iff.mp (haccepted _ (readTiming_eq_ok.mpr ⟨fields, hfields, hreads⟩))
        x rfl
    · rintro ⟨hdigits, hfmax⟩
      refine ⟨?_, fun timing htiming => ?_⟩
      · rintro ⟨fields, check, hfields, hcheck, digits, n, hn, hlong⟩
        exact absurd (hdigits fields check hfields hcheck digits n hn) (Nat.not_le_of_lt hlong)
      · obtain ⟨fields, hfields, hreads⟩ := readTiming_eq_ok.mp htiming
        refine hreads.accepted_iff.mpr fun x hx => ?_
        have hsetup : timing.check = .setup :=
          hreads.fmax_isSome.mp (Option.isSome_iff_exists.mpr ⟨x, hx⟩)
        exact hfmax fields hfields (hsetup ▸ hreads.timingFields) x (hreads.fmax x hx).1
          (hreads.fmax x hx).2
  · intro timing htiming haccepted
    obtain ⟨fields, hfields, hreads⟩ := readTiming_eq_ok.mp htiming
    refine ⟨fields, timing.check, hfields, hreads.timingFields, fun hsetup => ?_⟩
    obtain ⟨x, hx⟩ := Option.isSome_iff_exists.mp (hreads.fmax_isSome.mpr hsetup)
    exact ⟨x, (hreads.fmax x hx).1, (hreads.fmax x hx).2, hreads.accepted_iff.mp haccepted x hx⟩

end Results

end NovaRtl.Reports.OpenSta
