import NovaRtl.Adapters.Base
import NovaRtl.Contracts.Checks
import NovaRtl.Contracts.Migrations
import NovaRtl.Number.Binary64
import NovaRtl.Text.Chars
import NovaRtl.Text.Lines
import NovaRtl.Text.Pattern

/-!
# Parsing reports with metrics

The parse helpers of `adapters/base.py` and the contract of the metrics. A parser catches its own
errors on a report and answers with an infrastructure error; every other error escapes from it.
-/

namespace NovaRtl.Reports

open Text
open Migrations (Stage MetricField MetricKind)

/-! ## Results -/

inductive Metric where
  | int (n : ℤ)
  | float (x : Binary64)
  deriving DecidableEq

def accepts : MetricKind → Metric → Bool
  | .finiteFloat, .float x => x.isFinite
  | .positiveFloat, .float x => x.isFinite && x.isPositive
  | .nonNegativeFloat, .float x => x.isFinite && !x.isNegative
  | .nonNegativeInt, .int n => 0 ≤ n
  | _, _ => false

structure MetricSet where
  analysisViewId : Option Identifier
  value : MetricField → Option Metric
  runtimeMs : ℕ
  missingMetricReasons : MetricField → Option String
  accepted : ∀ field, ∀ metric ∈ value field, accepts field.kind metric
  missing_iff : ∀ field, (missingMetricReasons field).isSome ↔ value field = none

structure AdapterParseContext where
  stage : Stage
  analysisViewId : Option Identifier
  runtimeMs : ℕ
  evidenceArtifactId : Identifier

structure ParsedAdapterResult where
  status : StageStatus
  metrics : MetricSet
  diagnostics : List Diagnostic
  diagnostics_nil_iff : diagnostics = [] ↔ status = .pass

/-- What a parser may raise. -/
inductive Raised where
  /-- `ReportParseError` -/
  | report (code message : String)
  /-- The `ValueError` of `int`, for a text with too many digits. -/
  | intDigits
  /-- `KeyError` -/
  | key (name : String)
  /-- The `OverflowError` of an integer as a float. -/
  | floatOverflow
  /-- The `ValidationError` of `MetricSet`. -/
  | invalidMetrics
  deriving DecidableEq

def malformed (message : String) : Raised := .report "INFRASTRUCTURE_MALFORMED_REPORT" message

def missingSection (message : String) : Raised :=
  .report "INFRASTRUCTURE_MISSING_REPORT_SECTION" message

def stageText : Stage → String
  | .rtlParse => "RTL_PARSE"
  | .yosysSynth => "YOSYS_SYNTH"
  | .constraintBinding => "CONSTRAINT_BINDING"
  | .clockInventory => "CLOCK_INVENTORY"
  | .cdcInvariant => "CDC_INVARIANT"
  | .formalModelPreflight => "FORMAL_MODEL_PREFLIGHT"
  | .eqySmoke => "EQY_SMOKE"
  | .fastSynth => "FAST_SYNTH"
  | .openstaFull => "OPENSTA_FULL"
  | .openroadPhysical => "OPENROAD_PHYSICAL"
  | .openroadPlacedCts => "OPENROAD_PLACED_CTS"
  | .openroadRouted => "OPENROAD_ROUTED"
  | .formalEquivalence => "FORMAL_EQUIVALENCE"
  | .simulation => "SIMULATION"
  | .powerAnalysis => "POWER_ANALYSIS"
  | .evidenceGraph => "EVIDENCE_GRAPH"
  | .opportunityFormation => "OPPORTUNITY_FORMATION"

namespace AdapterParseContext

variable (context : AdapterParseContext)

/-- `metric_set` -/
def metricSet (value : MetricField → Option Metric) : Except Raised MetricSet :=
  if h : ∀ field ∈ MetricField.all, ∀ metric ∈ value field, accepts field.kind metric then
    .ok {
      analysisViewId := context.analysisViewId
      value := value
      runtimeMs := context.runtimeMs
      missingMetricReasons := fun field =>
        if value field = none then
          some ("not produced by " ++ stageText context.stage ++ " adapter")
        else none
      accepted := fun field => h field field.mem_all
      missing_iff := fun field => by split <;> simp_all }
  else .error .invalidMetrics

/-- `metric_set(context)` -/
def noMetrics : MetricSet where
  analysisViewId := context.analysisViewId
  value _ := none
  runtimeMs := context.runtimeMs
  missingMetricReasons _ := some ("not produced by " ++ stageText context.stage ++ " adapter")
  accepted := nofun
  missing_iff := by simp

def diagnostic (code message : String) (severity : Severity) : Diagnostic where
  code := code
  severity := severity
  message := message
  evidenceRefs := [context.evidenceArtifactId]

def infrastructureResult (code message : String) : ParsedAdapterResult where
  status := .infrastructureError
  metrics := context.noMetrics
  diagnostics := [context.diagnostic code message .fatal]
  diagnostics_nil_iff := by simp

/-- The `except ReportParseError` of the parsers. -/
def catchReport {α : Type} (read : Except Raised α)
    (finish : α → Except Raised ParsedAdapterResult) : Except Raised ParsedAdapterResult :=
  match read with
  | .ok a => finish a
  | .error (.report code message) => .ok (context.infrastructureResult code message)
  | .error raised => .error raised

theorem diagnostics_nil_iff_pass : ([] : List Diagnostic) = [] ↔ StageStatus.pass = .pass :=
  iff_of_true rfl rfl

/-- A result for a report with metrics: it fails with a diagnostic, if there is one. -/
def metricsResult (value : MetricField → Option Metric) (failure : Option (String × String)) :
    Except Raised ParsedAdapterResult := do
  let metrics ← context.metricSet value
  match failure with
  | some (code, message) => return {
      status := .fail
      metrics := metrics
      diagnostics := [context.diagnostic code message .error]
      diagnostics_nil_iff := by simp }
  | none => return {
      status := .pass
      metrics := metrics
      diagnostics := []
      diagnostics_nil_iff := diagnostics_nil_iff_pass }

end AdapterParseContext

/-! ## Reading a summary -/

/-- What Python does with characters beyond ASCII, and with floats. -/
structure ReportRules where
  classes : CharClasses
  /-- The value of a decimal digit. -/
  digitValue : Char → ℕ
  /-- `f"{x:g}"` -/
  general : Binary64 → String
  /-- `sum` of floats, which differs between versions of Python. -/
  sum : List Binary64 → Binary64

abbrev Fields := List (List Char × List Char)

section Read

variable (rules : ReportRules)

/-- The value of a text of digits. -/
def digits (text : List Char) : ℕ := text.foldl (fun n c => 10 * n + rules.digitValue c) 0

/-- The digits that `int` takes from a text, by default. -/
def maxStrDigits : ℕ := 4300

/-- `int(text)`, of digits -/
def int (text : List Char) : Except Raised ℕ := do
  require (text.length ≤ maxStrDigits) .intDigits
  return digits rules text

def sign : Pattern := .group "sign" (.optional (.char fun c => c = '+' || c = '-'))

/-- `_INTEGER` -/
def integerPattern : Pattern := .seq sign (.group "digits" (.many1 rules.classes.isDecimal))

/-- `_NUMBER` -/
def numberPattern : Pattern :=
  let whole := Pattern.group "whole" (.many1 rules.classes.isDecimal)
  let point := Pattern.char (· = '.')
  .inOrder [sign,
    .alt
      (.seq whole (.optional (.seq point (.group "fraction" (.many rules.classes.isDecimal)))))
      (.seq point (.group "fraction" (.many1 rules.classes.isDecimal))),
    .optional (.inOrder [.char fun c => c = 'e' || c = 'E', .group "exponent" (.seq sign
      (.group "power" (.many1 rules.classes.isDecimal)))])]

/-- The number that a decimal text stands for, without its sign. -/
def decimal (whole fraction : List Char) (exponent : ℤ) : ℚ :=
  digits rules (whole ++ fraction) * 10 ^ (exponent - fraction.length)

/-- The exponent of a decimal text. -/
def exponent (hit : Hit) : ℤ :=
  let power : ℤ := digits rules (hit.group "power")
  if (hit.group "exponent").head? = some '-' then -power else power

/-- `float(value)` -/
def float (hit : Hit) : Binary64 :=
  .round (hit.group "sign" = ['-'])
    (decimal rules (hit.group "whole") (hit.group "fraction") (exponent rules hit))

/-- The fields of the lines of a section. -/
def readFields : Fields → List (List Char) → Except Raised Fields
  | fields, [] => return fields
  | fields, line :: rest =>
    if strip rules.classes line = [] then readFields fields rest
    else do
      require (':' ∈ line) (malformed ("malformed report field: " ++ String.ofList line))
      let key := strip rules.classes (line.takeWhile (· ≠ ':'))
      let value := strip rules.classes ((line.dropWhile (· ≠ ':')).drop 1)
      require (key ≠ [] ∧ value ≠ [] ∧ fields.lookup key = none)
        (malformed ("invalid or duplicate report field: " ++ String.ofList line))
      readFields (fields ++ [(key, value)]) rest

/-- `summary_fields` -/
def summaryFields (text : String) (start stop : String) : Except Raised Fields := do
  let lines := (splitLines text.toList).map Line.content
  let after := (lines.dropWhile (· ≠ start.toList)).drop 1
  require (lines.contains start.toList ∧ after.contains stop.toList)
    (missingSection ("required report boundary is missing: " ++ start ++ " .. " ++ stop))
  let body := after.takeWhile (· ≠ stop.toList)
  require (body ≠ []) (missingSection ("required report section is empty: " ++ start))
  readFields rules [] body

def requiredField (fields : Fields) (name : String) : Except Raised (List Char) :=
  match fields.lookup name.toList with
  | some value => .ok value
  | none => .error (missingSection ("required report field is missing: " ++ name))

def finiteFloat (fields : Fields) (name : String) : Except Raised Binary64 := do
  let value ← requiredField fields name
  match (numberPattern rules).fullmatch value with
  | none => throw (malformed ("report field " ++ name ++ " is not a finite number: " ++
      String.ofList value))
  | some hit =>
    require (float rules hit).isFinite (malformed ("report field " ++ name ++ " is not finite: " ++
      String.ofList value))
    return float rules hit

def strictInt (fields : Fields) (name : String) : Except Raised ℤ := do
  let value ← requiredField fields name
  match (integerPattern rules).fullmatch value with
  | none => throw (malformed ("report field " ++ name ++ " is not an integer: " ++
      String.ofList value))
  | some hit =>
    let magnitude ← int rules (hit.group "digits")
    return if hit.group "sign" = ['-'] then -magnitude else magnitude

end Read

/-! ## What a report says -/

section Says

variable (rules : ReportRules) (fields : Fields) (name : String)

/-- A field has the digits of an integer. -/
def HasDigits (text : List Char) (n : ℤ) : Prop :=
  ∃ value hit, fields.lookup name.toList = some value ∧
    (integerPattern rules).fullmatch value = some hit ∧ hit.group "digits" = text ∧
    n = if hit.group "sign" = ['-'] then -(digits rules text : ℤ) else digits rules text

/-- A field is a number. -/
def HasFloat (x : Binary64) : Prop :=
  ∃ value hit, fields.lookup name.toList = some value ∧
    (numberPattern rules).fullmatch value = some hit ∧ float rules hit = x

/-- A field is a number that is not too large for a float. -/
def HasFinite : Prop := ∃ x, HasFloat rules fields name x ∧ x.isFinite

/-- A field is a number that has a float, above zero. -/
def HasPositive : Prop := ∃ x, HasFloat rules fields name x ∧ x.isFinite ∧ x.isPositive

/-- A field is a nonnegative integer. -/
def HasCount : Prop := ∃ digits n, HasDigits rules fields name digits n ∧ 0 ≤ n

end Says

/-- The parser returns a result, and an infrastructure error without metrics for a report that is
not valid. -/
def Handled (outcome : Except Raised ParsedAdapterResult) (valid : Prop) : Prop :=
  ∃ result, outcome = .ok result ∧
    (¬ valid → result.status = .infrastructureError ∧ ∀ field, result.metrics.value field = none)

/-! ## Errors that escape -/

/-- A step raises what is no error on the report. -/
def Escapes {α : Type} (step : Except Raised α) : Prop :=
  ∃ raised, step = .error raised ∧ ∀ code message, raised ≠ .report code message

section Escapes

variable {α β : Type} {step : Except Raised α} {f : α → Except Raised β} {rules : ReportRules}
variable {fields : Fields} {name : String}

theorem escapes_bind : Escapes (step >>= f) ↔ Escapes step ∨ ∃ a, step = .ok a ∧ Escapes (f a) := by
  cases step with
  | error raised => simp [Escapes, bind, Except.bind]
  | ok a => simp [Escapes, bind, Except.bind]

@[simp] theorem not_escapes_ok (a : α) : ¬ Escapes (.ok a : Except Raised α) := nofun

@[simp] theorem not_escapes_pure (a : α) : ¬ Escapes (pure a : Except Raised α) := nofun

@[simp] theorem not_escapes_report (code message : String) :
    ¬ Escapes (.error (.report code message) : Except Raised α) := by
  rintro ⟨raised, heq, hraised⟩
  exact hraised _ _ (Except.error.inj heq).symm

@[simp] theorem not_escapes_require {p : Prop} [Decidable p] (code message : String) :
    ¬ Escapes (require p (.report code message)) := by
  unfold require
  split
  · exact not_escapes_ok _
  · exact not_escapes_report code message

theorem escapes_error {raised : Raised} (h : ∀ code message, raised ≠ .report code message) :
    Escapes (.error raised : Except Raised α) := ⟨raised, rfl, h⟩

theorem escapes_int {text : List Char} :
    Escapes (int rules text) ↔ maxStrDigits < text.length := by
  unfold int require
  split
  next h => simpa [bind, Except.bind] using h
  next h => simpa [Escapes, bind, Except.bind] using h

theorem int_ne_report {text : List Char} (code message : String) :
    int rules text ≠ .error (.report code message) := by
  unfold int require
  split <;> simp [bind, Except.bind, pure, Except.pure]

theorem mapM_ne_report {xs : List β} {g : β → Except Raised α}
    (h : ∀ x code message, g x ≠ .error (.report code message)) (code message : String) :
    xs.mapM g ≠ .error (.report code message) := by
  induction xs with
  | nil => simp [pure, Except.pure]
  | cons x xs ih =>
    rw [List.mapM_cons]
    refine bind_ne_error (h x code message) fun _ _ => bind_ne_error ih fun _ _ => ?_
    simp [pure, Except.pure]

/-- An error escapes from what does not report, unless it succeeds. -/
theorem escapes_iff_not_ok (h : ∀ code message, step ≠ .error (.report code message)) :
    Escapes step ↔ ¬ ∃ a, step = .ok a := by
  cases step with
  | ok a => simp
  | error raised =>
    refine iff_of_true (escapes_error ?_) nofun
    rintro code message rfl
    exact h code message rfl

theorem int_eq_ok {text : List Char} {n : ℕ} :
    int rules text = .ok n ↔ text.length ≤ maxStrDigits ∧ digits rules text = n := by
  simp [int, seq_eq_ok, require_eq_ok, pure, Except.pure]

theorem not_escapes_readFields (lines : List (List Char)) :
    ¬ Escapes (readFields rules fields lines) := by
  induction lines generalizing fields with
  | nil => exact not_escapes_pure _
  | cons line rest ih =>
    rw [readFields]
    split
    · exact ih
    · simp only [escapes_bind, malformed, not_escapes_require, false_or, not_exists, not_and]
      intro _ _ _ _
      exact ih

theorem not_escapes_summaryFields (text start stop : String) :
    ¬ Escapes (summaryFields rules text start stop) := by
  simp [summaryFields, escapes_bind, missingSection, not_escapes_readFields]

@[simp] theorem not_escapes_requiredField : ¬ Escapes (requiredField fields name) := by
  unfold requiredField
  split <;> simp [missingSection]

theorem requiredField_eq_ok {value : List Char} :
    requiredField fields name = .ok value ↔ fields.lookup name.toList = some value := by
  unfold requiredField
  cases fields.lookup name.toList with
  | some found => simp
  | none => simp

@[simp] theorem not_escapes_finiteFloat : ¬ Escapes (finiteFloat rules fields name) := by
  simp only [finiteFloat, escapes_bind, not_escapes_requiredField, false_or, not_exists, not_and]
  intro value _
  split
  · exact not_escapes_report _ _
  · simp only [escapes_bind, malformed, not_escapes_require, not_escapes_pure, and_false,
      exists_false, or_false, not_false_eq_true]

theorem finiteFloat_eq_ok {x : Binary64} :
    finiteFloat rules fields name = .ok x ↔ HasFloat rules fields name x ∧ x.isFinite := by
  simp only [finiteFloat, bind_eq_ok, requiredField_eq_ok, HasFloat]
  constructor
  · rintro ⟨value, hvalue, h⟩
    split at h
    · cases h
    next hit hhit =>
      obtain ⟨hfinite, hx⟩ := seq_eq_ok.mp h
      obtain rfl := Except.ok.inj hx
      exact ⟨⟨value, hit, hvalue, hhit, rfl⟩, require_eq_ok.mp hfinite⟩
  · rintro ⟨⟨value, hit, hvalue, hhit, rfl⟩, hfinite⟩
    refine ⟨value, hvalue, ?_⟩
    simp [hhit, seq_eq_ok, require_eq_ok, hfinite, pure, Except.pure]

theorem escapes_strictInt : Escapes (strictInt rules fields name) ↔
    ∃ text n, HasDigits rules fields name text n ∧ maxStrDigits < text.length := by
  simp only [strictInt, escapes_bind, not_escapes_requiredField, false_or, requiredField_eq_ok,
    HasDigits]
  constructor
  · rintro ⟨value, hvalue, h⟩
    split at h
    · exact absurd h (not_escapes_report _ _)
    next hit hhit =>
      simp only [escapes_bind, escapes_int, not_escapes_pure, and_false, exists_false,
        or_false] at h
      exact ⟨_, _, ⟨value, hit, hvalue, hhit, rfl, rfl⟩, h⟩
  · rintro ⟨_, _, ⟨value, hit, hvalue, hhit, rfl, -⟩, hlong⟩
    refine ⟨value, hvalue, ?_⟩
    simp only [hhit, escapes_bind, escapes_int, hlong, true_or]

theorem strictInt_eq_ok {n : ℤ} : strictInt rules fields name = .ok n ↔
    ∃ text, HasDigits rules fields name text n ∧ text.length ≤ maxStrDigits := by
  simp only [strictInt, bind_eq_ok, requiredField_eq_ok, HasDigits]
  constructor
  · rintro ⟨value, hvalue, h⟩
    split at h
    · cases h
    next hit hhit =>
      obtain ⟨magnitude, hint, hn⟩ := bind_eq_ok.mp h
      obtain ⟨hlength, rfl⟩ := int_eq_ok.mp hint
      exact ⟨_, ⟨value, hit, hvalue, hhit, rfl, (Except.ok.inj hn).symm⟩, hlength⟩
  · rintro ⟨_, ⟨value, hit, hvalue, hhit, rfl, rfl⟩, hlength⟩
    refine ⟨value, hvalue, ?_⟩
    simp only [hhit, bind_eq_ok, int_eq_ok]
    exact ⟨_, ⟨hlength, rfl⟩, rfl⟩

end Escapes

/-! ## Results of a parser -/

section Results

variable {context : AdapterParseContext} {value : MetricField → Option Metric}

/-- The contract takes every value. -/
def Accepted (value : MetricField → Option Metric) : Prop :=
  ∀ field, ∀ metric ∈ value field, accepts field.kind metric

theorem metricSet_eq_ok {metrics : MetricSet} (h : context.metricSet value = .ok metrics) :
    Accepted value := by
  unfold AdapterParseContext.metricSet at h
  split at h
  next haccepted => exact fun field => haccepted field field.mem_all
  next => cases h

theorem exists_metricsResult (context : AdapterParseContext) (value : MetricField → Option Metric)
    (failure : Option (String × String)) :
    (∃ result, context.metricsResult value failure = .ok result) ↔ Accepted value := by
  constructor
  · rintro ⟨result, h⟩
    obtain ⟨metrics, hmetrics, -⟩ := bind_eq_ok.mp h
    exact metricSet_eq_ok hmetrics
  · intro haccepted
    have hall : ∀ field ∈ MetricField.all, ∀ metric ∈ value field, accepts field.kind metric :=
      fun field _ => haccepted field
    simp only [AdapterParseContext.metricsResult, AdapterParseContext.metricSet, dif_pos hall,
      bind, Except.bind]
    cases failure with
    | none => exact ⟨_, rfl⟩
    | some item => exact ⟨_, rfl⟩

/-- A parser handles a report if no error escapes from reading it, and if the contract takes the
values that it read. What was read and taken is valid. -/
theorem handled_catchReport_iff {α : Type} {read : Except Raised α} {valid : Prop}
    {values : α → MetricField → Option Metric} {failures : α → Option (String × String)}
    (hvalid : ∀ a, read = .ok a → Accepted (values a) → valid) :
    Handled (context.catchReport read fun a => context.metricsResult (values a) (failures a))
        valid ↔
      ¬ Escapes read ∧ ∀ a, read = .ok a → Accepted (values a) := by
  unfold AdapterParseContext.catchReport Handled
  cases hread : read with
  | ok a =>
    have haccepted := exists_metricsResult context (values a) (failures a)
    simp only [not_escapes_ok, not_false_eq_true, true_and, Except.ok.injEq, forall_eq']
    rw [← haccepted]
    constructor
    · rintro ⟨result, h, -⟩
      exact ⟨result, h⟩
    · rintro ⟨result, h⟩
      exact ⟨result, h, fun hnot => absurd (hvalid a hread (haccepted.mp ⟨result, h⟩)) hnot⟩
  | error raised =>
    cases raised with
    | report code message => simp [AdapterParseContext.infrastructureResult,
        AdapterParseContext.noMetrics]
    | _ => simp [Escapes]

end Results

end NovaRtl.Reports
