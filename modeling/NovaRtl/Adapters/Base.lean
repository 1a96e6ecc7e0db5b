import NovaRtl.Contracts.Base
import NovaRtl.Text.Markers

/-!
# Parsing raw tool results

The parse driver of `adapters/base.py`. A tool's report parser reads the text that the tool
printed; the driver decides what the end of the process lets it say.
-/

namespace NovaRtl

open Text

/-- `StageStatus`, and the `ProofOutcome` of a formal proof. -/
inductive StageStatus where
  | pass
  | fail
  | inconclusive
  | infrastructureError
  deriving DecidableEq, Repr

/-- The stages of a formal tool. They belong to no analysis view and need no metric to pass. -/
inductive FormalStage where
  | formalModelPreflight
  | eqySmoke
  | formalEquivalence
  deriving DecidableEq, Repr

def FormalStage.text : FormalStage → String
  | formalModelPreflight => "FORMAL_MODEL_PREFLIGHT"
  | eqySmoke => "EQY_SMOKE"
  | formalEquivalence => "FORMAL_EQUIVALENCE"

inductive Severity where
  | info
  | warning
  | error
  | fatal
  deriving DecidableEq, Repr

structure Diagnostic where
  code : String
  severity : Severity
  message : String
  evidenceRefs : List EntityId
  deriving DecidableEq, Repr

/-- The metrics of a formal stage, none of which has a value. -/
structure MetricSet where
  runtimeMs : ℕ
  missingMetricReasons : List (String × String)
  deriving DecidableEq, Repr

def metricValueFields : List String :=
  ["setup_wns_ns", "setup_tns_ns", "hold_wns_ns", "hold_tns_ns", "failing_endpoints",
    "critical_path_delay_ns", "estimated_fmax_mhz", "mapped_area_um2", "physical_area_um2",
    "cell_count", "register_count", "buffer_count", "power_total_uw", "wirelength_um",
    "congestion_overflow"]

structure AdapterParseContext where
  stage : FormalStage
  runtimeMs : ℕ
  evidenceArtifactId : EntityId

structure ParsedAdapterResult where
  status : StageStatus
  metrics : MetricSet
  diagnostics : List Diagnostic
  diagnostics_nil_iff : diagnostics = [] ↔ status = .pass

/-- An artifact with the bytes that the store holds for it. -/
structure RawArtifact where
  artifactId : EntityId
  content : ByteArray

structure RawToolResult where
  exitCode : ℤ
  signal : Option ℕ
  timedOut : Bool
  wallTimeMs : ℕ
  rawArtifacts : List RawArtifact
  signal_pos : ∀ number ∈ signal, 1 ≤ number
  ids_nodup : (rawArtifacts.map RawArtifact.artifactId).Nodup

inductive AdapterError where
  | missingArtifact (role : String)
  deriving DecidableEq, Repr

/-- What Python does with a text beyond ASCII. -/
structure TextRules where
  /-- `bytes.decode("utf-8", errors="replace")` for bytes that are no UTF-8. -/
  replaced : ByteArray → String
  /-- `str.lower` -/
  lower : String → String

namespace AdapterParseContext

variable (context : AdapterParseContext)

def metricSet : MetricSet where
  runtimeMs := context.runtimeMs
  missingMetricReasons := metricValueFields.map fun field =>
    (field, "not produced by " ++ context.stage.text ++ " adapter")

def diagnostic (code message : String) (severity : Severity) : Diagnostic where
  code := code
  severity := severity
  message := message
  evidenceRefs := [context.evidenceArtifactId]

/-- A result with one diagnostic. -/
def failure (status : StageStatus) (code message : String) (severity : Severity)
    (h : status ≠ .pass) : ParsedAdapterResult where
  status := status
  metrics := context.metricSet
  diagnostics := [context.diagnostic code message severity]
  diagnostics_nil_iff := by simp [h]

def infrastructureResult (code message : String) : ParsedAdapterResult :=
  context.failure .infrastructureError code message .fatal StageStatus.noConfusion

end AdapterParseContext

section Parse

variable (rules : TextRules)

def decodeReplacing (bytes : ByteArray) : String :=
  (decode bytes).getD (rules.replaced bytes)

/-- The first artifact of the role. -/
def RawToolResult.findArtifact (raw : RawToolResult) (role : String) :
    Except AdapterError RawArtifact :=
  match raw.rawArtifacts.find? fun item =>
    ("_" ++ role).toList.isSuffixOf item.artifactId.toList with
  | some item => .ok item
  | none => .error (.missingArtifact role)

/-- A tool's adapter, with the parser of its reports. -/
structure BaseToolAdapter where
  parseReport : TextRules → String → ℤ → AdapterParseContext → ParsedAdapterResult

/-- The outcome that `parse` writes into the stage result of its job. -/
def BaseToolAdapter.parse (adapter : BaseToolAdapter) (stage : FormalStage)
    (raw : RawToolResult) : Except AdapterError ParsedAdapterResult := do
  let stdout ← raw.findArtifact "stdout"
  let stderr ← raw.findArtifact "stderr"
  let context : AdapterParseContext := ⟨stage, raw.wallTimeMs, stdout.artifactId⟩
  if raw.timedOut then
    return context.infrastructureResult "INFRASTRUCTURE_TOOL_TIMEOUT"
      "tool execution exceeded its wall-time or absolute deadline"
  let text := decodeReplacing rules (stdout.content ++ encode "\n" ++ stderr.content)
  let outcome := adapter.parseReport rules text raw.exitCode context
  match raw.signal with
  | some number =>
    if outcome.status = .pass then
      return context.infrastructureResult "INFRASTRUCTURE_TOOL_CRASH"
        ("tool terminated by signal " ++ toString number)
    return outcome
  | none =>
    if raw.exitCode ≠ 0 ∧ outcome.status = .pass then
      return context.infrastructureResult "INFRASTRUCTURE_TOOL_EXIT"
        ("tool returned exit code " ++ toString raw.exitCode ++
          " without design-failure evidence")
    return outcome

variable {rules} {adapter : BaseToolAdapter} {stage : FormalStage} {raw : RawToolResult}
variable {stdout stderr : RawArtifact}

/-- The driver passes what the report parser passes, if the process ended well. -/
theorem BaseToolAdapter.parse_pass_iff (hstdout : raw.findArtifact "stdout" = .ok stdout)
    (hstderr : raw.findArtifact "stderr" = .ok stderr) :
    (∃ parsed, adapter.parse rules stage raw = .ok parsed ∧ parsed.status = .pass) ↔
      raw.timedOut = false ∧ raw.signal = none ∧ raw.exitCode = 0 ∧
        (adapter.parseReport rules
          (decodeReplacing rules (stdout.content ++ encode "\n" ++ stderr.content)) raw.exitCode
          ⟨stage, raw.wallTimeMs, stdout.artifactId⟩).status = .pass := by
  have hinfrastructure (context : AdapterParseContext) (code message : String) :
      (context.infrastructureResult code message).status ≠ .pass := StageStatus.noConfusion
  simp only [BaseToolAdapter.parse, hstdout, hstderr, bind, Except.bind, pure, Except.pure]
  cases raw.timedOut with
  | true => simp [hinfrastructure]
  | false =>
    cases raw.signal with
    | some number =>
      simp only [Bool.false_eq_true, reduceIte]
      split <;> simp_all
    | none =>
      simp only [Bool.false_eq_true, reduceIte]
      split
      next hexit => simp [hinfrastructure, hexit.1]
      next hexit => grind

end Parse

end NovaRtl
