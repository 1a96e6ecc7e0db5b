import NovaRtl.Adapters.Base

/-!
# The EQY adapter

`adapters/eqy.py`.
-/

namespace NovaRtl.Eqy

open Text

/-- The log has a complete passing status and the sentence that goes with it. -/
def passMarked (text : String) : Bool :=
  (occurs "[status] PASS" text || occurs "DONE (PASS, rc=0)" text) &&
    occurs "Successfully proved designs equivalent" text

def parseReport (rules : TextRules) (text : String) (_exitCode : ℤ)
    (context : AdapterParseContext) : ParsedAdapterResult :=
  if passMarked text then
    { status := .pass
      metrics := context.metricSet
      diagnostics := []
      diagnostics_nil_iff := by simp }
  else if occurs "[status] FAIL" text && occurs "counterexample" (rules.lower text) then
    context.failure .fail "FORMAL_COUNTEREXAMPLE"
      "EQY produced a counterexample and a complete FAIL status" .error StageStatus.noConfusion
  else if occurs "[status] UNKNOWN" text && occurs "unknown" (rules.lower text) then
    context.failure .inconclusive "FORMAL_INCONCLUSIVE"
      "EQY completed with an unknown proof outcome" .warning StageStatus.noConfusion
  else
    context.infrastructureResult "INFRASTRUCTURE_MISSING_REPORT_SECTION"
      "EQY log does not contain a complete recognized proof status"

def eqyAdapter : BaseToolAdapter where
  parseReport := parseReport

theorem parseReport_pass_iff {rules : TextRules} {text : String} (exitCode : ℤ)
    {context : AdapterParseContext} :
    (parseReport rules text exitCode context).status = .pass ↔ passMarked text := by
  unfold parseReport
  split
  · simp_all
  · split
    · simp_all [AdapterParseContext.failure]
    · split <;> simp_all [AdapterParseContext.failure, AdapterParseContext.infrastructureResult]

end NovaRtl.Eqy
