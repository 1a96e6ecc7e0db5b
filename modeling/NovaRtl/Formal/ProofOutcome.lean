import NovaRtl.Adapters.Eqy

/-!
# The outcome of a strict proof

`run_strict_equivalence` of `formal/compose.py` reads the output of the tool a second time, and
its `_proof_outcome` receives a return code that it does not look at. `strict_pass_refines_iff`
says for which runs of the tool its verdict is still safe.
-/

namespace NovaRtl.Formal

open Text

/-- What a run of the equivalence tool leaves behind. -/
structure ToolRun where
  stdout : ByteArray
  stderr : ByteArray
  /-- `Popen.returncode`: negative if a signal ended the process. -/
  returncode : ℤ
  timedOut : Bool
  /-- The `trace.vcd` files below the workspace. -/
  traces : List ByteArray

variable (rules : TextRules)

def proofOutcome (stdout stderr : String) (_returncode : ℤ) (hasCounterexample : Bool) :
    StageStatus :=
  let combined := stdout ++ "\n" ++ stderr
  if (occurs "[status] PASS" combined || occurs "DONE (PASS, rc=0)" combined) &&
      occurs "Successfully proved designs equivalent" combined then .pass
  else if (occurs "[status] FAIL" combined || occurs "DONE (FAIL," combined) &&
      hasCounterexample then .fail
  else if occurs "[status] UNKNOWN" combined || occurs "inconclusive" (rules.lower combined) then
    .inconclusive
  else .infrastructureError

/-- The outcome of `run_strict_equivalence`, unless the output is no UTF-8 text. -/
def strictOutcome (run : ToolRun) : Option StageStatus := do
  let hasCounterexample := run.traces ≠ []
  if run.timedOut then
    let stdout ← decode run.stdout
    let stderr ← decode run.stderr
    return proofOutcome rules stdout (stderr ++ "\nNOVA strict equivalence timeout") 124
      hasCounterexample
  let stdout ← readText run.stdout
  let stderr ← readText run.stderr
  return proofOutcome rules stdout stderr run.returncode hasCounterexample

/-- The text of both streams, where they are text. -/
def ToolRun.output (run : ToolRun) : Option String := do
  let stdout ← decode run.stdout
  let stderr ← decode run.stderr
  return stdout ++ "\n" ++ stderr

def failMarked (text : String) : Bool :=
  occurs "[status] FAIL" text || occurs "DONE (FAIL," text

/-- The raw result that the adapters keep of a run: the output of both streams, and how the
process ended. -/
structure Records (raw : RawToolResult) (run : ToolRun) : Prop where
  stdout : (raw.findArtifact "stdout").map RawArtifact.content = .ok run.stdout
  stderr : (raw.findArtifact "stderr").map RawArtifact.content = .ok run.stderr
  timedOut : raw.timedOut = run.timedOut
  signal : raw.signal = if run.returncode < 0 then some run.returncode.natAbs else none
  exitCode : raw.exitCode = if run.returncode < 0 then 128 + -run.returncode else run.returncode

section Markers

variable {marker left right : String}

/-- The markers of a passing run. -/
def passMarkers : List String :=
  ["[status] PASS", "DONE (PASS, rc=0)", "Successfully proved designs equivalent"]

def timeoutNote : String := "NOVA strict equivalence timeout"

/-- They have no line boundary, and the note on a timeout has none of them. -/
theorem passMarkers_plain : ∀ marker ∈ passMarkers, '\n' ∉ marker.toList ∧ '\r' ∉ marker.toList ∧
    occurs marker timeoutNote = false := by
  decide +kernel

theorem passMarked_congr (h : ∀ marker ∈ passMarkers, occurs marker left = occurs marker right) :
    Eqy.passMarked left = Eqy.passMarked right := by
  simp only [passMarkers, List.forall_mem_cons] at h
  obtain ⟨hstatus, hdone, hproved, -⟩ := h
  rw [Eqy.passMarked, Eqy.passMarked, hstatus, hdone, hproved]

theorem occurs_lines (hlf : '\n' ∉ marker.toList) :
    occurs marker (left ++ "\n" ++ right) = (occurs marker left || occurs marker right) := by
  rw [Bool.eq_iff_iff, Bool.or_eq_true, occurs_iff, occurs_iff, occurs_iff]
  simpa using infix_append_cons_iff hlf

/-- Universal newlines change no marker. -/
theorem occurs_readText {bytes : ByteArray} {text : String} (h : readText bytes = some text)
    (hlf : '\n' ∉ marker.toList) (hcr : '\r' ∉ marker.toList) :
    ∃ decoded, decode bytes = some decoded ∧ occurs marker text = occurs marker decoded := by
  obtain ⟨decoded, hdecoded, rfl⟩ := Option.map_eq_some_iff.mp h
  refine ⟨decoded, hdecoded, ?_⟩
  rw [Bool.eq_iff_iff, occurs_iff, occurs_iff, String.toList_ofList]
  exact infix_universalNewlines_iff hlf hcr

end Markers

section Outcome

variable {rules} {run : ToolRun} {stdout stderr : String} {returncode : ℤ}
variable {hasCounterexample : Bool}

theorem proofOutcome_pass_iff :
    proofOutcome rules stdout stderr returncode hasCounterexample = .pass ↔
      Eqy.passMarked (stdout ++ "\n" ++ stderr) := by
  unfold proofOutcome Eqy.passMarked
  dsimp only
  split
  · simp_all
  · split
    · simp_all
    · split <;> simp_all

theorem passMarked_readText (hstdout : readText run.stdout = some stdout)
    (hstderr : readText run.stderr = some stderr) :
    ∃ output, run.output = some output ∧
      Eqy.passMarked (stdout ++ "\n" ++ stderr) = Eqy.passMarked output := by
  obtain ⟨out, hout, -⟩ := Option.map_eq_some_iff.mp hstdout
  obtain ⟨err, herr, -⟩ := Option.map_eq_some_iff.mp hstderr
  refine ⟨out ++ "\n" ++ err, by simp [ToolRun.output, hout, herr], passMarked_congr ?_⟩
  intro marker hmarker
  obtain ⟨hlf, hcr, -⟩ := passMarkers_plain marker hmarker
  obtain ⟨out', hout', hsameOut⟩ := occurs_readText hstdout hlf hcr
  obtain ⟨err', herr', hsameErr⟩ := occurs_readText hstderr hlf hcr
  obtain rfl := Option.some.inj (hout.symm.trans hout')
  obtain rfl := Option.some.inj (herr.symm.trans herr')
  rw [occurs_lines hlf, occurs_lines hlf, hsameOut, hsameErr]

theorem passMarked_timeout :
    Eqy.passMarked (stdout ++ "\n" ++ (stderr ++ "\nNOVA strict equivalence timeout")) =
      Eqy.passMarked (stdout ++ "\n" ++ stderr) := by
  have hnote : stderr ++ "\nNOVA strict equivalence timeout" = stderr ++ "\n" ++ timeoutNote := by
    rw [String.append_assoc]
    rfl
  apply passMarked_congr
  intro marker hmarker
  obtain ⟨hlf, -, hfree⟩ := passMarkers_plain marker hmarker
  rw [hnote, occurs_lines hlf, occurs_lines hlf, occurs_lines hlf, hfree, Bool.or_false]

/-- The runner passes on the markers alone. -/
theorem strictOutcome_pass_iff :
    strictOutcome rules run = some .pass ↔
      ∃ output, run.output = some output ∧ Eqy.passMarked output := by
  cases htimeout : run.timedOut with
  | true =>
    cases hout : decode run.stdout with
    | none => simp [strictOutcome, ToolRun.output, htimeout, hout]
    | some out =>
      cases herr : decode run.stderr with
      | none => simp [strictOutcome, ToolRun.output, htimeout, hout, herr]
      | some err =>
        simp [strictOutcome, ToolRun.output, htimeout, hout, herr, proofOutcome_pass_iff,
          passMarked_timeout]
  | false =>
    cases hout : readText run.stdout with
    | none =>
      have hnone : decode run.stdout = none := Option.map_eq_none_iff.mp hout
      simp [strictOutcome, ToolRun.output, htimeout, hout, hnone]
    | some out =>
      cases herr : readText run.stderr with
      | none =>
        have hnone : decode run.stderr = none := Option.map_eq_none_iff.mp herr
        simp [strictOutcome, ToolRun.output, htimeout, hout, herr, hnone]
      | some err =>
        obtain ⟨output, houtput, hsame⟩ := passMarked_readText hout herr
        simp [strictOutcome, htimeout, hout, herr, proofOutcome_pass_iff, houtput, hsame]

variable {raw : RawToolResult}

/-- The adapter keeps a return code of zero as an exit code of zero without a signal. -/
theorem Records.clean_iff (h : Records raw run) :
    raw.signal = none ∧ raw.exitCode = 0 ↔ run.returncode = 0 := by
  rw [h.signal, h.exitCode]
  split
  · simp
    omega
  · simp

theorem Records.find {role : String} {content : ByteArray}
    (h : (raw.findArtifact role).map RawArtifact.content = .ok content) :
    ∃ artifact, raw.findArtifact role = .ok artifact ∧ artifact.content = content := by
  cases hfind : raw.findArtifact role with
  | error e => simp [hfind, Except.map] at h
  | ok artifact => exact ⟨artifact, rfl, by simpa [hfind, Except.map] using h⟩

/-- The adapter reads the same text, where the streams are text. -/
theorem decodeReplacing_output {output : String} (h : run.output = some output) :
    decodeReplacing rules (run.stdout ++ encode "\n" ++ run.stderr) = output := by
  simp only [ToolRun.output, bind, Option.bind_eq_some_iff, pure, Option.some.injEq] at h
  obtain ⟨out, hout, err, herr, rfl⟩ := h
  have htext : run.stdout ++ encode "\n" ++ run.stderr = encode (out ++ "\n" ++ err) := by
    rw [decode_eq_some.mp hout, decode_eq_some.mp herr]
    simp [encode]
  simp [decodeReplacing, htext, decode_encode]

theorem adapter_pass_iff {stage : FormalStage} {output : String} (hrecords : Records raw run)
    (houtput : run.output = some output) :
    (∃ parsed, Eqy.eqyAdapter.parse rules stage raw = .ok parsed ∧ parsed.status = .pass) ↔
      run.timedOut = false ∧ run.returncode = 0 ∧ Eqy.passMarked output := by
  obtain ⟨stdout, hstdout, hout⟩ := Records.find hrecords.stdout
  obtain ⟨stderr, hstderr, herr⟩ := Records.find hrecords.stderr
  rw [BaseToolAdapter.parse_pass_iff hstdout hstderr, hout, herr, decodeReplacing_output houtput,
    hrecords.timedOut, ← hrecords.clean_iff, and_assoc]
  have hreport : (Eqy.eqyAdapter.parseReport rules output raw.exitCode
      ⟨stage, raw.wallTimeMs, stdout.artifactId⟩).status = .pass ↔ Eqy.passMarked output :=
    Eqy.parseReport_pass_iff raw.exitCode
  rw [hreport]

/-- When a passing verdict of the runner is a passing verdict of the adapter on a clean run. -/
theorem strict_pass_refines_iff {stage : FormalStage} (hrecords : Records raw run) :
    (strictOutcome rules run = some .pass →
      (∃ parsed, Eqy.eqyAdapter.parse rules stage raw = .ok parsed ∧ parsed.status = .pass) ∧
        run.returncode = 0 ∧ run.timedOut = false ∧
        ∀ output, run.output = some output → failMarked output = false) ↔
      ∀ output, run.output = some output → Eqy.passMarked output →
        run.returncode = 0 ∧ run.timedOut = false ∧ failMarked output = false := by
  rw [strictOutcome_pass_iff]
  constructor
  · intro h output houtput hmarked
    obtain ⟨-, hcode, htimeout, hfail⟩ := h ⟨output, houtput, hmarked⟩
    exact ⟨hcode, htimeout, hfail output houtput⟩
  · rintro h ⟨output, houtput, hmarked⟩
    obtain ⟨hcode, htimeout, hfail⟩ := h output houtput hmarked
    refine ⟨(adapter_pass_iff hrecords houtput).mpr ⟨htimeout, hcode, hmarked⟩, hcode, htimeout, ?_⟩
    intro output' houtput'
    obtain rfl := Option.some.inj (houtput.symm.trans houtput')
    exact hfail

end Outcome

section Sample

/-- The rules on ASCII text. -/
def sampleRules : TextRules where
  replaced _ := "\uFFFD"
  lower := String.toLower

/-- The tool reports a proof and then exits with code 1. -/
def sampleRun : ToolRun where
  stdout := encode "[status] PASS\nSuccessfully proved designs equivalent\n"
  stderr := encode ""
  returncode := 1
  timedOut := false
  traces := []

def sampleRaw : RawToolResult where
  exitCode := 1
  signal := none
  timedOut := false
  wallTimeMs := 1200
  rawArtifacts := [⟨"stage_eqy_stdout", sampleRun.stdout⟩, ⟨"stage_eqy_stderr", sampleRun.stderr⟩]
  signal_pos := nofun
  ids_nodup := by decide

theorem sampleRecords : Records sampleRaw sampleRun where
  stdout := rfl
  stderr := rfl
  timedOut := rfl
  signal := rfl
  exitCode := rfl

theorem sampleOutput : sampleRun.output =
    some "[status] PASS\nSuccessfully proved designs equivalent\n\n" := by
  simp [ToolRun.output, sampleRun, decode_encode]

theorem samplePass : strictOutcome sampleRules sampleRun = some .pass :=
  strictOutcome_pass_iff.mpr ⟨_, sampleOutput, by decide +kernel⟩

theorem strict_pass_refines_iff_sample :
    ¬ ∀ output, sampleRun.output = some output → Eqy.passMarked output →
      sampleRun.returncode = 0 ∧ sampleRun.timedOut = false ∧ failMarked output = false := by
  intro h
  have hclean := (@strict_pass_refines_iff sampleRules sampleRun sampleRaw .eqySmoke
    sampleRecords).mpr h samplePass
  exact absurd hclean.2.1 (by decide)

/-- The runner passes a run that the adapter does not pass. -/
theorem failed_run_passes :
    ¬ ∀ (rules : TextRules) (stage : FormalStage) (run : ToolRun) (raw : RawToolResult),
      Records raw run → strictOutcome rules run = some .pass →
        (∃ parsed, Eqy.eqyAdapter.parse rules stage raw = .ok parsed ∧ parsed.status = .pass) ∧
          run.returncode = 0 ∧ run.timedOut = false ∧
          ∀ output, run.output = some output → failMarked output = false := by
  intro h
  obtain ⟨-, hcode, -⟩ := h sampleRules .eqySmoke sampleRun sampleRaw sampleRecords samplePass
  exact absurd hcode (by decide)

end Sample

end NovaRtl.Formal
