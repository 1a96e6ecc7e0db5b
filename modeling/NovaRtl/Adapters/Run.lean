import Mathlib.Data.List.Forall2
import Mathlib.Data.List.ReduceOption
import NovaRtl.Adapters.ArtifactIds
import NovaRtl.Contracts.Checks
import NovaRtl.Scheduler.Contracts
import NovaRtl.Transforms.SourceEdit

/-!
# Running a tool

`prepare` and `run` of `adapters/base.py`, as far as the artifacts of the raw result go: which the
adapter publishes, under which ids, and what `parse` finds again. What the process did, and what
lies at the declared outputs afterwards, is an `Execution`.
-/

namespace NovaRtl.Adapters

open Text Scheduler

/-- `outputs_are_normalized`, of one path. That no part is `.` needs no test, as Python drops such
parts. -/
def normalizedOutput (item : String) : Bool :=
  item ≠ "" && item.toList.head? ≠ some '/' &&
    !(posixParts item.toList).contains ['.', '.'] && item.toList = asPosix item.toList

structure AdapterInvocation where
  argvTail : List String
  expectedOutputPaths : List String
  argv_explicit : argvTail.all fun item => item ≠ "" && '\x00' ∉ item.toList
  outputs_nodup : expectedOutputPaths.Nodup
  outputs_normalized : expectedOutputPaths.all normalizedOutput

/-- What the adapter reads of a job. -/
structure ToolJob where
  toolJobId : Identifier
  stageResultId : Identifier
  inputArtifactIds : List Identifier

/-- What a run reads of a prepared command. -/
structure PreparedCommand where
  stageResultId : Identifier
  argv : List String
  recipe : RawArtifact
  /-- `canonical_json_bytes(command)` -/
  document : ByteArray

/-- What is found at a declared output. -/
inductive Output where
  /-- The path leads out of the working directory. -/
  | outside
  /-- No regular file. -/
  | absent
  | file (content : ByteArray)

structure Execution where
  startedAt : Instant
  endedAt : Instant
  /-- `process.returncode`, or `-SIGKILL` for a process that was not started. -/
  returnCode : ℤ
  timedOut : Bool
  wallTimeMs : ℕ
  stdout : ByteArray
  stderr : ByteArray
  output : String → Output

inductive RunError where
  /-- `ArtifactRef` refuses the id. -/
  | artifactId (id : EntityId)
  /-- "declared output escapes working directory: …" -/
  | outputEscapes (path : String)
  /-- "ended_at cannot be earlier than started_at" -/
  | endedAt
  /-- "raw artifact IDs must be unique" -/
  | duplicateArtifactIds
  /-- "raw artifacts must preserve stdout, stderr and invocation evidence" -/
  | missingEvidence

/-- `canonical_json_bytes` of a mapping without numbers but integers. -/
def mappingBytes (fields : List (String × Json Empty)) : ByteArray :=
  encode (String.ofList (Json.write noFloats (Json.sortKeys (.obj fields))))

/-- The text of an artifact that `RawToolResult` looks for the markers in. -/
def artifactLabel (lowering : Lowering) (artifact : RawArtifact) : String :=
  String.ofList (lowering.lower (artifact.artifactId ++ " " ++ "artifact://sha256/" ++
    String.ofList (Sha256.hexOfBytes artifact.content)).toList)

/-- `execution_evidence_is_coherent`, on the artifacts that the adapter gives it. -/
def rawToolResult (lowering : Lowering) (execution : Execution) (rawArtifacts : List RawArtifact) :
    Except RunError RawToolResult := do
  require (execution.startedAt ≤ execution.endedAt) .endedAt
  if hids : (rawArtifacts.map RawArtifact.artifactId).Nodup then
    let labels := rawArtifacts.map (artifactLabel lowering)
    require (labels.any (occurs "stdout") ∧ labels.any (occurs "stderr") ∧
      labels.any fun label => ["argv", "recipe", "invocation"].any (occurs · label))
      .missingEvidence
    let signal := if execution.returnCode < 0 then some execution.returnCode.natAbs else none
    return {
      exitCode := if execution.returnCode < 0 then 128 - execution.returnCode
        else execution.returnCode
      signal := signal
      timedOut := execution.timedOut
      wallTimeMs := execution.wallTimeMs
      rawArtifacts := rawArtifacts
      signal_pos := by
        intro number hnumber
        simp only [signal, Option.mem_def, Option.ite_none_right_eq_some] at hnumber
        grind
      ids_nodup := hids }
  else throw .duplicateArtifactIds

section Run

variable (lowering : Lowering) (invocation : AdapterInvocation)

/-- `_put_raw` -/
def putRaw (stageResultId : Identifier) (role : String) (data : ByteArray) :
    Except RunError RawArtifact :=
  let id := semanticArtifactId lowering stageResultId.val role
  if isEntityId id then .ok ⟨id, data⟩ else .error (.artifactId id)

/-- `relative_path.replace(".", "_")` -/
def outputRole (path : String) : String :=
  String.ofList (path.toList.map fun c => if c = '.' then '_' else c)

def readOutput (stageResultId : Identifier) (execution : Execution) (path : String) :
    Except RunError (Option RawArtifact) :=
  match execution.output path with
  | .outside => .error (.outputEscapes path)
  | .absent => .ok none
  | .file content => (putRaw lowering stageResultId (outputRole path) content).map some

/-- `prepare`, for a command with the given document. -/
def prepare (executable : String) (job : ToolJob) (document : ByteArray) :
    Except RunError PreparedCommand := do
  let argv := executable :: invocation.argvTail
  let recipe ← putRaw lowering job.stageResultId "recipe" (mappingBytes
    [("schema_version", .int 1), ("tool_job_id", .str job.toolJobId.val),
      ("stage_result_id", .str job.stageResultId.val), ("argv", textsJson argv),
      ("input_artifact_ids", textsJson (job.inputArtifactIds.map Subtype.val)),
      ("expected_output_paths", textsJson invocation.expectedOutputPaths)])
  return ⟨job.stageResultId, argv, recipe, document⟩

def run (command : PreparedCommand) (execution : Execution) : Except RunError RawToolResult := do
  let id := command.stageResultId
  let prepared ← putRaw lowering id "prepared_command" command.document
  let argv ← putRaw lowering id "argv" (mappingBytes [("argv", textsJson command.argv)])
  let stdout ← putRaw lowering id "stdout" execution.stdout
  let stderr ← putRaw lowering id "stderr" execution.stderr
  let outputs ← invocation.expectedOutputPaths.mapM (readOutput lowering id execution)
  rawToolResult lowering execution
    ([stdout, stderr, argv, prepared, command.recipe] ++ outputs.reduceOption)

/-- The raw result of a job. -/
def execute (executable : String) (job : ToolJob) (document : ByteArray) (execution : Execution) :
    Except RunError RawToolResult := do
  let command ← prepare lowering invocation executable job document
  run lowering invocation command execution

/-! ## What the result has to be -/

/-- The ids of the result are valid and distinct, and `parse` finds what the process printed. -/
def Recovered (job : ToolJob) (execution : Execution) (raw : RawToolResult) : Prop :=
  (∀ artifact ∈ raw.rawArtifacts, isEntityId artifact.artifactId) ∧
    (raw.rawArtifacts.map RawArtifact.artifactId).Nodup ∧
    raw.findArtifact "stdout" =
      .ok ⟨semanticArtifactId lowering job.stageResultId.val "stdout", execution.stdout⟩ ∧
    raw.findArtifact "stderr" =
      .ok ⟨semanticArtifactId lowering job.stageResultId.val "stderr", execution.stderr⟩

/-- The roles of the declared outputs that the tool wrote. -/
def producedRoles (execution : Execution) : List String :=
  (invocation.expectedOutputPaths.filter fun path =>
    match execution.output path with
    | .file _ => true
    | _ => false).map outputRole

def runRoles (execution : Execution) : List String :=
  ["stdout", "stderr", "argv", "prepared_command", "recipe"] ++ producedRoles invocation execution

/-- The run comes to its end, the suffixes `_stdout` and `_stderr` fit into the ids, and no two
artifacts have names that become one id. -/
structure Recoverable (job : ToolJob) (execution : Execution) : Prop where
  ordered : execution.startedAt ≤ execution.endedAt
  inside : ∀ path ∈ invocation.expectedOutputPaths,
    match execution.output path with
    | .outside => False
    | _ => True
  short : job.stageResultId.val.toList.length ≤ 89
  distinct : (runRoles invocation execution).Pairwise fun a b =>
    ¬ Clash (candidateId job.stageResultId.val (normalizedRole lowering a))
      (candidateId job.stageResultId.val (normalizedRole lowering b))

end Run

section Published

variable {lowering : Lowering} {invocation : AdapterInvocation} {id : Identifier}
variable {execution : Execution} {job : ToolJob} {executable : String} {document : ByteArray}

theorem putRaw_eq (role : String) (data : ByteArray) :
    putRaw lowering id role data = .ok ⟨semanticArtifactId lowering id.val role, data⟩ :=
  if_pos (isEntityId_semanticArtifactId id.property role)

/-- The artifact of a declared output, if there is a file. -/
def outputArtifact (lowering : Lowering) (id : Identifier) (execution : Execution)
    (path : String) : Option RawArtifact :=
  match execution.output path with
  | .file content => some ⟨semanticArtifactId lowering id.val (outputRole path), content⟩
  | _ => none

/-- `raw_artifacts` -/
def publishedArtifacts (lowering : Lowering) (invocation : AdapterInvocation) (executable : String)
    (job : ToolJob) (document : ByteArray) (execution : Execution) : List RawArtifact :=
  let artifact role data := ⟨semanticArtifactId lowering job.stageResultId.val role, data⟩
  let argv := executable :: invocation.argvTail
  [artifact "stdout" execution.stdout, artifact "stderr" execution.stderr,
    artifact "argv" (mappingBytes [("argv", textsJson argv)]),
    artifact "prepared_command" document,
    artifact "recipe" (mappingBytes
      [("schema_version", .int 1), ("tool_job_id", .str job.toolJobId.val),
        ("stage_result_id", .str job.stageResultId.val), ("argv", textsJson argv),
        ("input_artifact_ids", textsJson (job.inputArtifactIds.map Subtype.val)),
        ("expected_output_paths", textsJson invocation.expectedOutputPaths)])] ++
    (invocation.expectedOutputPaths.map
      (outputArtifact lowering job.stageResultId execution)).reduceOption

theorem readOutput_eq_ok {path : String} {found : Option RawArtifact} :
    readOutput lowering id execution path = .ok found ↔
      (match execution.output path with | .outside => False | _ => True) ∧
        outputArtifact lowering id execution path = found := by
  unfold readOutput outputArtifact
  cases execution.output path with
  | outside => simp
  | absent => simp
  | file content => simp [putRaw_eq, Except.map]

theorem execute_eq_ok {raw : RawToolResult} :
    execute lowering invocation executable job document execution = .ok raw ↔
      (∀ path ∈ invocation.expectedOutputPaths,
        match execution.output path with | .outside => False | _ => True) ∧
      rawToolResult lowering execution
        (publishedArtifacts lowering invocation executable job document execution) = .ok raw := by
  simp only [execute, prepare, run, putRaw_eq, bind_eq_ok, Except.ok.injEq, pure, Except.pure,
    exists_eq_left', mapM_eq_ok, readOutput_eq_ok]
  constructor
  · rintro ⟨outputs, houtputs, hraw⟩
    obtain ⟨hinside, hmap⟩ := (List.forall₂_and_left _ _).mp houtputs
    rw [← List.forall₂_map_left_iff, List.forall₂_eq_eq_eq] at hmap
    subst hmap
    exact ⟨hinside, hraw⟩
  · rintro ⟨hinside, hraw⟩
    refine ⟨_, (List.forall₂_and_left _ _).mpr ⟨hinside, ?_⟩, hraw⟩
    rw [← List.forall₂_map_left_iff, List.forall₂_eq_eq_eq]

/-- The ids are the ones of the roles, in the order of the artifacts. -/
theorem ids_publishedArtifacts :
    (publishedArtifacts lowering invocation executable job document execution).map
      RawArtifact.artifactId = (runRoles invocation execution).map
        (semanticArtifactId lowering job.stageResultId.val) := by
  have houtputs (paths : List String) :
      ((paths.map (outputArtifact lowering job.stageResultId execution)).reduceOption).map
        RawArtifact.artifactId = ((paths.filter fun path =>
          match execution.output path with
          | .file _ => true
          | _ => false).map outputRole).map
            (semanticArtifactId lowering job.stageResultId.val) := by
    induction paths with
    | nil => rfl
    | cons path paths ih =>
      rw [List.map_cons, List.filter_cons]
      unfold outputArtifact at ih ⊢
      cases execution.output path with
      | file content =>
        rw [List.reduceOption_cons_of_some, List.map_cons, ih]
        rfl
      | _ =>
        rw [List.reduceOption_cons_of_none, ih]
        rfl
  unfold publishedArtifacts runRoles
  rw [List.map_append, List.map_append, houtputs]
  rfl

theorem rawToolResult_eq_ok {artifacts : List RawArtifact} {raw : RawToolResult}
    (h : rawToolResult lowering execution artifacts = .ok raw) :
    execution.startedAt ≤ execution.endedAt ∧ (artifacts.map RawArtifact.artifactId).Nodup ∧
      raw.rawArtifacts = artifacts := by
  simp only [rawToolResult, bind_eq_ok, require_eq_ok] at h
  obtain ⟨-, hordered, h⟩ := h
  split at h
  next hids =>
    simp only [bind_eq_ok, require_eq_ok, pure, Except.pure, Except.ok.injEq] at h
    obtain ⟨-, -, rfl⟩ := h
    exact ⟨hordered, hids, rfl⟩
  next => cases h

theorem exists_rawToolResult (lowering : Lowering) {artifacts : List RawArtifact}
    (hordered : execution.startedAt ≤ execution.endedAt)
    (hids : (artifacts.map RawArtifact.artifactId).Nodup)
    (hstdout : ∃ artifact ∈ artifacts, occurs "stdout" (artifactLabel lowering artifact))
    (hstderr : ∃ artifact ∈ artifacts, occurs "stderr" (artifactLabel lowering artifact))
    (hargv : ∃ artifact ∈ artifacts, occurs "argv" (artifactLabel lowering artifact)) :
    ∃ raw, rawToolResult lowering execution artifacts = .ok raw := by
  unfold rawToolResult
  rw [(require_eq_ok (u := ())).mpr hordered]
  change ∃ raw, (dite _ _ _) = _
  rw [dif_pos hids]
  change ∃ raw, (require _ _ >>= fun _ => _) = _
  rw [(require_eq_ok (u := ())).mpr]
  · exact ⟨_, rfl⟩
  · obtain ⟨artifact, hmem, hoccurs⟩ := hargv
    refine ⟨by simpa using hstdout, by simpa using hstderr, ?_⟩
    refine List.any_eq_true.mpr ⟨_, List.mem_map_of_mem hmem, ?_⟩
    rw [List.any_cons, hoccurs, Bool.true_or]

/-! ### What `parse` finds -/

theorem isSuffix_candidateId (stageResultId : String) (name : List Char) :
    ('_' :: name) <:+ candidateId stageResultId name := List.suffix_append _ _

/-- An id that was cut ends in a digit of the digest. -/
theorem suffix_boundedId_iff (stageResultId : String) {name : List Char} {last : Char}
    (hlast : name.getLast? = some last)
    (hhex : (last.isDigit || ('a' ≤ last && last ≤ 'f')) = false) :
    ('_' :: name) <:+ boundedId (candidateId stageResultId name) ↔
      (candidateId stageResultId name).length ≤ 96 := by
  constructor
  · intro hsuffix
    by_contra hlong
    rw [boundedId, if_neg hlong] at hsuffix
    obtain ⟨before, heq⟩ := hsuffix
    have hne : digestSuffix (candidateId stageResultId name) ≠ [] := fun hnil =>
      absurd (length_digestSuffix _) (by rw [hnil]; decide)
    have hend := congrArg List.getLast? heq
    rw [List.getLast?_append_of_ne_nil _ (List.cons_ne_nil _ _),
      List.getLast?_append_of_ne_nil _ (List.cons_ne_nil _ _), List.getLast?_cons,
      List.getLast?_cons, hlast, Option.getD_some] at hend
    obtain ⟨digit, hdigit⟩ := Option.isSome_iff_exists.mp (List.getLast?_isSome.mpr hne)
    rw [hdigit, Option.getD_some, Option.some_inj] at hend
    have hmem := isHex_of_mem_digestSuffix (List.mem_of_getLast? hdigit)
    rw [← hend, hhex] at hmem
    cases hmem
  · intro hshort
    rw [boundedId, if_pos hshort]
    exact isSuffix_candidateId _ _

theorem normalizedRole_stdout : normalizedRole lowering "stdout" = "stdout".toList :=
  normalizedRole_of_name (by decide) (by decide) (by decide) (by decide) (by decide)

theorem normalizedRole_stderr : normalizedRole lowering "stderr" = "stderr".toList :=
  normalizedRole_of_name (by decide) (by decide) (by decide) (by decide) (by decide)

theorem normalizedRole_argv : normalizedRole lowering "argv" = "argv".toList :=
  normalizedRole_of_name (by decide) (by decide) (by decide) (by decide) (by decide)

/-- The suffix that `parse` looks for is the one of the id, if the id was not cut. -/
theorem isSuffixOf_stdout (lowering : Lowering) (id : Identifier) :
    ("_" ++ "stdout").toList.isSuffixOf
      (semanticArtifactId lowering id.val "stdout").toList ↔ id.val.toList.length ≤ 89 := by
  have hlast : "stdout".toList.getLast? = some 't' := by decide
  have hsuffix := suffix_boundedId_iff id.val hlast (by decide)
  have hlength : (candidateId id.val "stdout".toList).length = id.val.toList.length + 7 :=
    List.length_append
  rw [semanticArtifactId, normalizedRole_stdout, String.toList_ofList, List.isSuffixOf_iff_suffix]
  exact hsuffix.trans (by omega)

theorem isSuffixOf_stderr (hshort : id.val.toList.length ≤ 89) :
    ("_" ++ "stderr").toList.isSuffixOf
      (semanticArtifactId lowering id.val "stderr").toList := by
  have hlength : (candidateId id.val "stderr".toList).length = id.val.toList.length + 7 :=
    List.length_append
  rw [semanticArtifactId, normalizedRole_stderr, String.toList_ofList, List.isSuffixOf_iff_suffix]
  have hlast : "stderr".toList.getLast? = some 'r' := by decide
  exact (suffix_boundedId_iff id.val hlast (by decide)).mpr (by omega)

/-- The id of the standard output does not end as the one of the standard error. -/
theorem not_isSuffixOf_stderr (hshort : id.val.toList.length ≤ 89) :
    ("_" ++ "stderr").toList.isSuffixOf
      (semanticArtifactId lowering id.val "stdout").toList = false := by
  have hlength : (candidateId id.val "stdout".toList).length = id.val.toList.length + 7 :=
    List.length_append
  rw [semanticArtifactId, normalizedRole_stdout, String.toList_ofList, boundedId,
    if_pos (by omega), Bool.eq_false_iff, ne_eq, List.isSuffixOf_iff_suffix]
  rintro ⟨before, heq⟩
  have hend := congrArg List.getLast? heq
  rw [candidateId, List.getLast?_append_of_ne_nil _ (List.cons_ne_nil _ _),
    List.getLast?_append_of_ne_nil _ (by decide)] at hend
  exact absurd hend (by decide)

/-! ### The evidence that the result asks for -/

theorem isAscii_of_isIdChar {c : Char} (h : isIdChar c) : c.toNat < 128 := by
  delta isIdChar Char.isLower Char.isDigit at h
  simp only [Bool.or_eq_true, decide_eq_true_eq, Bool.and_eq_true] at h
  obtain (h | h) | rfl := h
  · exact lt_of_le_of_lt h.2 (by decide)
  · exact lt_of_le_of_lt h.2 (by decide)
  · decide

/-- The label of an artifact keeps the name in its id. -/
theorem occurs_artifactLabel {name : String} {content : ByteArray}
    (hname : normalizedRole lowering name = name.toList)
    (hlower : name.toList.map Char.toLower = name.toList)
    (hshort : (candidateId id.val name.toList).length ≤ 96) :
    occurs name (artifactLabel lowering ⟨semanticArtifactId lowering id.val name, content⟩) := by
  have hid : (semanticArtifactId lowering id.val name).toList =
      id.val.toList ++ '_' :: name.toList := by
    rw [semanticArtifactId, hname, String.toList_ofList, boundedId, if_pos hshort, candidateId]
  have hascii : ((semanticArtifactId lowering id.val name ++ " " ++ "artifact://sha256/" ++
      String.ofList (Sha256.hexOfBytes content)).toList.all fun c => c.toNat < 128) := by
    have hdigest : ∀ c ∈ Sha256.hexOfBytes content, c.toNat < 128 := fun c hc =>
      isAscii_of_isIdChar (isIdChar_of_isHex (Sha256.hexOfBytes_isHex hc))
    have hentity : isEntityId (semanticArtifactId lowering id.val name) :=
      isEntityId_semanticArtifactId id.property name
    have hchars := (chars_of_isEntityId hentity).2.2.2
    simp only [String.toList_append, String.toList_ofList, List.all_append, Bool.and_eq_true,
      List.all_eq_true, decide_eq_true_eq]
    refine ⟨⟨⟨fun c hc => isAscii_of_isIdChar (hchars c hc), ?_⟩, ?_⟩, hdigest⟩
    · exact List.forall_iff_forall_mem.mp (by decide)
    · exact List.forall_iff_forall_mem.mp (by decide)
  rw [occurs_iff, artifactLabel, String.toList_ofList, lowering.lower_ascii _ hascii]
  simp only [String.toList_append, hid, List.map_append, List.map_cons, hlower, List.append_assoc]
  exact (List.prefix_append _ _).isInfix.trans
    (List.suffix_append_of_suffix (List.suffix_cons _ _)).isInfix

theorem distinct_iff : ((runRoles invocation execution).map
      (semanticArtifactId lowering job.stageResultId.val)).Nodup ↔
    (runRoles invocation execution).Pairwise fun a b =>
      ¬ Clash (candidateId job.stageResultId.val (normalizedRole lowering a))
        (candidateId job.stageResultId.val (normalizedRole lowering b)) := by
  rw [List.Nodup, List.pairwise_map]
  refine List.Pairwise.iff (fun a b => ?_)
  rw [← boundedId_eq_iff, semanticArtifactId, semanticArtifactId, ne_eq, String.ofList_inj]

/-- The standard output is the first artifact, so it is found if its id was not cut. -/
theorem findArtifact_stdout {raw : RawToolResult} (hraw : raw.rawArtifacts =
    publishedArtifacts lowering invocation executable job document execution) :
    raw.findArtifact "stdout" =
        .ok ⟨semanticArtifactId lowering job.stageResultId.val "stdout", execution.stdout⟩ ↔
      job.stageResultId.val.toList.length ≤ 89 := by
  rw [← isSuffixOf_stdout lowering, RawToolResult.findArtifact, hraw]
  constructor
  · intro hfound
    split at hfound
    next item hitem =>
      have hsuffix := List.find?_some hitem
      rw [Except.ok.inj hfound] at hsuffix
      exact hsuffix
    next => cases hfound
  · intro hsuffix
    rw [publishedArtifacts, List.cons_append, List.find?_cons_of_pos]
    exact hsuffix

theorem findArtifact_stderr {raw : RawToolResult} (hraw : raw.rawArtifacts =
    publishedArtifacts lowering invocation executable job document execution)
    (hshort : job.stageResultId.val.toList.length ≤ 89) :
    raw.findArtifact "stderr" =
      .ok ⟨semanticArtifactId lowering job.stageResultId.val "stderr", execution.stderr⟩ := by
  rw [RawToolResult.findArtifact, hraw, publishedArtifacts, List.cons_append,
    List.find?_cons_of_neg, List.cons_append, List.find?_cons_of_pos]
  · exact isSuffixOf_stderr hshort
  · exact Bool.eq_false_iff.mp (not_isSuffixOf_stderr hshort)

end Published

/-- `str.lower` on ASCII text. -/
def asciiLowering : Lowering where
  lower text := text.map Char.toLower
  lower_ascii _ _ := rfl

/-- A tool that writes `report.txt` and `report_txt`. -/
def twoReports : AdapterInvocation where
  argvTail := []
  expectedOutputPaths := ["report.txt", "report_txt"]
  argv_explicit := rfl
  outputs_nodup := by decide
  outputs_normalized := by decide

def reportJob : ToolJob where
  toolJobId := ⟨"job_report", by decide⟩
  stageResultId := ⟨"result_report", by decide⟩
  inputArtifactIds := []

def reportExecution : Execution where
  startedAt := 0
  endedAt := 1
  returnCode := 0
  timedOut := false
  wallTimeMs := 1
  stdout := encode "done"
  stderr := encode ""
  output _ := .file (encode "report")

end NovaRtl.Adapters
