import NovaRtl.Orchestrator.Lineage
import NovaRtl.Orchestrator.Readback

/-!
# Finished runs

A terminal run state has no way out, so the run's own row is final. The operations on candidates
read the run for its existence and its policy only: what is written for a finished run is still a
legal change of a candidate, or no change of state.
-/

namespace NovaRtl.Orchestrator

open Scheduler (ArtifactRef)
open Table Transact

def RunState.terminal : RunState → Bool
  | .completed | .failedInput | .failedBaseline | .budgetExhausted | .cancelled => true
  | _ => false

theorem RunState.terminal_iff {state : RunState} : state.terminal ↔ runTransitions state = [] := by
  cases state <;> simp [terminal, runTransitions]

variable {Record : Type} {h h' : History Record} {event : RunEvent}

/-- In a finished run a step leaves the run's row, and adds no change of the run's state. -/
theorem Step.run_final (hstep : Step h event h') {runId : EntityId} {run : RunStateRecord}
    (hrun : h.run? runId = some run) (hterminal : run.state.terminal) :
    h'.run? runId = some run ∧
      (event.runId = runId → event.newState ≠ none → event.entityType = "CANDIDATE") := by
  cases hstep.change with
  | @run record prior state legal _ view =>
    have hne : record.runId ≠ runId := by
      rintro rfl
      rw [hrun] at state
      subst state
      change record.state ∈ runTransitions run.state at legal
      rw [RunState.terminal_iff.mp hterminal] at legal
      cases legal
    refine ⟨(History.run?_putRun ..).trans ((if_neg hne).trans hrun), fun heq => ?_⟩
    exact absurd ((RunEvent.sequence_of_view view).1.symm.trans heq) hne
  | recorded _ _ _ newState => exact ⟨hrun, fun _ hnew => absurd newState hnew⟩
  | created _ _ _ _ _ view | moved _ _ _ _ _ _ view =>
    obtain ⟨text, -, hview⟩ := RunEvent.view?_eq_some.mp view
    exact ⟨hrun, fun _ _ => (congrArg StateView.entityType hview).symm⟩

theorem Steps.run_final (hsteps : Steps h h') {runId : EntityId} {run : RunStateRecord}
    (hrun : h.run? runId = some run) (hterminal : run.state.terminal) :
    h'.run? runId = some run ∧ ∃ more, h'.eventsOf runId = h.eventsOf runId ++ more ∧
      ∀ event ∈ more, event.newState ≠ none → event.entityType = "CANDIDATE" := by
  refine hsteps.induction (P := fun later => later.run? runId = some run ∧
    ∃ more, later.eventsOf runId = h.eventsOf runId ++ more ∧
      ∀ event ∈ more, event.newState ≠ none → event.entityType = "CANDIDATE")
    ⟨hrun, [], (List.append_nil _).symm, by simp⟩ ?_
  rintro later event next ⟨hlater, more, hmore, hcandidates⟩ hstep
  obtain ⟨hnext, hevent⟩ := hstep.run_final hlater hterminal
  refine ⟨hnext, ?_⟩
  by_cases heq : event.runId = runId
  · subst heq
    refine ⟨more ++ [event], by rw [hstep.eventsOf_self, hmore, List.append_assoc], ?_⟩
    intro other hother
    rcases List.mem_append.mp hother with hother | hother
    · exact hcandidates other hother
    · rw [List.mem_singleton.mp hother]
      exact hevent rfl
  · exact ⟨more, by rw [hstep.eventsOf_of_ne heq, hmore], hcandidates⟩

/-- Once a run's state is terminal, later calls leave its state row, and every later change of state
in its history is one of a candidate, along the candidates' machine and under the run's policy. -/
theorem finished_run (E : Encoding Record) (calls later : List Call) (runId : EntityId)
    (run : RunStateRecord) (hread : E.readRun (performAll E calls .empty) runId = .ok (some run))
    (hterminal : run.state.terminal) :
    E.readRun (performAll E later (performAll E calls .empty)) runId = .ok (some run) ∧
      ∃ events more, E.iterEvents (performAll E calls .empty) runId = .ok events ∧
        E.iterEvents (performAll E later (performAll E calls .empty)) runId =
          .ok (events ++ more) ∧
        ∀ before event after, more = before ++ event :: after →
          Legal (events ++ before) event ∧ event.policyHash = run.policyHash ∧
            (event.newState ≠ none → event.entityType = "CANDIDATE") := by
  obtain ⟨h, hdb, hh⟩ := exists_consistent E calls
  obtain ⟨h', hdb', hsteps⟩ := hdb.performAll later
  have hh' : Consistent h' := hsteps.induction hh fun hh hstep => hh.step hstep
  rw [hdb.readRun_eq, Except.ok.injEq] at hread
  obtain ⟨hrun', more, hmore, hcandidates⟩ := hsteps.run_final hread hterminal
  refine ⟨by rw [hdb'.readRun_eq, hrun'], h.eventsOf runId, more,
    hdb.iterEvents_eq (hh.pairwise runId), by rw [hdb'.iterEvents_eq (hh'.pairwise runId), hmore],
    fun before event after heq => ?_⟩
  have hmem : event ∈ more := by simp [heq]
  have hpolicy := hh'.policy runId event (by simp [hmore, hmem])
  rw [hrun', Option.map_some, Option.some.injEq] at hpolicy
  refine ⟨hh'.legal runId (h.eventsOf runId ++ before) event after ?_, hpolicy.symm,
    hcandidates event hmem⟩
  rw [hmore, heq, List.append_assoc]

/-! ## A candidate of a cancelled run -/

def samplePolicy : String :=
  "sha256:823412d1eacb67956220e532959f0104603057c88704863ca38e7cd188fda812"

def sampleArtifact : ArtifactRef :=
  { artifactId := "artifact_design", uri := "artifact://run_a/design.json"
    sha256 := "sha256:a77de8a6daa1129516b14c8ca1e233a51a8414b202eac7c8acfbb9b485046ad4"
    mediaType := "application/json", sizeBytes := 6, createdAt := 1767225600000000
    producerStageResultId := none, classification := .internal }

def cancelledFields : RunEventFields :=
  { eventId := "event_981f5c78baa28f2af79c4332064babbd", runId := "run_a", sequence := 1
    eventType := "RUN_STATE_CHANGED", entityType := "RUN", entityId := "run_a"
    timestamp := 1767225600000000, priorState := some "CREATED", newState := some "CANCELLED"
    policyHash := samplePolicy, payloadSchemaName := "design-contract", payloadSchemaVersion := 1
    payloadArtifact := sampleArtifact, durationMs := 0, resourceUsage := ⟨0, 0, 0⟩
    status := .pass, errorCode := none }

def createdFields : RunEventFields :=
  { eventId := "event_c4e2285eef38eecf16235c157600ad63", runId := "run_a", sequence := 2
    eventType := "CANDIDATE_STATE_CHANGED", entityType := "CANDIDATE", entityId := "cand_a"
    timestamp := 1767225600000000, priorState := none, newState := some "PROPOSED"
    policyHash := samplePolicy, payloadSchemaName := "design-contract", payloadSchemaVersion := 1
    payloadArtifact := sampleArtifact, durationMs := 0, resourceUsage := ⟨0, 0, 0⟩
    status := .pass, errorCode := none }

def runFields : RunStateFields :=
  { runId := "run_a", state := .cancelled, sequence := 1, policyHash := samplePolicy
    payloadArtifact := sampleArtifact, updatedAt := 1767225600000000 }

def candidateFields : CandidateStateFields :=
  { runId := "run_a", candidateId := "cand_a", state := .proposed, sequence := 2
    recoveryParentCandidateId := none, payloadArtifact := sampleArtifact
    updatedAt := 1767225600000000 }

theorem cancelledFields_valid : cancelledFields.check = .ok () := by decide +kernel

theorem createdFields_valid : createdFields.check = .ok () := by decide +kernel

theorem runFields_valid : runFields.check = .ok () := by decide +kernel

theorem candidateFields_valid : candidateFields.check = .ok () := by decide +kernel

def cancelledEvent : RunEvent := ⟨cancelledFields, cancelledFields_valid⟩

def createdEvent : RunEvent := ⟨createdFields, createdFields_valid⟩

def cancelledRun : RunStateRecord := ⟨runFields, runFields_valid⟩

def proposedCandidate : CandidateStateRecord := ⟨candidateFields, candidateFields_valid⟩

/-! The JSON values of the four records. -/

def artifactJson : Text.Json Empty :=
  .obj [("artifact_id", .str sampleArtifact.artifactId), ("classification", .str "INTERNAL"),
    ("created_at", .str "2026-01-01T00:00:00Z"), ("media_type", .str sampleArtifact.mediaType),
    ("producer_stage_result_id", .null), ("sha256", .str sampleArtifact.sha256),
    ("size_bytes", .int 6), ("uri", .str sampleArtifact.uri)]

def eventJson (event : RunEventFields) (prior : Text.Json Empty) (new : String) :
    Text.Json Empty :=
  .obj [("duration_ms", .int 0), ("entity_id", .str event.entityId),
    ("entity_type", .str event.entityType), ("error_code", .null),
    ("event_id", .str event.eventId), ("event_type", .str event.eventType),
    ("new_state", .str new), ("payload_artifact", artifactJson),
    ("payload_schema_name", .str event.payloadSchemaName), ("payload_schema_version", .int 1),
    ("policy_hash", .str samplePolicy), ("prior_state", prior),
    ("resource_usage", .obj [("cpu_time_ms", .int 0), ("peak_rss_bytes", .int 0),
      ("wall_time_ms", .int 0)]),
    ("run_id", .str "run_a"), ("schema_version", .int 1), ("sequence", .int event.sequence),
    ("status", .str "PASS"), ("timestamp", .str "2026-01-01T00:00:00Z")]

def cancelledJson : Text.Json Empty := eventJson cancelledFields (.str "CREATED") "CANCELLED"

def createdJson : Text.Json Empty := eventJson createdFields .null "PROPOSED"

def runJson : Text.Json Empty :=
  .obj [("payload_artifact", artifactJson), ("policy_hash", .str samplePolicy),
    ("run_id", .str "run_a"), ("schema_version", .int 1), ("sequence", .int 1),
    ("state", .str "CANCELLED"), ("updated_at", .str "2026-01-01T00:00:00Z")]

def candidateJson : Text.Json Empty :=
  .obj [("candidate_id", .str "cand_a"), ("payload_artifact", artifactJson),
    ("recovery_parent_candidate_id", .null), ("run_id", .str "run_a"), ("schema_version", .int 1),
    ("sequence", .int 2), ("state", .str "PROPOSED"), ("updated_at", .str "2026-01-01T00:00:00Z")]

theorem noFloat_ofRepr : ∀ x : Empty, (none : Option Empty) = some x := fun x => x.elim

def sampleFloats : Text.Floats Empty where
  repr := Empty.elim
  ofRepr _ := none
  ofRepr_repr := noFloat_ofRepr
  repr_chars := nofun
  repr_float := nofun

/-- The text under a key of an object. -/
def textAt (name : String) : Text.Json Empty → Option String
  | .obj fields =>
    match fields.find? fun field => field.1 = name with
    | some (_, .str text) => some text
    | _ => none
  | _ => none

def eventSchema : Schema Empty RunEvent where
  modelDump event := if event = cancelledEvent then some cancelledJson
    else if event = createdEvent then some createdJson else none
  modelValidate j := if textAt "event_id" j = some cancelledEvent.eventId then some cancelledEvent
    else if textAt "event_id" j = some createdEvent.eventId then some createdEvent else none
  modelValidate_modelDump := by
    intro event j hdump
    split_ifs at hdump with h₁ h₂
    · cases hdump
      rw [h₁]
      rfl
    · cases hdump
      rw [h₂]
      rfl

def runSchema : Schema Empty RunStateRecord where
  modelDump record := if record = cancelledRun then some runJson else none
  modelValidate j := if textAt "state" j = some "CANCELLED" then some cancelledRun else none
  modelValidate_modelDump := by
    intro record j hdump
    split_ifs at hdump with h
    cases hdump
    rw [h]
    rfl

def candidateSchema : Schema Empty CandidateStateRecord where
  modelDump record := if record = proposedCandidate then some candidateJson else none
  modelValidate j :=
    if textAt "candidate_id" j = some "cand_a" then some proposedCandidate else none
  modelValidate_modelDump := by
    intro record j hdump
    split_ifs at hdump with h
    cases hdump
    rw [h]
    rfl

/-- The SHA-256 digests of the texts that are hashed below. -/
def sampleDigest (text : String) : String :=
  if text = "run_a\x001\x00RUN\x00run_a" then
    "981f5c78baa28f2af79c4332064babbdbfdeda87c38886f95ca19f0f6157b26c"
  else if text = "run_a\x002\x00CANDIDATE\x00cand_a" then
    "c4e2285eef38eecf16235c157600ad63d693f3e1e7a95a43a5c4fc99a7d352b9"
  else if some text = cancelledJson.dumps sampleFloats then
    "368c02121e77c1a975cc86394448ca2c4b4b182a20d21ea65449c6c722ccd8d2"
  else if some text = createdJson.dumps sampleFloats then
    "1879b3633365a0221251b5af844ceb3c4f89bdeb7be1dc98673ecbec86d74c45"
  else if some text = runJson.dumps sampleFloats then
    "869f6adfe08d1187df3a2406b420cbbdf6fe5b508cb3496ad2c8e18a570d3644"
  else if some text = candidateJson.dumps sampleFloats then
    "9cc4bea0740d1fb0fc0537d4f997583b8055e5acf5ee17486948da77d78fa295"
  else "e3b0c44298fc1c149afbf4c8996fb92427ae41e4649b934ca495991b7852b855"

theorem sampleDigest_digest (text : String) : isDigest (sampleDigest text) := by
  unfold sampleDigest
  split_ifs <;> decide +kernel

def sampleTypes : ContractTypes Empty Empty where
  floats := sampleFloats
  runEvent := eventSchema
  runState := runSchema
  candidateState := candidateSchema
  record := ⟨Empty.elim, fun _ => none, nofun⟩
  experimentRecordId := Empty.elim
  recordRunId := Empty.elim
  sha256 bytes := sampleDigest ((Text.decode bytes).getD "")
  sha256_digest _ := sampleDigest_digest _

def sampleSession : Session := ⟨samplePolicy, 1767225600000000, fun _ => false⟩

def samplePayload : Payload :=
  ⟨"DesignContract", [("design-contract", 1)], some sampleArtifact⟩

def cancelCall : Call := .transition sampleSession "run_a" .created .cancelled samplePayload

def createCall : Call := .createCandidate sampleSession "run_a" "cand_a" samplePayload none

theorem eventId_cancelled :
    sampleTypes.encoding.eventId ["run_a", toString 1, "RUN", "run_a"] =
      cancelledEvent.eventId := by
  simp only [Encoding.eventId, ContractTypes.encoding, sampleTypes, Text.decode_encode,
    Option.getD_some]
  decide +kernel

theorem eventId_created :
    sampleTypes.encoding.eventId ["run_a", toString 2, "CANDIDATE", "cand_a"] =
      createdEvent.eventId := by
  simp only [Encoding.eventId, ContractTypes.encoding, sampleTypes, Text.decode_encode,
    Option.getD_some]
  decide +kernel

/-- The database after the first call, and after the second. -/
def cancelledDb (cancelled run : ByteArray) : Database :=
  ⟨[⟨cancelledEvent.eventId, "run_a", 1, cancelled, sampleTypes.sha256 cancelled⟩], [],
    [⟨"run_a", "CANCELLED", 1, samplePolicy, run, sampleTypes.sha256 run⟩], []⟩

def createdDb (cancelled run created candidate : ByteArray) : Database :=
  { cancelledDb cancelled run with
    runEvents := (cancelledDb cancelled run).runEvents ++
      [⟨createdEvent.eventId, "run_a", 2, created, sampleTypes.sha256 created⟩]
    candidateStates :=
      [⟨"cand_a", "run_a", "PROPOSED", 2, candidate, sampleTypes.sha256 candidate⟩] }

variable {cancelled run created candidate : ByteArray}

theorem cancelCall_ok
    (hcancelled : sampleTypes.encoding.runEvent.dump cancelledEvent = some cancelled)
    (hrun : sampleTypes.encoding.runState.dump cancelledRun = some run) :
    sampleTypes.encoding.transition sampleSession "run_a" .created .cancelled samplePayload .empty =
      .ok cancelledRun (cancelledDb cancelled run) := by
  have hevent : sampleTypes.encoding.event sampleSession "run_a" 1 "RUN" "run_a" (some "CREATED")
      "CANCELLED" samplePayload sampleArtifact = .ok cancelledEvent := by
    simp only [Encoding.event, samplePayload, Payload.registration, bind, Except.bind,
      eventId_cancelled]
    exact cancelledEvent.construct_eq
  have hinsert : sampleTypes.encoding.insertEvent sampleSession cancelledEvent .empty =
      .ok () { Database.empty with runEvents := (cancelledDb cancelled run).runEvents } := by
    rw [Encoding.insertEvent, Encoding.eventRow, hcancelled]
    rfl
  have hupsert : sampleTypes.encoding.upsertRun sampleSession cancelledRun true
      { Database.empty with runEvents := (cancelledDb cancelled run).runEvents } =
        .ok () (cancelledDb cancelled run) := by
    rw [Encoding.upsertRun, Encoding.runRow, hrun]
    rfl
  simp only [Encoding.transition, check_bind_ok, transaction_ok, reach_bind_ok, get_bind_ok,
    ofExcept_bind_ok]
  exact ⟨by decide, rfl, rfl, none, rfl, rfl, by simp, sampleArtifact, rfl, rfl, cancelledRun,
    cancelledRun.construct_eq, cancelledEvent, hevent, bind_ok.mpr ⟨_, _, hinsert,
      bind_ok.mpr ⟨_, _, hupsert, rfl⟩⟩⟩

theorem readRun_cancelledDb (hrun : sampleTypes.encoding.runState.dump cancelledRun = some run) :
    sampleTypes.encoding.readRun (cancelledDb cancelled run) "run_a" = .ok (some cancelledRun) := by
  have hrow : sampleTypes.encoding.runRow cancelledRun =
      some ⟨"run_a", "CANCELLED", 1, samplePolicy, run, sampleTypes.sha256 run⟩ := by
    rw [Encoding.runRow, hrun]
    rfl
  have hdecode := decodeRun_of_row hrow
  simp [Encoding.readRun, cancelledDb, lookup, hdecode, Except.map]

theorem createCall_ok (hrun : sampleTypes.encoding.runState.dump cancelledRun = some run)
    (hcreated : sampleTypes.encoding.runEvent.dump createdEvent = some created)
    (hcandidate : sampleTypes.encoding.candidateState.dump proposedCandidate = some candidate) :
    sampleTypes.encoding.createCandidate sampleSession "run_a" "cand_a" samplePayload none
        (cancelledDb cancelled run) =
      .ok proposedCandidate (createdDb cancelled run created candidate) := by
  have hread : sampleTypes.encoding.readRun (cancelledDb cancelled run) "run_a" =
      .ok (some cancelledRun) := readRun_cancelledDb hrun
  have hevent : sampleTypes.encoding.event sampleSession "run_a" 2 "CANDIDATE" "cand_a" none
      "PROPOSED" samplePayload sampleArtifact = .ok createdEvent := by
    simp only [Encoding.event, samplePayload, Payload.registration, bind, Except.bind,
      eventId_created]
    exact createdEvent.construct_eq
  have hinsert : sampleTypes.encoding.insertEvent sampleSession createdEvent
      (cancelledDb cancelled run) = .ok () { cancelledDb cancelled run with
        runEvents := (createdDb cancelled run created candidate).runEvents } := by
    rw [Encoding.insertEvent, Encoding.eventRow, hcreated]
    rfl
  have hput : sampleTypes.encoding.insertCandidate sampleSession proposedCandidate
      { cancelledDb cancelled run with
        runEvents := (createdDb cancelled run created candidate).runEvents } =
        .ok () (createdDb cancelled run created candidate) := by
    rw [Encoding.insertCandidate, Encoding.candidateRow, hcandidate]
    rfl
  simp only [Encoding.createCandidate, Encoding.checkRun, check_bind_ok, transaction_ok,
    reach_bind_ok, get_bind_ok, ofExcept_bind_ok, hread]
  refine ⟨rfl, rfl, some cancelledRun, rfl, by simp, ⟨cancelledRun, rfl, rfl⟩, rfl, none, rfl, rfl,
    bind_ok.mpr ⟨(), cancelledDb cancelled run, rfl, ?_⟩⟩
  simp only [reach_bind_ok, ofExcept_bind_ok]
  exact ⟨sampleArtifact, rfl, rfl, proposedCandidate, proposedCandidate.construct_eq, createdEvent,
    hevent, bind_ok.mpr ⟨_, _, hinsert, bind_ok.mpr ⟨_, _, hput, rfl⟩⟩⟩

theorem exists_dump :
    (∃ cancelled, sampleTypes.encoding.runEvent.dump cancelledEvent = some cancelled) ∧
      (∃ run, sampleTypes.encoding.runState.dump cancelledRun = some run) ∧
      (∃ created, sampleTypes.encoding.runEvent.dump createdEvent = some created) ∧
      ∃ candidate, sampleTypes.encoding.candidateState.dump proposedCandidate = some candidate :=
  ⟨Option.isSome_iff_exists.mp rfl, Option.isSome_iff_exists.mp rfl,
    Option.isSome_iff_exists.mp rfl, Option.isSome_iff_exists.mp rfl⟩

theorem performAll_cancelCall
    (hcancelled : sampleTypes.encoding.runEvent.dump cancelledEvent = some cancelled)
    (hrun : sampleTypes.encoding.runState.dump cancelledRun = some run) :
    performAll sampleTypes.encoding [cancelCall] .empty = cancelledDb cancelled run := by
  rw [performAll_cons, performAll_nil]
  exact cancelCall.perform_of_ok (discard_ok.mpr ⟨_, cancelCall_ok hcancelled hrun⟩)

theorem readRun_cancelCall :
    sampleTypes.encoding.readRun (performAll sampleTypes.encoding [cancelCall] .empty) "run_a" =
      .ok (some cancelledRun) := by
  obtain ⟨⟨cancelled, hcancelled⟩, ⟨run, hrun⟩, -⟩ := exists_dump
  rw [performAll_cancelCall hcancelled hrun]
  exact readRun_cancelledDb hrun

theorem finished_run_cancelled :
    sampleTypes.encoding.readRun
        (performAll sampleTypes.encoding [createCall]
          (performAll sampleTypes.encoding [cancelCall] .empty)) "run_a" =
      .ok (some cancelledRun) :=
  (finished_run sampleTypes.encoding [cancelCall] [createCall] "run_a" cancelledRun
    readRun_cancelCall rfl).1

/-- A run that was cancelled still gets a candidate. -/
theorem candidate_of_cancelled_run :
    sampleTypes.encoding.readRun (performAll sampleTypes.encoding [cancelCall] .empty) "run_a" =
        .ok (some cancelledRun) ∧
      cancelledRun.state.terminal ∧
      sampleTypes.encoding.readCandidate (performAll sampleTypes.encoding [cancelCall] .empty)
        "cand_a" = .ok none ∧
      sampleTypes.encoding.readCandidate
          (performAll sampleTypes.encoding [cancelCall, createCall] .empty) "cand_a" =
        .ok (some proposedCandidate) := by
  obtain ⟨⟨cancelled, hcancelled⟩, ⟨run, hrun⟩, ⟨created, hcreated⟩, candidate, hcandidate⟩ :=
    exists_dump
  have hcancel := performAll_cancelCall hcancelled hrun
  have hcreate : performAll sampleTypes.encoding [cancelCall, createCall] .empty =
      createdDb cancelled run created candidate := by
    rw [performAll_cons, performAll_nil] at hcancel
    rw [performAll_cons, performAll_cons, hcancel,
      createCall.perform_of_ok (discard_ok.mpr ⟨_, createCall_ok hrun hcreated hcandidate⟩),
      performAll_nil]
  have hrow : sampleTypes.encoding.candidateRow proposedCandidate =
      some ⟨"cand_a", "run_a", "PROPOSED", 2, candidate, sampleTypes.sha256 candidate⟩ := by
    rw [Encoding.candidateRow, hcandidate]
    rfl
  have hdecode := decodeCandidate_of_row hrow
  rw [hcreate]
  refine ⟨readRun_cancelCall, rfl, ?_, ?_⟩
  · rw [hcancel]
    simp [Encoding.readCandidate, cancelledDb, lookup]
  · simp [Encoding.readCandidate, createdDb, lookup, hdecode, Except.map]

end NovaRtl.Orchestrator
