import NovaRtl.Artifacts.Runs
import NovaRtl.Orchestrator.Finality
import NovaRtl.Orchestrator.Payloads

/-!
# Replay

`replay_run` of `artifacts/replay.py`: the events of a run are read back from the ledger, and the
payload of each is opened in the artifact store and checked against its schema.

## Main results

* `replayRun_returns_iff` — which runs of a ledger replay, and what replaying them returns.
* `recorded_runs_replay` — the runs that orchestrators record replay, if power lasts.
-/

namespace NovaRtl.Artifacts

open Orchestrator Transact
open Scheduler (ArtifactRef)

/-- `SchemaRegistration` -/
structure Registration where
  version : ℕ
  Model : Type
  codec : Codec Model

/-- `SCHEMA_REGISTRY` -/
abbrev Registry := String → Option Registration

inductive ReplayError where
  /-- `ReplaySelectionError` -/
  | selection (text : String)
  /-- `ReplayArtifactError` -/
  | artifact (text : String)
  /-- `ReplaySchemaError` -/
  | schema (text : String)
  | replay (text : String)
  | ledger (e : StateError)
  | osError
  /-- A value has no canonical JSON. -/
  | encoding

/-- `run_ids` -/
def runIds (db : Database) : List EntityId :=
  (db.runEvents.map (·.runId)).dedup.insertionSort (· ≤ ·)

/-- `_select_run_id` -/
def selectRunId (available : List EntityId) :
    (requested : Option EntityId) → Except ReplayError EntityId
  | some runId => do
    require (runId ∈ available) (.selection ("run is not present in the ledger: " ++ runId))
    return runId
  | none =>
    match available with
    | [] => .error (.selection "ledger contains no replay runs")
    | [runId] => .ok runId
    | _ => .error (.selection "ledger contains multiple runs; select one explicitly")

/-- Only the errors of the store itself are caught. -/
def payloadError (event : RunEvent) : StoreError → ReplayError
  | .osError => .osError
  | _ => .artifact ("event " ++ event.eventId ++ " payload " ++ event.payloadArtifact.artifactId ++
      " failed verification")

/-- `_validate_event_payload`, given what `open_verified` answers for the payload. -/
def validateEventPayload (registry : Registry) (opened : Except StoreError ByteArray)
    (event : RunEvent) : Except ReplayError Unit := do
  let payload ← opened.mapError (payloadError event)
  match registry event.payloadSchemaName with
  | none => .error (.schema ("event " ++ event.eventId ++
      " declares unregistered payload schema " ++ event.payloadSchemaName))
  | some registration => do
    require (registration.version = event.payloadSchemaVersion)
      (.schema ("event " ++ event.eventId ++ " payload schema version mismatch: declared=" ++
        toString event.payloadSchemaVersion ++ ", registered=" ++ toString registration.version))
    require (event.payloadArtifact.mediaType = "application/json")
      (.schema ("event " ++ event.eventId ++ " canonical payload must use application/json"))
    let value ← (registration.codec.load payload).elim
      (.error (.schema ("event " ++ event.eventId ++ " payload does not validate as " ++
        event.payloadSchemaName ++ " v" ++ toString event.payloadSchemaVersion))) .ok
    let encoded ← (registration.codec.dump value).elim (.error .encoding) .ok
    require (encoded = payload)
      (.schema ("event " ++ event.eventId ++ " payload is not canonical JSON"))

/-- The loop of `replay_run`, with the sequence of the event before. -/
def validateEvents (registry : Registry) (opens : RunEvent → Except StoreError ByteArray) :
    Option ℕ → List RunEvent → Except ReplayError Unit
  | _, [] => .ok ()
  | previousSequence, event :: rest => do
    require (∀ previous ∈ previousSequence, previous < event.sequence)
      (.replay "ledger returned a non-increasing replay sequence")
    validateEventPayload registry (opens event) event
    validateEvents registry opens (some event.sequence) rest

variable {Record : Type}

/-- `replay_run`. The store, if there is one, is what it answers for the payload of each event. -/
def replayRun (E : Encoding Record) (registry : Registry) (db : Database)
    (artifactStore : Option (RunEvent → Except StoreError ByteArray)) (runId : Option EntityId) :
    Except ReplayError (List RunEvent) := do
  let selectedRunId ← selectRunId (runIds db) runId
  let opens ← artifactStore.elim
    (.error (.artifact "replay requires an attached artifact store")) .ok
  let events ← (E.iterEvents db selectedRunId).mapError .ledger
  require (events ≠ []) (.selection ("run has no replay events: " ++ selectedRunId))
  validateEvents registry opens none events
  return events

/-! ## What replays -/

/-- The payload opens, and is canonical JSON of a value of the schema that the event declares. -/
structure Replayable (registry : Registry) (opened : Except StoreError ByteArray)
    (event : RunEvent) : Prop where
  mediaType : event.payloadArtifact.mediaType = "application/json"
  payload : ∃ registration, registry event.payloadSchemaName = some registration ∧
    registration.version = event.payloadSchemaVersion ∧
    ∃ value bytes, opened = .ok bytes ∧ registration.codec.dump value = some bytes

variable {registry : Registry} {opens : RunEvent → Except StoreError ByteArray} {event : RunEvent}

theorem validateEventPayload_eq_ok {opened : Except StoreError ByteArray} :
    validateEventPayload registry opened event = .ok () ↔ Replayable registry opened event := by
  unfold validateEventPayload
  constructor
  · intro h
    obtain ⟨payload, hpayload, h⟩ := bind_eq_ok.mp h
    cases hregistered : registry event.payloadSchemaName with
    | none => simp [hregistered] at h
    | some registration =>
      simp only [hregistered] at h
      rw [seq_eq_ok, require_eq_ok, seq_eq_ok, require_eq_ok] at h
      simp only [bind_eq_ok, require_eq_ok] at h
      obtain ⟨hversion, hmedia, value, -, encoded, hencoded, rfl⟩ := h
      refine ⟨hmedia, registration, hregistered, hversion, value, encoded, ?_, ?_⟩
      · cases opened with
        | ok bytes => exact congrArg _ (Except.ok.inj hpayload)
        | error e => cases hpayload
      · cases hdump : registration.codec.dump value with
        | none => simp [hdump] at hencoded
        | some bytes => simpa [hdump] using hencoded
  · rintro ⟨hmedia, registration, hregistered, hversion, value, bytes, rfl, hdump⟩
    refine bind_eq_ok.mpr ⟨bytes, rfl, ?_⟩
    simp only [hregistered]
    rw [seq_eq_ok, require_eq_ok, seq_eq_ok, require_eq_ok]
    simp only [bind_eq_ok, require_eq_ok]
    refine ⟨hversion, hmedia, value, ?_, bytes, by rw [hdump]; rfl, rfl⟩
    rw [registration.codec.load_dump hdump]
    rfl

theorem validateEvents_eq_ok {previousSequence : Option ℕ} {events : List RunEvent} :
    validateEvents registry opens previousSequence events = .ok () ↔
      (previousSequence.toList ++ events.map (·.sequence)).IsChain (· < ·) ∧
        ∀ event ∈ events, Replayable registry (opens event) event := by
  induction events generalizing previousSequence with
  | nil => cases previousSequence <;> simp [validateEvents]
  | cons event rest ih =>
    simp only [validateEvents, seq_eq_ok, require_eq_ok, validateEventPayload_eq_ok, ih,
      List.forall_mem_cons]
    cases previousSequence with
    | none => simp [and_left_comm]
    | some previous => simp [List.isChain_cons_cons, and_assoc, and_left_comm]

/-! ## Runs of a ledger -/

theorem selectRunId_eq_ok {available : List EntityId} (hnodup : available.Nodup)
    {requested : Option EntityId} {runId : EntityId} :
    selectRunId available requested = .ok runId ↔ runId ∈ available ∧
      (requested = some runId ∨ requested = none ∧ ∀ other ∈ available, other = runId) := by
  cases requested with
  | some requested =>
    simp only [selectRunId, seq_eq_ok, require_eq_ok]
    constructor
    · rintro ⟨hmem, hsame⟩
      cases hsame
      exact ⟨hmem, .inl rfl⟩
    · rintro ⟨hmem, hsame | hnone⟩
      · cases hsame
        exact ⟨hmem, rfl⟩
      · cases hnone.1
  | none =>
    rcases available with _ | ⟨first, _ | ⟨second, rest⟩⟩
    · simp [selectRunId]
    · simp [selectRunId, eq_comm]
    · refine ⟨fun h => (by cases h), ?_⟩
      rintro ⟨-, hsome | ⟨-, hall⟩⟩
      · cases hsome
      · have hsame : first = second := (hall first (by simp)).trans (hall second (by simp)).symm
        simp [hsame] at hnodup

section Ledger

variable {E : Encoding Record} {db : Database} {h : History Record}

theorem mem_runIds (hdb : Represents E db h) {runId : EntityId} :
    runId ∈ runIds db ↔ h.eventsOf runId ≠ [] := by
  have hcolumn : db.runEvents.map (·.runId) = h.events.map (·.runId) := hdb.events.map_eq
    fun hrow => by
      obtain ⟨encoded, -, rfl⟩ := eventRow_eq_some.mp hrow
      rfl
  rw [runIds, List.mem_insertionSort, List.mem_dedup, hcolumn, List.mem_map]
  simp [History.eventsOf, List.filter_eq_nil_iff]

theorem nodup_runIds (db : Database) : (runIds db).Nodup :=
  (List.perm_insertionSort _ _).nodup_iff.mpr (List.nodup_dedup _)

theorem validateEvents_of_sorted {events : List RunEvent}
    (hsorted : events.Pairwise fun event event' => event.sequence < event'.sequence) :
    validateEvents registry opens none events = .ok () ↔
      ∀ event ∈ events, Replayable registry (opens event) event := by
  rw [validateEvents_eq_ok, and_iff_right]
  exact (List.pairwise_map.mpr hsorted).isChain

/-- A run is selected by its name, or because it is the only one that has events. -/
def Selects (events : EntityId → List RunEvent) (requested : Option EntityId) (runId : EntityId) :
    Prop :=
  events runId ≠ [] ∧
    (requested = some runId ∨ requested = none ∧ ∀ other, events other ≠ [] → other = runId)

theorem replayRun_eq_ok (hdb : Represents E db h) (hsorted : ∀ runId,
      (h.eventsOf runId).Pairwise fun event event' => event.sequence < event'.sequence)
    {requested : Option EntityId} {result : List RunEvent} :
    replayRun E registry db (some opens) requested = .ok result ↔
      ∃ runId, Selects h.eventsOf requested runId ∧ result = h.eventsOf runId ∧
        ∀ event ∈ result, Replayable registry (opens event) event := by
  have hselect : ∀ runId, selectRunId (runIds db) requested = .ok runId ↔
      Selects h.eventsOf requested runId := by
    intro runId
    rw [selectRunId_eq_ok (nodup_runIds db)]
    simp only [mem_runIds hdb, Selects]
  have hread : ∀ runId, (E.iterEvents db runId).mapError ReplayError.ledger =
      .ok (h.eventsOf runId) := by
    intro runId
    rw [hdb.iterEvents_eq (hsorted runId)]
    rfl
  unfold replayRun
  constructor
  · intro hok
    obtain ⟨runId, hselected, hok⟩ := bind_eq_ok.mp hok
    obtain ⟨found, hfound, hok⟩ := bind_eq_ok.mp hok
    cases hfound
    obtain ⟨events, hevents, hok⟩ := bind_eq_ok.mp hok
    rw [hread] at hevents
    cases hevents
    obtain ⟨-, hok⟩ := seq_eq_ok.mp hok
    obtain ⟨hvalid, hresult⟩ := seq_eq_ok.mp hok
    cases hresult
    exact ⟨runId, (hselect runId).mp hselected, rfl,
      (validateEvents_of_sorted (hsorted runId)).mp hvalid⟩
  · rintro ⟨runId, hselected, rfl, hreplayable⟩
    refine bind_eq_ok.mpr ⟨runId, (hselect runId).mpr hselected, bind_eq_ok.mpr ⟨opens, rfl, ?_⟩⟩
    refine bind_eq_ok.mpr ⟨_, hread runId, seq_eq_ok.mpr ⟨require_eq_ok.mpr hselected.1, ?_⟩⟩
    exact seq_eq_ok.mpr ⟨(validateEvents_of_sorted (hsorted runId)).mpr hreplayable, rfl⟩

end Ledger

/-- Whatever has been written to a new ledger: a run replays exactly when it is selected and the
payload of each of its events verifies, and then replaying it returns what the ledger reads back. -/
theorem replayRun_returns_iff {φ : Type} (types : ContractTypes φ Record) (registry : Registry)
    (opens : RunEvent → Except StoreError ByteArray) (writes : List (Write Record)) :
    ∃ events records, Reads types.encoding (writeAll types.encoding writes .empty) events records ∧
      ∀ requested result,
        replayRun types.encoding registry (writeAll types.encoding writes .empty) (some opens)
            requested = .ok result ↔
          ∃ runId, Selects events requested runId ∧ result = events runId ∧
            ∀ event ∈ result, Replayable registry (opens event) event := by
  obtain ⟨h, hdb, hh, -⟩ := represents_empty.writeAll (E := types.encoding)
    ⟨by simp [History.eventsOf, History.empty], .nil⟩ writes
  exact ⟨h.eventsOf, h.recordsOf types.encoding, hdb.reads hh,
    fun _ _ => replayRun_eq_ok hdb hh.events⟩

/-! ## From the orchestrator to replay -/

/-- The payload was published, as canonical JSON of a value of the schema that it is registered
under. -/
structure Published (registry : Registry) (answers : List (Artifacts.Call × ArtifactRef))
    (payload : Payload) (answer : Artifacts.Call × ArtifactRef) : Prop where
  stored : payload.stored = some answer.2
  answered : answer ∈ answers
  mediaType : answer.1.mediaType = "application/json"
  canonical : ∀ entry, payload.registrations = [entry] →
    ∃ registration, registry entry.1 = some registration ∧ registration.version = entry.2 ∧
      ∃ value, registration.codec.dump value = some answer.1.data

/-- No other content has the digest and the size of an artifact that was published. -/
def Distinct (answers : List (Artifacts.Call × ArtifactRef)) (s : Disk) : Prop :=
  ∀ answer ∈ answers, ∀ file, s.regular? answer.1.digest = some file →
    answer.1.Alike file.content → file.content = answer.1.data

/-- What `open_verified` answers for the payload of an event at some time after `c`. -/
def OpensAfter (c : Configuration) (event : RunEvent) (opened : Except StoreError ByteArray) :
    Prop :=
  ∃ c' c'' : Configuration, store.Run c c' ∧ store.Run c' c'' ∧
    c''.state.losses = c.state.losses ∧ Distinct c.state.answers c''.state ∧
    opened = openVerified event.payloadArtifact c'.state.node c''.state.node

variable {s : Disk} {c : Configuration}

theorem replayable_of_published (hboot : Booted s) (hrun : store.Run s.mounted c)
    {payload : Payload} {answer : Artifacts.Call × ArtifactRef}
    (hpublished : Published registry c.state.answers payload answer) (hnamed : payload.Named event)
    {opened : Except StoreError ByteArray} (hopened : OpensAfter c event opened) :
    Replayable registry opened event := by
  have hartifact : event.payloadArtifact = answer.2 :=
    Option.some.inj (hnamed.artifact.symm.trans hpublished.stored)
  obtain ⟨c', c'', hrun', hrun'', hlosses, hdistinct, rfl⟩ := hopened
  obtain ⟨ρ, hvalid, -⟩ := hboot.consistent hrun
  obtain ⟨file, hfile, halike, href⟩ := hvalid.answered answer hpublished.answered
  have hfirst := hboot.history hrun hrun'
  have hsecond := hboot.history (hrun.trans hrun') hrun''
  have hlosses' : c'.state.losses = c.state.losses :=
    le_antisymm (hsecond.losses.trans hlosses.le) hfirst.losses
  obtain ⟨file', hfile', hcontent, -⟩ := hfirst.keeps hlosses' _ file hfile
  obtain ⟨file'', hfile'', hcontent', -⟩ :=
    hsecond.keeps (hlosses.trans hlosses'.symm) _ file' hfile'
  have halike' : answer.1.Alike file''.content := (hcontent'.trans hcontent) ▸ halike
  have hdata := hdistinct answer hpublished.answered file'' hfile'' halike'
  obtain ⟨registration, hregistered, hversion, value, hdump⟩ :=
    hpublished.canonical _ hnamed.schema
  refine ⟨?_, registration, hregistered, hversion, value, file''.content, ?_, hdata ▸ hdump⟩
  · rw [hartifact, href]
    exact hpublished.mediaType
  · rw [hartifact, href]
    exact openVerified_ref hfile' hfile'' halike' _ _

/-- Every run that orchestrators record on a new ledger replays as long as power lasts, if they put
their payloads into the artifact store: replaying it returns its events, whatever other processes do
to the store meanwhile. -/
theorem recorded_runs_replay (E : Encoding Record) (registry : Registry)
    (calls : List Orchestrator.Call) (hboot : Booted s) (hrun : store.Run s.mounted c)
    (hpublished : ∀ call ∈ calls, ∀ artifact, call.payload.stored = some artifact →
      ∃ answer, Published registry c.state.answers call.payload answer)
    (opens : RunEvent → Except StoreError ByteArray)
    (hopens : ∀ event, OpensAfter c event (opens event)) :
    ∃ events, (∀ runId, E.iterEvents (performAll E calls .empty) runId = .ok (events runId)) ∧
      ∀ requested runId, Selects events requested runId →
        replayRun E registry (performAll E calls .empty) (some opens) requested =
          .ok (events runId) := by
  obtain ⟨h, hdb, hconsistent⟩ := exists_consistent E calls
  have hrows := (represents_empty (E := E)).performAll_named (by simp [Database.empty])
    (List.Subset.refl calls)
  refine ⟨h.eventsOf, fun runId => hdb.iterEvents_eq (hconsistent.pairwise runId),
    fun requested runId hselects => ?_⟩
  refine (replayRun_eq_ok hdb hconsistent.pairwise).mpr
    ⟨runId, hselects, rfl, fun event hevent => ?_⟩
  obtain ⟨call, hcall, hnamed⟩ : ∃ call ∈ calls, call.payload.Named event := by
    obtain ⟨row, hrow, hencoded⟩ :=
      exists_row hdb.events (List.mem_of_mem_filter hevent)
    obtain ⟨event', hencoded', hcalls⟩ := hrows row hrow
    rwa [eventRow_injective hencoded hencoded']
  obtain ⟨answer, hanswer⟩ := hpublished call hcall _ hnamed.artifact
  exact replayable_of_published hboot hrun hanswer hnamed (hopens event)

section Sample

/-! An artifact reference is put into the store, and a run is cancelled with it as payload. -/

def refJson (artifact : ArtifactRef) : Text.Json Empty :=
  .obj [("artifact_id", .str artifact.artifactId), ("classification", .str "INTERNAL"),
    ("created_at", .str "2026-01-01T00:00:00Z"), ("media_type", .str artifact.mediaType),
    ("producer_stage_result_id", .null), ("sha256", .str artifact.sha256),
    ("size_bytes", .int artifact.sizeBytes), ("uri", .str artifact.uri)]

def refSchema : Schema Empty ArtifactRef where
  modelDump value := if value = sampleArtifact then some (refJson sampleArtifact) else none
  modelValidate j :=
    if textAt "artifact_id" j = some sampleArtifact.artifactId then some sampleArtifact else none
  modelValidate_modelDump := by
    intro value j hdump
    split_ifs at hdump with h
    cases hdump
    rw [h]
    rfl

def refRegistration : Registration := ⟨1, ArtifactRef, refSchema.codec sampleFloats⟩

def sampleRegistry : Registry := fun name =>
  if name = "artifact-ref" then some refRegistration else none

theorem refBytes_isSome : (refRegistration.codec.dump sampleArtifact).isSome := rfl

/-- The canonical bytes of the reference. -/
def refBytes : ByteArray := (refRegistration.codec.dump sampleArtifact).get refBytes_isSome

theorem refBytes_eq : refRegistration.codec.dump sampleArtifact = some refBytes :=
  (Option.some_get refBytes_isSome).symm

def refCall : Artifacts.Call := ⟨refBytes, "application/json", .internal, false⟩

theorem refCall_data : refCall.data = refBytes := by rw [refCall]

def publishedRef : ArtifactRef := refCall.ref sampleArtifact.createdAt

theorem refBytes_size : refBytes.size = 296 := by
  have hbytes : canonicalBytes sampleFloats (refJson sampleArtifact) = some refBytes := by
    rw [← refBytes_eq]
    simp [refRegistration, Schema.codec, canonicalJsonBytes, refSchema, canonicalBytes]
  rw [size_of_canonicalBytes hbytes]
  decide +kernel

theorem refJson_publishedRef_writable : (refJson publishedRef).writable = true := by
  have hsize : publishedRef.sizeBytes = 296 := by
    rw [publishedRef, Call.ref, refCall_data, refBytes_size]
  have hdigits : (Text.Json.int 296 : Text.Json Empty).writable = true := by decide
  simp [refJson, hsize, hdigits]

def recordedFields : RunEventFields :=
  { cancelledFields with payloadSchemaName := "artifact-ref", payloadArtifact := publishedRef }

theorem recordedFields_valid : recordedFields.check = .ok () := by decide +kernel

def recordedEvent : RunEvent := ⟨recordedFields, recordedFields_valid⟩

def recordedRunFields : RunStateFields := { runFields with payloadArtifact := publishedRef }

theorem recordedRunFields_valid : recordedRunFields.check = .ok () := by decide +kernel

def recordedRun : RunStateRecord := ⟨recordedRunFields, recordedRunFields_valid⟩

def recordedJson : Text.Json Empty :=
  .obj [("duration_ms", .int 0), ("entity_id", .str "run_a"), ("entity_type", .str "RUN"),
    ("error_code", .null), ("event_id", .str cancelledFields.eventId),
    ("event_type", .str "RUN_STATE_CHANGED"), ("new_state", .str "CANCELLED"),
    ("payload_artifact", refJson publishedRef), ("payload_schema_name", .str "artifact-ref"),
    ("payload_schema_version", .int 1), ("policy_hash", .str samplePolicy),
    ("prior_state", .str "CREATED"),
    ("resource_usage", .obj [("cpu_time_ms", .int 0), ("peak_rss_bytes", .int 0),
      ("wall_time_ms", .int 0)]),
    ("run_id", .str "run_a"), ("schema_version", .int 1), ("sequence", .int 1),
    ("status", .str "PASS"), ("timestamp", .str "2026-01-01T00:00:00Z")]

def recordedRunJson : Text.Json Empty :=
  .obj [("payload_artifact", refJson publishedRef), ("policy_hash", .str samplePolicy),
    ("run_id", .str "run_a"), ("schema_version", .int 1), ("sequence", .int 1),
    ("state", .str "CANCELLED"), ("updated_at", .str "2026-01-01T00:00:00Z")]

def recordedSchema : Schema Empty RunEvent where
  modelDump event := if event = recordedEvent then some recordedJson else none
  modelValidate j := if textAt "event_id" j = some cancelledFields.eventId then
    some recordedEvent else none
  modelValidate_modelDump := by
    intro event j hdump
    split_ifs at hdump with h
    cases hdump
    rw [h]
    rfl

def recordedRunSchema : Schema Empty RunStateRecord where
  modelDump record := if record = recordedRun then some recordedRunJson else none
  modelValidate j :=
    if textAt "state" j = some "CANCELLED" then some recordedRun else none
  modelValidate_modelDump := by
    intro record j hdump
    split_ifs at hdump with h
    cases hdump
    rw [h]
    rfl

def recordedTypes : ContractTypes Empty Empty :=
  { sampleTypes with runEvent := recordedSchema, runState := recordedRunSchema }

def recordedPayload : Payload := ⟨"ArtifactRef", [("artifact-ref", 1)], some publishedRef⟩

def recordedCall : Orchestrator.Call :=
  .transition sampleSession "run_a" .created .cancelled recordedPayload

theorem exists_dump_of_writable {φ α : Type} {F : Text.Floats φ} {schema : Schema φ α} {value : α}
    {json : Text.Json φ} (hdump : schema.modelDump value = some json) (h : json.writable = true) :
    ∃ bytes, (schema.codec F).dump value = some bytes := by
  refine Option.isSome_iff_exists.mp ?_
  change (canonicalJsonBytes F schema value).isSome
  rw [canonicalJsonBytes, Option.isSome_map, hdump, Option.bind_some]
  exact Text.Json.isSome_dumps.mpr h

theorem exists_recorded :
    (∃ bytes, recordedTypes.encoding.runEvent.dump recordedEvent = some bytes) ∧
      ∃ bytes, recordedTypes.encoding.runState.dump recordedRun = some bytes := by
  have hone := Text.Json.writable_int_of_lt (φ := Empty) (n := 1) (by decide)
  have hzero := Text.Json.writable_int_of_lt (φ := Empty) (n := 0) (by decide)
  have hevent : recordedJson.writable = true := by
    simp [recordedJson, refJson_publishedRef_writable, hone, hzero]
  have hrun : recordedRunJson.writable = true := by
    simp [recordedRunJson, refJson_publishedRef_writable, hone]
  have hdump : recordedSchema.modelDump recordedEvent = some recordedJson := by
    simp only [recordedSchema, if_true]
  have hdumpRun : recordedRunSchema.modelDump recordedRun = some recordedRunJson := by
    simp only [recordedRunSchema, if_true]
  exact ⟨exists_dump_of_writable hdump hevent, exists_dump_of_writable hdumpRun hrun⟩

/-- The call returns, and its event is read back. -/
theorem iterEvents_recorded (runId : EntityId) :
    recordedTypes.encoding.iterEvents
        (performAll recordedTypes.encoding [recordedCall] .empty) runId =
      .ok (if runId = "run_a" then [recordedEvent] else []) := by
  obtain ⟨⟨encoded, hencoded⟩, run, hrun⟩ := exists_recorded
  obtain ⟨row, hrow⟩ : ∃ row : EventRow, row = ⟨recordedEvent.eventId, "run_a", 1, encoded,
      recordedTypes.encoding.sha256 encoded⟩ := ⟨_, rfl⟩
  have heventRow : recordedTypes.encoding.eventRow recordedEvent = some row := by
    rw [Encoding.eventRow, hencoded, hrow]
    rfl
  have hevent : recordedTypes.encoding.event sampleSession "run_a" 1 "RUN" "run_a"
      (some "CREATED") "CANCELLED" recordedPayload publishedRef = .ok recordedEvent := by
    simp only [Encoding.event, recordedPayload, Payload.registration, bind, Except.bind]
    rw [show recordedTypes.encoding.eventId ["run_a", toString 1, "RUN", "run_a"] =
      cancelledEvent.eventId from eventId_cancelled]
    exact recordedEvent.construct_eq
  have hinsert : recordedTypes.encoding.insertEvent sampleSession recordedEvent
      .empty = .ok () { Database.empty with runEvents := [row] } := by
    rw [Encoding.insertEvent, heventRow, hrow]
    rfl
  have hupsert : ∃ db, recordedTypes.encoding.upsertRun sampleSession
      recordedRun true { Database.empty with runEvents := [row] } = .ok () db ∧
        db.runEvents = [row] := by
    rw [Encoding.upsertRun, Encoding.runRow, hrun]
    exact ⟨_, rfl, rfl⟩
  obtain ⟨db, hupsert, hevents⟩ := hupsert
  have hcall : recordedTypes.encoding.transition sampleSession "run_a" .created .cancelled
      recordedPayload .empty = .ok recordedRun db := by
    simp only [Encoding.transition, check_bind_ok, transaction_ok, reach_bind_ok, get_bind_ok,
      ofExcept_bind_ok]
    exact ⟨by decide, rfl, rfl, none, rfl, rfl, by simp, publishedRef, rfl, rfl, recordedRun,
      recordedRun.construct_eq, recordedEvent, hevent,
      bind_ok.mpr ⟨_, _, hinsert, bind_ok.mpr ⟨_, _, hupsert, rfl⟩⟩⟩
  have hperform : performAll recordedTypes.encoding [recordedCall] .empty = db := by
    rw [performAll_cons, performAll_nil]
    exact recordedCall.perform_of_ok (discard_ok.mpr ⟨_, hcall⟩)
  have hread := readEvent_of_row heventRow
  have hrowRun : row.runId = "run_a" := by rw [hrow]
  rw [hperform, Encoding.iterEvents, hevents]
  split
  next hsame => simp [hsame, hrowRun, hread]
  next hne =>
    simp [hrowRun, Ne.symm hne]
    rfl

/-- The reference that was published. -/
theorem refCall_published : ∃ s : Disk, store.Run emptyDisk.mounted s.mounted ∧
    Present refCall sampleArtifact.createdAt s ∧ s.answers = [(refCall, publishedRef)] := by
  obtain ⟨s, hrun, hpresent, -, -, hanswers⟩ :=
    emptyDisk.run_putBytes 0 sampleArtifact.createdAt (show refCall.readOnly = false from rfl) rfl
      (.inl ⟨rfl, 0, rfl⟩)
  exact ⟨s, hrun, hpresent, hanswers⟩

theorem recorded_runs_replay_sample : ∃ s : Disk, store.Run emptyDisk.mounted s.mounted ∧
    replayRun recordedTypes.encoding sampleRegistry
        (performAll recordedTypes.encoding [recordedCall] .empty)
        (some fun event => openVerified event.payloadArtifact s.node s.node) none =
      .ok [recordedEvent] := by
  obtain ⟨s, hrun, ⟨file, hfile, hcontent, -⟩, hanswers⟩ := refCall_published
  have hpublished : ∀ call ∈ [recordedCall], ∀ artifact, call.payload.stored = some artifact →
      ∃ answer, Published sampleRegistry s.mounted.state.answers call.payload answer := by
    intro call hcall artifact hstored
    rw [List.mem_singleton] at hcall
    subst hcall
    refine ⟨(refCall, publishedRef), rfl, ?_, rfl, fun entry hentry => ?_⟩
    · change _ ∈ s.answers
      simp [hanswers]
    · obtain rfl : ("artifact-ref", 1) = entry := List.singleton_inj.mp hentry
      refine ⟨refRegistration, rfl, rfl, sampleArtifact, ?_⟩
      dsimp only
      rw [refCall_data]
      exact refBytes_eq
  have hopens : ∀ event : RunEvent, OpensAfter s.mounted event
      (openVerified event.payloadArtifact s.node s.node) := by
    intro event
    refine ⟨s.mounted, s.mounted, .refl, .refl, rfl, fun answer hanswer other hother _ => ?_, rfl⟩
    change answer ∈ s.answers at hanswer
    change s.regular? answer.1.digest = some other at hother
    rw [hanswers, List.mem_singleton] at hanswer
    subst hanswer
    rw [hfile] at hother
    cases hother
    exact hcontent
  obtain ⟨events, hevents, hreplays⟩ := recorded_runs_replay recordedTypes.encoding sampleRegistry
    [recordedCall] emptyDisk_booted hrun hpublished _ hopens
  have hread : ∀ runId, events runId = if runId = "run_a" then [recordedEvent] else [] :=
    fun runId => Except.ok.inj ((hevents runId).symm.trans (iterEvents_recorded runId))
  have hselects : Selects events none "run_a" := by
    refine ⟨by simp [hread], .inr ⟨rfl, fun other hother => ?_⟩⟩
    by_contra hne
    simp [hread, hne] at hother
  refine ⟨s, hrun, ?_⟩
  rw [hreplays none "run_a" hselects, hread, if_pos rfl]

end Sample

end NovaRtl.Artifacts
