import NovaRtl.Orchestrator.Ledger

/-!
# The orchestrator's operations

The five writing operations of `RunOrchestrator`, each one transaction, and the two reads they make.
-/

namespace NovaRtl.Orchestrator

open Scheduler (ArtifactRef Instant)
open Table Transact

/-- An orchestrator during one call: its policy, the clock, and where the database fails. -/
structure Session where
  policyHash : String
  now : Instant
  fails : Point → Bool

/-- A payload, with its entries in `SCHEMA_REGISTRY` and what the artifact store answers for it. -/
structure Payload where
  typeName : String
  registrations : List (String × ℕ)
  stored : Option ArtifactRef

def Payload.registration (payload : Payload) : Except StateError (String × ℕ) :=
  match payload.registrations with
  | [entry] => .ok entry
  | _ => .error (.value ("transition payload type is not uniquely registered: " ++
      payload.typeName))

/-- `_store_payload` -/
def Payload.store (payload : Payload) : Except StateError ArtifactRef := do
  let _ ← payload.registration
  payload.stored.elim (.error .storage) .ok

/-- `_next_sequence` -/
def Database.nextSequence (db : Database) (runId : EntityId) : ℕ :=
  (db.lastSequence runId).getD 0 + 1

variable {Record : Type} (E : Encoding Record)

namespace Encoding

def runRow (record : RunStateRecord) : Option RunRow :=
  (E.runState.dump record).map fun encoded =>
    { runId := record.runId, state := record.state.text, sequence := record.sequence
      policyHash := record.policyHash, canonicalJson := encoded
      canonicalSha256 := E.sha256 encoded }

def candidateRow (record : CandidateStateRecord) : Option CandidateRow :=
  (E.candidateState.dump record).map fun encoded =>
    { candidateId := record.candidateId, runId := record.runId, state := record.state.text
      sequence := record.sequence, canonicalJson := encoded, canonicalSha256 := E.sha256 encoded }

/-- `_decode_record`, with the comparison of the record's fields and its columns. -/
def decodeRecord {α : Type} (codec : Codec α) (indexedId : EntityId) (indexed : α → Bool)
    (encoded : ByteArray) (expectedHash : String) : Except StateError α := do
  require (E.sha256 encoded = expectedHash) (.integrity ("state hash mismatch for " ++ indexedId))
  let record ← (codec.load encoded).elim
    (.error (.integrity ("invalid state payload for " ++ indexedId))) .ok
  require (indexed record) (.integrity ("state index mismatch for " ++ indexedId))
  let bytes ← (codec.dump record).elim (.error .encoding) .ok
  require (bytes = encoded) (.integrity ("state index mismatch for " ++ indexedId))
  return record

def decodeRun (row : RunRow) : Except StateError RunStateRecord :=
  E.decodeRecord E.runState row.runId
    (fun record => record.runId = row.runId ∧ record.state.text = row.state ∧
      record.sequence = row.sequence ∧ record.policyHash = row.policyHash)
    row.canonicalJson row.canonicalSha256

def decodeCandidate (row : CandidateRow) : Except StateError CandidateStateRecord :=
  E.decodeRecord E.candidateState row.candidateId
    (fun record => record.candidateId = row.candidateId ∧ record.runId = row.runId ∧
      record.state.text = row.state ∧ record.sequence = row.sequence)
    row.canonicalJson row.canonicalSha256

/-- `_read_run` -/
def readRun (db : Database) (runId : EntityId) : Except StateError (Option RunStateRecord) :=
  match lookup RunRow.runId db.runStates runId with
  | none => .ok none
  | some row => (E.decodeRun row).map some

/-- `_read_candidate` -/
def readCandidate (db : Database) (candidateId : EntityId) :
    Except StateError (Option CandidateStateRecord) :=
  match lookup CandidateRow.candidateId db.candidateStates candidateId with
  | none => .ok none
  | some row => (E.decodeCandidate row).map some

def eventId (parts : List String) : EntityId :=
  "event_" ++
    String.ofList ((E.sha256 (Text.encode (String.intercalate "\x00" parts))).toList.take 32)

/-- `_event` -/
def event (session : Session) (runId : EntityId) (sequence : ℕ) (entityType : String)
    (entityId : EntityId) (priorState : Option String) (newState : String) (payload : Payload)
    (payloadArtifact : ArtifactRef) : Except StateError RunEvent := do
  let (schemaName, schemaVersion) ← payload.registration
  RunEventFields.construct
    { eventId := E.eventId [runId, toString sequence, entityType, entityId]
      runId, sequence
      eventType := entityType ++ "_STATE_CHANGED"
      entityType, entityId
      timestamp := session.now
      priorState
      newState := some newState
      policyHash := session.policyHash
      payloadSchemaName := schemaName
      payloadSchemaVersion := schemaVersion
      payloadArtifact
      durationMs := 0
      resourceUsage := ⟨0, 0, 0⟩
      status := .pass
      errorCode := none }

/-- `_insert_event` -/
def insertEvent (session : Session) (event : RunEvent) : EStateM StateError Database Unit := do
  let row ← ofExcept ((E.eventRow event).elim (.error .encoding) .ok)
  reach session.fails .insert
  insertRow row

/-- `_upsert_run` -/
def upsertRun (session : Session) (record : RunStateRecord) (isNew : Bool) :
    EStateM StateError Database Unit := do
  let row ← ofExcept ((E.runRow record).elim (.error .encoding) .ok)
  reach session.fails .writeState
  let db ← get
  if isNew then
    check (record.runId ∉ db.runStates.map (·.runId))
      (.database "UNIQUE constraint failed: run_states.run_id")
    set { db with runStates := db.runStates ++ [row] }
  else
    let selected (old : RunRow) : Bool := old.runId = record.runId ∧ old.sequence < record.sequence
    set { db with
      runStates := db.runStates.map fun old =>
        if selected old then { row with runId := old.runId } else old }
    check (db.runStates.countP selected = 1)
      (.stale ("run " ++ record.runId ++ " changed during transition"))

/-- `_insert_candidate` -/
def insertCandidate (session : Session) (record : CandidateStateRecord) :
    EStateM StateError Database Unit := do
  let row ← ofExcept ((E.candidateRow record).elim (.error .encoding) .ok)
  reach session.fails .writeState
  let db ← get
  check (record.candidateId ∉ db.candidateStates.map (·.candidateId))
    (.database "UNIQUE constraint failed: candidate_states.candidate_id")
  set { db with candidateStates := db.candidateStates ++ [row] }

/-- `_update_candidate` -/
def updateCandidate (session : Session) (record : CandidateStateRecord)
    (expectedState : CandidateState) : EStateM StateError Database Unit := do
  let row ← ofExcept ((E.candidateRow record).elim (.error .encoding) .ok)
  reach session.fails .writeState
  let db ← get
  let selected (old : CandidateRow) : Bool :=
    old.candidateId = record.candidateId ∧ old.runId = record.runId ∧
      old.state = expectedState.text
  set { db with
    candidateStates := db.candidateStates.map fun old =>
      if selected old then { row with candidateId := old.candidateId, runId := old.runId }
      else old }
  check (db.candidateStates.countP selected = 1)
    (.stale ("candidate " ++ record.candidateId ++ " changed during transition"))

def transition (session : Session) (runId : EntityId) (expectedState nextState : RunState)
    (payload : Payload) : EStateM StateError Database RunStateRecord := do
  check (nextState ∈ runTransitions expectedState)
    (.illegal ("illegal run transition " ++ expectedState.text ++ " -> " ++ nextState.text))
  transaction do
    reach session.fails .begin
    let db ← get
    reach session.fails .readRun
    let current ← ofExcept (E.readRun db runId)
    let actualState := current.elim .created (·.state)
    check (actualState = expectedState)
      (.stale ("run " ++ runId ++ " expected " ++ expectedState.text ++ ", current state is " ++
        actualState.text))
    check (∀ record ∈ current, record.policyHash = session.policyHash)
      (.stale ("run " ++ runId ++ " policy hash differs from persisted policy"))
    let payloadArtifact ← ofExcept payload.store
    reach session.fails .nextSequence
    let sequence := db.nextSequence runId
    let record ← ofExcept <| RunStateFields.construct
      { runId, state := nextState, sequence, policyHash := session.policyHash, payloadArtifact
        updatedAt := session.now }
    let event ← ofExcept (E.event session runId sequence "RUN" runId (some expectedState.text)
      nextState.text payload payloadArtifact)
    E.insertEvent session event
    E.upsertRun session record current.isNone
    reach session.fails .commit
    return record

/-- The check of `record_event` and `transition_candidate` that the run has the caller's policy. -/
def checkRun (session : Session) (runId : EntityId) (run : Option RunStateRecord) :
    EStateM StateError Database Unit :=
  check (∃ record ∈ run, record.policyHash = session.policyHash)
    (.stale ("run " ++ runId ++ " policy hash differs from persisted policy"))

/-- What `record_event` asks of the candidate of a gate event. -/
def checkGate (session : Session) (db : Database) (runId : EntityId) (entityType : String)
    (entityId : EntityId) : EStateM StateError Database Unit :=
  if entityType = "CANDIDATE_GATE" then do
    reach session.fails .readCandidate
    let candidate ← ofExcept (E.readCandidate db entityId)
    check (∃ record ∈ candidate, record.runId = runId)
      (.stale ("candidate " ++ entityId ++ " does not exist in " ++ runId))
  else pure ()

def recordEvent (session : Session) (runId : EntityId) (eventType entityType : String)
    (entityId : EntityId) (payload : Payload) (status : StageStatus) (errorCode : Option String)
    (durationMs : ℤ) : EStateM StateError Database RunEvent :=
  transaction do
    reach session.fails .begin
    let db ← get
    reach session.fails .readRun
    let run ← ofExcept (E.readRun db runId)
    checkRun session runId run
    E.checkGate session db runId entityType entityId
    let payloadArtifact ← ofExcept payload.store
    reach session.fails .nextSequence
    let sequence := db.nextSequence runId
    let (schemaName, schemaVersion) ← ofExcept payload.registration
    check (0 ≤ durationMs) (.validation "duration_ms")
    let event ← ofExcept <| RunEventFields.construct
      { eventId := E.eventId [runId, toString sequence, eventType, entityType, entityId]
        runId, sequence, eventType, entityType, entityId
        timestamp := session.now
        priorState := none
        newState := none
        policyHash := session.policyHash
        payloadSchemaName := schemaName
        payloadSchemaVersion := schemaVersion
        payloadArtifact
        durationMs := durationMs.toNat
        resourceUsage := ⟨0, durationMs.toNat, 0⟩
        status, errorCode }
    E.insertEvent session event
    reach session.fails .commit
    return event

/-- What `create_candidate` asks of the recovery parent. -/
def checkParent (session : Session) (db : Database) (runId : EntityId) :
    Option EntityId → EStateM StateError Database Unit
  | none => pure ()
  | some parentId => do
    reach session.fails .readCandidate
    let parent ← ofExcept (E.readCandidate db parentId)
    check (∃ record ∈ parent, record.runId = runId)
      (.stale ("recovery parent " ++ parentId ++ " does not exist in " ++ runId))
    check (∃ record ∈ parent, record.state = .recoveryEligible)
      (.illegal ("recovery parent " ++ parentId ++ " is not RECOVERY_ELIGIBLE"))

def createCandidate (session : Session) (runId candidateId : EntityId) (payload : Payload)
    (recoveryParentCandidateId : Option EntityId) :
    EStateM StateError Database CandidateStateRecord :=
  transaction do
    reach session.fails .begin
    let db ← get
    reach session.fails .readRun
    let run ← ofExcept (E.readRun db runId)
    check (run ≠ none) (.stale ("run " ++ runId ++ " must exist before candidates are created"))
    checkRun session runId run
    reach session.fails .readCandidate
    let existing ← ofExcept (E.readCandidate db candidateId)
    check (existing = none) (.stale ("candidate " ++ candidateId ++ " already exists"))
    E.checkParent session db runId recoveryParentCandidateId
    let payloadArtifact ← ofExcept payload.store
    reach session.fails .nextSequence
    let sequence := db.nextSequence runId
    let record ← ofExcept <| CandidateStateFields.construct
      { runId, candidateId, state := .proposed, sequence, recoveryParentCandidateId
        payloadArtifact, updatedAt := session.now }
    let event ← ofExcept (E.event session runId sequence "CANDIDATE" candidateId none
      CandidateState.proposed.text payload payloadArtifact)
    E.insertEvent session event
    E.insertCandidate session record
    reach session.fails .commit
    return record

def createRecoveryChild (session : Session) (runId parentCandidateId candidateId : EntityId)
    (payload : Payload) : EStateM StateError Database CandidateStateRecord := do
  check (candidateId ≠ parentCandidateId)
    (.stale "recovery candidate already exists as its parent")
  E.createCandidate session runId candidateId payload (some parentCandidateId)

def transitionCandidate (session : Session) (runId candidateId : EntityId)
    (expectedState nextState : CandidateState) (payload : Payload) :
    EStateM StateError Database CandidateStateRecord := do
  check (nextState ∈ candidateTransitions expectedState)
    (.illegal ("illegal candidate transition " ++ expectedState.text ++ " -> " ++ nextState.text))
  transaction do
    reach session.fails .begin
    let db ← get
    reach session.fails .readRun
    let run ← ofExcept (E.readRun db runId)
    checkRun session runId run
    reach session.fails .readCandidate
    match ← ofExcept (E.readCandidate db candidateId) with
    | none => throw (.stale ("candidate " ++ candidateId ++ " does not exist in " ++ runId))
    | some current => do
      check (current.runId = runId)
        (.stale ("candidate " ++ candidateId ++ " does not exist in " ++ runId))
      check (current.state = expectedState)
        (.stale ("candidate " ++ candidateId ++ " expected " ++ expectedState.text ++
          ", current state is " ++ current.state.text))
      let payloadArtifact ← ofExcept payload.store
      reach session.fails .nextSequence
      let sequence := db.nextSequence runId
      let record ← ofExcept <| CandidateStateFields.construct
        { runId, candidateId, state := nextState, sequence
          recoveryParentCandidateId := current.recoveryParentCandidateId
          payloadArtifact, updatedAt := session.now }
      let event ← ofExcept (E.event session runId sequence "CANDIDATE" candidateId
        (some expectedState.text) nextState.text payload payloadArtifact)
      E.insertEvent session event
      E.updateCandidate session record expectedState
      reach session.fails .commit
      return record

end Encoding

/-- A call of one of the five writing operations, by any orchestrator on the database. -/
inductive Call where
  | transition (session : Session) (runId : EntityId) (expectedState nextState : RunState)
      (payload : Payload)
  | recordEvent (session : Session) (runId : EntityId) (eventType entityType : String)
      (entityId : EntityId) (payload : Payload) (status : StageStatus) (errorCode : Option String)
      (durationMs : ℤ)
  | createCandidate (session : Session) (runId candidateId : EntityId) (payload : Payload)
      (recoveryParentCandidateId : Option EntityId)
  | createRecoveryChild (session : Session) (runId parentCandidateId candidateId : EntityId)
      (payload : Payload)
  | transitionCandidate (session : Session) (runId candidateId : EntityId)
      (expectedState nextState : CandidateState) (payload : Payload)

def Call.session : Call → Session
  | .transition session .. | .recordEvent session .. | .createCandidate session ..
  | .createRecoveryChild session .. | .transitionCandidate session .. => session

def Call.run : Call → EStateM StateError Database Unit
  | .transition session runId expectedState nextState payload =>
    discard (E.transition session runId expectedState nextState payload)
  | .recordEvent session runId eventType entityType entityId payload status errorCode durationMs =>
    discard (E.recordEvent session runId eventType entityType entityId payload status errorCode
      durationMs)
  | .createCandidate session runId candidateId payload recoveryParentCandidateId =>
    discard (E.createCandidate session runId candidateId payload recoveryParentCandidateId)
  | .createRecoveryChild session runId parentCandidateId candidateId payload =>
    discard (E.createRecoveryChild session runId parentCandidateId candidateId payload)
  | .transitionCandidate session runId candidateId expectedState nextState payload =>
    discard (E.transitionCandidate session runId candidateId expectedState nextState payload)

/-- The database after a call, whether it returns or raises. -/
def Call.perform (call : Call) (db : Database) : Database :=
  match call.run E db with
  | .ok _ db' => db'
  | .error _ db' => db'

/-- The database after a sequence of calls. -/
def performAll (calls : List Call) (db : Database) : Database :=
  calls.foldl (fun db call => call.perform E db) db

theorem performAll_nil (db : Database) : performAll E [] db = db := rfl

theorem performAll_cons (call : Call) (calls : List Call) (db : Database) :
    performAll E (call :: calls) db = performAll E calls (call.perform E db) := rfl

end NovaRtl.Orchestrator
