import Mathlib.Algebra.Order.BigOperators.Group.List
import NovaRtl.Contracts.CanonicalJson
import NovaRtl.Orchestrator.Contracts
import NovaRtl.Transact.Rollback
import NovaRtl.Transact.Stored

/-!
# The event and experiment ledger

The tables of `artifacts/ledger.py` and of `orchestrator/state.py` in one database, with the two
appends and the two readbacks of `ExperimentLedger`. A row keeps the canonical bytes of its value
and their digest next to the columns that identify it.
-/

namespace NovaRtl.Orchestrator

open Table Transact

/-- Sixty-four lowercase hexadecimal digits. -/
def isDigest (text : String) : Bool :=
  text.toList.length = 64 && text.toList.all fun d => d.isDigit || ('a' ≤ d && d ≤ 'f')

structure Encoding (Record : Type) where
  runEvent : Codec RunEvent
  runState : Codec RunStateRecord
  candidateState : Codec CandidateStateRecord
  record : Codec Record
  experimentRecordId : Record → EntityId
  recordRunId : Record → EntityId
  sha256 : ByteArray → String
  sha256_digest : ∀ bytes, isDigest (sha256 bytes)

structure EventRow where
  eventId : EntityId
  runId : EntityId
  sequence : ℕ
  canonicalJson : ByteArray
  canonicalSha256 : String

structure RecordRow where
  appendIndex : ℕ
  experimentRecordId : EntityId
  runId : EntityId
  canonicalJson : ByteArray
  canonicalSha256 : String

structure RunRow where
  runId : EntityId
  state : String
  sequence : ℕ
  policyHash : String
  canonicalJson : ByteArray
  canonicalSha256 : String

structure CandidateRow where
  candidateId : EntityId
  runId : EntityId
  state : String
  sequence : ℕ
  canonicalJson : ByteArray
  canonicalSha256 : String

structure Database where
  runEvents : List EventRow
  experimentRecords : List RecordRow
  runStates : List RunRow
  candidateStates : List CandidateRow

def Database.empty : Database := ⟨[], [], [], []⟩

/-- The statements of a call at which the database can fail. -/
inductive Point where
  | begin | readRun | readCandidate | nextSequence | insert | writeState | commit
  deriving DecidableEq, Repr

def reach (fails : Point → Bool) (point : Point) : EStateM StateError Database Unit :=
  check (fails point = false) .outage

/-- The largest integer of a column. -/
def maxInteger : ℕ := 9223372036854775807

/-- `SELECT MAX(sequence) FROM run_events WHERE run_id = ?` -/
def Database.lastSequence (db : Database) (runId : EntityId) : Option ℕ :=
  ((db.runEvents.filter (·.runId = runId)).map (·.sequence)).max?

variable {Record : Type} (E : Encoding Record)

namespace Encoding

def eventRow (event : RunEvent) : Option EventRow :=
  (E.runEvent.dump event).map fun encoded =>
    { eventId := event.eventId, runId := event.runId, sequence := event.sequence
      canonicalJson := encoded, canonicalSha256 := E.sha256 encoded }

def recordRow (item : ℕ × Record) : Option RecordRow :=
  (E.record.dump item.2).map fun encoded =>
    { appendIndex := item.1, experimentRecordId := E.experimentRecordId item.2
      runId := E.recordRunId item.2, canonicalJson := encoded, canonicalSha256 := E.sha256 encoded }

/-- The insertion into `run_events`, past the trigger `run_events_append_guard`. -/
def insertRow (row : EventRow) : EStateM StateError Database Unit := do
  let db ← get
  check (row.sequence ≤ maxInteger) .overflow
  check (row.eventId ∉ db.runEvents.map (·.eventId)) (.database "run_events are append-only")
  check (∀ last ∈ db.lastSequence row.runId, last < row.sequence)
    (.database "run event sequence must strictly increase")
  set { db with runEvents := db.runEvents ++ [row] }

/-- What `append_event` and `append_record` make of a database error. -/
def appendError (text : String) : StateError → StateError
  | .database e => .append (text ++ " append rejected: " ++ e)
  | .outage => .append (text ++ " append database operation failed")
  | e => e

/-- The comparison with the last sequence that `append_event` makes before the trigger does. -/
def checkOrder (last? : Option ℕ) (event : RunEvent) : Except StateError Unit :=
  match last? with
  | none => .ok ()
  | some last => do
    require (event.sequence ≠ last) (.append ("duplicate event sequence for " ++ event.runId ++
      ": " ++ toString event.sequence))
    require (¬ event.sequence < last) (.append ("event sequence must strictly increase for " ++
      event.runId ++ ": " ++ toString event.sequence ++ " <= " ++ toString last))

def appendEvent (readOnly : Bool) (fails : Point → Bool) (event : RunEvent) :
    EStateM StateError Database Unit := do
  check (readOnly = false) (.append "ledger is read-only")
  let row ← ofExcept ((E.eventRow event).elim (.error .encoding) .ok)
  transaction <| EStateM.adaptExcept (appendError "event") do
    reach fails .begin
    let db ← get
    check (event.eventId ∉ db.runEvents.map (·.eventId))
      (.append ("duplicate event ID is not append-only: " ++ event.eventId))
    reach fails .nextSequence
    ofExcept (checkOrder (db.lastSequence event.runId) event)
    reach fails .insert
    insertRow row
    reach fails .commit

/-- The key that `AUTOINCREMENT` gives to the next row. -/
def nextIndex (db : Database) : ℕ :=
  (db.experimentRecords.map (·.appendIndex)).max?.getD 0 + 1

/-- The insertion into `experiment_records`. Before it the triggers see no automatic key, after it
they compare the key with the others. -/
def insertRecordRow (row : RecordRow) : EStateM StateError Database Unit := do
  let db ← get
  check (row.appendIndex ≤ maxInteger) .outage
  check (row.experimentRecordId ∉ db.experimentRecords.map (·.experimentRecordId))
    (.database "experiment_records are append-only")
  check (∀ other ∈ db.experimentRecords, other.appendIndex < row.appendIndex)
    (.database "experiment record append index must strictly increase")
  set { db with experimentRecords := db.experimentRecords ++ [row] }

def appendRecord (readOnly : Bool) (fails : Point → Bool) (record : Record) :
    EStateM StateError Database Unit := do
  check (readOnly = false) (.append "ledger is read-only")
  let encoded ← ofExcept ((E.record.dump record).elim (.error .encoding) .ok)
  transaction <| EStateM.adaptExcept (appendError "experiment record") do
    reach fails .begin
    let db ← get
    check (E.experimentRecordId record ∉ db.experimentRecords.map (·.experimentRecordId))
      (.append ("duplicate experiment record ID is not append-only: " ++
        E.experimentRecordId record))
    reach fails .insert
    insertRecordRow
      { appendIndex := nextIndex db, experimentRecordId := E.experimentRecordId record
        runId := E.recordRunId record, canonicalJson := encoded
        canonicalSha256 := E.sha256 encoded }
    reach fails .commit

/-- `_decode` -/
def decode {α : Type} (codec : Codec α) (payload : ByteArray) (expectedHash : String) :
    Except StateError α := do
  require (isDigest expectedHash)
    (.ledgerIntegrity "ledger canonical payload hash column is invalid")
  require (E.sha256 payload = expectedHash)
    (.ledgerIntegrity "ledger canonical payload hash does not match")
  let value ← (codec.load payload).elim
    (.error (.ledgerIntegrity "ledger canonical payload is invalid")) .ok
  let encoded ← (codec.dump value).elim (.error .encoding) .ok
  require (encoded = payload) (.ledgerIntegrity "ledger payload is not canonical JSON")
  return value

def readEvent (row : EventRow) : Except StateError RunEvent := do
  let event ← E.decode E.runEvent row.canonicalJson row.canonicalSha256
  require (event.eventId = row.eventId ∧ event.runId = row.runId ∧ event.sequence = row.sequence)
    (.ledgerIntegrity ("event index identity disagrees with payload: " ++ row.eventId))
  return event

def readRecord (row : RecordRow) : Except StateError Record := do
  let record ← E.decode E.record row.canonicalJson row.canonicalSha256
  require (E.experimentRecordId record = row.experimentRecordId ∧
      E.recordRunId record = row.runId)
    (.ledgerIntegrity ("experiment index identity disagrees with payload: " ++
      row.experimentRecordId))
  return record

/-- `list(ledger.iter_events(run_id))` -/
def iterEvents (db : Database) (runId : EntityId) : Except StateError (List RunEvent) :=
  ((db.runEvents.filter (·.runId = runId)).insertionSort
    (fun row row' => row.sequence ≤ row'.sequence)).mapM E.readEvent

/-- `list(ledger.iter_records(run_id))` -/
def iterRecords (db : Database) (runId : EntityId) : Except StateError (List Record) :=
  ((db.experimentRecords.filter (·.runId = runId)).insertionSort
    (fun row row' => row.appendIndex ≤ row'.appendIndex)).mapM E.readRecord

end Encoding

end NovaRtl.Orchestrator
