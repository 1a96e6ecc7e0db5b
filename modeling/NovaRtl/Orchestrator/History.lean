import NovaRtl.Orchestrator.State

/-!
# The history behind a database

A database holds encodings. `Represents` relates it to the values they encode, its history; a
reachable database has one. Each successful call is then one of four changes of the history, and a
call that raises is none.
-/

namespace NovaRtl.Orchestrator

open Scheduler (ArtifactRef Instant)
open Table Transact

structure History (Record : Type) where
  events : List RunEvent
  runs : List RunStateRecord
  candidates : List CandidateStateRecord
  /-- The experiment records, with the keys they were appended under. -/
  records : List (ℕ × Record)

namespace History

variable {Record : Type} (h : History Record)

def eventsOf (runId : EntityId) : List RunEvent := h.events.filter (·.runId = runId)

def run? (runId : EntityId) : Option RunStateRecord := lookup (·.runId) h.runs runId

def candidate? (candidateId : EntityId) : Option CandidateStateRecord :=
  lookup (·.candidateId) h.candidates candidateId

def lastSequence (runId : EntityId) : Option ℕ := ((h.eventsOf runId).map (·.sequence)).max?

def nextSequence (runId : EntityId) : ℕ := (h.lastSequence runId).getD 0 + 1

/-- The event is new, and later than its run's other events. -/
structure Accepts (event : RunEvent) : Prop where
  fresh : event.eventId ∉ h.events.map (·.eventId)
  later : ∀ earlier ∈ h.eventsOf event.runId, earlier.sequence < event.sequence

def addEvent (event : RunEvent) : History Record := { h with events := h.events ++ [event] }

/-- The run's row is replaced, or added when there is none. -/
def putRun (record : RunStateRecord) : History Record :=
  { h with runs := assign (·.runId) h.runs record }

def putCandidate (record : CandidateStateRecord) : History Record :=
  { h with candidates := assign (·.candidateId) h.candidates record }

end History

/-- What a state-changing event says of its entity, and what the entity's row says. -/
structure StateView where
  entityType : String
  runId : EntityId
  entityId : EntityId
  state : String
  sequence : ℕ
  payloadArtifact : ArtifactRef
  updatedAt : Instant
  deriving DecidableEq

def RunEvent.view? (event : RunEvent) : Option StateView :=
  event.newState.map fun state =>
    ⟨event.entityType, event.runId, event.entityId, state, event.sequence, event.payloadArtifact,
      event.timestamp⟩

def RunStateRecord.view (record : RunStateRecord) : StateView :=
  ⟨"RUN", record.runId, record.runId, record.state.text, record.sequence, record.payloadArtifact,
    record.updatedAt⟩

def CandidateStateRecord.view (record : CandidateStateRecord) : StateView :=
  ⟨"CANDIDATE", record.runId, record.candidateId, record.state.text, record.sequence,
    record.payloadArtifact, record.updatedAt⟩

/-- What a successful call does to the history besides adding its event. -/
inductive Change {Record : Type} (h : History Record) (event : RunEvent) : History Record → Prop
  | run {record : RunStateRecord} {prior : RunState}
      (state : (h.run? record.runId).elim .created (·.state) = prior)
      (legal : record.state ∈ runTransitions prior)
      (policy : ∀ current ∈ h.run? record.runId, current.policyHash = record.policyHash)
      (view : event.view? = some record.view)
      (priorState : event.priorState = some prior.text)
      (policyHash : event.policyHash = record.policyHash) :
      Change h event ((h.addEvent event).putRun record)
  | recorded {run : RunStateRecord}
      (run_eq : h.run? event.runId = some run)
      (policyHash : event.policyHash = run.policyHash)
      (priorState : event.priorState = none)
      (newState : event.newState = none) :
      Change h event (h.addEvent event)
  | created {run : RunStateRecord} {record : CandidateStateRecord}
      (run_eq : h.run? record.runId = some run)
      (policyHash : event.policyHash = run.policyHash)
      (absent : h.candidate? record.candidateId = none)
      (state : record.state = .proposed)
      (parent : ∀ parentId ∈ record.recoveryParentCandidateId, ∃ parent,
        h.candidate? parentId = some parent ∧ parent.runId = record.runId ∧
          parent.state = .recoveryEligible)
      (view : event.view? = some record.view)
      (priorState : event.priorState = none) :
      Change h event ((h.addEvent event).putCandidate record)
  | moved {run : RunStateRecord} {current record : CandidateStateRecord}
      (run_eq : h.run? record.runId = some run)
      (policyHash : event.policyHash = run.policyHash)
      (current_eq : h.candidate? record.candidateId = some current)
      (runId : current.runId = record.runId)
      (legal : record.state ∈ candidateTransitions current.state)
      (parent : record.recoveryParentCandidateId = current.recoveryParentCandidateId)
      (view : event.view? = some record.view)
      (priorState : event.priorState = some current.state.text) :
      Change h event ((h.addEvent event).putCandidate record)

/-- A successful call adds the run's next event. -/
structure Step {Record : Type} (h : History Record) (event : RunEvent) (h' : History Record) :
    Prop where
  accepts : h.Accepts event
  sequence : event.sequence = h.nextSequence event.runId
  change : Change h event h'

variable {Record : Type} {E : Encoding Record}

section Encodings

variable {α : Type} {codec : Codec α}

theorem decode_of_dump {value : α} {bytes : ByteArray} (h : codec.dump value = some bytes) :
    E.decode codec bytes (E.sha256 bytes) = .ok value := by
  have hload := codec.load_dump h
  simp [Encoding.decode, require, E.sha256_digest, hload, h, bind, Except.bind, pure, Except.pure]

theorem decodeRecord_of_dump {value : α} {bytes : ByteArray} {id : EntityId} {indexed : α → Bool}
    (h : codec.dump value = some bytes) (hindexed : indexed value) :
    E.decodeRecord codec id indexed bytes (E.sha256 bytes) = .ok value := by
  have hload := codec.load_dump h
  simp [Encoding.decodeRecord, require, hload, hindexed, h, bind, Except.bind, pure, Except.pure]

end Encodings

theorem eventRow_eq_some {event : RunEvent} {row : EventRow} :
    E.eventRow event = some row ↔
      ∃ encoded, E.runEvent.dump event = some encoded ∧
        row = ⟨event.eventId, event.runId, event.sequence, encoded, E.sha256 encoded⟩ := by
  cases hdump : E.runEvent.dump event <;> simp [Encoding.eventRow, hdump, eq_comm]

theorem recordRow_eq_some {item : ℕ × Record} {row : RecordRow} :
    E.recordRow item = some row ↔
      ∃ encoded, E.record.dump item.2 = some encoded ∧
        row = ⟨item.1, E.experimentRecordId item.2, E.recordRunId item.2, encoded,
          E.sha256 encoded⟩ := by
  cases hdump : E.record.dump item.2 <;> simp [Encoding.recordRow, hdump, eq_comm]

theorem runRow_eq_some {record : RunStateRecord} {row : RunRow} :
    E.runRow record = some row ↔
      ∃ encoded, E.runState.dump record = some encoded ∧
        row = ⟨record.runId, record.state.text, record.sequence, record.policyHash, encoded,
          E.sha256 encoded⟩ := by
  cases hdump : E.runState.dump record <;> simp [Encoding.runRow, hdump, eq_comm]

theorem candidateRow_eq_some {record : CandidateStateRecord} {row : CandidateRow} :
    E.candidateRow record = some row ↔
      ∃ encoded, E.candidateState.dump record = some encoded ∧
        row = ⟨record.candidateId, record.runId, record.state.text, record.sequence, encoded,
          E.sha256 encoded⟩ := by
  cases hdump : E.candidateState.dump record <;> simp [Encoding.candidateRow, hdump, eq_comm]

theorem readEvent_of_row {event : RunEvent} {row : EventRow} (h : E.eventRow event = some row) :
    E.readEvent row = .ok event := by
  obtain ⟨encoded, hdump, rfl⟩ := eventRow_eq_some.mp h
  simp [Encoding.readEvent, decode_of_dump hdump, require, bind, Except.bind, pure, Except.pure]

theorem readRecord_of_row {item : ℕ × Record} {row : RecordRow} (h : E.recordRow item = some row) :
    E.readRecord row = .ok item.2 := by
  obtain ⟨encoded, hdump, rfl⟩ := recordRow_eq_some.mp h
  simp [Encoding.readRecord, decode_of_dump hdump, require, bind, Except.bind, pure, Except.pure]

theorem decodeRun_of_row {record : RunStateRecord} {row : RunRow}
    (h : E.runRow record = some row) : E.decodeRun row = .ok record := by
  obtain ⟨encoded, hdump, rfl⟩ := runRow_eq_some.mp h
  exact decodeRecord_of_dump hdump (by simp)

theorem decodeCandidate_of_row {record : CandidateStateRecord} {row : CandidateRow}
    (h : E.candidateRow record = some row) : E.decodeCandidate row = .ok record := by
  obtain ⟨encoded, hdump, rfl⟩ := candidateRow_eq_some.mp h
  exact decodeRecord_of_dump hdump (by simp)

/-- The database holds the encodings of the history, and its primary keys are respected. -/
structure Represents (E : Encoding Record) (db : Database) (h : History Record) : Prop where
  events : Stored E.eventRow h.events db.runEvents
  runs : Stored E.runRow h.runs db.runStates
  candidates : Stored E.candidateRow h.candidates db.candidateStates
  records : Stored E.recordRow h.records db.experimentRecords
  runs_nodup : (h.runs.map (·.runId)).Nodup
  candidates_nodup : (h.candidates.map (·.candidateId)).Nodup

def History.empty : History Record := ⟨[], [], [], []⟩

theorem represents_empty : Represents E .empty .empty :=
  ⟨stored_nil, stored_nil, stored_nil, stored_nil, List.nodup_nil, List.nodup_nil⟩

namespace Represents

variable {db : Database} {h : History Record} (hdb : Represents E db h)
include hdb

theorem eventsOf (runId : EntityId) :
    Stored E.eventRow (h.eventsOf runId) (db.runEvents.filter (·.runId = runId)) := by
  refine hdb.events.filter fun hrow => ?_
  obtain ⟨encoded, -, rfl⟩ := eventRow_eq_some.mp hrow
  rfl

theorem eventIds : db.runEvents.map (·.eventId) = h.events.map (·.eventId) := by
  refine hdb.events.map_eq fun hrow => ?_
  obtain ⟨encoded, -, rfl⟩ := eventRow_eq_some.mp hrow
  rfl

theorem lastSequence_eq (runId : EntityId) : db.lastSequence runId = h.lastSequence runId := by
  unfold Database.lastSequence History.lastSequence
  congr 1
  refine (hdb.eventsOf runId).map_eq fun hrow => ?_
  obtain ⟨encoded, -, rfl⟩ := eventRow_eq_some.mp hrow
  rfl

theorem nextSequence_eq (runId : EntityId) : db.nextSequence runId = h.nextSequence runId := by
  rw [Database.nextSequence, History.nextSequence, hdb.lastSequence_eq]

theorem readRun_eq (runId : EntityId) : E.readRun db runId = .ok (h.run? runId) := by
  have hrel : Option.Rel (fun record row => E.runRow record = some row) (h.run? runId)
      (lookup RunRow.runId db.runStates runId) := hdb.runs.lookup fun hrow => by
    obtain ⟨encoded, -, rfl⟩ := runRow_eq_some.mp hrow
    rfl
  unfold Encoding.readRun
  generalize lookup RunRow.runId db.runStates runId = row, h.run? runId = record at hrel
  cases hrel with
  | none => rfl
  | some hrow => simp [decodeRun_of_row hrow, Except.map]

theorem readCandidate_eq (candidateId : EntityId) :
    E.readCandidate db candidateId = .ok (h.candidate? candidateId) := by
  have hrel : Option.Rel (fun record row => E.candidateRow record = some row)
      (h.candidate? candidateId) (lookup CandidateRow.candidateId db.candidateStates candidateId) :=
    hdb.candidates.lookup fun hrow => by
      obtain ⟨encoded, -, rfl⟩ := candidateRow_eq_some.mp hrow
      rfl
  unfold Encoding.readCandidate
  generalize lookup CandidateRow.candidateId db.candidateStates candidateId = row,
    h.candidate? candidateId = record at hrel
  cases hrel with
  | none => rfl
  | some hrow => simp [decodeCandidate_of_row hrow, Except.map]

omit hdb in
theorem mapM_of_stored {α ρ : Type} {encode : α → Option ρ} {decode : ρ → Except StateError α}
    (hdecode : ∀ {value row}, encode value = some row → decode row = .ok value) {values : List α}
    {rows : List ρ} (hstored : Stored encode values rows) : rows.mapM decode = .ok values :=
  mapM_eq_ok.mpr ((hstored.imp fun _ _ => hdecode).flip)

/-- A run's events are read back in the order of their sequences. -/
theorem iterEvents_eq {runId : EntityId}
    (hsorted : (h.eventsOf runId).Pairwise fun event event' => event.sequence < event'.sequence) :
    E.iterEvents db runId = .ok (h.eventsOf runId) := by
  have hstored := hdb.eventsOf runId
  have hcolumn : (db.runEvents.filter (·.runId = runId)).map (·.sequence) =
      (h.eventsOf runId).map (·.sequence) := hstored.map_eq fun hrow => by
    obtain ⟨encoded, -, rfl⟩ := eventRow_eq_some.mp hrow
    rfl
  have hrows : (db.runEvents.filter (·.runId = runId)).Pairwise
      fun row row' => row.sequence ≤ row'.sequence := by
    rw [← List.pairwise_map (R := (· ≤ ·)), hcolumn, List.pairwise_map]
    exact hsorted.imp Nat.le_of_lt
  unfold Encoding.iterEvents
  rw [hrows.insertionSort_eq]
  exact mapM_of_stored readEvent_of_row hstored

end Represents

/-! ## Writes -/

theorem reach_ok {fails : Point → Bool} {point : Point} {db db' : Database} {u : Unit} :
    reach fails point db = .ok u db' ↔ fails point = false ∧ db = db' := check_ok

theorem reach_bind_ok {α : Type} {fails : Point → Bool} {point : Point} {db db' : Database}
    {f : Unit → EStateM StateError Database α} {a : α} :
    (reach fails point >>= f) db = .ok a db' ↔ fails point = false ∧ f () db = .ok a db' :=
  check_bind_ok

theorem elim_ok {α : Type} {x : Option α} {e : StateError} {a : α} {db db' : Database} :
    (ofExcept (x.elim (.error e) .ok) : EStateM StateError Database α) db = .ok a db' ↔
      x = some a ∧ db = db' := by
  rw [ofExcept_ok]
  cases x <;> simp

theorem insertRow_ok {row : EventRow} {db db' : Database} {u : Unit}
    (hok : Encoding.insertRow row db = .ok u db') :
    row.eventId ∉ db.runEvents.map (·.eventId) ∧
      (∀ last ∈ db.lastSequence row.runId, last < row.sequence) ∧
      db' = { db with runEvents := db.runEvents ++ [row] } := by
  simp only [Encoding.insertRow, bind_ok, get_ok, check_ok, set_ok] at hok
  obtain ⟨_, _, ⟨rfl, rfl⟩, -, _, ⟨-, rfl⟩, -, _, ⟨hfresh, rfl⟩, -, _, ⟨hlater, rfl⟩, rfl⟩ := hok
  exact ⟨hfresh, hlater, rfl⟩

namespace Represents

variable {db db' : Database} {h : History Record} {session : Session} {u : Unit}

/-- An event that is inserted is accepted by the history. -/
theorem insertRow (hdb : Represents E db h) {event : RunEvent} {row : EventRow}
    (hrow : E.eventRow event = some row) (hok : Encoding.insertRow row db = .ok u db') :
    h.Accepts event ∧ Represents E db' (h.addEvent event) := by
  obtain ⟨hfresh, hlater, rfl⟩ := insertRow_ok hok
  have hevents := hdb.events.append hrow
  obtain ⟨encoded, -, rfl⟩ := eventRow_eq_some.mp hrow
  rw [hdb.eventIds] at hfresh
  rw [hdb.lastSequence_eq, History.lastSequence] at hlater
  refine ⟨⟨hfresh, fun earlier hmem => ?_⟩, { hdb with events := hevents }⟩
  obtain ⟨last, hlast⟩ : ∃ last, ((h.eventsOf event.runId).map (·.sequence)).max? = some last := by
    refine Option.ne_none_iff_exists'.mp fun hnone => ?_
    rw [List.max?_eq_none_iff, List.map_eq_nil_iff] at hnone
    rw [hnone] at hmem
    cases hmem
  have hle := (List.max?_eq_some_iff.mp hlast).2 _ (List.mem_map_of_mem hmem)
  exact hle.trans_lt (hlater last hlast)

theorem insertEvent (hdb : Represents E db h) {event : RunEvent}
    (hok : E.insertEvent session event db = .ok u db') :
    h.Accepts event ∧ Represents E db' (h.addEvent event) := by
  simp only [Encoding.insertEvent, bind_ok, elim_ok, reach_ok] at hok
  obtain ⟨row, _, ⟨hrow, rfl⟩, -, _, ⟨-, rfl⟩, hok⟩ := hok
  exact hdb.insertRow hrow hok

theorem upsertRun (hdb : Represents E db h) {record : RunStateRecord}
    (hok : E.upsertRun session record (h.run? record.runId).isNone db = .ok u db') :
    Represents E db' (h.putRun record) := by
  simp only [Encoding.upsertRun, bind_ok, elim_ok, reach_ok, get_ok] at hok
  obtain ⟨row, _, ⟨hrow, rfl⟩, -, _, ⟨-, rfl⟩, _, _, ⟨rfl, rfl⟩, hok⟩ := hok
  have hnodup : ((h.putRun record).runs.map (·.runId)).Nodup := nodup_assign hdb.runs_nodup record
  by_cases hkey : record.runId ∈ h.runs.map (·.runId)
  · have hsome : (h.run? record.runId).isNone = false := by
      obtain ⟨other, hmem, hid⟩ := List.mem_map.mp hkey
      rw [Option.isNone_eq_false_iff, Option.isSome_iff_exists]
      exact ⟨other, (lookup_eq_some hdb.runs_nodup).mpr ⟨hmem, hid⟩⟩
    simp only [hsome, Bool.false_eq_true, if_false, bind_ok, set_ok, check_ok] at hok
    obtain ⟨-, _, rfl, hcount, rfl⟩ := hok
    -- the row that the condition selects is the only row of the run
    let p (old : RunStateRecord) : Bool :=
      old.runId = record.runId ∧ old.sequence < record.sequence
    have hp : ∀ {value row}, E.runRow value = some row →
        decide (row.runId = record.runId ∧ row.sequence < record.sequence) = p value := by
      intro value row hrow
      obtain ⟨encoded, -, rfl⟩ := runRow_eq_some.mp hrow
      rfl
    have hselected : ∃ old ∈ h.runs, p old := by
      rw [hdb.runs.countP_eq hp] at hcount
      exact List.countP_pos_iff.mp (by omega)
    have hruns : (h.putRun record).runs = h.runs.map fun old => if p old then record else old := by
      refine (assign_of_mem hkey).trans (map_if_eq_updateAt hdb.runs_nodup ?_ hselected).symm
      intro old hold
      exact (of_decide_eq_true hold).1
    refine { hdb with runs := ?_, runs_nodup := hnodup }
    rw [hruns]
    refine hdb.runs.rewrite hp fun {old oldRow} _ hold hselected => ?_
    obtain ⟨encoded, -, rfl⟩ := runRow_eq_some.mp hold
    obtain ⟨encoded', -, rfl⟩ := runRow_eq_some.mp hrow
    rw [hrow, (of_decide_eq_true hselected).1]
  · have hnone : (h.run? record.runId).isNone := by
      refine Option.isNone_iff_eq_none.mpr (lookup_eq_none.mpr fun other hmem hid => hkey ?_)
      exact List.mem_map.mpr ⟨other, hmem, hid⟩
    simp only [hnone, if_true, bind_ok, set_ok, check_ok] at hok
    obtain ⟨-, _, ⟨-, rfl⟩, rfl⟩ := hok
    refine { hdb with runs := ?_, runs_nodup := hnodup }
    have hruns : (h.putRun record).runs = h.runs ++ [record] := assign_of_notMem hkey
    rw [hruns]
    exact hdb.runs.append hrow

theorem insertCandidate (hdb : Represents E db h) {record : CandidateStateRecord}
    (hok : E.insertCandidate session record db = .ok u db') :
    Represents E db' (h.putCandidate record) := by
  simp only [Encoding.insertCandidate, bind_ok, elim_ok, reach_ok, get_ok, check_ok, set_ok] at hok
  obtain ⟨row, _, ⟨hrow, rfl⟩, -, _, ⟨-, rfl⟩, _, _, ⟨rfl, rfl⟩, -, _, ⟨hfresh, rfl⟩, rfl⟩ := hok
  have hkey : record.candidateId ∉ h.candidates.map (·.candidateId) := by
    have hcolumn : db.candidateStates.map (·.candidateId) =
        h.candidates.map (·.candidateId) := hdb.candidates.map_eq fun hrow => by
      obtain ⟨encoded, -, rfl⟩ := candidateRow_eq_some.mp hrow
      rfl
    rwa [hcolumn] at hfresh
  have hcandidates : (h.putCandidate record).candidates = h.candidates ++ [record] :=
    assign_of_notMem hkey
  refine { hdb with
    candidates := ?_, candidates_nodup := nodup_assign hdb.candidates_nodup record }
  rw [hcandidates]
  exact hdb.candidates.append hrow

theorem updateCandidate (hdb : Represents E db h) {record : CandidateStateRecord}
    {expectedState : CandidateState}
    (hok : E.updateCandidate session record expectedState db = .ok u db') :
    Represents E db' (h.putCandidate record) := by
  simp only [Encoding.updateCandidate, bind_ok, elim_ok, reach_ok, get_ok, check_ok, set_ok] at hok
  obtain ⟨row, _, ⟨hrow, rfl⟩, -, _, ⟨-, rfl⟩, _, _, ⟨rfl, rfl⟩, -, _, rfl, hcount, rfl⟩ := hok
  let p (old : CandidateStateRecord) : Bool :=
    old.candidateId = record.candidateId ∧ old.runId = record.runId ∧
      old.state.text = expectedState.text
  have hp : ∀ {value row}, E.candidateRow value = some row →
      decide (row.candidateId = record.candidateId ∧ row.runId = record.runId ∧
        row.state = expectedState.text) = p value := by
    intro value row hrow
    obtain ⟨encoded, -, rfl⟩ := candidateRow_eq_some.mp hrow
    rfl
  have hselected : ∃ old ∈ h.candidates, p old := by
    rw [hdb.candidates.countP_eq hp] at hcount
    exact List.countP_pos_iff.mp (by omega)
  have hkey : record.candidateId ∈ h.candidates.map (·.candidateId) := by
    obtain ⟨old, hmem, hold⟩ := hselected
    exact List.mem_map.mpr ⟨old, hmem, (of_decide_eq_true hold).1⟩
  have hcandidates : (h.putCandidate record).candidates =
      h.candidates.map fun old => if p old then record else old := by
    refine (assign_of_mem hkey).trans (map_if_eq_updateAt hdb.candidates_nodup ?_ hselected).symm
    intro old hold
    exact (of_decide_eq_true hold).1
  refine { hdb with
    candidates := ?_, candidates_nodup := nodup_assign hdb.candidates_nodup record }
  rw [hcandidates]
  refine hdb.candidates.rewrite hp fun {old oldRow} _ hold hselected => ?_
  obtain ⟨encoded, -, rfl⟩ := candidateRow_eq_some.mp hold
  obtain ⟨encoded', -, rfl⟩ := candidateRow_eq_some.mp hrow
  obtain ⟨hid, hrun, -⟩ := of_decide_eq_true hselected
  rw [hrow, hid, hrun]

end Represents

/-! ## Calls -/

theorem event_eq {session : Session} {runId : EntityId} {sequence : ℕ} {entityType : String}
    {entityId : EntityId} {priorState : Option String} {newState : String} {payload : Payload}
    {payloadArtifact : ArtifactRef} {event : RunEvent}
    (hok : E.event session runId sequence entityType entityId priorState newState payload
      payloadArtifact = .ok event) :
    event.view? = some ⟨entityType, runId, entityId, newState, sequence, payloadArtifact,
        session.now⟩ ∧
      event.priorState = priorState ∧ event.policyHash = session.policyHash := by
  simp only [Encoding.event, bind_eq_ok] at hok
  obtain ⟨⟨name, version⟩, -, hok⟩ := hok
  have hfields := RunEventFields.construct_ok hok
  simp [RunEvent.view?, hfields]

theorem RunEvent.sequence_of_view {event : RunEvent} {view : StateView}
    (h : event.view? = some view) : event.runId = view.runId ∧ event.sequence = view.sequence := by
  obtain ⟨state, -, rfl⟩ := Option.map_eq_some_iff.mp h
  exact ⟨rfl, rfl⟩

variable {db db' : Database} {h : History Record} {session : Session} {payload : Payload}

/-- A successful call takes the represented history one step on. -/
def Advances (E : Encoding Record) (h : History Record) (session : Session) (db' : Database) :
    Prop :=
  ∃ event h', Represents E db' h' ∧ Step h event h' ∧ event.policyHash = session.policyHash

namespace Represents

variable (hdb : Represents E db h)
include hdb

theorem checkGate {runId entityId : EntityId} {entityType : String} {u : Unit}
    (hok : E.checkGate session db runId entityType entityId db = .ok u db') : db' = db := by
  unfold Encoding.checkGate at hok
  split at hok
  · simp only [reach_bind_ok, ofExcept_bind_ok, hdb.readCandidate_eq, check_ok] at hok
    obtain ⟨-, _, -, -, rfl⟩ := hok
    rfl
  · exact (pure_ok.mp hok).2.symm

theorem checkParent {runId : EntityId} {parentId : Option EntityId} {u : Unit}
    (hok : E.checkParent session db runId parentId db = .ok u db') :
    db' = db ∧ ∀ id ∈ parentId, ∃ parent, h.candidate? id = some parent ∧
      parent.runId = runId ∧ parent.state = .recoveryEligible := by
  cases parentId with
  | none => exact ⟨(pure_ok.mp hok).2.symm, by simp⟩
  | some id =>
    simp only [Encoding.checkParent, reach_bind_ok, ofExcept_bind_ok, hdb.readCandidate_eq,
      check_bind_ok, check_ok] at hok
    obtain ⟨-, _, ⟨rfl⟩, ⟨parent, hparent, hrun⟩, ⟨parent', hparent', hstate⟩, rfl⟩ := hok
    obtain rfl : parent = parent' := Option.some.inj (hparent.symm.trans hparent')
    exact ⟨rfl, fun other hother => by
      rw [← Option.mem_some_iff.mp hother]
      exact ⟨parent, hparent, hrun, hstate⟩⟩

theorem transition {runId : EntityId} {expectedState nextState : RunState}
    {record : RunStateRecord}
    (hok : E.transition session runId expectedState nextState payload db = .ok record db') :
    Advances E h session db' := by
  simp only [Encoding.transition, check_bind_ok, transaction_ok, reach_bind_ok, get_bind_ok,
    ofExcept_bind_ok, hdb.readRun_eq, hdb.nextSequence_eq] at hok
  obtain ⟨hlegal, -, -, _, ⟨rfl⟩, hstate, hpolicy, artifact, -, -, built, hbuilt, event, hevent,
    hok⟩ := hok
  obtain ⟨_, db₁, hinsert, hok⟩ := bind_ok.mp hok
  obtain ⟨_, db₂, hupsert, hok⟩ := bind_ok.mp hok
  obtain ⟨rfl, rfl⟩ := pure_ok.mp (reach_bind_ok.mp hok).2
  have hfields := RunStateFields.construct_ok hbuilt
  have hrunId : built.runId = runId := by rw [hfields]
  obtain ⟨hview, hprior, hhash⟩ := event_eq hevent
  obtain ⟨haccepts, hdb₁⟩ := hdb.insertEvent hinsert
  obtain ⟨hrun, hsequence⟩ := RunEvent.sequence_of_view hview
  rw [← hrunId] at hupsert
  refine ⟨event, (h.addEvent event).putRun built, hdb₁.upsertRun hupsert, ⟨haccepts, ?_, ?_⟩, hhash⟩
  · rw [hsequence, hrun]
  · refine .run ?_ ?_ ?_ ?_ hprior ?_
    · rw [hrunId]
      exact hstate
    · rw [hfields]
      exact hlegal
    · rw [hrunId, hfields]
      exact hpolicy
    · rw [hview, RunStateRecord.view, hfields]
    · rw [hhash, hfields]

theorem recordEvent {runId entityId : EntityId} {eventType entityType : String}
    {status : StageStatus} {errorCode : Option String} {durationMs : ℤ} {result : RunEvent}
    (hok : E.recordEvent session runId eventType entityType entityId payload status errorCode
      durationMs db = .ok result db') :
    Advances E h session db' := by
  simp only [Encoding.recordEvent, Encoding.checkRun, check_bind_ok, transaction_ok, reach_bind_ok,
    get_bind_ok, ofExcept_bind_ok, hdb.readRun_eq] at hok
  obtain ⟨-, -, _, ⟨rfl⟩, ⟨run, hrun, hpolicy⟩, hok⟩ := hok
  obtain ⟨_, db₁, hgate, hok⟩ := bind_ok.mp hok
  obtain rfl := hdb.checkGate hgate
  simp only [reach_bind_ok, ofExcept_bind_ok, check_bind_ok, hdb.nextSequence_eq] at hok
  obtain ⟨artifact, -, -, registration, -, -, event, hevent, hok⟩ := hok
  obtain ⟨_, db₂, hinsert, hok⟩ := bind_ok.mp hok
  obtain ⟨rfl, rfl⟩ := pure_ok.mp (reach_bind_ok.mp hok).2
  have hfields := RunEventFields.construct_ok hevent
  obtain ⟨haccepts, hdb₂⟩ := hdb.insertEvent hinsert
  have hhash : event.policyHash = session.policyHash := by rw [hfields]
  have hrun' : h.run? event.runId = some run := by
    rw [hfields]
    exact hrun
  refine ⟨event, h.addEvent event, hdb₂, ⟨haccepts, ?_, ?_⟩, hhash⟩
  · rw [hfields]
  · refine .recorded hrun' (hhash.trans hpolicy.symm) ?_ ?_
    all_goals rw [hfields]

theorem createCandidate {runId candidateId : EntityId} {parentId : Option EntityId}
    {record : CandidateStateRecord}
    (hok : E.createCandidate session runId candidateId payload parentId db = .ok record db') :
    Advances E h session db' := by
  simp only [Encoding.createCandidate, Encoding.checkRun, check_bind_ok, transaction_ok,
    reach_bind_ok, get_bind_ok, ofExcept_bind_ok, hdb.readRun_eq, hdb.readCandidate_eq] at hok
  obtain ⟨-, -, _, ⟨rfl⟩, -, ⟨run, hrun, hpolicy⟩, -, _, ⟨rfl⟩, habsent, hok⟩ := hok
  obtain ⟨_, db₁, hcheck, hok⟩ := bind_ok.mp hok
  obtain ⟨rfl, hparent⟩ := hdb.checkParent hcheck
  simp only [reach_bind_ok, ofExcept_bind_ok, hdb.nextSequence_eq] at hok
  obtain ⟨artifact, -, -, built, hbuilt, event, hevent, hok⟩ := hok
  obtain ⟨_, db₂, hinsert, hok⟩ := bind_ok.mp hok
  obtain ⟨_, db₃, hput, hok⟩ := bind_ok.mp hok
  obtain ⟨rfl, rfl⟩ := pure_ok.mp (reach_bind_ok.mp hok).2
  have hfields := CandidateStateFields.construct_ok hbuilt
  obtain ⟨hview, hprior, hhash⟩ := event_eq hevent
  obtain ⟨haccepts, hdb₂⟩ := hdb.insertEvent hinsert
  obtain ⟨hrunId, hsequence⟩ := RunEvent.sequence_of_view hview
  refine ⟨event, (h.addEvent event).putCandidate built, hdb₂.insertCandidate hput,
    ⟨haccepts, ?_, ?_⟩, hhash⟩
  · rw [hsequence, hrunId]
  · have hrun' : h.run? built.runId = some run := by
      rw [hfields]
      exact hrun
    refine .created hrun' (hhash.trans hpolicy.symm) ?_ ?_ ?_ ?_ hprior
    · rw [hfields]
      exact habsent
    · rw [hfields]
    · rw [hfields]
      exact hparent
    · rw [hview, CandidateStateRecord.view, hfields]

theorem transitionCandidate {runId candidateId : EntityId}
    {expectedState nextState : CandidateState} {record : CandidateStateRecord}
    (hok : E.transitionCandidate session runId candidateId expectedState nextState payload db =
      .ok record db') :
    Advances E h session db' := by
  simp only [Encoding.transitionCandidate, Encoding.checkRun, check_bind_ok, transaction_ok,
    reach_bind_ok, get_bind_ok, ofExcept_bind_ok, hdb.readRun_eq, hdb.readCandidate_eq] at hok
  obtain ⟨hlegal, -, -, _, ⟨rfl⟩, ⟨run, hrun, hpolicy⟩, -, _, ⟨rfl⟩, hok⟩ := hok
  cases hcurrent : h.candidate? candidateId with
  | none => exact (throw_ok.mp (by rwa [hcurrent] at hok)).elim
  | some current =>
  simp only [hcurrent, check_bind_ok, reach_bind_ok, ofExcept_bind_ok, hdb.nextSequence_eq] at hok
  obtain ⟨hcurrentRun, hcurrentState, artifact, -, -, built, hbuilt, event, hevent, hok⟩ := hok
  obtain ⟨_, db₂, hinsert, hok⟩ := bind_ok.mp hok
  obtain ⟨_, db₃, hput, hok⟩ := bind_ok.mp hok
  obtain ⟨rfl, rfl⟩ := pure_ok.mp (reach_bind_ok.mp hok).2
  have hfields := CandidateStateFields.construct_ok hbuilt
  obtain ⟨hview, hprior, hhash⟩ := event_eq hevent
  obtain ⟨haccepts, hdb₂⟩ := hdb.insertEvent hinsert
  obtain ⟨hrunId, hsequence⟩ := RunEvent.sequence_of_view hview
  refine ⟨event, (h.addEvent event).putCandidate built, hdb₂.updateCandidate hput,
    ⟨haccepts, ?_, ?_⟩, hhash⟩
  · rw [hsequence, hrunId]
  · have hrun' : h.run? built.runId = some run := by
      rw [hfields]
      exact hrun
    have hcurrent' : h.candidate? built.candidateId = some current := by
      rw [hfields]
      exact hcurrent
    refine .moved hrun' (hhash.trans hpolicy.symm) hcurrent' ?_ ?_ ?_ ?_ ?_
    · rw [hfields]
      exact hcurrentRun
    · rw [hfields, hcurrentState]
      exact hlegal
    · rw [hfields]
    · rw [hview, CandidateStateRecord.view, hfields]
    · rw [hprior, hcurrentState]

/-- A call that returns takes the history one step on, under its caller's policy. -/
theorem call {call : Call} {u : Unit} (hok : call.run E db = .ok u db') :
    Advances E h call.session db' := by
  cases call with
  | transition => exact hdb.transition (discard_ok.mp hok).choose_spec
  | recordEvent => exact hdb.recordEvent (discard_ok.mp hok).choose_spec
  | createCandidate => exact hdb.createCandidate (discard_ok.mp hok).choose_spec
  | createRecoveryChild =>
    obtain ⟨record, hok⟩ := discard_ok.mp hok
    exact hdb.createCandidate (check_bind_ok.mp hok).2
  | transitionCandidate => exact hdb.transitionCandidate (discard_ok.mp hok).choose_spec

end Represents

/-- A call that raises changes nothing. -/
theorem Call.run_atomic (call : Call) : Atomic (call.run E) := by
  cases call with
  | transition => exact ((atomic_transaction _).check_bind).discard
  | recordEvent => exact (atomic_transaction _).discard
  | createCandidate => exact (atomic_transaction _).discard
  | createRecoveryChild => exact (Atomic.check_bind (atomic_transaction _)).discard
  | transitionCandidate => exact ((atomic_transaction _).check_bind).discard

theorem Call.perform_of_ok (call : Call) {db db' : Database}
    (hok : call.run E db = .ok () db') : call.perform E db = db' := by
  rw [perform, hok]

/-- Successful calls, one after the other. -/
def Steps {Record : Type} : History Record → History Record → Prop :=
  Relation.ReflTransGen fun h h' => ∃ event, Step h event h'

/-- Whatever the calls, the database goes on representing a history that steps lead to. -/
theorem Represents.performAll (hdb : Represents E db h) (calls : List Call) :
    ∃ h', Represents E (performAll E calls db) h' ∧ Steps h h' := by
  induction calls generalizing db h with
  | nil => exact ⟨h, hdb, .refl⟩
  | cons call rest ih =>
    change ∃ h', Represents E (Orchestrator.performAll E rest (call.perform E db)) h' ∧ Steps h h'
    unfold Call.perform
    split
    next db' hok =>
      obtain ⟨event, h₁, hdb₁, hstep, -⟩ := hdb.call hok
      obtain ⟨h', hdb', hsteps⟩ := ih hdb₁
      exact ⟨h', hdb', .head ⟨event, hstep⟩ hsteps⟩
    next e db' herror =>
      rw [call.run_atomic herror]
      exact ih hdb

/-- What steps keep. -/
theorem Steps.induction {P : History Record → Prop} {h h' : History Record} (hsteps : Steps h h')
    (hP : P h) (hstep : ∀ {h event h'}, P h → Step h event h' → P h') : P h' := by
  induction hsteps with
  | refl => exact hP
  | tail _ hlast ih =>
    obtain ⟨event, hlast⟩ := hlast
    exact hstep ih hlast

end NovaRtl.Orchestrator
