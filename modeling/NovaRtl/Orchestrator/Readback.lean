import NovaRtl.Orchestrator.History

/-!
# Reading the ledger back

Whatever mixes appends to the ledger with the orchestrator's writes, the events of a run are read
back in the order of their sequences and the records in the order they were appended, each as it was
written, and what has been read stays a part of what is read later.
-/

namespace NovaRtl.Orchestrator

open Table Transact

variable {Record : Type}

inductive Write (Record : Type) where
  | appendEvent (readOnly : Bool) (fails : Point → Bool) (event : RunEvent)
  | appendRecord (readOnly : Bool) (fails : Point → Bool) (record : Record)
  | orchestrator (call : Call)

def Write.run (E : Encoding Record) : Write Record → EStateM StateError Database Unit
  | .appendEvent readOnly fails event => E.appendEvent readOnly fails event
  | .appendRecord readOnly fails record => E.appendRecord readOnly fails record
  | .orchestrator call => call.run E

/-- The database after a write, whether it returns or raises. -/
def Write.perform (E : Encoding Record) (write : Write Record) (db : Database) : Database :=
  match write.run E db with
  | .ok _ db' => db'
  | .error _ db' => db'

def writeAll (E : Encoding Record) (writes : List (Write Record)) (db : Database) : Database :=
  writes.foldl (fun db write => write.perform E db) db

variable {E : Encoding Record} {h h' : History Record} {event : RunEvent} {record : Record}

theorem Write.run_atomic (write : Write Record) : Atomic (write.run E) := by
  cases write with
  | appendEvent | appendRecord =>
    refine Atomic.check_bind ?_
    exact Atomic.ofExcept_bind fun _ => atomic_transaction _
  | orchestrator call => exact call.run_atomic

/-- The records of a run, in append order. -/
def History.recordsOf (E : Encoding Record) (h : History Record) (runId : EntityId) :
    List Record :=
  (h.records.filter fun item => E.recordRunId item.2 = runId).map Prod.snd

def History.recordIds (E : Encoding Record) (h : History Record) : List EntityId :=
  h.records.map fun item => E.experimentRecordId item.2

def History.addRecord (h : History Record) (index : ℕ) (record : Record) : History Record :=
  { h with records := h.records ++ [(index, record)] }

/-- The ledger is in order: sequences increase in each run, and keys over all records. -/
structure Ordered (h : History Record) : Prop where
  events : ∀ runId,
    (h.eventsOf runId).Pairwise fun event event' => event.sequence < event'.sequence
  records : h.records.Pairwise fun item item' => item.1 < item'.1

theorem History.eventsOf_snoc (hevents : h'.events = h.events ++ [event]) (runId : EntityId) :
    h'.eventsOf runId = if event.runId = runId then h.eventsOf runId ++ [event]
      else h.eventsOf runId := by
  rw [eventsOf, hevents, List.filter_append, List.filter_singleton]
  split <;> simp_all [eventsOf]

theorem Ordered.addEvent (hh : Ordered h) (haccepts : h.Accepts event)
    (hevents : h'.events = h.events ++ [event]) (hrecords : h'.records = h.records) :
    Ordered h' := by
  refine ⟨fun runId => ?_, by rw [hrecords]; exact hh.records⟩
  rw [History.eventsOf_snoc hevents]
  split
  next hrun =>
    subst hrun
    refine List.pairwise_append.mpr ⟨hh.events _, List.pairwise_singleton .., ?_⟩
    intro earlier hearlier later hlater
    rw [List.mem_singleton.mp hlater]
    exact haccepts.later earlier hearlier
  next => exact hh.events runId

namespace Represents

variable {db db' : Database} (hdb : Represents E db h)
include hdb

theorem recordIds : db.experimentRecords.map (·.experimentRecordId) = h.recordIds E :=
  hdb.records.map_eq fun hrow => by
    obtain ⟨encoded, -, rfl⟩ := recordRow_eq_some.mp hrow
    rfl

/-- A run's records are read back in the order of their keys. -/
theorem iterRecords_eq (hh : Ordered h) (runId : EntityId) :
    E.iterRecords db runId = .ok (h.recordsOf E runId) := by
  have hstored : Stored E.recordRow (h.records.filter fun item => E.recordRunId item.2 = runId)
      (db.experimentRecords.filter (·.runId = runId)) := hdb.records.filter fun hrow => by
    obtain ⟨encoded, -, rfl⟩ := recordRow_eq_some.mp hrow
    rfl
  have hcolumn : (db.experimentRecords.filter (·.runId = runId)).map (·.appendIndex) =
      (h.records.filter fun item => E.recordRunId item.2 = runId).map Prod.fst :=
    hstored.map_eq fun hrow => by
      obtain ⟨encoded, -, rfl⟩ := recordRow_eq_some.mp hrow
      rfl
  have hrows : (db.experimentRecords.filter (·.runId = runId)).Pairwise
      fun row row' => row.appendIndex ≤ row'.appendIndex := by
    rw [← List.pairwise_map (R := (· ≤ ·)), hcolumn, List.pairwise_map]
    exact (hh.records.filter _).imp Nat.le_of_lt
  unfold Encoding.iterRecords History.recordsOf
  rw [hrows.insertionSort_eq]
  refine mapM_eq_ok.mpr ?_
  rw [List.forall₂_map_right_iff]
  exact (hstored.imp fun _ _ => readRecord_of_row).flip

theorem appendEvent {readOnly : Bool} {fails : Point → Bool} {u : Unit}
    (hok : E.appendEvent readOnly fails event db = .ok u db') :
    h.Accepts event ∧ Represents E db' (h.addEvent event) := by
  simp only [Encoding.appendEvent, check_bind_ok, ofExcept_bind_ok, transaction_ok, adaptExcept_ok,
    reach_bind_ok, get_bind_ok] at hok
  obtain ⟨-, row, hrow, -, -, -, _, -, -, hok⟩ := hok
  obtain ⟨_, db₁, hinsert, hok⟩ := bind_ok.mp hok
  obtain ⟨-, rfl⟩ := reach_ok.mp hok
  have hrow' : E.eventRow event = some row := by
    cases hcase : E.eventRow event <;> simp_all
  exact hdb.insertRow hrow' hinsert

theorem appendRecord {readOnly : Bool} {fails : Point → Bool} {u : Unit}
    (hok : E.appendRecord readOnly fails record db = .ok u db') :
    E.experimentRecordId record ∉ h.recordIds E ∧ ∃ index,
      (∀ item ∈ h.records, item.1 < index) ∧ Represents E db' (h.addRecord index record) := by
  simp only [Encoding.appendRecord, check_bind_ok, ofExcept_bind_ok, transaction_ok, adaptExcept_ok,
    reach_bind_ok, get_bind_ok] at hok
  obtain ⟨-, encoded, hencoded, -, hfresh, -, hok⟩ := hok
  obtain ⟨_, db₁, hinsert, hok⟩ := bind_ok.mp hok
  obtain ⟨-, rfl⟩ := reach_ok.mp hok
  simp only [Encoding.insertRecordRow, get_bind_ok, check_bind_ok, set_ok] at hinsert
  obtain ⟨-, -, hlater, rfl⟩ := hinsert
  have hdump : E.record.dump record = some encoded := by
    cases hcase : E.record.dump record <;> simp_all
  rw [hdb.recordIds] at hfresh
  refine ⟨hfresh, Encoding.nextIndex db, fun item hitem => ?_, { hdb with records := ?_ }⟩
  · have hcolumn : db.experimentRecords.map (·.appendIndex) = h.records.map Prod.fst :=
      hdb.records.map_eq fun hrow => by
        obtain ⟨encoded, -, rfl⟩ := recordRow_eq_some.mp hrow
        rfl
    have hmem := List.mem_map_of_mem (f := Prod.fst) hitem
    rw [← hcolumn] at hmem
    obtain ⟨row, hrow, hindex⟩ := List.mem_map.mp hmem
    rw [← hindex]
    exact hlater row hrow
  · exact hdb.records.append (recordRow_eq_some.mpr ⟨encoded, hdump, rfl⟩)

end Represents

/-- What a successful write adds to the history. -/
inductive Added (E : Encoding Record) (h h' : History Record) : Write Record → Prop
  | event {readOnly : Bool} {fails : Point → Bool} {event : RunEvent}
      (accepts : h.Accepts event) (events : h'.events = h.events ++ [event])
      (records : h'.records = h.records) : Added E h h' (.appendEvent readOnly fails event)
  | orchestrator {call : Call} {event : RunEvent}
      (accepts : h.Accepts event) (events : h'.events = h.events ++ [event])
      (records : h'.records = h.records) : Added E h h' (.orchestrator call)
  | record {readOnly : Bool} {fails : Point → Bool} {record : Record} {index : ℕ}
      (fresh : E.experimentRecordId record ∉ h.recordIds E)
      (later : ∀ item ∈ h.records, item.1 < index)
      (events : h'.events = h.events) (records : h'.records = h.records ++ [(index, record)]) :
      Added E h h' (.appendRecord readOnly fails record)

theorem Represents.write {db db' : Database} (hdb : Represents E db h) {write : Write Record}
    {u : Unit} (hok : write.run E db = .ok u db') :
    ∃ h', Represents E db' h' ∧ Added E h h' write := by
  cases write with
  | appendEvent =>
    obtain ⟨haccepts, hdb'⟩ := hdb.appendEvent hok
    exact ⟨_, hdb', .event haccepts rfl rfl⟩
  | appendRecord =>
    obtain ⟨hfresh, index, hlater, hdb'⟩ := hdb.appendRecord hok
    exact ⟨_, hdb', .record hfresh hlater rfl rfl⟩
  | orchestrator call =>
    obtain ⟨event, h', hdb', hstep, -⟩ := hdb.call hok
    refine ⟨h', hdb', .orchestrator hstep.accepts ?_ ?_⟩
    all_goals cases hstep.change <;> rfl

namespace Added

variable {write : Write Record} (hadded : Added E h h' write)
include hadded

theorem ordered (hh : Ordered h) : Ordered h' := by
  cases hadded with
  | event accepts events records | orchestrator accepts events records =>
    exact hh.addEvent accepts events records
  | record _ later events records =>
    refine ⟨fun runId => by rw [History.eventsOf, events]; exact hh.events runId, ?_⟩
    rw [records]
    refine List.pairwise_append.mpr ⟨hh.records, List.pairwise_singleton .., ?_⟩
    intro earlier hearlier item hitem
    rw [List.mem_singleton.mp hitem]
    exact later earlier hearlier

theorem events_append : ∃ more, h'.events = h.events ++ more := by
  cases hadded with
  | event _ events | orchestrator _ events => exact ⟨_, events⟩
  | record _ _ events => exact ⟨[], by rw [events, List.append_nil]⟩

theorem records_append : ∃ more, h'.records = h.records ++ more := by
  cases hadded with
  | event _ _ records | orchestrator _ _ records => exact ⟨[], by rw [records, List.append_nil]⟩
  | record _ _ _ records => exact ⟨_, records⟩

end Added

/-- Whatever is written, the database goes on representing an ordered history, and keeps what it
has. -/
theorem Represents.writeAll {db : Database} (hdb : Represents E db h) (hh : Ordered h)
    (writes : List (Write Record)) :
    ∃ h', Represents E (writeAll E writes db) h' ∧ Ordered h' ∧
      (∃ more, h'.events = h.events ++ more) ∧ ∃ more, h'.records = h.records ++ more := by
  induction writes generalizing db h with
  | nil => exact ⟨h, hdb, hh, ⟨[], (List.append_nil _).symm⟩, [], (List.append_nil _).symm⟩
  | cons write rest ih =>
    change ∃ h', Represents E (Orchestrator.writeAll E rest (write.perform E db)) h' ∧ _
    unfold Write.perform
    split
    next db' hok =>
      obtain ⟨h₁, hdb₁, hadded⟩ := hdb.write hok
      obtain ⟨h', hdb', hh', ⟨events, hevents⟩, records, hrecords⟩ := ih hdb₁ (hadded.ordered hh)
      obtain ⟨events₁, hevents₁⟩ := hadded.events_append
      obtain ⟨records₁, hrecords₁⟩ := hadded.records_append
      refine ⟨h', hdb', hh', ⟨events₁ ++ events, ?_⟩, records₁ ++ records, ?_⟩
      · rw [hevents, hevents₁, List.append_assoc]
      · rw [hrecords, hrecords₁, List.append_assoc]
    next e db' herror =>
      rw [write.run_atomic herror]
      exact ih hdb hh

/-! ## The contracts of the code -/

/-- The contract types that the tables hold, and the digest of their bytes. -/
structure ContractTypes (φ Record : Type) where
  floats : Text.Floats φ
  runEvent : Schema φ RunEvent
  runState : Schema φ RunStateRecord
  candidateState : Schema φ CandidateStateRecord
  record : Schema φ Record
  experimentRecordId : Record → EntityId
  recordRunId : Record → EntityId
  sha256 : ByteArray → String
  sha256_digest : ∀ bytes, isDigest (sha256 bytes)

def ContractTypes.encoding {φ : Type} (types : ContractTypes φ Record) : Encoding Record where
  runEvent := types.runEvent.codec types.floats
  runState := types.runState.codec types.floats
  candidateState := types.candidateState.codec types.floats
  record := types.record.codec types.floats
  experimentRecordId := types.experimentRecordId
  recordRunId := types.recordRunId
  sha256 := types.sha256
  sha256_digest := types.sha256_digest

/-- What is read back of every run. -/
structure Reads (E : Encoding Record) (db : Database) (events : EntityId → List RunEvent)
    (records : EntityId → List Record) : Prop where
  events : ∀ runId, E.iterEvents db runId = .ok (events runId)
  records : ∀ runId, E.iterRecords db runId = .ok (records runId)

/-- A sequence for each run, with one value more in one run. -/
def addTo {α : Type} (values : EntityId → List α) (runId : EntityId) (value : α) :
    EntityId → List α :=
  Function.update values runId (values runId ++ [value])

/-- The write repeats an identity, or an event's place in its run. -/
def Repeats (E : Encoding Record) (events : EntityId → List RunEvent)
    (records : EntityId → List Record) : Write Record → Prop
  | .appendEvent _ _ event =>
    (∃ runId, ∃ earlier ∈ events runId, earlier.eventId = event.eventId) ∨
      ∃ earlier ∈ events event.runId, event.sequence ≤ earlier.sequence
  | .appendRecord _ _ record =>
    ∃ runId, ∃ earlier ∈ records runId,
      E.experimentRecordId earlier = E.experimentRecordId record
  | .orchestrator _ => False

/-- What is read back after a write, of what was read back before. -/
def ReadsAfter (E : Encoding Record) (db' : Database) (events : EntityId → List RunEvent)
    (records : EntityId → List Record) : Write Record → Prop
  | .appendEvent _ _ event => Reads E db' (addTo events event.runId event) records
  | .appendRecord _ _ record => Reads E db' events (addTo records (E.recordRunId record) record)
  | .orchestrator _ => ∃ event, Reads E db' (addTo events event.runId event) records ∧
      (∀ runId, ∀ earlier ∈ events runId, earlier.eventId ≠ event.eventId) ∧
      ∀ earlier ∈ events event.runId, earlier.sequence < event.sequence

theorem Represents.reads {db : Database} (hdb : Represents E db h) (hh : Ordered h) :
    Reads E db h.eventsOf (h.recordsOf E) :=
  ⟨fun runId => hdb.iterEvents_eq (hh.events runId), hdb.iterRecords_eq hh⟩

theorem eventsOf_addTo (hevents : h'.events = h.events ++ [event]) :
    h'.eventsOf = addTo h.eventsOf event.runId event := by
  funext runId
  rw [History.eventsOf_snoc hevents, addTo, Function.update_apply]
  split <;> split <;> simp_all

theorem recordsOf_addTo {index : ℕ} (hrecords : h'.records = h.records ++ [(index, record)]) :
    h'.recordsOf E = addTo (h.recordsOf E) (E.recordRunId record) record := by
  funext runId
  rw [History.recordsOf, hrecords, addTo, Function.update_apply, List.filter_append,
    List.filter_singleton]
  by_cases hrun : runId = E.recordRunId record
  · simp [hrun, History.recordsOf]
  · simp [hrun, Ne.symm hrun, History.recordsOf]

theorem History.mem_eventIds {eventId : EntityId} :
    eventId ∈ h.events.map (·.eventId) ↔
      ∃ runId, ∃ event ∈ h.eventsOf runId, event.eventId = eventId := by
  simp [eventsOf]

theorem History.mem_recordIds {recordId : EntityId} :
    recordId ∈ h.recordIds E ↔
      ∃ runId, ∃ record ∈ h.recordsOf E runId, E.experimentRecordId record = recordId := by
  simp only [recordIds, recordsOf, List.mem_map, List.mem_filter, decide_eq_true_eq]
  constructor
  · rintro ⟨item, hitem, hid⟩
    exact ⟨_, item.2, ⟨item, ⟨hitem, rfl⟩, rfl⟩, hid⟩
  · rintro ⟨runId, record, ⟨item, ⟨hitem, -⟩, rfl⟩, hid⟩
    exact ⟨item, hitem, hid⟩

theorem Added.readsAfter {db' : Database} {write : Write Record} (hadded : Added E h h' write)
    (hdb' : Represents E db' h') (hh : Ordered h) :
    ReadsAfter E db' h.eventsOf (h.recordsOf E) write := by
  have hreads := hdb'.reads (hadded.ordered hh)
  cases hadded with
  | event accepts events records =>
    have hrecords : h'.recordsOf E = h.recordsOf E := by
      funext runId
      rw [History.recordsOf, records, History.recordsOf]
    rwa [eventsOf_addTo events, hrecords] at hreads
  | @orchestrator call event accepts events records =>
    have hrecords : h'.recordsOf E = h.recordsOf E := by
      funext runId
      rw [History.recordsOf, records, History.recordsOf]
    rw [eventsOf_addTo events, hrecords] at hreads
    refine ⟨event, hreads, fun runId earlier hearlier hid => accepts.fresh ?_, accepts.later⟩
    exact History.mem_eventIds.mpr ⟨runId, earlier, hearlier, hid⟩
  | record fresh later events records =>
    have hevents : h'.eventsOf = h.eventsOf := by
      funext runId
      rw [History.eventsOf, events, History.eventsOf]
    rwa [hevents, recordsOf_addTo records] at hreads

theorem Added.not_repeats {write : Write Record} (hadded : Added E h h' write) :
    ¬ Repeats E h.eventsOf (h.recordsOf E) write := by
  cases hadded with
  | event accepts =>
    rintro (⟨runId, earlier, hearlier, hid⟩ | ⟨earlier, hearlier, hle⟩)
    · exact accepts.fresh (History.mem_eventIds.mpr ⟨runId, earlier, hearlier, hid⟩)
    · have := accepts.later earlier hearlier
      omega
  | orchestrator => exact id
  | record fresh =>
    rintro ⟨runId, earlier, hearlier, hid⟩
    exact fresh (History.mem_recordIds.mpr ⟨runId, earlier, hearlier, hid⟩)

/-- Whatever has been written to a new database: every run is read back without an error, its
events in increasing sequence. A write that raises changes nothing, one that returns adds its value
at the end of what its run reads back, and one that repeats an identity or goes back in its run
raises. Whatever is written later, each run goes on with what it reads back now. -/
theorem ledger_readback {φ : Type} (types : ContractTypes φ Record) (writes : List (Write Record)) :
    ∃ events records, Reads types.encoding (writeAll types.encoding writes .empty) events records ∧
      (∀ runId, (events runId).Pairwise fun event event' => event.sequence < event'.sequence) ∧
      (∀ write error db',
        Write.run types.encoding write (writeAll types.encoding writes .empty) = .error error db' →
        db' = writeAll types.encoding writes .empty) ∧
      (∀ write u db',
        Write.run types.encoding write (writeAll types.encoding writes .empty) = .ok u db' →
        ReadsAfter types.encoding db' events records write) ∧
      (∀ write, Repeats types.encoding events records write →
        ∃ error, Write.run types.encoding write (writeAll types.encoding writes .empty) =
          .error error (writeAll types.encoding writes .empty)) ∧
      ∀ later, ∃ events' records',
        Reads types.encoding
          (writeAll types.encoding later (writeAll types.encoding writes .empty)) events' records' ∧
        ∀ runId, events runId <+: events' runId ∧ records runId <+: records' runId := by
  obtain ⟨h, hdb, hh, -⟩ := represents_empty.writeAll (E := types.encoding)
    ⟨by simp [History.eventsOf, History.empty], .nil⟩ writes
  refine ⟨h.eventsOf, h.recordsOf types.encoding, hdb.reads hh, hh.events,
    fun write error db' herror => write.run_atomic herror, fun write u db' hok => ?_,
    fun write hrepeats => ?_, fun later => ?_⟩
  · obtain ⟨h', hdb', hadded⟩ := hdb.write hok
    exact hadded.readsAfter hdb' hh
  · cases hrun : write.run types.encoding (writeAll types.encoding writes .empty) with
    | ok u db' =>
      obtain ⟨h', -, hadded⟩ := hdb.write hrun
      exact absurd hrepeats hadded.not_repeats
    | error error db' => exact ⟨error, by rw [write.run_atomic hrun]⟩
  · obtain ⟨h', hdb', hh', ⟨events, hevents⟩, records, hrecords⟩ := hdb.writeAll hh later
    refine ⟨_, _, hdb'.reads hh', fun runId => ⟨?_, ?_⟩⟩
    · rw [History.eventsOf, History.eventsOf, hevents, List.filter_append]
      exact List.prefix_append ..
    · rw [History.recordsOf, History.recordsOf, hrecords, List.filter_append, List.map_append]
      exact List.prefix_append ..

end NovaRtl.Orchestrator
