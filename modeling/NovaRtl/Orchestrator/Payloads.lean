import NovaRtl.Orchestrator.History

/-!
# The payloads of events

A call that returns adds one event to the ledger, which names the artifact and the schema of the
payload that the call was given.
-/

namespace NovaRtl.Orchestrator

open Table Transact

def Call.payload : Call → Payload
  | .transition _ _ _ _ payload | .recordEvent _ _ _ _ _ payload ..
  | .createCandidate _ _ _ payload _ | .createRecoveryChild _ _ _ _ payload
  | .transitionCandidate _ _ _ _ _ payload => payload

variable {Record : Type} {E : Encoding Record} {db db' : Database} {h : History Record}
  {session : Session} {payload : Payload} {event : RunEvent} {u : Unit}

/-- The event is about the payload. -/
structure Payload.Named (payload : Payload) (event : RunEvent) : Prop where
  schema : payload.registrations = [(event.payloadSchemaName, event.payloadSchemaVersion)]
  artifact : payload.stored = some event.payloadArtifact

theorem Payload.registration_eq_ok {entry : String × ℕ} :
    payload.registration = .ok entry ↔ payload.registrations = [entry] := by
  unfold registration
  split
  next found hfound => simp [hfound]
  next hother => simpa using fun h => hother entry h

theorem Payload.named_of_store (hstore : payload.store = .ok event.payloadArtifact)
    (hschema : payload.registration =
      .ok (event.payloadSchemaName, event.payloadSchemaVersion)) : payload.Named event := by
  refine ⟨registration_eq_ok.mp hschema, ?_⟩
  obtain ⟨-, -, hstored⟩ := bind_eq_ok.mp hstore
  cases hcase : payload.stored with
  | none => simp [hcase] at hstored
  | some artifact => simpa [hcase] using hstored

/-- The events of the database with one more at their end. -/
def Appends (E : Encoding Record) (payload : Payload) (db db' : Database) : Prop :=
  ∃ event row, E.eventRow event = some row ∧ db'.runEvents = db.runEvents ++ [row] ∧
    payload.Named event

theorem insertEvent_appends (hok : E.insertEvent session event db = .ok u db')
    (hnamed : payload.Named event) : Appends E payload db db' := by
  simp only [Encoding.insertEvent, bind_ok, elim_ok, reach_ok] at hok
  obtain ⟨row, _, ⟨hrow, rfl⟩, -, _, ⟨-, rfl⟩, hok⟩ := hok
  obtain ⟨-, -, rfl⟩ := insertRow_ok hok
  exact ⟨event, row, hrow, rfl, hnamed⟩

theorem Appends.of_runEvents {db'' : Database} (h : Appends E payload db db')
    (hevents : db''.runEvents = db'.runEvents) : Appends E payload db db'' := by
  obtain ⟨event, row, hrow, hdb', hnamed⟩ := h
  exact ⟨event, row, hrow, hevents.trans hdb', hnamed⟩

theorem upsertRun_runEvents {record : RunStateRecord} {isNew : Bool}
    (hok : E.upsertRun session record isNew db = .ok u db') : db'.runEvents = db.runEvents := by
  simp only [Encoding.upsertRun, bind_ok, elim_ok, reach_ok, get_ok] at hok
  obtain ⟨row, _, ⟨hrow, rfl⟩, -, _, ⟨-, rfl⟩, _, _, ⟨rfl, rfl⟩, hok⟩ := hok
  cases isNew with
  | true =>
    simp only [if_true, bind_ok, set_ok, check_ok] at hok
    obtain ⟨-, _, ⟨-, rfl⟩, rfl⟩ := hok
    rfl
  | false =>
    simp only [Bool.false_eq_true, if_false, bind_ok, set_ok, check_ok] at hok
    obtain ⟨-, _, rfl, -, rfl⟩ := hok
    rfl

theorem insertCandidate_runEvents {record : CandidateStateRecord}
    (hok : E.insertCandidate session record db = .ok u db') :
    db'.runEvents = db.runEvents := by
  simp only [Encoding.insertCandidate, bind_ok, elim_ok, reach_ok, get_ok, check_ok, set_ok] at hok
  obtain ⟨row, _, ⟨hrow, rfl⟩, -, _, ⟨-, rfl⟩, _, _, ⟨rfl, rfl⟩, -, _, ⟨hfresh, rfl⟩, rfl⟩ := hok
  rfl

theorem updateCandidate_runEvents {record : CandidateStateRecord} {expectedState : CandidateState}
    (hok : E.updateCandidate session record expectedState db = .ok u db') :
    db'.runEvents = db.runEvents := by
  simp only [Encoding.updateCandidate, bind_ok, elim_ok, reach_ok, get_ok, check_ok, set_ok] at hok
  obtain ⟨row, _, ⟨hrow, rfl⟩, -, _, ⟨-, rfl⟩, _, _, ⟨rfl, rfl⟩, -, _, rfl, hcount, rfl⟩ := hok
  rfl

theorem event_named {runId entityId : EntityId} {sequence : ℕ} {entityType newState : String}
    {priorState : Option String} {artifact : Scheduler.ArtifactRef}
    (hstore : payload.store = .ok artifact)
    (hok : E.event session runId sequence entityType entityId priorState newState payload
      artifact = .ok event) : payload.Named event := by
  simp only [Encoding.event, bind_eq_ok] at hok
  obtain ⟨⟨name, version⟩, hschema, hok⟩ := hok
  have hfields := RunEventFields.construct_ok hok
  refine Payload.named_of_store ?_ ?_
  · rw [hfields]
    exact hstore
  · rw [hfields]
    exact hschema

theorem transition_appends {runId : EntityId} {expectedState nextState : RunState}
    {record : RunStateRecord}
    (hok : E.transition session runId expectedState nextState payload db = .ok record db') :
    Appends E payload db db' := by
  simp only [Encoding.transition, check_bind_ok, transaction_ok, reach_bind_ok, get_bind_ok,
    ofExcept_bind_ok] at hok
  obtain ⟨-, -, -, _, -, -, -, artifact, hstore, -, built, -, event, hevent, hok⟩ := hok
  obtain ⟨_, db₁, hinsert, hok⟩ := bind_ok.mp hok
  obtain ⟨_, db₂, hupsert, hok⟩ := bind_ok.mp hok
  obtain ⟨-, rfl⟩ := pure_ok.mp (reach_bind_ok.mp hok).2
  exact (insertEvent_appends hinsert (event_named hstore hevent)).of_runEvents
    (upsertRun_runEvents hupsert)

namespace Represents

variable (hdb : Represents E db h)
include hdb

theorem recordEvent_appends {runId entityId : EntityId} {eventType entityType : String}
    {status : StageStatus} {errorCode : Option String} {durationMs : ℤ} {result : RunEvent}
    (hok : E.recordEvent session runId eventType entityType entityId payload status errorCode
      durationMs db = .ok result db') : Appends E payload db db' := by
  simp only [Encoding.recordEvent, Encoding.checkRun, check_bind_ok, transaction_ok,
    reach_bind_ok, get_bind_ok, ofExcept_bind_ok] at hok
  obtain ⟨-, -, _, -, -, hok⟩ := hok
  obtain ⟨_, db₁, hgate, hok⟩ := bind_ok.mp hok
  obtain rfl := hdb.checkGate hgate
  simp only [reach_bind_ok, ofExcept_bind_ok, check_bind_ok] at hok
  obtain ⟨artifact, hstore, -, registration, hschema, -, event, hevent, hok⟩ := hok
  obtain ⟨_, db₂, hinsert, hok⟩ := bind_ok.mp hok
  obtain ⟨-, rfl⟩ := pure_ok.mp (reach_bind_ok.mp hok).2
  have hfields := RunEventFields.construct_ok hevent
  refine insertEvent_appends hinsert (Payload.named_of_store ?_ ?_)
  · rw [hfields]
    exact hstore
  · rw [hfields]
    exact hschema

theorem createCandidate_appends {runId candidateId : EntityId} {parentId : Option EntityId}
    {record : CandidateStateRecord}
    (hok : E.createCandidate session runId candidateId payload parentId db = .ok record db') :
    Appends E payload db db' := by
  simp only [Encoding.createCandidate, Encoding.checkRun, check_bind_ok, transaction_ok,
    reach_bind_ok, get_bind_ok, ofExcept_bind_ok] at hok
  obtain ⟨-, -, _, -, -, -, -, _, -, -, hok⟩ := hok
  obtain ⟨_, db₁, hcheck, hok⟩ := bind_ok.mp hok
  obtain ⟨rfl, -⟩ := hdb.checkParent hcheck
  simp only [reach_bind_ok, ofExcept_bind_ok] at hok
  obtain ⟨artifact, hstore, -, built, -, event, hevent, hok⟩ := hok
  obtain ⟨_, db₂, hinsert, hok⟩ := bind_ok.mp hok
  obtain ⟨_, db₃, hput, hok⟩ := bind_ok.mp hok
  obtain ⟨-, rfl⟩ := pure_ok.mp (reach_bind_ok.mp hok).2
  exact (insertEvent_appends hinsert (event_named hstore hevent)).of_runEvents
    (insertCandidate_runEvents hput)

theorem transitionCandidate_appends {runId candidateId : EntityId}
    {expectedState nextState : CandidateState} {record : CandidateStateRecord}
    (hok : E.transitionCandidate session runId candidateId expectedState nextState payload db =
      .ok record db') : Appends E payload db db' := by
  simp only [Encoding.transitionCandidate, Encoding.checkRun, check_bind_ok, transaction_ok,
    reach_bind_ok, get_bind_ok, ofExcept_bind_ok, hdb.readCandidate_eq] at hok
  obtain ⟨-, -, -, _, -, -, -, _, ⟨rfl⟩, hok⟩ := hok
  cases hcurrent : h.candidate? candidateId with
  | none => exact (throw_ok.mp (by rwa [hcurrent] at hok)).elim
  | some current =>
  simp only [hcurrent, check_bind_ok, reach_bind_ok, ofExcept_bind_ok] at hok
  obtain ⟨-, -, artifact, hstore, -, built, -, event, hevent, hok⟩ := hok
  obtain ⟨_, db₂, hinsert, hok⟩ := bind_ok.mp hok
  obtain ⟨_, db₃, hput, hok⟩ := bind_ok.mp hok
  obtain ⟨-, rfl⟩ := pure_ok.mp (reach_bind_ok.mp hok).2
  exact (insertEvent_appends hinsert (event_named hstore hevent)).of_runEvents
    (updateCandidate_runEvents hput)

/-- A call that returns appends one event, about its payload. -/
theorem call_appends {call : Call} (hok : call.run E db = .ok u db') :
    Appends E call.payload db db' := by
  cases call with
  | transition => exact transition_appends (discard_ok.mp hok).choose_spec
  | recordEvent => exact hdb.recordEvent_appends (discard_ok.mp hok).choose_spec
  | createCandidate => exact hdb.createCandidate_appends (discard_ok.mp hok).choose_spec
  | createRecoveryChild =>
    obtain ⟨record, hok⟩ := discard_ok.mp hok
    exact hdb.createCandidate_appends (check_bind_ok.mp hok).2
  | transitionCandidate => exact hdb.transitionCandidate_appends (discard_ok.mp hok).choose_spec

end Represents

/-- Every value has a row. -/
theorem exists_row {α ρ : Type} {encode : α → Option ρ} {values : List α} {rows : List ρ}
    (h : Stored encode values rows) {value : α} (hvalue : value ∈ values) :
    ∃ row ∈ rows, encode value = some row := by
  induction h with
  | nil => cases hvalue
  | cons hrow _ ih =>
    rcases List.mem_cons.mp hvalue with rfl | hvalue
    · exact ⟨_, List.mem_cons_self, hrow⟩
    · obtain ⟨row, hmem, hencoded⟩ := ih hvalue
      exact ⟨row, List.mem_cons_of_mem _ hmem, hencoded⟩

theorem eventRow_injective {event event' : RunEvent} {row : EventRow}
    (hrow : E.eventRow event = some row) (hrow' : E.eventRow event' = some row) :
    event = event' := by
  obtain ⟨encoded, hdump, rfl⟩ := eventRow_eq_some.mp hrow
  obtain ⟨encoded', hdump', hsame⟩ := eventRow_eq_some.mp hrow'
  obtain rfl : encoded = encoded' := congrArg EventRow.canonicalJson hsame
  exact Option.some.inj ((E.runEvent.load_dump hdump).symm.trans (E.runEvent.load_dump hdump'))

/-- Every event is about the payload of one of the calls. -/
theorem Represents.performAll_named (hdb : Represents E db h) {calls : List Call}
    (hcalls : ∀ row ∈ db.runEvents, ∃ event, E.eventRow event = some row ∧
      ∃ call ∈ calls, call.payload.Named event) {more : List Call} (hmore : more ⊆ calls) :
    ∀ row ∈ (Orchestrator.performAll E more db).runEvents, ∃ event, E.eventRow event = some row ∧
      ∃ call ∈ calls, call.payload.Named event := by
  induction more generalizing db h with
  | nil => exact hcalls
  | cons call rest ih =>
    obtain ⟨hcall, hrest⟩ := List.cons_subset.mp hmore
    rw [performAll_cons]
    unfold Call.perform
    split
    next db' hok =>
      obtain ⟨event, h₁, hdb₁, -⟩ := hdb.call hok
      obtain ⟨event', row', hrow', hevents, hnamed⟩ := hdb.call_appends hok
      refine ih hdb₁ (fun row hrow => ?_) hrest
      rw [hevents, List.mem_append, List.mem_singleton] at hrow
      rcases hrow with hrow | rfl
      · exact hcalls row hrow
      · exact ⟨event', hrow', call, hcall, hnamed⟩
    next e db' herror =>
      rw [call.run_atomic herror]
      exact ih hdb hcalls hrest

end NovaRtl.Orchestrator
