import NovaRtl.Orchestrator.History

/-!
# State rows and the event history

The rows of `run_states` and `candidate_states` are what the run's state-changing events add up to,
the events are numbered without gaps, each follows an edge of its state machine, and all are written
under the policy of the first.
-/

namespace NovaRtl.Orchestrator

open Table Transact

/-- The view that an event gives of one entity. -/
def RunEvent.viewOf (event : RunEvent) (entityType : String) (entityId : EntityId) :
    Option StateView :=
  event.view?.filter fun view => view.entityType = entityType ∧ view.entityId = entityId

/-- The state that events leave an entity in. -/
def stateAfter (entityType : String) (entityId : EntityId) (events : List RunEvent) :
    Option StateView :=
  events.foldl (fun state event => (event.viewOf entityType entityId).or state) none

@[simp] theorem stateAfter_snoc {entityType : String} {entityId : EntityId}
    {events : List RunEvent} {event : RunEvent} :
    stateAfter entityType entityId (events ++ [event]) =
      (event.viewOf entityType entityId).or (stateAfter entityType entityId events) := by
  simp [stateAfter]

/-- The event follows an edge of its entity's machine, from the state that the events before it
leave. -/
inductive Legal (before : List RunEvent) (event : RunEvent) : Prop
  | unchanged (priorState : event.priorState = none) (newState : event.newState = none)
  | run {prior next : RunState}
      (entity : event.entityType = "RUN" ∧ event.entityId = event.runId)
      (state : ((stateAfter "RUN" event.entityId before).map (·.state)).getD "CREATED" =
        prior.text)
      (edge : next ∈ runTransitions prior)
      (states : event.priorState = some prior.text ∧ event.newState = some next.text)
  | created
      (entity : event.entityType = "CANDIDATE")
      (state : stateAfter "CANDIDATE" event.entityId before = none)
      (states : event.priorState = none ∧ event.newState = some "PROPOSED")
  | moved {prior next : CandidateState}
      (entity : event.entityType = "CANDIDATE")
      (state : (stateAfter "CANDIDATE" event.entityId before).map (·.state) = some prior.text)
      (edge : next ∈ candidateTransitions prior)
      (states : event.priorState = some prior.text ∧ event.newState = some next.text)

/-- The run's first event moves the run from `CREATED`. -/
def Opens (event : RunEvent) : Prop :=
  event.entityType = "RUN" ∧ event.priorState = some "CREATED"

structure Consistent {Record : Type} (h : History Record) : Prop where
  sequences : ∀ runId,
    (h.eventsOf runId).map (·.sequence) = List.range' 1 (h.eventsOf runId).length
  run : ∀ runId, (h.run? runId).map (·.view) = stateAfter "RUN" runId (h.eventsOf runId)
  candidate : ∀ runId candidateId,
    ((h.candidate? candidateId).filter (·.runId = runId)).map (·.view) =
      stateAfter "CANDIDATE" candidateId (h.eventsOf runId)
  legal : ∀ runId before event after, h.eventsOf runId = before ++ event :: after →
    Legal before event
  policy : ∀ runId, ∀ event ∈ h.eventsOf runId,
    (h.run? runId).map (·.policyHash) = some event.policyHash
  opens : ∀ runId, ∀ event ∈ (h.eventsOf runId).head?, Opens event

variable {Record : Type} {h h' : History Record} {event : RunEvent}

theorem RunEvent.view?_eq_some {view : StateView} :
    event.view? = some view ↔ ∃ state, event.newState = some state ∧
      view = ⟨event.entityType, event.runId, event.entityId, state, event.sequence,
        event.payloadArtifact, event.timestamp⟩ := by
  cases hnew : event.newState <;> simp [view?, hnew, eq_comm]

theorem RunEvent.viewOf_of_view {view : StateView} (hview : event.view? = some view)
    {entityType : String} {entityId : EntityId} :
    event.viewOf entityType entityId =
      if view.entityType = entityType ∧ view.entityId = entityId then some view else none := by
  simp [viewOf, hview, Option.filter_some]

theorem RunEvent.viewOf_of_none (hnew : event.newState = none) {entityType : String}
    {entityId : EntityId} : event.viewOf entityType entityId = none := by
  simp [viewOf, view?, hnew]

namespace History

theorem run?_putRun (h : History Record) (record : RunStateRecord) (runId : EntityId) :
    (h.putRun record).run? runId =
      if record.runId = runId then some record else h.run? runId := lookup_assign

theorem candidate?_putCandidate (h : History Record) (record : CandidateStateRecord)
    (candidateId : EntityId) :
    (h.putCandidate record).candidate? candidateId =
      if record.candidateId = candidateId then some record else h.candidate? candidateId :=
  lookup_assign

end History

namespace Step

variable (hstep : Step h event h')
include hstep

theorem events_eq : h'.events = h.events ++ [event] := by
  cases hstep.change <;> rfl

theorem eventsOf_self : h'.eventsOf event.runId = h.eventsOf event.runId ++ [event] := by
  rw [History.eventsOf, hstep.events_eq]
  simp [History.eventsOf]

theorem eventsOf_of_ne {runId : EntityId} (hne : event.runId ≠ runId) :
    h'.eventsOf runId = h.eventsOf runId := by
  rw [History.eventsOf, hstep.events_eq]
  simp [History.eventsOf, hne]

/-- An event that says nothing of an entity leaves its state. -/
theorem stateAfter_of_none {entityType : String} {entityId : EntityId}
    (hnone : event.viewOf entityType entityId = none) (runId : EntityId) :
    stateAfter entityType entityId (h'.eventsOf runId) =
      stateAfter entityType entityId (h.eventsOf runId) := by
  by_cases hrun : event.runId = runId
  · subst hrun
    rw [hstep.eventsOf_self, stateAfter_snoc, hnone, Option.none_or]
  · rw [hstep.eventsOf_of_ne hrun]

end Step

theorem lastSequence_eq (hsequences : (h.eventsOf event.runId).map (·.sequence) =
    List.range' 1 (h.eventsOf event.runId).length) :
    h.nextSequence event.runId = (h.eventsOf event.runId).length + 1 := by
  unfold History.nextSequence History.lastSequence
  rw [hsequences]
  cases hlength : (h.eventsOf event.runId).length with
  | zero => rfl
  | succ n =>
    have hmax : (List.range' 1 (n + 1)).max? = some (n + 1) := by
      refine List.max?_eq_some_iff.mpr ⟨by simp, fun k hk => ?_⟩
      have := (List.mem_range'_1.mp hk).2
      omega
    rw [hmax]
    rfl

namespace Consistent

theorem empty : Consistent (History.empty : History Record) :=
  ⟨by simp [History.eventsOf, History.empty], fun _ => rfl, fun _ _ => rfl,
    by simp [History.eventsOf, History.empty], by simp [History.eventsOf, History.empty],
    by simp [History.eventsOf, History.empty]⟩

variable (hh : Consistent h) (hstep : Step h event h')
include hh hstep

theorem sequences_step (runId : EntityId) :
    (h'.eventsOf runId).map (·.sequence) = List.range' 1 (h'.eventsOf runId).length := by
  by_cases hrun : event.runId = runId
  · subst hrun
    rw [hstep.eventsOf_self, List.map_append, hh.sequences, List.length_append, List.map_singleton,
      hstep.sequence, lastSequence_eq (hh.sequences event.runId), List.length_singleton,
      List.range'_concat]
    simp [Nat.add_comm]
  · rw [hstep.eventsOf_of_ne hrun]
    exact hh.sequences runId

theorem run_step (runId : EntityId) :
    (h'.run? runId).map (·.view) = stateAfter "RUN" runId (h'.eventsOf runId) := by
  cases hstep.change with
  | @run record prior state legal policy view priorState policyHash =>
    have hrun : event.runId = record.runId := (RunEvent.sequence_of_view view).1
    rw [History.run?_putRun]
    split
    next hid =>
      rw [← hid, ← hrun, hstep.eventsOf_self, stateAfter_snoc, RunEvent.viewOf_of_view view,
        if_pos ⟨rfl, hrun.symm⟩]
      rfl
    next hid =>
      rw [hstep.eventsOf_of_ne (by rwa [hrun])]
      exact hh.run runId
  | recorded _ _ _ newState =>
    rw [hstep.stateAfter_of_none (RunEvent.viewOf_of_none newState)]
    exact hh.run runId
  | created _ _ _ _ _ view | moved _ _ _ _ _ _ view =>
    rw [hstep.stateAfter_of_none
      (by simp [RunEvent.viewOf_of_view view, CandidateStateRecord.view])]
    exact hh.run runId

/-- A candidate's row after a change of it, which keeps the candidate in its run. -/
theorem candidate_put {record : CandidateStateRecord} (hview : event.view? = some record.view)
    (hcurrent : ∀ current ∈ h.candidate? record.candidateId, current.runId = record.runId)
    (runId candidateId : EntityId) :
    ((((h.addEvent event).putCandidate record).candidate? candidateId).filter
        (·.runId = runId)).map (·.view) =
      stateAfter "CANDIDATE" candidateId (h'.eventsOf runId) := by
  have hrun : event.runId = record.runId := (RunEvent.sequence_of_view hview).1
  rw [History.candidate?_putCandidate]
  by_cases hid : record.candidateId = candidateId
  · subst hid
    rw [if_pos rfl, Option.filter_some]
    by_cases hrunId : record.runId = runId
    · subst hrunId
      have hself : event.viewOf "CANDIDATE" record.candidateId = some record.view := by
        rw [RunEvent.viewOf_of_view hview]
        exact if_pos ⟨rfl, rfl⟩
      rw [← hrun, hstep.eventsOf_self, stateAfter_snoc, hself]
      simp [hrun]
    · rw [hstep.eventsOf_of_ne (by rwa [hrun]), ← hh.candidate runId]
      have hnone : (h.candidate? record.candidateId).filter (·.runId = runId) = none := by
        rw [Option.filter_eq_none_iff]
        intro current hcur
        simpa [hcurrent current hcur] using hrunId
      simp [hrunId, hnone]
  · have hnone : event.viewOf "CANDIDATE" candidateId = none := by
      rw [RunEvent.viewOf_of_view hview, if_neg fun h => hid h.2]
    rw [if_neg hid, hstep.stateAfter_of_none hnone]
    exact hh.candidate runId candidateId

theorem candidate_step (runId candidateId : EntityId) :
    ((h'.candidate? candidateId).filter (·.runId = runId)).map (·.view) =
      stateAfter "CANDIDATE" candidateId (h'.eventsOf runId) := by
  cases hstep.change with
  | run _ _ _ view =>
    rw [hstep.stateAfter_of_none (by simp [RunEvent.viewOf_of_view view, RunStateRecord.view])]
    exact hh.candidate runId candidateId
  | recorded _ _ _ newState =>
    rw [hstep.stateAfter_of_none (RunEvent.viewOf_of_none newState)]
    exact hh.candidate runId candidateId
  | created _ _ absent _ _ view =>
    exact hh.candidate_put hstep view (by simp [absent]) runId candidateId
  | moved _ _ current_eq hrun _ _ view =>
    refine hh.candidate_put hstep view (fun other hother => ?_) runId candidateId
    rw [current_eq, Option.mem_some_iff] at hother
    rw [← hother, hrun]

/-- The new event is legal after its run's earlier ones. -/
theorem legal_event : Legal (h.eventsOf event.runId) event := by
  cases hstep.change with
  | @run record prior state legal policy view priorState policyHash =>
    obtain ⟨text, hnew, hview⟩ := RunEvent.view?_eq_some.mp view
    simp only [RunStateRecord.view, StateView.mk.injEq] at hview
    obtain ⟨htype, hrun, hentity, htext, -⟩ := hview
    refine .run ⟨htype.symm, hentity.symm.trans hrun⟩ ?_ legal ⟨priorState, hnew.trans ?_⟩
    · rw [← hentity, ← hrun, ← hh.run, ← state]
      cases h.run? record.runId <;> rfl
    · rw [htext]
  | recorded _ _ priorState newState => exact .unchanged priorState newState
  | @created run record run_eq policyHash absent state parent view priorState =>
    obtain ⟨text, hnew, hview⟩ := RunEvent.view?_eq_some.mp view
    simp only [CandidateStateRecord.view, StateView.mk.injEq] at hview
    obtain ⟨htype, hrun, hentity, htext, -⟩ := hview
    refine .created htype.symm ?_ ⟨priorState, hnew.trans ?_⟩
    · rw [← hentity, ← hh.candidate, absent]
      rfl
    · rw [← htext, state]
      rfl
  | @moved run current record run_eq policyHash current_eq runId legal parent view priorState =>
    obtain ⟨text, hnew, hview⟩ := RunEvent.view?_eq_some.mp view
    simp only [CandidateStateRecord.view, StateView.mk.injEq] at hview
    obtain ⟨htype, hrun, hentity, htext, -⟩ := hview
    refine .moved htype.symm ?_ legal ⟨priorState, hnew.trans ?_⟩
    · rw [← hentity, ← hh.candidate, current_eq, Option.filter_some]
      simp [runId, hrun, CandidateStateRecord.view]
    · rw [htext]

theorem legal_step (runId : EntityId) (before : List RunEvent) (other : RunEvent)
    (after : List RunEvent) (heq : h'.eventsOf runId = before ++ other :: after) :
    Legal before other := by
  by_cases hrun : event.runId = runId
  · subst hrun
    rw [hstep.eventsOf_self] at heq
    rcases List.eq_nil_or_concat after with rfl | ⟨rest, last, rfl⟩
    · obtain ⟨hbefore, hevent⟩ := List.append_inj' heq rfl
      rw [← hbefore, ← List.singleton_inj.mp hevent]
      exact hh.legal_event hstep
    · rw [List.concat_eq_append, ← List.cons_append, ← List.append_assoc] at heq
      exact hh.legal _ _ _ _ (List.append_inj' heq rfl).1
  · rw [hstep.eventsOf_of_ne hrun] at heq
    exact hh.legal runId before other after heq

omit hh in
/-- The policy of a run's row stays. -/
theorem policy_pinned {runId : EntityId} {run : RunStateRecord} (hrun : h.run? runId = some run) :
    (h'.run? runId).map (·.policyHash) = some run.policyHash := by
  cases hstep.change with
  | run _ _ policy =>
    rw [History.run?_putRun]
    split
    next hid =>
      subst hid
      rw [Option.map_some, policy run hrun]
    next => exact congrArg (Option.map (·.policyHash)) hrun
  | recorded | created | moved => exact congrArg (Option.map (·.policyHash)) hrun

omit hh in
theorem policy_event : (h'.run? event.runId).map (·.policyHash) = some event.policyHash := by
  cases hstep.change with
  | @run record _ _ _ _ view _ policyHash =>
    have hrun : event.runId = record.runId := (RunEvent.sequence_of_view view).1
    rw [History.run?_putRun, if_pos hrun.symm, Option.map_some, policyHash]
  | @recorded run run_eq policyHash =>
    rw [policyHash]
    exact congrArg (Option.map (·.policyHash)) run_eq
  | created run_eq policyHash _ _ _ view | moved run_eq policyHash _ _ _ _ view =>
    rw [(RunEvent.sequence_of_view view).1, policyHash]
    exact congrArg (Option.map (·.policyHash)) run_eq

theorem policy_step (runId : EntityId) (other : RunEvent) (hother : other ∈ h'.eventsOf runId) :
    (h'.run? runId).map (·.policyHash) = some other.policyHash := by
  have hold : ∀ earlier ∈ h.eventsOf runId,
      (h'.run? runId).map (·.policyHash) = some earlier.policyHash := by
    intro earlier hearlier
    obtain ⟨run, hrun, hpolicy⟩ := Option.map_eq_some_iff.mp (hh.policy runId earlier hearlier)
    rw [policy_pinned hstep hrun, hpolicy]
  by_cases hrun : event.runId = runId
  · subst hrun
    rw [hstep.eventsOf_self, List.mem_append, List.mem_singleton] at hother
    rcases hother with hother | rfl
    · exact hold other hother
    · exact policy_event hstep
  · rw [hstep.eventsOf_of_ne hrun] at hother
    exact hold other hother

theorem opens_event (hnil : h.eventsOf event.runId = []) : Opens event := by
  have habsent : h.run? event.runId = none := by
    have hview := hh.run event.runId
    rw [hnil] at hview
    exact Option.map_eq_none_iff.mp hview
  cases hstep.change with
  | @run record prior state _ _ view priorState =>
    obtain ⟨_, _, hview⟩ := RunEvent.view?_eq_some.mp view
    simp only [RunStateRecord.view, StateView.mk.injEq] at hview
    obtain ⟨htype, hrun, -⟩ := hview
    rw [hrun, habsent] at state
    subst state
    exact ⟨htype.symm, priorState⟩
  | recorded run_eq => simp [habsent] at run_eq
  | created run_eq _ _ _ _ view | moved run_eq _ _ _ _ _ view =>
    rw [(RunEvent.sequence_of_view view).1] at habsent
    exact absurd (habsent.symm.trans run_eq) (by simp)

theorem opens_step (runId : EntityId) (other : RunEvent)
    (hother : other ∈ (h'.eventsOf runId).head?) : Opens other := by
  by_cases hrun : event.runId = runId
  · subst hrun
    rw [hstep.eventsOf_self] at hother
    cases hevents : h.eventsOf event.runId with
    | nil =>
      rw [hevents] at hother
      obtain rfl : event = other := by simpa using hother
      exact hh.opens_event hstep hevents
    | cons first rest =>
      rw [hevents] at hother
      exact hh.opens event.runId other (by simpa [hevents] using hother)
  · rw [hstep.eventsOf_of_ne hrun] at hother
    exact hh.opens runId other hother

theorem step : Consistent h' :=
  ⟨hh.sequences_step hstep, hh.run_step hstep, hh.candidate_step hstep, hh.legal_step hstep,
    hh.policy_step hstep, hh.opens_step hstep⟩

end Consistent

/-- What a database holds of one run: its events, numbered from one, and the rows they add up to. -/
structure RunConsistent (E : Encoding Record) (db : Database) (runId : EntityId)
    (events : List RunEvent) : Prop where
  read : E.iterEvents db runId = .ok events
  sequences : events.map (·.sequence) = List.range' 1 events.length
  run : ∃ run, E.readRun db runId = .ok run ∧ run.map (·.view) = stateAfter "RUN" runId events ∧
    run.map (·.policyHash) = events.head?.map (·.policyHash)
  candidate : ∀ candidateId, ∃ candidate, E.readCandidate db candidateId = .ok candidate ∧
    (candidate.filter (·.runId = runId)).map (·.view) =
      stateAfter "CANDIDATE" candidateId events
  legal : ∀ before event after, events = before ++ event :: after → Legal before event
  policy : ∀ first ∈ events.head?, Opens first ∧
    ∀ event ∈ events, event.policyHash = first.policyHash

theorem Consistent.pairwise (hh : Consistent h) (runId : EntityId) :
    (h.eventsOf runId).Pairwise fun event event' => event.sequence < event'.sequence := by
  rw [← List.pairwise_map (R := (· < ·)), hh.sequences]
  exact List.pairwise_lt_range'

theorem Represents.runConsistent {E : Encoding Record} {db : Database} (hdb : Represents E db h)
    (hh : Consistent h) (runId : EntityId) : RunConsistent E db runId (h.eventsOf runId) := by
  have hpolicy : (h.run? runId).map (·.policyHash) =
      (h.eventsOf runId).head?.map (·.policyHash) := by
    cases hevents : h.eventsOf runId with
    | nil =>
      have hview := hh.run runId
      rw [hevents] at hview
      rw [Option.map_eq_none_iff.mp hview]
      rfl
    | cons first rest => exact hh.policy runId first (by simp [hevents])
  refine
    { read := hdb.iterEvents_eq (hh.pairwise runId)
      sequences := hh.sequences runId
      run := ⟨h.run? runId, hdb.readRun_eq runId, hh.run runId, hpolicy⟩
      candidate := fun candidateId =>
        ⟨h.candidate? candidateId, hdb.readCandidate_eq candidateId, hh.candidate runId candidateId⟩
      legal := hh.legal runId
      policy := fun first hfirst => ⟨hh.opens runId first hfirst, fun event hevent => ?_⟩ }
  have hevent := hh.policy runId event hevent
  have hfirst := hh.policy runId first (List.mem_of_mem_head? hfirst)
  exact Option.some.inj (hevent.symm.trans hfirst)

/-- Every reachable database has a consistent history. -/
theorem exists_consistent (E : Encoding Record) (calls : List Call) :
    ∃ h, Represents E (performAll E calls .empty) h ∧ Consistent h :=
  let ⟨h, hdb, hsteps⟩ := represents_empty.performAll calls
  ⟨h, hdb, hsteps.induction .empty fun hh hstep => hh.step hstep⟩

/-- In every reachable database each run's events are numbered without gaps, add up to its state
rows, follow the state machines and carry the policy of the run's first transition. A call that
returns adds one event to one run, under its own policy; a call that raises changes nothing. -/
theorem ledger_consistent (E : Encoding Record) (calls : List Call) :
    (∀ runId, ∃ events, RunConsistent E (performAll E calls .empty) runId events) ∧
      (∀ call u db', Call.run E call (performAll E calls .empty) = .ok u db' →
        ∃ runId events event, E.iterEvents (performAll E calls .empty) runId = .ok events ∧
          E.iterEvents db' runId = .ok (events ++ [event]) ∧
          event.policyHash = call.session.policyHash ∧
          ∀ other, other ≠ runId →
            E.iterEvents db' other = E.iterEvents (performAll E calls .empty) other) ∧
      (∀ call error db', Call.run E call (performAll E calls .empty) = .error error db' →
        db' = performAll E calls .empty) := by
  obtain ⟨h, hdb, hh⟩ := exists_consistent E calls
  refine ⟨fun runId => ⟨_, hdb.runConsistent hh runId⟩, fun call u db' hok => ?_,
    fun call error db' herror => call.run_atomic herror⟩
  obtain ⟨event, h', hdb', hstep, hpolicy⟩ := hdb.call hok
  have hh' := hh.step hstep
  refine ⟨event.runId, _, event, hdb.iterEvents_eq (hh.pairwise _), ?_, hpolicy, ?_⟩
  · rw [hdb'.iterEvents_eq (hh'.pairwise _), hstep.eventsOf_self]
  · intro other hne
    rw [hdb'.iterEvents_eq (hh'.pairwise _), hdb.iterEvents_eq (hh.pairwise _),
      hstep.eventsOf_of_ne hne.symm]

end NovaRtl.Orchestrator
