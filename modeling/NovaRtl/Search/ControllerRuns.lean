import NovaRtl.Orchestrator.Readback
import NovaRtl.Search.Controller

/-!
# Runs of the search controller

What holds when a search returns and what holds when it raises, whatever its callbacks answer. An
evaluation is started only if its cost fits what the planner and the evaluations before it have left
of the budgets, and at most the last one that was started is missing from the ledger.

## Main results

* `run_within_budgets` — the evaluations of a run fit its budgets, and a result reports what they
  cost.
* `run_keeps_stores` — what a run leaves in the DAG, the ledger and the archive.
-/

namespace NovaRtl.Search

open Orchestrator Transact

/-! ## Appending to the ledger -/

section Ledger

variable {E : Encoding ExperimentRecord} {db db' db'' : Database}
  {records records' : List ExperimentRecord}

/-- Read back, the later database has the records after those of the earlier one, and the same
events. -/
def Appended (E : Encoding ExperimentRecord) (db db' : Database)
    (records : List ExperimentRecord) : Prop :=
  ∀ h, Represents E db h → Ordered h → ∃ h', Represents E db' h' ∧ Ordered h' ∧
    h'.events = h.events ∧ h'.records.map Prod.snd = h.records.map Prod.snd ++ records

theorem Appended.refl (E : Encoding ExperimentRecord) (db : Database) : Appended E db db [] :=
  fun h hdb hh => ⟨h, hdb, hh, rfl, (List.append_nil _).symm⟩

theorem Appended.trans (h : Appended E db db' records) (h' : Appended E db' db'' records') :
    Appended E db db'' (records ++ records') := by
  intro history hdb hh
  obtain ⟨history', hdb', hh', hevents, hrecords⟩ := h history hdb hh
  obtain ⟨history'', hdb'', hh'', hevents', hrecords'⟩ := h' history' hdb' hh'
  exact ⟨history'', hdb'', hh'', hevents'.trans hevents,
    by rw [hrecords', hrecords, List.append_assoc]⟩

theorem Appended.of_appendRecord {fails : Point → Bool} {record : ExperimentRecord} {u : Unit}
    (h : E.appendRecord false fails record db = .ok u db') : Appended E db db' [record] := by
  intro history hdb hh
  obtain ⟨hfresh, index, hlater, hdb'⟩ := hdb.appendRecord h
  have hadded : Added E history (history.addRecord index record)
      (.appendRecord false fails record) := .record hfresh hlater rfl rfl
  exact ⟨_, hdb', hadded.ordered hh, rfl, by simp [History.addRecord]⟩

/-- The records of each run are read back in the order in which they were appended. -/
theorem Appended.reads (happended : Appended E db db' records) {h : History ExperimentRecord}
    (hdb : Represents E db h) (hh : Ordered h) (runId : EntityId) :
    E.iterEvents db' runId = E.iterEvents db runId ∧
      E.iterRecords db' runId = .ok (h.recordsOf E runId ++
        records.filter fun record => E.recordRunId record = runId) := by
  obtain ⟨h', hdb', hh', hevents, hrecords⟩ := happended h hdb hh
  refine ⟨?_, ?_⟩
  · rw [hdb'.iterEvents_eq (hh'.events runId), hdb.iterEvents_eq (hh.events runId),
      History.eventsOf, hevents, History.eventsOf]
  · have hfilter : ∀ items : List (ℕ × ExperimentRecord),
        (items.filter fun item => E.recordRunId item.2 = runId).map Prod.snd =
          (items.map Prod.snd).filter fun record => E.recordRunId record = runId := by
      intro items
      rw [List.filter_map]
      rfl
    rw [hdb'.iterRecords_eq hh', History.recordsOf, hfilter, hrecords, List.filter_append,
      ← hfilter, History.recordsOf]

end Ledger

variable {Value Artifact ω ε : Type} {artifactId : Artifact → EntityId}
  {hashes : SearchHashes Value}

/-! ## What a run has done -/

namespace SearchState

variable (s : SearchState hashes Artifact ω)

/-- The candidates of the evaluations that were started. -/
def startedIds : List EntityId := s.started.map fun e => e.1.candidateId

/-- What the evaluations that were started cost together. -/
def total (cost : EvaluationCost → ℕ) : ℕ := (s.started.map fun e => cost e.2).sum

end SearchState

/-- The evaluations that were started fit the budgets, with what the planner reported. -/
structure WithinBudgets (request : SearchRequest) (s : SearchState hashes Artifact ω) : Prop where
  candidates : s.started.length ≤ request.candidateBudget
  formalJobs : s.total EvaluationCost.formalJobs ≤ request.formalBudget
  physicalJobs : s.total EvaluationCost.physicalJobs ≤ request.physicalBudget
  tokens : s.started ≠ [] →
    s.planned.tokens + s.total EvaluationCost.tokens ≤ request.tokenBudget
  latencyMs : s.started ≠ [] →
    s.planned.latencyMs + s.total EvaluationCost.latencyMs ≤ request.latencyBudgetMs

/-- The consumed budgets are what was planned and started. -/
structure Accounts (used : ConsumedSearchBudgets) (s : SearchState hashes Artifact ω) : Prop where
  candidates : used.candidates = s.started.length
  formalJobs : used.formalJobs = s.total EvaluationCost.formalJobs
  physicalJobs : used.physicalJobs = s.total EvaluationCost.physicalJobs
  tokens : used.tokens = s.planned.tokens + s.total EvaluationCost.tokens
  latencyMs : used.latencyMs = s.planned.latencyMs + s.total EvaluationCost.latencyMs

/-- The ledger and the archive have gained records of these candidates. -/
structure Gained (E : Encoding ExperimentRecord) (before s : SearchState hashes Artifact ω)
    (recordIds paretoIds : List EntityId) : Prop where
  ledger : ∃ records, Appended E before.database s.database records ∧
    records.map ExperimentRecord.candidateId = recordIds
  archive : ∃ records, s.archive.records = before.archive.records ++ records ∧
    records.map ParetoRecord.candidateId = paretoIds

/-- The DAG has gained the candidates whose evaluation was started, no two of them alike. -/
structure Claimed (before s : SearchState hashes Artifact ω) : Prop where
  dag : s.dag =
    { before.dag with candidates := before.dag.candidates ++ s.started.map Prod.fst }
  sources_nodup : (s.started.map fun e => e.1.sourceHash).Nodup
  patches_nodup : (s.started.map fun e => e.1.patchHash).Nodup

/-- What a run leaves behind, however it ends. -/
structure Leaves (E : Encoding ExperimentRecord) (request : SearchRequest)
    (before s : SearchState hashes Artifact ω) : Prop where
  within : WithinBudgets request s
  claimed : Claimed before s
  gained : ∃ recordIds paretoIds, Gained E before s recordIds paretoIds ∧
    recordIds <+: s.startedIds ∧ s.started.length ≤ recordIds.length + 1 ∧
    paretoIds.Sublist recordIds

/-- The state between two proposals of the loop. -/
structure AtRest (E : Encoding ExperimentRecord) (request : SearchRequest)
    (before s : SearchState hashes Artifact ω) : Prop where
  within : WithinBudgets request s
  accounts : Accounts s.locals.used s
  claimed : Claimed before s
  gained : Gained E before s s.startedIds s.locals.feasibleIds
  evaluated : s.locals.evaluatedIds = s.startedIds
  feasible : s.locals.feasibleIds.Sublist s.startedIds
  sources : s.locals.sourceHashes = s.started.map fun e => e.1.sourceHash
  patches : s.locals.patchHashes = s.started.map fun e => e.1.patchHash

variable {E : Encoding ExperimentRecord} {request : SearchRequest}
  {before s t : SearchState hashes Artifact ω}

theorem AtRest.leaves (h : AtRest E request before s) : Leaves E request before s :=
  ⟨h.within, h.claimed, _, _, h.gained, List.prefix_refl _,
    by simp [SearchState.startedIds], h.feasible⟩

section Underway

variable {candidate : CandidateRecord} {estimated : EvaluationCost}

/-- The evaluation of a candidate is started within the budgets if its cost fits. -/
theorem AtRest.within_start (hrest : AtRest E request before s)
    (hfits : Fits request s.locals.used estimated)
    (hstarted : t.started = s.started ++ [(candidate, estimated)])
    (hplanned : t.planned = s.planned) : WithinBudgets request t := by
  obtain ⟨hcandidates, hformal, hphysical, htokens, hlatency⟩ := hfits
  have htotal : ∀ cost : EvaluationCost → ℕ, t.total cost = s.total cost + cost estimated := by
    intro cost
    simp [SearchState.total, hstarted]
  refine ⟨?_, ?_, ?_, fun _ => ?_, fun _ => ?_⟩
  · rw [hstarted, List.length_append, List.length_singleton, ← hrest.accounts.candidates]
    exact hcandidates
  · rw [htotal, ← hrest.accounts.formalJobs]
    exact hformal
  · rw [htotal, ← hrest.accounts.physicalJobs]
    exact hphysical
  · rw [htotal, hplanned, ← Nat.add_assoc, ← hrest.accounts.tokens]
    exact htokens
  · rw [htotal, hplanned, ← Nat.add_assoc, ← hrest.accounts.latencyMs]
    exact hlatency

theorem AtRest.claimed_start (hrest : AtRest E request before s)
    (hdag : t.dag = { s.dag with candidates := s.dag.candidates ++ [candidate] })
    (hsource : candidate.sourceHash ∉ s.locals.sourceHashes)
    (hpatch : candidate.patchHash ∉ s.locals.patchHashes)
    (hstarted : t.started = s.started ++ [(candidate, estimated)]) : Claimed before t where
  dag := by
    rw [hdag, hrest.claimed.dag, hstarted]
    simp
  sources_nodup := by
    rw [hrest.sources] at hsource
    rw [hstarted, List.map_append, List.map_singleton]
    exact hrest.claimed.sources_nodup.append (List.nodup_singleton _)
      (List.disjoint_singleton.mpr hsource)
  patches_nodup := by
    rw [hrest.patches] at hpatch
    rw [hstarted, List.map_append, List.map_singleton]
    exact hrest.claimed.patches_nodup.append (List.nodup_singleton _)
      (List.disjoint_singleton.mpr hpatch)

theorem startedIds_start (hstarted : t.started = s.started ++ [(candidate, estimated)]) :
    t.startedIds = s.startedIds ++ [candidate.candidateId] := by
  simp [SearchState.startedIds, hstarted]

/-- An evaluation that raises before its record is appended leaves the ledger one behind. -/
theorem AtRest.leaves_behind (hrest : AtRest E request before s) (hwithin : WithinBudgets request t)
    (hclaimed : Claimed before t) (hstarted : t.started = s.started ++ [(candidate, estimated)])
    (hdatabase : t.database = s.database) (harchive : t.archive = s.archive) :
    Leaves E request before t := by
  refine ⟨hwithin, hclaimed, s.startedIds, s.locals.feasibleIds, ⟨?_, ?_⟩, ?_, ?_, hrest.feasible⟩
  · rw [hdatabase]
    exact hrest.gained.ledger
  · rw [harchive]
    exact hrest.gained.archive
  · rw [startedIds_start hstarted]
    exact List.prefix_append _ _
  · simp [hstarted, SearchState.startedIds]

/-- What the ledger gains with the record of the evaluation. -/
theorem AtRest.gained_record (hrest : AtRest E request before s) {record : ExperimentRecord}
    (hrecord : record.candidateId = candidate.candidateId)
    (happended : Appended E s.database t.database [record])
    (hstarted : t.started = s.started ++ [(candidate, estimated)]) {paretoIds : List EntityId}
    (harchive : ∃ records, t.archive.records = before.archive.records ++ records ∧
      records.map ParetoRecord.candidateId = paretoIds) :
    Gained E before t t.startedIds paretoIds := by
  obtain ⟨records, hrecords, hids⟩ := hrest.gained.ledger
  refine ⟨⟨records ++ [record], hrecords.trans happended, ?_⟩, harchive⟩
  rw [startedIds_start hstarted, List.map_append, hids, List.map_singleton, hrecord]

theorem leaves_recorded (hwithin : WithinBudgets request t) (hclaimed : Claimed before t)
    {paretoIds : List EntityId} (hgained : Gained E before t t.startedIds paretoIds)
    (hsub : paretoIds.Sublist t.startedIds) : Leaves E request before t :=
  ⟨hwithin, hclaimed, _, _, hgained, List.prefix_refl _, by simp [SearchState.startedIds], hsub⟩

end Underway

/-! ## How the parts end -/

section Parts

variable {α : Type} {x : EStateM ε ω α} {returned : α → SearchState hashes Artifact ω → Prop}
  {raised : SearchError ε → SearchState hashes Artifact ω → Prop}

/-- A callback changes nothing but its own state. -/
theorem askCallback_ends (hreturned : ∀ a world, returned a { s with world })
    (hraised : ∀ e world, raised (.callback e) { s with world }) :
    EndsIn (askCallback x) s returned raised := by
  refine EndsIn.onPart (EndsIn.adaptExcept ?_)
  unfold EndsIn
  split
  · exact hreturned _ _
  · exact hraised _ _

theorem modifyLocals_ends {f : SearchLocals Artifact → SearchLocals Artifact}
    {returned : Unit → SearchState hashes Artifact ω → Prop}
    (h : returned () { s with locals := f s.locals }) :
    EndsIn (modifyLocals f) s returned raised :=
  EndsIn.modify h

variable {callbacks : SearchCallbacks hashes artifactId ω ε}

/-- An append that raises leaves the database as it was. -/
theorem appendToLedger_ends {record : ExperimentRecord}
    {returned : Unit → SearchState hashes Artifact ω → Prop}
    (hreturned : ∀ database, Appended E s.database database [record] →
      returned () { s with database })
    (hraised : ∀ e, raised (.ledger e) s) :
    EndsIn (appendToLedger callbacks E record) s returned raised := by
  refine EndsIn.bind (EndsIn.get (EndsIn.onPart (EndsIn.adaptExcept ?_)))
  unfold EndsIn
  split
  next u db h => exact hreturned db (.of_appendRecord h)
  next e db h =>
    have hsame : db = s.database :=
      (Write.appendRecord false (callbacks.ledgerFails s.world) record).run_atomic h
    rw [hsame]
    exact hraised e

variable [Preorder Value] [DecidableLE Value] [DecidableLT Value]

theorem archiveRecord_ends {candidate : CandidateRecord} {record : Option (ParetoRecord Value)}
    {returned : Unit → SearchState hashes Artifact ω → Prop}
    (hnone : record = none → ∀ n, returned ()
      { s with locals := { s.locals with candidatesWithoutImprovement := n } })
    (hsome : ∀ pareto archive n, record = some pareto →
      archive.records = s.archive.records ++ [pareto] → returned ()
        { s with
          archive
          locals := { s.locals with
            feasibleIds := s.locals.feasibleIds ++ [candidate.candidateId]
            candidatesWithoutImprovement := n } })
    (hraised : ∀ e, raised (.archive e) s) :
    EndsIn (archiveRecord candidate record) s returned raised := by
  cases record with
  | none =>
    unfold archiveRecord
    refine modifyLocals_ends ?_
    exact hnone rfl _
  | some pareto =>
    refine EndsIn.bind (EndsIn.get ?_)
    rcases s.archive.add_cases hashes.update pareto with ⟨e, hadd⟩ | ⟨hnew, hadd, -⟩
    · rw [hadd]
      exact EndsIn.bind (EndsIn.modify (EndsIn.throw (hraised e)))
    · rw [hadd]
      refine EndsIn.bind (EndsIn.modify (modifyLocals_ends ?_))
      exact hsome pareto _ _ rfl rfl

omit [Preorder Value] [DecidableLE Value] [DecidableLT Value] in
theorem recoverEvaluation_ends {candidate : CandidateRecord}
    {evaluation : CandidateEvaluation Value Artifact artifactId}
    {returned : ExperimentRecord × List Artifact → SearchState hashes Artifact ω → Prop}
    (hid : evaluation.candidateId = candidate.candidateId)
    (hreturned : ∀ record artifacts world recoveryIds,
      record.candidateId = candidate.candidateId →
        returned (record, artifacts) { s with world, locals := { s.locals with recoveryIds } })
    (hraised : ∀ e world, raised e { s with world }) :
    EndsIn (recoverEvaluation callbacks candidate evaluation) s returned raised := by
  have hown : evaluation.experimentRecord.candidateId = candidate.candidateId :=
    evaluation.record_candidate.trans hid
  unfold recoverEvaluation
  cases callbacks.recovery with
  | none => exact EndsIn.pure (hreturned _ [] s.world s.locals.recoveryIds hown)
  | some recover =>
    dsimp only
    split
    · exact EndsIn.pure (hreturned _ [] s.world s.locals.recoveryIds hown)
    · refine EndsIn.bind (askCallback_ends (fun application world => ?_)
        fun e world => hraised _ world)
      refine EndsIn.bind (EndsIn.check (fun hsame => ?_) fun _ => hraised _ world)
      exact EndsIn.bind (modifyLocals_ends (EndsIn.pure (hreturned _ _ world _ hsame)))

end Parts

/-! ## The loop -/

theorem charge_eq_ok {used used' : ConsumedSearchBudgets} {cost : EvaluationCost}
    (h : used.charge cost = .ok used') :
    used'.candidates = used.candidates + 1 ∧ used'.formalJobs = used.formalJobs + cost.formalJobs ∧
      used'.physicalJobs = used.physicalJobs + cost.physicalJobs ∧
      used'.tokens = used.tokens + cost.tokens ∧
      used'.latencyMs = used.latencyMs + cost.latencyMs := by
  unfold ConsumedSearchBudgets.charge at h
  split at h
  · cases h
    exact ⟨rfl, rfl, rfl, rfl, rfl⟩
  · cases h

theorem AtRest.accounts_charge {candidate : CandidateRecord} {estimated : EvaluationCost}
    (hrest : AtRest E request before s) {used : ConsumedSearchBudgets}
    (hcharge : s.locals.used.charge estimated = .ok used)
    (hstarted : t.started = s.started ++ [(candidate, estimated)])
    (hplanned : t.planned = s.planned) : Accounts used t := by
  obtain ⟨hcandidates, hformal, hphysical, htokens, hlatency⟩ := charge_eq_ok hcharge
  have htotal : ∀ cost : EvaluationCost → ℕ, t.total cost = s.total cost + cost estimated := by
    intro cost
    simp [SearchState.total, hstarted]
  refine ⟨?_, ?_, ?_, ?_, ?_⟩
  · rw [hcandidates, hrest.accounts.candidates, hstarted, List.length_append,
      List.length_singleton]
  · rw [hformal, hrest.accounts.formalJobs, htotal]
  · rw [hphysical, hrest.accounts.physicalJobs, htotal]
  · rw [htokens, hrest.accounts.tokens, htotal, hplanned, Nat.add_assoc]
  · rw [hlatency, hrest.accounts.latencyMs, htotal, hplanned, Nat.add_assoc]

section Loop

variable {callbacks : SearchCallbacks hashes artifactId ω ε} {policy : SearchStopPolicy}
  [Preorder Value] [DecidableLE Value] [DecidableLT Value] [DecidableEq Artifact]
  {proposal : hashes.Proposal} {candidate : CandidateRecord} {estimated : EvaluationCost}

omit [Preorder Value] [DecidableLE Value] [DecidableLT Value] in
theorem settleEvaluation_ends {evaluation : CandidateEvaluation Value Artifact artifactId}
    {recoveryArtifacts : List Artifact} {returned : Signal → SearchState hashes Artifact ω → Prop}
    {raised : SearchError ε → SearchState hashes Artifact ω → Prop}
    (hreturned : ∀ signal artifacts used policyStop, s.locals.used.charge estimated = .ok used →
      (signal = .stop → policyStop ≠ none) → returned signal
        { s with locals := { s.locals with
          artifacts
          evaluatedIds := s.locals.evaluatedIds ++ [candidate.candidateId]
          proposalDispositions := assignDisposition s.locals.proposalDispositions
            proposal.proposalId evaluation.terminalDisposition
          used
          policyStop } })
    (hraised : ∀ e, raised e s) :
    EndsIn (settleEvaluation policy proposal estimated candidate evaluation recoveryArtifacts) s
      returned raised := by
  unfold settleEvaluation
  refine EndsIn.bind (EndsIn.get (EndsIn.bind (EndsIn.ofExcept (fun artifacts _ => ?_)
    fun e _ => hraised e)))
  refine EndsIn.bind (EndsIn.get (EndsIn.bind (EndsIn.ofExcept (fun used hused => ?_)
    fun e _ => hraised e)))
  have hcharge : s.locals.used.charge estimated = .ok used := by
    cases hresult : s.locals.used.charge estimated with
    | ok used' =>
      rw [hresult] at hused
      cases hused
      rfl
    | error e =>
      rw [hresult] at hused
      cases hused
  refine EndsIn.bind (modifyLocals_ends ?_)
  split
  · exact EndsIn.bind (modifyLocals_ends (EndsIn.pure (hreturned _ _ _ _ hcharge
      fun _ => Option.some_ne_none _)))
  · refine EndsIn.bind (EndsIn.get ?_)
    split
    · exact EndsIn.bind (modifyLocals_ends (EndsIn.pure (hreturned _ _ _ _ hcharge
        fun _ => Option.some_ne_none _)))
    · exact EndsIn.pure (hreturned _ _ _ s.locals.policyStop hcharge nofun)

/-- The state of an evaluation whose record is in the ledger and in the archive. -/
structure Recorded (E : Encoding ExperimentRecord) (request : SearchRequest)
    (before s : SearchState hashes Artifact ω) (candidate : CandidateRecord)
    (estimated : EvaluationCost) : Prop where
  within : WithinBudgets request s
  accounts : ∀ used, s.locals.used.charge estimated = .ok used → Accounts used s
  claimed : Claimed before s
  gained : Gained E before s s.startedIds s.locals.feasibleIds
  evaluated : s.locals.evaluatedIds ++ [candidate.candidateId] = s.startedIds
  feasible : s.locals.feasibleIds.Sublist s.startedIds
  sources : s.locals.sourceHashes = s.started.map fun e => e.1.sourceHash
  patches : s.locals.patchHashes = s.started.map fun e => e.1.patchHash

omit [Preorder Value] [DecidableLE Value] [DecidableLT Value] in
theorem Recorded.settles (h : Recorded E request before s candidate estimated)
    (evaluation : CandidateEvaluation Value Artifact artifactId) (artifacts : List Artifact) :
    EndsIn (settleEvaluation policy proposal estimated candidate evaluation artifacts :
        SearchM hashes Artifact ω ε Signal) s
      (fun _ t => AtRest E request before t) fun _ t => Leaves E request before t :=
  settleEvaluation_ends
    (fun _ _ _ _ hcharge _ => ⟨⟨h.within.1, h.within.2, h.within.3, h.within.4, h.within.5⟩,
      ⟨(h.accounts _ hcharge).1, (h.accounts _ hcharge).2, (h.accounts _ hcharge).3,
        (h.accounts _ hcharge).4, (h.accounts _ hcharge).5⟩,
      ⟨h.claimed.1, h.claimed.2, h.claimed.3⟩, ⟨h.gained.1, h.gained.2⟩, h.evaluated, h.feasible,
      h.sources, h.patches⟩)
    fun _ => ⟨h.within, h.claimed, _, _, h.gained, List.prefix_refl _,
      by simp [SearchState.startedIds], h.feasible⟩

/-- From a state at rest, an evaluation whose cost fits leads to a state at rest, or raises with at
most its own record missing from the ledger. -/
theorem evaluateCandidate_ends (hrest : AtRest E request before s)
    (hfits : Fits request s.locals.used estimated)
    (hsource : candidate.sourceHash ∉ s.locals.sourceHashes)
    (hpatch : candidate.patchHash ∉ s.locals.patchHashes) (world : ω) :
    EndsIn (evaluateCandidate callbacks policy E proposal estimated candidate)
      { s with
        world
        dag := { s.dag with candidates := s.dag.candidates ++ [candidate] }
        locals := { s.locals with
          sourceHashes := s.locals.sourceHashes ++ [candidate.sourceHash]
          patchHashes := s.locals.patchHashes ++ [candidate.patchHash] } }
      (fun _ t => AtRest E request before t) fun _ t => Leaves E request before t := by
  have hwithin : ∀ t : SearchState hashes Artifact ω,
      t.started = s.started ++ [(candidate, estimated)] → t.planned = s.planned →
        WithinBudgets request t := fun t => hrest.within_start hfits
  have hclaimed : ∀ t : SearchState hashes Artifact ω,
      t.dag = { s.dag with candidates := s.dag.candidates ++ [candidate] } →
        t.started = s.started ++ [(candidate, estimated)] → Claimed before t :=
    fun t hdag => hrest.claimed_start hdag hsource hpatch
  unfold evaluateCandidate
  refine EndsIn.bind (EndsIn.modify (EndsIn.bind (askCallback_ends (fun evaluation world => ?_)
    fun e world => hrest.leaves_behind (hwithin _ rfl rfl) (hclaimed _ rfl rfl) rfl rfl rfl)))
  refine EndsIn.bind (EndsIn.check (fun hid => ?_) fun _ =>
    hrest.leaves_behind (hwithin _ rfl rfl) (hclaimed _ rfl rfl) rfl rfl rfl)
  refine EndsIn.bind (EndsIn.check (fun hcost => ?_) fun _ =>
    hrest.leaves_behind (hwithin _ rfl rfl) (hclaimed _ rfl rfl) rfl rfl rfl)
  refine EndsIn.bind (recoverEvaluation_ends hid (fun record artifacts world recoveryIds hrecord =>
    ?_) fun e world =>
      hrest.leaves_behind (hwithin _ rfl rfl) (hclaimed _ rfl rfl) rfl rfl rfl)
  refine EndsIn.bind (appendToLedger_ends (fun database happended => ?_) fun e =>
    hrest.leaves_behind (hwithin _ rfl rfl) (hclaimed _ rfl rfl) rfl rfl rfl)
  have hgained : ∀ t : SearchState hashes Artifact ω, t.database = database →
      t.started = s.started ++ [(candidate, estimated)] →
      (∃ records, t.archive.records = before.archive.records ++ records ∧
        records.map ParetoRecord.candidateId = t.locals.feasibleIds) →
      Gained E before t t.startedIds t.locals.feasibleIds := by
    rintro t hdatabase hstarted harchive
    rw [← hdatabase] at happended
    exact hrest.gained_record hrecord happended hstarted harchive
  have hids : ∀ t : SearchState hashes Artifact ω,
      t.started = s.started ++ [(candidate, estimated)] →
        t.startedIds = s.startedIds ++ [candidate.candidateId] := fun t => startedIds_start
  have hsources : s.locals.sourceHashes ++ [candidate.sourceHash] =
      (s.started ++ [(candidate, estimated)]).map fun e => e.1.sourceHash := by
    rw [hrest.sources, List.map_append, List.map_singleton]
  have hpatches : s.locals.patchHashes ++ [candidate.patchHash] =
      (s.started ++ [(candidate, estimated)]).map fun e => e.1.patchHash := by
    rw [hrest.patches, List.map_append, List.map_singleton]
  have hkept : s.locals.feasibleIds.Sublist (s.startedIds ++ [candidate.candidateId]) :=
    hrest.feasible.trans (List.sublist_append_left _ _)
  refine EndsIn.bind (archiveRecord_ends (fun _ n => ?_) (fun pareto archive n hpareto harchive =>
    ?_) fun e => ?_)
  · refine Recorded.settles ?_ _ _
    refine ⟨hwithin _ rfl rfl, fun used hused => hrest.accounts_charge hused rfl rfl,
      hclaimed _ rfl rfl, hgained _ rfl rfl hrest.gained.archive, ?_, ?_, hsources, hpatches⟩
    · rw [hids _ rfl, ← hrest.evaluated]
    · rw [hids _ rfl]
      exact hkept
  · obtain ⟨records, hrecords, hfeasible⟩ := hrest.gained.archive
    refine Recorded.settles ?_ _ _
    refine ⟨hwithin _ rfl rfl, fun used hused => hrest.accounts_charge hused rfl rfl,
      hclaimed _ rfl rfl, hgained _ rfl rfl ⟨records ++ [pareto], ?_, ?_⟩, ?_, ?_, hsources,
      hpatches⟩
    · exact harchive.trans (by rw [hrecords, List.append_assoc])
    · rw [List.map_append, hfeasible, List.map_singleton,
        evaluation.pareto_candidate pareto hpareto, hid]
    · rw [hids _ rfl, ← hrest.evaluated]
    · rw [hids _ rfl]
      exact hrest.feasible.append (List.Sublist.refl _)
  · refine leaves_recorded (hwithin _ rfl rfl) (hclaimed _ rfl rfl)
      (hrest.gained_record hrecord happended rfl hrest.gained.archive) ?_
    simpa [SearchState.startedIds] using hkept

omit [Preorder Value] [DecidableLE Value] [DecidableLT Value] [DecidableEq Artifact] in
/-- A state at rest stays so while nothing is evaluated. -/
theorem AtRest.idle (hrest : AtRest E request before s) (world : ω) (rejected : List EntityId)
    (dispositions : List (EntityId × String)) (exhausted : Bool) :
    AtRest E request before
      { s with
        world
        locals := { s.locals with
          rejectedProposalIds := rejected
          proposalDispositions := dispositions
          budgetExhausted := exhausted } } :=
  ⟨⟨hrest.within.1, hrest.within.2, hrest.within.3, hrest.within.4, hrest.within.5⟩,
    ⟨hrest.accounts.1, hrest.accounts.2, hrest.accounts.3, hrest.accounts.4, hrest.accounts.5⟩,
    ⟨hrest.claimed.1, hrest.claimed.2, hrest.claimed.3⟩, ⟨hrest.gained.1, hrest.gained.2⟩,
    hrest.evaluated, hrest.feasible, hrest.sources, hrest.patches⟩

theorem searchStep_ends (hrest : AtRest E request before s) :
    EndsIn (searchStep callbacks policy E request proposal) s
      (fun _ t => AtRest E request before t) fun _ t => Leaves E request before t := by
  have hidle := hrest.idle
  unfold searchStep
  refine EndsIn.bind (askCallback_ends (fun estimated world => ?_)
    fun e world => (hidle world _ _ _).leaves)
  refine EndsIn.bind (EndsIn.get ?_)
  split
  next hfits =>
    refine EndsIn.bind (askCallback_ends (fun materialized world => ?_)
      fun e world => (hidle world _ _ _).leaves)
    cases materialized with
    | none => exact EndsIn.bind (modifyLocals_ends (EndsIn.pure (hidle world _ _ _)))
    | some candidate =>
      refine EndsIn.bind (EndsIn.check (fun _ => ?_) fun _ => (hidle world _ _ _).leaves)
      refine EndsIn.bind (EndsIn.get ?_)
      split
      next => exact EndsIn.pure (hidle world _ _ _)
      next hnew =>
        rw [not_or] at hnew
        refine EndsIn.bind (EndsIn.ofExcept (fun dag hdag => ?_)
          fun e _ => (hidle world _ _ _).leaves)
        have hadd : dag = { s.dag with candidates := s.dag.candidates ++ [candidate] } := by
          cases hresult : s.dag.add candidate with
          | ok dag' =>
            rw [hresult] at hdag
            cases hdag
            exact (CandidateDag.add_eq_ok hresult).1
          | error e =>
            rw [hresult] at hdag
            cases hdag
        subst hadd
        exact EndsIn.bind (EndsIn.modify (EndsIn.bind (modifyLocals_ends
          (evaluateCandidate_ends hrest hfits hnew.1 hnew.2 world))))
  next => exact EndsIn.bind (modifyLocals_ends (EndsIn.pure (hidle world _ _ true)))

theorem searchLoop_ends (proposals : List hashes.Proposal) (hrest : AtRest E request before s) :
    EndsIn (searchLoop callbacks policy E request proposals) s
      (fun _ t => AtRest E request before t) fun _ t => Leaves E request before t := by
  induction proposals generalizing s with
  | nil => exact EndsIn.pure hrest
  | cons proposal rest ih =>
    unfold searchLoop
    refine EndsIn.bind ((searchStep_ends hrest).mono (fun signal t ht => ?_) fun _ _ => id)
    cases signal with
    | next => exact ih ht
    | stop => exact EndsIn.pure ht

end Loop

/-! ## The run -/

/-- Nothing has been evaluated yet. -/
structure Fresh (before s : SearchState hashes Artifact ω) : Prop where
  started : s.started = []
  dag : s.dag = before.dag
  database : s.database = before.database
  archive : s.archive = before.archive

theorem Fresh.atRest (h : Fresh before s) (hlocals : s.locals =
    .start s.planned.tokens s.planned.latencyMs) : AtRest E request before s := by
  have htotal : ∀ cost : EvaluationCost → ℕ, s.total cost = 0 := by
    intro cost
    simp [SearchState.total, h.started]
  refine ⟨⟨?_, ?_, ?_, fun hne => absurd h.started hne, fun hne => absurd h.started hne⟩,
    ?_, ⟨?_, ?_, ?_⟩, ⟨⟨[], ?_, ?_⟩, ⟨[], ?_, ?_⟩⟩, ?_, ?_, ?_, ?_⟩
  · simp [h.started]
  · simp [htotal]
  · simp [htotal]
  · constructor <;> simp [hlocals, htotal, h.started, SearchLocals.start]
  · simp [h.dag, h.started]
  · simp [h.started]
  · simp [h.started]
  · rw [h.database]
    exact .refl E _
  · simp [SearchState.startedIds, h.started]
  · rw [h.archive, List.append_nil]
  · simp [hlocals, SearchLocals.start]
  · simp [hlocals, SearchLocals.start, SearchState.startedIds, h.started]
  · simp [hlocals, SearchLocals.start]
  · simp [hlocals, SearchLocals.start, h.started]
  · simp [hlocals, SearchLocals.start, h.started]

theorem Fresh.leaves (h : Fresh before s) : Leaves E request before s := by
  have hrest : AtRest E request before
      { s with locals := .start s.planned.tokens s.planned.latencyMs } :=
    Fresh.atRest ⟨h.started, h.dag, h.database, h.archive⟩ rfl
  obtain ⟨within, claimed, recordIds, paretoIds, gained, hids⟩ := hrest.leaves
  exact ⟨⟨within.1, within.2, within.3, within.4, within.5⟩, ⟨claimed.1, claimed.2, claimed.3⟩,
    recordIds, paretoIds, ⟨gained.1, gained.2⟩, hids⟩

section Run

variable (callbacks : SearchCallbacks hashes artifactId ω ε) (policy : SearchStopPolicy)
  (E : Encoding ExperimentRecord) (request : SearchRequest)

theorem planStep_ends {opportunityId : EntityId} (h : Fresh before s) :
    EndsIn (planStep callbacks request opportunityId) s (fun _ t => Fresh before t)
      fun _ t => Fresh before t := by
  unfold planStep
  refine EndsIn.bind (askCallback_ends (fun batch world => ?_) fun e world =>
    ⟨h.started, h.dag, h.database, h.archive⟩)
  refine EndsIn.bind (EndsIn.modify (EndsIn.bind (EndsIn.get (EndsIn.check (fun _ => ?_) ?_))))
  · exact ⟨h.started, h.dag, h.database, h.archive⟩
  · exact fun _ => ⟨h.started, h.dag, h.database, h.archive⟩

variable [Preorder Value] [DecidableLE Value] [DecidableLT Value]

/-- What a result reports of the state that it is made from. -/
structure Concluded (artifactId : Artifact → EntityId) (request : SearchRequest)
    (unique : List hashes.Proposal) (result : SearchResult Artifact)
    (s : SearchState hashes Artifact ω) : Prop where
  consumed : result.consumedBudgets = s.locals.used
  ordered : result.orderedCandidateIds = s.locals.evaluatedIds
  feasible : result.feasibleCandidateIds = s.locals.feasibleIds
  pareto : result.paretoCandidateIds =
    (s.archive.frontier request.requiredCorrectnessClass.expected).map ParetoRecord.candidateId
  selected : result.selectedCandidateId =
    (selectRecord (s.archive.frontier request.requiredCorrectnessClass.expected)).map
      ParetoRecord.candidateId
  outcome : s.locals.outcome result.selectedCandidateId = (result.status, result.stopReasonCode)
  traced : (s.trace request unique result.stopReasonCode).check = .ok ()
  checked : result.check artifactId = .ok ()

omit [Preorder Value] [DecidableLE Value] [DecidableLT Value] in
theorem orInvalid_ends {x : Except String Unit}
    {returned : Unit → SearchState hashes Artifact ω → Prop}
    {raised : SearchError ε → SearchState hashes Artifact ω → Prop}
    (hok : x = .ok () → returned () s) (hraised : ∀ e, raised e s) :
    EndsIn (orInvalid x) s returned raised := by
  unfold orInvalid
  cases x with
  | ok u => exact EndsIn.ofExcept (fun _ _ => hok rfl) fun e _ => hraised e
  | error e => exact EndsIn.ofExcept (fun _ h => nomatch h) fun e _ => hraised e

theorem concludeSearch_ends {unique : List hashes.Proposal}
    {raised : SearchError ε → SearchState hashes Artifact ω → Prop}
    (hraised : ∀ e world, raised e { s with world }) :
    EndsIn (concludeSearch callbacks request unique) s
      (fun result t => ∃ world, t = { s with world } ∧
        Concluded artifactId request unique result t) raised := by
  unfold concludeSearch
  refine EndsIn.bind (EndsIn.get ?_)
  refine EndsIn.bind (orInvalid_ends (fun htrace => ?_) fun e => hraised e s.world)
  refine EndsIn.bind (askCallback_ends (fun traceRef world => ?_) fun e => hraised _)
  refine EndsIn.bind (orInvalid_ends (fun hresult => ?_) fun e => hraised e world)
  exact EndsIn.pure ⟨world, rfl, rfl, rfl, rfl, rfl, rfl, rfl, htrace, hresult⟩

variable [DecidableEq Artifact]

/-- A run plans first, and evaluates nothing before its planning is done. -/
theorem run_plans {returned : SearchResult Artifact → SearchState hashes Artifact ω → Prop}
    {raised : SearchError ε → SearchState hashes Artifact ω → Prop}
    (s : SearchState hashes Artifact ω) (hraised : ∀ e t, Fresh s t → raised e t)
    (hplanned : ∀ t, Fresh s t →
      EndsIn (searchPlanned callbacks policy E request) t returned raised) :
    EndsIn (run callbacks policy E request) s returned raised := by
  unfold run
  refine EndsIn.bind (EndsIn.modify ?_)
  have hstart : Fresh s
      { s with planned := ⟨[], [], [], 0, 0⟩, locals := .start 0 0, started := [] } :=
    ⟨rfl, rfl, rfl, rfl⟩
  refine EndsIn.bind (EndsIn.check (fun _ => ?_) fun _ => hraised _ _ hstart)
  exact EndsIn.bind ((EndsIn.forM (fun _ t => Fresh s t)
    (fun _ _ t ht => planStep_ends callbacks request ht) hstart).mono
      (fun _ t ht => hplanned t ht) fun e t ht => hraised e t ht)

theorem run_ends (s : SearchState hashes Artifact ω) :
    EndsIn (run callbacks policy E request) s
      (fun result t => AtRest E request s t ∧
        ∃ unique, Concluded artifactId request unique result t)
      fun _ t => Leaves E request s t := by
  refine run_plans callbacks policy E request s (fun _ t ht => ht.leaves) fun t ht => ?_
  unfold searchPlanned
  refine EndsIn.bind (EndsIn.get (EndsIn.bind (modifyLocals_ends ?_)))
  have hrest : AtRest E request s
      { t with locals := .start t.planned.tokens t.planned.latencyMs } :=
    Fresh.atRest ⟨ht.started, ht.dag, ht.database, ht.archive⟩ rfl
  refine EndsIn.bind ((searchLoop_ends _ hrest).mono (fun _ u hu => ?_) fun _ _ => id)
  refine (concludeSearch_ends callbacks request fun _ world =>
    (hu.idle world _ _ _).leaves).mono (fun result v hv => ?_) fun _ _ => id
  obtain ⟨world, rfl, hresult⟩ := hv
  exact ⟨hu.idle world _ _ _, _, hresult⟩

/-- However a run ends, the evaluations that it started fit the budgets of the request together with
the tokens and the latency of its planner, and a result reports exactly what they cost. -/
theorem run_within_budgets (s : SearchState hashes Artifact ω) :
    EndsIn (run callbacks policy E request) s
      (fun result t => WithinBudgets request t ∧ Accounts result.consumedBudgets t)
      fun _ t => WithinBudgets request t :=
  (run_ends callbacks policy E request s).mono
    (fun _ _ ⟨hrest, _, hresult⟩ => ⟨hrest.within, hresult.consumed ▸ hrest.accounts⟩)
    fun _ _ h => h.within

/-- A run that returns has evaluated the candidates that it added to the DAG, no two of one source
or of one patch, has appended a record of each to the ledger in that order, and has archived those
that it reports as feasible. A run that raises may leave the record of its last evaluation out. -/
theorem run_keeps_stores (s : SearchState hashes Artifact ω) :
    EndsIn (run callbacks policy E request) s
      (fun result t => Claimed s t ∧ result.orderedCandidateIds = t.startedIds ∧
        Gained E s t result.orderedCandidateIds result.feasibleCandidateIds ∧
        result.feasibleCandidateIds.Sublist result.orderedCandidateIds)
      fun _ t => Claimed s t ∧ ∃ recordIds paretoIds, Gained E s t recordIds paretoIds ∧
        recordIds <+: t.startedIds ∧ t.started.length ≤ recordIds.length + 1 ∧
        paretoIds.Sublist recordIds := by
  refine (run_ends callbacks policy E request s).mono (fun result t ht => ?_)
    fun _ _ h => ⟨h.claimed, h.gained⟩
  obtain ⟨hrest, _, hresult⟩ := ht
  rw [hresult.feasible, hresult.ordered, hrest.evaluated]
  exact ⟨hrest.claimed, rfl, hrest.gained, hrest.feasible⟩

end Run

end NovaRtl.Search
