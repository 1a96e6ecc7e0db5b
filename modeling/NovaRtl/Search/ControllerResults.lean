import Mathlib.Algebra.Order.Ring.Unbundled.Rat
import NovaRtl.Search.ControllerRuns

/-!
# Results of the search controller

What a search that returns says about the proposals and the candidates: which proposals it has
settled, which candidate it selects, and in which order it tries the proposals.

## Main results

* `run_settles_proposals` — unless a search is stopped early, each of its proposals was rejected or
  its candidate was evaluated.
* `run_selects` — the selected candidate is the lowest of the undominated ones, and one that the run
  has archived.
* `orderedProposals_canonical` — the order of the proposals does not depend on the order in which
  the planner answers them.
-/

namespace NovaRtl.Search

open Transact

variable {Value Artifact ω ε : Type} {artifactId : Artifact → EntityId}
  {hashes : SearchHashes Value}

/-! ## Settled proposals -/

section Dispositions

variable {dispositions : List (EntityId × String)} {id : EntityId} {disposition : String}

theorem mem_assignDisposition {item : EntityId × String}
    (h : item ∈ assignDisposition dispositions id disposition) :
    item ∈ dispositions ∨ item.1 = id := by
  unfold assignDisposition at h
  split at h
  · obtain ⟨old, hold, heq⟩ := List.mem_map.mp h
    split at heq
    · subst heq
      exact .inr rfl
    · subst heq
      exact .inl hold
  · rcases List.mem_append.mp h with h | h
    · exact .inl h
    · rw [List.mem_singleton] at h
      subst h
      exact .inr rfl

theorem subset_defaultDisposition (ids : List EntityId) :
    dispositions ⊆ ids.foldl (defaultDisposition disposition) dispositions := by
  induction ids generalizing dispositions with
  | nil => exact List.Subset.refl _
  | cons id ids ih =>
    refine List.Subset.trans ?_ ih
    unfold defaultDisposition
    split
    · exact List.Subset.refl _
    · exact List.subset_append_left _ _

/-- An identity without a disposition gets the default. -/
theorem mem_defaultDisposition {ids : List EntityId} (hid : id ∈ ids)
    (hnew : id ∉ dispositions.map Prod.fst) :
    (id, disposition) ∈ ids.foldl (defaultDisposition disposition) dispositions := by
  induction ids generalizing dispositions with
  | nil => cases hid
  | cons head ids ih =>
    by_cases hhead : head = id
    · subst hhead
      refine subset_defaultDisposition ids ?_
      rw [defaultDisposition, if_neg hnew]
      exact List.mem_append_right _ (List.mem_singleton_self _)
    · refine ih ((List.mem_cons.mp hid).resolve_left fun heq => hhead heq.symm) ?_
      unfold defaultDisposition
      split
      · exact hnew
      · simpa [Ne.symm hhead] using hnew

end Dispositions

/-- The proposals whose candidates were evaluated. -/
def SearchState.startedProposalIds (s : SearchState hashes Artifact ω) : List EntityId :=
  s.started.map fun e => e.1.proposalId

/-- The proposals that were rejected and those whose candidates were evaluated. -/
def SearchState.settledIds (s : SearchState hashes Artifact ω) : List EntityId :=
  s.locals.rejectedProposalIds ++ s.startedProposalIds

/-- The loop has settled some of these proposals, each of them once. -/
structure Settled (tried : List hashes.Proposal) (s : SearchState hashes Artifact ω) : Prop where
  subperm : s.settledIds.Subperm (tried.map PlannedCandidate.proposalId)
  disposed : ∀ item ∈ s.locals.proposalDispositions, item.1 ∈ s.settledIds

variable {s t : SearchState hashes Artifact ω} {tried : List hashes.Proposal}
  {proposal : hashes.Proposal} {candidate : CandidateRecord} {estimated : EvaluationCost}

theorem Settled.skip (h : Settled tried s) (proposal : hashes.Proposal)
    (hsettled : t.settledIds = s.settledIds)
    (hdispositions : t.locals.proposalDispositions = s.locals.proposalDispositions) :
    Settled (tried ++ [proposal]) t where
  subperm := by
    rw [hsettled, List.map_append]
    exact h.subperm.trans (List.sublist_append_left _ _).subperm
  disposed := by
    rw [hsettled, hdispositions]
    exact h.disposed

theorem Settled.settle (h : Settled tried s) (hsettled : t.settledIds.Perm
      (s.settledIds ++ [proposal.proposalId])) {disposition : String}
    (hdispositions : t.locals.proposalDispositions =
      assignDisposition s.locals.proposalDispositions proposal.proposalId disposition) :
    Settled (tried ++ [proposal]) t where
  subperm := by
    rw [List.map_append]
    exact hsettled.subperm.trans ((List.subperm_append_right _).mpr h.subperm)
  disposed := by
    intro item hitem
    rw [hdispositions] at hitem
    rw [hsettled.mem_iff, List.mem_append]
    rcases mem_assignDisposition hitem with hitem | hitem
    · exact .inl (h.disposed item hitem)
    · exact .inr (List.mem_singleton.mpr hitem)

theorem Settled.withDag (h : Settled tried s) (dag : CandidateDag) (world : ω)
    (sources patches : List String) :
    Settled tried
      { s with
        world
        dag
        locals := { s.locals with sourceHashes := sources, patchHashes := patches } } :=
  ⟨h.subperm, h.disposed⟩

section Loop

variable {callbacks : SearchCallbacks hashes artifactId ω ε} {policy : SearchStopPolicy}
  {E : Orchestrator.Encoding ExperimentRecord} {request : SearchRequest}
  [Preorder Value] [DecidableLE Value] [DecidableLT Value] [DecidableEq Artifact]

/-- An evaluation that returns settles its proposal. -/
theorem evaluateCandidate_settles (h : Settled tried s)
    (hproposal : candidate.proposalId = proposal.proposalId) :
    EndsIn (evaluateCandidate callbacks policy E proposal estimated candidate) s
      (fun _ t => t.planned = s.planned ∧ Settled (tried ++ [proposal]) t) fun _ _ => True := by
  unfold evaluateCandidate
  refine EndsIn.bind (EndsIn.modify (EndsIn.bind (askCallback_ends (fun evaluation world => ?_)
    fun _ _ => trivial)))
  refine EndsIn.bind (EndsIn.check (fun hid => ?_) fun _ => trivial)
  refine EndsIn.bind (EndsIn.check (fun hcost => ?_) fun _ => trivial)
  refine EndsIn.bind (recoverEvaluation_ends hid (fun record artifacts world recoveryIds hrecord =>
    ?_) fun _ _ => trivial)
  refine EndsIn.bind (appendToLedger_ends (fun database _ => ?_) fun _ => trivial)
  have hsettled : s.locals.rejectedProposalIds ++
      (s.started ++ [(candidate, estimated)]).map (fun e => e.1.proposalId) =
        s.settledIds ++ [proposal.proposalId] := by
    simp [SearchState.settledIds, SearchState.startedProposalIds, hproposal]
  refine EndsIn.bind (archiveRecord_ends (fun _ n => ?_) (fun pareto archive n _ _ => ?_)
    fun _ => trivial)
  · exact settleEvaluation_ends (fun _ _ _ _ _ _ => ⟨rfl, h.settle (.of_eq hsettled) rfl⟩)
      fun _ => trivial
  · exact settleEvaluation_ends (fun _ _ _ _ _ _ => ⟨rfl, h.settle (.of_eq hsettled) rfl⟩)
      fun _ => trivial

theorem searchStep_settles (h : Settled tried s) :
    EndsIn (searchStep callbacks policy E request proposal) s
      (fun _ t => t.planned = s.planned ∧ Settled (tried ++ [proposal]) t) fun _ _ => True := by
  unfold searchStep
  refine EndsIn.bind (askCallback_ends (fun estimated world => ?_) fun _ _ => trivial)
  refine EndsIn.bind (EndsIn.get ?_)
  split
  next hfits =>
    refine EndsIn.bind (askCallback_ends (fun materialized world => ?_) fun _ _ => trivial)
    cases materialized with
    | none =>
      refine EndsIn.bind (modifyLocals_ends (EndsIn.pure ⟨rfl, h.settle ?_ rfl⟩))
      simp only [SearchState.settledIds, SearchState.startedProposalIds, List.append_assoc]
      exact (List.perm_append_comm).append_left _
    | some candidate =>
      refine EndsIn.bind (EndsIn.check (fun hproposal => ?_) fun _ => trivial)
      refine EndsIn.bind (EndsIn.get ?_)
      split
      next => exact EndsIn.pure ⟨rfl, h.skip proposal rfl rfl⟩
      next =>
        refine EndsIn.bind (EndsIn.ofExcept (fun dag _ => ?_) fun _ _ => trivial)
        refine EndsIn.bind (EndsIn.modify (EndsIn.bind (modifyLocals_ends ?_)))
        exact (evaluateCandidate_settles (h.withDag dag world _ _) hproposal)
  next => exact EndsIn.bind (modifyLocals_ends (EndsIn.pure ⟨rfl, h.skip proposal rfl rfl⟩))

theorem searchLoop_settles (rest : List hashes.Proposal) (h : Settled tried s) :
    EndsIn (searchLoop callbacks policy E request rest) s
      (fun _ t => t.planned = s.planned ∧ Settled (tried ++ rest) t) fun _ _ => True := by
  induction rest generalizing tried s with
  | nil => exact EndsIn.pure ⟨rfl, by rwa [List.append_nil]⟩
  | cons proposal rest ih =>
    unfold searchLoop
    refine EndsIn.bind ((searchStep_settles h).mono (fun signal t ht => ?_) fun _ _ => id)
    obtain ⟨hplanned, ht⟩ := ht
    cases signal with
    | next =>
      refine (ih ht).mono (fun _ u hu => ⟨hu.1.trans hplanned, ?_⟩) fun _ _ => id
      rw [List.append_cons]
      exact hu.2
    | stop =>
      refine EndsIn.pure ⟨hplanned, ?_, ht.disposed⟩
      refine ht.subperm.trans (List.Sublist.subperm ?_)
      rw [List.append_cons tried proposal rest]
      exact (List.sublist_append_left _ rest).map _

end Loop

/-- A trace passes its check only if every proposal without a disposition was rejected. -/
theorem Settled.perm {artifactId : Artifact → EntityId} {request : SearchRequest}
    [Preorder Value] [DecidableLE Value] [DecidableLT Value] (h : Settled tried s)
    {result : SearchResult Artifact} (hresult : Concluded artifactId request tried result s)
    (hstatus : result.status = .completed ∨ result.status = .noFeasibleCandidate) :
    s.settledIds.Perm (tried.map PlannedCandidate.proposalId) := by
  have htraced := hresult.traced
  simp only [SearchTrace.check, seq_eq_ok, require_eq_ok] at htraced
  obtain ⟨hnodup, -, hrejected⟩ := htraced
  have hpending : s.locals.pendingDisposition = noSafeSourceMatch := by
    have houtcome := congrArg Prod.fst hresult.outcome
    dsimp only at houtcome
    rw [← houtcome] at hstatus
    unfold SearchLocals.outcome at hstatus
    unfold SearchLocals.pendingDisposition
    split at hstatus
    next => simp at hstatus
    next hpolicy =>
      rw [hpolicy]
      split at hstatus
      next => simp at hstatus
      next hbudget => simp [hbudget]
  refine h.subperm.antisymm (List.subperm_of_subset hnodup fun id hid => ?_)
  by_cases hdisposed : id ∈ s.locals.proposalDispositions.map Prod.fst
  · obtain ⟨item, hitem, rfl⟩ := List.mem_map.mp hdisposed
    exact h.disposed item hitem
  · have hdefault := @mem_defaultDisposition _ _ s.locals.pendingDisposition _ hid hdisposed
    refine List.mem_append_left _ (mem_sortedSet.mp ?_)
    have hmem : id ∈ sortedSet
        (s.trace request tried result.stopReasonCode).rejectedProposalIds := by
      rw [hrejected, mem_sortedSet]
      refine List.mem_map.mpr ⟨(id, noSafeSourceMatch), List.mem_filter.mpr ⟨?_, by simp⟩, rfl⟩
      rw [← hpending]
      exact (List.mem_insertionSort _).mpr hdefault
    exact hmem

section Run

variable (callbacks : SearchCallbacks hashes artifactId ω ε) (policy : SearchStopPolicy)
  (E : Orchestrator.Encoding ExperimentRecord) (request : SearchRequest)
  [Preorder Value] [DecidableLE Value] [DecidableLT Value] [DecidableEq Artifact]

theorem searchPlanned_settles (s : SearchState hashes Artifact ω) (hstarted : s.started = []) :
    EndsIn (searchPlanned callbacks policy E request) s
      (fun result t => Settled (orderedProposals request t.planned.proposals) t ∧
        Concluded artifactId request (orderedProposals request t.planned.proposals) result t)
      fun _ _ => True := by
  unfold searchPlanned
  refine EndsIn.bind (EndsIn.get (EndsIn.bind (modifyLocals_ends ?_)))
  have hstart : Settled ([] : List hashes.Proposal) ({ s with
      locals := .start s.planned.tokens s.planned.latencyMs } : SearchState hashes Artifact ω) :=
    ⟨by simp [SearchState.settledIds, SearchState.startedProposalIds, SearchLocals.start, hstarted],
      by simp [SearchLocals.start]⟩
  refine EndsIn.bind ((searchLoop_settles _ hstart).mono (fun _ t ht => ?_) fun _ _ => id)
  obtain ⟨hplanned, hsettled⟩ := ht
  rw [List.nil_append] at hsettled
  have hends : EndsIn (concludeSearch callbacks request (orderedProposals request
      s.planned.proposals)) t (fun result u => ∃ world, u = { t with world } ∧ Concluded artifactId
        request (orderedProposals request s.planned.proposals) result u) fun _ _ => True :=
    concludeSearch_ends callbacks request fun _ _ => trivial
  refine hends.mono (fun result u hu => ?_) fun _ _ => id
  obtain ⟨world, rfl, hresult⟩ := hu
  have hproposals : t.planned.proposals = s.planned.proposals := by rw [hplanned]
  dsimp only
  rw [hproposals]
  exact ⟨⟨hsettled.subperm, hsettled.disposed⟩, hresult⟩

/-- A search that returns has tried the proposals in order, each hash once, and has rejected some of
them and evaluated the candidates of others, none twice. Unless it was stopped by its policy or by
its budgets, these are all of them. -/
theorem run_settles_proposals (s : SearchState hashes Artifact ω) :
    EndsIn (run callbacks policy E request) s
      (fun result t =>
        t.settledIds.Subperm ((orderedProposals request t.planned.proposals).map
          PlannedCandidate.proposalId) ∧
        (result.status = .completed ∨ result.status = .noFeasibleCandidate →
          t.settledIds.Perm ((orderedProposals request t.planned.proposals).map
            PlannedCandidate.proposalId)))
      fun _ _ => True := by
  refine run_plans callbacks policy E request s (fun _ _ _ => trivial) fun t ht => ?_
  exact (searchPlanned_settles callbacks policy E request t ht.started).mono
    (fun result u hu => ⟨hu.1.subperm, hu.1.perm hu.2⟩) fun _ _ => id

/-! ## Selection -/

omit [DecidableEq Artifact] in
theorem selectRecord_eq_none {archive : ParetoArchive Value} {contract : CorrectnessContract} :
    selectRecord (archive.frontier contract) = none ↔
      ∀ record ∈ archive.records, record.correctnessContract ≠ contract := by
  rw [selectRecord, List.argmin_eq_none, List.eq_nil_iff_forall_not_mem]
  constructor
  · rintro hnone record hrecord rfl
    obtain ⟨front, hfront, -⟩ := ParetoArchive.covered hrecord
    exact hnone front hfront
  · intro hnone front hfront
    have hpartition := (ParetoArchive.mem_frontier.mp hfront).1
    obtain ⟨hmem, hcontract⟩ := ParetoArchive.mem_partition.mp hpartition
    exact hnone front hmem hcontract

/-- The record is the lowest of the undominated ones of its contract. -/
def Lowest (archive : ParetoArchive Value) (contract : CorrectnessContract)
    (record : ParetoRecord Value) : Prop :=
  Undominated Dominates (archive.partition contract) record ∧
    ∀ other, Undominated Dominates (archive.partition contract) other →
      toLex (record.objectivePolicyRank, record.candidateId) ≤
        toLex (other.objectivePolicyRank, other.candidateId)

theorem selectRecord_eq_some {archive : ParetoArchive Value} {contract : CorrectnessContract}
    {record : ParetoRecord Value} :
    selectRecord (archive.frontier contract) = some record ↔ Lowest archive contract record := by
  classical
  have hmem : ∀ record : ParetoRecord Value, record ∈ archive.frontier contract ↔
      Undominated Dominates (archive.partition contract) record :=
    fun _ => ParetoArchive.mem_frontier
  unfold selectRecord Lowest
  rw [List.argmin_eq_some_iff, hmem]
  refine and_congr_right fun hrecord => ⟨fun h other hother => h.1 other ((hmem other).mpr hother),
    fun h => ⟨fun other hother => h other ((hmem other).mp hother), fun other hother hle => ?_⟩⟩
  have hid : record.candidateId = other.candidateId := by
    have heq := le_antisymm (h other ((hmem other).mp hother)) hle
    exact congrArg (fun key => (ofLex key).2) heq
  have hsame : record = other := List.inj_on_of_nodup_map archive.ids_nodup
    (ParetoArchive.mem_partition.mp hrecord.1).1
    (ParetoArchive.mem_partition.mp ((hmem other).mp hother).1).1 hid
  rw [hsame]

omit [DecidableEq Artifact] in
/-- The undominated records are among those of the candidates that the result reports. -/
theorem Concluded.selects {unique : List hashes.Proposal} {result : SearchResult Artifact}
    {s : SearchState hashes Artifact ω} (h : Concluded artifactId request unique result s)
    {before records : List (ParetoRecord Value)} (hrecords : s.archive.records = before ++ records)
    (hids : records.map ParetoRecord.candidateId = s.locals.feasibleIds) {id : EntityId} :
    result.selectedCandidateId = some id ↔ ∃ record ∈ records, record.candidateId = id ∧
      Lowest s.archive request.requiredCorrectnessClass.expected record := by
  have hchecked := h.checked
  simp only [SearchResult.check, seq_eq_ok, require_eq_ok] at hchecked
  obtain ⟨-, -, -, -, -, -, -, hsub, -⟩ := hchecked
  rw [h.pareto, h.feasible, ← hids] at hsub
  rw [h.selected, Option.map_eq_some_iff]
  constructor
  · rintro ⟨record, hselected, hid⟩
    have hlowest := selectRecord_eq_some.mp hselected
    obtain ⟨own, hown, hsame⟩ := List.mem_map.mp
      (hsub (List.mem_map_of_mem (ParetoArchive.mem_frontier.mpr hlowest.1)))
    have hmem : own ∈ s.archive.records := hrecords ▸ List.mem_append_right _ hown
    have heq : own = record := List.inj_on_of_nodup_map s.archive.ids_nodup hmem
      (ParetoArchive.mem_partition.mp hlowest.1.1).1 hsame
    exact ⟨record, heq ▸ hown, hid, hlowest⟩
  · rintro ⟨record, -, hid, hlowest⟩
    exact ⟨record, selectRecord_eq_some.mpr hlowest, hid⟩

/-- A search that returns selects the lowest of the undominated records of its contract, by rank and
then by identity, and this is one of the records that it has archived itself. It selects none only
if there is no record of the contract. -/
theorem run_selects (s : SearchState hashes Artifact ω) :
    EndsIn (run callbacks policy E request) s
      (fun result t => ∃ records, t.archive.records = s.archive.records ++ records ∧
        records.map ParetoRecord.candidateId = result.feasibleCandidateIds ∧
        (∀ id, result.selectedCandidateId = some id ↔ ∃ record ∈ records, record.candidateId = id ∧
          Lowest t.archive request.requiredCorrectnessClass.expected record) ∧
        (result.selectedCandidateId = none ↔ ∀ record ∈ t.archive.records,
          record.correctnessContract ≠ request.requiredCorrectnessClass.expected))
      fun _ _ => True := by
  refine (run_ends callbacks policy E request s).mono (fun result t ht => ?_) fun _ _ _ => trivial
  obtain ⟨hrest, unique, hresult⟩ := ht
  obtain ⟨records, hrecords, hids⟩ := hrest.gained.archive
  refine ⟨records, hrecords, hids.trans hresult.feasible.symm,
    fun id => hresult.selects request hrecords hids, ?_⟩
  rw [hresult.selected, Option.map_eq_none_iff]
  exact selectRecord_eq_none

end Run

/-! ## The order of the proposals -/

section Unique

variable {seen : List String} {proposals : List hashes.Proposal} {proposal : hashes.Proposal}

theorem uniqueProposals_sublist (seen : List String) (proposals : List hashes.Proposal) :
    (uniqueProposals seen proposals).Sublist proposals := by
  induction proposals generalizing seen with
  | nil => exact List.Sublist.refl _
  | cons head rest ih =>
    unfold uniqueProposals
    split
    · exact (ih seen).cons _
    · exact (ih _).cons_cons _

theorem notMem_of_mem_uniqueProposals (h : proposal ∈ uniqueProposals seen proposals) :
    proposal.proposalHash ∉ seen := by
  induction proposals generalizing seen with
  | nil => cases h
  | cons head rest ih =>
    unfold uniqueProposals at h
    split at h
    next => exact ih h
    next hhead =>
      rcases List.mem_cons.mp h with rfl | h
      · exact hhead
      · exact fun hseen => ih h (List.mem_cons_of_mem _ hseen)

theorem uniqueProposals_nodup (seen : List String) (proposals : List hashes.Proposal) :
    ((uniqueProposals seen proposals).map PlannedCandidate.proposalHash).Nodup := by
  induction proposals generalizing seen with
  | nil => exact List.nodup_nil
  | cons head rest ih =>
    unfold uniqueProposals
    split
    · exact ih seen
    · rw [List.map_cons, List.nodup_cons]
      refine ⟨fun hmem => ?_, ih _⟩
      obtain ⟨other, hother, hsame⟩ := List.mem_map.mp hmem
      exact notMem_of_mem_uniqueProposals hother (hsame ▸ List.mem_cons_self)

/-- Each hash that has not been seen keeps its first proposal. -/
theorem exists_uniqueProposals {before : hashes.Proposal → hashes.Proposal → Prop}
    (hrefl : ∀ proposal, before proposal proposal) (hsorted : proposals.Pairwise before)
    (hmem : proposal ∈ proposals) (hnew : proposal.proposalHash ∉ seen) :
    ∃ first ∈ uniqueProposals seen proposals, first.proposalHash = proposal.proposalHash ∧
      before first proposal := by
  induction proposals generalizing seen with
  | nil => cases hmem
  | cons head rest ih =>
    rw [List.pairwise_cons] at hsorted
    unfold uniqueProposals
    split
    next hhead =>
      rcases List.mem_cons.mp hmem with rfl | hmem
      · exact absurd hhead hnew
      · exact ih hsorted.2 hmem hnew
    next hhead =>
      by_cases hsame : head.proposalHash = proposal.proposalHash
      · refine ⟨head, List.mem_cons_self, hsame, ?_⟩
        rcases List.mem_cons.mp hmem with rfl | hmem
        · exact hrefl proposal
        · exact hsorted.1 proposal hmem
      · have hrest : proposal ∈ rest :=
          (List.mem_cons.mp hmem).resolve_left fun heq => hsame (congrArg _ heq.symm)
        obtain ⟨first, hfirst, hhash⟩ := @ih (head.proposalHash :: seen) hsorted.2 hrest
          (by simpa [Ne.symm hsame] using hnew)
        exact ⟨first, List.mem_cons_of_mem _ hfirst, hhash⟩

end Unique

section Order

variable [Preorder Value] {seed : ℕ} {left mid right : hashes.Proposal}

theorem GoesBefore.refl (seed : ℕ) (proposal : hashes.Proposal) :
    GoesBefore seed proposal proposal :=
  .inr ⟨⟨le_refl _, le_refl _⟩, le_refl _⟩

theorem GoesBefore.trans (h : GoesBefore seed left mid) (h' : GoesBefore seed mid right) :
    GoesBefore seed left right := by
  rcases h with hlt | ⟨⟨hle, hge⟩, hkey⟩ <;> rcases h' with hlt' | ⟨⟨hle', hge'⟩, hkey'⟩
  · exact .inl (hlt'.trans hlt)
  · exact .inl (hle'.trans_lt hlt)
  · exact .inl (hlt'.trans_le hle)
  · exact .inr ⟨⟨hle'.trans hle, hge.trans hge'⟩, hkey.trans hkey'⟩

theorem GoesBefore.total (htotal : ∀ a b : Value, a ≤ b ∨ b ≤ a) (seed : ℕ)
    (left right : hashes.Proposal) :
    GoesBefore seed left right ∨ GoesBefore seed right left := by
  by_cases hle : left.priority ≤ right.priority
  · by_cases hge : right.priority ≤ left.priority
    · rcases le_total (orderKey seed left) (orderKey seed right) with hkey | hkey
      · exact .inl (.inr ⟨⟨hge, hle⟩, hkey⟩)
      · exact .inr (.inr ⟨⟨hle, hge⟩, hkey⟩)
    · exact .inr (.inl (lt_of_le_not_ge hle hge))
  · exact .inl (.inl (lt_of_le_not_ge ((htotal _ _).resolve_left hle) hle))

/-- Proposals that go before each other have one identity. -/
theorem GoesBefore.proposalId_eq (h : GoesBefore seed left right)
    (h' : GoesBefore seed right left) : left.proposalId = right.proposalId := by
  rcases h with hlt | ⟨⟨hle, hge⟩, hkey⟩ <;> rcases h' with hlt' | ⟨⟨hle', hge'⟩, hkey'⟩
  · exact absurd (hlt.trans hlt') (lt_irrefl _)
  · exact absurd hle' hlt.not_ge
  · exact absurd hle hlt'.not_ge
  · exact congrArg (fun key => (ofLex key).2) (le_antisymm hkey hkey')

/-- The loop tries one proposal of each hash, the higher priorities first, and neither which one nor
in which order depends on the order in which the planner has answered the proposals. -/
theorem orderedProposals_canonical [DecidableLE Value] [DecidableLT Value] (request : SearchRequest)
    (proposals : List hashes.Proposal) (htotal : ∀ a b : Value, a ≤ b ∨ b ≤ a)
    (hids : ∀ left ∈ proposals, ∀ right ∈ proposals, left.proposalId = right.proposalId →
      left = right) :
    (orderedProposals request proposals).Pairwise (GoesBefore request.deterministicSeed) ∧
      ((orderedProposals request proposals).map PlannedCandidate.proposalHash).Nodup ∧
      (∀ proposal ∈ proposals, ∃ first ∈ orderedProposals request proposals,
        first.proposalHash = proposal.proposalHash ∧
          GoesBefore request.deterministicSeed first proposal) ∧
      ∀ proposals' : List hashes.Proposal, proposals'.Perm proposals →
        orderedProposals request proposals' = orderedProposals request proposals := by
  have : Std.Total
      (GoesBefore request.deterministicSeed : hashes.Proposal → hashes.Proposal → Prop) :=
    ⟨GoesBefore.total htotal _⟩
  have : IsTrans hashes.Proposal (GoesBefore request.deterministicSeed) := ⟨fun _ _ _ => .trans⟩
  have hsorted : ∀ proposals : List hashes.Proposal,
      (proposals.insertionSort (GoesBefore request.deterministicSeed)).Pairwise
        (GoesBefore request.deterministicSeed) := List.pairwise_insertionSort _
  refine ⟨(hsorted proposals).sublist (uniqueProposals_sublist _ _), uniqueProposals_nodup _ _,
    fun proposal hmem => exists_uniqueProposals (GoesBefore.refl _) (hsorted proposals)
      ((List.mem_insertionSort _).mpr hmem) List.not_mem_nil, fun proposals' hperm => ?_⟩
  have hsame : proposals'.insertionSort (GoesBefore request.deterministicSeed) =
      proposals.insertionSort (GoesBefore request.deterministicSeed) := by
    refine List.Perm.eq_of_pairwise (fun left right hleft hright h h' => ?_) (hsorted proposals')
      (hsorted proposals) ((List.perm_insertionSort _ _).trans
        (hperm.trans (List.perm_insertionSort _ _).symm))
    refine hids left (hperm.mem_iff.mp ((List.mem_insertionSort _).mp hleft)) right
      ((List.mem_insertionSort _).mp hright) (h.proposalId_eq h')
  unfold orderedProposals
  rw [hsame]

end Order

/-- Proposals are hashed by the transformation that they carry. -/
def transformationHashes : SearchHashes ℚ where
  planned payload := payload.transformationHash
  dag _ := "dag"
  update _ := "update"
  archive _ := "archive"
  trace _ := "trace"

def sampleRequest : SearchRequest where
  searchRequestId := "search_request_one"
  orderedOpportunityIds := ["opp_tree"]
  requiredCorrectnessClass := .primaryStrict
  candidateBudget := 47
  formalBudget := 43
  physicalBudget := 41
  tokenBudget := 9973
  latencyBudgetMs := 9967
  deterministicSeed := 7
  stopPolicyHash := CandidateDag.sampleHash
  createdAt := 0
  opportunities_ne := List.cons_ne_nil _ _
  opportunities_nodup := List.nodup_singleton _
  formal_le := by decide
  physical_le := by decide
  physical_pos := by decide
  token_pos := by decide
  latency_pos := by decide

def samplePlanned (proposalId : EntityId) (transformationHash : String) (priority : ℚ) :
    transformationHashes.Proposal where
  opportunityId := "opp_tree"
  parentCandidateId := "cand_root"
  operation := "BALANCE_BOOLEAN_TREE"
  transformationHash
  priority
  proposalId
  proposalHash := transformationHash
  hash_canonical := rfl

theorem orderedProposals_canonical_sample :
    (orderedProposals sampleRequest [samplePlanned "proposal_low" "low" 1,
        samplePlanned "proposal_high" "high" 2]).Pairwise
          (GoesBefore sampleRequest.deterministicSeed) ∧
      ∀ proposals' : List transformationHashes.Proposal,
        proposals'.Perm [samplePlanned "proposal_low" "low" 1,
          samplePlanned "proposal_high" "high" 2] →
        orderedProposals sampleRequest proposals' = orderedProposals sampleRequest
          [samplePlanned "proposal_low" "low" 1, samplePlanned "proposal_high" "high" 2] := by
  have hcanonical := orderedProposals_canonical sampleRequest
    [samplePlanned "proposal_low" "low" 1, samplePlanned "proposal_high" "high" 2] le_total
    (by simp [samplePlanned])
  exact ⟨hcanonical.1, hcanonical.2.2.2⟩

end NovaRtl.Search
