import Mathlib.Data.List.MinMax
import Mathlib.Data.Prod.Lex
import NovaRtl.Orchestrator.Ledger
import NovaRtl.Recovery.Execution
import NovaRtl.Search.Dag
import NovaRtl.Search.Pareto
import NovaRtl.Text.Sha256
import NovaRtl.Transact.Ends

/-!
# The search controller

`SearchController.run` of `search/controller.py`: plan, deduplicate, materialize, evaluate, ledger,
rank and stop. The callbacks are computations on a state of their own, so that they may answer or
raise whatever they like. The archive, the DAG and the ledger outlive a run that raises; the local
variables of the run do not, except that the evaluations it started are kept as a record of what
happened.
-/

namespace NovaRtl.Search

open Orchestrator Transact

/-! ## Contracts -/

structure SearchRequest where
  searchRequestId : EntityId
  orderedOpportunityIds : List EntityId
  requiredCorrectnessClass : SelectionClass
  candidateBudget : ℕ
  formalBudget : ℕ
  physicalBudget : ℕ
  tokenBudget : ℕ
  latencyBudgetMs : ℕ
  deterministicSeed : ℕ
  stopPolicyHash : String
  createdAt : ℕ
  opportunities_ne : orderedOpportunityIds ≠ []
  opportunities_nodup : orderedOpportunityIds.Nodup
  formal_le : formalBudget ≤ candidateBudget
  physical_le : physicalBudget ≤ formalBudget
  physical_pos : 0 < physicalBudget
  token_pos : 0 < tokenBudget
  latency_pos : 0 < latencyBudgetMs

structure SearchStopPolicy where
  maxCandidatesWithoutParetoImprovement : ℕ
  stopOnFirstFeasible : Bool
  policyHash : String
  max_pos : 0 < maxCandidatesWithoutParetoImprovement

/-- What the hash of a planned candidate covers. -/
structure PlannedPayload (Value : Type) where
  opportunityId : EntityId
  parentCandidateId : EntityId
  operation : String
  transformationHash : String
  priority : Value

structure PlannedCandidate (Value : Type) (plannedSha256 : PlannedPayload Value → String) extends
    PlannedPayload Value where
  proposalId : EntityId
  proposalHash : String
  hash_canonical : proposalHash = plannedSha256 toPlannedPayload

structure PlannerBatch (Proposal : Type) where
  proposals : List Proposal
  plannerResultIds : List EntityId
  councilResultIds : List EntityId
  tokens : ℕ
  latencyMs : ℕ
  plannerResultIds_nodup : plannerResultIds.Nodup
  councilResultIds_nodup : councilResultIds.Nodup

/-- The cost that is known before an evaluator executes. -/
structure EvaluationCost where
  formalJobs : ℕ
  physicalJobs : ℕ
  tokens : ℕ
  latencyMs : ℕ
  physical_le : physicalJobs ≤ formalJobs
  deriving DecidableEq

structure CandidateEvaluation (Value Artifact : Type) (artifactId : Artifact → EntityId) where
  candidateId : EntityId
  experimentRecord : ExperimentRecord
  paretoRecord : Option (ParetoRecord Value)
  artifactRefs : List Artifact
  consumedCost : EvaluationCost
  terminalDisposition : String
  artifactRefs_ne : artifactRefs ≠ []
  record_candidate : experimentRecord.candidateId = candidateId
  pareto_candidate : ∀ record ∈ paretoRecord, record.candidateId = candidateId
  artifactIds_nodup : (artifactRefs.map artifactId).Nodup

structure ConsumedSearchBudgets where
  candidates : ℕ
  formalJobs : ℕ
  physicalJobs : ℕ
  tokens : ℕ
  latencyMs : ℕ
  physical_le : physicalJobs ≤ formalJobs
  formal_le : formalJobs ≤ candidates
  deriving DecidableEq

/-- The summary of a search that its result names as an artifact. -/
structure SearchTrace where
  searchRequestId : EntityId
  orderedProposalIds : List EntityId
  rejectedProposalIds : List EntityId
  proposalDispositions : List (EntityId × String)
  evaluatedCandidateIds : List EntityId
  feasibleCandidateIds : List EntityId
  consumedBudgets : ConsumedSearchBudgets
  candidateDagHash : String
  paretoArchiveHash : String
  stopReasonCode : String

inductive SearchStatus where
  | completed
  | budgetExhausted
  | noFeasibleCandidate
  | stoppedByPolicy
  deriving DecidableEq, Repr

structure SearchResult (Artifact : Type) where
  searchResultId : EntityId
  searchRequestId : EntityId
  status : SearchStatus
  orderedCandidateIds : List EntityId
  feasibleCandidateIds : List EntityId
  paretoCandidateIds : List EntityId
  selectedCandidateId : Option EntityId
  stopReasonCode : String
  consumedBudgets : ConsumedSearchBudgets
  plannerResultIds : List EntityId
  councilResultIds : List EntityId
  recoveryDecisionIds : List EntityId
  eventSequenceRange : ℕ × ℕ
  artifactRefs : List Artifact
  completedAt : ℕ

def noSafeSourceMatch : String := "NO_SAFE_SOURCE_MATCH"

/-- `SearchTrace.hash_is_canonical`, but for the hash itself. -/
def SearchTrace.check (trace : SearchTrace) : Except String Unit := do
  require trace.orderedProposalIds.Nodup "ordered search proposals must be unique"
  require (sortedSet (trace.proposalDispositions.map Prod.fst) =
      sortedSet trace.orderedProposalIds)
    "every ordered proposal requires one disposition"
  require (sortedSet trace.rejectedProposalIds =
      sortedSet ((trace.proposalDispositions.filter (·.2 = noSafeSourceMatch)).map Prod.fst))
    "rejected proposal identities and dispositions differ"

/-- `SearchResult.terminal_sets_are_nested_and_coherent` -/
def SearchResult.check {Artifact : Type} (artifactId : Artifact → EntityId)
    (result : SearchResult Artifact) : Except String Unit := do
  requireUnique result.orderedCandidateIds "ordered candidate IDs"
  requireUnique result.feasibleCandidateIds "feasible candidate IDs"
  requireUnique result.paretoCandidateIds "Pareto candidate IDs"
  requireUnique result.plannerResultIds "planner result IDs"
  requireUnique result.councilResultIds "council result IDs"
  requireUnique result.recoveryDecisionIds "recovery decision IDs"
  require (result.feasibleCandidateIds ⊆ result.orderedCandidateIds)
    "feasible candidates must be evaluated candidates"
  require (result.paretoCandidateIds ⊆ result.feasibleCandidateIds)
    "Pareto candidates must be feasible candidates"
  require (∀ selected ∈ result.selectedCandidateId, selected ∈ result.paretoCandidateIds)
    "selected candidate must be on the Pareto frontier"
  require (result.status = .completed → result.selectedCandidateId ≠ none)
    "COMPLETED search requires a selected candidate"
  require (result.status = .noFeasibleCandidate → result.feasibleCandidateIds = [] ∧
      result.paretoCandidateIds = [] ∧ result.selectedCandidateId = none)
    "NO_FEASIBLE_CANDIDATE cannot contain feasible results"
  require (result.eventSequenceRange.1 ≤ result.eventSequenceRange.2)
    "event sequence range must increase"
  requireUnique (result.artifactRefs.map artifactId) "search artifact IDs"

/-! ## Callbacks and state -/

inductive SearchError (ε : Type) where
  /-- `SearchControllerError` -/
  | controller (text : String)
  /-- `ValidationError` -/
  | invalid (text : String)
  | dag (e : CandidateDagError)
  | archive (e : ParetoError)
  | ledger (e : StateError)
  | callback (e : ε)

/-- The identities that are canonical hashes. -/
structure SearchHashes (Value : Type) where
  planned : PlannedPayload Value → String
  dag : EntityId × List CandidateRecord → String
  update : ParetoUpdatePayload → String
  archive : ParetoArchivePayload Value → String
  trace : SearchTrace → String

section Controller

variable {Value Artifact ω ε : Type} {artifactId : Artifact → EntityId}
  {hashes : SearchHashes Value}

/-- A planned candidate whose hash is the one of the search. -/
abbrev SearchHashes.Proposal (hashes : SearchHashes Value) : Type :=
  PlannedCandidate Value hashes.planned

/-- The trusted callbacks, the ledger's database and the artifact store. -/
structure SearchCallbacks (hashes : SearchHashes Value) (artifactId : Artifact → EntityId)
    (ω ε : Type) where
  propose : SearchRequest → EntityId → EStateM ε ω (PlannerBatch hashes.Proposal)
  estimate : hashes.Proposal → EStateM ε ω EvaluationCost
  materialize : hashes.Proposal → EStateM ε ω (Option CandidateRecord)
  evaluate : CandidateRecord → EStateM ε ω (CandidateEvaluation Value Artifact artifactId)
  recovery : Option (CandidateRecord → CandidateEvaluation Value Artifact artifactId →
    EStateM ε ω (Recovery.RecoveryApplication Artifact))
  publishTrace : SearchTrace → EStateM ε ω Artifact
  ledgerFails : ω → Point → Bool

/-- The local variables of the loop. -/
structure SearchLocals (Artifact : Type) where
  used : ConsumedSearchBudgets
  evaluatedIds : List EntityId
  feasibleIds : List EntityId
  rejectedProposalIds : List EntityId
  proposalDispositions : List (EntityId × String)
  sourceHashes : List String
  patchHashes : List String
  artifacts : List Artifact
  recoveryIds : List EntityId
  budgetExhausted : Bool
  /-- The reason code of a stop by policy. -/
  policyStop : Option String
  candidatesWithoutImprovement : ℕ

def SearchLocals.start (tokens latencyMs : ℕ) : SearchLocals Artifact :=
  ⟨⟨0, 0, 0, tokens, latencyMs, le_refl 0, le_refl 0⟩, [], [], [], [], [], [], [], [], false, none,
    0⟩

/-- What the planner has answered so far. -/
structure Planned (Proposal : Type) where
  proposals : List Proposal
  plannerIds : List EntityId
  councilIds : List EntityId
  tokens : ℕ
  latencyMs : ℕ

def Planned.add {Proposal : Type} (planned : Planned Proposal) (batch : PlannerBatch Proposal) :
    Planned Proposal where
  proposals := planned.proposals ++ batch.proposals
  plannerIds := planned.plannerIds ++ batch.plannerResultIds
  councilIds := planned.councilIds ++ batch.councilResultIds
  tokens := planned.tokens + batch.tokens
  latencyMs := planned.latencyMs + batch.latencyMs

structure SearchState (hashes : SearchHashes Value) (Artifact ω : Type) where
  world : ω
  archive : ParetoArchive Value
  dag : CandidateDag
  database : Database
  planned : Planned hashes.Proposal
  locals : SearchLocals Artifact
  /-- The evaluations that the run started, with the cost they were authorized for. -/
  started : List (CandidateRecord × EvaluationCost)

abbrev SearchM (hashes : SearchHashes Value) (Artifact ω ε : Type) : Type → Type :=
  EStateM (SearchError ε) (SearchState hashes Artifact ω)

def askCallback {α : Type} (x : EStateM ε ω α) : SearchM hashes Artifact ω ε α :=
  onPart SearchState.world (fun world s => { s with world }) (x.adaptExcept .callback)

/-- Change the local variables. -/
def modifyLocals (f : SearchLocals Artifact → SearchLocals Artifact) :
    SearchM hashes Artifact ω ε Unit :=
  modify fun s => { s with locals := f s.locals }

def orInvalid (x : Except String Unit) : SearchM hashes Artifact ω ε Unit :=
  ofExcept (x.mapError .invalid)

/-! ## Planning -/

variable (callbacks : SearchCallbacks hashes artifactId ω ε)

/-- The proposals for one opportunity. -/
def planStep (request : SearchRequest) (opportunityId : EntityId) :
    SearchM hashes Artifact ω ε Unit := do
  let batch ← askCallback (callbacks.propose request opportunityId)
  modify fun s => { s with planned := s.planned.add batch }
  let planned := (← get).planned
  check (planned.tokens ≤ request.tokenBudget ∧ planned.latencyMs ≤ request.latencyBudgetMs)
    (.controller "planner exceeded its declared search budget")

/-- `_tie_key` -/
def tieKey (seed : ℕ) (proposal : hashes.Proposal) : String :=
  String.ofList (Text.Sha256.hexOfBytes
    (Text.encode (toString seed ++ ":" ++ proposal.proposalHash)))

/-- The identities that order proposals of one priority. -/
def orderKey (seed : ℕ) (proposal : hashes.Proposal) : String ×ₗ EntityId :=
  toLex (tieKey seed proposal, proposal.proposalId)

section Order

variable [Preorder Value]

/-- The higher priority first, then the lower tie key and the lower identity. -/
def GoesBefore (seed : ℕ) (left right : hashes.Proposal) : Prop :=
  right.priority < left.priority ∨
    (right.priority ≤ left.priority ∧ left.priority ≤ right.priority) ∧
      orderKey seed left ≤ orderKey seed right

instance [DecidableLE Value] [DecidableLT Value] (seed : ℕ) :
    DecidableRel (GoesBefore seed : hashes.Proposal → hashes.Proposal → Prop) :=
  fun _ _ => inferInstanceAs (Decidable (_ ∨ _))

end Order

/-- The first proposal of each hash that has not been seen. -/
def uniqueProposals (seen : List String) : List hashes.Proposal → List hashes.Proposal
  | [] => []
  | proposal :: rest =>
    if proposal.proposalHash ∈ seen then uniqueProposals seen rest
    else proposal :: uniqueProposals (proposal.proposalHash :: seen) rest

/-! ## The loop -/

/-- `_fits` -/
def Fits (request : SearchRequest) (used : ConsumedSearchBudgets) (cost : EvaluationCost) : Prop :=
  used.candidates + 1 ≤ request.candidateBudget ∧
    used.formalJobs + cost.formalJobs ≤ request.formalBudget ∧
    used.physicalJobs + cost.physicalJobs ≤ request.physicalBudget ∧
    used.tokens + cost.tokens ≤ request.tokenBudget ∧
    used.latencyMs + cost.latencyMs ≤ request.latencyBudgetMs

instance (request : SearchRequest) (used : ConsumedSearchBudgets) (cost : EvaluationCost) :
    Decidable (Fits request used cost) :=
  inferInstanceAs (Decidable (_ ∧ _))

/-- The budgets with one more candidate, unless the counts are out of cascade order. -/
def ConsumedSearchBudgets.charge (used : ConsumedSearchBudgets) (cost : EvaluationCost) :
    Except String ConsumedSearchBudgets :=
  if hformal : used.formalJobs + cost.formalJobs ≤ used.candidates + 1 then
    .ok { candidates := used.candidates + 1
          formalJobs := used.formalJobs + cost.formalJobs
          physicalJobs := used.physicalJobs + cost.physicalJobs
          tokens := used.tokens + cost.tokens
          latencyMs := used.latencyMs + cost.latencyMs
          physical_le := Nat.add_le_add used.physical_le cost.physical_le
          formal_le := hformal }
  else .error "consumed physical/formal/candidate counts violate cascade order"

/-- `dictionary[key] = value` -/
def assignDisposition (dispositions : List (EntityId × String)) (id : EntityId)
    (disposition : String) : List (EntityId × String) :=
  if id ∈ dispositions.map Prod.fst then
    dispositions.map fun item => if item.1 = id then (id, disposition) else item
  else dispositions ++ [(id, disposition)]

/-- `dictionary.setdefault(key, value)` -/
def defaultDisposition (disposition : String) (dispositions : List (EntityId × String))
    (id : EntityId) : List (EntityId × String) :=
  if id ∈ dispositions.map Prod.fst then dispositions else dispositions ++ [(id, disposition)]

/-- Collect artifacts by identity; one that is there already has to be the same. -/
def collectArtifacts [DecidableEq Artifact] (artifactId : Artifact → EntityId) :
    List Artifact → List Artifact → Except (SearchError ε) (List Artifact)
  | artifacts, [] => .ok artifacts
  | artifacts, ref :: refs =>
    match artifacts.find? fun previous => artifactId previous = artifactId ref with
    | none => collectArtifacts artifactId (artifacts ++ [ref]) refs
    | some previous =>
      if previous = ref then collectArtifacts artifactId artifacts refs
      else .error (.controller "artifact identity resolves to conflicting evidence")

/-- Whether the loop goes on. -/
inductive Signal where
  | next
  | stop
  deriving DecidableEq

/-- Run an append of the ledger on the database. -/
def appendToLedger (E : Encoding ExperimentRecord) (record : ExperimentRecord) :
    SearchM hashes Artifact ω ε Unit := do
  let fails := callbacks.ledgerFails (← get).world
  onPart SearchState.database (fun database s => { s with database })
    ((E.appendRecord false fails record).adaptExcept .ledger)

section Loop

variable [Preorder Value] [DecidableLE Value] [DecidableLT Value] [DecidableEq Artifact]
  (policy : SearchStopPolicy) (E : Encoding ExperimentRecord) (request : SearchRequest)

/-- Archive what the evaluation found feasible, and count the candidates without an improvement. -/
def archiveRecord (candidate : CandidateRecord) :
    Option (ParetoRecord Value) → SearchM hashes Artifact ω ε Unit
  | none => modifyLocals fun l =>
      { l with candidatesWithoutImprovement := l.candidatesWithoutImprovement + 1 }
  | some record => do
    let s ← get
    let (answer, archive) := s.archive.add hashes.update record
    modify fun s => { s with archive }
    match answer with
    | .error e => throw (.archive e)
    | .ok _ => modifyLocals fun l =>
        { l with
          feasibleIds := l.feasibleIds ++ [candidate.candidateId]
          candidatesWithoutImprovement :=
            if (archive.frontier record.correctnessContract).map ParetoRecord.candidateId ≠
                (s.archive.frontier record.correctnessContract).map ParetoRecord.candidateId then 0
            else l.candidatesWithoutImprovement + 1 }

/-- The recovery of an evaluation that is neither feasible nor selected: the record to append and
the artifacts of the recovery. -/
def recoverEvaluation (candidate : CandidateRecord)
    (evaluation : CandidateEvaluation Value Artifact artifactId) :
    SearchM hashes Artifact ω ε (ExperimentRecord × List Artifact) :=
  match callbacks.recovery with
  | none => return (evaluation.experimentRecord, [])
  | some recover =>
    if evaluation.terminalDisposition ∈ ["FEASIBLE_PARETO", "SELECTED"] then
      return (evaluation.experimentRecord, [])
    else do
      let application ← askCallback (recover candidate evaluation)
      check (application.experimentRecord.candidateId = candidate.candidateId)
        (.controller "recovery returned the wrong candidate identity")
      modifyLocals fun l =>
        { l with recoveryIds := l.recoveryIds ++ [application.recoveryDecisionId] }
      return (application.experimentRecord, application.artifactRefs)

/-- What follows the archive: the artifacts, the disposition, the budgets and the stop policy. -/
def settleEvaluation (proposal : hashes.Proposal) (estimated : EvaluationCost)
    (candidate : CandidateRecord) (evaluation : CandidateEvaluation Value Artifact artifactId)
    (recoveryArtifacts : List Artifact) : SearchM hashes Artifact ω ε Signal := do
  let artifacts ← ofExcept (collectArtifacts artifactId (← get).locals.artifacts
    (evaluation.artifactRefs ++ recoveryArtifacts))
  let used ← ofExcept (((← get).locals.used.charge estimated).mapError .invalid)
  modifyLocals fun l =>
    { l with
      artifacts
      evaluatedIds := l.evaluatedIds ++ [candidate.candidateId]
      proposalDispositions := assignDisposition l.proposalDispositions proposal.proposalId
        evaluation.terminalDisposition
      used }
  if evaluation.paretoRecord.isSome ∧ policy.stopOnFirstFeasible then
    modifyLocals fun l => { l with policyStop := some "FIRST_FEASIBLE_ACCEPTED" }
    return .stop
  else if policy.maxCandidatesWithoutParetoImprovement ≤
      (← get).locals.candidatesWithoutImprovement then
    modifyLocals fun l => { l with policyStop := some "PARETO_STAGNATION" }
    return .stop
  else return .next

/-- The evaluation of a candidate whose cost fits. -/
def evaluateCandidate (proposal : hashes.Proposal) (estimated : EvaluationCost)
    (candidate : CandidateRecord) : SearchM hashes Artifact ω ε Signal := do
  modify fun s => { s with started := s.started ++ [(candidate, estimated)] }
  let evaluation ← askCallback (callbacks.evaluate candidate)
  check (evaluation.candidateId = candidate.candidateId)
    (.controller "evaluator returned the wrong candidate identity")
  check (evaluation.consumedCost = estimated)
    (.controller "evaluator cost differs from its pre-execution estimate")
  let (record, recoveryArtifacts) ← recoverEvaluation callbacks candidate evaluation
  appendToLedger callbacks E record
  archiveRecord candidate evaluation.paretoRecord
  settleEvaluation policy proposal estimated candidate evaluation recoveryArtifacts

/-- One proposal of the loop. -/
def searchStep (proposal : hashes.Proposal) : SearchM hashes Artifact ω ε Signal := do
  let estimated ← askCallback (callbacks.estimate proposal)
  if Fits request (← get).locals.used estimated then
    match ← askCallback (callbacks.materialize proposal) with
    | none =>
      modifyLocals fun l =>
        { l with
          rejectedProposalIds := l.rejectedProposalIds ++ [proposal.proposalId]
          proposalDispositions := assignDisposition l.proposalDispositions proposal.proposalId
            noSafeSourceMatch }
      return .next
    | some candidate =>
      check (candidate.proposalId = proposal.proposalId)
        (.controller "materialized candidate does not bind its proposal")
      let s ← get
      if candidate.sourceHash ∈ s.locals.sourceHashes ∨
          candidate.patchHash ∈ s.locals.patchHashes then
        return .next
      else
        let dag ← ofExcept ((s.dag.add candidate).mapError .dag)
        modify fun s => { s with dag }
        modifyLocals fun l =>
          { l with
            sourceHashes := l.sourceHashes ++ [candidate.sourceHash]
            patchHashes := l.patchHashes ++ [candidate.patchHash] }
        evaluateCandidate callbacks policy E proposal estimated candidate
  else
    modifyLocals fun l => { l with budgetExhausted := true }
    return .stop

def searchLoop : List hashes.Proposal → SearchM hashes Artifact ω ε Unit
  | [] => return ()
  | proposal :: rest => do
    match ← searchStep callbacks policy E request proposal with
    | .next => searchLoop rest
    | .stop => return ()

/-! ## The result -/

/-- The selected record: the first of the lowest rank and identity. -/
def selectRecord (frontier : List (ParetoRecord Value)) : Option (ParetoRecord Value) :=
  frontier.argmin fun record => toLex (record.objectivePolicyRank, record.candidateId)

def SearchLocals.outcome (l : SearchLocals Artifact) (selected : Option EntityId) :
    SearchStatus × String :=
  match l.policyStop with
  | some reason => (.stoppedByPolicy, reason)
  | none =>
    if l.budgetExhausted then (.budgetExhausted, "SEARCH_BUDGET_EXHAUSTED")
    else if selected = none then (.noFeasibleCandidate, "NO_FEASIBLE_CANDIDATE")
    else (.completed, "OPPORTUNITIES_EXHAUSTED")

/-- The disposition of the proposals that the loop left without one. -/
def SearchLocals.pendingDisposition (l : SearchLocals Artifact) : String :=
  if l.policyStop.isSome then "NOT_ATTEMPTED_POLICY"
  else if l.budgetExhausted then "NOT_ATTEMPTED_BUDGET"
  else noSafeSourceMatch

def SearchState.trace (s : SearchState hashes Artifact ω) (unique : List hashes.Proposal)
    (stopReason : String) : SearchTrace where
  searchRequestId := request.searchRequestId
  orderedProposalIds := unique.map PlannedCandidate.proposalId
  rejectedProposalIds := s.locals.rejectedProposalIds
  proposalDispositions := ((unique.map PlannedCandidate.proposalId).foldl
    (defaultDisposition s.locals.pendingDisposition) s.locals.proposalDispositions).insertionSort
      fun item item' => item.1 ≤ item'.1
  evaluatedCandidateIds := s.locals.evaluatedIds
  feasibleCandidateIds := s.locals.feasibleIds
  consumedBudgets := s.locals.used
  candidateDagHash := hashes.dag (s.dag.rootCandidateId,
    s.dag.candidates.insertionSort fun c c' => c.candidateId ≤ c'.candidateId)
  paretoArchiveHash := (s.archive.snapshot hashes.archive).archiveHash
  stopReasonCode := stopReason

/-- `hash[-16:]` -/
def lastDigits (hash : String) : String :=
  String.ofList (hash.toList.drop (hash.toList.length - 16))

/-- The artifacts of the run with the trace in the place of its identity, by identity. -/
def artifactRefs (artifactId : Artifact → EntityId) (artifacts : List Artifact)
    (traceRef : Artifact) : List Artifact :=
  (artifacts.filter (fun ref => artifactId ref ≠ artifactId traceRef) ++ [traceRef]).insertionSort
    fun ref ref' => artifactId ref ≤ artifactId ref'

def concludeSearch (unique : List hashes.Proposal) :
    SearchM hashes Artifact ω ε (SearchResult Artifact) := do
  let s ← get
  let frontier := s.archive.frontier request.requiredCorrectnessClass.expected
  let selected := (selectRecord frontier).map ParetoRecord.candidateId
  let (status, stopReason) := s.locals.outcome selected
  let trace := s.trace request unique stopReason
  orInvalid trace.check
  let traceRef ← askCallback (callbacks.publishTrace trace)
  let result : SearchResult Artifact :=
    { searchResultId := "search_result_" ++ lastDigits (hashes.trace trace)
      searchRequestId := request.searchRequestId
      status
      orderedCandidateIds := s.locals.evaluatedIds
      feasibleCandidateIds := s.locals.feasibleIds
      paretoCandidateIds := frontier.map ParetoRecord.candidateId
      selectedCandidateId := selected
      stopReasonCode := stopReason
      consumedBudgets := s.locals.used
      plannerResultIds := s.planned.plannerIds.eraseDups
      councilResultIds := s.planned.councilIds.eraseDups
      recoveryDecisionIds := s.locals.recoveryIds.eraseDups
      eventSequenceRange := (0, s.locals.evaluatedIds.length)
      artifactRefs := artifactRefs artifactId s.locals.artifacts traceRef
      completedAt := request.createdAt }
  orInvalid (result.check artifactId)
  return result

/-- The proposals in the order of the loop. -/
def orderedProposals (proposals : List hashes.Proposal) : List hashes.Proposal :=
  uniqueProposals [] (proposals.insertionSort (GoesBefore request.deterministicSeed))

/-- The run after its planning. -/
def searchPlanned : SearchM hashes Artifact ω ε (SearchResult Artifact) := do
  let planned := (← get).planned
  let unique := orderedProposals request planned.proposals
  modifyLocals fun _ => .start planned.tokens planned.latencyMs
  searchLoop callbacks policy E request unique
  concludeSearch callbacks request unique

/-- `SearchController.run` -/
def run : SearchM hashes Artifact ω ε (SearchResult Artifact) := do
  modify fun s => { s with planned := ⟨[], [], [], 0, 0⟩, locals := .start 0 0, started := [] }
  check (request.stopPolicyHash = policy.policyHash)
    (.controller "search request does not bind the active stop policy")
  request.orderedOpportunityIds.forM (planStep callbacks request)
  searchPlanned callbacks policy E request

end Loop

end Controller

end NovaRtl.Search
