import NovaRtl.Planner.CouncilRuns
import NovaRtl.Planner.Redaction

/-!
# Deliberations that return

What it takes for each part of a deliberation to return, and a council whose roles answer.
-/

namespace NovaRtl.Planner

open Text Transact

variable {φ : Type} {F : Floats φ}

/-! ## Rounds and contexts that return -/

section Returns

variable {policy : CouncilPolicy} {deadlineMs : ℕ} {calls : List (CouncilRoleCall φ)}
  {invoke : CouncilRoleCall φ → ℕ → Option (CouncilRoleOutcome φ)}
  {respond : CouncilRoleCall φ → CouncilRoleOutcome φ}

/-- A round returns if its roles answer within their budgets. -/
theorem runRoleRound_returns (hcalls : calls ≠ [] ∧ calls.length ≤ policy.fanOutLimit)
    (hroles : (calls.map CouncilRoleCall.roleId).Nodup)
    (hdeadline : 0 < deadlineMs ∧ deadlineMs ≤ policy.deadlineSeconds * 1000)
    (hbudgets : ∀ call ∈ calls, 0 < call.tokenBudget ∧ (respond call).tokens ≤ call.tokenBudget)
    (hinvoke : ∀ call ∈ calls, invoke call deadlineMs = some (respond call))
    (horder : ∀ call ∈ calls, (respond call).roleId = call.roleId.text)
    (htotal : (calls.map fun call => (respond call).tokens).sum ≤ policy.maxAggregateTokens)
    (completed : List (CouncilRoleOutcome φ)) :
    runRoleRound policy invoke deadlineMs calls completed =
      .ok (calls.map respond) (completed ++ calls.map respond) := by
  refine runRoleRound_ok.mpr ⟨⟨hcalls, hroles, hdeadline, fun call hcall => (hbudgets call hcall).1,
    ?_, ?_, ?_, fun pair hpair => ?_⟩, rfl⟩
  · rw [List.forall₂_map_right_iff, List.forall₂_same]
    exact hinvoke
  · rw [List.map_map]
    exact List.map_congr_left horder
  · rwa [List.map_map]
  · have htokens : List.Forall₂ (fun call outcome => outcome.tokens ≤ call.tokenBudget) calls
        (calls.map respond) := by
      rw [List.forall₂_map_right_iff, List.forall₂_same]
      exact fun call hcall => (hbudgets call hcall).2
    exact List.forall₂_zip htokens hpair

variable {runtime : CouncilRuntime φ} {requests ordered : List ContextRequest}
  {plannerRequest : PlannerRequest} {proposerRoles : List CouncilRole}
  {commonEnvelope : List (String × Json φ)} {provider : InMemoryEvidenceProvider F}
  {store : ArtifactStore} {packs : List RoleContextPack} {audit after : AuditLog}

/-- The contexts are those of the requests, which differ. -/
theorem buildBlindedProposerContexts_returns
    (hordered : blindedRequests requests proposerRoles = .ok ordered)
    (hpacks : (ordered.mapM fun request => buildContext runtime.lower runtime.hashRecord provider
      store commonEnvelope request plannerRequest) audit = .ok packs after)
    (hnodup : (packs.map RoleContextPack.privatePackHash).Nodup) :
    buildBlindedProposerContexts runtime requests plannerRequest proposerRoles commonEnvelope
      provider store audit = .ok packs after := by
  unfold buildBlindedProposerContexts
  rw [hordered]
  exact ofExcept_bind_ok.mpr ⟨_, rfl, bind_ok.mpr ⟨packs, after, adaptExcept_ok.mpr hpacks,
    check_bind_ok.mpr ⟨hnodup, rfl⟩⟩⟩

end Returns

/-! ## A council whose roles answer -/

/-- The one float of a proposal. -/
def halfFloats : Floats Unit where
  repr _ := ['0', '.', '5']
  ofRepr text := if text = ['0', '.', '5'] then some () else none
  ofRepr_repr _ := rfl
  repr_chars _ := by decide
  repr_float _ := by decide

theorem diagnosisTree_isEntityId : isEntityId "diagnosis_tree" := by decide +kernel

/-- A proposal for the Boolean tree that is given up when the condition is met. -/
def treeProposal (proposalId : Identifier) (abort : StableUpperString) :
    OptimizationProposal Unit where
  proposalId
  parentCandidateId := sampleCandidate
  opportunityId := sampleOpportunityId
  diagnosisRefs := [⟨"diagnosis_tree", diagnosisTree_isEntityId⟩]
  target := ⟨"top", sampleSpan, "cone:v1:tree"⟩
  transformation :=
    { operation := balanceBooleanTree
      family := logicRestructuring
      parameters := [("operator", .str "&")]
      parameters_ne := by simp
      names_nodup := by simp }
  preconditions := [sampleToken]
  correctness := ⟨.strictSeqEquiv, "top", sampleToken⟩
  prediction := ⟨.improve, .neutral, ()⟩
  evidenceRefs := [sampleEvidence]
  abortConditions := [abort]
  diagnosis_ne := (sampleProposal proposalId).diagnosis_ne
  abort_ne := by simp
  diagnosis_nodup := (sampleProposal proposalId).diagnosis_nodup
  preconditions_nodup := (sampleProposal proposalId).preconditions_nodup
  abort_nodup := by simp
  unprotected := (sampleProposal proposalId).unprotected
  refs_snapshot := sampleEvidence_snapshot
  target_cited := (sampleProposal proposalId).target_cited

def areaProposal : OptimizationProposal Unit :=
  treeProposal ⟨"proposal_area", by decide +kernel⟩ ⟨"AREA_GROWS", by decide +kernel⟩

def delayProposal : OptimizationProposal Unit :=
  treeProposal ⟨"proposal_delay", by decide +kernel⟩ ⟨"DELAY_GROWS", by decide +kernel⟩

/-- The capabilities of `sampleRegistry` -/
def treeRegistry : TransformRegistry Unit where
  capabilities :=
    [{ metadata := ⟨balanceBooleanTree, logicRestructuring, .strictSeqEquiv⟩
       parameterModel := fun parameters =>
        if parameters = [("operator", .str "&")] then .ok () else .error "operator" }]
  registryHash := sampleRegistryHash
  operations_nodup := by simp

def treeEnvelope : List (String × Json Unit) :=
  (expectedTexts (samplePlannerRequest .agentCouncil)).map (fun item => (item.1, .str item.2)) ++
    [("required_analysis_view_ids", .arr []), ("target_analysis_view_id", .str "view_setup"),
      ("protected_structure_ids", .arr []), ("allowed_transform_operations", .arr []),
      ("allowed_correctness_contracts", .arr []), ("advisory_only", .bool true)]

theorem treeEnvelope_writable : (Json.obj treeEnvelope).writable := by
  simp [treeEnvelope, expectedTexts]

/-- A request of the council that asks for one proposal. -/
def treeRequest (tokenBudget : ℕ) (h : 0 < tokenBudget) : PlannerRequest :=
  { samplePlannerRequest .agentCouncil with
    proposalLimit := 1
    proposalLimit_pos := Nat.one_pos
    tokenBudget
    tokenBudget_pos := h }

def treeContext (tokenBudget : ℕ) (h : 0 < tokenBudget) (contextRequestId : Identifier)
    (role : CouncilRole) : ContextRequest where
  contextRequestId
  plannerRequestId := ⟨"planner_request_one", sampleRequestId_isEntityId⟩
  role := role.id
  commonEnvelopeHash := canonicalHash halfFloats (.obj treeEnvelope) treeEnvelope_writable
  privateEvidenceIds := []
  retrievalAllowlist := []
  snapshotHash := sampleSnapshot
  tokenBudget
  redactionPolicyHash := samplePolicyHash
  private_nodup := List.nodup_nil
  allowlist_nodup := List.nodup_nil
  private_subset := List.nil_subset _
  tokenBudget_pos := h

/-- No evidence is stored. -/
def emptyProvider : InMemoryEvidenceProvider halfFloats where
  objects := []
  grants := []
  policy := ⟨[.sourceSpan], [.publicData]⟩
  objects_nodup := by simp

def areaHash : HashRef :=
  ⟨"sha256:50f06465f042cffe6f30a2bdfbd64ffbc7528ab924d8f3cdd75987f446c06037", by decide +kernel⟩

def delayHash : HashRef :=
  ⟨"sha256:d3255ca5a9663e46a25e2b01ce7df6b9ae5b933c0c6d1c58f2d128888da3eb4e", by decide +kernel⟩

theorem hashes_ordered : areaHash ≠ delayHash ∧ ¬ delayHash < areaHash := by
  decide +kernel

def treeEntries : List (HashRef × OptimizationProposal Unit) :=
  [(areaHash, areaProposal), (delayHash, delayProposal)]

/-- A review of a card without objections. -/
def review (critiqueReportId : Identifier) (critic : CouncilRole) (criticClass : CriticClass)
    (entry : HashRef × OptimizationProposal Unit) : CritiqueReport where
  critiqueReportId
  criticRole := critic.id
  criticClass
  proposalCardId := (card entry).proposalCardId
  objections := []
  objections_nodup := List.nodup_nil
  one_snapshot := by simp

/-- All four reviews. -/
def treeReviews : List CritiqueReport :=
  [review ⟨"review_one", by decide +kernel⟩ .formalCritic .formal (areaHash, areaProposal),
    review ⟨"review_two", by decide +kernel⟩ .formalCritic .formal (delayHash, delayProposal),
    review ⟨"review_three", by decide +kernel⟩ .ppaCritic .ppa (areaHash, areaProposal),
    review ⟨"review_four", by decide +kernel⟩ .ppaCritic .ppa (delayHash, delayProposal)]

def directionsJson : Json Unit :=
  .obj [("timing_direction", .str "IMPROVE"), ("area_direction", .str "NEUTRAL"),
    ("confidence", .float ())]

/-- What a proposer submits for a proposal of the tree. -/
def submission (proposal : OptimizationProposal Unit) : Json Unit :=
  .obj [("schema_version", .int 2), ("proposal_id", .str proposal.proposalId.val),
    ("parent_candidate_id", .str proposal.parentCandidateId.val),
    ("opportunity_id", .str proposal.opportunityId.val),
    ("diagnosis_refs", idsJson proposal.diagnosisRefs), ("target", proposal.target.toJson),
    ("transformation", proposal.transformation.toJson),
    ("preconditions", codesJson proposal.preconditions),
    ("correctness", proposal.correctness.toJson), ("prediction", directionsJson),
    ("evidence_refs", .arr (proposal.evidenceRefs.map EvidenceRef.toJson)),
    ("abort_conditions", codesJson proposal.abortConditions)]

def answer (role : CouncilRole) (output : List (String × Json Unit)) : CouncilRoleOutcome Unit :=
  ⟨role.text, .pass, some output, 1, 1, 1⟩

/-- The PPA critic submits all reviews, and the chair both proposals. -/
def treeAnswer : CouncilRole → List (String × Json Unit)
  | .timingForensics => [("proposals", .arr [submission areaProposal])]
  | .logicDomainSpecialist => [("proposals", .arr [submission delayProposal])]
  | .formalCritic => [("critiques", .arr [])]
  | .ppaCritic => [("critiques", .arr (treeReviews.map CritiqueReport.toJson))]
  | .proposalChair =>
    [("dispositions", .arr []), ("revision_records", .arr []),
      ("final_proposal_ids", .arr [.str "proposal_area", .str "proposal_delay"])]
  | _ => []

def textAt (key : String) : Json Unit → Option String
  | .obj fields =>
    match item? fields key with
    | some (.str text) => some text
    | _ => none
  | _ => none

/-- Of what is submitted the identifiers are read. -/
def treeRuntime : CouncilRuntime Unit where
  lower := asciiLower
  hashRecord := hashOfRecord
  showInstant _ := "1970-01-01T00:00:00Z"
  numberValue _ := 1 / 2
  validateProposal json := [areaProposal, delayProposal].find? fun proposal =>
    textAt "proposal_id" json = some proposal.proposalId.val
  validateCritique json := treeReviews.find? fun report =>
    textAt "critique_report_id" json = some report.critiqueReportId.val
  validateDisposition _ := none
  validateRevision _ := none

theorem oneRevision_le : 1 ≤ 1 := le_refl 1

theorem fanIn_four_pos : 0 < 4 := by decide

def treePolicy : CouncilPolicy where
  maxReasoningRoles := 5
  maxStrategistRoles := 2
  maxFinalProposals := 2
  maxRevisions := 1
  maxAggregateTokens := 30000
  deadlineSeconds := 120
  fanOutLimit := 4
  fanInLimit := 4
  policyHash := samplePolicyHash
  reasoning_bounds := by decide
  strategist_bounds := by decide
  final_bounds := by decide
  revisions_le := oneRevision_le
  tokens_bounds := by decide
  deadline_bounds := by decide
  fanOut_bounds := by decide
  fanIn_pos := fanIn_four_pos
  fanIn_le := by decide

def timingContextId : Identifier := ⟨"context_timing", by decide +kernel⟩

def logicContextId : Identifier := ⟨"context_logic", by decide +kernel⟩

def treePlanner (tokenBudget : ℕ) (h : 0 < tokenBudget) : CouncilPlanner halfFloats where
  contextRequests :=
    [treeContext tokenBudget h timingContextId .timingForensics,
      treeContext tokenBudget h logicContextId .logicDomainSpecialist]
  commonEnvelope := treeEnvelope
  evidenceProvider := emptyProvider
  heuristic := ⟨[], [], treeRegistry, sampleRegistryHash, by simp, by simp⟩
  opportunities := [sampleOpportunity]
  registry := treeRegistry
  policy := treePolicy
  outputSchemaHash := sampleRegistryHash
  runtime := treeRuntime

def treeCall (tokenBudget : ℕ) (h : 0 < tokenBudget) : CouncilCall Unit where
  request := treeRequest tokenBudget h
  store := openStore
  invoke roleCall _ := some (answer roleCall.roleId (treeAnswer roleCall.roleId))

def newState : CouncilState Unit := ⟨[], [], none, none, none, []⟩

/-! ## The run of that council -/

section TreeRun

variable {tokenBudget : ℕ} {h : 0 < tokenBudget} {contextRequestId : Identifier}
  {role : CouncilRole}

theorem treeEnvelope_valid : validateEnvelope halfFloats treeEnvelope
    (treeContext tokenBudget h contextRequestId role) (treeRequest tokenBudget h) = .ok () := by
  have hmissing : requiredEnvelopeKeys.filter (fun key => key ∉ treeEnvelope.map Prod.fst) =
      [] := by
    simp [requiredEnvelopeKeys, treeEnvelope, expectedTexts]
  have htexts : ∀ item ∈ expectedTexts (treeRequest tokenBudget h),
      isText (φ := Unit) item.2 (item? treeEnvelope item.1) := by
    simp [expectedTexts, item?, treeEnvelope, isText, treeRequest]
  have hadvisory : equalsTrue halfFloats (item? treeEnvelope "advisory_only") := by
    simp [item?, treeEnvelope, expectedTexts, equalsTrue]
  have hhash : canonicalSha256 halfFloats (.obj treeEnvelope) =
      some (treeContext tokenBudget h contextRequestId role).commonEnvelopeHash :=
    canonicalSha256_canonicalHash treeEnvelope_writable
  unfold validateEnvelope
  rw [hmissing, hhash]
  simp only [sorted, List.insertionSort_nil, require, if_pos (And.intro htexts hadvisory), if_true]
  rfl

theorem treeFetch (audit : AuditLog) : ∃ after, fetch treeRuntime.hashRecord emptyProvider
    (contextFetch (treeContext tokenBudget h contextRequestId role)) audit = .ok [] after := by
  refine fetch_eq_ok (by simp [contextFetch, treeContext]) ⟨?_, ?_, sampleSnapshot.2⟩ .nil audit
  · cases role <;> simp [contextFetch, treeContext, CouncilRole.id, CouncilRole.text]
  · simp [contextFetch]

/-- The private part of a context without evidence. -/
def emptyPack (role : CouncilRole) : Json Unit :=
  .obj [("role", .str role.text), ("snapshot_hash", .str sampleSnapshot.val),
    ("evidence", .arr [])]

theorem emptyPack_writable (role : CouncilRole) : (emptyPack role).writable := by
  simp [emptyPack]

def packHash (role : CouncilRole) : HashRef :=
  canonicalHash halfFloats (emptyPack role) (emptyPack_writable role)

/-- With enough tokens the context of a role is built. -/
theorem treeContext_built (role : CouncilRole) : ∃ needed, ∀ {tokenBudget : ℕ}
    (h : 0 < tokenBudget) (contextRequestId : Identifier) (audit : AuditLog),
      needed ≤ tokenBudget → ∃ pack after,
        buildContext treeRuntime.lower treeRuntime.hashRecord emptyProvider openStore treeEnvelope
          (treeContext tokenBudget h contextRequestId role) (treeRequest tokenBudget h) audit =
            .ok pack after ∧
        pack.privatePackHash = (packHash role).val ∧ pack.retrievalGrants = [] := by
  obtain ⟨needed, hneeded⟩ := @buildContext_returns _ halfFloats treeRuntime.lower
    treeRuntime.hashRecord emptyProvider openStore treeEnvelope openStore_works
    treeEnvelope_writable _ (emptyPack_writable role)
  refine ⟨needed, fun {tokenBudget} h contextRequestId audit hle => ?_⟩
  obtain ⟨after, hfetch⟩ := @treeFetch _ h contextRequestId role audit
  have hplanner : (treeContext tokenBudget h contextRequestId role).plannerRequestId =
      (treeRequest tokenBudget h).plannerRequestId := rfl
  have hsubset : (treeContext tokenBudget h contextRequestId role).retrievalAllowlist ⊆
      (treeRequest tokenBudget h).authorizedEvidenceIds := List.nil_subset _
  have hjson : privateJson halfFloats treeRuntime.lower
      (treeContext tokenBudget h contextRequestId role) [] = emptyPack role := rfl
  have hcommon : (treeContext tokenBudget h contextRequestId role).commonEnvelopeHash =
      canonicalHash halfFloats (.obj treeEnvelope) treeEnvelope_writable := by
    rw [treeContext]
  obtain ⟨pack, hpack, hhash, hgrants⟩ := hneeded hplanner hsubset rfl treeEnvelope_valid hcommon
    hfetch hjson hle hle
  exact ⟨pack, after, hpack, by rw [packHash]; exact hhash, hgrants⟩

end TreeRun

/-! ## Rounds of that council -/

section TreeRounds

variable {tokenBudget : ℕ} {h : 0 < tokenBudget}

/-- The roles of the council that are not the chair. -/
def treeProposers : List CouncilRole := [.timingForensics, .logicDomainSpecialist]

def treeCritics : List CouncilRole := [.formalCritic, .ppaCritic]

theorem treeBlinded : blindedRequests (treePlanner tokenBudget h).contextRequests treeProposers =
    .ok (treePlanner tokenBudget h).contextRequests := by
  simp [blindedRequests, treePlanner, treeProposers, treeContext, require, Table.lookup,
    CouncilRole.id, CouncilRole.text]
  rfl

/-- What a role answers. -/
def respond (roleCall : CouncilRoleCall Unit) : CouncilRoleOutcome Unit :=
  answer roleCall.roleId (treeAnswer roleCall.roleId)

/-- A round of up to four roles with at least two tokens each returns. -/
theorem treeRound {calls : List (CouncilRoleCall Unit)} (hne : calls ≠ [])
    (hlength : calls.length ≤ 4) (hroles : (calls.map CouncilRoleCall.roleId).Nodup)
    (hbudget : ∀ call ∈ calls, 2 ≤ call.tokenBudget)
    (completed : List (CouncilRoleOutcome Unit)) :
    runRoleRound treePolicy (treeCall tokenBudget h).invoke 1000 calls completed =
      .ok (calls.map respond) (completed ++ calls.map respond) := by
  refine runRoleRound_returns ⟨hne, hlength⟩ hroles (by decide) (fun call hcall => ?_)
    (fun _ _ => rfl) (fun _ _ => rfl) ?_ completed
  · exact ⟨lt_of_lt_of_le Nat.two_pos (hbudget call hcall), Int.ofNat_le.mpr (hbudget call hcall)⟩
  · have htokens : calls.map (fun call => (respond call).tokens) = calls.map fun _ => 2 := rfl
    rw [htokens, List.map_const', List.sum_replicate]
    simp only [treePolicy, nsmul_eq_mul]
    omega

end TreeRounds

section TreeConfer

variable {tokenBudget : ℕ} {h : 0 < tokenBudget}

theorem treeProposals : (treePlanner tokenBudget h).readProposals (treeCall tokenBudget h)
    (treeProposers.map fun role => answer role (treeAnswer role)) =
      .ok [areaProposal, delayProposal] := by
  have hread : readRound treeRuntime.validateProposal "proposals"
      "proposer output schema is invalid"
      (treeProposers.map fun role => answer role (treeAnswer role)) =
        .ok [[areaProposal], [delayProposal]] := rfl
  have harea : proposalIsAuthorized treeRegistry [sampleOpportunity] areaProposal
      (treeRequest tokenBudget h) = some true := rfl
  have hdelay : proposalIsAuthorized treeRegistry [sampleOpportunity] delayProposal
      (treeRequest tokenBudget h) = some true := rfl
  unfold CouncilPlanner.readProposals
  rw [seq_eq_ok, require_eq_ok]
  refine ⟨by simp [Passed, answer], bind_eq_ok.mpr ⟨_, hread, ?_⟩⟩
  rw [seq_eq_ok, require_eq_ok]
  exact ⟨⟨List.cons_ne_nil _ _, List.forall_mem_cons.mpr ⟨harea, List.forall_mem_cons.mpr
    ⟨hdelay, nofun⟩⟩⟩, rfl⟩

theorem treeCritiques : (treePlanner tokenBudget h).readCritiques
    (treeCritics.map fun role => answer role (treeAnswer role)) = .ok [[], treeReviews] := by
  have hread : readRound treeRuntime.validateCritique "critiques"
      "critic output schema is invalid"
      (treeCritics.map fun role => answer role (treeAnswer role)) = .ok [[], treeReviews] := rfl
  unfold CouncilPlanner.readCritiques
  rw [seq_eq_ok, require_eq_ok]
  exact ⟨by simp [Passed, answer], hread⟩

def treeIds : List Identifier := [areaProposal.proposalId, delayProposal.proposalId]

theorem treeShortlisted : Shortlisted treeRuntime.numberValue treePolicy (treeEntries.map card)
    treeReviews [] [] [.str "proposal_area", .str "proposal_delay"] treeIds where
  revisions_le := Nat.zero_le _
  final_le := Nat.le_refl 2
  keys_nodup := ⟨[.text "proposal_area", .text "proposal_delay"], rfl, by simp⟩
  reviewed := List.toFinset_eq_of_perm _ _ (.cons _ (.swap _ _ _))
  dispositioned := rfl
  dispositions_length := rfl
  identified := rfl
  checked := shortlistOf_check.mpr ⟨by decide, by decide⟩

theorem treeClosed : (treePlanner tokenBudget h).close treeEntries ([[], treeReviews].flatten)
    (answer .proposalChair (treeAnswer .proposalChair)) =
      .ok (⟨[], [], [.str "proposal_area", .str "proposal_delay"]⟩, shortlistOf treeIds,
        [areaProposal, delayProposal]) := by
  refine CouncilPlanner.close_eq_ok.mpr ⟨by simp [Passed, answer], rfl, ?_, rfl⟩
  exact buildCouncilShortlist_eq_ok.mpr ⟨treeIds, rfl, treeShortlisted⟩

end TreeConfer

section TreeConvene

variable {tokenBudget : ℕ} {h : 0 < tokenBudget}

/-- The minutes of the council with those packs. -/
def treeMinutes (tokenBudget : ℕ) (h : 0 < tokenBudget) (route : CouncilRoute)
    (packs : List RoleContextPack) : Minutes Unit where
  packs
  proposers := hearings
    ((treePlanner tokenBudget h).proposerCalls (treeCall tokenBudget h) route packs)
    (((treePlanner tokenBudget h).proposerCalls (treeCall tokenBudget h) route packs).map respond)
  critics := hearings
    ((treePlanner tokenBudget h).criticCalls (treeCall tokenBudget h) route (treeEntries.map card))
    (((treePlanner tokenBudget h).criticCalls (treeCall tokenBudget h) route
      (treeEntries.map card)).map respond)
  chair :=
    let roleCall := (treePlanner tokenBudget h).chairCall (treeCall tokenBudget h) route
      (treeEntries.map card) [[], treeReviews].flatten
    ⟨roleCall, respond roleCall⟩
  entries := treeEntries
  critiques := [[], treeReviews]
  dispositions := []
  revisions := []
  shortlist := shortlistOf treeIds
  chosen := [areaProposal, delayProposal]

/-- A route of the roles that answer. -/
structure TreeRoute (route : CouncilRoute) : Prop where
  proposers : route.proposerRoles = treeProposers
  critics : route.criticRoles = treeCritics
  chair : route.chairRole = .proposalChair
  codes_ne : route.reasonCodes ≠ []
  codes_nodup : route.reasonCodes.Nodup

end TreeConvene

section TreeConvened

variable {tokenBudget : ℕ} {h : 0 < tokenBudget}

theorem treeAuthority : (treePlanner tokenBudget h).checkAuthority (treeCall tokenBudget h) =
    .ok sampleOpportunity := by
  unfold CouncilPlanner.checkAuthority
  rw [seq_eq_ok, require_eq_ok, seq_eq_ok, require_eq_ok, seq_eq_ok, require_eq_ok]
  refine ⟨rfl, rfl, rfl, ?_⟩
  have hknown : getOpportunity (treePlanner tokenBudget h).opportunities
      (treeCall tokenBudget h).request.opportunityId = some sampleOpportunity :=
    sampleOpportunity_known
  rw [hknown]

theorem treeRouted : ∃ route, routeRoles sampleOpportunity treePolicy = .ok route ∧
    TreeRoute route := by
  have hcode : isStableUpper ("ROOT_CAUSE_" ++ sampleOpportunity.rootCause.val) := by
    decide +kernel
  have hdomain : item? domainRoles sampleOpportunity.rootCause.val = none := by decide +kernel
  unfold routeRoles CouncilRoute.build
  simp only [hdomain, Option.getD_none, dif_pos hcode]
  have hcodes : ["ROOT_CAUSE_" ++ sampleOpportunity.rootCause.val,
      minimumBlindedCouncil.val].Nodup := by
    decide +kernel
  refine ⟨_, seq_eq_ok.mpr ⟨require_eq_ok.mpr (by decide), seq_eq_ok.mpr ⟨?_, rfl⟩⟩,
    ⟨rfl, rfl, rfl, List.cons_ne_nil _ _, List.Nodup.of_map Subtype.val hcodes⟩⟩
  have hselected : (treeProposers ++ treeCritics ++ [CouncilRole.proposalChair]).Nodup := by decide
  simp only [RoutePayload.check, seq_eq_ok, require_eq_ok]
  exact ⟨by decide, by decide, List.Nodup.of_map Subtype.val hcodes, by decide, hselected,
    Nat.le_refl 5⟩

theorem treeDeadline : (treePlanner tokenBudget h).deadlineMs (treeCall tokenBudget h) =
    .ok 1000 := by
  have hlimit : 1000 < floatLimit := by decide +kernel
  unfold CouncilPlanner.deadlineMs
  rw [seq_eq_ok, require_eq_ok]
  have hmin : min (120 * 1000) (max 1 1000) = 1000 := by decide +kernel
  exact ⟨hlimit, congrArg Except.ok hmin⟩

theorem treeRequest_check {route : CouncilRoute} (hroute : TreeRoute route) :
    ((treePlanner tokenBudget h).councilRequest (treeCall tokenBudget h) route
      (CouncilPlanner.requestHash (treeCall tokenBudget h) route)
      (treePlanner tokenBudget h).contextPolicyHash).check = .ok () := by
  simp only [CouncilRequest.check, seq_eq_ok, require_eq_ok, CouncilPlanner.councilRequest,
    hroute.proposers, hroute.critics, hroute.chair, treePlanner]
  decide

end TreeConvened

/-! ## Digests -/

theorem proposalDigests :
    jsonDigest halfFloats (proposalSemantics areaProposal) =
        ⟨1357931621, 4030910462, 1865458365, 4225126395, 3344075449, 618197965, 3612968948,
          1187012663⟩ ∧
      jsonDigest halfFloats (proposalSemantics delayProposal) =
        ⟨3542441125, 2842050118, 2724080385, 3464361657, 2925237052, 208477272, 4073793672,
          2376330062⟩ := by
  simp only [jsonDigest_eq_quickDigest]
  decide +kernel

theorem area_hashed : Hashed halfFloats areaProposal (areaHash, areaProposal) := by
  refine ⟨hashOrRaise_ok.mpr (canonicalSha256_eq_some_of_digits rfl ?_), rfl⟩
  rw [proposalDigests.1]
  decide +kernel

theorem delay_hashed : Hashed halfFloats delayProposal (delayHash, delayProposal) := by
  refine ⟨hashOrRaise_ok.mpr (canonicalSha256_eq_some_of_digits rfl ?_), rfl⟩
  rw [proposalDigests.2]
  decide +kernel

def criticPayload (role : CouncilRole) : Json Unit :=
  .obj [("role_id", .str role.text),
    ("cards", .arr ((treeEntries.map card).map ProposalCard.toJson)),
    ("snapshot_hash", .str sampleSnapshot.val)]

def chairPayload : Json Unit :=
  .obj [("role_id", .str "proposal_chair"),
    ("cards", .arr ((treeEntries.map card).map ProposalCard.toJson)),
    ("critiques", .arr (treeReviews.map CritiqueReport.toJson)),
    ("max_final_proposals", .int 1), ("max_revisions", .int 1)]

theorem payloadDigests :
    (jsonDigest halfFloats (emptyPack .timingForensics)).a = 2278819092 ∧
      (jsonDigest halfFloats (emptyPack .logicDomainSpecialist)).a = 606334643 ∧
      (jsonDigest halfFloats (criticPayload .formalCritic)).a = 1866109840 ∧
      (jsonDigest halfFloats (criticPayload .ppaCritic)).a = 400835856 ∧
      (jsonDigest halfFloats chairPayload).a = 3264795134 := by
  simp only [jsonDigest_eq_quickDigest]
  decide +kernel

theorem emptyPacks_ne :
    (packHash .timingForensics).val ≠ (packHash .logicDomainSpecialist).val := by
  intro heq
  obtain ⟨htiming, hlogic, -⟩ := payloadDigests
  have hdigits := congrArg firstDigits heq
  rw [packHash, packHash, firstDigits_canonicalHash, firstDigits_canonicalHash, htiming,
    hlogic] at hdigits
  exact absurd hdigits (by decide)

/-! ## The deliberation of that council -/

section TreeDeliberation

variable {tokenBudget : ℕ} {h : 0 < tokenBudget}

/-- With enough tokens both contexts are built. -/
theorem treePacks : ∃ needed, ∀ {tokenBudget : ℕ} (h : 0 < tokenBudget), needed ≤ tokenBudget →
    ∃ packs audit, buildBlindedProposerContexts treeRuntime
        (treePlanner tokenBudget h).contextRequests (treeRequest tokenBudget h) treeProposers
        treeEnvelope emptyProvider openStore [] = .ok packs audit ∧
      packs.map RoleContextPack.privatePackHash =
        treeProposers.map (fun role => (packHash role).val) ∧
      packs.map RoleContextPack.retrievalGrants = [[], []] := by
  obtain ⟨neededA, hA⟩ := treeContext_built .timingForensics
  obtain ⟨neededB, hB⟩ := treeContext_built .logicDomainSpecialist
  refine ⟨max neededA neededB, fun {tokenBudget} h hle => ?_⟩
  obtain ⟨packA, auditA, hpackA, hhashA, hgrantsA⟩ := hA h timingContextId []
    (le_trans (le_max_left _ _) hle)
  obtain ⟨packB, auditB, hpackB, hhashB, hgrantsB⟩ := hB h logicContextId
    auditA (le_trans (le_max_right _ _) hle)
  have hhashes : [packA, packB].map RoleContextPack.privatePackHash =
      treeProposers.map fun role => (packHash role).val := by
    simp only [List.map_cons, List.map_nil, hhashA, hhashB, treeProposers]
  refine ⟨[packA, packB], auditB, ?_, hhashes, by simp [hgrantsA, hgrantsB]⟩
  refine buildBlindedProposerContexts_returns treeBlinded ?_ ?_
  · rw [treePlanner]
    simp only [List.mapM_cons, List.mapM_nil]
    exact bind_ok.mpr ⟨packA, auditA, hpackA, bind_ok.mpr ⟨[packB], auditB,
      bind_ok.mpr ⟨packB, auditB, hpackB, bind_ok.mpr ⟨[], auditB, rfl, rfl⟩⟩, rfl⟩⟩
  · rw [hhashes]
    simpa [treeProposers] using emptyPacks_ne

theorem treeEntries_normalized :
    normalizeProposalCards halfFloats [areaProposal, delayProposal] = .ok treeEntries := by
  refine normalizeProposalCards_eq_ok.mpr ⟨treeEntries, .cons area_hashed (.cons delay_hashed .nil),
    ?_⟩
  obtain ⟨hne, hle⟩ := hashes_ordered
  have hkept : treeEntries.foldl keepLeast [] = treeEntries := by
    simp [treeEntries, keepLeast, Table.lookup, Table.assign, hne]
  rw [hkept, sortedBy, treeEntries]
  simp [List.insertionSort, hle]

theorem treeConferred {route : CouncilRoute} (hroute : TreeRoute route) (hbudget : 8 ≤ tokenBudget)
    {packs : List RoleContextPack} (hpacks : packs.length = 2)
    (completed : List (CouncilRoleOutcome Unit)) : ∃ completed',
      (treePlanner tokenBudget h).confer (treeCall tokenBudget h) route 1000 packs completed =
        .ok (treeMinutes tokenBudget h route packs) completed' := by
  obtain ⟨packA, packB, rfl⟩ := List.length_eq_two.mp hpacks
  have haggregate : 8 ≤ CouncilPlanner.aggregateTokenBudget (treePlanner tokenBudget h)
      (treeCall tokenBudget h) := by
    exact le_min hbudget (by simp [treePlanner, treePolicy])
  have hproposers : ((treePlanner tokenBudget h).proposerCalls (treeCall tokenBudget h) route
      [packA, packB]).map respond =
        treeProposers.map fun role => answer role (treeAnswer role) := by
    simp [CouncilPlanner.proposerCalls, hroute.proposers, treeProposers, respond]
  have hcritics : ((treePlanner tokenBudget h).criticCalls (treeCall tokenBudget h) route
      (treeEntries.map card)).map respond =
        treeCritics.map fun role => answer role (treeAnswer role) := by
    simp [CouncilPlanner.criticCalls, hroute.critics, treeCritics, respond]
  have hchair : respond ((treePlanner tokenBudget h).chairCall (treeCall tokenBudget h) route
      (treeEntries.map card) [[], treeReviews].flatten) =
        answer .proposalChair (treeAnswer .proposalChair) := by
    simp [CouncilPlanner.chairCall, hroute.chair, respond]
  have hquarter : 2 ≤ CouncilPlanner.aggregateTokenBudget (treePlanner tokenBudget h)
      (treeCall tokenBudget h) / 4 := by
    omega
  refine ⟨_, CouncilPlanner.confer_ok.mpr ⟨_, _, treeRound ?_ ?_ ?_ ?_ _,
    [areaProposal, delayProposal], ?_, treeEntries, treeEntries_normalized, _, _,
    treeRound ?_ ?_ ?_ ?_ _, [[], treeReviews], ?_, _, [], treeRound ?_ ?_ ?_ ?_ _,
    ⟨[], [], [.str "proposal_area", .str "proposal_delay"]⟩, shortlistOf treeIds,
    [areaProposal, delayProposal], ?_, rfl⟩⟩
  · simp [CouncilPlanner.proposerCalls, hroute.proposers, treeProposers]
  · simp [CouncilPlanner.proposerCalls, hroute.proposers, treeProposers]
  · simp [CouncilPlanner.proposerCalls, hroute.proposers, treeProposers]
  · simp only [CouncilPlanner.proposerCalls, hroute.proposers, treeProposers, List.zip_cons_cons,
      List.zip_nil_right, List.map_cons, List.map_nil, List.forall_mem_cons, List.length_cons,
      List.length_nil]
    exact ⟨by omega, by omega, nofun⟩
  · rw [hproposers]
    exact treeProposals
  · simp [CouncilPlanner.criticCalls, hroute.critics, treeCritics]
  · simp [CouncilPlanner.criticCalls, hroute.critics, treeCritics]
  · simp [CouncilPlanner.criticCalls, hroute.critics, treeCritics]
  · simp only [CouncilPlanner.criticCalls, List.forall_mem_map]
    exact fun _ _ => hquarter
  · rw [hcritics]
    exact treeCritiques
  · exact List.cons_ne_nil _ _
  · simp
  · exact List.nodup_singleton _
  · exact List.forall_mem_singleton.mpr hquarter
  · rw [hchair]
    exact treeClosed

/-- With enough tokens the council comes to its minutes. -/
theorem treeConvened : ∃ needed, ∀ {tokenBudget : ℕ} (h : 0 < tokenBudget), needed ≤ tokenBudget →
    ∃ route request packs t,
      (treePlanner tokenBudget h).convene (treeCall tokenBudget h) newState =
        .ok (route, request, treeMinutes tokenBudget h route packs) t ∧
      TreeRoute route ∧
      packs.map RoleContextPack.privatePackHash =
        treeProposers.map (fun role => (packHash role).val) ∧
      packs.map RoleContextPack.retrievalGrants = [[], []] ∧
      8 ≤ tokenBudget ∧ request.aggregateTokenBudget = CouncilPlanner.aggregateTokenBudget
        (treePlanner tokenBudget h) (treeCall tokenBudget h) := by
  obtain ⟨needed, hneeded⟩ := treePacks
  refine ⟨max needed 8, fun {tokenBudget} h hle => ?_⟩
  have height : 8 ≤ tokenBudget := le_trans (le_max_right _ _) hle
  obtain ⟨packs, audit, hpacks, hhashes, hgrants⟩ := hneeded h (le_trans (le_max_left _ _) hle)
  obtain ⟨route, hrouted, hroute⟩ := treeRouted
  have hlength : packs.length = 2 := by
    have hmap := congrArg List.length hhashes
    rwa [List.length_map] at hmap
  obtain ⟨completed, hminutes⟩ := treeConferred (h := h) hroute height hlength []
  rw [← hroute.proposers] at hpacks
  exact ⟨route, _, packs, _, CouncilPlanner.convene_ok.mpr ⟨sampleOpportunity, treeAuthority,
    hrouted, 1000, treeDeadline, rfl, treeRequest_check hroute, packs, audit, hpacks, completed,
    hminutes, rfl⟩, hroute, hhashes, hgrants, height, rfl⟩

end TreeDeliberation

end NovaRtl.Planner
