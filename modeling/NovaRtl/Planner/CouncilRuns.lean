import NovaRtl.Planner.Council
import NovaRtl.Planner.SingleAgentCalls

/-!
# Runs of the council planner

What each part of `CouncilPlanner.propose` did when it returned, and what it takes for it to return.
-/

namespace NovaRtl.Planner

open Text Transact

variable {φ : Type} {F : Floats φ}

/-! ## The shortlist -/

section Shortlist

variable {numberValue : φ → ℚ} {policy : CouncilPolicy} {cards : List ProposalCard}
  {critiques : List CritiqueReport} {dispositions : List CritiqueDisposition}
  {revisions : List CouncilRevisionRecord} {finalIds : List (Json φ)}
  {shortlist : ProposalShortlist}

/-- The shortlist of identifiers. -/
def shortlistOf (ids : List Identifier) : ProposalShortlist where
  proposalShortlistId := hashedId "proposal_shortlist_" 24
    (canonicalHash noFloats (shortlistJson ids) (shortlistJson_writable ids))
    proposalShortlist_isStem
  status := if ids = [] then .noSafeProposal else .pass
  orderedProposalIds := ids
  fallbackEligible := ids = []
  unresolvedMandatoryFindingCount := 0

/-- The final identifiers that a shortlist is built of. -/
structure Shortlisted (numberValue : φ → ℚ) (policy : CouncilPolicy) (cards : List ProposalCard)
    (critiques : List CritiqueReport) (dispositions : List CritiqueDisposition)
    (revisions : List CouncilRevisionRecord) (finalIds : List (Json φ)) (ids : List Identifier) :
    Prop where
  revisions_le : revisions.length ≤ policy.maxRevisions
  final_le : finalIds.length ≤ policy.maxFinalProposals
  keys_nodup : ∃ keys, finalIds.mapM (setKey numberValue) = some keys ∧ keys.Nodup
  reviewed : observedReviews critiques = requiredReviews cards
  dispositioned : (dispositions.map CritiqueDisposition.objectionId).toFinset =
    (objectionIds critiques).toFinset
  dispositions_length : dispositions.length =
    (dispositions.map CritiqueDisposition.objectionId).toFinset.card
  identified : finalIds.mapM (identify (cards.map ProposalCard.proposalId ++
    revisions.map CouncilRevisionRecord.revisedProposalId)) = some ids
  checked : (shortlistOf ids).check = .ok ()

theorem buildCouncilShortlist_eq_ok :
    buildCouncilShortlist numberValue policy cards critiques dispositions revisions finalIds =
        .ok shortlist ↔
      ∃ ids, shortlist = shortlistOf ids ∧
        Shortlisted numberValue policy cards critiques dispositions revisions finalIds ids := by
  unfold buildCouncilShortlist
  simp only [seq_eq_ok, require_eq_ok]
  constructor
  · rintro ⟨hrevisions, hfinal, h⟩
    cases hkeys : finalIds.mapM (setKey numberValue) with
    | none => simp [hkeys, bind, Except.bind] at h
    | some keys =>
      simp only [hkeys, seq_eq_ok, require_eq_ok] at h
      obtain ⟨hnodup, hreviewed, ⟨hdispositioned, hlength⟩, h⟩ := h
      cases hids : finalIds.mapM (identify (cards.map ProposalCard.proposalId ++
          revisions.map CouncilRevisionRecord.revisedProposalId)) with
      | none => simp [hids] at h
      | some ids =>
        simp only [hids, seq_eq_ok] at h
        exact ⟨ids, (Except.ok.inj h.2).symm, hrevisions, hfinal, ⟨keys, hkeys, hnodup⟩, hreviewed,
          hdispositioned, hlength, hids, h.1⟩
  · rintro ⟨ids, rfl, hrevisions, hfinal, ⟨keys, hkeys, hnodup⟩, hreviewed, hdispositioned,
      hlength, hids, hcheck⟩
    simp only [hkeys, hids, seq_eq_ok, require_eq_ok]
    exact ⟨hrevisions, hfinal, hnodup, hreviewed, ⟨hdispositioned, hlength⟩, hcheck, rfl⟩

theorem shortlistOf_check {ids : List Identifier} :
    (shortlistOf ids).check = .ok () ↔ ids.length ≤ 3 ∧ ids.Nodup := by
  simp only [ProposalShortlist.check, seq_eq_ok, require_eq_ok]
  by_cases h : ids = []
  · simp [h, shortlistOf]
  · simp [h, shortlistOf]

theorem mapM_eq_some {α β : Type} {f : α → Option β} {xs : List α} {ys : List β} :
    xs.mapM f = some ys ↔ List.Forall₂ (fun x y => f x = some y) xs ys := by
  induction xs generalizing ys with
  | nil => cases ys <;> simp
  | cons x xs ih =>
    simp only [List.mapM_cons, Option.bind_eq_bind, Option.bind_eq_some_iff,
      List.forall₂_cons_left_iff, ih, Option.pure_def, Option.some.injEq]
    constructor
    · rintro ⟨y, hy, rest, hrest, rfl⟩
      exact ⟨y, rest, hy, hrest, rfl⟩
    · rintro ⟨y, rest, hy, hrest, rfl⟩
      exact ⟨y, hy, rest, hrest, rfl⟩

end Shortlist

/-! ## Cards -/

section Cards

variable {entries : List (HashRef × OptimizationProposal φ)}
  {entry : HashRef × OptimizationProposal φ} {proposals : List (OptimizationProposal φ)}

theorem mem_keepLeast {item : HashRef × OptimizationProposal φ}
    (h : item ∈ keepLeast entries entry) : item ∈ entries ∨ item = entry := by
  unfold keepLeast at h
  split at h
  · exact (Table.mem_assign.mp h).elim .inr fun h => .inl h.1
  · split at h
    · exact (Table.mem_assign.mp h).elim .inr fun h => .inl h.1
    · exact .inl h

theorem mem_foldl_keepLeast {items : List (HashRef × OptimizationProposal φ)}
    {item : HashRef × OptimizationProposal φ} (h : item ∈ items.foldl keepLeast entries) :
    item ∈ entries ∨ item ∈ items := by
  induction items generalizing entries with
  | nil => exact .inl h
  | cons entry items ih =>
    rcases ih h with hmem | hmem
    · exact (mem_keepLeast hmem).imp_right fun heq => by rw [heq]; exact List.mem_cons_self
    · exact .inr (List.mem_cons_of_mem _ hmem)

/-- A proposal with the hash of its semantics. -/
def Hashed (F : Floats φ) (proposal : OptimizationProposal φ)
    (entry : HashRef × OptimizationProposal φ) : Prop :=
  hashOrRaise F (proposalSemantics proposal) = .ok entry.1 ∧ entry.2 = proposal

theorem normalizeProposalCards_eq_ok : normalizeProposalCards F proposals = .ok entries ↔
    ∃ hashed, List.Forall₂ (Hashed F) proposals hashed ∧
      entries = sortedBy (fun entry => entry.1.val) (hashed.foldl keepLeast []) := by
  have hstep : ∀ proposal entry, (do
      return (← hashOrRaise F (proposalSemantics proposal), proposal) :
        Except PlannerError (HashRef × OptimizationProposal φ)) = .ok entry ↔
      Hashed F proposal entry := by
    rintro proposal ⟨hash, kept⟩
    simp only [Hashed, bind_eq_ok, pure, Except.pure, Except.ok.injEq, Prod.mk.injEq]
    constructor
    · rintro ⟨_, hhash, rfl, rfl⟩
      exact ⟨hhash, rfl⟩
    · rintro ⟨hhash, rfl⟩
      exact ⟨hash, hhash, rfl, rfl⟩
  unfold normalizeProposalCards
  rw [bind_eq_ok]
  refine exists_congr fun hashed => and_congr ?_ ?_
  · rw [mapM_eq_ok]
    simp only [hstep]
  · simp only [pure, Except.pure, Except.ok.injEq, eq_comm]

theorem mem_of_normalizeProposalCards (h : normalizeProposalCards F proposals = .ok entries)
    (hentry : entry ∈ entries) : entry.2 ∈ proposals := by
  obtain ⟨hashed, hhashed, rfl⟩ := normalizeProposalCards_eq_ok.mp h
  rcases mem_foldl_keepLeast ((mem_sortedBy _).mp hentry) with hmem | hmem
  · cases hmem
  · obtain ⟨proposal, hproposal, hhash⟩ := exists_of_mem_right hhashed hmem
    exact hhash.2 ▸ hproposal

end Cards

/-! ## A round of calls -/

section Rounds

variable {policy : CouncilPolicy} {deadlineMs : ℕ}
  {invoke : CouncilRoleCall φ → ℕ → Option (CouncilRoleOutcome φ)}
  {calls : List (CouncilRoleCall φ)} {completed completed' outcomes : List (CouncilRoleOutcome φ)}

/-- What it takes for a round to return. -/
structure RoundReturns (policy : CouncilPolicy)
    (invoke : CouncilRoleCall φ → ℕ → Option (CouncilRoleOutcome φ)) (deadlineMs : ℕ)
    (calls : List (CouncilRoleCall φ)) (outcomes : List (CouncilRoleOutcome φ)) : Prop where
  fanOut : calls ≠ [] ∧ calls.length ≤ policy.fanOutLimit
  roles_nodup : (calls.map CouncilRoleCall.roleId).Nodup
  deadline : 0 < deadlineMs ∧ deadlineMs ≤ policy.deadlineSeconds * 1000
  budgets_pos : ∀ call ∈ calls, 0 < call.tokenBudget
  invoked : List.Forall₂ (fun call outcome => invoke call deadlineMs = some outcome) calls outcomes
  order : outcomes.map CouncilRoleOutcome.roleId = calls.map fun call => call.roleId.text
  total_le : (outcomes.map CouncilRoleOutcome.tokens).sum ≤ policy.maxAggregateTokens
  tokens_le : ∀ pair ∈ calls.zip outcomes, pair.2.tokens ≤ pair.1.tokenBudget

theorem runRoleRound_ok :
    runRoleRound policy invoke deadlineMs calls completed = .ok outcomes completed' ↔
      RoundReturns policy invoke deadlineMs calls outcomes ∧ completed' = completed ++ outcomes := by
  have hanswers : (calls.map fun call => invoke call deadlineMs).mapM (fun answer => answer) =
      some outcomes ↔
        List.Forall₂ (fun call outcome => invoke call deadlineMs = some outcome) calls outcomes := by
    rw [mapM_eq_some, List.forall₂_map_left_iff]
  have hcompleted (h : List.Forall₂ (fun call outcome => invoke call deadlineMs = some outcome)
      calls outcomes) : ((calls.map fun call => invoke call deadlineMs).filterMap fun answer =>
        answer) = outcomes := by
    clear hanswers
    induction h with
    | nil => rfl
    | cons hcall _ ih => rw [List.map_cons, hcall, List.filterMap_cons, ih]
  unfold runRoleRound
  constructor
  · intro h
    obtain ⟨hfanOut, h⟩ := check_bind_ok.mp h
    obtain ⟨hroles, h⟩ := check_bind_ok.mp h
    obtain ⟨hdeadline, h⟩ := check_bind_ok.mp h
    obtain ⟨hbudgets, h⟩ := check_bind_ok.mp h
    obtain ⟨_, t, hmodify, h⟩ := bind_ok.mp h
    obtain rfl := modify_ok.mp hmodify
    cases hfound : (calls.map fun call => invoke call deadlineMs).mapM fun answer => answer with
    | none =>
      rw [hfound] at h
      exact (throw_ok.mp h).elim
    | some found =>
      rw [hfound] at h
      obtain ⟨horder, h⟩ := check_bind_ok.mp h
      obtain ⟨htotal, h⟩ := check_bind_ok.mp h
      obtain ⟨htokens, h⟩ := check_bind_ok.mp h
      obtain ⟨rfl, rfl⟩ := pure_ok.mp h
      have hinvoked := hanswers.mp hfound
      exact ⟨⟨hfanOut, hroles, hdeadline, hbudgets, hinvoked, horder, htotal, htokens⟩,
        by rw [hcompleted hinvoked]⟩
  · rintro ⟨h, rfl⟩
    refine check_bind_ok.mpr ⟨h.fanOut, check_bind_ok.mpr ⟨h.roles_nodup,
      check_bind_ok.mpr ⟨h.deadline, check_bind_ok.mpr ⟨h.budgets_pos,
      bind_ok.mpr ⟨⟨⟩, _, modify_ok.mpr rfl, ?_⟩⟩⟩⟩⟩
    rw [hanswers.mpr h.invoked, hcompleted h.invoked]
    exact check_bind_ok.mpr ⟨h.order, check_bind_ok.mpr ⟨h.total_le,
      check_bind_ok.mpr ⟨h.tokens_le, pure_ok.mpr ⟨rfl, rfl⟩⟩⟩⟩

end Rounds

/-! ## A deliberation -/

namespace CouncilPlanner

variable {planner : CouncilPlanner F} {call : CouncilCall φ}

section Close

variable {entries : List (HashRef × OptimizationProposal φ)} {critiques : List CritiqueReport}
  {outcome : CouncilRoleOutcome φ} {chair : ChairOutput φ} {shortlist : ProposalShortlist}
  {chosen : List (OptimizationProposal φ)}

theorem close_eq_ok : planner.close entries critiques outcome = .ok (chair, shortlist, chosen) ↔
    Passed [outcome] ∧ planner.readChair outcome.output = some chair ∧
      buildCouncilShortlist planner.runtime.numberValue planner.policy (entries.map card) critiques
        chair.dispositions chair.revisions chair.finalIds = .ok shortlist ∧
      resolveIds (Table.dict OptimizationProposal.proposalId (entries.map Prod.snd))
        shortlist.orderedProposalIds = some chosen := by
  unfold close
  rw [seq_eq_ok, require_eq_ok]
  refine and_congr_right fun _ => ?_
  cases hchair : planner.readChair outcome.output with
  | none => simp
  | some read =>
    simp only [bind_eq_ok, Option.some.injEq]
    constructor
    · rintro ⟨built, hbuilt, h⟩
      split at h
      · cases h
      next found hfound =>
        cases h
        exact ⟨rfl, hbuilt, hfound⟩
    · rintro ⟨rfl, hbuilt, hfound⟩
      exact ⟨shortlist, hbuilt, by rw [hfound]⟩

end Close

/-- What a deliberation did up to the shortlist. -/
theorem confer_ok {route : CouncilRoute} {deadlineMs : ℕ} {packs : List RoleContextPack}
    {minutes : Minutes φ} {completed completed' : List (CouncilRoleOutcome φ)} :
    planner.confer call route deadlineMs packs completed = .ok minutes completed' ↔
      ∃ proposerOutcomes completed₁,
        runRoleRound planner.policy call.invoke deadlineMs
            (planner.proposerCalls call route packs) completed =
          .ok proposerOutcomes completed₁ ∧
      ∃ proposals, planner.readProposals call proposerOutcomes = .ok proposals ∧
      ∃ entries, normalizeProposalCards F proposals = .ok entries ∧
      ∃ criticOutcomes completed₂,
        runRoleRound planner.policy call.invoke deadlineMs
            (planner.criticCalls call route (entries.map card)) completed₁ =
          .ok criticOutcomes completed₂ ∧
      ∃ critiques, planner.readCritiques criticOutcomes = .ok critiques ∧
      ∃ chairOutcome rest,
        runRoleRound planner.policy call.invoke deadlineMs
            [planner.chairCall call route (entries.map card) critiques.flatten] completed₂ =
          .ok (chairOutcome :: rest) completed' ∧
      ∃ chair shortlist chosen,
        planner.close entries critiques.flatten chairOutcome = .ok (chair, shortlist, chosen) ∧
      minutes =
        { packs
          proposers := hearings (planner.proposerCalls call route packs) proposerOutcomes
          critics := hearings (planner.criticCalls call route (entries.map card)) criticOutcomes
          chair :=
            ⟨planner.chairCall call route (entries.map card) critiques.flatten, chairOutcome⟩
          entries
          critiques
          dispositions := chair.dispositions
          revisions := chair.revisions
          shortlist
          chosen } := by
  unfold confer
  constructor
  · intro h
    obtain ⟨proposerOutcomes, completed₁, hproposers, h⟩ := bind_ok.mp h
    obtain ⟨proposals, hproposals, h⟩ := ofExcept_bind_ok.mp h
    obtain ⟨entries, hentries, h⟩ := ofExcept_bind_ok.mp h
    obtain ⟨criticOutcomes, completed₂, hcritics, h⟩ := bind_ok.mp h
    obtain ⟨critiques, hcritiques, h⟩ := ofExcept_bind_ok.mp h
    obtain ⟨outcomes, completed₃, hround, h⟩ := bind_ok.mp h
    refine ⟨proposerOutcomes, completed₁, hproposers, proposals, hproposals, entries, hentries,
      criticOutcomes, completed₂, hcritics, critiques, hcritiques, ?_⟩
    cases outcomes with
    | nil => exact (throw_ok.mp h).elim
    | cons chairOutcome rest =>
      obtain ⟨⟨chair, shortlist, chosen⟩, hclose, h⟩ := ofExcept_bind_ok.mp h
      obtain ⟨rfl, rfl⟩ := pure_ok.mp h
      exact ⟨chairOutcome, rest, hround, chair, shortlist, chosen, hclose, rfl⟩
  · rintro ⟨proposerOutcomes, completed₁, hproposers, proposals, hproposals, entries, hentries,
      criticOutcomes, completed₂, hcritics, critiques, hcritiques, chairOutcome, rest, hround,
      chair, shortlist, chosen, hclose, rfl⟩
    refine bind_ok.mpr ⟨_, _, hproposers, ofExcept_bind_ok.mpr ⟨_, hproposals,
      ofExcept_bind_ok.mpr ⟨_, hentries, bind_ok.mpr ⟨_, _, hcritics,
      ofExcept_bind_ok.mpr ⟨_, hcritiques, bind_ok.mpr ⟨_, _, hround, ?_⟩⟩⟩⟩⟩⟩
    exact ofExcept_bind_ok.mpr ⟨(chair, shortlist, chosen), hclose, pure_ok.mpr ⟨rfl, rfl⟩⟩

/-- The part of a deliberation before the proposals are recorded as resolved. -/
theorem convene_ok {s t : CouncilState φ} {route : CouncilRoute} {request : CouncilRequest}
    {minutes : Minutes φ} :
    planner.convene call s = .ok (route, request, minutes) t ↔
      ∃ opportunity, planner.checkAuthority call = .ok opportunity ∧
        routeRoles opportunity planner.policy = .ok route ∧
      ∃ deadlineMs, planner.deadlineMs call = .ok deadlineMs ∧
        request = planner.councilRequest call route (requestHash call route)
          planner.contextPolicyHash ∧ request.check = .ok () ∧
      ∃ packs audit, buildBlindedProposerContexts planner.runtime planner.contextRequests
          call.request route.proposerRoles planner.commonEnvelope planner.evidenceProvider
          call.store s.audit = .ok packs audit ∧
      ∃ completed, planner.confer call route deadlineMs packs s.completed =
          .ok minutes completed ∧
        t = { s with councilRequest := some request, audit, completed } := by
  unfold convene
  constructor
  · intro h
    obtain ⟨opportunity, hauthority, h⟩ := ofExcept_bind_ok.mp h
    obtain ⟨route', hroute, h⟩ := ofExcept_bind_ok.mp h
    obtain ⟨deadlineMs, hdeadline, h⟩ := ofExcept_bind_ok.mp h
    obtain ⟨_, hcheck, h⟩ := ofExcept_bind_ok.mp h
    obtain ⟨_, s₁, hmodify, h⟩ := bind_ok.mp h
    obtain rfl := modify_ok.mp hmodify
    obtain ⟨packs, s₂, hcontexts, h⟩ := bind_ok.mp h
    obtain ⟨audit, hpacks, rfl⟩ := onPart_ok.mp hcontexts
    obtain ⟨minutes', s₃, hrounds, h⟩ := bind_ok.mp h
    obtain ⟨completed, hminutes, rfl⟩ := onPart_ok.mp hrounds
    obtain ⟨hout, rfl⟩ := pure_ok.mp h
    simp only [Prod.mk.injEq] at hout
    obtain ⟨rfl, rfl, rfl⟩ := hout
    exact ⟨opportunity, hauthority, hroute, deadlineMs, hdeadline, rfl, hcheck, packs, audit,
      hpacks, completed, hminutes, rfl⟩
  · rintro ⟨opportunity, hauthority, hroute, deadlineMs, hdeadline, rfl, hcheck, packs, audit,
      hpacks, completed, hminutes, rfl⟩
    refine ofExcept_bind_ok.mpr ⟨_, hauthority, ofExcept_bind_ok.mpr ⟨_, hroute,
      ofExcept_bind_ok.mpr ⟨_, hdeadline, ofExcept_bind_ok.mpr ⟨_, hcheck,
      bind_ok.mpr ⟨⟨⟩, _, modify_ok.mpr rfl, bind_ok.mpr ⟨_, _, onPart_ok.mpr ⟨_, hpacks, rfl⟩,
      bind_ok.mpr ⟨_, _, onPart_ok.mpr ⟨_, hminutes, rfl⟩, pure_ok.mpr ⟨rfl, rfl⟩⟩⟩⟩⟩⟩⟩⟩

/-- The end of a deliberation. -/
theorem conclude_ok {s t : CouncilState φ} {route : CouncilRoute} {request : CouncilRequest}
    {minutes : Minutes φ} {planned : PlannerResult} :
    planner.conclude call route request minutes s = .ok planned t ↔
      ∃ records, CouncilPlanner.records (F := F) call minutes = .ok records ∧
        (records.map fun item => item.inputTokens + item.outputTokens).sum ≤
          request.aggregateTokenBudget ∧
      ∃ trace, CouncilPlanner.trace call route request.councilRequestId records = .ok trace ∧
      ∃ result, planner.councilResult call route request.councilRequestId minutes records trace =
          .ok result ∧
      ∃ identity, hashOrRaise noFloats ((planner.payload call minutes.shortlist.orderedProposalIds
          result.councilResultId trace).toJson false) = .ok identity ∧
        (planner.payload call minutes.shortlist.orderedProposalIds result.councilResultId
          trace).result identity = .ok planned ∧
        t = { s with
          resolved := updateResolved s.resolved minutes.chosen
          councilTrace := some trace
          councilResult := some result } := by
  unfold conclude
  constructor
  · intro h
    obtain ⟨_, s₁, hmodify, h⟩ := bind_ok.mp h
    obtain rfl := modify_ok.mp hmodify
    obtain ⟨records, hrecords, h⟩ := ofExcept_bind_ok.mp h
    obtain ⟨hbudget, h⟩ := check_bind_ok.mp h
    obtain ⟨trace, htrace, h⟩ := ofExcept_bind_ok.mp h
    obtain ⟨_, s₂, hmodify, h⟩ := bind_ok.mp h
    obtain rfl := modify_ok.mp hmodify
    obtain ⟨result, hresult, h⟩ := ofExcept_bind_ok.mp h
    obtain ⟨_, s₃, hmodify, h⟩ := bind_ok.mp h
    obtain rfl := modify_ok.mp hmodify
    obtain ⟨identity, hidentity, h⟩ := ofExcept_bind_ok.mp h
    obtain ⟨hplanned, rfl⟩ := ofExcept_ok.mp h
    exact ⟨records, hrecords, hbudget, trace, htrace, result, hresult, identity, hidentity,
      hplanned, rfl⟩
  · rintro ⟨records, hrecords, hbudget, trace, htrace, result, hresult, identity, hidentity,
      hplanned, rfl⟩
    exact bind_ok.mpr ⟨⟨⟩, _, modify_ok.mpr rfl, ofExcept_bind_ok.mpr ⟨_, hrecords,
      check_bind_ok.mpr ⟨hbudget, ofExcept_bind_ok.mpr ⟨_, htrace,
      bind_ok.mpr ⟨⟨⟩, _, modify_ok.mpr rfl, ofExcept_bind_ok.mpr ⟨_, hresult,
      bind_ok.mpr ⟨⟨⟩, _, modify_ok.mpr rfl, ofExcept_bind_ok.mpr ⟨_, hidentity,
      ofExcept_ok.mpr ⟨hplanned, rfl⟩⟩⟩⟩⟩⟩⟩⟩⟩

/-! ## The two ways to a result -/

theorem deliberate_ok {s t : CouncilState φ} {planned : PlannerResult} {minutes : Minutes φ} :
    planner.deliberate call s = .ok (planned, minutes) t ↔
      ∃ route request u, planner.convene call s = .ok (route, request, minutes) u ∧
        planner.conclude call route request minutes u = .ok planned t := by
  unfold deliberate
  constructor
  · intro h
    obtain ⟨⟨route, request, convened⟩, u, hconvene, h⟩ := bind_ok.mp h
    obtain ⟨result, v, hconclude, h⟩ := bind_ok.mp h
    obtain ⟨hout, rfl⟩ := pure_ok.mp h
    obtain ⟨rfl, rfl⟩ := Prod.mk.inj hout
    exact ⟨route, request, u, hconvene, hconclude⟩
  · rintro ⟨route, request, u, hconvene, hconclude⟩
    exact bind_ok.mpr ⟨_, u, hconvene, bind_ok.mpr ⟨_, t, hconclude, pure_ok.mpr ⟨rfl, rfl⟩⟩⟩

/-- A fallback lists what the heuristic planner selects. -/
theorem fallback_ok {s t : CouncilState φ} {e : PlannerError} {planned : PlannerResult}
    {proposals : List (OptimizationProposal φ)}
    (h : planner.fallback call e s = .ok (planned, proposals) t) :
    ∃ opportunity, planner.heuristic.opportunityFor
        { call.request with plannerMode := .heuristic } = .ok opportunity ∧
      proposals = planner.heuristic.selected { call.request with plannerMode := .heuristic }
        opportunity ∧
      planned.proposalIds = proposals.map OptimizationProposal.proposalId ∧
      planned.fallbackUsed = true ∧ ∃ resolved, t.resolved = updateResolved resolved proposals := by
  unfold fallback at h
  obtain ⟨result, u, -, h⟩ := bind_ok.mp h
  obtain ⟨heuristic, hheuristic, h⟩ := ofExcept_bind_ok.mp h
  obtain ⟨found, hfound, h⟩ := ofExcept_bind_ok.mp h
  obtain ⟨_, v, hmodify, h⟩ := bind_ok.mp h
  obtain rfl := modify_ok.mp hmodify
  obtain ⟨result', hresult, h⟩ := ofExcept_bind_ok.mp h
  obtain ⟨hout, rfl⟩ := pure_ok.mp h
  obtain ⟨rfl, rfl⟩ := Prod.mk.inj hout
  obtain ⟨-, rfl⟩ := result_ok.mp hresult
  obtain ⟨opportunity, hopportunity, -⟩ := bind_eq_ok.mp hheuristic
  obtain ⟨answer, hanswer, hpayload, hproposals⟩ := HeuristicPlanner.propose_ok hopportunity
  obtain rfl : answer = heuristic := Except.ok.inj (hanswer.symm.trans hheuristic)
  exact ⟨opportunity, hopportunity, Except.ok.inj (hfound.symm.trans hproposals), rfl, rfl, _, rfl⟩

theorem propose_ok {s t : CouncilState φ} {planned : PlannerResult} {basis : Basis φ}
    (h : planner.propose call s = .ok (planned, basis) t) :
    (∃ minutes, basis = .deliberated minutes ∧
        planner.deliberate call s = .ok (planned, minutes) t) ∨
      ∃ e u proposals, basis = .heuristic proposals ∧
        planner.fallback call e u = .ok (planned, proposals) t := by
  unfold propose at h
  obtain ⟨opportunity, -, h⟩ := ofExcept_bind_ok.mp h
  rcases rescue_ok.mp h with h | ⟨e, u, -, -, h⟩
  · obtain ⟨⟨result, minutes⟩, v, hdeliberate, h⟩ := bind_ok.mp h
    obtain ⟨hout, rfl⟩ := pure_ok.mp h
    obtain ⟨rfl, rfl⟩ := Prod.mk.inj hout
    exact .inl ⟨minutes, rfl, hdeliberate⟩
  · obtain ⟨⟨result, proposals⟩, v, hfallback, h⟩ := bind_ok.mp h
    obtain ⟨hout, rfl⟩ := pure_ok.mp h
    obtain ⟨rfl, rfl⟩ := Prod.mk.inj hout
    exact .inr ⟨e, u, proposals, rfl, hfallback⟩

theorem propose_of_deliberate {s t : CouncilState φ} {planned : PlannerResult}
    {minutes : Minutes φ} {opportunity : OptimizationOpportunity}
    (hauthority : planner.checkAuthority call = .ok opportunity)
    (h : planner.deliberate call s = .ok (planned, minutes) t) :
    planner.propose call s = .ok (planned, .deliberated minutes) t := by
  unfold propose
  refine ofExcept_bind_ok.mpr ⟨opportunity, hauthority, rescue_ok.mpr (.inl ?_)⟩
  exact bind_ok.mpr ⟨_, t, h, pure_ok.mpr ⟨rfl, rfl⟩⟩

/-! ## What a deliberation lists -/

/-- The proposals of a deliberation are authorized, its shortlist has one for each identifier that
the chair submitted, and no identifier is listed twice. -/
structure Deliberated (planner : CouncilPlanner F) (call : CouncilCall φ) (planned : PlannerResult)
    (minutes : Minutes φ) : Prop where
  not_fallback : planned.fallbackUsed = false
  ids : planned.proposalIds = minutes.chosen.map OptimizationProposal.proposalId
  nodup : planned.proposalIds.Nodup
  authorized : ∀ proposal ∈ minutes.chosen,
    proposalIsAuthorized planner.registry planner.opportunities proposal call.request = some true
  submitted : ∃ chair, planner.readChair minutes.chair.outcome.output = some chair ∧
    planned.proposalIds.length = chair.finalIds.length ∧
      chair.finalIds.length ≤ planner.policy.maxFinalProposals
  heard : ∃ deadlineMs, call.invoke minutes.chair.call deadlineMs = some minutes.chair.outcome

theorem resolveIds_eq_some {table items : List (OptimizationProposal φ)} {ids : List Identifier}
    (h : resolveIds table ids = some items) :
    ids = items.map OptimizationProposal.proposalId ∧ items ⊆ table := by
  rw [resolveIds, mapM_eq_some] at h
  induction h with
  | nil => exact ⟨rfl, List.nil_subset _⟩
  | cons hitem _ ih =>
    have hid := List.find?_some hitem
    have hmem := List.mem_of_find?_eq_some hitem
    rw [decide_eq_true_eq] at hid
    exact ⟨by rw [List.map_cons, hid, ← ih.1], List.cons_subset.mpr ⟨hmem, ih.2⟩⟩

theorem readProposals_authorized {outcomes : List (CouncilRoleOutcome φ)}
    {proposals : List (OptimizationProposal φ)}
    (h : planner.readProposals call outcomes = .ok proposals) : ∀ proposal ∈ proposals,
      proposalIsAuthorized planner.registry planner.opportunities proposal call.request =
        some true := by
  unfold readProposals at h
  obtain ⟨-, h⟩ := seq_eq_ok.mp h
  obtain ⟨read, -, h⟩ := bind_eq_ok.mp h
  obtain ⟨hauthorized, h⟩ := seq_eq_ok.mp h
  obtain rfl : read.flatten = proposals := Except.ok.inj h
  exact (require_eq_ok.mp hauthorized).2

theorem deliberate_lists {s t : CouncilState φ} {planned : PlannerResult} {minutes : Minutes φ}
    (h : planner.deliberate call s = .ok (planned, minutes) t) :
    Deliberated planner call planned minutes ∧
      ∃ resolved, t.resolved = updateResolved resolved minutes.chosen := by
  obtain ⟨route, request, u, hconvene, hconclude⟩ := deliberate_ok.mp h
  obtain ⟨opportunity, -, -, deadlineMs, -, rfl, -, packs, audit, -, completed, hconfer, rfl⟩ :=
    convene_ok.mp hconvene
  obtain ⟨records, -, -, trace, -, result, -, identity, -, hplanned, rfl⟩ :=
    conclude_ok.mp hconclude
  obtain ⟨hcheck, rfl⟩ := result_ok.mp hplanned
  obtain ⟨proposerOutcomes, completed₁, -, proposals, hproposals, entries, hentries,
    criticOutcomes, completed₂, -, critiques, -, chairOutcome, rest, hround, chair, shortlist,
    chosen, hclose, rfl⟩ := confer_ok.mp hconfer
  obtain ⟨-, hchair, hshortlist, hchosen⟩ := close_eq_ok.mp hclose
  obtain ⟨ids, rfl, hids⟩ := buildCouncilShortlist_eq_ok.mp hshortlist
  obtain ⟨hresolved, hmem⟩ := resolveIds_eq_some hchosen
  refine ⟨⟨rfl, hresolved, ?_, fun proposal hproposal => ?_, ⟨chair, hchair, ?_, hids.final_le⟩,
    deadlineMs, ?_⟩, _, rfl⟩
  · exact (shortlistOf_check.mp hids.checked).2
  · obtain ⟨entry, hentry, rfl⟩ := List.mem_map.mp (Table.subset_of_dict (hmem hproposal))
    exact readProposals_authorized hproposals _ (mem_of_normalizeProposalCards hentries hentry)
  · exact (mapM_eq_some.mp hids.identified).length_eq.symm
  · cases (runRoleRound_ok.mp hround).1.invoked with
    | cons hinvoked _ => exact hinvoked

end CouncilPlanner

end NovaRtl.Planner
