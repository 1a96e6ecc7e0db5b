import NovaRtl.Planner.SingleAgent

/-!
# Calls of the single-agent planner

What one call does to the answers of the provider and to the resolved proposals, and when it returns.
-/

namespace NovaRtl.Planner

open Text Transact

variable {φ : Type} {F : Floats φ} {call : SingleAgentCall} {payload : ResultPayload}

/-! ## Payloads -/

theorem hashOrRaise_ok {j : Json φ} {hash : HashRef} :
    hashOrRaise F j = .ok hash ↔ canonicalSha256 F j = some hash := by
  unfold hashOrRaise
  split <;> simp_all

theorem hashOrRaise_isOk {j : Json φ} : (∃ hash, hashOrRaise F j = .ok hash) ↔ j.writable := by
  rw [← isSome_canonicalSha256 (F := F), Option.isSome_iff_exists]
  exact exists_congr fun _ => hashOrRaise_ok

theorem result_ok {identity : HashRef} {result : PlannerResult} :
    payload.result identity = .ok result ↔
      payload.check = .ok () ∧
        result = ⟨payload, hashedId "planner_result_" 24 identity plannerResult_isStem⟩ := by
  simp only [ResultPayload.result, seq_eq_ok, pure, Except.pure, Except.ok.injEq]
  exact and_congr_right fun _ => eq_comm

/-- Integers that can be written. -/
def Printable (n : ℕ) : Prop := (Json.int n : Json Empty).writable

theorem toJson_writable (versioned : Bool) : (payload.toJson versioned : Json Empty).writable ↔
    Printable payload.inputTokens ∧ Printable payload.outputTokens ∧
      Printable payload.latencyMs := by
  unfold ResultPayload.toJson Printable
  cases versioned <;> simp [idsJson, Diagnostic.toJson, Json.writable_int_of_lt, List.all_eq_true]

/-- A state after proposals were resolved. -/
def SingleAgentState.resolve (s : SingleAgentState φ) (proposals : List (OptimizationProposal φ)) :
    SingleAgentState φ :=
  { s with resolved := updateResolved s.resolved proposals }

/-- The totals of the answers so far can be written. -/
def TotalsPrintable (s : SingleAgentState φ) : Prop :=
  Printable (s.providerResults.map ProviderResult.inputTokens).sum ∧
    Printable (s.providerResults.map ProviderResult.outputTokens).sum ∧
    Printable (s.providerResults.map ProviderResult.latencyMs).sum

namespace SingleAgentPlanner

theorem identified_ok {result : PlannerResult} (h : identified call payload = .ok result) :
    result.toResultPayload = payload ∧ payload.check = .ok () := by
  obtain ⟨identity, -, hresult⟩ := bind_eq_ok.mp h
  obtain ⟨hcheck, rfl⟩ := result_ok.mp hresult
  exact ⟨rfl, hcheck⟩

theorem identified_isOk : (∃ result, identified call payload = .ok result) ↔
    (Printable payload.inputTokens ∧ Printable payload.outputTokens ∧
      Printable payload.latencyMs) ∧ payload.check = .ok () := by
  have hwritable : (Json.obj [("planner_request_id", .str call.request.plannerRequestId.val),
      ("result", payload.toJson true)] : Json Empty).writable ↔
      (payload.toJson true : Json Empty).writable := by simp
  rw [← toJson_writable true, ← hwritable, ← hashOrRaise_isOk (F := noFloats)]
  constructor
  · rintro ⟨result, h⟩
    obtain ⟨identity, hidentity, hresult⟩ := bind_eq_ok.mp h
    exact ⟨⟨identity, hidentity⟩, (result_ok.mp hresult).1⟩
  · rintro ⟨⟨identity, hidentity⟩, hcheck⟩
    exact ⟨_, bind_eq_ok.mpr ⟨identity, hidentity, result_ok.mpr ⟨hcheck, rfl⟩⟩⟩

variable {planner : SingleAgentPlanner F} {s t : SingleAgentState φ} {pack : RoleContextPack}
  {result : ProviderResult} {messages : List Message}

theorem payload_check_accepted (proposals : List (OptimizationProposal φ)) :
    (planner.payload call s pack result (if proposals = [] then .noSafeProposal else .pass)
        (proposals.map OptimizationProposal.proposalId) [] false).check = .ok () ↔
      (proposals.map OptimizationProposal.proposalId).Nodup := by
  simp only [ResultPayload.check, seq_eq_ok, require_eq_ok]
  by_cases h : proposals = []
  · simp [SingleAgentPlanner.payload, h]
  · simp [SingleAgentPlanner.payload, h]

theorem payload_check_fallback {diagnostics : List Diagnostic} (hdiagnostics : diagnostics ≠ [])
    {heuristic : ResultPayload} (h : heuristic.check = .ok ()) :
    (planner.payload call s pack result heuristic.status heuristic.proposalIds diagnostics
      true).check = .ok () := by
  simp only [ResultPayload.check, seq_eq_ok, require_eq_ok] at h ⊢
  obtain ⟨hnodup, -, hpass, hnone, -⟩ := h
  exact ⟨hnodup, by simp [SingleAgentPlanner.payload], hpass, hnone, by
    simp [SingleAgentPlanner.payload, hdiagnostics]⟩

/-! ## What a call amounts to -/

/-- The request that a fallback makes. -/
abbrev heuristicRequest (call : SingleAgentCall) : PlannerRequest :=
  { call.request with plannerMode := .heuristic }

/-- The proposals that are validated for the request. -/
def validated (planner : SingleAgentPlanner F) (call : SingleAgentCall) (messages : List Message) :
    List (OptimizationProposal φ) :=
  match (planner.advise call messages).verdict with
  | .error _ => []
  | .ok (_, .accepted proposals) => proposals
  | .ok (_, .rejected _) =>
    match planner.heuristic.opportunityFor (heuristicRequest call) with
    | .error _ => []
    | .ok opportunity => planner.heuristic.selected (heuristicRequest call) opportunity

/-- The answers can be read, the heuristic planner takes a request that falls back on it, accepted
proposals have distinct identifiers, and the totals can be written. -/
def Answered (planner : SingleAgentPlanner F) (s : SingleAgentState φ) (call : SingleAgentCall)
    (messages : List Message) : Prop :=
  let results := s.providerResults ++ (planner.advise call messages).results
  (match (planner.advise call messages).verdict with
    | .error _ => False
    | .ok (_, .accepted proposals) => (proposals.map OptimizationProposal.proposalId).Nodup
    | .ok (_, .rejected _) =>
      ∃ opportunity, planner.heuristic.opportunityFor (heuristicRequest call) = .ok opportunity) ∧
    Printable (results.map ProviderResult.inputTokens).sum ∧
    Printable (results.map ProviderResult.outputTokens).sum ∧
    Printable (results.map ProviderResult.latencyMs).sum

theorem judge_rejected {proposals : List (OptimizationProposal φ)} {diagnostics : List Diagnostic}
    (h : planner.judge call proposals = .rejected diagnostics) : diagnostics ≠ [] := by
  unfold judge at h
  dsimp only at h
  split at h
  · cases h
  · next hne =>
    obtain rfl := Verdict.rejected.inj h
    simpa using hne

theorem adviseRepair_rejected {output : Json φ} {firstError : String} {last : ProviderResult}
    {diagnostics : List Diagnostic}
    (h : (planner.adviseRepair call result output firstError).verdict =
      .ok (last, .rejected diagnostics)) : diagnostics ≠ [] := by
  unfold adviseRepair at h
  obtain ⟨verdict, hverdict, heq⟩ := map_eq_ok.mp h
  obtain ⟨-, rfl⟩ := Prod.mk.inj heq
  split at hverdict
  · cases hverdict
    simp
  · split at hverdict
    · cases hverdict
    · split at hverdict
      · cases hverdict
        simp
      · exact judge_rejected (Except.ok.inj hverdict)

/-- A fallback has a diagnostic. -/
theorem advise_rejected {last : ProviderResult} {diagnostics : List Diagnostic}
    (h : (planner.advise call messages).verdict = .ok (last, .rejected diagnostics)) :
    diagnostics ≠ [] := by
  unfold advise at h
  dsimp only at h
  split at h
  · cases h
    simp
  · split at h
    · cases h
    · split at h
      · exact adviseRepair_rejected h
      · exact judge_rejected (Prod.mk.inj (Except.ok.inj h)).2

/-! ## One call -/

theorem prepare_ends : EndsIn (planner.prepare call) s
    (fun _ t => t.providerResults = s.providerResults ∧ t.resolved = s.resolved)
    (fun _ t => t.providerResults = s.providerResults ∧ t.resolved = s.resolved) := by
  unfold prepare
  refine .bind (.ofExcept (fun _ _ => .bind (.onPart ?_)) fun _ _ => ⟨rfl, rfl⟩)
  have hpack : ∀ (pack : RoleContextPack) (u : SingleAgentState φ),
      u.providerResults = s.providerResults ∧ u.resolved = s.resolved →
      EndsIn (do
          modify fun s : SingleAgentState φ => { s with contextPack := some pack }
          let messages ← ofExcept (planner.messages call pack)
          return (pack, messages)) u
        (fun _ t => t.providerResults = s.providerResults ∧ t.resolved = s.resolved)
        (fun _ t => t.providerResults = s.providerResults ∧ t.resolved = s.resolved) :=
    fun pack u hu => .bind (.modify (.bind (.ofExcept (fun _ _ => .pure hu) fun _ _ => hu)))
  unfold EndsIn
  split
  · exact hpack _ _ ⟨rfl, rfl⟩
  · exact ⟨rfl, rfl⟩

/-- How a call ends. -/
inductive Proposed (planner : SingleAgentPlanner F) (s : SingleAgentState φ)
    (call : SingleAgentCall) :
    Except PlannerError (PlannerResult × List (OptimizationProposal φ)) →
      SingleAgentState φ → Prop where
  | refused {e : PlannerError} {t : SingleAgentState φ}
      (hprepare : planner.prepare call s = .error e t)
      (hresults : t.providerResults = s.providerResults) (hresolved : t.resolved = s.resolved) :
      Proposed planner s call (.error e) t
  | failed {e : PlannerError} {prepared t : SingleAgentState φ} {pack : RoleContextPack}
      {messages : List Message} (hprepare : planner.prepare call s = .ok (pack, messages) prepared)
      (hanswered : ¬ Answered planner s call messages)
      (hresults : t.providerResults = s.providerResults ++ (planner.advise call messages).results)
      (hresolved : t.resolved = s.resolved ∨
        t.resolved = updateResolved s.resolved (validated planner call messages)) :
      Proposed planner s call (.error e) t
  | returned {result : PlannerResult} {prepared t : SingleAgentState φ} {pack : RoleContextPack}
      {messages : List Message} (hprepare : planner.prepare call s = .ok (pack, messages) prepared)
      (hanswered : Answered planner s call messages)
      (hresults : t.providerResults = s.providerResults ++ (planner.advise call messages).results)
      (hresolved : t.resolved = updateResolved s.resolved (validated planner call messages))
      (hlineage : result.runId = call.request.runId ∧
        result.opportunityId = call.request.opportunityId ∧ result.plannerMode = .singleAgent)
      (hids : result.proposalIds =
        (validated planner call messages).map OptimizationProposal.proposalId)
      (hnodup : result.proposalIds.Nodup)
      (hinput : result.inputTokens = (t.providerResults.map ProviderResult.inputTokens).sum)
      (houtput : result.outputTokens = (t.providerResults.map ProviderResult.outputTokens).sum) :
      Proposed planner s call (.ok (result, validated planner call messages)) t

theorem conclude_ends (proposals : List (OptimizationProposal φ)) :
    EndsIn (planner.conclude call pack result proposals) s
      (fun out t => t = s.resolve proposals ∧ out.2 = proposals ∧
        (∃ status, out.1.toResultPayload = planner.payload call s pack result status
          (proposals.map OptimizationProposal.proposalId) [] false) ∧
        TotalsPrintable s ∧ (proposals.map OptimizationProposal.proposalId).Nodup)
      (fun _ t => t = s.resolve proposals ∧
        ¬ (TotalsPrintable s ∧ (proposals.map OptimizationProposal.proposalId).Nodup)) := by
  have hok : ∀ t : SingleAgentState φ, t.providerResults = s.providerResults →
      ((∃ planned, identified call (planner.payload call t pack result
          (if proposals = [] then .noSafeProposal else .pass)
          (proposals.map OptimizationProposal.proposalId) [] false) = .ok planned) ↔
        TotalsPrintable s ∧ (proposals.map OptimizationProposal.proposalId).Nodup) := by
    intro t ht
    rw [identified_isOk, payload_check_accepted]
    simp only [SingleAgentPlanner.payload, ht, TotalsPrintable]
  unfold conclude
  refine .bind (.modify (.bind (.get (.bind (.ofExcept ?_ ?_)))))
  · intro planned hplanned
    exact .pure ⟨rfl, rfl, ⟨_, (identified_ok hplanned).1⟩, (hok _ rfl).mp ⟨planned, hplanned⟩⟩
  · intro e he
    refine ⟨rfl, fun h => ?_⟩
    obtain ⟨planned, hplanned⟩ := (hok _ rfl).mpr h
    cases he.symm.trans hplanned

theorem fallback_ends {diagnostics : List Diagnostic} (hdiagnostics : diagnostics ≠ []) :
    EndsIn (planner.fallback call pack result diagnostics) s
      (fun out t => ∃ opportunity,
        planner.heuristic.opportunityFor (heuristicRequest call) = .ok opportunity ∧
        t = s.resolve (planner.heuristic.selected (heuristicRequest call) opportunity) ∧
        out.2 = planner.heuristic.selected (heuristicRequest call) opportunity ∧
        (∃ status, out.1.toResultPayload = planner.payload call s pack result status
          (out.2.map OptimizationProposal.proposalId) diagnostics true) ∧ TotalsPrintable s)
      (fun _ t => (t = s ∧ ∀ opportunity,
          planner.heuristic.opportunityFor (heuristicRequest call) ≠ .ok opportunity) ∨
        (∃ opportunity,
          planner.heuristic.opportunityFor (heuristicRequest call) = .ok opportunity ∧
          t = s.resolve (planner.heuristic.selected (heuristicRequest call) opportunity) ∧
          ¬ TotalsPrintable s)) := by
  unfold fallback
  cases hopportunity : planner.heuristic.opportunityFor (heuristicRequest call) with
  | error e =>
    have hpropose : planner.heuristic.propose (heuristicRequest call) = .error e := by
      simp only [HeuristicPlanner.propose, hopportunity, bind, Except.bind]
    refine .bind (.ofExcept (fun _ h => ?_) fun _ _ => .inl ⟨rfl, by simp⟩)
    cases hpropose.symm.trans h
  | ok opportunity =>
    obtain ⟨heuristic, hpropose, hpayload, hproposals⟩ :=
      HeuristicPlanner.propose_ok hopportunity
    let selected := planner.heuristic.selected (heuristicRequest call) opportunity
    have hheuristic : heuristic.toResultPayload.check = .ok () := by
      rw [hpayload]
      exact HeuristicPlanner.payload_check
    have hids : heuristic.proposalIds = selected.map OptimizationProposal.proposalId := by
      rw [hpayload]
      rfl
    have hok : ∀ t : SingleAgentState φ, t.providerResults = s.providerResults →
        ((∃ planned, identified call (planner.payload call t pack result heuristic.status
          heuristic.proposalIds diagnostics true) = .ok planned) ↔ TotalsPrintable s) := by
      intro t ht
      rw [identified_isOk, and_iff_left (payload_check_fallback hdiagnostics hheuristic)]
      simp only [SingleAgentPlanner.payload, ht, TotalsPrintable]
    refine .bind (.ofExcept (fun a ha => .bind (.ofExcept (fun proposals hps => ?_) ?_)) ?_)
    · obtain rfl : heuristic = a := Except.ok.inj (hpropose.symm.trans ha)
      obtain rfl : selected = proposals := Except.ok.inj (hproposals.symm.trans hps)
      refine .bind (.modify (.bind (.get (.bind (.ofExcept ?_ ?_)))))
      · intro planned hplanned
        refine .pure ⟨opportunity, rfl, rfl, rfl, ⟨heuristic.status, ?_⟩,
          (hok _ rfl).mp ⟨planned, hplanned⟩⟩
        rw [(identified_ok hplanned).1, hids]
        rfl
      · intro e he
        refine .inr ⟨opportunity, rfl, rfl, fun h => ?_⟩
        obtain ⟨planned, hplanned⟩ := (hok _ rfl).mpr h
        cases he.symm.trans hplanned
    · intro e he
      obtain rfl : heuristic = a := Except.ok.inj (hpropose.symm.trans ha)
      cases hproposals.symm.trans he
    · intro e he
      cases hpropose.symm.trans he

theorem proposed_of_payload {planned : PlannerResult} {prepared asked : SingleAgentState φ}
    {status : ResultStatus} {diagnostics : List Diagnostic} {fallbackUsed : Bool}
    (hprepare : planner.prepare call s = .ok (pack, messages) prepared)
    (hanswered : Answered planner s call messages)
    (hasked : asked.providerResults =
      s.providerResults ++ (planner.advise call messages).results)
    (hresolved : asked.resolved = s.resolved)
    (hnodup : ((validated planner call messages).map OptimizationProposal.proposalId).Nodup)
    (hpayload : planned.toResultPayload = planner.payload call asked pack result status
      ((validated planner call messages).map OptimizationProposal.proposalId) diagnostics
      fallbackUsed) :
    Proposed planner s call (.ok (planned, validated planner call messages))
      (asked.resolve (validated planner call messages)) := by
  have hids : planned.proposalIds =
      (validated planner call messages).map OptimizationProposal.proposalId :=
    congrArg ResultPayload.proposalIds hpayload
  exact .returned hprepare hanswered hasked (by rw [SingleAgentState.resolve, hresolved])
    ⟨congrArg ResultPayload.runId hpayload, congrArg ResultPayload.opportunityId hpayload,
      congrArg ResultPayload.plannerMode hpayload⟩ hids (by rwa [hids])
    (congrArg ResultPayload.inputTokens hpayload) (congrArg ResultPayload.outputTokens hpayload)

theorem propose_ends : EndsIn (planner.propose call) s
    (fun out t => Proposed planner s call (.ok out) t)
    (fun e t => Proposed planner s call (.error e) t) := by
  unfold propose
  refine .bind ?_
  have hprepared : EndsIn (planner.prepare call) s _ _ := prepare_ends
  unfold EndsIn at hprepared ⊢
  split
  · next pair prepared hprepare =>
    obtain ⟨pack, messages⟩ := pair
    rw [hprepare] at hprepared
    obtain ⟨hresults, hresolved⟩ := hprepared
    let asked : SingleAgentState φ := { prepared with
      providerResults := prepared.providerResults ++ (planner.advise call messages).results }
    have hasked : asked.providerResults =
        s.providerResults ++ (planner.advise call messages).results := by
      simp only [asked, hresults]
    have hresolve : ∀ proposals, (asked.resolve proposals).resolved =
        updateResolved s.resolved proposals := fun proposals => by
      simp only [SingleAgentState.resolve, asked, hresolved]
    refine EndsIn.bind (.modify (.bind (.ofExcept ?_ ?_)))
    · rintro ⟨result, verdict⟩ hverdict
      cases verdict with
      | accepted proposals =>
        obtain rfl : validated planner call messages = proposals := by
          simp [validated, hverdict]
        have hanswered : Answered planner s call messages ↔ TotalsPrintable asked ∧
            ((validated planner call messages).map OptimizationProposal.proposalId).Nodup := by
          simp [Answered, hverdict, TotalsPrintable, hasked, and_comm]
        refine (conclude_ends _).mono ?_ ?_
        · rintro ⟨planned, _⟩ t ⟨rfl, rfl, ⟨status, hpayload⟩, htotals, hnodup⟩
          exact proposed_of_payload hprepare (hanswered.mpr ⟨htotals, hnodup⟩) hasked hresolved
            hnodup hpayload
        · rintro e t ⟨rfl, hnot⟩
          exact .failed hprepare (mt hanswered.mp hnot) hasked (.inr (hresolve _))
      | rejected diagnostics =>
        have hanswered : Answered planner s call messages ↔
            (∃ opportunity, planner.heuristic.opportunityFor (heuristicRequest call) =
              .ok opportunity) ∧ TotalsPrintable asked := by
          simp [Answered, hverdict, TotalsPrintable, hasked]
        have hvalidated : ∀ {opportunity},
            planner.heuristic.opportunityFor (heuristicRequest call) = .ok opportunity →
              validated planner call messages =
                planner.heuristic.selected (heuristicRequest call) opportunity := by
          intro opportunity hopportunity
          simp [validated, hverdict, hopportunity]
        refine (fallback_ends (advise_rejected hverdict)).mono ?_ ?_
        · rintro ⟨planned, _⟩ t ⟨opportunity, hopportunity, rfl, rfl, ⟨status, hpayload⟩, htotals⟩
          have hselected := hvalidated hopportunity
          dsimp only at hpayload ⊢
          rw [← hselected] at hpayload ⊢
          exact proposed_of_payload hprepare (hanswered.mpr ⟨⟨_, hopportunity⟩, htotals⟩) hasked
            hresolved (by rw [hselected]; exact HeuristicPlanner.selected_nodup) hpayload
        · rintro e t (⟨rfl, hnone⟩ | ⟨opportunity, hopportunity, rfl, hnot⟩)
          · refine .failed hprepare (fun h => ?_) hasked (.inl hresolved)
            obtain ⟨⟨opportunity, hopportunity⟩, -⟩ := hanswered.mp h
            exact hnone opportunity hopportunity
          · exact .failed hprepare (fun h => hnot (hanswered.mp h).2) hasked
              (.inr (by rw [hresolve, hvalidated hopportunity]))
    · intro e hverdict
      refine .failed hprepare ?_ hasked (.inl hresolved)
      simp [Answered, hverdict]
  · next e t hprepare =>
    rw [hprepare] at hprepared
    exact .refused hprepare hprepared.1 hprepared.2

end SingleAgentPlanner

end NovaRtl.Planner
