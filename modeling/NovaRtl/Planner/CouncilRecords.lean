import NovaRtl.Planner.CouncilReturns

/-!
# What the council records

The records of a deliberation are of the calls that were heard, in their order, and the tokens of a
result are those of its records. With these the council of two proposals comes to its result.
-/

namespace NovaRtl.Planner

open Text Transact

variable {φ : Type} {F : Floats φ}

/-! ## Records -/

section Records

variable {call : CouncilCall φ} {hearing : Hearing φ} {packHash : String}
  {item : PrivateRoleRecord} {minutes : Minutes φ} {items : List PrivateRoleRecord}

/-- What the record of a hearing says. -/
structure Recorded (hearing : Hearing φ) (packHash : String) (item : PrivateRoleRecord) : Prop where
  role_eq : item.roleId = hearing.call.roleId
  kind_eq : item.roleKind = hearing.call.roleKind
  hash_eq : item.privatePackHash = packHash
  status_eq : item.status = hearing.outcome.status
  input_eq : (item.inputTokens : ℤ) = hearing.outcome.inputTokens
  output_eq : (item.outputTokens : ℤ) = hearing.outcome.outputTokens
  latency_eq : (item.latencyMs : ℤ) = hearing.outcome.latencyMs

theorem roleRecord_ok {ids : List Identifier}
    (h : CouncilPlanner.roleRecord (F := F) call hearing packHash ids = .ok item) :
    Recorded hearing packHash item := by
  unfold CouncilPlanner.roleRecord at h
  split at h
  · cases h
  · obtain ⟨artifact, -, h⟩ := bind_eq_ok.mp h
    obtain ⟨-, h⟩ := seq_eq_ok.mp h
    obtain ⟨hcounts, h⟩ := seq_eq_ok.mp h
    obtain ⟨hinput, houtput, hlatency⟩ := require_eq_ok.mp hcounts
    obtain rfl := Except.ok.inj h
    exact ⟨rfl, rfl, rfl, rfl, Int.toNat_of_nonneg hinput, Int.toNat_of_nonneg houtput,
      Int.toNat_of_nonneg hlatency⟩

theorem openRecord_ok (h : CouncilPlanner.openRecord (F := F) call hearing = .ok item) :
    ∃ packHash, Recorded hearing packHash item := by
  obtain ⟨hash, -, h⟩ := bind_eq_ok.mp h
  exact ⟨hash.val, roleRecord_ok h⟩

/-- What was heard, in the order of the records. -/
def Minutes.hearings (minutes : Minutes φ) : List (Hearing φ) :=
  minutes.proposers ++ minutes.critics ++ [minutes.chair]

theorem records_ok (h : CouncilPlanner.records (F := F) call minutes = .ok items)
    (hpacks : minutes.proposers.length ≤ minutes.packs.length) :
    List.Forall₂ (fun hearing item => ∃ packHash, Recorded hearing packHash item)
      minutes.hearings items := by
  unfold CouncilPlanner.records at h
  obtain ⟨proposers, hproposers, h⟩ := bind_eq_ok.mp h
  obtain ⟨critics, hcritics, h⟩ := bind_eq_ok.mp h
  obtain ⟨chair, hchair, h⟩ := bind_eq_ok.mp h
  obtain rfl := Except.ok.inj h
  refine List.rel_append (List.rel_append ?_ ?_) (.cons (openRecord_ok hchair) .nil)
  · rw [← List.map_fst_zip hpacks, List.forall₂_map_left_iff]
    exact (mapM_eq_ok.mp hproposers).imp fun _ _ hrecord => ⟨_, roleRecord_ok hrecord⟩
  · exact (mapM_eq_ok.mp hcritics).imp fun _ _ hrecord => openRecord_ok hrecord

theorem sum_inputTokens {hearings : List (Hearing φ)}
    (h : List.Forall₂ (fun hearing item => ∃ packHash, Recorded hearing packHash item) hearings
      items) : ((items.map PrivateRoleRecord.inputTokens).sum : ℤ) =
        (hearings.map fun hearing => hearing.outcome.inputTokens).sum := by
  induction h with
  | nil => rfl
  | cons hrecord _ ih =>
    obtain ⟨_, hrecord⟩ := hrecord
    simp only [List.map_cons, List.sum_cons, Nat.cast_add, hrecord.input_eq, ih]

theorem sum_outputTokens {hearings : List (Hearing φ)}
    (h : List.Forall₂ (fun hearing item => ∃ packHash, Recorded hearing packHash item) hearings
      items) : ((items.map PrivateRoleRecord.outputTokens).sum : ℤ) =
        (hearings.map fun hearing => hearing.outcome.outputTokens).sum := by
  induction h with
  | nil => rfl
  | cons hrecord _ ih =>
    obtain ⟨_, hrecord⟩ := hrecord
    simp only [List.map_cons, List.sum_cons, Nat.cast_add, hrecord.output_eq, ih]

theorem trace_tokens {route : CouncilRoute} {councilRequestId : Identifier} {trace : CouncilTrace}
    (h : CouncilPlanner.trace call route councilRequestId items = .ok trace) :
    trace.inputTokens = (items.map PrivateRoleRecord.inputTokens).sum ∧
      trace.outputTokens = (items.map PrivateRoleRecord.outputTokens).sum := by
  unfold CouncilPlanner.trace at h
  obtain ⟨-, h⟩ := seq_eq_ok.mp h
  obtain ⟨-, h⟩ := seq_eq_ok.mp h
  obtain rfl := Except.ok.inj h
  exact ⟨rfl, rfl⟩

variable {planner : CouncilPlanner F} {s t : CouncilState φ} {planned : PlannerResult}

/-- The tokens of a deliberation are those of the calls that it heard. -/
theorem deliberate_tokens (h : planner.deliberate call s = .ok (planned, minutes) t) :
    (planned.inputTokens : ℤ) =
        (minutes.hearings.map fun hearing => hearing.outcome.inputTokens).sum ∧
      (planned.outputTokens : ℤ) =
        (minutes.hearings.map fun hearing => hearing.outcome.outputTokens).sum := by
  obtain ⟨route, request, u, hconvene, hconclude⟩ := CouncilPlanner.deliberate_ok.mp h
  obtain ⟨opportunity, -, -, deadlineMs, -, -, -, packs, audit, -, completed, hconfer, -⟩ :=
    CouncilPlanner.convene_ok.mp hconvene
  obtain ⟨items, hitems, -, trace, htrace, result, -, identity, -, hplanned, -⟩ :=
    CouncilPlanner.conclude_ok.mp hconclude
  obtain ⟨-, rfl⟩ := result_ok.mp hplanned
  obtain ⟨proposerOutcomes, completed₁, -, proposals, -, entries, -, criticOutcomes, completed₂, -,
    critiques, -, chairOutcome, rest, -, chair, shortlist, chosen, -, rfl⟩ :=
    CouncilPlanner.confer_ok.mp hconfer
  have hlength : (hearings (planner.proposerCalls call route packs) proposerOutcomes).length ≤
      packs.length := by
    simp [hearings, CouncilPlanner.proposerCalls]
  have hrecords := records_ok hitems hlength
  obtain ⟨hinput, houtput⟩ := trace_tokens htrace
  rw [← sum_inputTokens hrecords, ← sum_outputTokens hrecords]
  exact ⟨congrArg Nat.cast hinput, congrArg Nat.cast houtput⟩

end Records

/-! ## The records of the council of two proposals -/

section TreeRecords

variable {tokenBudget : ℕ} {h : 0 < tokenBudget}

/-- The record of a role of that council. -/
structure TreeRecord (role : CouncilRole) (kind : RoleKind) (packHash : String)
    (item : PrivateRoleRecord) : Prop where
  role_eq : item.roleId = role
  kind_eq : item.roleKind = kind
  hash : item.privatePackHash = packHash
  status : item.status = .pass
  input : item.inputTokens = 1
  output : item.outputTokens = 1
  latency : item.latencyMs = 1
  writable : (item.toJson (φ := Empty) treeRuntime.showInstant).writable

theorem treeAnswer_writable (role : CouncilRole) : (Json.obj (treeAnswer role)).writable ∧
    (Json.int (jsonBytes halfFloats (.obj (treeAnswer role))).length : Json Empty).writable := by
  cases role <;> decide +kernel

theorem treeRecord (roleCall : CouncilRoleCall Unit) (packHash : String) : ∃ item,
    CouncilPlanner.roleRecord (F := halfFloats) (treeCall tokenBudget h)
      ⟨roleCall, respond roleCall⟩ packHash [] = .ok item ∧
      TreeRecord roleCall.roleId roleCall.roleKind packHash item := by
  obtain ⟨hanswer, hsize⟩ := treeAnswer_writable roleCall.roleId
  obtain ⟨text, htext, -⟩ := exists_dumps (F := halfFloats) hanswer
  have hcontent : canonicalBytes halfFloats (.obj (respond roleCall).output) =
      some (encode text) := by
    rw [canonicalBytes]
    exact congrArg (Option.map encode) htext
  have hlength := size_of_canonicalBytes hcontent
  unfold CouncilPlanner.roleRecord
  rw [hcontent]
  refine ⟨_, bind_eq_ok.mpr ⟨_, rfl, seq_eq_ok.mpr ⟨require_eq_ok.mpr List.nodup_nil,
    seq_eq_ok.mpr ⟨require_eq_ok.mpr (by simp [respond, answer]), rfl⟩⟩⟩,
    ⟨rfl, rfl, rfl, rfl, rfl, rfl, rfl, ?_⟩⟩
  have hsize' : (Json.int (encode text).size : Json Empty).writable := by
    rw [hlength]
    exact hsize
  simp only [PrivateRoleRecord.toJson, artifactJson, idsJson, Json.writable_obj]
  simp [hsize', Json.writable_int_of_lt, respond, answer]

theorem criticPayload_writable (role : CouncilRole) : (criticPayload role).writable := by
  simp [criticPayload, ProposalCard.toJson]

theorem chairPayload_writable : chairPayload.writable := by
  simp [chairPayload, ProposalCard.toJson, CritiqueReport.toJson, treeReviews, review,
    Json.writable_int_of_lt]

theorem treeOpenRecord (roleCall : CouncilRoleCall Unit) {payload : Json Unit}
    (hpayload : roleCall.inputPayload = payload) (hwritable : payload.writable) : ∃ item,
      CouncilPlanner.openRecord (F := halfFloats) (treeCall tokenBudget h)
        ⟨roleCall, respond roleCall⟩ = .ok item ∧
      TreeRecord roleCall.roleId roleCall.roleKind (canonicalHash halfFloats payload hwritable).val
        item := by
  subst hpayload
  obtain ⟨item, hitem, hrecorded⟩ := treeRecord (h := h) roleCall
    (canonicalHash halfFloats roleCall.inputPayload hwritable).val
  exact ⟨item, bind_eq_ok.mpr
    ⟨_, hashOrRaise_ok.mpr (canonicalSha256_canonicalHash hwritable), hitem⟩, hrecorded⟩

def formalHash : HashRef :=
  canonicalHash halfFloats (criticPayload .formalCritic) (criticPayload_writable _)

def ppaHash : HashRef :=
  canonicalHash halfFloats (criticPayload .ppaCritic) (criticPayload_writable _)

def chairHash : HashRef := canonicalHash halfFloats chairPayload chairPayload_writable

/-- The records of the council, in the order of its roles. -/
structure TreeRecords (items : List PrivateRoleRecord) : Prop where
  recorded : ∃ timing logic formal ppa chair, items = [timing, logic, formal, ppa, chair] ∧
    TreeRecord .timingForensics .proposer (packHash .timingForensics).val timing ∧
    TreeRecord .logicDomainSpecialist .proposer (packHash .logicDomainSpecialist).val logic ∧
    TreeRecord .formalCritic .critic formalHash.val formal ∧
    TreeRecord .ppaCritic .critic ppaHash.val ppa ∧
    TreeRecord .proposalChair .chair chairHash.val chair

theorem treeRecords {route : CouncilRoute} (hroute : TreeRoute route) {packs : List RoleContextPack}
    (hhashes : packs.map RoleContextPack.privatePackHash =
      treeProposers.map (fun role => (packHash role).val))
    (hgrants : packs.map RoleContextPack.retrievalGrants = [[], []]) : ∃ items,
      CouncilPlanner.records (F := halfFloats) (treeCall tokenBudget h)
        (treeMinutes tokenBudget h route packs) = .ok items ∧ TreeRecords items := by
  obtain ⟨packA, packB, rfl⟩ : ∃ packA packB, packs = [packA, packB] := by
    have hlength := congrArg List.length hgrants
    rw [List.length_map] at hlength
    exact List.length_eq_two.mp hlength
  simp only [List.map_cons, List.map_nil, List.cons.injEq, and_true, treeProposers]
    at hhashes hgrants
  obtain ⟨hhashA, hhashB⟩ := hhashes
  obtain ⟨hgrantsA, hgrantsB⟩ := hgrants
  unfold CouncilPlanner.records treeMinutes
  simp only [CouncilPlanner.proposerCalls, CouncilPlanner.criticCalls, hroute.proposers,
    hroute.critics, treeProposers, treeCritics, hearings, List.zip_cons_cons, List.zip_nil_right,
    List.map_cons, List.map_nil]
  obtain ⟨timing, htiming, hrecordedA⟩ := treeRecord (h := h)
    ⟨.timingForensics, .proposer, _, _⟩ (packHash .timingForensics).val
  obtain ⟨logic, hlogic, hrecordedB⟩ := treeRecord (h := h)
    ⟨.logicDomainSpecialist, .proposer, _, _⟩ (packHash .logicDomainSpecialist).val
  obtain ⟨formal, hformal, hrecordedC⟩ := treeOpenRecord (h := h)
    ⟨.formalCritic, .critic, _, _⟩ rfl (criticPayload_writable .formalCritic)
  obtain ⟨ppa, hppa, hrecordedD⟩ := treeOpenRecord (h := h)
    ⟨.ppaCritic, .critic, _, _⟩ rfl (criticPayload_writable .ppaCritic)
  have hpayload : ((treePlanner tokenBudget h).chairCall (treeCall tokenBudget h) route
      (treeEntries.map card) [[], treeReviews].flatten).inputPayload = chairPayload := by
    rw [CouncilPlanner.chairCall, hroute.chair]
    rfl
  obtain ⟨chair, hchair, hrecordedE⟩ := treeOpenRecord (h := h) _ hpayload chairPayload_writable
  refine ⟨[timing, logic, formal, ppa, chair], bind_eq_ok.mpr ⟨[timing, logic], ?_,
    bind_eq_ok.mpr ⟨[formal, ppa], ?_, bind_eq_ok.mpr ⟨chair, hchair, rfl⟩⟩⟩,
    ⟨timing, logic, formal, ppa, chair, rfl, hrecordedA, hrecordedB, hrecordedC, hrecordedD, ?_⟩⟩
  · refine mapM_eq_ok.mpr (.cons ?_ (.cons ?_ .nil))
    · rw [hhashA, hgrantsA]
      exact htiming
    · rw [hhashB, hgrantsB]
      exact hlogic
  · exact mapM_eq_ok.mpr (.cons hformal (.cons hppa .nil))
  · have hrole : ((treePlanner tokenBudget h).chairCall (treeCall tokenBudget h) route
        (treeEntries.map card) [[], treeReviews].flatten).roleId = .proposalChair := hroute.chair
    rw [hrole] at hrecordedE
    exact hrecordedE

end TreeRecords

section TreeTrace

variable {tokenBudget : ℕ} {h : 0 < tokenBudget} {items : List PrivateRoleRecord}

def treeRoles : List CouncilRole := treeProposers ++ treeCritics ++ [.proposalChair]

def roleJson (key : String) (value : Json Empty) (role : CouncilRole) : Json Empty :=
  .obj [("role", .str role.text), (key, value)]

/-- The hashes of roles differ if their first words do. -/
theorem roleHashes_nodup {key : String} {value : Json Empty} {hvalue : value.writable = true}
    {roles : List CouncilRole} {words : List ℕ}
    (hwords : roles.map (fun role => (jsonDigest noFloats (roleJson key value role)).a) = words)
    (hnodup : (words.map Sha256.hexWord).Nodup) :
    (roles.map (roleHash key value hvalue)).Nodup := by
  refine List.Nodup.of_map (fun hash => firstDigits hash.val) ?_
  have hdigits : (roles.map (roleHash key value hvalue)).map (fun hash => firstDigits hash.val) =
      words.map Sha256.hexWord := by
    rw [← hwords, List.map_map, List.map_map]
    exact List.map_congr_left fun role _ => firstDigits_canonicalHash _
  rwa [hdigits]

theorem roleDigests :
    treeRoles.map (fun role => (jsonDigest noFloats
        (roleJson "prompt_version" (.int 1) role)).a) =
      [1169120564, 3498534903, 3743925615, 1335312571, 2042329730] ∧
    treeRoles.map (fun role => (jsonDigest noFloats
        (roleJson "provider" (.str "bounded_runtime") role)).a) =
      [3839551632, 3618041495, 1854983171, 2969249672, 3481770963] ∧
    treeRoles.map (fun role => (jsonDigest noFloats
        (roleJson "retrieval" (.str "audited") role)).a) =
      [2258624208, 982555657, 2737001746, 4276232705, 1966157038] := by
  simp only [jsonDigest_eq_quickDigest]
  decide +kernel

theorem TreeRecords.hashes_nodup (hitems : TreeRecords items) :
    (items.map PrivateRoleRecord.privatePackHash).Nodup := by
  obtain ⟨timing, logic, formal, ppa, chair, rfl, htiming, hlogic, hformal, hppa, hchair⟩ := hitems
  obtain ⟨htimingHash, hlogicHash, hformalHash, hppaHash, hchairHash⟩ := payloadDigests
  refine nodup_of_firstDigits ?_
  simp only [List.map_cons, List.map_nil, htiming.hash, hlogic.hash, hformal.hash, hppa.hash,
    hchair.hash, packHash, formalHash, ppaHash, chairHash, firstDigits_canonicalHash,
    htimingHash, hlogicHash, hformalHash, hppaHash, hchairHash]
  decide

theorem TreeRecords.totals (hitems : TreeRecords items) :
    items.map PrivateRoleRecord.roleId = treeRoles ∧
      (items.map PrivateRoleRecord.inputTokens).sum = 5 ∧
      (items.map PrivateRoleRecord.outputTokens).sum = 5 ∧
      (items.map PrivateRoleRecord.latencyMs).sum = 5 ∧
      (items.map fun item => item.inputTokens + item.outputTokens).sum = 10 := by
  obtain ⟨timing, logic, formal, ppa, chair, rfl, htiming, hlogic, hformal, hppa, hchair⟩ := hitems
  simp [htiming.role_eq, hlogic.role_eq, hformal.role_eq, hppa.role_eq, hchair.role_eq,
    htiming.input, hlogic.input, hformal.input, hppa.input, hchair.input, htiming.output,
    hlogic.output, hformal.output, hppa.output, hchair.output, htiming.latency, hlogic.latency,
    hformal.latency, hppa.latency, hchair.latency, treeRoles, treeProposers, treeCritics]

theorem TreeRoute.selected {route : CouncilRoute} (hroute : TreeRoute route) :
    route.selected = treeRoles := by
  rw [RoutePayload.selected, hroute.proposers, hroute.critics, hroute.chair]
  rfl

theorem treeTraced {route : CouncilRoute} (hroute : TreeRoute route) (hitems : TreeRecords items)
    (councilRequestId : Identifier) : ∃ trace,
      CouncilPlanner.trace (treeCall tokenBudget h) route councilRequestId items = .ok trace ∧
      trace.contextPackHashes = items.map PrivateRoleRecord.privatePackHash ∧
      trace.inputTokens = 5 ∧ trace.outputTokens = 5 ∧ trace.latencyMs = 5 := by
  obtain ⟨-, hinput, houtput, hlatency, -⟩ := hitems.totals
  obtain ⟨hprompts, hmodels, hretrievals⟩ := roleDigests
  unfold CouncilPlanner.trace
  simp only [hroute.selected, hinput, houtput, hlatency]
  refine ⟨_, seq_eq_ok.mpr ⟨require_eq_ok.mpr ?_, seq_eq_ok.mpr ⟨?_, rfl⟩⟩, rfl, rfl, rfl, rfl⟩
  · intro index hindex
    change (-62135596800000000 : ℤ) ≤ 0 - (5 - (index : ℤ)) * 1000000
    omega
  · simp only [CouncilTrace.check, seq_eq_ok, require_eq_ok]
    refine ⟨?_, by decide, ?_, ?_, rfl, roleHashes_nodup hprompts (by decide),
      roleHashes_nodup hmodels (by decide), hitems.hashes_nodup,
      roleHashes_nodup hretrievals (by decide)⟩
    · exact ⟨List.cons_ne_nil _ _, List.cons_ne_nil _ _⟩
    · rfl
    · intro event hevent
      obtain ⟨⟨role, index⟩, hmem, rfl⟩ := List.mem_map.mp hevent
      exact List.fst_mem_of_mem_zipIdx hmem

end TreeTrace

section TreeConcluded

variable {tokenBudget : ℕ} {h : 0 < tokenBudget} {items : List PrivateRoleRecord}

theorem TreeRecords.writable (hitems : TreeRecords items) :
    ∀ item ∈ items, (item.toJson (φ := Empty) treeRuntime.showInstant).writable := by
  obtain ⟨timing, logic, formal, ppa, chair, rfl, htiming, hlogic, hformal, hppa, hchair⟩ := hitems
  simp [htiming.writable, hlogic.writable, hformal.writable, hppa.writable, hchair.writable]

theorem treeReviews_writable : ∀ report ∈ treeReviews,
    (report.toJson : Json Empty).writable := by
  simp [treeReviews, review, CritiqueReport.toJson, Json.writable_int_of_lt]

theorem shortlist_writable : ((shortlistOf treeIds).toJson : Json Empty).writable := by
  simp [ProposalShortlist.toJson, idsJson, shortlistOf, Json.writable_int_of_lt]

theorem treeRoles_nodup : treeRoles.Nodup := by decide

theorem treeIds_nodup : treeIds.Nodup := by decide

theorem treeCards_nodup : (treeEntries.map fun entry => (card entry).proposalCardId).Nodup := by
  refine List.Nodup.of_map Subtype.val ?_
  decide +kernel

theorem reviews_cards : ∀ report ∈ [[], treeReviews].flatten,
    report.proposalCardId ∈ treeEntries.map fun entry => (card entry).proposalCardId := by
  simp [treeReviews, review, treeEntries]

theorem treeResult {route : CouncilRoute} (hroute : TreeRoute route) (hitems : TreeRecords items)
    {packs : List RoleContextPack} (councilRequestId : Identifier) (trace : CouncilTrace) :
    ∃ result, (treePlanner tokenBudget h).councilResult (treeCall tokenBudget h) route
      councilRequestId (treeMinutes tokenBudget h route packs) items trace = .ok result := by
  obtain ⟨envelopeHash, henvelope⟩ := hashOrRaise_isOk (F := halfFloats).mpr treeEnvelope_writable
  obtain ⟨shortlistHash, hshortlist⟩ := hashOrRaise_isOk (F := noFloats).mpr shortlist_writable
  obtain ⟨recordHashes, hrecords⟩ : ∃ hashes, (items.mapM fun item =>
      hashOrRaise noFloats (item.toJson treeRuntime.showInstant)) = .ok hashes :=
    exists_mapM_eq_ok fun item hitem => hashOrRaise_isOk.mpr (hitems.writable item hitem)
  obtain ⟨reviewHashes, hreviews⟩ : ∃ hashes, (([[], treeReviews].flatten).mapM fun report =>
      hashOrRaise noFloats report.toJson) = .ok hashes :=
    exists_mapM_eq_ok fun report hreport => hashOrRaise_isOk.mpr
      (treeReviews_writable report (by simpa using hreport))
  unfold CouncilPlanner.councilResult
  refine ⟨_, bind_eq_ok.mpr ⟨envelopeHash, henvelope, bind_eq_ok.mpr ⟨shortlistHash, hshortlist,
    bind_eq_ok.mpr ⟨recordHashes, hrecords, bind_eq_ok.mpr ⟨reviewHashes, hreviews,
    bind_eq_ok.mpr ⟨[], rfl, bind_eq_ok.mpr ⟨_, hashOrRaise_ok.mpr
    (canonicalSha256_canonicalHash ?_), seq_eq_ok.mpr ⟨?_, rfl⟩⟩⟩⟩⟩⟩⟩⟩
  · simp [idsJson]
  · obtain ⟨hroles, -, -, -, -⟩ := hitems.totals
    have hhashes := hitems.hashes_nodup
    obtain ⟨timing, logic, formal, ppa, chair, rfl, htiming, hlogic, hformal, hppa, hchair⟩ :=
      hitems
    simp only [CouncilResult.check, seq_eq_ok, treeMinutes, hroute.selected, hroles]
    refine ⟨require_of ⟨hroute.codes_ne, List.cons_ne_nil _ _⟩,
      require_of ⟨Nat.zero_le _, by decide⟩, require_of hroute.codes_nodup,
      require_of treeRoles_nodup, require_of treeRoles_nodup, require_of (List.Subset.refl _),
      require_of hhashes, require_of fun _ => by trivial, require_of fun _ => ?_,
      require_of fun _ => ?_, require_of fun _ => ⟨?_, ?_, ?_⟩, require_of ?_, require_of ?_,
      require_of ?_, require_of ?_, require_of List.nodup_nil, require_of fun _ => ?_,
      require_of (List.nil_subset _), require_of ?_, require_of ?_,
      require_of fun hmet => hmet.1 rfl, require_of fun _ => by trivial, require_of (by trivial),
      require_of fun _ => by trivial, require_of fun _ => ?_, require_of ?_, require_of ?_,
      require_of ?_, require_of ?_, require_of (by trivial), require_of (by trivial),
      require_of ?_⟩
    · simp [htiming.kind_eq, htiming.status, hlogic.kind_eq, hlogic.status]
    · simp [htiming.kind_eq, hlogic.kind_eq, hformal.kind_eq, hppa.kind_eq, hchair.kind_eq,
        hchair.status]
    · decide
    · simp [CouncilResult.criticStatus, hformal.kind_eq, hppa.kind_eq, hchair.kind_eq,
        hformal.role_eq, hppa.role_eq, hformal.status]
    · simp [CouncilResult.criticStatus, hppa.kind_eq, hchair.kind_eq, hppa.role_eq, hppa.status]
    · exact treeCards_nodup
    · exact treeIds_nodup
    · exact reviews_cards
    · exact List.nodup_nil
    · rfl
    · exact treeIds_nodup
    · exact List.subset_append_left _ _
    · exact List.cons_ne_nil _ _
    · exact fun hstatus => absurd hstatus.1 (by decide)
    · exact fun hcancelled => absurd hcancelled (by decide)
    · exact fun hcancelled => absurd hcancelled (by decide)
    · exact fun hexceeded => absurd hexceeded (by decide)
    · exact fun hcited => absurd rfl hcited

theorem treePayload {trace : CouncilTrace} {councilResultId : Identifier}
    (hnodup : trace.contextPackHashes.Nodup) :
    ((treePlanner tokenBudget h).payload (treeCall tokenBudget h) treeIds councilResultId
      trace).check = .ok () := by
  simp only [ResultPayload.check, seq_eq_ok, CouncilPlanner.payload]
  exact ⟨require_of treeIds_nodup, require_of hnodup,
    require_of fun hempty => List.cons_ne_nil _ _ hempty.2, require_of (by decide),
    require_of (by decide), require_of (by decide), require_of (by decide),
    require_of (by simp), require_of (by simp)⟩

theorem treePayload_writable {trace : CouncilTrace} {councilResultId : Identifier}
    (hinput : trace.inputTokens = 5) (houtput : trace.outputTokens = 5)
    (hlatency : trace.latencyMs = 5) :
    (((treePlanner tokenBudget h).payload (treeCall tokenBudget h) treeIds councilResultId
      trace).toJson false : Json Empty).writable := by
  simp [ResultPayload.toJson, CouncilPlanner.payload, idsJson, hinput, houtput, hlatency,
    Json.writable_int_of_lt]

/-- With enough tokens the council lists both proposals. -/
theorem treeProposed : ∃ tokenBudget h planned route packs t,
    (treePlanner tokenBudget h).propose (treeCall tokenBudget h) newState =
      .ok (planned, .deliberated (treeMinutes tokenBudget h route packs)) t ∧
    TreeRoute route ∧ planned.proposalIds = treeIds := by
  obtain ⟨needed, hneeded⟩ := treeConvened
  have hpos : 0 < max needed 10 := lt_max_of_lt_right (by decide)
  obtain ⟨route, request, packs, u, hconvene, hroute, hhashes, hgrants, -, hbudget⟩ :=
    hneeded hpos (le_max_left _ _)
  obtain ⟨items, hrecords, hitems⟩ := treeRecords (h := hpos) hroute hhashes hgrants
  obtain ⟨trace, htrace, hpacks, hinput, houtput, hlatency⟩ :=
    treeTraced (h := hpos) hroute hitems request.councilRequestId
  obtain ⟨result, hresult⟩ :=
    @treeResult _ hpos items route hroute hitems packs request.councilRequestId trace
  have htotal : (items.map fun item => item.inputTokens + item.outputTokens).sum ≤
      request.aggregateTokenBudget := by
    rw [hitems.totals.2.2.2.2, hbudget]
    exact le_min (le_max_right _ _) (by simp [treePlanner, treePolicy])
  obtain ⟨identity, hidentity⟩ := hashOrRaise_isOk (F := noFloats).mpr
    (@treePayload_writable _ hpos trace result.councilResultId hinput houtput hlatency)
  have hconclude := (CouncilPlanner.conclude_ok (s := u)).mpr ⟨items, hrecords, htotal, trace,
    htrace, result, hresult, identity, hidentity, result_ok.mpr ⟨treePayload (hpacks ▸ hitems.hashes_nodup), rfl⟩,
    rfl⟩
  exact ⟨_, hpos, _, route, packs, _, CouncilPlanner.propose_of_deliberate treeAuthority
    (CouncilPlanner.deliberate_ok.mpr ⟨route, request, u, hconvene, hconclude⟩), hroute, rfl⟩

end TreeConcluded

end NovaRtl.Planner
