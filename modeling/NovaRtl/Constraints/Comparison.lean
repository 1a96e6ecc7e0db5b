import NovaRtl.Constraints.Binding

/-!
# What the comparison of bindings determines

A candidate is accepted against a baseline exactly if its own inputs are well formed and have the
summary of the baseline. The summary has the names of the analysis views but not their hashes, and
the numbers of the endpoints but not their names, so an accepted candidate can differ in both.

## Main definitions

* `WellFormed` — inputs that are accepted without a baseline.
* `SameSummary` — what a candidate is compared by, on the inputs of the two audits.
* `SameIntent` — the intent of the constraints, which a comparison should determine.
-/

namespace NovaRtl.Constraints

open Text

variable {inputs b c : AuditInputs} {baseline manifest : ConstraintBindingManifest}
  {base : Option ConstraintBindingManifest}

/-! ## Well-formed inputs -/

/-- Inputs that pass every check that does not concern a baseline. -/
structure WellFormed (inputs : AuditInputs) : Prop where
  views_ne : inputs.analysisViewHashes ≠ []
  views_locked : ∀ view, view ∈ inputs.analysisViewHashes ↔
    view ∈ inputs.expectedAnalysisViewHashes
  expected_ne : inputs.expectedCommandIds ≠ []
  expected_sorted : inputs.expectedCommandIds = sorted inputs.expectedCommandIds
  expected_nodup : inputs.expectedCommandIds.Nodup
  commands_nodup : inputs.commandIds.Nodup
  commands_expected : ∀ id, id ∈ inputs.commandIds ↔ id ∈ inputs.expectedCommandIds
  objects_ne : ∀ item ∈ inputs.commandResolutions, item.resolvedObjectIds ≠ []
  covered : inputs.EndpointsCovered
  manifest_id : isEntityId inputs.bindingManifestId
  candidate_id : isEntityId inputs.candidateId
  sdc_hash : isHashRef inputs.sdcHash
  netlist_hash : isHashRef inputs.netlistSnapshotHash
  view_ids : ∀ id ∈ inputs.viewIds, isEntityId id
  writable : inputs.payload.toJson.writable

theorem sorted_sorted (xs : List String) : sorted (sorted xs) = sorted xs :=
  (List.pairwise_insertionSort (· ≤ ·) xs).insertionSort_eq

theorem check_resolve {item : ConstraintCommandResolution} :
    item.resolve.check = .ok () ↔ item.resolvedObjectIds ≠ [] := by
  have hsorted : sortedSet item.resolvedObjectIds = sorted (sortedSet item.resolvedObjectIds) :=
    (sorted_sorted _).symm
  have hnodup : (sortedSet item.resolvedObjectIds).Nodup :=
    (List.perm_insertionSort _ _).nodup_iff.mpr (List.nodup_dedup _)
  have hempty : sortedSet item.resolvedObjectIds = [] ↔ item.resolvedObjectIds = [] := by
    simp only [List.eq_nil_iff_forall_not_mem, mem_sortedSet]
  simp only [ResolvedConstraintCommand.check, seq_eq_ok, require_eq_ok]
  simp only [ConstraintCommandResolution.resolve, mem_sortedSet]
  constructor
  · rintro ⟨⟨hne, -⟩, -⟩
    exact mt hempty.mpr hne
  · intro hne
    exact ⟨⟨mt hempty.mp hne, item.objects_nonempty⟩, hsorted, hnodup, trivial⟩

theorem length_of_covered (h : inputs.EndpointsCovered) :
    inputs.timedEndpointIds.length + inputs.reviewedExceptionEndpointIds.length =
      inputs.sequentialEndpointIds.length := by
  obtain ⟨⟨hseq, htimed, hexcepted⟩, hdisjoint, hsub, hsub', hcover⟩ := h
  rw [← List.length_append]
  refine List.Perm.length_eq ((List.perm_ext_iff_of_nodup ?_ hseq).mpr fun id => ?_)
  · exact List.nodup_append.mpr ⟨htimed, hexcepted, fun a ha b hb hab => hdisjoint a ha (hab ▸ hb)⟩
  · exact ⟨fun hid => (List.mem_append.mp hid).elim (fun h => hsub h) fun h => hsub' h,
      fun hid => hcover hid⟩

theorem check_coverage (h : inputs.EndpointsCovered) : inputs.coverage.check = .ok () := by
  have hlength := length_of_covered h
  obtain ⟨⟨hseq, htimed, hexcepted⟩, -⟩ := h
  simp [ConstraintCoverage.check, AuditInputs.coverage, seq_eq_ok, require_eq_ok, hseq.dedup,
    htimed.dedup, hexcepted.dedup, hlength]

theorem viewIds_nodup (inputs : AuditInputs) : (sorted inputs.viewIds).Nodup :=
  (List.perm_insertionSort _ _).nodup_iff.mpr inputs.views_nodup

theorem commandIds_resolved (inputs : AuditInputs) :
    (inputs.resolvedCommands.map fun command => command.commandId.val).Perm inputs.commandIds := by
  unfold AuditInputs.resolvedCommands AuditInputs.commandIds
  rw [List.map_map]
  exact (sortedBy_perm _ inputs.commandResolutions).map _

theorem compareToBaseline_ok : compareToBaseline inputs base = .ok () ↔
    ∀ m ∈ base, SameBinding m inputs := by
  cases base <;> simp [compareToBaseline, require_eq_ok]

theorem buildManifest_ok (hne : inputs.resolvedCommands ≠ []) (hcommands : inputs.commandIds.Nodup)
    (hviews : inputs.analysisViewHashes ≠ []) :
    buildManifest inputs = .ok manifest ↔
      (isEntityId inputs.bindingManifestId ∧ isEntityId inputs.candidateId ∧
          isHashRef inputs.sdcHash ∧ isHashRef inputs.netlistSnapshotHash ∧
          ∀ id ∈ inputs.viewIds, isEntityId id) ∧
        ∃ hash, canonicalSha256 noFloats inputs.payload.toJson = some hash ∧
          manifest = ⟨inputs.payload, hash⟩ := by
  unfold buildManifest
  cases hhash : canonicalSha256 noFloats inputs.payload.toJson with
  | none => simp
  | some hash =>
    have hcheck : (ConstraintBindingManifest.mk inputs.payload hash).check = .ok () ↔
        (isEntityId inputs.bindingManifestId ∧ isEntityId inputs.candidateId ∧
          isHashRef inputs.sdcHash ∧ isHashRef inputs.netlistSnapshotHash ∧
          ∀ id ∈ inputs.viewIds, isEntityId id) := by
      have hids : (inputs.resolvedCommands.map ResolvedConstraintCommand.commandId).Nodup := by
        refine List.Nodup.of_map Subtype.val ?_
        rw [List.map_map]
        exact (commandIds_resolved inputs).nodup_iff.mpr hcommands
      have hviewIds : sorted inputs.viewIds ≠ [] := by
        simpa [sorted, AuditInputs.viewIds, List.eq_nil_iff_forall_not_mem] using hviews
      simp only [ConstraintBindingManifest.check, seq_eq_ok, require_eq_ok, checkIdSequence]
      have hpayload : canonicalSha256 noFloats (ConstraintBindingManifest.mk inputs.payload
          hash).toBindingPayload.toJson = some hash := hhash
      have hdifferent : ¬ BaselineComparison.equivalent = .approvedSemanticRemap := by simp
      constructor
      · rintro ⟨hid, hcandidate, hsdc, hnetlist, ⟨-, hviews⟩, -⟩
        exact ⟨hid, hcandidate, hsdc, hnetlist, fun id hid => hviews id (mem_sorted.mpr hid)⟩
      · rintro ⟨hid, hcandidate, hsdc, hnetlist, hviews⟩
        exact ⟨hid, hcandidate, hsdc, hnetlist,
          ⟨hviewIds, fun id hid => hviews id (mem_sorted.mp hid)⟩,
          ⟨(sorted_sorted _).symm, viewIds_nodup inputs⟩, hne, by simp [AuditInputs.payload],
          ⟨rfl, List.nodup_nil⟩, hids, fun h => h.2 rfl, fun h => hdifferent h.1, hpayload⟩
    have heq : (ConstraintBindingManifest.mk inputs.payload hash) = manifest ↔
        manifest = ⟨inputs.payload, hash⟩ := eq_comm
    simp only [seq_eq_ok, hcheck, pure, Except.pure, Except.ok.injEq, Option.some.injEq,
      exists_eq_left', heq]

/-- The audit accepts inputs exactly if they are well formed and have the baseline's binding. -/
theorem audit_ok_iff : auditConstraintBinding inputs base = .ok manifest ↔
    WellFormed inputs ∧ (∀ m ∈ base, SameBinding m inputs) ∧
      ∃ hash, canonicalSha256 noFloats inputs.payload.toJson = some hash ∧
        manifest = ⟨inputs.payload, hash⟩ := by
  have hempty : inputs.emptyCommands = [] ↔
      ∀ item ∈ inputs.commandResolutions, item.resolvedObjectIds ≠ [] := by
    simp [AuditInputs.emptyCommands]
  have hnonempty : inputs.resolvedCommands ≠ [] ↔ inputs.commandIds ≠ [] := by
    have hlength := (commandIds_resolved inputs).length_eq
    rw [List.length_map] at hlength
    rw [← List.length_pos_iff, ← List.length_pos_iff, hlength]
  have hresolved : (∀ command ∈ inputs.resolvedCommands, command.check = .ok ()) ↔
      ∀ item ∈ inputs.commandResolutions, item.resolvedObjectIds ≠ [] := by
    simp [AuditInputs.resolvedCommands, check_resolve]
  unfold auditConstraintBinding
  simp only [seq_eq_ok, require_eq_ok, forM_eq_ok, compareToBaseline_ok, hempty, hresolved]
  constructor
  · rintro ⟨⟨hviews, hsub, hsuper⟩, ⟨hexpected, hsorted, hnodup⟩, hcommands, ⟨hknown, hpresent⟩,
      hobjects, hcovered, -, -, hbase, hmanifest⟩
    have hids : inputs.commandIds ≠ [] := by
      intro h
      exact hexpected (List.subset_nil.mp (h ▸ hpresent))
    obtain ⟨⟨hid, hcandidate, hsdc, hnetlist, hviewIds⟩, hash, hhash, rfl⟩ :=
      (buildManifest_ok (hnonempty.mpr hids) hcommands hviews).mp hmanifest
    have hwritable := isSome_canonicalSha256.mp (Option.isSome_of_eq_some hhash)
    exact ⟨⟨hviews, fun view => ⟨fun h => hsub h, fun h => hsuper h⟩, hexpected, hsorted, hnodup,
      hcommands, fun id => ⟨fun h => hknown h, fun h => hpresent h⟩, hobjects, hcovered, hid,
      hcandidate, hsdc, hnetlist, hviewIds, hwritable⟩, hbase, hash, hhash, rfl⟩
  · rintro ⟨h, hbase, hash, hhash, hmanifest⟩
    have hids : inputs.commandIds ≠ [] := by
      obtain ⟨id, hid⟩ := List.exists_mem_of_ne_nil _ h.expected_ne
      exact List.ne_nil_of_mem ((h.commands_expected id).mpr hid)
    have hbuild := (buildManifest_ok (hnonempty.mpr hids) h.commands_nodup h.views_ne).mpr
      ⟨⟨h.manifest_id, h.candidate_id, h.sdc_hash, h.netlist_hash, h.view_ids⟩, hash, hhash,
        hmanifest⟩
    exact ⟨⟨h.views_ne, fun view hview => (h.views_locked view).mp hview,
        fun view hview => (h.views_locked view).mpr hview⟩,
      ⟨h.expected_ne, h.expected_sorted, h.expected_nodup⟩, h.commands_nodup,
      ⟨fun id hid => (h.commands_expected id).mp hid,
        fun id hid => (h.commands_expected id).mpr hid⟩,
      h.objects_ne, h.covered, h.objects_ne, check_coverage h.covered, hbase, hbuild⟩

/-- Well-formed inputs have a manifest of their own. -/
theorem WellFormed.audit (h : WellFormed inputs) :
    ∃ hash, auditConstraintBinding inputs none = .ok ⟨inputs.payload, hash⟩ := by
  obtain ⟨hash, hhash⟩ := Option.isSome_iff_exists.mp
    (isSome_canonicalSha256 (F := noFloats).mpr h.writable)
  exact ⟨hash, audit_ok_iff.mpr ⟨h, by simp, hash, hhash, rfl⟩⟩

/-! ## Summaries and intents -/

/-- The inputs of a baseline and of a candidate have the same hashes, names and numbers. -/
structure SameSummary (b c : AuditInputs) : Prop where
  sdc_eq : b.sdcHash = c.sdcHash
  views : ∀ id, id ∈ b.viewIds ↔ id ∈ c.viewIds
  commands : ∀ command, command ∈ b.commandResolutions.map ConstraintCommandResolution.resolve ↔
    command ∈ c.commandResolutions.map ConstraintCommandResolution.resolve
  timed_count : b.timedEndpointIds.length = c.timedEndpointIds.length
  excepted_count :
    b.reviewedExceptionEndpointIds.length = c.reviewedExceptionEndpointIds.length

/-- A command with its text and its objects, the latter up to order and repetition. -/
def ConstraintCommandResolution.intent (item : ConstraintCommandResolution) :
    Identifier × String × List String :=
  (item.commandId, item.normalizedCommand, sortedSet item.resolvedObjectIds)

/-- The two inputs agree up to order and repetition. -/
structure SameIntent (b c : AuditInputs) : Prop where
  commands : ∀ intent, intent ∈ b.commandResolutions.map ConstraintCommandResolution.intent ↔
    intent ∈ c.commandResolutions.map ConstraintCommandResolution.intent
  sdc_eq : b.sdcHash = c.sdcHash
  views : ∀ view, view ∈ b.analysisViewHashes ↔ view ∈ c.analysisViewHashes
  timed : ∀ id, id ∈ b.timedEndpointIds ↔ id ∈ c.timedEndpointIds
  excepted : ∀ id, id ∈ b.reviewedExceptionEndpointIds ↔ id ∈ c.reviewedExceptionEndpointIds

theorem sorted_eq_iff {xs ys : List String} (hxs : xs.Nodup) (hys : ys.Nodup) :
    sorted xs = sorted ys ↔ ∀ x, x ∈ xs ↔ x ∈ ys := by
  constructor
  · intro h x
    rw [← mem_sorted, h, mem_sorted]
  · intro h
    exact sortedBy_eq_of_perm id ((List.perm_ext_iff_of_nodup hxs hys).mpr h) (by simpa using hxs)

theorem resolvedCommands_eq (inputs : AuditInputs) :
    inputs.resolvedCommands = sortedBy (fun command => command.commandId.val)
      (inputs.commandResolutions.map ConstraintCommandResolution.resolve) :=
  List.map_insertionSort _ _ _ _ fun _ _ _ _ => Iff.rfl

theorem commandIds_eq_map_resolve (inputs : AuditInputs) : inputs.commandIds =
    (inputs.commandResolutions.map ConstraintCommandResolution.resolve).map
      fun command => command.commandId.val := by
  rw [List.map_map]
  rfl

theorem resolvedCommands_eq_iff (hb : b.commandIds.Nodup) (hc : c.commandIds.Nodup) :
    b.resolvedCommands = c.resolvedCommands ↔
      ∀ command, command ∈ b.commandResolutions.map ConstraintCommandResolution.resolve ↔
        command ∈ c.commandResolutions.map ConstraintCommandResolution.resolve := by
  rw [resolvedCommands_eq, resolvedCommands_eq]
  rw [commandIds_eq_map_resolve] at hb hc
  constructor
  · intro h command
    rw [← mem_sortedBy fun command : ResolvedConstraintCommand => command.commandId.val, h,
      mem_sortedBy]
  · intro h
    exact sortedBy_eq_of_perm _
      ((List.perm_ext_iff_of_nodup hb.of_map hc.of_map).mpr h) hb

theorem sameBinding_iff (hb : WellFormed b) (hc : WellFormed c) {hash : HashRef} :
    SameBinding ⟨b.payload, hash⟩ c ↔ SameSummary b c := by
  have hviews : sorted b.viewIds = sorted c.viewIds ↔ ∀ id, id ∈ b.viewIds ↔ id ∈ c.viewIds :=
    sorted_eq_iff b.views_nodup c.views_nodup
  have hcommands := resolvedCommands_eq_iff hb.commands_nodup hc.commands_nodup
  have hcoverage : b.coverage = c.coverage ↔
      b.timedEndpointIds.length = c.timedEndpointIds.length ∧
        b.reviewedExceptionEndpointIds.length = c.reviewedExceptionEndpointIds.length := by
    have hlength := length_of_covered hb.covered
    have hlength' := length_of_covered hc.covered
    obtain ⟨⟨hseq, htimed, hexcepted⟩, -⟩ := hb.covered
    obtain ⟨⟨hseq', htimed', hexcepted'⟩, -⟩ := hc.covered
    simp only [AuditInputs.coverage, ConstraintCoverage.mk.injEq, hseq.dedup, htimed.dedup,
      hexcepted.dedup, hseq'.dedup, htimed'.dedup, hexcepted'.dedup, and_true]
    omega
  constructor
  · rintro ⟨hsdc, hids, hbindings, hcounts⟩
    exact ⟨hsdc, hviews.mp hids, hcommands.mp hbindings, (hcoverage.mp hcounts).1,
      (hcoverage.mp hcounts).2⟩
  · rintro ⟨hsdc, hids, hbindings, htimed, hexcepted⟩
    exact ⟨hsdc, hviews.mpr hids, hcommands.mpr hbindings, hcoverage.mpr ⟨htimed, hexcepted⟩⟩

theorem mem_resolve_of_intents {items items' : List ConstraintCommandResolution}
    (h : ∀ intent, intent ∈ items.map ConstraintCommandResolution.intent →
      intent ∈ items'.map ConstraintCommandResolution.intent)
    {command : ResolvedConstraintCommand}
    (hcommand : command ∈ items.map ConstraintCommandResolution.resolve) :
    command ∈ items'.map ConstraintCommandResolution.resolve := by
  obtain ⟨item, hitem, rfl⟩ := List.mem_map.mp hcommand
  obtain ⟨item', hitem', hintent⟩ := List.mem_map.mp (h _ (List.mem_map_of_mem hitem))
  simp only [ConstraintCommandResolution.intent, Prod.mk.injEq] at hintent
  obtain ⟨hid, htext, hobjects⟩ := hintent
  refine List.mem_map.mpr ⟨item', hitem', ?_⟩
  simp only [ConstraintCommandResolution.resolve, hid, htext, hobjects]

theorem SameIntent.summary (h : SameIntent b c) (hb : WellFormed b) (hc : WellFormed c) :
    SameSummary b c where
  sdc_eq := h.sdc_eq
  views id := by
    simp only [AuditInputs.viewIds, List.mem_map]
    exact exists_congr fun view => and_congr_left fun _ => h.views view
  commands command := ⟨mem_resolve_of_intents fun intent => (h.commands intent).mp,
    mem_resolve_of_intents fun intent => (h.commands intent).mpr⟩
  timed_count := by
    obtain ⟨⟨-, htimed, -⟩, -⟩ := hb.covered
    obtain ⟨⟨-, htimed', -⟩, -⟩ := hc.covered
    exact ((List.perm_ext_iff_of_nodup htimed htimed').mpr h.timed).length_eq
  excepted_count := by
    obtain ⟨⟨-, -, hexcepted⟩, -⟩ := hb.covered
    obtain ⟨⟨-, -, hexcepted'⟩, -⟩ := hc.covered
    exact ((List.perm_ext_iff_of_nodup hexcepted hexcepted').mpr h.excepted).length_eq

/-- What the summary leaves open: the hashes of the views, the endpoints, and the texts of commands
with one hash. -/
structure SameDetail (b c : AuditInputs) : Prop where
  views : ∀ view, view ∈ b.analysisViewHashes ↔ view ∈ c.analysisViewHashes
  timed : ∀ id, id ∈ b.timedEndpointIds ↔ id ∈ c.timedEndpointIds
  excepted : ∀ id, id ∈ b.reviewedExceptionEndpointIds ↔ id ∈ c.reviewedExceptionEndpointIds
  texts : ∀ item ∈ b.commandResolutions, ∀ item' ∈ c.commandResolutions,
    commandHash item.normalizedCommand = commandHash item'.normalizedCommand →
      item.commandId = item'.commandId → item.normalizedCommand = item'.normalizedCommand

theorem mem_intent_of_resolves {items items' : List ConstraintCommandResolution}
    (h : ∀ command, command ∈ items.map ConstraintCommandResolution.resolve →
      command ∈ items'.map ConstraintCommandResolution.resolve)
    (htexts : ∀ item ∈ items, ∀ item' ∈ items',
      commandHash item.normalizedCommand = commandHash item'.normalizedCommand →
        item.commandId = item'.commandId → item.normalizedCommand = item'.normalizedCommand)
    {intent : Identifier × String × List String}
    (hintent : intent ∈ items.map ConstraintCommandResolution.intent) :
    intent ∈ items'.map ConstraintCommandResolution.intent := by
  obtain ⟨item, hitem, rfl⟩ := List.mem_map.mp hintent
  obtain ⟨item', hitem', hresolve⟩ := List.mem_map.mp (h _ (List.mem_map_of_mem hitem))
  simp only [ConstraintCommandResolution.resolve, ResolvedConstraintCommand.mk.injEq] at hresolve
  obtain ⟨hid, hhash, hobjects, -⟩ := hresolve
  have htext := htexts item hitem item' hitem' hhash.symm hid.symm
  refine List.mem_map.mpr ⟨item', hitem', ?_⟩
  simp only [ConstraintCommandResolution.intent, hid, htext, hobjects]

theorem SameSummary.intent (h : SameSummary b c) (hdetail : SameDetail b c) : SameIntent b c where
  commands _ := ⟨mem_intent_of_resolves (fun command => (h.commands command).mp)
      hdetail.texts,
    mem_intent_of_resolves (fun command => (h.commands command).mpr)
      fun item hitem item' hitem' hhash hid =>
        (hdetail.texts item' hitem' item hitem hhash.symm hid.symm).symm⟩
  sdc_eq := h.sdc_eq
  views := hdetail.views
  timed := hdetail.timed
  excepted := hdetail.excepted

theorem SameIntent.detail (h : SameIntent b c) (hc : c.commandIds.Nodup) : SameDetail b c where
  views := h.views
  timed := h.timed
  excepted := h.excepted
  texts item hitem item' hitem' _ hid := by
    obtain ⟨other, hother, hintent⟩ :=
      List.mem_map.mp ((h.commands _).mp (List.mem_map_of_mem hitem))
    simp only [ConstraintCommandResolution.intent, Prod.mk.injEq] at hintent
    have hsame : other = item' := List.inj_on_of_nodup_map hc hother hitem'
      (congrArg Subtype.val (hintent.1.trans hid))
    rw [← hintent.2.1, hsame]

/-! ## The comparison -/

theorem accepted_iff (hb : auditConstraintBinding b base = .ok manifest) :
    (∃ m, auditConstraintBinding c (some manifest) = .ok m) ↔ WellFormed c ∧ SameSummary b c := by
  obtain ⟨hwell, -, hash, -, rfl⟩ := audit_ok_iff.mp hb
  constructor
  · rintro ⟨m, hm⟩
    obtain ⟨hc, hbinding, -⟩ := audit_ok_iff.mp hm
    exact ⟨hc, (sameBinding_iff hwell hc).mp (hbinding _ rfl)⟩
  · rintro ⟨hc, hsummary⟩
    obtain ⟨hash', haudit⟩ := hc.audit
    obtain ⟨-, -, hhash⟩ := audit_ok_iff.mp haudit
    refine ⟨_, audit_ok_iff.mpr ⟨hc, ?_, hhash⟩⟩
    rintro _ ⟨⟩
    exact (sameBinding_iff hwell hc).mpr hsummary

def clockResolution : ConstraintCommandResolution where
  commandId := ⟨"command_clock", by decide +kernel⟩
  normalizedCommand := "create_clock -period 10 clk"
  selectors := ["clk"]
  resolvedObjectIds := ["port_clk"]
  command_ne := by simp
  selectors_ne := by simp
  selectors_nonempty := by simp
  objects_nonempty := by simp

def sdcHash : HashRef :=
  ⟨"sha256:3b02ba04fc7a67bde510fde174dfab0c6868dd81ef8a87cf86f7f1e1c4412c12", by decide +kernel⟩

def registerInputs (timed excepted : String) : AuditInputs where
  bindingManifestId := "binding_manifest_one"
  candidateId := "candidate_one"
  sdcHash := sdcHash.val
  netlistSnapshotHash := sdcHash.val
  analysisViewHashes := [("view_setup", sdcHash.val)]
  expectedAnalysisViewHashes := [("view_setup", sdcHash.val)]
  expectedCommandIds := ["command_clock"]
  commandResolutions := [clockResolution]
  sequentialEndpointIds := ["register_a", "register_b"]
  timedEndpointIds := [timed]
  reviewedExceptionEndpointIds := [excepted]
  views_nodup := by simp
  expectedViews_nodup := by simp

theorem registerInputs_wellFormed {timed excepted : String} (hne : timed ≠ excepted)
    (h : ∀ id, id = timed ∨ id = excepted ↔ id = "register_a" ∨ id = "register_b") :
    WellFormed (registerInputs timed excepted) where
  views_ne := by simp [registerInputs]
  views_locked := by simp [registerInputs]
  expected_ne := by simp [registerInputs]
  expected_sorted := by simp [registerInputs, sorted]
  expected_nodup := by simp [registerInputs]
  commands_nodup := by simp [registerInputs, AuditInputs.commandIds]
  commands_expected := by simp [registerInputs, AuditInputs.commandIds, clockResolution]
  objects_ne := by simp [registerInputs, clockResolution]
  covered := by
    have htimed := (h timed).mp (.inl rfl)
    have hexcepted := (h excepted).mp (.inr rfl)
    have ha := (h "register_a").mpr (.inl rfl)
    have hb := (h "register_b").mpr (.inr rfl)
    simp [AuditInputs.EndpointsCovered, registerInputs, hne, htimed, hexcepted, ha, hb]
  manifest_id := show isEntityId "binding_manifest_one" by decide +kernel
  candidate_id := show isEntityId "candidate_one" by decide +kernel
  sdc_hash := sdcHash.2
  netlist_hash := sdcHash.2
  view_ids := by
    have hview : isEntityId "view_setup" := by decide +kernel
    simpa [registerInputs, AuditInputs.viewIds] using hview
  writable := by
    have hcoverage : (registerInputs timed excepted).coverage.toJson.writable := by
      simp [registerInputs, AuditInputs.coverage, ConstraintCoverage.toJson,
        Json.writable_int_of_lt]
    have hversion : (Json.int 1 : Json Empty).writable := Json.writable_int_of_lt (by simp)
    simp [AuditInputs.payload, BindingPayload.toJson, hcoverage, hversion]

theorem lockedInputs_wellFormed : WellFormed (registerInputs "register_a" "register_b") :=
  registerInputs_wellFormed (by simp) (by simp)

theorem swappedInputs_wellFormed : WellFormed (registerInputs "register_b" "register_a") :=
  registerInputs_wellFormed (by simp) (by simp [or_comm])

end NovaRtl.Constraints
