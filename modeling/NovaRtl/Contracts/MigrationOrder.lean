import NovaRtl.Contracts.MigrationInputs

/-!
# Migration and the order of keys

Payloads of one canonical JSON text differ in the order of keys only. The adapter reads them by key,
apart from the input hashes, which it goes through in order.
-/

namespace NovaRtl.Migrations

open Text Scheduler

variable {φ : Type} {N : Numbers φ} {P : Pydantic φ} {context : LegacyMigrationContext}

/-! ## Values that are the same up to the order of keys -/

/-- Equal up to the order of keys. -/
def Same (j j' : Json φ) : Prop := Json.sortKeys j = Json.sortKeys j'

theorem Same.symm {j j' : Json φ} (h : Same j j') : Same j' j := Eq.symm h

theorem Same.read {α : Type} {read : Json φ → α} (hread : ∀ j, read (Json.sortKeys j) = read j)
    {j j' : Json φ} (h : Same j j') : read j = read j' := by
  rw [← hread j, ← hread j', h]

theorem isNull_sortKeys (j : Json φ) : isNull (Json.sortKeys j) = isNull j := by
  cases j <;> rfl

theorem isOne_sortKeys (j : Json φ) : isOne (Json.sortKeys j) = isOne j := by
  cases j <;> rfl

theorem textOf_sortKeys (j : Json φ) : textOf (Json.sortKeys j) = textOf j := by
  cases j <;> rfl

theorem entityId_sortKeys (j : Json φ) : entityId (Json.sortKeys j) = entityId j := by
  cases j <;> rfl

theorem nonNegativeInt_sortKeys (j : Json φ) :
    nonNegativeInt (Json.sortKeys j) = nonNegativeInt j := by
  cases j <;> rfl

theorem metricValue_sortKeys (kind : MetricKind) (j : Json φ) :
    metricValue N kind (Json.sortKeys j) = metricValue N kind j := by
  cases j <;> cases kind <;> rfl

theorem optional_sortKeys {α : Type} {read : Json φ → Option α}
    (hread : ∀ j, read (Json.sortKeys j) = read j) (j : Json φ) :
    optional read (Json.sortKeys j) = optional read j := by
  rw [optional, optional, isNull_sortKeys, hread]

theorem utcDatetime_sortKeys (j : Json φ) : utcDatetime P (Json.sortKeys j) = utcDatetime P j := by
  cases j <;> rfl

theorem Same.isNull_iff {j j' : Json φ} (h : Same j j') : j = .null ↔ j' = .null := by
  rw [← Migrations.isNull_iff, ← Migrations.isNull_iff, h.read isNull_sortKeys]

theorem Same.str_iff {j j' : Json φ} (h : Same j j') {s : String} : j = .str s ↔ j' = .str s := by
  have htext (j : Json φ) : textOf j = some s ↔ j = .str s := by
    cases j <;> simp [textOf]
  rw [← htext, ← htext, h.read textOf_sortKeys]

theorem Same.equal_str_iff {j j' : Json φ} (h : Same j j') {s : String} :
    Json.equal N j (.str s) = true ↔ Json.equal N j' (.str s) = true := by
  rw [Json.equal_str, Json.equal_str, h.str_iff]

theorem equal_arr_int (items : List (Json φ)) (n : ℤ) :
    Json.equal N (.arr items) (.int n) = false := by
  rw [Json.equal, beq_eq_false_iff_ne, Json.numeric, Json.sortKeys, Json.write]
  exact (Json.write_int_ne (by decide) n _).symm

theorem equal_obj_int (fields : List (String × Json φ)) (n : ℤ) :
    Json.equal N (.obj fields) (.int n) = false := by
  rw [Json.equal, beq_eq_false_iff_ne, Json.numeric, Json.sortKeys, Json.write]
  exact (Json.write_int_ne (by decide) n _).symm

theorem Same.equal_int {j j' : Json φ} (h : Same j j') (n : ℤ) :
    Json.equal N j (.int n) = Json.equal N j' (.int n) := by
  cases j <;> cases j' <;> simp_all [Same, Json.sortKeys, equal_arr_int, equal_obj_int]

/-! ## Reading dictionaries and lists -/

section Dictionaries

variable {fields fields' : List (String × Json φ)}

theorem Same.obj {j : Json φ} (h : Same (.obj fields) j) :
    ∃ fields', j = .obj fields' ∧ Same (.obj fields) (.obj fields') := by
  cases j <;> simp_all [Same, Json.sortKeys]

theorem Same.arr {items : List (Json φ)} {j : Json φ} (h : Same (.arr items) j) :
    ∃ items', j = .arr items' ∧ List.Forall₂ Same items items' := by
  cases j with
  | arr items' =>
    refine ⟨items', rfl, ?_⟩
    simp only [Same, Json.sortKeys, Json.arr.injEq, Json.sortItems_eq_map] at h
    rw [← List.forall₂_eq_eq_eq, List.forall₂_map_left_iff, List.forall₂_map_right_iff] at h
    exact h
  | _ => simp [Same, Json.sortKeys] at h

theorem Same.lookup (h : Same (.obj fields) (.obj fields')) (key : String) :
    (fields.lookup key).map Json.sortKeys = (fields'.lookup key).map Json.sortKeys := by
  simp only [Same, Json.sortKeys, Json.obj.injEq] at h
  rw [← Json.lookup_sortKeys, ← Json.lookup_sortKeys, h]

theorem Same.valueOf (h : Same (.obj fields) (.obj fields')) (key : String) :
    Same (valueOf fields key) (valueOf fields' key) := by
  have hlookup := h.lookup key
  unfold Migrations.valueOf
  cases hvalue : fields.lookup key <;> cases hvalue' : fields'.lookup key <;>
    simp_all [Same]

theorem Same.mem (h : Same (.obj fields) (.obj fields')) {field : String × Json φ}
    (hmem : field ∈ fields) : ∃ value, (field.1, value) ∈ fields' ∧ Same field.2 value := by
  simp only [Same, Json.sortKeys, Json.obj.injEq] at h
  have hsorted : (field.1, Json.sortKeys field.2) ∈
      (Json.sortFields fields).insertionSort fun a b => a.1 ≤ b.1 :=
    Json.mem_sortKeys.mpr ⟨field.2, hmem, rfl⟩
  rw [h] at hsorted
  obtain ⟨value, hvalue, hsame⟩ := Json.mem_sortKeys.mp hsorted
  exact ⟨value, hvalue, hsame.symm⟩

theorem Same.mem_names (h : Same (.obj fields) (.obj fields')) {name : String} :
    name ∈ fields.map Prod.fst ↔ name ∈ fields'.map Prod.fst := by
  have hone {a b : List (String × Json φ)} (h : Same (.obj a) (.obj b))
      (hname : name ∈ a.map Prod.fst) : name ∈ b.map Prod.fst := by
    obtain ⟨field, hfield, rfl⟩ := List.mem_map.mp hname
    obtain ⟨value, hvalue, -⟩ := h.mem hfield
    exact List.mem_map.mpr ⟨_, hvalue, rfl⟩
  exact ⟨hone h, hone h.symm⟩

end Dictionaries

/-! ## The steps of the adapter -/

section Steps

variable {legacy legacy' : LegacyPayload φ}

/-- Payloads that are the same up to the order of keys. -/
abbrev Reordered (legacy legacy' : LegacyPayload φ) : Prop :=
  Same (.obj legacy.fields) (.obj legacy'.fields)

theorem Reordered.symm (h : Reordered legacy legacy') : Reordered legacy' legacy := Eq.symm h

theorem Reordered.field (h : Reordered legacy legacy') (name : String) :
    Same (legacy.field name) (legacy'.field name) :=
  Same.valueOf h name

theorem Reordered.validateSource {F : Floats φ} (h : Reordered legacy legacy')
    (hvalid : validateSource F legacy context = .ok ()) :
    validateSource F legacy' context = .ok () := by
  have hhash : canonicalSha256 F (.obj legacy.fields) = canonicalSha256 F (.obj legacy'.fields) := by
    rw [canonicalSha256, canonicalSha256, canonicalBytes, canonicalBytes,
      Json.dumps_eq_of_sortKeys h]
  have hnames (name : String) : name ∈ legacy.fields.map Prod.fst ↔
      name ∈ legacy'.fields.map Prod.fst :=
    Same.mem_names h
  simp only [Migrations.validateSource, bind_eq_ok, require_eq_ok, exists_const] at hvalid ⊢
  obtain ⟨⟨hunknown, hmissing⟩, hone, hhashes⟩ := hvalid
  refine ⟨⟨?_, ?_⟩, ?_, ?_⟩
  · rw [List.filter_eq_nil_iff] at hunknown ⊢
    exact fun name hname => hunknown name ((hnames name).mpr hname)
  · rw [List.filter_eq_nil_iff] at hmissing ⊢
    intro name hname
    have hold := hmissing name hname
    simpa only [decide_eq_true_eq, hnames] using hold
  · rwa [(h.field "schema_version").read isOne_sortKeys] at hone
  · rwa [hhash] at hhashes

theorem Reordered.requireString (h : Reordered legacy legacy') (name : String) :
    requireString legacy name = requireString legacy' name := by
  rw [Migrations.requireString, Migrations.requireString, (h.field name).read textOf_sortKeys]

theorem Reordered.registeredStage (h : Reordered legacy legacy') :
    registeredStage legacy context = registeredStage legacy' context := by
  rw [Migrations.registeredStage, Migrations.registeredStage, h.requireString, h.requireString]

theorem Reordered.resolveTool (h : Reordered legacy legacy') :
    resolveTool legacy context = resolveTool legacy' context := by
  rw [Migrations.resolveTool, Migrations.resolveTool, h.requireString, h.requireString]

theorem Same.inputsMatch {source source' : List (String × Json φ)}
    (h : Same (.obj source) (.obj source')) (hmatch : InputsMatch context source) :
    InputsMatch context source' := by
  have htarget {j j' : Json φ} (hsame : Same j j') {field : InputField} (hj : j = target context field) :
      j' = target context field := by
    cases hexpected : context.expectedInputHashes field with
    | none =>
      rw [target, hexpected] at hj ⊢
      exact hsame.isNull_iff.mp hj
    | some hash =>
      rw [target, hexpected] at hj ⊢
      exact hsame.str_iff.mp hj
  refine ⟨?_, ?_, ?_⟩
  · intro entry hentry
    obtain ⟨value, hvalue, -⟩ := h.symm.mem hentry
    exact hmatch.registered (entry.1, value) hvalue
  · intro entry hentry field hfield
    obtain ⟨value, hvalue, hsame⟩ := h.symm.mem hentry
    exact (hmatch.expected (entry.1, value) hvalue field hfield).imp hsame.isNull_iff.mpr (htarget hsame.symm)
  · intro field
    refine (hmatch.covered field).imp_right ?_
    rintro ⟨entry, hentry, hfield, hne⟩
    obtain ⟨value, hvalue, hsame⟩ := h.mem hentry
    exact ⟨(entry.1, value), hvalue, hfield, mt hsame.isNull_iff.mpr hne⟩

/-- Metrics that are read alike. -/
structure NormalizedMetrics.Same (metrics metrics' : NormalizedMetrics φ) : Prop where
  value : ∀ field, Migrations.Same (metrics.value field) (metrics'.value field)
  analysisViewId : Migrations.Same metrics.analysisViewId metrics'.analysisViewId
  runtimeMs : Migrations.Same metrics.runtimeMs metrics'.runtimeMs
  missingMetricReasons : metrics.missingMetricReasons = metrics'.missingMetricReasons

theorem Reordered.normalizeMetrics (h : Reordered legacy legacy')
    {expectation : LegacyStageExpectation} {metrics : NormalizedMetrics φ}
    (hmetrics : normalizeMetrics legacy expectation = .ok metrics) :
    ∃ metrics', normalizeMetrics legacy' expectation = .ok metrics' ∧ metrics.Same metrics' := by
  unfold Migrations.normalizeMetrics at hmetrics ⊢
  split at hmetrics
  next source hsource =>
    obtain ⟨source', hsource', hsame⟩ := (hsource ▸ h.field "metrics").obj
    have hnull (name : String) :
        isNull (valueOf source name) = isNull (valueOf source' name) :=
      (hsame.valueOf name).read isNull_sortKeys
    simp only [hsource', bind_eq_ok, require_eq_ok, exists_const, pure, Except.pure,
      Except.ok.injEq, List.filter_eq_nil_iff, ← hnull] at hmetrics ⊢
    obtain ⟨hunknown, hmissing, hpresent, rfl⟩ := hmetrics
    refine ⟨_, ⟨fun name hname => hunknown name (hsame.mem_names.mpr hname), hmissing, hpresent,
      rfl⟩, ⟨fun field => hsame.valueOf field.text, h.field _, hsame.valueOf _, rfl⟩⟩
  next => cases hmetrics

theorem NormalizedMetrics.Same.validateMetrics {metrics metrics' : NormalizedMetrics φ}
    (h : metrics.Same metrics') : validateMetrics N metrics = validateMetrics N metrics' := by
  have hoptional (field : MetricField) := (h.value field).read
    (optional_sortKeys (metricValue_sortKeys (N := N) field.kind))
  have hvalue (field : MetricField) := (h.value field).read
    (metricValue_sortKeys (N := N) field.kind)
  have hnull (field : MetricField) := (h.value field).read isNull_sortKeys
  simp only [Migrations.validateMetrics, hoptional, hvalue, hnull, h.missingMetricReasons,
    h.analysisViewId.read (optional_sortKeys entityId_sortKeys),
    h.runtimeMs.read nonNegativeInt_sortKeys]

theorem Same.mapM_textOf {items items' : List (Json φ)} (h : List.Forall₂ Same items items') :
    items.mapM textOf = items'.mapM textOf := by
  induction h with
  | nil => rfl
  | cons hhead _ ih => rw [List.mapM_cons, List.mapM_cons, hhead.read textOf_sortKeys, ih]

/-- Diagnostics that are read alike. -/
structure LegacyDiagnostic.Same (diagnostic diagnostic' : LegacyDiagnostic φ) : Prop where
  token : Migrations.Same diagnostic.token diagnostic'.token
  suppliedSeverity : Migrations.Same diagnostic.suppliedSeverity diagnostic'.suppliedSeverity
  message : Migrations.Same diagnostic.message diagnostic'.message
  suppliedEvidence : diagnostic.suppliedEvidence = diagnostic'.suppliedEvidence

theorem Same.readDiagnostic {item item' : Json φ} (h : Same item item')
    {diagnostic : LegacyDiagnostic φ} (hitem : readDiagnostic item = .ok diagnostic) :
    ∃ diagnostic', readDiagnostic item' = .ok diagnostic' ∧ diagnostic.Same diagnostic' := by
  unfold Migrations.readDiagnostic at hitem ⊢
  split at hitem
  next s =>
    cases h.str_iff.mp rfl
    simp only [pure, Except.pure, Except.ok.injEq] at hitem
    exact ⟨diagnostic, congrArg _ hitem, rfl, rfl, rfl, rfl⟩
  next fields =>
    obtain ⟨fields', rfl, hsame⟩ := h.obj
    have hevidence := hsame.valueOf "evidence_refs"
    simp only [bind_eq_ok, require_eq_ok, exists_const, hsame.mem_names] at hitem ⊢
    obtain ⟨⟨hknown, hneeded⟩, hitem⟩ := hitem
    split at hitem
    next items hitems =>
      obtain ⟨items', hitems', hall⟩ := (hitems ▸ hevidence).arr
      rw [Same.mapM_textOf hall] at hitem
      split at hitem
      next evidence htexts =>
        simp only [pure, Except.pure, Except.ok.injEq] at hitem
        subst hitem
        refine ⟨⟨Migrations.valueOf fields' "code", Migrations.valueOf fields' "severity",
          Migrations.valueOf fields' "message", some evidence⟩, ⟨⟨hknown, hneeded⟩, ?_⟩,
          hsame.valueOf _, hsame.valueOf _, hsame.valueOf _, rfl⟩
        simp only [hitems', htexts]
        rfl
      next => cases hitem
    next => cases hitem
  next => cases hitem

theorem Same.normalizeDiagnostic {item item' : Json φ} (h : Same item item')
    {diagnostic : Diagnostic} (hitem : normalizeDiagnostic context item = .ok diagnostic) :
    normalizeDiagnostic context item' = .ok diagnostic := by
  unfold Migrations.normalizeDiagnostic at hitem ⊢
  obtain ⟨read, hread, hrest⟩ := bind_eq_ok.mp hitem
  obtain ⟨read', hread', hsame⟩ := h.readDiagnostic hread
  rw [hread']
  simp only [validateDiagnostic, hsame.token.read textOf_sortKeys,
    hsame.suppliedSeverity.read isNull_sortKeys, hsame.suppliedSeverity.read textOf_sortKeys,
    hsame.message.read textOf_sortKeys, hsame.suppliedEvidence] at hrest
  exact hrest

/-- Steps that are taken of items alike are taken of lists of them. -/
theorem Same.mapM {α : Type} {step : Json φ → Except MigrationError α}
    (hstep : ∀ item item' : Json φ, Same item item' → ∀ a, step item = .ok a → step item' = .ok a)
    {items items' : List (Json φ)} (h : List.Forall₂ Same items items') {as : List α}
    (has : items.mapM step = .ok as) : items'.mapM step = .ok as := by
  rw [mapM_eq_ok] at has ⊢
  induction h generalizing as with
  | nil => exact has
  | cons hhead _ ih =>
    cases has with
    | cons ha hrest => exact .cons (hstep _ _ hhead _ ha) (ih hrest)

theorem Reordered.normalizeDiagnostics (h : Reordered legacy legacy')
    {diagnostics : List Diagnostic}
    (hdiagnostics : normalizeDiagnostics legacy context = .ok diagnostics) :
    normalizeDiagnostics legacy' context = .ok diagnostics := by
  unfold Migrations.normalizeDiagnostics at hdiagnostics ⊢
  split at hdiagnostics
  next items hitems =>
    obtain ⟨items', hitems', hall⟩ := (hitems ▸ h.field "diagnostics").arr
    rw [hitems']
    exact Same.mapM (fun _ _ hsame _ => hsame.normalizeDiagnostic) hall hdiagnostics
  next => cases hdiagnostics

theorem Same.resolveArtifact {item item' : Json φ} (h : Same item item') {artifact : ArtifactRef}
    (hitem : resolveArtifact N context item = .ok artifact) :
    resolveArtifact N context item' = .ok artifact := by
  unfold Migrations.resolveArtifact Migrations.readArtifact at hitem ⊢
  split at hitem
  next s =>
    cases h.str_iff.mp rfl
    exact hitem
  next fields =>
    obtain ⟨fields', rfl, hsame⟩ := h.obj
    simp only [bind_eq_ok, require_eq_ok, exists_const, hsame.mem_names,
      (hsame.valueOf "uri").read textOf_sortKeys] at hitem ⊢
    obtain ⟨said, ⟨hnames, hsaid⟩, hitem⟩ := hitem
    split at hsaid
    next uri huri =>
      simp only [pure, Except.pure, Except.ok.injEq] at hsaid
      subst hsaid
      refine ⟨(uri, some (Migrations.valueOf fields' "sha256",
        Migrations.valueOf fields' "size_bytes")), ⟨hnames, rfl⟩, ?_⟩
      simpa only [Option.mem_def, Option.some.injEq, forall_eq',
        (hsame.valueOf "sha256").equal_str_iff, (hsame.valueOf "size_bytes").equal_int] using hitem
    next => cases hsaid
  next => cases hitem

theorem Reordered.resolveArtifacts (h : Reordered legacy legacy')
    {expectation : LegacyStageExpectation} {status : StageStatus} {artifacts : List ArtifactRef}
    (hartifacts : resolveArtifacts N legacy context expectation status = .ok artifacts) :
    resolveArtifacts N legacy' context expectation status = .ok artifacts := by
  unfold Migrations.resolveArtifacts at hartifacts ⊢
  split at hartifacts
  next => cases hartifacts
  next source hne hsource =>
    obtain ⟨source', hsource', hall⟩ := (hsource ▸ h.field "raw_artifacts").arr
    have hne' : source' ≠ [] := by
      rintro rfl
      cases hall
      exact hne rfl
    rw [hsource']
    obtain ⟨resolved, hresolved, hrest⟩ := bind_eq_ok.mp hartifacts
    have hresolved' := Same.mapM (fun _ _ hsame _ => hsame.resolveArtifact) hall hresolved
    cases source' with
    | nil => exact absurd rfl hne'
    | cons item source' =>
      dsimp only
      rw [hresolved']
      exact hrest
  next => cases hartifacts

theorem Reordered.validateResult (h : Reordered legacy legacy') {stage : Stage}
    {status : StageStatus} {toolFingerprint : ToolFingerprint} {inputHashes : StageInputHashes}
    {metrics metrics' : NormalizedMetrics φ} (hmetrics : metrics.Same metrics')
    {diagnostics : List Diagnostic} {rawArtifacts : List ArtifactRef} :
    validateResult P legacy stage status toolFingerprint inputHashes metrics diagnostics
        rawArtifacts =
      validateResult P legacy' stage status toolFingerprint inputHashes metrics' diagnostics
        rawArtifacts := by
  have hid (name : String) := (h.field name).read entityId_sortKeys
  have htime (name : String) := (h.field name).read (utcDatetime_sortKeys (P := P))
  have hview := (h.field "analysis_view_id").read (optional_sortKeys entityId_sortKeys)
  simp only [Migrations.validateResult, hid, htime, hview, hmetrics.validateMetrics]

end Steps

/-! ## What is accepted -/

section Accepted

variable {legacy legacy' : LegacyPayload φ} {result : StageResult φ}

/-- The input hashes of the payload are in an order in which they are accepted. -/
def InOrder (context : LegacyMigrationContext) (legacy : LegacyPayload φ) : Prop :=
  ∀ source, legacy.field "input_hashes" = .obj source → NullsFirst context source

/-- All that is checked besides the order of the input hashes, and the result if nothing fails. -/
def Passes (P : Pydantic φ) (context : LegacyMigrationContext) (legacy : LegacyPayload φ)
    (result : StageResult φ) : Prop :=
  validateSource P.toFloats legacy context = .ok () ∧
    ∃ stage expectation status toolFingerprint source metrics diagnostics rawArtifacts,
      registeredStage legacy context = .ok (stage, expectation, status) ∧
      resolveTool legacy context = .ok toolFingerprint ∧
      legacy.field "input_hashes" = .obj source ∧ InputsMatch context source ∧
      normalizeMetrics legacy expectation = .ok metrics ∧
      normalizeDiagnostics legacy context = .ok diagnostics ∧
      resolveArtifacts P.toNumbers legacy context expectation status = .ok rawArtifacts ∧
      validateResult P legacy stage status toolFingerprint
        ⟨context.expectedInputHashes, migrationExtensions context⟩ metrics diagnostics
        rawArtifacts = .ok result

theorem required_pinned_of_registered {stage : Stage} {expectation : LegacyStageExpectation}
    {status : StageStatus} (h : registeredStage legacy context = .ok (stage, expectation, status)) :
    ∀ field ∈ expectation.requiredInputFields, (context.expectedInputHashes field).isSome := by
  unfold registeredStage at h
  obtain ⟨name, -, h⟩ := bind_eq_ok.mp h
  split at h
  next => cases h
  next stage' expectation' hstage =>
    obtain ⟨statusName, -, h⟩ := bind_eq_ok.mp h
    split at h
    next => cases h
    next status' _ =>
      simp only [pure, Except.pure, Except.ok.injEq, Prod.mk.injEq] at h
      obtain ⟨rfl, rfl, rfl⟩ := h
      obtain ⟨stage'', -, hexpectation⟩ := Option.bind_eq_some_iff.mp hstage
      obtain ⟨expectation'', hfound, heq⟩ := Option.map_eq_some_iff.mp hexpectation
      simp only [Prod.mk.injEq] at heq
      obtain ⟨rfl, rfl⟩ := heq
      exact context.required_pinned stage'' expectation'' hfound

theorem migrate_eq_ok :
    migrate P legacy context = .ok result ↔
      Passes P context legacy result ∧ InOrder context legacy := by
  simp only [migrate, bind_eq_ok]
  constructor
  · rintro ⟨_, hsource, ⟨stage, expectation, status⟩, hstage, tool, htool, hashes, hhashes,
      metrics, hmetrics, diagnostics, hdiagnostics, artifacts, hartifacts, hresult⟩
    obtain ⟨source, hinputs, hmatch, hnulls, rfl⟩ :=
      (normalizeInputHashes_eq_ok (required_pinned_of_registered hstage)).mp hhashes
    refine ⟨⟨hsource, stage, expectation, status, tool, source, metrics, diagnostics, artifacts,
      hstage, htool, hinputs, hmatch, hmetrics, hdiagnostics, hartifacts, hresult⟩, ?_⟩
    intro source' hsource'
    rw [hinputs, Json.obj.injEq] at hsource'
    exact hsource' ▸ hnulls
  · rintro ⟨⟨hsource, stage, expectation, status, tool, source, metrics, diagnostics, artifacts,
      hstage, htool, hinputs, hmatch, hmetrics, hdiagnostics, hartifacts, hresult⟩, horder⟩
    have hhashes := (normalizeInputHashes_eq_ok (N := P.toNumbers)
      (required_pinned_of_registered hstage)).mpr
        ⟨source, hinputs, hmatch, horder source hinputs, rfl⟩
    exact ⟨(), hsource, (stage, expectation, status), hstage, tool, htool, _, hhashes, metrics,
      hmetrics, diagnostics, hdiagnostics, artifacts, hartifacts, hresult⟩

theorem Reordered.passes (h : Reordered legacy legacy') (hpasses : Passes P context legacy result) :
    Passes P context legacy' result := by
  obtain ⟨hsource, stage, expectation, status, tool, source, metrics, diagnostics, artifacts,
    hstage, htool, hinputs, hmatch, hmetrics, hdiagnostics, hartifacts, hresult⟩ := hpasses
  obtain ⟨source', hinputs', hsame⟩ := (hinputs ▸ h.field "input_hashes").obj
  obtain ⟨metrics', hmetrics', hmetricsSame⟩ := h.normalizeMetrics hmetrics
  exact ⟨h.validateSource hsource, stage, expectation, status, tool, source', metrics',
    diagnostics, artifacts, h.registeredStage ▸ hstage, h.resolveTool ▸ htool, hinputs',
    hsame.inputsMatch hmatch, hmetrics', h.normalizeDiagnostics hdiagnostics,
    h.resolveArtifacts hartifacts, h.validateResult hmetricsSame ▸ hresult⟩

/-- A field gets a hash under one name and `null` under another. -/
def Mixed (context : LegacyMigrationContext) (legacy : LegacyPayload φ) : Prop :=
  ∃ source, legacy.field "input_hashes" = .obj source ∧
    ∃ entry ∈ source, ∃ other ∈ source,
      context.legacyFieldAliases entry.1 = context.legacyFieldAliases other.1 ∧
        entry.2 ≠ .null ∧ other.2 = .null

theorem inOrder_of_not_mixed (h : ¬ Mixed context legacy) : InOrder context legacy := by
  intro source hsource
  refine List.pairwise_of_forall_mem_list fun entry hentry later hlater hname hvalue hnull => ?_
  exact h ⟨source, hsource, entry, hentry, later, hlater, hname, hvalue, hnull⟩

theorem Reordered.mixed (h : Reordered legacy legacy') (hmixed : Mixed context legacy) :
    Mixed context legacy' := by
  obtain ⟨source, hsource, entry, hentry, other, hother, hname, hvalue, hnull⟩ := hmixed
  obtain ⟨source', hsource', hsame⟩ := (hsource ▸ h.field "input_hashes").obj
  obtain ⟨value, hentry', hvalue'⟩ := hsame.mem hentry
  obtain ⟨value', hother', hnull'⟩ := hsame.mem hother
  exact ⟨source', hsource', _, hentry', _, hother', hname, mt hvalue'.isNull_iff.mpr hvalue,
    hnull'.isNull_iff.mp hnull⟩

end Accepted

/-! ## Other orders of the input hashes -/

section Reordering

variable {legacy : LegacyPayload φ} (f : List (String × Json φ) → List (String × Json φ))

def reorderObject : Json φ → Json φ
  | .obj source => .obj (f source)
  | j => j

/-- The field with its value in another order, if it is the one of the input hashes. -/
def reorderField (field : String × Json φ) : String × Json φ :=
  (field.1, if field.1 = "input_hashes" then reorderObject f field.2 else field.2)

variable {f} (hf : ∀ source, (f source).Perm source)

include hf in
theorem reorderObject_spec {j : Json φ} (hunique : j.keysUnique = true) :
    (reorderObject f j).keysUnique = true ∧ Same j (reorderObject f j) := by
  cases j with
  | obj source =>
    have hkeys := Json.keysUnique_obj.mp hunique
    have hperm := hf source
    refine ⟨Json.keysUnique_obj.mpr ⟨?_, ?_⟩, Json.sortKeys_of_perm hperm.symm hkeys.1⟩
    · exact (hperm.map Prod.fst).nodup_iff.mpr hkeys.1
    · exact fun field hfield => hkeys.2 field (hperm.mem_iff.mp hfield)
  | _ => exact ⟨hunique, rfl⟩

include hf in
theorem reorderField_spec {field : String × Json φ} (hunique : field.2.keysUnique = true) :
    (reorderField f field).2.keysUnique = true ∧ Same field.2 (reorderField f field).2 := by
  unfold reorderField
  split
  · exact reorderObject_spec hf hunique
  · exact ⟨hunique, rfl⟩

/-- The payload with its input hashes in another order. -/
def withInputs (legacy : LegacyPayload φ) : LegacyPayload φ where
  fields := legacy.fields.map (reorderField f)
  keysUnique := by
    have hkeys := Json.keysUnique_obj.mp legacy.keysUnique
    refine Json.keysUnique_obj.mpr ⟨?_, ?_⟩
    · rw [List.map_map]
      exact hkeys.1
    · intro field hfield
      obtain ⟨old, hold, rfl⟩ := List.mem_map.mp hfield
      exact (reorderField_spec hf (hkeys.2 old hold)).1

theorem reordered_withInputs (legacy : LegacyPayload φ) :
    Reordered legacy (withInputs hf legacy) := by
  have hkeys := Json.keysUnique_obj.mp legacy.keysUnique
  have hfields : Json.sortFields legacy.fields =
      Json.sortFields (legacy.fields.map (reorderField f)) := by
    rw [Json.sortFields_eq_map, Json.sortFields_eq_map, List.map_map]
    refine List.map_congr_left fun field hfield => ?_
    exact Prod.ext rfl (reorderField_spec hf (hkeys.2 field hfield)).2
  simp only [Reordered, Same, Json.sortKeys, withInputs, hfields]

theorem field_withInputs {source : List (String × Json φ)}
    (hsource : legacy.field "input_hashes" = .obj source) :
    (withInputs hf legacy).field "input_hashes" = .obj (f source) := by
  have hlookup : ∀ fields : List (String × Json φ),
      (fields.map (reorderField f)).lookup "input_hashes" =
        (fields.lookup "input_hashes").map (reorderObject f) := by
    intro fields
    induction fields with
    | nil => rfl
    | cons field fields ih =>
      obtain ⟨name, value⟩ := field
      rw [List.map_cons, reorderField, List.lookup_cons, List.lookup_cons, ih]
      by_cases hname : name = "input_hashes"
      · simp [hname]
      · rw [beq_eq_false_iff_ne.mpr (Ne.symm hname)]
  unfold LegacyPayload.field at hsource ⊢
  rw [withInputs, hlookup]
  cases hvalue : legacy.fields.lookup "input_hashes" with
  | none => simp [hvalue] at hsource
  | some value =>
    rw [hvalue, Option.getD_some] at hsource
    subst hsource
    rfl

end Reordering

section Orders

variable {source : List (String × Json φ)}

/-- First the entries that are `null`. -/
def nullsFirst (source : List (String × Json φ)) : List (String × Json φ) :=
  source.filter (fun entry => isNull entry.2) ++ source.filter fun entry => !isNull entry.2

def nullsLast (source : List (String × Json φ)) : List (String × Json φ) :=
  source.filter (fun entry => !isNull entry.2) ++ source.filter fun entry => isNull entry.2

theorem nullsFirst_perm (source : List (String × Json φ)) : (nullsFirst source).Perm source :=
  List.filter_append_perm _ source

theorem nullsLast_perm (source : List (String × Json φ)) : (nullsLast source).Perm source :=
  List.perm_append_comm.trans (nullsFirst_perm source)

theorem nullsFirst_inOrder (source : List (String × Json φ)) :
    NullsFirst context (nullsFirst source) := by
  refine List.pairwise_append.mpr ⟨?_, ?_, ?_⟩
  · refine List.pairwise_of_forall_mem_list fun entry hentry _ _ _ hvalue => ?_
    exact absurd (isNull_iff.mp (List.mem_filter.mp hentry).2) hvalue
  · refine List.pairwise_of_forall_mem_list fun _ _ later hlater _ _ hnull => ?_
    simp [hnull, isNull] at hlater
  · intro entry hentry later hlater _ hvalue
    exact absurd (isNull_iff.mp (List.mem_filter.mp hentry).2) hvalue

theorem nullsLast_not_inOrder {entry other : String × Json φ} (hentry : entry ∈ source)
    (hother : other ∈ source)
    (hname : context.legacyFieldAliases entry.1 = context.legacyFieldAliases other.1)
    (hvalue : entry.2 ≠ .null) (hnull : other.2 = .null) :
    ¬ NullsFirst context (nullsLast source) := by
  intro h
  obtain ⟨-, -, hcross⟩ := List.pairwise_append.mp h
  refine hcross entry (List.mem_filter.mpr ⟨hentry, ?_⟩) other
    (List.mem_filter.mpr ⟨hother, isNull_iff.mpr hnull⟩) hname hvalue hnull
  rw [Bool.not_eq_true', ← Bool.not_eq_true, isNull_iff]
  exact hvalue

end Orders

/-! ## The outcome -/

section Outcome

variable {legacy legacy' : LegacyPayload φ} {result : StageResult φ}

/-- One canonical JSON text. -/
def SameContent (F : Floats φ) (legacy legacy' : LegacyPayload φ) : Prop :=
  Json.dumps F (.obj legacy.fields) = Json.dumps F (.obj legacy'.fields)

/-- Accepted with the same result and audit payload, or rejected both. -/
def SameOutcome (P : Pydantic φ) (context : LegacyMigrationContext)
    (legacy legacy' : LegacyPayload φ) : Prop :=
  (migrate P legacy context).toOption = (migrate P legacy' context).toOption ∧
    ∀ schema migrated, (auditPayload P schema migrated legacy context).toOption =
      (auditPayload P schema migrated legacy' context).toOption

theorem toOption_eq_some {ε α : Type} {x : Except ε α} {a : α} :
    x.toOption = some a ↔ x = .ok a := by
  cases x <;> simp [Except.toOption]

theorem toOption_bind {ε α β : Type} (x : Except ε α) (f : α → Except ε β) :
    (x >>= f).toOption = x.toOption.bind fun a => (f a).toOption := by
  cases x <;> rfl

theorem sameOutcome_of_migrate
    (h : (migrate P legacy context).toOption = (migrate P legacy' context).toOption) :
    SameOutcome P context legacy legacy' := by
  refine ⟨h, fun schema migrated => ?_⟩
  rw [auditPayload, auditPayload, toOption_bind, toOption_bind, h]

theorem SameContent.reordered (h : SameContent P.toFloats legacy legacy')
    (hpasses : Passes P context legacy result) : Reordered legacy legacy' := by
  have hvalid := hpasses.1
  simp only [validateSource, bind_eq_ok, require_eq_ok, exists_const] at hvalid
  obtain ⟨-, -, hhash⟩ := hvalid
  cases htext : Json.dumps P.toFloats (.obj legacy.fields) with
  | none =>
    simp [canonicalSha256, canonicalBytes, htext, throw, throwThe, MonadExceptOf.throw] at hhash
  | some text => exact Json.sortKeys_eq_of_dumps htext (h ▸ htext)

/-- The outcome is that of every payload of the same content if no field gets both a hash and
`null`. -/
theorem SameContent.migrate (h : SameContent P.toFloats legacy legacy')
    (hmixed : Passes P context legacy result → ¬ Mixed context legacy) :
    Migrations.migrate P legacy context = .ok result ↔
      Migrations.migrate P legacy' context = .ok result := by
  rw [migrate_eq_ok, migrate_eq_ok]
  constructor
  · rintro ⟨hpasses, -⟩
    have hreordered := h.reordered hpasses
    exact ⟨hreordered.passes hpasses,
      inOrder_of_not_mixed fun hmix => hmixed hpasses (hreordered.symm.mixed hmix)⟩
  · rintro ⟨hpasses, -⟩
    have hpasses' := (SameContent.reordered h.symm hpasses).passes hpasses
    exact ⟨hpasses', inOrder_of_not_mixed (hmixed hpasses')⟩

/-- Every payload of the same content has the same outcome exactly if no canonical input field gets
a hash under one name and `null` under another, or some other check fails. -/
theorem order_independent_iff (P : Pydantic φ) (context : LegacyMigrationContext)
    (legacy : LegacyPayload φ) :
    (∀ legacy', SameContent P.toFloats legacy legacy' → SameOutcome P context legacy legacy') ↔
      ¬ (Mixed context legacy ∧ ∃ result, Passes P context legacy result) := by
  constructor
  · rintro hall ⟨⟨source, hsource, entry, hentry, other, hother, hname, hvalue, hnull⟩, result,
      hpasses⟩
    have hfirst := reordered_withInputs nullsFirst_perm legacy
    have hlast := reordered_withInputs nullsLast_perm legacy
    have haccepted : (Migrations.migrate P legacy context).toOption = some result := by
      rw [(hall _ (Json.dumps_eq_of_sortKeys hfirst)).1, toOption_eq_some, migrate_eq_ok]
      refine ⟨hfirst.passes hpasses, fun source' hsource' => ?_⟩
      rw [field_withInputs nullsFirst_perm hsource, Json.obj.injEq] at hsource'
      exact hsource' ▸ nullsFirst_inOrder source
    rw [(hall _ (Json.dumps_eq_of_sortKeys hlast)).1, toOption_eq_some, migrate_eq_ok] at haccepted
    exact nullsLast_not_inOrder hentry hother hname hvalue hnull
      (haccepted.2 _ (field_withInputs nullsLast_perm hsource))
  · intro hnot legacy' hsame
    refine sameOutcome_of_migrate (Option.ext fun result => ?_)
    rw [toOption_eq_some, toOption_eq_some]
    exact hsame.migrate fun hpasses hmixed => hnot ⟨hmixed, result, hpasses⟩

end Outcome

/-! ## One content in two orders -/

/-- For payloads whose only numbers are integers. -/
def wholeNumbers : Pydantic Empty where
  toFloats := noFloats
  ofInt _ := none
  toInt := nofun
  compareZero := nofun
  datetime j := if textOf j = some "2026-01-01T00:00:00Z" then some (1767225600000000, 0) else none

def zeroHash : HashRef :=
  ⟨"sha256:0000000000000000000000000000000000000000000000000000000000000000", by decide +kernel⟩

def parseFields (inputs : List (String × Json Empty)) : List (String × Json Empty) :=
  [("schema_version", .int 1), ("stage_result_id", .str "result_one"), ("run_id", .str "run_one"),
    ("candidate_id", .str "candidate_one"), ("stage", .str "RTL_PARSE"),
    ("analysis_view_id", .null), ("status", .str "PASS"), ("tool_name", .str "parser"),
    ("tool_version", .str "1.0"), ("input_hashes", .obj inputs),
    ("metrics", .obj [("runtime_ms", .int 5)]), ("diagnostics", .arr []),
    ("raw_artifacts", .arr [.str "artifact://log"]), ("started_at", .str "2026-01-01T00:00:00Z"),
    ("ended_at", .str "2026-01-01T00:00:00Z")]

def otherInputs : List (String × Json Empty) :=
  ["contract", "platform", "recipe"].map fun name => (name, .str zeroHash.val)

/-- The hash of the snapshot stands before a `null` under an older name. -/
def hashFirst : LegacyPayload Empty where
  fields := parseFields (("rtl", .str zeroHash.val) :: ("rtl_old", .null) :: otherInputs)
  keysUnique := by
    simp [parseFields, otherInputs, Json.keysUnique, Json.fieldsUnique, Json.fieldUnique,
      Json.itemsUnique]

def nullFirst : LegacyPayload Empty where
  fields := parseFields (("rtl_old", .null) :: ("rtl", .str zeroHash.val) :: otherInputs)
  keysUnique := by
    simp [parseFields, otherInputs, Json.keysUnique, Json.fieldsUnique, Json.fieldUnique,
      Json.itemsUnique]

theorem writable_hashFirst : (Json.obj hashFirst.fields).writable = true := by
  simp [hashFirst, parseFields, otherInputs, Json.writable, Json.writableFields,
    Json.writableField, Json.writableItems]
  decide

def parseLog : ArtifactRef :=
  ⟨"artifact_log", "artifact://log", zeroHash.val, "text/plain", 10, 1767225600000000,
    some "result_one", .internal⟩

def parseExpectation : LegacyStageExpectation where
  requiredInputFields := [.rtlSnapshot]
  requiredMetricFields := []
  unavailableMetricReasons _ := some "the parser measures nothing"
  requiredArtifactIds := ["artifact_log"]
  allowedStatuses := [.pass]
  classified := by simp

def parser : ToolFingerprint :=
  ⟨"parser", "/usr/bin/parser", "1.0", ["--version"], zeroHash, zeroHash, "parser-v1", none⟩

def parseAliases : String → Option InputField
  | "rtl" | "rtl_old" => some .rtlSnapshot
  | "contract" => some .designContract
  | "platform" => some .platformLock
  | "recipe" => some .toolRecipe
  | _ => none

def parseContext : LegacyMigrationContext where
  sourceObjectHash := canonicalHash noFloats (.obj hashFirst.fields) writable_hashFirst
  artifactIndex uri := if uri = parseLog.uri then [parseLog] else []
  toolFingerprints := [parser]
  stageExpectations
    | .rtlParse => some parseExpectation
    | _ => none
  diagnosticCodeRegistry _ := none
  legacyFieldAliases := parseAliases
  authorizedEvidenceIds := []
  expectedInputHashes
    | .rtlSnapshot | .designContract | .platformLock | .toolRecipe => some zeroHash
    | _ => none
  migrationAdapterVersion := "1"
  migrationAdapterHash := zeroHash
  uri_eq uri artifact h := by
    split at h
    · next huri => rw [List.mem_singleton.mp h, huri]
    · cases h
  aliases_pinned name field h := by
    unfold parseAliases at h
    split at h <;> cases h <;> rfl
  required_pinned stage expectation h := by
    split at h <;> cases h
    simp [parseExpectation]
  evidence_authorized _ _ h := by cases h

theorem reordered_hashFirst : Reordered hashFirst nullFirst := by
  have hinputs : Same
      (.obj (("rtl", .str zeroHash.val) :: ("rtl_old", .null) :: otherInputs))
      (.obj (("rtl_old", .null) :: ("rtl", .str zeroHash.val) :: otherInputs)) :=
    Json.sortKeys_of_perm (.swap _ _ _) (by simp [otherInputs])
  have hfields : Json.sortFields hashFirst.fields = Json.sortFields nullFirst.fields := by
    simp only [hashFirst, nullFirst, parseFields, Json.sortFields, Json.sortField]
    rw [hinputs]
  rw [Reordered, Same, Json.sortKeys, Json.sortKeys, hfields]

theorem validateSource_hashFirst :
    validateSource wholeNumbers.toFloats hashFirst parseContext = .ok () := by
  have hhash : canonicalSha256 noFloats (.obj hashFirst.fields) =
      some parseContext.sourceObjectHash :=
    (Option.some_get (isSome_canonicalSha256.mpr writable_hashFirst)).symm
  simp only [validateSource, wholeNumbers, hhash, bind_eq_ok, require_eq_ok, exists_const]
  refine ⟨?_, rfl, trivial⟩
  simp [hashFirst, parseFields, legacyStageResultFields]

theorem normalizeMetrics_hashFirst :
    normalizeMetrics hashFirst parseExpectation =
      .ok ⟨fun _ => .null, .null, .int 5, parseExpectation.unavailableMetricReasons⟩ := by
  have hmetrics : hashFirst.field "metrics" = .obj [("runtime_ms", .int 5)] := rfl
  have hvalue (field : MetricField) :
      valueOf [("runtime_ms", (.int 5 : Json Empty))] field.text = .null := by
    cases field <;> rfl
  simp only [normalizeMetrics, hmetrics, bind_eq_ok, require_eq_ok, exists_const, hvalue]
  exact ⟨rfl, rfl, rfl, rfl⟩

theorem inputsMatch_hashFirst : InputsMatch parseContext
    (("rtl", (.str zeroHash.val : Json Empty)) :: ("rtl_old", .null) :: otherInputs) := by
  refine ⟨?_, ?_, ?_⟩
  · simp [otherInputs, parseContext, parseAliases]
  · simp [otherInputs, parseContext, parseAliases, target]
  · intro field
    cases field <;> simp [target, parseContext, parseAliases, otherInputs]

theorem passes_hashFirst : ∃ result, Passes wholeNumbers parseContext hashFirst result :=
  ⟨_, validateSource_hashFirst, .rtlParse, parseExpectation, .pass, parser, _, _, [], [parseLog],
    rfl, rfl, rfl, inputsMatch_hashFirst, normalizeMetrics_hashFirst, rfl, rfl, rfl⟩

theorem migrate_nullFirst : ∃ result, migrate wholeNumbers nullFirst parseContext = .ok result := by
  obtain ⟨result, hpasses⟩ := passes_hashFirst
  refine ⟨result, migrate_eq_ok.mpr ⟨reordered_hashFirst.passes hpasses, fun source hsource => ?_⟩⟩
  cases Json.obj.inj hsource
  simp [NullsFirst, otherInputs, parseContext, parseAliases]

/-- The payload with `null` first is accepted, the one with the hash first is not. -/
theorem order_dependent :
    ¬ ∀ (φ : Type) (P : Pydantic φ) (context : LegacyMigrationContext)
      (legacy legacy' : LegacyPayload φ),
      SameContent P.toFloats legacy legacy' → SameOutcome P context legacy legacy' := by
  intro hall
  obtain ⟨result, haccepted⟩ := migrate_nullFirst
  have hsame := (hall Empty wholeNumbers parseContext hashFirst nullFirst
    (Json.dumps_eq_of_sortKeys reordered_hashFirst)).1
  rw [haccepted] at hsame
  have horder := (migrate_eq_ok.mp (toOption_eq_some.mp hsame)).2 _ rfl
  simp [NullsFirst, otherInputs, parseContext, parseAliases] at horder

end NovaRtl.Migrations
