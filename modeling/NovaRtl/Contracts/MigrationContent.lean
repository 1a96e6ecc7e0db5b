import NovaRtl.Contracts.MigrationOrder

/-!
# What a migrated result carries

Every entry of an accepted payload is in the result, under the name, with the code or as the
artifact that the registries of the context give it, and the result has no others.
-/

namespace NovaRtl.Migrations

open Text Scheduler

variable {φ : Type} {N : Numbers φ} {P : Pydantic φ} {context : LegacyMigrationContext}

/-! ## Entries -/

/-- The hashes of the result are those of the payload, under their canonical names. -/
structure CarriesHashes (context : LegacyMigrationContext) (source : List (String × Json φ))
    (hashes : StageInputHashes) : Prop where
  carried : ∀ entry ∈ source, entry.2 ≠ .null → ∃ field hash,
    context.legacyFieldAliases entry.1 = some field ∧ entry.2 = .str hash.val ∧
      hashes.hash field = some hash
  legacy : ∀ field hash, hashes.hash field = some hash → ∃ entry ∈ source,
    context.legacyFieldAliases entry.1 = some field ∧ entry.2 = .str hash.val
  extensions : hashes.extensions = migrationExtensions context

/-- The number that a JSON value is. -/
inductive Represents (N : Numbers φ) : Json φ → MetricValue φ → Prop
  | float (x : φ) : Represents N (.float x) (.float x)
  | floatOfInt {n : ℤ} {x : φ} (h : N.ofInt n = some x) : Represents N (.int n) (.float x)
  | int (n : ℕ) : Represents N (.int n) (.int n)

structure CarriesMetrics (N : Numbers φ) (source : List (String × Json φ))
    (metrics : MetricSet φ) : Prop where
  carried : ∀ entry ∈ source, entry.2 ≠ .null →
    entry.1 = "runtime_ms" ∧ entry.2 = .int metrics.runtimeMs ∨
      ∃ field value, entry.1 = MetricField.text field ∧ metrics.value field = some value ∧
        Represents N entry.2 value
  legacy : ∀ field value, metrics.value field = some value → ∃ entry ∈ source,
    entry.1 = field.text ∧ Represents N entry.2 value
  runtime : ("runtime_ms", .int metrics.runtimeMs) ∈ source

/-- The diagnostic has the message of the item, and what the registry says of its token. -/
def CarriesDiagnostic (context : LegacyMigrationContext) (item : Json φ)
    (diagnostic : Diagnostic) : Prop :=
  ∃ token rule, context.diagnosticCodeRegistry token = some rule ∧
    diagnostic.code = rule.code ∧ diagnostic.severity = rule.severity ∧
    diagnostic.evidenceRefs = rule.evidenceIds ∧
    (item = .str token ∧ diagnostic.message = token ∨
      ∃ fields, item = .obj fields ∧ ("code", .str token) ∈ fields ∧
        ("message", .str diagnostic.message) ∈ fields)

/-- The artifact is the only one at the address of the item. -/
def CarriesArtifact (context : LegacyMigrationContext) (item : Json φ)
    (artifact : ArtifactRef) : Prop :=
  context.artifactIndex artifact.uri = [artifact] ∧
    (item = .str artifact.uri ∨
      ∃ fields, item = .obj fields ∧ ("uri", .str artifact.uri) ∈ fields ∧
        ("sha256", .str artifact.sha256) ∈ fields)

/-! ## Dictionaries -/

theorem mem_of_valueOf {fields : List (String × Json φ)} {name : String} {j : Json φ}
    (h : valueOf fields name = j) (hne : j ≠ .null) : (name, j) ∈ fields := by
  subst h
  unfold valueOf at hne ⊢
  cases hvalue : fields.lookup name with
  | none => simp [hvalue] at hne
  | some value =>
    obtain ⟨front, back, rfl, -⟩ := List.lookup_eq_some_iff.mp hvalue
    simp

theorem valueOf_of_mem {fields : List (String × Json φ)}
    (hkeys : (fields.map Prod.fst).Nodup) {entry : String × Json φ} (hmem : entry ∈ fields) :
    valueOf fields entry.1 = entry.2 := by
  obtain ⟨front, back, rfl⟩ := List.append_of_mem hmem
  have hlookup : (front ++ entry :: back).lookup entry.1 = some entry.2 := by
    refine List.lookup_eq_some_iff.mpr ⟨front, back, rfl, fun other hother => ?_⟩
    rw [List.map_append, List.nodup_append] at hkeys
    have hne := hkeys.2.2 _ (List.mem_map_of_mem hother) _ (List.mem_map_of_mem List.mem_cons_self)
    simpa [bne_iff_ne] using hne.symm
  rw [valueOf, hlookup, Option.getD_some]

/-- An object in a field of the payload has no repeated keys. -/
theorem LegacyPayload.field_nodup {legacy : LegacyPayload φ} {name : String}
    {source : List (String × Json φ)} (h : legacy.field name = .obj source) :
    (source.map Prod.fst).Nodup := by
  have hmem : (name, Json.obj source) ∈ legacy.fields := mem_of_valueOf h (by simp)
  have hunique := (Json.keysUnique_obj.mp legacy.keysUnique).2 _ hmem
  exact (Json.keysUnique_obj.mp hunique).1

/-! ## The steps of the adapter -/

theorem InputsMatch.carries {source : List (String × Json φ)} (h : InputsMatch context source) :
    CarriesHashes context source ⟨context.expectedInputHashes, migrationExtensions context⟩ := by
  refine ⟨?_, ?_, rfl⟩
  · intro entry hentry hne
    obtain ⟨field, hfield⟩ := Option.isSome_iff_exists.mp (h.registered entry hentry)
    have hvalue := (h.expected entry hentry field hfield).resolve_left hne
    cases hexpected : context.expectedInputHashes field with
    | none =>
      rw [target, hexpected] at hvalue
      exact absurd hvalue hne
    | some hash =>
      rw [target, hexpected] at hvalue
      exact ⟨field, hash, hfield, hvalue, hexpected⟩
  · intro field hash hexpected
    have htarget : target (φ := φ) context field = .str hash.val := by
      rw [target, show context.expectedInputHashes field = some hash from hexpected]
    rcases h.covered field with hnull | ⟨entry, hentry, hfield, hne⟩
    · rw [htarget] at hnull
      cases hnull
    · have hvalue := (h.expected entry hentry field hfield).resolve_left hne
      exact ⟨entry, hentry, hfield, hvalue.trans htarget⟩

theorem represents_of_floatOf {j : Json φ} {x : φ} (h : floatOf N j = some x) :
    Represents N j (.float x) := by
  cases j with
  | float y =>
    rw [← Option.some.inj h]
    exact .float y
  | int n => exact .floatOfInt h
  | _ => cases h

theorem nonNegativeInt_eq_some {j : Json φ} {n : ℕ} (h : nonNegativeInt j = some n) :
    j = .int n := by
  cases j with
  | int m =>
    by_cases hle : 0 ≤ m
    · rw [nonNegativeInt, if_pos hle, Option.some.injEq] at h
      rw [← h, Int.toNat_of_nonneg hle]
    · rw [nonNegativeInt, if_neg hle] at h
      cases h
  | _ => cases h

theorem represents_of_metricValue {kind : MetricKind} {j : Json φ} {value : MetricValue φ}
    (h : metricValue N kind j = some value) : Represents N j value := by
  cases kind with
  | finiteFloat =>
    obtain ⟨x, hx, rfl⟩ := Option.map_eq_some_iff.mp h
    exact represents_of_floatOf hx
  | positiveFloat | nonNegativeFloat =>
    obtain ⟨x, hx, rfl⟩ := Option.map_eq_some_iff.mp h
    exact represents_of_floatOf (Option.filter_eq_some_iff.mp hx).1
  | nonNegativeInt =>
    obtain ⟨n, hn, rfl⟩ := Option.map_eq_some_iff.mp h
    rw [nonNegativeInt_eq_some hn]
    exact .int n

theorem validated_eq_ok {α : Type} {location : String} {value : Option α} {a : α} :
    validated location value = .ok a ↔ value = some a := by
  cases value <;> simp [validated, pure, Except.pure, throw, throwThe, MonadExceptOf.throw]

theorem carriesMetrics {legacy : LegacyPayload φ} {expectation : LegacyStageExpectation}
    {normalized : NormalizedMetrics φ} {metrics : MetricSet φ}
    (hnormalized : normalizeMetrics legacy expectation = .ok normalized)
    (hmetrics : validateMetrics N normalized = .ok metrics) :
    ∃ source, legacy.field "metrics" = .obj source ∧ CarriesMetrics N source metrics := by
  unfold normalizeMetrics at hnormalized
  split at hnormalized
  next source hsource =>
    simp only [bind_eq_ok, require_eq_ok, exists_const, pure, Except.pure,
      Except.ok.injEq] at hnormalized
    obtain ⟨hunknown, -, -, rfl⟩ := hnormalized
    simp only [validateMetrics, bind_eq_ok, require_eq_ok, exists_const, validated_eq_ok, pure,
      Except.pure, Except.ok.injEq] at hmetrics
    obtain ⟨view, -, hvalid, runtime, hruntime, -, rfl⟩ := hmetrics
    have hruntime := nonNegativeInt_eq_some hruntime
    refine ⟨source, hsource, ?_, ?_, ?_⟩
    · intro entry hentry hne
      have hvalue := valueOf_of_mem (LegacyPayload.field_nodup hsource) hentry
      have hname := List.filter_eq_nil_iff.mp hunknown entry.1 (List.mem_map_of_mem hentry)
      simp only [decide_eq_true_eq, not_not, List.mem_append, List.mem_map,
        List.mem_singleton] at hname
      rcases hname with ⟨field, hfield, hname⟩ | hname
      · have hsome := hvalid field hfield
        rw [hname, hvalue] at hsome
        have hread : ∃ value, metricValue N field.kind entry.2 = some value := by
          rw [optional, if_neg (mt isNull_iff.mp hne), Option.isSome_map] at hsome
          exact Option.isSome_iff_exists.mp hsome
        obtain ⟨value, hread⟩ := hread
        refine .inr ⟨field, value, hname.symm, ?_, represents_of_metricValue hread⟩
        rw [← hread, ← hvalue, ← hname]
      · rw [hname] at hvalue
        exact .inl ⟨hname, hvalue.symm.trans hruntime⟩
    · intro field value hread
      have hrepresents := represents_of_metricValue hread
      have hne : valueOf source field.text ≠ .null := by
        intro hnull
        rw [hnull] at hrepresents
        cases hrepresents
      exact ⟨_, mem_of_valueOf rfl hne, rfl, hrepresents⟩
    · exact mem_of_valueOf hruntime (by simp)
  next => cases hnormalized

theorem textOf_eq_some {j : Json φ} {s : String} : textOf j = some s ↔ j = .str s := by
  cases j <;> simp [textOf]

theorem carriesDiagnostic {item : Json φ} {diagnostic : Diagnostic}
    (h : normalizeDiagnostic context item = .ok diagnostic) :
    CarriesDiagnostic context item diagnostic := by
  unfold normalizeDiagnostic at h
  obtain ⟨read, hread, h⟩ := bind_eq_ok.mp h
  split at h
  next token htoken =>
    split at h
    next => cases h
    next rule hrule =>
      simp only [validateDiagnostic, bind_eq_ok, require_eq_ok, exists_const, validated_eq_ok, pure,
        Except.pure, Except.ok.injEq] at h
      obtain ⟨-, -, message, hmessage, -, -, rfl⟩ := h
      have hmessage := textOf_eq_some.mp (Option.filter_eq_some_iff.mp hmessage).1
      have htoken := textOf_eq_some.mp htoken
      refine ⟨token, rule, hrule, rfl, rfl, rfl, ?_⟩
      unfold readDiagnostic at hread
      split at hread
      next s =>
        simp only [pure, Except.pure, Except.ok.injEq] at hread
        subst hread
        cases htoken
        cases hmessage
        exact .inl ⟨rfl, rfl⟩
      next fields =>
        simp only [bind_eq_ok, require_eq_ok, exists_const] at hread
        obtain ⟨-, hread⟩ := hread
        split at hread
        next =>
          split at hread
          next evidence _ =>
            simp only [pure, Except.pure, Except.ok.injEq] at hread
            subst hread
            exact .inr ⟨fields, rfl, mem_of_valueOf htoken (by simp),
              mem_of_valueOf hmessage (by simp)⟩
          next => cases hread
        next => cases hread
      next => cases hread
  next => cases h

theorem carriesArtifact {item : Json φ} {artifact : ArtifactRef}
    (h : resolveArtifact N context item = .ok artifact) :
    CarriesArtifact context item artifact := by
  unfold resolveArtifact at h
  obtain ⟨⟨uri, metadata⟩, hread, h⟩ := bind_eq_ok.mp h
  dsimp only at h
  split at h
  next found hfound =>
    simp only [bind_eq_ok, require_eq_ok, exists_const, pure, Except.pure, Except.ok.injEq] at h
    obtain ⟨hmetadata, rfl⟩ := h
    have huri : found.uri = uri := context.uri_eq uri found (by simp [hfound])
    subst huri
    refine ⟨hfound, ?_⟩
    unfold readArtifact at hread
    split at hread
    next s =>
      simp only [pure, Except.pure, Except.ok.injEq, Prod.mk.injEq] at hread
      exact .inl (congrArg _ hread.1)
    next fields =>
      simp only [bind_eq_ok, require_eq_ok, exists_const] at hread
      obtain ⟨-, hread⟩ := hread
      split at hread
      next s hs =>
        simp only [pure, Except.pure, Except.ok.injEq, Prod.mk.injEq] at hread
        obtain ⟨rfl, rfl⟩ := hread
        have hs := textOf_eq_some.mp hs
        have hhash := Json.equal_str.mp (hmetadata _ rfl).1
        exact .inr ⟨fields, rfl, mem_of_valueOf hs (by simp), mem_of_valueOf hhash (by simp)⟩
      next => cases hread
    next => cases hread
  next => cases h

theorem validateResult_eq_ok {legacy : LegacyPayload φ} {stage : Stage} {status : StageStatus}
    {toolFingerprint : ToolFingerprint} {inputHashes : StageInputHashes}
    {metrics : NormalizedMetrics φ} {diagnostics : List Diagnostic}
    {rawArtifacts : List ArtifactRef} {result : StageResult φ}
    (h : validateResult P legacy stage status toolFingerprint inputHashes metrics diagnostics
      rawArtifacts = .ok result) :
    result.inputHashes = inputHashes ∧ validateMetrics P.toNumbers metrics = .ok result.metrics ∧
      result.diagnostics = diagnostics ∧ result.rawArtifacts = rawArtifacts ∧
      (rawArtifacts.map ArtifactRef.artifactId).Nodup := by
  simp only [validateResult, validateCoherence, bind_eq_ok, require_eq_ok, exists_const, pure,
    Except.pure, Except.ok.injEq] at h
  obtain ⟨_, -, _, -, _, -, _, -, values, hvalues, -, _, -, _, -, ⟨_, -, _, -, -, hnodup, -⟩,
    rfl⟩ := h
  exact ⟨rfl, hvalues, rfl, rfl, hnodup⟩

/-- An accepted payload's hashes, metrics, diagnostics and artifacts are those of the result, each
once, in order where there is one. -/
theorem migrate_carries {legacy : LegacyPayload φ} {result : StageResult φ}
    (h : migrate P legacy context = .ok result) :
    ∃ hashes metrics diagnostics artifacts,
      legacy.field "input_hashes" = .obj hashes ∧ legacy.field "metrics" = .obj metrics ∧
      legacy.field "diagnostics" = .arr diagnostics ∧
      legacy.field "raw_artifacts" = .arr artifacts ∧
      CarriesHashes context hashes result.inputHashes ∧
      CarriesMetrics P.toNumbers metrics result.metrics ∧
      List.Forall₂ (CarriesDiagnostic context) diagnostics result.diagnostics ∧
      List.Forall₂ (CarriesArtifact context) artifacts result.rawArtifacts ∧
      (result.rawArtifacts.map ArtifactRef.artifactId).Nodup := by
  obtain ⟨⟨-, stage, expectation, status, tool, source, normalized, diagnostics, artifacts, -, -,
    hinputs, hmatch, hnormalized, hdiagnostics, hartifacts, hresult⟩, -⟩ := migrate_eq_ok.mp h
  obtain ⟨hhashes, hmetrics, hdiags, harts, hnodup⟩ := validateResult_eq_ok hresult
  obtain ⟨metrics, hmetricsField, hcarried⟩ := carriesMetrics hnormalized hmetrics
  unfold normalizeDiagnostics at hdiagnostics
  split at hdiagnostics
  next items hitems =>
    unfold resolveArtifacts at hartifacts
    split at hartifacts
    next => cases hartifacts
    next uris _ huris =>
      obtain ⟨resolved, hresolved, hrest⟩ := bind_eq_ok.mp hartifacts
      simp only [bind_eq_ok, require_eq_ok, exists_const, pure, Except.pure,
        Except.ok.injEq] at hrest
      obtain ⟨-, -, rfl⟩ := hrest
      rw [hhashes, hdiags, harts]
      exact ⟨source, metrics, items, uris, hinputs, hmetricsField, hitems, huris, hmatch.carries,
        hcarried, (mapM_eq_ok.mp hdiagnostics).imp fun _ _ => carriesDiagnostic,
        (mapM_eq_ok.mp hresolved).imp fun _ _ => carriesArtifact, hnodup⟩
    next => cases hartifacts
  next => cases hdiagnostics

/-- The payload of a parser carries its log and its run time. -/
theorem migrate_carries_nullFirst :
    ∃ result, migrate wholeNumbers nullFirst parseContext = .ok result ∧
      CarriesMetrics wholeNumbers.toNumbers [("runtime_ms", .int 5)] result.metrics ∧
      List.Forall₂ (CarriesArtifact (φ := Empty) parseContext) [.str "artifact://log"]
        result.rawArtifacts := by
  obtain ⟨result, h⟩ := migrate_nullFirst
  obtain ⟨_, _, _, _, -, hmetrics, -, hartifacts, -, hcarried, -, hresolved, -⟩ :=
    migrate_carries h
  cases Json.obj.inj hmetrics
  cases Json.arr.inj hartifacts
  exact ⟨result, h, hcarried, hresolved⟩

end NovaRtl.Migrations
