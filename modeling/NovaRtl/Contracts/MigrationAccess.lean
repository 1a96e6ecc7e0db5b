import NovaRtl.Contracts.Migrations

/-!
# What escapes from the migration

`StageResultV1ToV2` reads an untrusted payload by subscripts, sets, iterations and registries, each
of which raises another exception than `ValueError` for a value it is not meant for. Here every
access can raise; the guards before it are why none does, so that the adapter does what
`Migrations.migrate` says.
-/

namespace NovaRtl.Migrations

open Text Scheduler

variable {φ : Type}

/-- An exception that leaves the adapter. -/
inductive Raised where
  /-- A `ValueError`, or a `ValidationError`, which is one. -/
  | valueError (error : MigrationError)
  | keyError (key : String)
  | indexError
  | typeError
  | attributeError
  deriving DecidableEq

/-- An access that can raise. -/
abbrev Access := Except Raised

def raise {α : Type} (error : MigrationError) : Access α := .error (.valueError error)

def demand (p : Prop) [Decidable p] (error : MigrationError) : Access Unit :=
  require p (.valueError error)

/-! ## Values of a JSON text -/

namespace Json

/-- `isinstance(value, Mapping)` -/
def isMapping : Json φ → Bool
  | .obj _ => true
  | _ => false

/-- `isinstance(value, list)` -/
def isList : Json φ → Bool
  | .arr _ => true
  | _ => false

/-- `isinstance(value, str)` -/
def isText : Json φ → Bool
  | .str _ => true
  | _ => false

/-- `value[key]` -/
def subscript (value : Json φ) (key : String) : Access (Json φ) :=
  match value with
  | .obj fields =>
    match fields.lookup key with
    | some item => .ok item
    | none => .error (.keyError key)
  | _ => .error .typeError

/-- `value.get(key)` -/
def get (value : Json φ) (key : String) : Access (Json φ) :=
  match value with
  | .obj fields => .ok (valueOf fields key)
  | _ => .error .attributeError

/-- `value.items()` -/
def items (value : Json φ) : Access (List (String × Json φ)) :=
  match value with
  | .obj fields => .ok fields
  | _ => .error .attributeError

/-- `set(value)`, the keys of a mapping. -/
def keys (value : Json φ) : Access (List String) :=
  match value with
  | .obj fields => .ok (fields.map Prod.fst)
  | _ => .error .typeError

/-- `for item in value`, the items of a list. -/
def elements (value : Json φ) : Access (List (Json φ)) :=
  match value with
  | .arr items => .ok items
  | _ => .error .typeError

/-- The text where the code uses a value as one. -/
def text (value : Json φ) : Access String :=
  match value with
  | .str s => .ok s
  | _ => .error .typeError

end Json

/-- `registry.get(key)`: only a hashable value is a key. -/
def registryGet {α : Type} (registry : String → Option α) (key : Json φ) : Access (Option α) :=
  match key with
  | .str s => .ok (registry s)
  | .arr _ | .obj _ => .error .typeError
  | _ => .ok none

/-- `matches[0]` -/
def firstOf {α : Type} (found : List α) : Access α :=
  match found with
  | item :: _ => .ok item
  | [] => .error .indexError

namespace Raising

/-! ## The source -/

/-- `_validate_source` -/
def validateSource (F : Floats φ) (legacy : Json φ) (context : LegacyMigrationContext) :
    Access Unit := do
  let names ← Json.keys legacy
  let unknown := names.filter (· ∉ legacyStageResultFields)
  let missing := legacyStageResultFields.filter (· ∉ names)
  demand (unknown = [] ∧ missing = []) (.fieldSet (sorted unknown) (sorted missing))
  let version ← Json.subscript legacy "schema_version"
  demand (isOne version) (.valueError "legacy StageResult schema_version must be exactly 1")
  match canonicalSha256 F legacy with
  | none => raise .unwritable
  | some hash =>
    demand (hash = context.sourceObjectHash)
      (.valueError "legacy source-object hash does not match migration context")

/-- `_require_string` -/
def requireString (legacy : Json φ) (name : String) : Access String := do
  let value ← Json.subscript legacy name
  if !Json.isText value then raise (.valueError s!"legacy {name} must be a nonempty string")
  else
    let text ← Json.text value
    demand (text ≠ "") (.valueError s!"legacy {name} must be a nonempty string")
    return text

/-- `_resolve_tool` -/
def resolveTool (legacy : Json φ) (context : LegacyMigrationContext) : Access ToolFingerprint := do
  let toolName ← requireString legacy "tool_name"
  let toolVersion ← requireString legacy "tool_version"
  let found := context.toolFingerprints.filter fun item =>
    item.toolId = toolName ∧ item.version = toolVersion
  demand (found.length = 1)
    (.valueError "legacy tool name/version must resolve to exactly one tool fingerprint")
  firstOf found

/-! ## Input hashes and metrics -/

/-- `_normalize_input_hashes` -/
def normalizeInputHashes (N : Numbers φ) (legacy : Json φ) (context : LegacyMigrationContext)
    (expectation : LegacyStageExpectation) : Access StageInputHashes := do
  let source ← Json.subscript legacy "input_hashes"
  if !Json.isMapping source then raise (.valueError "legacy input_hashes must be a mapping")
  else
    let entries ← Json.items source
    -- The keys of the mapping are texts, and the context gives names of input fields only.
    let normalized ← (entries.foldlM (normalizeEntry N context) fun _ => .null).mapError .valueError
    let missing := expectation.requiredInputFields.filter fun field => isNull (normalized field)
    demand (missing = []) (.valueError ("legacy input hashes miss required identity: " ++
      ", ".intercalate (sorted (missing.map InputField.text))))
    InputField.all.forM fun field =>
      demand (∀ expected ∈ context.expectedInputHashes field,
        Json.equal N (normalized field) (.str expected.val) = true)
        (.valueError s!"legacy input does not match expected input identity for {field.text}")
    (validateInputHashes normalized (migrationExtensions context)).mapError .valueError

/-- `_normalize_metrics` -/
def normalizeMetrics (legacy : Json φ) (expectation : LegacyStageExpectation) :
    Access (NormalizedMetrics φ) := do
  let source ← Json.subscript legacy "metrics"
  if !Json.isMapping source then raise (.valueError "legacy metrics must be a mapping")
  else
    let names ← Json.keys source
    let allowed := MetricField.all.map MetricField.text ++ ["runtime_ms"]
    let unknown := names.filter (· ∉ allowed)
    demand (unknown = []) (.valueError ("unregistered legacy metric: " ++
      ", ".intercalate (sorted unknown)))
    -- `name not in source or source[name] is None`
    let lacks := fun name => if name ∈ names then (Json.subscript source name).map isNull
      else .ok true
    let required := "runtime_ms" :: expectation.requiredMetricFields.map MetricField.text
    let missing ← required.filterM lacks
    demand (missing = []) (.valueError ("legacy result is missing required metric: " ++
      ", ".intercalate (sorted missing)))
    let unavailable := MetricField.all.filter fun field =>
      (expectation.unavailableMetricReasons field).isSome
    let present ← unavailable.filterM fun field => (lacks field.text).map (!·)
    demand (present = []) (.valueError
      ("legacy result reports metrics the registered stage could not produce: " ++
        ", ".intercalate (sorted (present.map MetricField.text))))
    let values ← MetricField.all.mapM fun field => Json.get source field.text
    let analysisViewId ← Json.subscript legacy "analysis_view_id"
    let runtimeMs ← Json.subscript source "runtime_ms"
    return ⟨fun field => ((MetricField.all.zip values).lookup field).getD .null, analysisViewId,
      runtimeMs, expectation.unavailableMetricReasons⟩

/-! ## Diagnostics and artifacts -/

/-- The item's fields, after the checks of its form. -/
def readDiagnostic (item : Json φ) : Access (LegacyDiagnostic φ) :=
  if Json.isText item then do
    let text ← Json.text item
    return ⟨.str text, .null, .str text, none⟩
  else if Json.isMapping item then do
    let names ← Json.keys item
    demand ((∀ name ∈ names, name ∈ ["code", "severity", "message", "evidence_refs"]) ∧
      ∀ name ∈ ["code", "message", "evidence_refs"], name ∈ names)
      (.valueError "legacy diagnostic field set is not translatable")
    let token ← Json.subscript item "code"
    let suppliedSeverity ← Json.get item "severity"
    let message ← Json.subscript item "message"
    let rawEvidence ← Json.subscript item "evidence_refs"
    if !Json.isList rawEvidence then
      raise (.valueError "legacy diagnostic evidence must be a string list")
    else
      let values ← Json.elements rawEvidence
      demand (values.all Json.isText)
        (.valueError "legacy diagnostic evidence must be a string list")
      let suppliedEvidence ← values.mapM Json.text
      return ⟨token, suppliedSeverity, message, some suppliedEvidence⟩
  else raise (.valueError "legacy diagnostic must be a string or mapping")

def normalizeDiagnostic (context : LegacyMigrationContext) (item : Json φ) :
    Access Diagnostic := do
  let diagnostic ← readDiagnostic item
  if !Json.isText diagnostic.token then
    raise (.valueError "legacy diagnostic code must be a string")
  else
    let token ← Json.text diagnostic.token
    let rule ← registryGet context.diagnosticCodeRegistry diagnostic.token
    match rule with
    | none => raise (.valueError s!"unregistered legacy diagnostic code: {token}")
    | some rule =>
      demand (isNull diagnostic.suppliedSeverity = true ∨
        textOf diagnostic.suppliedSeverity = some (severityText rule.severity))
        (.valueError "legacy diagnostic severity conflicts with registry")
      demand (∀ evidence ∈ diagnostic.suppliedEvidence, evidence = rule.evidenceIds)
        (.valueError "legacy diagnostic evidence conflicts with registry")
      (validateDiagnostic rule diagnostic.message).mapError .valueError

/-- `_normalize_diagnostics` -/
def normalizeDiagnostics (legacy : Json φ) (context : LegacyMigrationContext) :
    Access (List Diagnostic) := do
  let source ← Json.subscript legacy "diagnostics"
  if !Json.isList source then raise (.valueError "legacy diagnostics must be a list")
  else
    let items ← Json.elements source
    items.mapM (normalizeDiagnostic context)

/-- The URI of an item, and its metadata if it is a mapping. -/
def readArtifact (item : Json φ) : Access (Json φ × Option (Json φ)) :=
  if Json.isText item then .ok (item, none)
  else if Json.isMapping item then do
    let names ← Json.keys item
    demand ((∀ name ∈ names, name ∈ ["uri", "sha256", "size_bytes"]) ∧
      ∀ name ∈ ["uri", "sha256", "size_bytes"], name ∈ names)
      (.valueError "legacy artifact metadata field set is not translatable")
    let uri ← Json.subscript item "uri"
    return (uri, some item)
  else raise (.valueError "legacy artifact must be a URI string or metadata mapping")

def resolveArtifact (N : Numbers φ) (context : LegacyMigrationContext) (item : Json φ) :
    Access ArtifactRef := do
  let (uri, expectedMetadata) ← readArtifact item
  if !Json.isText uri then raise (.valueError "legacy artifact URI must be a string")
  else
    let uri ← Json.text uri
    let found := context.artifactIndex uri
    demand (found.length = 1)
      (.valueError "legacy artifact URI must resolve to exactly one artifact")
    let artifact ← firstOf found
    match expectedMetadata with
    | none => return artifact
    | some metadata =>
      let sha256 ← Json.subscript metadata "sha256"
      let sizeBytes ← Json.subscript metadata "size_bytes"
      demand (Json.equal N sha256 (.str artifact.sha256) = true ∧
        Json.equal N sizeBytes (.int artifact.sizeBytes) = true)
        (.valueError "legacy artifact metadata does not match the artifact index")
      return artifact

/-- `_resolve_artifacts` -/
def resolveArtifacts (N : Numbers φ) (legacy : Json φ) (context : LegacyMigrationContext)
    (expectation : LegacyStageExpectation) (status : StageStatus) :
    Access (List ArtifactRef) := do
  let source ← Json.subscript legacy "raw_artifacts"
  if !Json.isList source then raise (.valueError "legacy raw_artifacts must be a nonempty list")
  else
    let items ← Json.elements source
    demand (!items.isEmpty) (.valueError "legacy raw_artifacts must be a nonempty list")
    let resolved ← items.mapM (resolveArtifact N context)
    let artifactIds := resolved.map ArtifactRef.artifactId
    demand artifactIds.Nodup (.valueError "resolved legacy artifact IDs must be unique")
    let missing := expectation.requiredArtifactIds.filter (· ∉ artifactIds)
    demand (status = .pass → missing = []) (.valueError ("legacy PASS lacks required artifact: " ++
      ", ".intercalate (sortedSet missing)))
    return resolved

/-! ## The result -/

/-- The stage, what is expected of it, and the status. -/
def registeredStage (legacy : Json φ) (context : LegacyMigrationContext) :
    Access (Stage × LegacyStageExpectation × StageStatus) := do
  let name ← requireString legacy "stage"
  match (Stage.ofText? name).bind fun stage =>
      (context.stageExpectations stage).map fun expectation => (stage, expectation) with
  | none => raise (.valueError s!"no registered legacy stage expectation for {name}")
  | some (stage, expectation) =>
    let statusName ← requireString legacy "status"
    match (statusOfText? statusName).filter (· ∈ expectation.allowedStatuses) with
    | none => raise (.valueError s!"legacy status is not allowed for {name}: {statusName}")
    | some status => return (stage, expectation, status)

/-- The fields that `StageResult.model_validate` takes from the payload as they are. -/
def copiedFields : List String :=
  ["stage_result_id", "run_id", "candidate_id", "analysis_view_id", "started_at", "ended_at"]

/-- `StageResultV1ToV2.migrate` -/
def migrate (P : Pydantic φ) (legacy : LegacyPayload φ) (context : LegacyMigrationContext) :
    Access (StageResult φ) := do
  let source := Json.obj legacy.fields
  validateSource P.toFloats source context
  let (stage, expectation, status) ← registeredStage source context
  let toolFingerprint ← resolveTool source context
  let inputHashes ← normalizeInputHashes P.toNumbers source context expectation
  let metrics ← normalizeMetrics source expectation
  let diagnostics ← normalizeDiagnostics source context
  let rawArtifacts ← resolveArtifacts P.toNumbers source context expectation status
  copiedFields.forM fun name => do
    let _ ← Json.subscript source name
  (validateResult P legacy stage status toolFingerprint inputHashes metrics diagnostics
    rawArtifacts).mapError .valueError

end Raising

/-! ## No other exception -/

/-- A step that raises only `ValueError`. -/
def lift {α : Type} (x : Except MigrationError α) : Access α := x.mapError .valueError

section Lift

variable {α β : Type} {x : Except MigrationError α} {f : α → Except MigrationError β}

@[simp] theorem lift_ok (a : α) : lift (.ok a : Except MigrationError α) = .ok a := rfl

@[simp] theorem lift_error (error : MigrationError) :
    lift (.error error : Except MigrationError α) = raise error := rfl

theorem lift_bind : lift (x >>= f) = lift x >>= fun a => lift (f a) := by
  cases x <;> rfl

theorem lift_require {p : Prop} [Decidable p] {error : MigrationError} :
    lift (require p error) = demand p error := by
  unfold demand require
  split <;> rfl

theorem lift_mapM {items : List α} : lift (items.mapM f) = items.mapM fun a => lift (f a) := by
  induction items with
  | nil => rfl
  | cons a items ih =>
    rw [List.mapM_cons, List.mapM_cons, lift_bind]
    congr 1
    funext b
    rw [lift_bind, ih]
    rfl

theorem lift_forM {items : List α} {g : α → Except MigrationError Unit} :
    lift (items.forM g) = items.forM fun a => lift (g a) := by
  induction items with
  | nil => rfl
  | cons a items ih =>
    change lift (g a >>= fun _ => items.forM g) = lift (g a) >>= fun _ => _
    rw [lift_bind]
    simp only [ih]

/-- Steps that agree where the first succeeds. -/
theorem bind_congr_ok {x y : Access α} {f g : α → Access β} (hx : x = y)
    (hf : ∀ a, x = .ok a → f a = g a) : x >>= f = y >>= g := by
  subst hx
  cases x with
  | error error => rfl
  | ok a => exact hf a rfl

end Lift

variable {N : Numbers φ} {F : Floats φ} {P : Pydantic φ} {legacy : LegacyPayload φ}
  {context : LegacyMigrationContext} {expectation : LegacyStageExpectation}

/-- The payload has every field. -/
def Complete (legacy : LegacyPayload φ) : Prop :=
  ∀ name ∈ legacyStageResultFields, name ∈ legacy.fields.map Prod.fst

theorem subscript_of_mem {fields : List (String × Json φ)} {name : String}
    (hname : name ∈ fields.map Prod.fst) :
    Json.subscript (.obj fields) name = .ok (valueOf fields name) := by
  have hlookup : (fields.lookup name).isSome := by
    obtain ⟨field, hfield, rfl⟩ := List.mem_map.mp hname
    exact List.lookup_isSome_iff.mpr ⟨field, hfield, beq_self_eq_true _⟩
  obtain ⟨item, hitem⟩ := Option.isSome_iff_exists.mp hlookup
  simp only [Json.subscript, valueOf, hitem, Option.getD_some]

/-- A subscript of a complete payload does not raise. -/
theorem Complete.subscript (h : Complete legacy) {name : String}
    (hname : name ∈ legacyStageResultFields) :
    Json.subscript (.obj legacy.fields) name = .ok (legacy.field name) :=
  subscript_of_mem (h name hname)

theorem raising_requireString (h : Complete legacy) {name : String}
    (hname : name ∈ legacyStageResultFields) :
    Raising.requireString (.obj legacy.fields) name = lift (requireString legacy name) := by
  unfold Raising.requireString requireString
  rw [h.subscript hname]
  cases hvalue : legacy.field name with
  | str s =>
    by_cases hempty : s = ""
    · subst hempty
      rfl
    · have hfilter : (textOf (.str s : Json φ)).filter (· ≠ "") = some s := by
        rw [textOf, Option.filter_some, if_pos (by simpa using hempty)]
      rw [hfilter]
      simp [Json.isText, Json.text, demand, require, bind, Except.bind, pure, Except.pure, hempty]
  | _ => rfl

theorem raising_validateSource : Raising.validateSource F (.obj legacy.fields) context =
    lift (validateSource F legacy context) := by
  unfold Raising.validateSource validateSource
  rw [lift_bind, lift_require]
  change (demand _ _ >>= fun _ => _) = _
  refine bind_congr_ok rfl fun _ hfields => ?_
  have hcomplete : Complete legacy := by
    intro name hname
    have hmissing := (require_eq_ok.mp hfields).2
    simpa using List.filter_eq_nil_iff.mp hmissing name hname
  rw [hcomplete.subscript (by decide), lift_bind, lift_require]
  change (demand _ _ >>= fun _ => _) = _
  refine bind_congr_ok rfl fun _ _ => ?_
  cases canonicalSha256 F (.obj legacy.fields) with
  | none => rfl
  | some hash => exact lift_require.symm

/-- A payload that passes has every field. -/
theorem complete_of_validateSource (h : validateSource F legacy context = .ok ()) :
    Complete legacy := by
  simp only [validateSource, bind_eq_ok, require_eq_ok] at h
  obtain ⟨-, ⟨-, hmissing⟩, -⟩ := h
  intro name hname
  have hmem := List.filter_eq_nil_iff.mp hmissing name hname
  simpa using hmem

theorem raising_registeredStage (h : Complete legacy) :
    Raising.registeredStage (.obj legacy.fields) context =
      lift (registeredStage legacy context) := by
  unfold Raising.registeredStage registeredStage
  rw [lift_bind, raising_requireString h (by decide)]
  refine bind_congr_ok rfl fun name _ => ?_
  cases (Stage.ofText? name).bind fun stage =>
      (context.stageExpectations stage).map fun expectation => (stage, expectation) with
  | none => rfl
  | some found =>
    change _ = lift (requireString legacy "status" >>= fun statusName => _)
    rw [lift_bind, raising_requireString h (by decide)]
    refine bind_congr_ok rfl fun statusName _ => ?_
    cases (statusOfText? statusName).filter (· ∈ found.2.allowedStatuses) <;> rfl

theorem raising_resolveTool (h : Complete legacy) :
    Raising.resolveTool (.obj legacy.fields) context = lift (resolveTool legacy context) := by
  unfold Raising.resolveTool resolveTool
  rw [lift_bind, raising_requireString h (by decide)]
  refine bind_congr_ok rfl fun toolName _ => ?_
  rw [lift_bind, raising_requireString h (by decide)]
  refine bind_congr_ok rfl fun toolVersion _ => ?_
  generalize context.toolFingerprints.filter (fun item =>
    item.toolId = toolName ∧ item.version = toolVersion) = found
  rcases found with _ | ⟨item, _ | ⟨other, rest⟩⟩
  · rfl
  · rfl
  · change demand (rest.length + 1 + 1 = 1) _ >>= _ = raise _
    rw [demand, require, if_neg (by omega)]
    rfl

theorem raising_normalizeInputHashes (h : Complete legacy) :
    Raising.normalizeInputHashes N (.obj legacy.fields) context expectation =
      lift (normalizeInputHashes N legacy context expectation) := by
  unfold Raising.normalizeInputHashes normalizeInputHashes
  rw [h.subscript (by decide)]
  cases hvalue : legacy.field "input_hashes" with
  | obj source =>
    change (source.foldlM (normalizeEntry N context) fun _ => .null).mapError .valueError >>=
      (fun normalized => _) = lift (source.foldlM (normalizeEntry N context) (fun _ => .null) >>=
        fun normalized => _)
    rw [lift_bind]
    refine bind_congr_ok rfl fun normalized _ => ?_
    rw [lift_bind, lift_require]
    refine bind_congr_ok rfl fun _ _ => ?_
    rw [lift_bind, lift_forM]
    simp only [lift_require]
    rfl
  | _ => rfl

/-- `name not in source or source[name] is None` -/
theorem lacks_eq {source : List (String × Json φ)} (name : String) :
    (if name ∈ source.map Prod.fst then (Json.subscript (.obj source) name).map isNull
      else .ok true : Access Bool) = .ok (isNull (valueOf source name)) := by
  split
  · next hname =>
    rw [subscript_of_mem hname]
    rfl
  · next hname =>
    have hlookup : source.lookup name = none := by
      rw [← Option.not_isSome_iff_eq_none, List.lookup_isSome_iff]
      rintro ⟨field, hfield, heq⟩
      exact hname (List.mem_map.mpr ⟨field, hfield, (eq_of_beq heq).symm⟩)
    rw [valueOf, hlookup]
    rfl

theorem subscript_of_not_null {source : List (String × Json φ)} {name : String}
    (hname : isNull (valueOf source name) = false) :
    Json.subscript (.obj source) name = .ok (valueOf source name) := by
  cases hlookup : source.lookup name with
  | none => simp [valueOf, hlookup, isNull] at hname
  | some item => simp only [Json.subscript, valueOf, hlookup, Option.getD_some]

/-- The values of the metrics, by name. -/
theorem lookup_zip_all (value : MetricField → Json φ) (field : MetricField) :
    ((MetricField.all.zip (MetricField.all.map value)).lookup field).getD .null = value field := by
  cases field <;> rfl

theorem filterM_ok {α : Type} {items : List α} {p : α → Bool} :
    items.filterM (fun a => (.ok (p a) : Access Bool)) = .ok (items.filter p) := by
  have haux (acc : List α) : items.filterAuxM (fun a => (.ok (p a) : Access Bool)) acc =
      .ok ((items.filter p).reverse ++ acc) := by
    induction items generalizing acc with
    | nil => rfl
    | cons a items ih =>
      change items.filterAuxM _ (cond (p a) (a :: acc) acc) = _
      rw [ih]
      cases hp : p a <;> simp [hp]
  rw [List.filterM, haux, List.append_nil]
  change Except.ok _ = _
  rw [List.reverse_reverse]

theorem mapM_ok {α β : Type} {items : List α} {f : α → β} :
    items.mapM (fun a => (.ok (f a) : Access β)) = .ok (items.map f) := by
  rw [mapM_eq_ok, List.forall₂_map_right_iff, List.forall₂_same]
  exact fun _ _ => rfl

theorem raising_normalizeMetrics (h : Complete legacy) :
    Raising.normalizeMetrics (.obj legacy.fields) expectation =
      lift (normalizeMetrics legacy expectation) := by
  unfold Raising.normalizeMetrics normalizeMetrics
  rw [h.subscript (by decide)]
  cases hvalue : legacy.field "metrics" with
  | obj source =>
    change (demand _ _ >>= fun _ => _) = lift _
    rw [lift_bind, lift_require]
    refine bind_congr_ok rfl fun _ _ => ?_
    simp only [lacks_eq, filterM_ok]
    change (demand _ _ >>= fun _ => _) = lift _
    rw [lift_bind, lift_require]
    refine bind_congr_ok rfl fun _ hmissing => ?_
    -- The context requires `runtime_ms` of every stage, so it is there.
    have hnull := List.filter_eq_nil_iff.mp (require_eq_ok.mp hmissing) _ List.mem_cons_self
    have hruntime := subscript_of_not_null (Bool.not_eq_true _ ▸ hnull)
    simp only [Except.map, filterM_ok, List.filter_filter]
    have hpresent : (MetricField.all.filter fun field => !isNull (valueOf source field.text) &&
        (expectation.unavailableMetricReasons field).isSome) = MetricField.all.filter fun field =>
          (expectation.unavailableMetricReasons field).isSome = true ∧
            ¬ isNull (valueOf source field.text) = true := by
      refine List.filter_congr fun field _ => ?_
      cases isNull (valueOf source field.text) <;>
        cases (expectation.unavailableMetricReasons field).isSome <;> rfl
    rw [hpresent]
    change (demand _ _ >>= fun _ => _) = lift _
    rw [lift_bind, lift_require]
    refine bind_congr_ok rfl fun _ _ => ?_
    simp only [Json.get, mapM_ok, hruntime, h.subscript (show "analysis_view_id" ∈ _ by decide)]
    simp only [bind, Except.bind, pure, Except.pure, lookup_zip_all]
    rfl
  | _ => rfl

/-! ### Diagnostics and artifacts -/

theorem mapM_textOf_eq_none {items : List (Json φ)} (h : items.all Json.isText = false) :
    items.mapM textOf = none := by
  induction items with
  | nil => cases h
  | cons item items ih =>
    cases item with
    | str s =>
      rw [List.mapM_cons, ih (by simpa [Json.isText] using h)]
      rfl
    | _ => rw [List.mapM_cons]; rfl

theorem mapM_text {items : List (Json φ)} (h : items.all Json.isText = true) :
    ∃ texts, items.mapM textOf = some texts ∧ items.mapM Json.text = .ok texts := by
  induction items with
  | nil => exact ⟨[], rfl, rfl⟩
  | cons item items ih =>
    rw [List.all_cons, Bool.and_eq_true] at h
    obtain ⟨texts, hsome, hok⟩ := ih h.2
    cases item with
    | str s =>
      refine ⟨s :: texts, ?_, ?_⟩
      · rw [List.mapM_cons, textOf, hsome]
        rfl
      · rw [List.mapM_cons, Json.text, hok]
        rfl
    | _ => cases h.1

theorem raising_readDiagnostic (item : Json φ) :
    Raising.readDiagnostic item = lift (readDiagnostic item) := by
  unfold Raising.readDiagnostic readDiagnostic
  cases item with
  | str s => rfl
  | obj fields =>
    change (demand _ _ >>= fun _ => _) = lift _
    rw [lift_bind, lift_require]
    refine bind_congr_ok rfl fun _ hfields => ?_
    have hnames := (require_eq_ok.mp hfields).2
    rw [subscript_of_mem (hnames "code" (by decide)),
      subscript_of_mem (hnames "message" (by decide)),
      subscript_of_mem (hnames "evidence_refs" (by decide))]
    cases hevidence : valueOf fields "evidence_refs" with
    | arr items =>
      cases hall : items.all Json.isText with
      | true =>
        obtain ⟨texts, hsome, hok⟩ := mapM_text hall
        simp only [Json.isList, Json.elements, Json.get, demand, require, hall, hsome, hok, bind,
          Except.bind, pure, Except.pure, ↓reduceIte, Bool.not_true, Bool.false_eq_true, lift_ok]
      | false =>
        simp only [mapM_textOf_eq_none hall, Json.isList, Json.elements, Json.get, demand, require,
          hall, bind, Except.bind, ↓reduceIte, Bool.not_true, Bool.false_eq_true]
        rfl
    | _ => rfl
  | _ => rfl

theorem raising_normalizeDiagnostic (item : Json φ) :
    Raising.normalizeDiagnostic context item = lift (normalizeDiagnostic context item) := by
  unfold Raising.normalizeDiagnostic normalizeDiagnostic
  rw [lift_bind, raising_readDiagnostic]
  refine bind_congr_ok rfl fun diagnostic _ => ?_
  cases htoken : diagnostic.token with
  | str token =>
    change (Except.ok (context.diagnosticCodeRegistry token) >>= fun rule => _) = lift _
    change (match context.diagnosticCodeRegistry token with | none => _ | some rule => _) =
      lift (match context.diagnosticCodeRegistry token with | none => _ | some rule => _)
    cases context.diagnosticCodeRegistry token with
    | none => rfl
    | some rule =>
      change (demand _ _ >>= fun _ => _) = lift (require _ _ >>= fun _ => _)
      rw [lift_bind, lift_require]
      refine bind_congr_ok rfl fun _ _ => ?_
      rw [lift_bind, lift_require]
      rfl
  | _ => rfl

theorem raising_normalizeDiagnostics (h : Complete legacy) :
    Raising.normalizeDiagnostics (.obj legacy.fields) context =
      lift (normalizeDiagnostics legacy context) := by
  unfold Raising.normalizeDiagnostics normalizeDiagnostics
  rw [h.subscript (by decide)]
  cases legacy.field "diagnostics" with
  | arr items =>
    rw [lift_mapM]
    simp only [← raising_normalizeDiagnostic]
    rfl
  | _ => rfl

/-- What follows an address, with the metadata that the item has. -/
theorem raising_matches (metadata : Option (Json φ × Json φ)) {found : List ArtifactRef}
    {f : ArtifactRef → Access ArtifactRef}
    (hf : ∀ artifact, f artifact = lift (do
      require (∀ said ∈ metadata, Json.equal N said.1 (.str artifact.sha256) = true ∧
        Json.equal N said.2 (.int artifact.sizeBytes) = true)
        (.valueError "legacy artifact metadata does not match the artifact index")
      return artifact)) :
    (do
      demand (found.length = 1)
        (.valueError "legacy artifact URI must resolve to exactly one artifact")
      let artifact ← firstOf found
      f artifact) = lift (match found with
      | [artifact] => do
        require (∀ said ∈ metadata, Json.equal N said.1 (.str artifact.sha256) = true ∧
          Json.equal N said.2 (.int artifact.sizeBytes) = true)
          (.valueError "legacy artifact metadata does not match the artifact index")
        return artifact
      | _ => throw (.valueError "legacy artifact URI must resolve to exactly one artifact")) := by
  rcases found with _ | ⟨artifact, _ | ⟨other, rest⟩⟩
  · rfl
  · exact hf artifact
  · rw [demand, require, if_neg (by rw [List.length_cons, List.length_cons]; omega)]
    rfl

theorem raising_resolveArtifact (item : Json φ) :
    Raising.resolveArtifact N context item = lift (resolveArtifact N context item) := by
  unfold Raising.resolveArtifact resolveArtifact Raising.readArtifact readArtifact
  cases item with
  | str uri =>
    refine raising_matches none fun artifact => ?_
    rw [lift_bind, lift_require, demand, require, if_pos nofun]
    rfl
  | obj fields =>
    change (demand _ _ >>= fun _ => _) >>= _ = lift ((require _ _ >>= fun _ => _) >>= _)
    refine (bind_assoc _ _ _).trans (Eq.trans ?_ (congrArg lift (bind_assoc _ _ _).symm))
    rw [lift_bind, lift_require]
    refine bind_congr_ok rfl fun _ hfields => ?_
    have hnames := (require_eq_ok.mp hfields).2
    rw [subscript_of_mem (hnames "uri" (by decide))]
    cases huri : valueOf fields "uri" with
    | str uri =>
      refine raising_matches
        (some (valueOf fields "sha256", valueOf fields "size_bytes")) fun artifact => ?_
      simp only [subscript_of_mem (hnames "sha256" (by decide)),
        subscript_of_mem (hnames "size_bytes" (by decide)), lift_bind, lift_require]
      simp only [Option.mem_some_iff, forall_eq']
      rfl
    | _ => rfl
  | _ => rfl

theorem raising_resolveArtifacts {status : StageStatus} (h : Complete legacy) :
    Raising.resolveArtifacts N (.obj legacy.fields) context expectation status =
      lift (resolveArtifacts N legacy context expectation status) := by
  unfold Raising.resolveArtifacts resolveArtifacts
  rw [h.subscript (by decide)]
  cases legacy.field "raw_artifacts" with
  | arr items =>
    cases items with
    | nil => rfl
    | cons item items =>
      change (List.mapM _ (item :: items) >>= fun _ => _) =
        lift (List.mapM _ (item :: items) >>= fun _ => _)
      rw [lift_bind, lift_mapM]
      refine bind_congr_ok (congrArg (List.mapM · _) (funext raising_resolveArtifact))
        fun resolved _ => ?_
      rw [lift_bind, lift_require]
      refine bind_congr_ok rfl fun _ _ => ?_
      rw [lift_bind, lift_require]
      rfl
  | _ => rfl

theorem copiedFields_subset : Raising.copiedFields ⊆ legacyStageResultFields := by
  decide

/-- The adapter reads only what is there. -/
theorem raising_migrate : Raising.migrate P legacy context = lift (migrate P legacy context) := by
  unfold Raising.migrate migrate
  rw [lift_bind]
  refine bind_congr_ok raising_validateSource fun _ hsource => ?_
  have h : Complete legacy := by
    rw [raising_validateSource] at hsource
    cases hvalid : validateSource P.toFloats legacy context with
    | error error => rw [hvalid] at hsource; cases hsource
    | ok _ => exact complete_of_validateSource hvalid
  rw [lift_bind]
  refine bind_congr_ok (raising_registeredStage h) fun registered _ => ?_
  rw [lift_bind]
  refine bind_congr_ok (raising_resolveTool h) fun toolFingerprint _ => ?_
  rw [lift_bind]
  refine bind_congr_ok (raising_normalizeInputHashes h) fun inputHashes _ => ?_
  rw [lift_bind]
  refine bind_congr_ok (raising_normalizeMetrics h) fun metrics _ => ?_
  rw [lift_bind]
  refine bind_congr_ok (raising_normalizeDiagnostics h) fun diagnostics _ => ?_
  rw [lift_bind]
  refine bind_congr_ok (raising_resolveArtifacts h) fun rawArtifacts _ => ?_
  have hcopied : (Raising.copiedFields.forM fun name => do
      let _ ← Json.subscript (.obj legacy.fields) name) = (.ok () : Access Unit) := by
    refine forM_eq_ok.mpr fun name hname => ?_
    rw [h.subscript (copiedFields_subset hname)]
    rfl
  rw [hcopied]
  rfl

end NovaRtl.Migrations
