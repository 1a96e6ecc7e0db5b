import NovaRtl.Contracts.Migrations

/-!
# Which input hashes are migrated

The loop that renames the input hashes ends with the hashes that the context expects exactly if each
entry has a registered name, is `null` or the hash expected under that name, if each expected hash
is there, and if no `null` comes after a hash of the same field.
-/

namespace NovaRtl.Migrations

open Text

variable {φ : Type} {N : Numbers φ} {context : LegacyMigrationContext}

section Loop

variable (context)

/-- What the loop has to end with. -/
def target (field : InputField) : Json φ :=
  match context.expectedInputHashes field with
  | some hash => .str hash.val
  | none => .null

/-- No `null` comes after a hash of the same field. -/
def NullsFirst (source : List (String × Json φ)) : Prop :=
  source.Pairwise fun entry later =>
    context.legacyFieldAliases entry.1 = context.legacyFieldAliases later.1 →
      entry.2 ≠ .null → later.2 ≠ .null

/-- The entries that turn the fields filled so far into the target. -/
structure Fills (normalized : InputField → Json φ) (source : List (String × Json φ)) : Prop where
  registered : ∀ entry ∈ source, (context.legacyFieldAliases entry.1).isSome
  started : ∀ field, normalized field = .null ∨ normalized field = target context field
  expected : ∀ entry ∈ source, ∀ field ∈ context.legacyFieldAliases entry.1,
    entry.2 = .null ∨ entry.2 = target context field
  covered : ∀ field, normalized field = target context field ∨
    ∃ entry ∈ source, field ∈ context.legacyFieldAliases entry.1 ∧ entry.2 ≠ .null
  kept : ∀ field, normalized field ≠ .null → ∀ entry ∈ source,
    field ∈ context.legacyFieldAliases entry.1 → entry.2 ≠ .null
  nullsFirst : NullsFirst context source

variable {context} {normalized : InputField → Json φ} {source : List (String × Json φ)}

theorem isNull_iff {j : Json φ} : isNull j = true ↔ j = .null := by
  cases j <;> simp [isNull]

theorem equal_target {j : Json φ} {field : InputField} :
    Json.equal N j (target context field) = true ↔ j = target context field := by
  unfold target
  cases context.expectedInputHashes field with
  | none => exact Json.equal_null
  | some hash => exact Json.equal_str

theorem normalizeEntry_eq_ok {entry : String × Json φ} {normalized' : InputField → Json φ} :
    normalizeEntry N context normalized entry = .ok normalized' ↔
      ∃ field, context.legacyFieldAliases entry.1 = some field ∧
        (normalized field = .null ∨ Json.equal N (normalized field) entry.2 = true) ∧
        Function.update normalized field entry.2 = normalized' := by
  unfold normalizeEntry
  cases context.legacyFieldAliases entry.1 with
  | none => simp [throw, throwThe, MonadExceptOf.throw]
  | some field =>
    simp only [seq_eq_ok, require_eq_ok, isNull_iff, pure, Except.pure, Except.ok.injEq,
      Option.some.injEq, exists_eq_left']

theorem fills_nil : Fills context normalized [] ↔ normalized = target context := by
  constructor
  · intro h
    funext field
    rcases h.covered field with hfield | ⟨entry, hmem, -⟩
    · exact hfield
    · cases hmem
  · rintro rfl
    exact ⟨by simp, fun _ => .inr rfl, by simp, fun _ => .inl rfl, by simp, .nil⟩

theorem Fills.head {entry : String × Json φ} (h : Fills context normalized (entry :: source))
    {field : InputField} (hfield : context.legacyFieldAliases entry.1 = some field) :
    (normalized field = .null ∨ normalized field = entry.2) ∧
      Fills context (Function.update normalized field entry.2) source := by
  have hmem : entry ∈ entry :: source := List.mem_cons_self
  have hentry := h.expected entry hmem field hfield
  have hkept := h.kept field
  obtain ⟨hfirst, hrest⟩ := List.pairwise_cons.mp h.nullsFirst
  have hsame : normalized field = .null ∨ normalized field = entry.2 := by
    rcases h.started field with hnull | htarget
    · exact .inl hnull
    · by_cases hnull : normalized field = .null
      · exact .inl hnull
      · exact .inr (htarget.trans (hentry.resolve_left (hkept hnull entry hmem hfield)).symm)
  refine ⟨hsame, ⟨?_, ?_, ?_, ?_, ?_, hrest⟩⟩
  · exact fun other hother => h.registered other (List.mem_cons_of_mem _ hother)
  · intro other
    by_cases heq : other = field
    · subst heq
      simpa using hentry
    · simpa [Function.update_of_ne heq] using h.started other
  · exact fun other hother => h.expected other (List.mem_cons_of_mem _ hother)
  · intro other
    by_cases heq : other = field
    · subst heq
      rw [Function.update_self]
      rcases hentry with hnull | htarget
      · rcases h.covered other with hdone | ⟨later, hlater, hname, hvalue⟩
        · rcases hsame with hnone | hequal
          · exact .inl (hnull.trans (hnone.symm.trans hdone))
          · exact .inl (hequal.symm.trans hdone)
        · rcases List.mem_cons.mp hlater with rfl | hlater
          · exact absurd hnull hvalue
          · exact .inr ⟨later, hlater, hname, hvalue⟩
      · exact .inl htarget
    · rw [Function.update_of_ne heq]
      rcases h.covered other with hdone | ⟨later, hlater, hname, hvalue⟩
      · exact .inl hdone
      · rcases List.mem_cons.mp hlater with rfl | hlater
        · exact absurd (Option.some.inj (hname.symm.trans hfield)) heq
        · exact .inr ⟨later, hlater, hname, hvalue⟩
  · intro other hother later hlater hname
    by_cases heq : other = field
    · subst heq
      rw [Function.update_self] at hother
      exact hfirst later hlater (hfield.trans (Option.mem_def.mp hname).symm) hother
    · rw [Function.update_of_ne heq] at hother
      exact h.kept other hother later (List.mem_cons_of_mem _ hlater) hname

theorem Fills.cons {entry : String × Json φ} {field : InputField}
    (hfield : context.legacyFieldAliases entry.1 = some field)
    (hsame : normalized field = .null ∨ normalized field = entry.2)
    (h : Fills context (Function.update normalized field entry.2) source) :
    Fills context normalized (entry :: source) := by
  have hstarted := h.started field
  have hkept := h.kept field
  rw [Function.update_self] at hstarted hkept
  refine ⟨?_, ?_, ?_, ?_, ?_, ?_⟩
  · exact List.forall_mem_cons.mpr ⟨by rw [hfield]; rfl, h.registered⟩
  · intro other
    by_cases heq : other = field
    · subst heq
      rcases hsame with hnull | hequal
      · exact .inl hnull
      · exact hequal ▸ hstarted
    · simpa [Function.update_of_ne heq] using h.started other
  · refine List.forall_mem_cons.mpr ⟨?_, h.expected⟩
    intro other hother
    rw [hfield, Option.mem_def, Option.some.injEq] at hother
    exact hother ▸ hstarted
  · intro other
    rcases h.covered other with hdone | ⟨later, hlater, hname, hvalue⟩
    · by_cases heq : other = field
      · subst heq
        rw [Function.update_self] at hdone
        by_cases hnull : entry.2 = .null
        · rcases hsame with hnone | hequal
          · exact .inl (hnone.trans (hnull.symm.trans hdone))
          · exact .inl (hequal.trans hdone)
        · exact .inr ⟨entry, List.mem_cons_self, hfield, hnull⟩
      · rw [Function.update_of_ne heq] at hdone
        exact .inl hdone
    · exact .inr ⟨later, List.mem_cons_of_mem _ hlater, hname, hvalue⟩
  · intro other hother
    refine List.forall_mem_cons.mpr ⟨?_, ?_⟩
    · intro hname
      have heq := Option.some.inj ((Option.mem_def.mp hname).symm.trans hfield)
      subst heq
      exact (hsame.resolve_left hother) ▸ hother
    · intro later hlater hname
      by_cases heq : other = field
      · subst heq
        exact hkept ((hsame.resolve_left hother) ▸ hother) later hlater hname
      · exact h.kept other (by rwa [Function.update_of_ne heq]) later hlater hname
  · refine List.pairwise_cons.mpr ⟨?_, h.nullsFirst⟩
    intro later hlater hname hvalue
    exact hkept hvalue later hlater (hname.symm.trans hfield)

theorem foldlM_eq_ok :
    source.foldlM (normalizeEntry N context) normalized = .ok (target context) ↔
      Fills context normalized source := by
  induction source generalizing normalized with
  | nil => simp only [fills_nil, List.foldlM_nil, pure, Except.pure, Except.ok.injEq]
  | cons entry source ih =>
    simp only [List.foldlM_cons, bind_eq_ok, normalizeEntry_eq_ok]
    constructor
    · rintro ⟨_, ⟨field, hfield, hsame, rfl⟩, hrest⟩
      have hfills := ih.mp hrest
      have hvalue := hfills.started field
      rw [Function.update_self] at hvalue
      refine Fills.cons hfield (hsame.imp_right fun hequal => ?_) hfills
      rcases hvalue with hnull | htarget
      · rw [hnull] at hequal ⊢
        exact Json.equal_null.mp hequal
      · rw [htarget] at hequal ⊢
        exact equal_target.mp hequal
    · intro h
      obtain ⟨field, hfield⟩ := Option.isSome_iff_exists.mp
        (h.registered entry List.mem_cons_self)
      obtain ⟨hsame, hrest⟩ := h.head hfield
      refine ⟨_, ⟨field, hfield, hsame.imp_right fun hequal => ?_, rfl⟩, ih.mpr hrest⟩
      rw [hequal]
      exact beq_self_eq_true _

/-- A field without aliases stays as it is. -/
theorem foldlM_of_no_alias {field : InputField} {normalized' : InputField → Json φ}
    (hnone : ∀ name, context.legacyFieldAliases name ≠ some field)
    (h : source.foldlM (normalizeEntry N context) normalized = .ok normalized') :
    normalized' field = normalized field := by
  induction source generalizing normalized with
  | nil =>
    simp only [List.foldlM_nil, pure, Except.pure, Except.ok.injEq] at h
    rw [h]
  | cons entry source ih =>
    simp only [List.foldlM_cons, bind_eq_ok, normalizeEntry_eq_ok] at h
    obtain ⟨_, ⟨other, hother, -, rfl⟩, hrest⟩ := h
    have hne : field ≠ other := by
      rintro rfl
      exact hnone _ hother
    rw [ih hrest, Function.update_of_ne hne]

end Loop

/-! ## The result -/

/-- The entries are the hashes that the context expects, and `null`s. -/
structure InputsMatch (context : LegacyMigrationContext) (source : List (String × Json φ)) :
    Prop where
  registered : ∀ entry ∈ source, (context.legacyFieldAliases entry.1).isSome
  expected : ∀ entry ∈ source, ∀ field ∈ context.legacyFieldAliases entry.1,
    entry.2 = .null ∨ entry.2 = target context field
  covered : ∀ field, target (φ := φ) context field = .null ∨
    ∃ entry ∈ source, field ∈ context.legacyFieldAliases entry.1 ∧ entry.2 ≠ .null

theorem fills_start {source : List (String × Json φ)} :
    Fills context (fun _ => .null) source ↔
      InputsMatch context source ∧ NullsFirst context source := by
  constructor
  · intro h
    exact ⟨⟨h.registered, h.expected, fun field => (h.covered field).imp_left Eq.symm⟩,
      h.nullsFirst⟩
  · rintro ⟨h, hnulls⟩
    exact ⟨h.registered, fun _ => .inl rfl, h.expected,
      fun field => (h.covered field).imp_left Eq.symm, by simp, hnulls⟩

theorem hashRef_target (field : InputField) :
    hashRef (target (φ := φ) context field) = context.expectedInputHashes field := by
  unfold target
  cases context.expectedInputHashes field with
  | none => rfl
  | some hash => exact dif_pos hash.2

theorem isSome_optional_target (field : InputField) :
    (optional hashRef (target (φ := φ) context field)).isSome = true := by
  have hread : hashRef (target (φ := φ) context field) = context.expectedInputHashes field :=
    hashRef_target field
  unfold optional
  split
  · rfl
  · next hnull =>
    cases hexpected : context.expectedInputHashes field with
    | none => simp [target, hexpected, isNull] at hnull
    | some hash => simp [hread, hexpected]

theorem normalizeInputHashes_eq_ok {legacy : LegacyPayload φ}
    {expectation : LegacyStageExpectation} {hashes : StageInputHashes}
    (hrequired : ∀ field ∈ expectation.requiredInputFields,
      (context.expectedInputHashes field).isSome) :
    normalizeInputHashes N legacy context expectation = .ok hashes ↔
      ∃ source, legacy.field "input_hashes" = .obj source ∧ InputsMatch context source ∧
        NullsFirst context source ∧
        hashes = ⟨context.expectedInputHashes, migrationExtensions context⟩ := by
  unfold normalizeInputHashes
  split
  next source hsource =>
    simp only [hsource, Json.obj.injEq, exists_eq_left', bind_eq_ok, require_eq_ok,
      List.forM_eq_forM, forM_eq_ok, exists_const, validateInputHashes, pure, Except.pure,
      Except.ok.injEq]
    constructor
    · rintro ⟨normalized, hfold, hmissing, hexpected, -, -, rfl⟩
      have htarget : normalized = target context := by
        funext field
        cases hfield : context.expectedInputHashes field with
        | some hash =>
          rw [target, hfield]
          exact Json.equal_str.mp (hexpected field (InputField.mem_all field) hash hfield)
        | none =>
          rw [target, hfield]
          refine foldlM_of_no_alias (fun name hname => ?_) hfold
          have := context.aliases_pinned name field hname
          rw [hfield] at this
          cases this
      subst htarget
      obtain ⟨hmatch, hnulls⟩ := fills_start.mp (foldlM_eq_ok.mp hfold)
      exact ⟨hmatch, hnulls, by simp only [hashRef_target]⟩
    · rintro ⟨hmatch, hnulls, rfl⟩
      refine ⟨target context, foldlM_eq_ok.mpr (fills_start.mpr ⟨hmatch, hnulls⟩), ?_, ?_, ?_, ?_,
        by simp only [hashRef_target]⟩
      · rw [List.filter_eq_nil_iff]
        intro field hfield hnull
        obtain ⟨hash, hhash⟩ := Option.isSome_iff_exists.mp (hrequired field hfield)
        simp [target, hhash, isNull] at hnull
      · intro field _ hash hhash
        rw [Option.mem_def] at hhash
        rw [target, hhash]
        exact beq_self_eq_true _
      · exact fun field _ => isSome_optional_target field
      · simp [migrationExtensions, registeredStageInputExtensions]
  next hsource =>
    constructor
    · intro h
      cases h
    · rintro ⟨source, hobj, -⟩
      exact absurd hobj (hsource source)

end NovaRtl.Migrations
