import NovaRtl.Planner.Evidence
import NovaRtl.Transact.Rollback

/-!
# The audit log of evidence accesses

Over every run of fetches the log only grows, its records are numbered, and what a fetch returns has
passed every check. The granted records of a fetch are what it returned unless it is denied after a
grant.

## Main definitions

* `Passes` — the authority checks of one object.
* `AuditLaw` — what one fetch of a run should satisfy.
* `DeniedPartWay` — the calls that are denied after a grant.
-/

namespace NovaRtl.Planner

open Text

variable {φ : Type} {F : Floats φ} {hashRecord : RetrievalPayload → HashRef}
  {provider : InMemoryEvidenceProvider F} {call : FetchCall} {audit : AuditLog}
  {evidenceId : String} {item : EvidenceObject F}

/-- A record of the call can be built. -/
structure Recordable (call : FetchCall) : Prop where
  role_ne : call.roleId ≠ ""
  reason_ne : call.reason ≠ ""
  snapshot_hash : isHashRef call.expectedSnapshotHash

/-- The object is stored under the identifier, and the role may see it. -/
structure Passes (provider : InMemoryEvidenceProvider F) (call : FetchCall) (evidenceId : String)
    (item : EvidenceObject F) : Prop where
  well_formed : isEntityId evidenceId
  granted : evidenceId ∈ provider.granted call
  stored : provider.object? evidenceId = some item
  snapshot_eq : item.evidenceRef.snapshotHash.val = call.expectedSnapshotHash
  kind_allowed : item.evidenceRef.kind ∈ provider.policy.allowedEvidenceKinds
  classification_allowed : item.classification ∈ provider.policy.allowedClassifications

theorem Passes.id_eq (h : Passes provider call evidenceId item) :
    item.evidenceRef.evidenceId.val = evidenceId := by
  simpa using List.find?_some h.stored

theorem reasonCodeOf_eq_authorized :
    reasonCodeOf provider call item = .authorized ↔
      item.evidenceRef.snapshotHash.val = call.expectedSnapshotHash ∧
        item.evidenceRef.kind ∈ provider.policy.allowedEvidenceKinds ∧
          item.classification ∈ provider.policy.allowedClassifications := by
  unfold reasonCodeOf
  split_ifs <;> simp_all

/-! ## One access -/

theorem check_granted (hcall : Recordable call) (hid : evidenceId ≠ "") (n : ℕ) :
    (auditRecord hashRecord call n evidenceId .granted .authorized (some item)).check hashRecord =
      .ok () := by
  simp [RetrievalAuditRecord.check, auditRecord, require, hcall.role_ne, hcall.reason_ne,
    hcall.snapshot_hash, hid, bind, Except.bind]

theorem not_recordable_check {n : ℕ} {decision : AccessDecision} {code : ReasonCode}
    {item : Option (EvidenceObject F)} (hcall : ¬ Recordable call) :
    ∃ e, (auditRecord hashRecord call n evidenceId decision code item).check hashRecord =
      .error e := by
  cases h : (auditRecord hashRecord call n evidenceId decision code item).check hashRecord with
  | error e => exact ⟨e, rfl⟩
  | ok _ =>
    simp only [RetrievalAuditRecord.check, bind_eq_ok, require_eq_ok] at h
    obtain ⟨-, hrole, -, -, -, hreason, -, hsnapshot, -⟩ := h
    exact absurd ⟨hrole, hreason, hsnapshot⟩ hcall

theorem record_granted (hcall : Recordable call) (hid : evidenceId ≠ "") :
    record hashRecord call evidenceId .granted .authorized (some item) audit =
      .ok () (audit ++
        [auditRecord hashRecord call audit.length evidenceId .granted .authorized (some item)]) := by
  simp only [record, check_granted hcall hid]

/-- Records that deny and continue the numbers of a log. -/
structure Denials (audit written : AuditLog) : Prop where
  denied : ∀ item ∈ written, item.decision = .denied
  numbered : written.map (fun item => item.sequence) =
    (List.range written.length).map (audit.length + ·)

theorem denials_nil : Denials audit [] := ⟨by simp, by simp⟩

theorem deny_eq {α : Type} {code : ReasonCode} {message : String} :
    ∃ e written, Denials audit written ∧
      (deny (F := F) hashRecord call evidenceId code message : EStateM PlannerError AuditLog α)
        audit = .error e (audit ++ written) := by
  let item := auditRecord (F := F) hashRecord call audit.length evidenceId .denied code none
  cases h : item.check hashRecord with
  | error e =>
    refine ⟨e, [], denials_nil, ?_⟩
    simp only [deny, record, bind, EStateM.bind, show auditRecord (F := F) hashRecord call
      audit.length evidenceId .denied code none = item from rfl, h, List.append_nil]
  | ok _ =>
    refine ⟨.contextIntegrity message, [item], ⟨by simp [item, auditRecord], by
      simp [item, auditRecord]⟩, ?_⟩
    simp only [deny, record, bind, EStateM.bind, show auditRecord (F := F) hashRecord call
      audit.length evidenceId .denied code none = item from rfl, h]
    rfl

/-- An access of an object that passes writes one granted record and returns it; any other access
fails and writes no granted record. -/
theorem access_cases (hashRecord : RetrievalPayload → HashRef)
    (provider : InMemoryEvidenceProvider F) (call : FetchCall) (evidenceId : String)
    (audit : AuditLog) :
    (∃ item, Recordable call ∧ Passes provider call evidenceId item ∧
        access hashRecord provider call evidenceId audit = .ok item (audit ++
          [auditRecord hashRecord call audit.length evidenceId .granted .authorized
            (some item)])) ∨
      ((Recordable call → ∀ item, ¬ Passes provider call evidenceId item) ∧
        ∃ e written, Denials audit written ∧
          access hashRecord provider call evidenceId audit = .error e (audit ++ written)) := by
  unfold access
  by_cases hwell : isEntityId evidenceId
  · by_cases hgrant : evidenceId ∈ provider.granted call
    · cases hitem : provider.object? evidenceId with
      | none =>
        refine .inr ⟨fun _ item h => by simp [h.stored] at hitem, ?_⟩
        simpa [hwell, hgrant] using deny_eq
      | some item =>
        by_cases hcode : reasonCodeOf provider call item = .authorized
        · obtain ⟨hsnapshot, hkind, hclass⟩ := reasonCodeOf_eq_authorized.mp hcode
          have hid : evidenceId ≠ "" := by
            rintro rfl
            exact absurd hwell (by decide)
          by_cases hcall : Recordable call
          · refine .inl ⟨item, hcall, ⟨hwell, hgrant, hitem, hsnapshot, hkind, hclass⟩, ?_⟩
            simp [hwell, hgrant, hcode, bind, EStateM.bind, record_granted hcall hid, pure,
              EStateM.pure]
          · refine .inr ⟨fun h => absurd h hcall, ?_⟩
            obtain ⟨e, he⟩ : ∃ e, (auditRecord hashRecord call audit.length evidenceId .granted
                .authorized (some item)).check hashRecord = .error e :=
              not_recordable_check hcall
            exact ⟨e, [], denials_nil, by
              simp [hwell, hgrant, hcode, bind, EStateM.bind, record, he]⟩
        · refine .inr ⟨fun _ other h => ?_, ?_⟩
          · obtain rfl : item = other := by simpa [hitem] using h.stored
            exact hcode (reasonCodeOf_eq_authorized.mpr
              ⟨h.snapshot_eq, h.kind_allowed, h.classification_allowed⟩)
          · simpa [hwell, hgrant, hcode] using deny_eq
    · refine .inr ⟨fun _ item h => hgrant h.granted, ?_⟩
      simpa [hwell, hgrant] using deny_eq
  · refine .inr ⟨fun _ item h => hwell h.well_formed, ?_⟩
    simpa [hwell] using deny_eq

/-! ## One fetch -/

/-- The records of granted objects, numbered from `n`. -/
def grantedRecords (hashRecord : RetrievalPayload → HashRef) (call : FetchCall) :
    ℕ → List (EvidenceObject F) → AuditLog
  | _, [] => []
  | n, item :: items =>
    auditRecord hashRecord call n item.evidenceRef.evidenceId.val .granted .authorized (some item) ::
      grantedRecords hashRecord call (n + 1) items

@[simp] theorem length_grantedRecords (n : ℕ) (items : List (EvidenceObject F)) :
    (grantedRecords hashRecord call n items).length = items.length := by
  induction items generalizing n with
  | nil => rfl
  | cons item items ih => simp [grantedRecords, ih]

theorem sequence_grantedRecords (n : ℕ) (items : List (EvidenceObject F)) :
    (grantedRecords hashRecord call n items).map (fun item => item.sequence) =
      (List.range items.length).map (n + ·) := by
  induction items generalizing n with
  | nil => rfl
  | cons item items ih =>
    simp only [grantedRecords, List.map_cons, ih, List.length_cons, List.range_succ_eq_map,
      List.map_map]
    refine congrArg₂ List.cons (by simp [auditRecord]) (List.map_congr_left fun i _ => ?_)
    simp only [Function.comp_apply]
    omega

/-- The identity of an object as a record states it. -/
def RetrievalAuditRecord.returned (item : RetrievalAuditRecord) : String × Option HashRef × ℕ × ℕ :=
  (item.evidenceId, item.returnedHash, item.returnedSizeBytes, item.returnedTokens)

def EvidenceObject.returned (item : EvidenceObject F) : String × Option HashRef × ℕ × ℕ :=
  (item.evidenceRef.evidenceId.val, some item.contentHash, item.sizeBytes, item.tokenEstimate)

/-- What the granted records of a log state. -/
def grantedIdentities (written : AuditLog) : List (String × Option HashRef × ℕ × ℕ) :=
  (written.filter fun item => item.decision = .granted).map RetrievalAuditRecord.returned

theorem grantedIdentities_append (written written' : AuditLog) :
    grantedIdentities (written ++ written') =
      grantedIdentities written ++ grantedIdentities written' := by
  simp [grantedIdentities]

theorem grantedIdentities_grantedRecords (n : ℕ) (items : List (EvidenceObject F)) :
    grantedIdentities (grantedRecords hashRecord call n items) =
      items.map EvidenceObject.returned := by
  induction items generalizing n with
  | nil => rfl
  | cons item items ih =>
    have hrest := ih (n + 1)
    simp only [grantedIdentities] at hrest
    simp [grantedIdentities, grantedRecords, hrest, auditRecord, RetrievalAuditRecord.returned,
      EvidenceObject.returned]

theorem Denials.grantedIdentities_eq {written : AuditLog} (h : Denials audit written) :
    grantedIdentities written = [] := by
  have hnone : written.filter (fun item => item.decision = .granted) = [] :=
    List.filter_eq_nil_iff.mpr fun item hitem => by simp [h.denied item hitem]
  simp [grantedIdentities, hnone]

/-- A walk over identifiers returns all of their objects or stops at the first that fails. -/
theorem mapM_access_cases (hashRecord : RetrievalPayload → HashRef)
    (provider : InMemoryEvidenceProvider F) (call : FetchCall) (ids : List String)
    (audit : AuditLog) :
    (∃ items, List.Forall₂ (Passes provider call) ids items ∧
        ids.mapM (access hashRecord provider call) audit =
          .ok items (audit ++ grantedRecords hashRecord call audit.length items)) ∨
      (∃ passed id rest items e written, ids = passed ++ id :: rest ∧
        List.Forall₂ (Passes provider call) passed items ∧ (passed ≠ [] → Recordable call) ∧
        (Recordable call → ∀ item, ¬ Passes provider call id item) ∧
        Denials (audit ++ grantedRecords hashRecord call audit.length items) written ∧
        ids.mapM (access hashRecord provider call) audit =
          .error e (audit ++ grantedRecords hashRecord call audit.length items ++ written)) := by
  induction ids generalizing audit with
  | nil => exact .inl ⟨[], .nil, by simp [pure, EStateM.pure, grantedRecords]⟩
  | cons id ids ih =>
    rw [List.mapM_cons]
    rcases access_cases hashRecord provider call id audit with
      ⟨item, hcall, hpass, haccess⟩ | ⟨hfail, e, written, hwritten, haccess⟩
    · have hgrow : ∀ items, audit ++
          auditRecord hashRecord call audit.length id .granted .authorized (some item) ::
            grantedRecords hashRecord call (audit.length + 1) items =
          audit ++ grantedRecords hashRecord call audit.length (item :: items) := by
        intro items
        rw [grantedRecords, hpass.id_eq]
      let next := audit ++
        [auditRecord hashRecord call audit.length id .granted .authorized (some item)]
      have hnext : next.length = audit.length + 1 := by simp [next]
      rcases ih next with ⟨items, hitems, hrest⟩ |
        ⟨passed, failed, rest, items, e, written, rfl, hitems, -, hfail, hwritten, hrest⟩
      · refine .inl ⟨item :: items, .cons hpass hitems, ?_⟩
        simp only [bind, EStateM.bind, haccess]
        simp only [next] at hrest
        simp [hrest, pure, EStateM.pure, hgrow]
      · refine .inr ⟨id :: passed, failed, rest, item :: items, e, written, rfl,
          .cons hpass hitems, fun _ => hcall, hfail, ?_, ?_⟩
        · simpa [next, hgrow] using hwritten
        · simp only [bind, EStateM.bind, haccess]
          simp only [next] at hrest
          simp [hrest, hgrow]
    · refine .inr ⟨[], id, ids, [], e, written, rfl, .nil, by simp, hfail, ?_, ?_⟩
      · simpa [grantedRecords] using hwritten
      · simp [bind, EStateM.bind, haccess, grantedRecords]

/-! ## Runs of fetches -/

/-- A call, the log before and after it, and what it returned or raised. -/
structure FetchStep (F : Floats φ) where
  call : FetchCall
  before : AuditLog
  after : AuditLog
  outcome : Except PlannerError (List (EvidenceObject F))

def FetchStep.written (step : FetchStep F) : AuditLog := step.after.drop step.before.length

def FetchStep.items (step : FetchStep F) : List (EvidenceObject F) :=
  match step.outcome with
  | .ok items => items
  | .error _ => []

def fetchStep (hashRecord : RetrievalPayload → HashRef) (provider : InMemoryEvidenceProvider F)
    (call : FetchCall) (before : AuditLog) : FetchStep F :=
  match fetch hashRecord provider call before with
  | .ok items after => ⟨call, before, after, .ok items⟩
  | .error e after => ⟨call, before, after, .error e⟩

/-- The calls on one provider, one after the other. -/
def fetchRun (hashRecord : RetrievalPayload → HashRef) (provider : InMemoryEvidenceProvider F) :
    AuditLog → List FetchCall → List (FetchStep F)
  | _, [] => []
  | audit, call :: calls =>
    let step := fetchStep hashRecord provider call audit
    step :: fetchRun hashRecord provider step.after calls

def Numbered (audit : AuditLog) : Prop :=
  audit.map (fun item => item.sequence) = List.range audit.length

/-- What one fetch of a run should satisfy. -/
structure AuditLaw (provider : InMemoryEvidenceProvider F) (step : FetchStep F) : Prop where
  append_only : step.after = step.before ++ step.written
  numbered : Numbered step.after
  returned_pass : ∀ items, step.outcome = .ok items →
    List.Forall₂ (Passes provider step.call) step.call.evidenceIds items
  granted_returned : grantedIdentities step.written = step.items.map EvidenceObject.returned

/-- The first object is granted and a later one is not. -/
structure DeniedPartWay (provider : InMemoryEvidenceProvider F) (call : FetchCall) : Prop where
  ids_nodup : call.evidenceIds.Nodup
  recordable : Recordable call
  first_passes : ∃ id ∈ call.evidenceIds.head?, ∃ item, Passes provider call id item
  some_fails : ∃ id ∈ call.evidenceIds, ∀ item, ¬ Passes provider call id item

theorem Numbered.append {written : AuditLog} (h : Numbered audit)
    (hwritten : written.map (fun item => item.sequence) =
      (List.range written.length).map (audit.length + ·)) : Numbered (audit ++ written) := by
  unfold Numbered at h ⊢
  rw [List.map_append, h, hwritten, List.length_append, List.range_add]

/-- What a fetch does to the log and returns. -/
inductive Fetched (hashRecord : RetrievalPayload → HashRef) (provider : InMemoryEvidenceProvider F)
    (call : FetchCall) (audit : AuditLog) : FetchStep F → Prop where
  | repeated (e : PlannerError) (h : ¬ call.evidenceIds.Nodup) :
      Fetched hashRecord provider call audit ⟨call, audit, audit, .error e⟩
  | returned (items : List (EvidenceObject F))
      (hitems : List.Forall₂ (Passes provider call) call.evidenceIds items) :
      Fetched hashRecord provider call audit
        ⟨call, audit, audit ++ grantedRecords hashRecord call audit.length items, .ok items⟩
  | denied (passed rest : List String) (id : String) (items : List (EvidenceObject F))
      (e : PlannerError) (written : AuditLog) (hnodup : call.evidenceIds.Nodup)
      (hids : call.evidenceIds = passed ++ id :: rest)
      (hitems : List.Forall₂ (Passes provider call) passed items)
      (hcall : passed ≠ [] → Recordable call)
      (hfail : Recordable call → ∀ item, ¬ Passes provider call id item)
      (hwritten : Denials (audit ++ grantedRecords hashRecord call audit.length items) written) :
      Fetched hashRecord provider call audit ⟨call, audit,
        audit ++ (grantedRecords hashRecord call audit.length items ++ written), .error e⟩

theorem fetchStep_fetched (hashRecord : RetrievalPayload → HashRef)
    (provider : InMemoryEvidenceProvider F) (call : FetchCall) (audit : AuditLog) :
    Fetched hashRecord provider call audit (fetchStep hashRecord provider call audit) := by
  unfold fetchStep fetch
  by_cases hnodup : call.evidenceIds.Nodup
  · rcases mapM_access_cases hashRecord provider call call.evidenceIds audit with
      ⟨items, hitems, hwalk⟩ |
      ⟨passed, id, rest, items, e, written, hids, hitems, hcall, hfail, hwritten, hwalk⟩
    · simpa [hnodup, bind, EStateM.bind, pure, EStateM.pure, hwalk] using .returned items hitems
    · simpa [hnodup, bind, EStateM.bind, pure, EStateM.pure, hwalk] using
        .denied passed rest id items e written hnodup hids hitems hcall hfail hwritten
  · simp only [hnodup, bind, throw, throwThe, MonadExceptOf.throw]
    exact .repeated _ hnodup

theorem Passes.unique {id : String} {a b : EvidenceObject F} (ha : Passes provider call id a)
    (hb : Passes provider call id b) : a = b :=
  Option.some.inj (ha.stored.symm.trans hb.stored)

theorem passes_unique {ids : List String} {as bs : List (EvidenceObject F)}
    (ha : List.Forall₂ (Passes provider call) ids as)
    (hb : List.Forall₂ (Passes provider call) ids bs) : as = bs := by
  induction ha generalizing bs with
  | nil => cases hb; rfl
  | cons hpass _ ih =>
    cases hb with
    | cons hpass' hrest => rw [hpass.unique hpass', ih hrest]

theorem fetch_eq_ok {items : List (EvidenceObject F)} (hnodup : call.evidenceIds.Nodup)
    (hcall : Recordable call) (hitems : List.Forall₂ (Passes provider call) call.evidenceIds items)
    (audit : AuditLog) : ∃ after, fetch hashRecord provider call audit = .ok items after := by
  have hfetched := fetchStep_fetched hashRecord provider call audit
  unfold fetchStep at hfetched
  cases hfetch : fetch hashRecord provider call audit with
  | ok items' after =>
    rw [hfetch] at hfetched
    cases hfetched with
    | returned _ hitems' => exact ⟨_, by rw [passes_unique hitems hitems']⟩
  | error e after =>
    rw [hfetch] at hfetched
    cases hfetched with
    | repeated _ h => exact absurd hnodup h
    | denied passed rest id _ _ _ _ hids _ _ hfail _ =>
      have hid : id ∈ call.evidenceIds := by simp [hids]
      obtain ⟨n, hn, rfl⟩ := List.mem_iff_getElem.mp hid
      exact absurd (hitems.get hn (hitems.length_eq ▸ hn)) (hfail hcall _)

theorem Fetched.call_eq {step : FetchStep F} (h : Fetched hashRecord provider call audit step) :
    step.call = call := by
  cases h <;> rfl

theorem Fetched.numbered {step : FetchStep F} (h : Fetched hashRecord provider call audit step)
    (haudit : Numbered audit) : Numbered step.after := by
  cases h with
  | repeated => exact haudit
  | returned items => exact haudit.append (by simpa using sequence_grantedRecords _ items)
  | denied passed rest id items e written hnodup hids hitems hcall hfail hwritten =>
    have hgranted : Numbered (audit ++ grantedRecords hashRecord call audit.length items) :=
      haudit.append (by simpa using sequence_grantedRecords _ items)
    simpa using hgranted.append hwritten.numbered

/-- A fetch satisfies the law unless it is denied part-way. -/
theorem Fetched.auditLaw_iff {step : FetchStep F}
    (h : Fetched hashRecord provider call audit step) (haudit : Numbered audit) :
    AuditLaw provider step ↔ ¬ DeniedPartWay provider call := by
  have hnumbered := h.numbered haudit
  cases h with
  | repeated e hrepeated =>
    refine ⟨fun _ hpart => hrepeated hpart.ids_nodup, fun _ => ⟨?_, hnumbered, nofun, ?_⟩⟩
    · simp [FetchStep.written]
    · simp [FetchStep.written, FetchStep.items, grantedIdentities]
  | returned items hitems =>
    constructor
    · rintro - ⟨-, -, -, id, hid, hnone⟩
      obtain ⟨n, hn, rfl⟩ := List.mem_iff_getElem.mp hid
      have hlen := hitems.length_eq
      exact hnone _ (hitems.get hn (hlen ▸ hn))
    · refine fun _ => ⟨?_, hnumbered, ?_, ?_⟩
      · simp [FetchStep.written]
      · rintro _ ⟨⟩
        exact hitems
      · simp [FetchStep.written, FetchStep.items, grantedIdentities_grantedRecords]
  | denied passed rest id items e written hnodup hids hitems hcall hfail hwritten =>
    have hidentities : grantedIdentities
        (grantedRecords hashRecord call audit.length items ++ written) =
          items.map EvidenceObject.returned := by
      rw [grantedIdentities_append, grantedIdentities_grantedRecords,
        hwritten.grantedIdentities_eq, List.append_nil]
    cases hitems with
    | nil =>
      refine ⟨fun _ hpart => ?_, fun _ => ⟨?_, hnumbered, nofun, ?_⟩⟩
      · obtain ⟨first, hfirst, item, hpass⟩ := hpart.first_passes
        obtain rfl : id = first := by simpa [hids] using hfirst
        exact hfail hpart.recordable item hpass
      · simp [FetchStep.written]
      · simpa [FetchStep.written, FetchStep.items] using hidentities
    | cons hpass hrest =>
      have hrecordable := hcall (by simp)
      refine iff_of_false (fun hlaw => ?_) (not_not_intro ⟨hnodup, hrecordable, ?_, ?_⟩)
      · have hgranted := hlaw.granted_returned
        simp [FetchStep.written, FetchStep.items, hidentities] at hgranted
      · exact ⟨_, by simp [hids], _, hpass⟩
      · exact ⟨id, by simp [hids], hfail hrecordable⟩

theorem fetchRun_auditLaw_iff (haudit : Numbered audit) (calls : List FetchCall) :
    (∀ step ∈ fetchRun hashRecord provider audit calls, AuditLaw provider step) ↔
      ∀ call ∈ calls, ¬ DeniedPartWay provider call := by
  induction calls generalizing audit with
  | nil => simp [fetchRun]
  | cons call calls ih =>
    have hfetched := fetchStep_fetched hashRecord provider call audit
    rw [fetchRun, List.forall_mem_cons, List.forall_mem_cons, hfetched.auditLaw_iff haudit,
      ih (hfetched.numbered haudit)]

/-- In a run from the empty log, the log and the responses agree at every fetch exactly if no fetch
is denied after a grant. -/
theorem evidence_audit_law (hashRecord : RetrievalPayload → HashRef)
    (provider : InMemoryEvidenceProvider F) (calls : List FetchCall) :
    (∀ step ∈ fetchRun hashRecord provider [] calls, AuditLaw provider step) ↔
      ∀ call ∈ calls, ¬ DeniedPartWay provider call :=
  fetchRun_auditLaw_iff (show Numbered [] from rfl) calls

/-! ## A fetch of two spans, of which the second is not granted -/

theorem spanSnapshot_isHashRef : isHashRef
    "sha256:3b02ba04fc7a67bde510fde174dfab0c6868dd81ef8a87cf86f7f1e1c4412c12" := by
  decide +kernel

def spanSnapshot : HashRef :=
  ⟨"sha256:3b02ba04fc7a67bde510fde174dfab0c6868dd81ef8a87cf86f7f1e1c4412c12",
    spanSnapshot_isHashRef⟩

theorem spanArtifact_isEntityId : isEntityId "artifact_graph" := by decide +kernel

def spanRef : EvidenceRef where
  evidenceId := ⟨"source_span_a", by decide +kernel⟩
  kind := .sourceSpan
  artifactId := ⟨"artifact_graph", spanArtifact_isEntityId⟩
  jsonPointer := none
  snapshotHash := spanSnapshot
  pointer_valid := noPointer_valid

def spanBuild : Option (EvidenceObject noFloats) :=
  EvidenceObject.build noFloats spanRef .restrictedRtl
    [("text", .str "assign ready = valid && grant;")] (by simp) (by simp)

def spanObject : EvidenceObject noFloats := spanBuild.get (by decide +kernel)

theorem spanObject_eq : spanObject.evidenceRef = spanRef ∧
    spanObject.classification = .restrictedRtl := by
  have h := EvidenceObject.build_eq_some (Option.some_get _ : some spanObject = spanBuild).symm
  exact ⟨h.1, h.2.1⟩

def spanProvider : InMemoryEvidenceProvider noFloats where
  objects := [spanObject]
  grants := [("logic_restructuring", ["source_span_a"])]
  policy := ⟨[.sourceSpan], [.restrictedRtl]⟩
  objects_nodup := by simp

def spanCall : FetchCall where
  roleId := "logic_restructuring"
  evidenceIds := ["source_span_a", "source_span_b"]
  expectedSnapshotHash := spanSnapshot.val
  reason := "build_private_role_context"

def hashOfRecord (payload : RetrievalPayload) : HashRef :=
  (canonicalSha256 noFloats payload.toJson).getD spanSnapshot

theorem spanCall_deniedPartWay : DeniedPartWay spanProvider spanCall where
  ids_nodup := by simp [spanCall]
  recordable := ⟨by simp [spanCall], by simp [spanCall], spanSnapshot.2⟩
  first_passes := by
    obtain ⟨href, hclass⟩ := spanObject_eq
    refine ⟨"source_span_a", rfl, spanObject, ⟨by decide +kernel, ?_, ?_, ?_, ?_, ?_⟩⟩
    · simp [InMemoryEvidenceProvider.granted, spanProvider, spanCall, item?]
    · simp [InMemoryEvidenceProvider.object?, spanProvider, href, spanRef]
    · simp [href, spanRef, spanCall]
    · simp [spanProvider, href, spanRef]
    · simp [spanProvider, hclass]
  some_fails := by
    refine ⟨"source_span_b", by simp [spanCall], fun item h => ?_⟩
    have hgranted := h.granted
    simp [InMemoryEvidenceProvider.granted, spanProvider, spanCall, item?] at hgranted

theorem evidence_audit_law_fails :
    ¬ ∀ step ∈ fetchRun hashOfRecord spanProvider [] [spanCall], AuditLaw spanProvider step := by
  intro hlaw
  have hstep := hlaw (fetchStep hashOfRecord spanProvider spanCall []) (by simp [fetchRun])
  have hfetched := fetchStep_fetched hashOfRecord spanProvider spanCall []
  exact (hfetched.auditLaw_iff (show Numbered [] from rfl)).mp hstep spanCall_deniedPartWay

end NovaRtl.Planner
