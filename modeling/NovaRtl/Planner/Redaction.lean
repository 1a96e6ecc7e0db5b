import NovaRtl.Planner.Authorization
import NovaRtl.Planner.Context
import NovaRtl.Planner.EvidenceAccess

/-!
# Redaction

The rendered evidence leaves out the values of redacted keys, but not the content hash of an object,
which is a hash of all its values. So two evidence sets that differ in redacted values only are
rendered alike exactly if the hashes of the fetched objects agree.

## Main definitions

* `SameUpToRedaction` — objects and providers that differ in redacted values only.
* `messagesOf` — the messages that a context shows to the model.
-/

namespace NovaRtl.Planner

open Text Json

variable {φ : Type} {F : Floats φ} {lower : String → String}
  {hashRecord : RetrievalPayload → HashRef}

/-! ## Objects that differ in redacted values -/

/-- The items of one payload and of another that may differ under redacted keys. -/
def SameItem (lower : String → String) (a b : String × JsonScalar φ) : Prop :=
  a.1 = b.1 ∧ (isRedacted lower a.1 = false → a.2 = b.2)

structure SameUpToRedaction (lower : String → String) (a b : EvidenceObject F) : Prop where
  ref_eq : a.evidenceRef = b.evidenceRef
  classification_eq : a.classification = b.classification
  payload_same : List.Forall₂ (SameItem lower) a.payload b.payload

/-- Two providers with the same authority whose objects differ in redacted values only. -/
structure SameProviders (lower : String → String) (a b : InMemoryEvidenceProvider F) : Prop where
  grants_eq : a.grants = b.grants
  policy_eq : a.policy = b.policy
  objects_same : List.Forall₂ (SameUpToRedaction lower) a.objects b.objects

theorem safePayload_eq {payload payload' : List (String × JsonScalar φ)}
    (h : List.Forall₂ (SameItem lower) payload payload') :
    safePayload lower payload = safePayload lower payload' := by
  -- both payloads are projections of one list of pairs, which is sorted by the common keys
  obtain ⟨pairs, hpairs, rfl, rfl⟩ : ∃ pairs : List ((String × JsonScalar φ) × _),
      (∀ pair ∈ pairs, SameItem lower pair.1 pair.2) ∧
        pairs.map Prod.fst = payload ∧ pairs.map Prod.snd = payload' := by
    induction h with
    | nil => exact ⟨[], by simp⟩
    | @cons a b _ _ hab _ ih =>
      obtain ⟨pairs, hpairs, rfl, rfl⟩ := ih
      exact ⟨(a, b) :: pairs, List.forall_mem_cons.mpr ⟨hab, hpairs⟩, rfl, rfl⟩
  let sortedPairs := pairs.insertionSort fun a b => a.1.1 ≤ b.1.1
  have hfst : (pairs.map Prod.fst).insertionSort (fun a b => a.1 ≤ b.1) =
      sortedPairs.map Prod.fst :=
    (List.map_insertionSort _ _ Prod.fst pairs fun a _ b _ => Iff.rfl).symm
  have hsnd : (pairs.map Prod.snd).insertionSort (fun a b => a.1 ≤ b.1) =
      sortedPairs.map Prod.snd :=
    (List.map_insertionSort _ _ Prod.snd pairs fun a ha b hb => by
      rw [(hpairs a ha).1, (hpairs b hb).1]).symm
  have hsame : ∀ pair ∈ sortedPairs, SameItem lower pair.1 pair.2 := fun pair hpair =>
    hpairs pair ((List.mem_insertionSort _).mp hpair)
  unfold safePayload
  rw [hfst, hsnd]
  generalize sortedPairs = items at hsame
  induction items with
  | nil => rfl
  | cons pair items ih =>
    obtain ⟨hkey, hvalue⟩ := hsame pair (by simp)
    have hrest := ih fun p hp => hsame p (by simp [hp])
    rw [List.map_cons, List.map_cons, List.filter_cons, List.filter_cons, hrest, hkey]
    by_cases hredacted : isRedacted lower pair.2.1 = true
    · simp [hredacted]
    · have hpair : pair.1 = pair.2 := Prod.ext hkey (hvalue (by rw [hkey]; simpa using hredacted))
      simp [hredacted, hpair]

theorem SameUpToRedaction.evidenceJson_eq {a b : EvidenceObject F}
    (h : SameUpToRedaction lower a b) (hhash : a.contentHash = b.contentHash) :
    evidenceJson F lower a = evidenceJson F lower b := by
  simp only [evidenceJson, h.ref_eq, h.classification_eq, hhash, safePayload_eq h.payload_same]

/-! ## Injectivity of the rendering -/

/-- The hash of an object can be read off its rendering. -/
theorem contentHash_eq_of_evidenceJson {a b : EvidenceObject F}
    (h : sortKeys (evidenceJson F lower a) = sortKeys (evidenceJson F lower b)) :
    a.contentHash = b.contentHash := by
  have hhash : sortKeys (.str a.contentHash.val : Json φ) = sortKeys (.str b.contentHash.val) :=
    sortKeys_obj_value h (by simp) (show ("content_hash", _) ∈ _ by simp) (by simp)
  exact Subtype.ext (by simpa [sortKeys] using hhash)

theorem contentHashes_eq_of_privateJson {request : ContextRequest} {as bs : List (EvidenceObject F)}
    (h : sortKeys (privateJson F lower request as) = sortKeys (privateJson F lower request bs)) :
    as.map EvidenceObject.contentHash = bs.map EvidenceObject.contentHash := by
  have hitems : sortKeys (.arr (as.map (evidenceJson F lower))) =
      sortKeys (.arr (bs.map (evidenceJson F lower))) :=
    sortKeys_obj_value h (by simp) (show ("evidence", _) ∈ _ by simp) (by simp)
  simp only [sortKeys, arr.injEq, sortItems_eq_map, List.map_map] at hitems
  clear h
  induction as generalizing bs with
  | nil => cases bs <;> simp_all
  | cons a as ih =>
    cases bs with
    | nil => simp at hitems
    | cons b bs =>
      simp only [List.map_cons, List.cons.injEq, Function.comp_apply] at hitems ⊢
      exact ⟨contentHash_eq_of_evidenceJson hitems.1, ih hitems.2⟩

theorem eq_of_append_append {before after text text' : String}
    (h : before ++ text ++ after = before ++ text' ++ after) : text = text' := by
  have hchars := congrArg String.toList h
  simp only [String.toList_append, List.append_cancel_right_eq,
    List.append_cancel_left_eq] at hchars
  exact String.toList_inj.mp hchars

/-- The rendered evidence can be read off the messages. -/
theorem contextMessages_inj {common evidence evidence' : String}
    (h : contextMessages common evidence = contextMessages common evidence') :
    evidence = evidence' := by
  simp only [contextMessages, List.cons.injEq, Message.mk.injEq, true_and, and_true] at h
  exact eq_of_append_append h

/-! ## The messages of a context -/

variable {envelope : List (String × Json φ)} {request : ContextRequest}
  {plannerRequest : PlannerRequest} {provider : InMemoryEvidenceProvider F}

/-- The messages for the model, if the context can be rendered. -/
def messagesOf (lower : String → String) (hashRecord : RetrievalPayload → HashRef)
    (provider : InMemoryEvidenceProvider F) (envelope : List (String × Json φ))
    (request : ContextRequest) (plannerRequest : PlannerRequest) (audit : AuditLog) :
    Option (List Message) :=
  match renderContext lower hashRecord provider envelope request plannerRequest audit with
  | .ok rendered _ => some rendered.messages
  | .error _ _ => none

theorem fetch_ok {call : FetchCall} {audit after : AuditLog} {items : List (EvidenceObject F)}
    (h : fetch hashRecord provider call audit = .ok items after) :
    List.Forall₂ (Passes provider call) call.evidenceIds items := by
  have hstep := fetchStep_fetched hashRecord provider call audit
  simp only [fetchStep, h] at hstep
  cases hstep with
  | returned _ hitems => exact hitems

theorem renderContext_ok {audit after : AuditLog} {rendered : RenderedContext}
    (h : renderContext lower hashRecord provider envelope request plannerRequest audit =
      .ok rendered after) :
    ∃ items, List.Forall₂ (Passes provider (contextFetch request))
        (request.privateEvidenceIds.map Subtype.val) items ∧
      ∃ common evidence, Json.dumps F (.obj envelope) = some common ∧
        Json.dumps F (privateJson F lower request items) = some evidence ∧
        rendered.messages = contextMessages common evidence := by
  unfold renderContext at h
  rw [Transact.check_bind_ok, Transact.check_bind_ok, Transact.ofExcept_bind_ok] at h
  obtain ⟨-, -, -, -, h⟩ := h
  obtain ⟨items, middle, hfetch, h⟩ := Transact.bind_ok.mp h
  obtain ⟨hrender, -⟩ := Transact.ofExcept_ok.mp h
  have hdumps : ∀ {j : Json φ} {text : String},
      dumpsOrRaise F j = .ok text → Json.dumps F j = some text := by
    intro j text hj
    unfold dumpsOrRaise at hj
    split at hj
    · cases hj
    · next hsome => rw [hsome, Except.ok.inj hj]
  simp only [render, bind_eq_ok, pure, Except.pure, Except.ok.injEq] at hrender
  obtain ⟨common, hcommon, evidence, hevidence, text, -, -, -, rfl⟩ := hrender
  exact ⟨items, fetch_ok hfetch, common, evidence, hdumps hcommon, hdumps hevidence, rfl⟩

theorem buildContext_ok {store : ArtifactStore} {audit after : AuditLog} {pack : RoleContextPack}
    (h : buildContext lower hashRecord provider store envelope request plannerRequest audit =
      .ok pack after) :
    ∃ rendered middle, renderContext lower hashRecord provider envelope request plannerRequest
      audit = .ok rendered middle := by
  obtain ⟨rendered, middle, hrendered, -⟩ := Transact.bind_ok.mp h
  exact ⟨rendered, middle, hrendered⟩

/-! ## Two runs -/

/-- The objects of a run are those of its provider. -/
theorem contentHashes_of_passes {call : FetchCall} {ids : List Identifier}
    {items : List (EvidenceObject F)}
    (h : List.Forall₂ (Passes provider call) (ids.map Subtype.val) items) :
    ids.map (fun id => (provider.object? id.val).map EvidenceObject.contentHash) =
      items.map fun item => some item.contentHash := by
  induction ids generalizing items with
  | nil =>
    cases h
    rfl
  | cons id ids ih =>
    cases h with
    | cons hpass hrest => rw [List.map_cons, List.map_cons, ih hrest, hpass.stored, Option.map_some]

theorem stored_of_passes {call : FetchCall} {ids : List String} {items : List (EvidenceObject F)}
    (h : List.Forall₂ (Passes provider call) ids items) {id : String} (hid : id ∈ ids) :
    ∃ item, provider.object? id = some item := by
  induction h with
  | nil => cases hid
  | cons hpass _ ih =>
    rcases List.mem_cons.mp hid with rfl | hid
    · exact ⟨_, hpass.stored⟩
    · exact ih hid

theorem SameProviders.object?_same {p₁ p₂ : InMemoryEvidenceProvider F}
    (h : SameProviders lower p₁ p₂) {id : String} {a b : EvidenceObject F}
    (ha : p₁.object? id = some a) (hb : p₂.object? id = some b) : SameUpToRedaction lower a b := by
  have hobjects := h.objects_same
  unfold InMemoryEvidenceProvider.object? at ha hb
  generalize p₁.objects = as at hobjects ha
  generalize p₂.objects = bs at hobjects hb
  induction hobjects with
  | nil => cases ha
  | @cons x y xs ys hxy _ ih =>
    rw [List.find?_cons] at ha hb
    rw [hxy.ref_eq] at ha
    split at ha
    · next hid =>
      rw [hid] at hb
      obtain rfl := Option.some.inj ha
      obtain rfl := Option.some.inj hb
      exact hxy
    · next hid =>
      rw [hid] at hb
      exact ih ha hb

theorem evidenceJson_eq_of_runs {p₁ p₂ : InMemoryEvidenceProvider F}
    (hsame : SameProviders lower p₁ p₂) {call : FetchCall} {ids : List String}
    {as bs : List (EvidenceObject F)} (has : List.Forall₂ (Passes p₁ call) ids as)
    (hbs : List.Forall₂ (Passes p₂ call) ids bs)
    (hhash : as.map EvidenceObject.contentHash = bs.map EvidenceObject.contentHash) :
    as.map (evidenceJson F lower) = bs.map (evidenceJson F lower) := by
  induction has generalizing bs with
  | nil =>
    cases hbs
    rfl
  | @cons id a ids as ha _ ih =>
    cases hbs with
    | @cons _ b _ bs hb hrest =>
      simp only [List.map_cons, List.cons.injEq] at hhash ⊢
      exact ⟨(hsame.object?_same ha.stored hb.stored).evidenceJson_eq hhash.1, ih hrest hhash.2⟩

/-- Two contexts over evidence that differs in redacted values only show the model the same messages
exactly if the fetched objects have the same content hashes. -/
theorem messages_eq_iff_contentHashes {p₁ p₂ : InMemoryEvidenceProvider F}
    (hsame : SameProviders lower p₁ p₂) {store₁ store₂ : ArtifactStore}
    {audit₁ audit₂ after₁ after₂ : AuditLog} {pack₁ pack₂ : RoleContextPack}
    (h₁ : buildContext lower hashRecord p₁ store₁ envelope request plannerRequest audit₁ =
      .ok pack₁ after₁)
    (h₂ : buildContext lower hashRecord p₂ store₂ envelope request plannerRequest audit₂ =
      .ok pack₂ after₂) :
    messagesOf lower hashRecord p₁ envelope request plannerRequest audit₁ =
        messagesOf lower hashRecord p₂ envelope request plannerRequest audit₂ ↔
      ∀ id ∈ request.privateEvidenceIds,
        (p₁.object? id.val).map EvidenceObject.contentHash =
          (p₂.object? id.val).map EvidenceObject.contentHash := by
  obtain ⟨r₁, a₁, hr₁⟩ := buildContext_ok h₁
  obtain ⟨r₂, a₂, hr₂⟩ := buildContext_ok h₂
  obtain ⟨as, has, common, text₁, hcommon, htext₁, hm₁⟩ := renderContext_ok hr₁
  obtain ⟨bs, hbs, common', text₂, hcommon', htext₂, hm₂⟩ := renderContext_ok hr₂
  obtain rfl : common = common' := Option.some.inj (hcommon.symm.trans hcommon')
  have hhashes : (∀ id ∈ request.privateEvidenceIds,
      (p₁.object? id.val).map EvidenceObject.contentHash =
        (p₂.object? id.val).map EvidenceObject.contentHash) ↔
      as.map EvidenceObject.contentHash = bs.map EvidenceObject.contentHash := by
    rw [← List.map_inj_left, contentHashes_of_passes has, contentHashes_of_passes hbs]
    have hsome : ∀ items : List (EvidenceObject F),
        (items.map fun item => some item.contentHash) =
          (items.map EvidenceObject.contentHash).map some := fun items => by
      rw [List.map_map]
      rfl
    rw [hsome, hsome]
    exact (List.map_injective_iff.mpr (Option.some_injective _)).eq_iff
  have htexts : text₁ = text₂ ↔
      as.map EvidenceObject.contentHash = bs.map EvidenceObject.contentHash := by
    constructor
    · rintro rfl
      exact contentHashes_eq_of_privateJson (sortKeys_eq_of_dumps htext₁ htext₂)
    · intro hhash
      have hjson : privateJson F lower request as = privateJson F lower request bs := by
        simp only [privateJson, evidenceJson_eq_of_runs hsame has hbs hhash]
      exact Option.some.inj (htext₁.symm.trans ((congrArg _ hjson).trans htext₂))
  rw [hhashes, ← htexts]
  simp only [messagesOf, hr₁, hr₂, hm₁, hm₂, Option.some.injEq]
  exact ⟨contextMessages_inj, fun h => h ▸ rfl⟩

/-! ## What equal hashes say -/

theorem toJson_injective {a b : JsonScalar φ} (h : sortKeys a.toJson = sortKeys b.toJson) :
    a = b := by
  cases a <;> cases b <;> simp_all [JsonScalar.toJson, sortKeys]

theorem payload_eq_of_sortKeys {payload payload' : List (String × JsonScalar φ)}
    (hkeys : payload.map Prod.fst = payload'.map Prod.fst) (hnodup : (payload'.map Prod.fst).Nodup)
    (h : sortKeys (payloadJson payload) = sortKeys (payloadJson payload')) :
    payload = payload' := by
  have hvalues : ∀ {key : String} {value value' : JsonScalar φ},
      (key, value) ∈ payload → (key, value') ∈ payload' → value = value' := by
    intro key value value' hmem hmem'
    refine toJson_injective (sortKeys_obj_value h ?_ (List.mem_map.mpr ⟨_, hmem, rfl⟩)
      (List.mem_map.mpr ⟨_, hmem', rfl⟩))
    simpa [List.map_map, Function.comp_def] using hnodup
  clear h hnodup
  induction payload generalizing payload' with
  | nil => simpa using hkeys.symm
  | cons item payload ih =>
    cases payload' with
    | nil => simp at hkeys
    | cons item' payload' =>
      simp only [List.map_cons, List.cons.injEq] at hkeys
      obtain ⟨key, value⟩ := item
      obtain ⟨key', value'⟩ := item'
      obtain rfl : key = key' := hkeys.1
      obtain rfl : value = value' := hvalues List.mem_cons_self List.mem_cons_self
      exact congrArg _ (ih hkeys.2 fun hmem hmem' => hvalues (.tail _ hmem) (.tail _ hmem'))

/-- The SHA-256 digests of the two objects do not collide. -/
def Collisionless (a b : EvidenceObject F) : Prop :=
  a.contentHash = b.contentHash →
    canonicalBytes F a.toEvidenceContent.toJson = canonicalBytes F b.toEvidenceContent.toJson

theorem SameUpToRedaction.contentHash_eq_iff {a b : EvidenceObject F}
    (h : SameUpToRedaction lower a b) (hcollision : Collisionless a b) :
    a.contentHash = b.contentHash ↔ a.payload = b.payload := by
  constructor
  · intro hhash
    have hbytes := hcollision hhash
    have hsome := a.hash_eq
    rw [canonicalSha256, Option.map_eq_some_iff] at hsome
    obtain ⟨bytes, ha, -⟩ := hsome
    have hb := hbytes ▸ ha
    obtain ⟨text, hta, rfl⟩ := Option.map_eq_some_iff.mp ha
    obtain ⟨text', htb, htext⟩ := Option.map_eq_some_iff.mp hb
    obtain rfl := encode_injective htext
    have hkeys : a.payload.map Prod.fst = b.payload.map Prod.fst := by
      have hsame := h.payload_same
      generalize a.payload = payload at hsame
      generalize b.payload = payload' at hsame
      induction hsame with
      | nil => rfl
      | cons hitem _ ih => rw [List.map_cons, List.map_cons, hitem.1, ih]
    exact payload_eq_of_sortKeys hkeys b.keys_nodup
      (sortKeys_obj_value (sortKeys_eq_of_dumps hta htb) (by simp)
        (show ("payload", _) ∈ _ by simp) (by simp))
  · intro hpayload
    have hsize : a.sizeBytes = b.sizeBytes := by
      have hsome := a.size_eq
      rw [hpayload] at hsome
      exact Option.some.inj (hsome.symm.trans b.size_eq)
    have htokens : a.tokenEstimate = b.tokenEstimate := by
      rw [a.tokens_eq, b.tokens_eq, hsize]
    have hcontent : a.toEvidenceContent = b.toEvidenceContent := by
      rw [EvidenceContent.mk.injEq]
      exact ⟨h.ref_eq, h.classification_eq, hpayload, hsize, htokens⟩
    have hsome := a.hash_eq
    rw [hcontent] at hsome
    exact Option.some.inj (hsome.symm.trans b.hash_eq)

/-- The messages are the same exactly if the content hashes of the fetched objects are, which short
of a collision means that no redacted value of a fetched object differs. -/
theorem redaction_noninterference {p₁ p₂ : InMemoryEvidenceProvider F}
    (hsame : SameProviders lower p₁ p₂) {store₁ store₂ : ArtifactStore}
    {audit₁ audit₂ after₁ after₂ : AuditLog} {pack₁ pack₂ : RoleContextPack}
    (h₁ : buildContext lower hashRecord p₁ store₁ envelope request plannerRequest audit₁ =
      .ok pack₁ after₁)
    (h₂ : buildContext lower hashRecord p₂ store₂ envelope request plannerRequest audit₂ =
      .ok pack₂ after₂) :
    (messagesOf lower hashRecord p₁ envelope request plannerRequest audit₁ =
        messagesOf lower hashRecord p₂ envelope request plannerRequest audit₂ ↔
      ∀ id ∈ request.privateEvidenceIds, ∀ a b, p₁.object? id.val = some a →
        p₂.object? id.val = some b → a.contentHash = b.contentHash) ∧
      ∀ id ∈ request.privateEvidenceIds, ∀ a b, p₁.object? id.val = some a →
        p₂.object? id.val = some b → Collisionless a b →
          (a.contentHash = b.contentHash ↔ a.payload = b.payload) := by
  refine ⟨(messages_eq_iff_contentHashes hsame h₁ h₂).trans ⟨?_, ?_⟩, ?_⟩
  · intro hhashes id hid a b ha hb
    simpa [ha, hb] using hhashes id hid
  · intro hhashes id hid
    obtain ⟨_, _, hr₁⟩ := buildContext_ok h₁
    obtain ⟨_, _, hr₂⟩ := buildContext_ok h₂
    obtain ⟨as, has, -⟩ := renderContext_ok hr₁
    obtain ⟨bs, hbs, -⟩ := renderContext_ok hr₂
    obtain ⟨a, ha⟩ := stored_of_passes has (List.mem_map.mpr ⟨id, hid, rfl⟩)
    obtain ⟨b, hb⟩ := stored_of_passes hbs (List.mem_map.mpr ⟨id, hid, rfl⟩)
    simpa [ha, hb] using hhashes id hid a b ha hb
  · intro id _ a b ha hb
    exact (hsame.object?_same ha hb).contentHash_eq_iff

/-! ## Two values of a redacted key -/

def asciiLower (s : String) : String := String.ofList (s.toList.map Char.toLower)

/-- The content of the span with an API key of one character. -/
def secretContent (key : String) : EvidenceContent Empty :=
  ⟨sampleEvidence, .publicData, [("api_key", .str key)], 15, 4⟩

def secretObject (key : String)
    (hsize : (canonicalBytes noFloats (payloadJson [("api_key", .str key)])).map ByteArray.size =
      some 15)
    (hhash : (canonicalSha256 noFloats (secretContent key).toJson).isSome) :
    EvidenceObject noFloats where
  toEvidenceContent := secretContent key
  contentHash := (canonicalSha256 noFloats (secretContent key).toJson).get hhash
  payload_ne := by simp [secretContent]
  keys_nodup := by simp [secretContent]
  size_eq := hsize
  tokens_eq := by simp [secretContent, estimateTokens]
  hash_eq := (Option.some_get hhash).symm

section SecretObject

variable {key : String}
  {hsize : (canonicalBytes noFloats (payloadJson [("api_key", .str key)])).map ByteArray.size =
    some 15}
  {hhash : (canonicalSha256 noFloats (secretContent key).toJson).isSome}

theorem secretObject_content :
    (secretObject key hsize hhash).evidenceRef = sampleEvidence ∧
      (secretObject key hsize hhash).classification = .publicData ∧
        (secretObject key hsize hhash).payload = [("api_key", .str key)] :=
  ⟨rfl, rfl, rfl⟩

def contentDigest (key : String) : Sha256.Digest :=
  Sha256.digest (((Json.write noFloats (sortKeys (secretContent key).toJson)).flatMap
    String.utf8EncodeChar).map UInt8.toNat)

theorem contentDigest_eq (key : String) :
    contentDigest key = jsonDigest noFloats (secretContent key).toJson := by
  rw [contentDigest, jsonDigest, jsonBytes, Json.bytes_eq, bytesOf]

theorem secretObject_hash : (secretObject key hsize hhash).contentHash.val.toList =
    hashPrefix.toList ++ Sha256.hexDigest (contentDigest key) := by
  rw [contentDigest_eq]
  exact canonicalSha256_digits (Option.some_get hhash).symm

end SecretObject

def keyA : EvidenceObject noFloats :=
  secretObject "a" (by decide +kernel) (isSome_canonicalSha256.mpr rfl)

def keyB : EvidenceObject noFloats :=
  secretObject "b" (by decide +kernel) (isSome_canonicalSha256.mpr rfl)

theorem contentDigest_a : (contentDigest "a").a = 2509116948 := by
  rw [contentDigest_eq, jsonDigest_eq_quickDigest]
  decide +kernel

theorem contentDigest_b : (contentDigest "b").a = 2596156148 := by
  rw [contentDigest_eq, jsonDigest_eq_quickDigest]
  decide +kernel

theorem keys_contentHash_ne : keyA.contentHash ≠ keyB.contentHash := by
  intro h
  have hchars := congrArg (fun hash : HashRef => hash.val.toList) h
  simp only [keyA, keyB, secretObject_hash] at hchars
  have hwords := congrArg (List.take 8) (List.append_cancel_left hchars)
  rw [Sha256.take_hexDigest, Sha256.take_hexDigest, contentDigest_a, contentDigest_b] at hwords
  exact absurd hwords (by decide)

/-- The span is the only object, and the timing role may see it. -/
def secretProvider (item : EvidenceObject noFloats) : InMemoryEvidenceProvider noFloats where
  objects := [item]
  grants := [("timing_forensics", ["span_tree"])]
  policy := ⟨[.sourceSpan], [.publicData]⟩
  objects_nodup := by simp

theorem asciiLower_apiKey : asciiLower "api_key" = "api_key" := by
  simp [asciiLower]

theorem apiKey_redacted : isRedacted asciiLower "api_key" = true := by
  simp [isRedacted, redactedKeys, asciiLower_apiKey]

theorem keys_same : SameUpToRedaction asciiLower keyA keyB where
  ref_eq := by
    rw [keyA, keyB, secretObject_content.1, secretObject_content.1]
  classification_eq := by
    rw [keyA, keyB, secretObject_content.2.1, secretObject_content.2.1]
  payload_same := by
    rw [keyA, keyB, secretObject_content.2.2, secretObject_content.2.2]
    exact .cons ⟨rfl, fun h => by rw [apiKey_redacted] at h; cases h⟩ .nil

theorem secretProviders_same {a b : EvidenceObject noFloats}
    (h : SameUpToRedaction asciiLower a b) :
    SameProviders asciiLower (secretProvider a) (secretProvider b) :=
  ⟨rfl, rfl, .cons h .nil⟩

def secretEnvelope : List (String × Json Empty) :=
  (expectedTexts (samplePlannerRequest .agentCouncil)).map (fun item => (item.1, .str item.2)) ++
    [("required_analysis_view_ids", .arr []), ("target_analysis_view_id", .str "view_setup"),
      ("protected_structure_ids", .arr []), ("allowed_transform_operations", .arr []),
      ("allowed_correctness_contracts", .arr []), ("advisory_only", .bool true)]

theorem secretEnvelope_hashed : (canonicalSha256 noFloats (.obj secretEnvelope)).isSome :=
  isSome_canonicalSha256.mpr rfl

/-- A planner request with as many tokens as the context needs. -/
def secretPlannerRequest (tokenBudget : ℕ) (h : 0 < tokenBudget) : PlannerRequest :=
  { samplePlannerRequest .agentCouncil with tokenBudget, tokenBudget_pos := h }

def secretRequest (tokenBudget : ℕ) (h : 0 < tokenBudget) : ContextRequest where
  contextRequestId := ⟨"context_request_one", by decide +kernel⟩
  plannerRequestId := ⟨"planner_request_one", sampleRequestId_isEntityId⟩
  role := ⟨"timing_forensics", by decide +kernel⟩
  commonEnvelopeHash := (canonicalSha256 noFloats (.obj secretEnvelope)).get secretEnvelope_hashed
  privateEvidenceIds := [sampleSpan]
  retrievalAllowlist := [sampleSpan]
  snapshotHash := sampleSnapshot
  tokenBudget
  redactionPolicyHash := samplePolicyHash
  private_nodup := sampleSpan_nodup
  allowlist_nodup := sampleSpan_nodup
  private_subset := sampleSpan_subset
  tokenBudget_pos := h

/-- A store that takes everything. -/
def openStore : ArtifactStore where
  putNamedBytes data artifactId classification := .ok
    { artifactId := artifactId.val
      uri := "artifact://" ++ artifactId.val
      sha256 := (sha256 data).val
      mediaType := "application/json"
      sizeBytes := data.size
      createdAt := 0
      producerStageResultId := none
      classification }
  openVerified _ := .error "artifact is missing"

theorem openStore_works : openStore.Works := fun _ _ _ => ⟨_, rfl, rfl, rfl⟩

theorem secretFetch (item : EvidenceObject noFloats) (href : item.evidenceRef = sampleEvidence)
    (hclass : item.classification = .publicData) {tokenBudget : ℕ} (h : 0 < tokenBudget) :
    ∃ after, fetch hashOfRecord (secretProvider item) (contextFetch (secretRequest tokenBudget h))
      [] = .ok [item] after := by
  have hrole : (contextFetch (secretRequest tokenBudget h)).roleId = "timing_forensics" := rfl
  refine fetch_eq_ok (by simp [contextFetch, secretRequest]) ⟨?_, ?_, sampleSnapshot.2⟩
    (.cons ⟨sampleSpan.2, ?_, ?_, ?_, ?_, ?_⟩ .nil) []
  · simp [hrole]
  · simp [contextFetch]
  · simp [InMemoryEvidenceProvider.granted, hrole, secretProvider, item?, sampleSpan]
  · simp [InMemoryEvidenceProvider.object?, secretProvider, href, sampleEvidence]
  · simp [href, sampleEvidence, contextFetch, secretRequest]
  · simp [secretProvider, href, sampleEvidence]
  · simp [secretProvider, hclass]

theorem secretEnvelope_valid {tokenBudget : ℕ} (h : 0 < tokenBudget) :
    validateEnvelope noFloats secretEnvelope (secretRequest tokenBudget h)
      (secretPlannerRequest tokenBudget h) = .ok () := by
  have hmissing : requiredEnvelopeKeys.filter (fun key => key ∉ secretEnvelope.map Prod.fst) =
      [] := by
    simp [requiredEnvelopeKeys, secretEnvelope, expectedTexts]
  have htexts : ∀ item ∈ expectedTexts (secretPlannerRequest tokenBudget h),
      isText (φ := Empty) item.2 (item? secretEnvelope item.1) := by
    simp [expectedTexts, item?, secretEnvelope, isText, secretPlannerRequest]
  have hadvisory : equalsTrue noFloats (item? secretEnvelope "advisory_only") := by
    simp [item?, secretEnvelope, expectedTexts, equalsTrue]
  have hhash : canonicalSha256 noFloats (.obj secretEnvelope) =
      some (secretRequest tokenBudget h).commonEnvelopeHash :=
    (Option.some_get secretEnvelope_hashed).symm
  unfold validateEnvelope
  rw [hmissing, hhash]
  simp only [sorted, List.insertionSort_nil, require, if_pos (And.intro htexts hadvisory), if_true]
  rfl

/-- With enough tokens the context of the span is built. -/
theorem secretContext_built (item : EvidenceObject noFloats)
    (href : item.evidenceRef = sampleEvidence) (hclass : item.classification = .publicData)
    (hitem : (evidenceJson noFloats asciiLower item).writable) :
    ∃ needed, ∀ {tokenBudget : ℕ} (h : 0 < tokenBudget), needed ≤ tokenBudget →
      ∃ pack after, buildContext asciiLower hashOfRecord (secretProvider item) openStore
        secretEnvelope (secretRequest tokenBudget h) (secretPlannerRequest tokenBudget h) [] =
          .ok pack after := by
  have hjson : (Json.obj [("role", .str "timing_forensics"),
      ("snapshot_hash", .str sampleSnapshot.val),
      ("evidence", .arr [evidenceJson noFloats asciiLower item])]).writable := by
    simp [hitem]
  have henvelope : (Json.obj secretEnvelope).writable := by
    simp [secretEnvelope, expectedTexts]
  obtain ⟨needed, hneeded⟩ := @buildContext_returns _ noFloats asciiLower hashOfRecord
    (secretProvider item) openStore secretEnvelope openStore_works henvelope _ hjson
  refine ⟨needed, fun {tokenBudget} h hle => ?_⟩
  obtain ⟨after, hfetch⟩ := secretFetch item href hclass h
  have hsubset : (secretRequest tokenBudget h).retrievalAllowlist ⊆
      (secretPlannerRequest tokenBudget h).authorizedEvidenceIds := by
    simp [secretRequest, secretPlannerRequest, samplePlannerRequest]
  have hprivate : privateJson noFloats asciiLower (secretRequest tokenBudget h) [item] =
      .obj [("role", .str "timing_forensics"), ("snapshot_hash", .str sampleSnapshot.val),
        ("evidence", .arr [evidenceJson noFloats asciiLower item])] := rfl
  have hplanner : (secretRequest tokenBudget h).plannerRequestId =
      (secretPlannerRequest tokenBudget h).plannerRequestId := rfl
  have hcommon : (secretRequest tokenBudget h).commonEnvelopeHash =
      canonicalHash noFloats (.obj secretEnvelope) henvelope :=
    Option.some.inj ((Option.some_get secretEnvelope_hashed).trans
      (canonicalSha256_canonicalHash henvelope))
  obtain ⟨pack, hpack, -⟩ := hneeded hplanner hsubset rfl (secretEnvelope_valid h) hcommon hfetch
    hprivate hle hle
  exact ⟨pack, after, hpack⟩

theorem keyA_writable : (evidenceJson noFloats asciiLower keyA).writable := by
  simp [evidenceJson, EvidenceRef.toJson, payloadJson, keyA, secretObject_content, safePayload,
    apiKey_redacted, sampleEvidence]

theorem keyB_writable : (evidenceJson noFloats asciiLower keyB).writable := by
  simp [evidenceJson, EvidenceRef.toJson, payloadJson, keyB, secretObject_content, safePayload,
    apiKey_redacted, sampleEvidence]

/-- The context is built with either key. -/
theorem secretRuns : ∃ (tokenBudget : ℕ) (h : 0 < tokenBudget) (packA packB : RoleContextPack)
    (afterA afterB : AuditLog),
    buildContext asciiLower hashOfRecord (secretProvider keyA) openStore secretEnvelope
        (secretRequest tokenBudget h) (secretPlannerRequest tokenBudget h) [] =
          .ok packA afterA ∧
      buildContext asciiLower hashOfRecord (secretProvider keyB) openStore secretEnvelope
        (secretRequest tokenBudget h) (secretPlannerRequest tokenBudget h) [] =
          .ok packB afterB := by
  obtain ⟨neededA, hA⟩ := secretContext_built keyA secretObject_content.1
    secretObject_content.2.1 keyA_writable
  obtain ⟨neededB, hB⟩ := secretContext_built keyB secretObject_content.1
    secretObject_content.2.1 keyB_writable
  have h : 0 < neededA + neededB + 1 := by omega
  obtain ⟨packA, afterA, hA⟩ := hA h (by omega)
  obtain ⟨packB, afterB, hB⟩ := hB h (by omega)
  exact ⟨_, h, packA, packB, afterA, afterB, hA, hB⟩

theorem redaction_noninterference_keys :
    ∃ (tokenBudget : ℕ) (h : 0 < tokenBudget),
      (messagesOf asciiLower hashOfRecord (secretProvider keyA) secretEnvelope
            (secretRequest tokenBudget h) (secretPlannerRequest tokenBudget h) [] =
          messagesOf asciiLower hashOfRecord (secretProvider keyB) secretEnvelope
            (secretRequest tokenBudget h) (secretPlannerRequest tokenBudget h) [] ↔
        ∀ id ∈ (secretRequest tokenBudget h).privateEvidenceIds, ∀ a b,
          (secretProvider keyA).object? id.val = some a →
            (secretProvider keyB).object? id.val = some b → a.contentHash = b.contentHash) ∧
        ∀ id ∈ (secretRequest tokenBudget h).privateEvidenceIds, ∀ a b,
          (secretProvider keyA).object? id.val = some a →
            (secretProvider keyB).object? id.val = some b → Collisionless a b →
              (a.contentHash = b.contentHash ↔ a.payload = b.payload) := by
  obtain ⟨tokenBudget, h, packA, packB, afterA, afterB, hA, hB⟩ := secretRuns
  exact ⟨tokenBudget, h, redaction_noninterference (secretProviders_same keys_same) hA hB⟩

/-- The messages of the two runs differ in the content hash of the span. -/
theorem redaction_noninterference_fails :
    ¬ ∀ (p₁ p₂ : InMemoryEvidenceProvider noFloats) (request : ContextRequest)
      (plannerRequest : PlannerRequest) (pack₁ pack₂ : RoleContextPack) (after₁ after₂ : AuditLog),
      SameProviders asciiLower p₁ p₂ →
      buildContext asciiLower hashOfRecord p₁ openStore secretEnvelope request plannerRequest [] =
        .ok pack₁ after₁ →
      buildContext asciiLower hashOfRecord p₂ openStore secretEnvelope request plannerRequest [] =
        .ok pack₂ after₂ →
      messagesOf asciiLower hashOfRecord p₁ secretEnvelope request plannerRequest [] =
        messagesOf asciiLower hashOfRecord p₂ secretEnvelope request plannerRequest [] := by
  intro hclaim
  obtain ⟨tokenBudget, h, packA, packB, afterA, afterB, hA, hB⟩ := secretRuns
  have hsame := secretProviders_same keys_same
  have hmessages := hclaim _ _ _ _ _ _ _ _ hsame hA hB
  have hhashes := (messages_eq_iff_contentHashes hsame hA hB).mp hmessages sampleSpan
    (by simp [secretRequest])
  have hstored : ∀ item : EvidenceObject noFloats, item.evidenceRef = sampleEvidence →
      (secretProvider item).object? sampleSpan.val = some item := by
    intro item href
    simp [InMemoryEvidenceProvider.object?, secretProvider, href, sampleEvidence]
  rw [hstored keyA secretObject_content.1, hstored keyB secretObject_content.1] at hhashes
  exact keys_contentHash_ne (Option.some.inj hhashes)

end NovaRtl.Planner
