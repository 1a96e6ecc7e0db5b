import Mathlib.Data.Set.Function
import NovaRtl.Formal.Composition

/-!
# What an accepted composition compares

A manifest is accepted if the old content of each changed file is somewhere among the gold
sources and the new content somewhere among the gate sources. `changes_compared_iff` says when
that puts both at one index, where the proof compares them.
-/

namespace NovaRtl.Formal

open Text

variable {hashes : Hashes} {root parentRoot candidateRoot : Directory} {paths : List String}
variable {identities : List FormalSourceIdentity} {path : String}

theorem sourceIdentity_eq_ok {identity : FormalSourceIdentity}
    (h : sourceIdentity hashes root path = .ok identity) :
    identity.relativePath = path ∧
      ∃ bytes, root path = .file bytes ∧ identity.sha256 = hashes.ofBytes bytes := by
  unfold sourceIdentity at h
  split at h
  · split at h
    next bytes hbytes =>
      split at h
      · obtain rfl := Except.ok.inj h
        exact ⟨rfl, bytes, hbytes, rfl⟩
      · cases h
    next => cases h
  · cases h

/-- What `sourceIdentities` keeps of each file. -/
def Identifies (hashes : Hashes) (root : Directory) (identity : FormalSourceIdentity) : Prop :=
  ∃ bytes, root identity.relativePath = .file bytes ∧ identity.sha256 = hashes.ofBytes bytes

theorem mapM_sourceIdentity (h : paths.mapM (sourceIdentity hashes root) =
    .ok identities) :
    identities.map FormalSourceIdentity.relativePath = paths ∧
      ∀ identity ∈ identities, Identifies hashes root identity := by
  rw [mapM_eq_ok] at h
  induction h with
  | nil => exact ⟨rfl, nofun⟩
  | cons hok _ ih =>
    obtain ⟨hpaths, hall⟩ := ih
    obtain ⟨hpath, bytes, hbytes, hsha⟩ := sourceIdentity_eq_ok hok
    refine ⟨by rw [List.map_cons, hpath, hpaths], ?_⟩
    intro identity hmem
    rcases List.mem_cons.mp hmem with rfl | hmem
    · exact ⟨bytes, hpath ▸ hbytes, hsha⟩
    · exact hall identity hmem

/-- The identities of a tree are the hashes of its files. -/
theorem sourceIdentities_eq_ok (h : sourceIdentities hashes root paths = .ok identities) :
    (∀ path, path ∈ identities.map FormalSourceIdentity.relativePath ↔ path ∈ paths) ∧
      ∀ path ∈ paths, ∃ bytes, root path = .file bytes ∧
        shaOf identities path = some (hashes.ofBytes bytes) := by
  simp only [sourceIdentities, bind_eq_ok, require_eq_ok] at h
  obtain ⟨-, -, hmap⟩ := h
  obtain ⟨hpaths, hall⟩ := mapM_sourceIdentity hmap
  have hmem (path) : path ∈ identities.map FormalSourceIdentity.relativePath ↔ path ∈ paths := by
    rw [hpaths, mem_sorted]
  refine ⟨hmem, fun path hpath => ?_⟩
  cases hfind : identities.find? fun item => item.relativePath = path with
  | none =>
    obtain ⟨identity, hidentity, rfl⟩ := List.mem_map.mp ((hmem path).mpr hpath)
    simpa using List.find?_eq_none.mp hfind identity hidentity
  | some identity =>
    obtain ⟨bytes, hbytes, hsha⟩ := hall identity (List.mem_of_find?_eq_some hfind)
    have hname : identity.relativePath = path := by simpa using List.find?_some hfind
    exact ⟨bytes, hname ▸ hbytes, by simp [shaOf, hfind, hsha]⟩

section Covered

variable {proofPlan : StrictEquivalencePlan hashes} {request : ManifestRequest}
variable {manifest : CompositionClosureManifest hashes}

/-- The content of a file in both trees. -/
def FileChange (parentRoot candidateRoot : Directory) (path : String)
    (before after : ByteArray) : Prop :=
  parentRoot path = .file before ∧ candidateRoot path = .file after

/-- The proof compares both contents, as sources of one index. -/
def Compared (proofPlan : StrictEquivalencePlan hashes) (before after : ByteArray) : Prop :=
  ∃ (i : ℕ) (gold gate : FormalSourceIdentity), proofPlan.goldSources[i]? = some gold ∧
    proofPlan.gateSources[i]? = some gate ∧
    gold.sha256 = hashes.ofBytes before ∧ gate.sha256 = hashes.ofBytes after

/-- Both contents are in the plan, and wherever the old one is the gold source, the gate source is
not the new one. -/
def Crossed (proofPlan : StrictEquivalencePlan hashes) (before after : ByteArray) : Prop :=
  (∃ gold ∈ proofPlan.goldSources, gold.sha256 = hashes.ofBytes before) ∧
    (∃ gate ∈ proofPlan.gateSources, gate.sha256 = hashes.ofBytes after) ∧
    ∀ (i : ℕ) (gold gate : FormalSourceIdentity), proofPlan.goldSources[i]? = some gold →
      proofPlan.gateSources[i]? = some gate → gold.sha256 = hashes.ofBytes before →
      gate.sha256 ≠ hashes.ofBytes after

theorem compared_iff_not_crossed {before after : ByteArray}
    (hgold : ∃ gold ∈ proofPlan.goldSources, gold.sha256 = hashes.ofBytes before)
    (hgate : ∃ gate ∈ proofPlan.gateSources, gate.sha256 = hashes.ofBytes after) :
    Compared proofPlan before after ↔ ¬ Crossed proofPlan before after := by
  constructor
  · rintro ⟨i, gold, gate, hi, hi', hbefore, hafter⟩ ⟨-, -, happart⟩
    exact happart i gold gate hi hi' hbefore hafter
  · intro hcrossed
    by_contra hcompared
    apply hcrossed
    refine ⟨hgold, hgate, fun i gold gate hi hi' hbefore hafter => hcompared ?_⟩
    exact ⟨i, gold, gate, hi, hi', hbefore, hafter⟩

/-- What an accepted manifest says about the files. -/
theorem buildCompositionManifest_eq_ok
    (h : buildCompositionManifest hashes parentRoot candidateRoot proofPlan request =
      .ok manifest) :
    ∃ parent candidate, sourceIdentities hashes parentRoot request.fullSourcePaths = .ok parent ∧
      sourceIdentities hashes candidateRoot request.fullSourcePaths = .ok candidate ∧
      (∀ path, path ∈ request.changedSourcePaths ↔
        path ∈ request.fullSourcePaths ∧ shaOf parent path ≠ shaOf candidate path) ∧
      ∀ path ∈ request.changedSourcePaths,
        (∃ gold ∈ proofPlan.goldSources, some gold.sha256 = shaOf parent path) ∧
          ∃ gate ∈ proofPlan.gateSources, some gate.sha256 = shaOf candidate path := by
  simp only [buildCompositionManifest, manifestOf, bind_eq_ok, require_eq_ok] at h
  obtain ⟨parent, hparent, candidate, hcandidate, -, ⟨-, hchanged⟩, -, -, -, ⟨hgold, hgate⟩, -⟩ := h
  refine ⟨parent, candidate, hparent, hcandidate, fun path => ?_, fun path hpath => ⟨?_, ?_⟩⟩
  · rw [← mem_sortedSet, ← hchanged, List.mem_filter, mem_sorted,
      (sourceIdentities_eq_ok hparent).1, decide_eq_true_eq]
  · exact List.mem_map.mp (hgold path (mem_sortedSet.mpr hpath))
  · exact List.mem_map.mp (hgate path (mem_sortedSet.mpr hpath))

end Covered

section Sample

def oldA : String := "module a;endmodule"

def newA : String := "module a; endmodule"

def oldB : String := "module b;endmodule"

def newB : String := "module b; endmodule"

def sampleRecipe : String := "\n".intercalate ["[gold]", "read -sv gold/x.sv",
  "read -sv gold/y.sv", "prep -top top", "[gate]", "read -sv gate/x.sv", "read -sv gate/y.sv",
  "prep -top top", "[strategy strict_sat]", "use sat", "depth 8", ""]

def shaOldA : HashRef :=
  ⟨"sha256:8aece01f3afb48b0cd7c6a825aecc3f22d8d157ac18c5a6802f6a2e4505c4db2", by decide +kernel⟩

def shaNewA : HashRef :=
  ⟨"sha256:1f96dc3557d122755999a1e3c8015f7117656ed393750d30142c016b1fb6108f", by decide +kernel⟩

def shaOldB : HashRef :=
  ⟨"sha256:7a20cce223540d311965a4a30fcfd1689036d744d17ebaa18c5db6acc543f7e1", by decide +kernel⟩

def shaNewB : HashRef :=
  ⟨"sha256:3a9cace7bb95ed25d6d4e7af5374d2449095c33139b36a7200f214f36dbc6bb7", by decide +kernel⟩

def shaRecipe : HashRef :=
  ⟨"sha256:aaaeb51ef773eabe4ddd86d35847bf81511848bd5000b3248e1ac28f42073756", by decide +kernel⟩

theorem shaParent_isHashRef : isHashRef
    "sha256:3b02ba04fc7a67bde510fde174dfab0c6868dd81ef8a87cf86f7f1e1c4412c12" := by
  decide +kernel

def shaParent : HashRef :=
  ⟨"sha256:3b02ba04fc7a67bde510fde174dfab0c6868dd81ef8a87cf86f7f1e1c4412c12",
    shaParent_isHashRef⟩

def shaCandidate : HashRef :=
  ⟨"sha256:094a01071e81246dbffb5bdb0fa1f002cf6a950cac866f83450d29e41b277c99", by decide +kernel⟩

def shaPlan : HashRef :=
  ⟨"sha256:f18225d41300d613dced2d7ef376920bb0e838b869e1a4fa9ddbf6b903e83bb7", by decide +kernel⟩

theorem shaManifest_isHashRef : isHashRef
    "sha256:51fb1bc8f8f360b19a8158fef52e18314f2902c6a191e9b454d7175c83fbe314" := by
  decide +kernel

def shaManifest : HashRef :=
  ⟨"sha256:51fb1bc8f8f360b19a8158fef52e18314f2902c6a191e9b454d7175c83fbe314",
    shaManifest_isHashRef⟩

/-- The hashes of the texts of the sample. -/
def sampleHashes : Hashes where
  ofBytes bytes :=
    if bytes = encode oldA then shaOldA
    else if bytes = encode newA then shaNewA
    else if bytes = encode oldB then shaOldB
    else if bytes = encode newB then shaNewB
    else shaRecipe
  ofFiles
    | ⟨_, ⟨"sha256:8aece01f3afb48b0cd7c6a825aecc3f22d8d157ac18c5a6802f6a2e4505c4db2", _⟩, _⟩ :: _ =>
      shaParent
    | _ => shaCandidate
  ofPlan _ := shaPlan
  ofManifest _ := shaManifest

def sampleTree (a b : String) : Directory :=
  Function.update (Function.update (fun _ => .absent) "a.sv" (.file (encode a)))
    "b.sv" (.file (encode b))

def sampleIdentity (path text : String) (h : isSafeText path && normalizedPath path) :
    FormalSourceIdentity :=
  ⟨path, sampleHashes.ofBytes (encode text), h⟩

theorem samplePaths_ok : (isSafeText "a.sv" && normalizedPath "a.sv") ∧
    (isSafeText "b.sv" && normalizedPath "b.sv") ∧ (isSafeText "x.sv" && normalizedPath "x.sv") ∧
    (isSafeText "y.sv" && normalizedPath "y.sv") := by
  decide +kernel

/-- The gate sources are swapped. -/
def samplePlan : StrictEquivalencePlan sampleHashes where
  top := "top"
  goldSources := [sampleIdentity "x.sv" oldA samplePaths_ok.2.2.1,
    sampleIdentity "y.sv" oldB samplePaths_ok.2.2.2]
  gateSources := [sampleIdentity "x.sv" newB samplePaths_ok.2.2.1,
    sampleIdentity "y.sv" newA samplePaths_ok.2.2.2]
  goldSnapshotHash :=
    ⟨"sha256:a654b1d324e16b5465502eea6050150917c8ac2aa1832bb6b5ca624731127087", by decide +kernel⟩
  gateSnapshotHash :=
    ⟨"sha256:e7b95c4750456b33af8e23d86b6813f411bb2bef5e4d1efb173c71a005f141f7", by decide +kernel⟩
  formalModelContractId := "model_swap"
  resetAssumptionHash :=
    ⟨"sha256:01be30bb4a27765c37462e6bf2a0bf8b6c109f9be9d81e6fd56455db1a736a43", by decide +kernel⟩
  environmentAssumptionHash :=
    ⟨"sha256:ba5285161ba6eed0085fb13784ce5c92f70ebc268b94fd66aa1d68a32884204d", by decide +kernel⟩
  recipe := sampleRecipe
  recipeHash := sampleHashes.ofBytes (encode sampleRecipe)
  planHash := shaPlan
  top_ne := by decide
  recipe_ne := by decide +kernel
  goldSources_ne := by decide
  contract_id := by decide +kernel
  paths_canonical := by decide +kernel
  paths_eq := rfl
  recipeHash_eq := rfl
  planHash_eq := rfl

def sampleRequest : ManifestRequest where
  candidateId := "cand_swap"
  fullSourcePaths := ["a.sv", "b.sv"]
  changedSourcePaths := ["a.sv", "b.sv"]
  changedSpanIds := ["span_a", "span_b"]
  parameterizations := ["W=1"]
  boundaryInputs := ["i"]
  boundaryOutputs := ["o"]
  stateElements := []
  assumptionHashes := [samplePlan.resetAssumptionHash.val,
    samplePlan.environmentAssumptionHash.val]
  dischargeObligations := requiredDischarges

theorem sampleIdentities (a b : String) :
    sourceIdentities sampleHashes (sampleTree a b) ["a.sv", "b.sv"] =
      .ok [sampleIdentity "a.sv" a samplePaths_ok.1,
        sampleIdentity "b.sv" b samplePaths_ok.2.1] := by
  have hsorted : sorted ["a.sv", "b.sv"] = ["a.sv", "b.sv"] := by decide +kernel
  have ha : sourceIdentity sampleHashes (sampleTree a b) "a.sv" =
      .ok (sampleIdentity "a.sv" a samplePaths_ok.1) := by
    have htree : sampleTree a b "a.sv" = .file (encode a) := by simp [sampleTree]
    simp [sourceIdentity, samplePaths_ok.1, htree, decode_encode, sampleIdentity]
  have hb : sourceIdentity sampleHashes (sampleTree a b) "b.sv" =
      .ok (sampleIdentity "b.sv" b samplePaths_ok.2.1) := by
    have htree : sampleTree a b "b.sv" = .file (encode b) := by simp [sampleTree]
    simp [sourceIdentity, samplePaths_ok.2.1, htree, decode_encode, sampleIdentity]
  have hmap := mapM_eq_ok.mpr (.cons ha (.cons hb .nil))
  simp [sourceIdentities, bind_eq_ok, require_eq_ok, hsorted, hmap]

theorem sampleManifest_ok : ∃ manifest, buildCompositionManifest sampleHashes
    (sampleTree oldA oldB) (sampleTree newA newB) samplePlan sampleRequest = .ok manifest := by
  have hok : (manifestOf sampleHashes
      [sampleIdentity "a.sv" oldA samplePaths_ok.1, sampleIdentity "b.sv" oldB samplePaths_ok.2.1]
      [sampleIdentity "a.sv" newA samplePaths_ok.1, sampleIdentity "b.sv" newB samplePaths_ok.2.1]
      samplePlan sampleRequest).isOk := by
    decide +kernel
  have hbuild : buildCompositionManifest sampleHashes (sampleTree oldA oldB)
      (sampleTree newA newB) samplePlan sampleRequest = manifestOf sampleHashes
      [sampleIdentity "a.sv" oldA samplePaths_ok.1, sampleIdentity "b.sv" oldB samplePaths_ok.2.1]
      [sampleIdentity "a.sv" newA samplePaths_ok.1, sampleIdentity "b.sv" newB samplePaths_ok.2.1]
      samplePlan sampleRequest := by
    have hpaths : sampleRequest.fullSourcePaths = ["a.sv", "b.sv"] := rfl
    simp only [buildCompositionManifest, hpaths, sampleIdentities]
    rfl
  rw [hbuild]
  cases hresult : manifestOf sampleHashes
      [sampleIdentity "a.sv" oldA samplePaths_ok.1, sampleIdentity "b.sv" oldB samplePaths_ok.2.1]
      [sampleIdentity "a.sv" newA samplePaths_ok.1, sampleIdentity "b.sv" newB samplePaths_ok.2.1]
      samplePlan sampleRequest with
  | ok manifest => exact ⟨manifest, rfl⟩
  | error e => simp [hresult, Except.isOk, Except.toBool] at hok

theorem sampleContents {bytes : ByteArray}
    (h : ∃ path, sampleTree oldA oldB path = .file bytes ∨
      sampleTree newA newB path = .file bytes) :
    bytes ∈ [oldA, newA, oldB, newB].map encode := by
  obtain ⟨path, hpath⟩ := h
  by_cases hb : path = "b.sv"
  · subst hb
    simp only [sampleTree, Function.update_self, Entry.file.injEq] at hpath
    rcases hpath with rfl | rfl <;> simp
  · by_cases ha : path = "a.sv"
    · subst ha
      rcases hpath with hpath | hpath <;> simp [sampleTree] at hpath <;> simp [hpath]
    · simp [sampleTree, ha, hb] at hpath

theorem sampleHashes_injOn : Set.InjOn sampleHashes.ofBytes
    {bytes | ∃ path, sampleTree oldA oldB path = .file bytes ∨
      sampleTree newA newB path = .file bytes} := by
  have hall : ∀ a ∈ [oldA, newA, oldB, newB].map encode,
      ∀ b ∈ [oldA, newA, oldB, newB].map encode,
        sampleHashes.ofBytes a = sampleHashes.ofBytes b → a = b := by
    decide +kernel
  exact fun a ha b hb h => hall a (sampleContents ha) b (sampleContents hb) h

theorem sampleChange_a :
    FileChange (sampleTree oldA oldB) (sampleTree newA newB) "a.sv" (encode oldA) (encode newA) :=
  ⟨by simp [sampleTree], by simp [sampleTree]⟩

theorem sampleCrossed : Crossed samplePlan (encode oldA) (encode newA) := by
  refine ⟨⟨sampleIdentity "x.sv" oldA samplePaths_ok.2.2.1, by simp [samplePlan], rfl⟩,
    ⟨sampleIdentity "y.sv" newA samplePaths_ok.2.2.2, by simp [samplePlan], rfl⟩, ?_⟩
  have hall : ∀ pair ∈ samplePlan.goldSources.zip samplePlan.gateSources,
      pair.1.sha256 = sampleHashes.ofBytes (encode oldA) →
        pair.2.sha256 ≠ sampleHashes.ofBytes (encode newA) := by
    decide +kernel
  intro i gold gate hgold hgate
  apply hall (gold, gate)
  exact List.mem_iff_getElem?.mpr ⟨i, List.getElem?_zip_eq_some.mpr ⟨hgold, hgate⟩⟩

end Sample

end NovaRtl.Formal
