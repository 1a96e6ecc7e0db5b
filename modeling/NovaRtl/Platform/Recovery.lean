import NovaRtl.Platform.Hydration
import NovaRtl.Platform.Resume

/-!
# Hydration after failed runs

A component is published together with its receipts unless a run fails between the replacement of
its directory and the write of its external receipt. As long as no run fails there, and none leaves
a file that a download cannot be resumed from, a run against correct sources completes.
-/

namespace NovaRtl.Hydration

open Transact Function

variable {hydrator : Hydrator} {loaded : LoadedToolchainSourceManifest} {run : Run}
  {source : ToolSource} {archive : ArchiveMetadata} {hash : HashRef} {content : Bytes}
  {cache : Cache} {opener : Opener} {root : ToolRoot}

/-! ## Downloads with a failing step -/

/-- Whatever is returned is the archive, in the cache. -/
theorem downloadArchive_ok {file : CacheFile} {urls : Urls} (hpins : source.Pins archive hash)
    (h : (downloadArchive urls opener source cache).1 = .ok file) :
    file = .cached ∧ (downloadArchive urls opener source cache).2.Holds archive hash := by
  by_cases hholds : cache.Holds archive hash
  · rw [downloadArchive_of_holds hpins hholds] at h ⊢
    exact ⟨(Except.ok.inj h).symm, hholds⟩
  obtain ⟨result, hfetched, -, hresult⟩ := downloadArchive_of_not_holds urls opener hpins hholds
  rw [hresult] at h ⊢
  cases hfetched with
  | complete htaken hfailure hmatches => exact ⟨(Except.ok.inj h).symm, _, rfl, hmatches⟩
  | _ => cases h

/-- The bytes that a failing copy leaves can be completed. -/
def CopyResumes (archive : ArchiveMetadata) (hash : HashRef) (content : Bytes) (cache : Cache)
    (step : Option DownloadStep) : Prop :=
  cache.Holds archive hash ∨ ∀ copied, step = some (.resume copied) →
    Resumable archive hash content ((cache.resumeFrom archive).take copied)

/-- The download leaves what later ones succeed from. -/
def Spared (hydrator : Hydrator) (source : ToolSource) (archive : ArchiveMetadata) (hash : HashRef)
    (content : Bytes) (cache : Cache) (opener : Opener) (step : Option DownloadStep) : Prop :=
  Harmless hydrator.urls source archive hash content cache opener ∧
    CopyResumes archive hash content cache step

theorem recoverable_filter (hcontent : Matches archive hash content)
    (h : Resumable archive hash content (cache.resumeFrom archive)) :
    Recoverable archive hash content ⟨none, cache.part.filter (·.length ≤ archive.byteSize)⟩ := by
  unfold Cache.resumeFrom at h
  cases hpart : cache.part.filter (·.length ≤ archive.byteSize) with
  | none => exact recoverable_of_none hcontent
  | some bytes =>
    rw [hpart, Option.getD_some] at h
    exact recoverable_of_resumable h

theorem recoverable_interrupted {step : DownloadStep} (hpins : source.Pins archive hash)
    (hcontent : Matches archive hash content) (hcache : Recoverable archive hash content cache)
    (hspared : Spared hydrator source archive hash content cache opener (some step))
    (hstep : step = .inspect ∨ ¬ cache.Holds archive hash) :
    Recoverable archive hash content
      (interruptedDownload hydrator source opener cache archive.byteSize step).2 := by
  cases step with
  | inspect => exact hcache
  | temporary =>
    have hresumable := hcache.resolve_left (hstep.resolve_left nofun)
    exact recoverable_filter hcontent hresumable
  | resume copied =>
    have hresumable := hspared.2.resolve_left (hstep.resolve_left nofun) copied rfl
    exact recoverable_of_resumable hresumable
  | unlink =>
    rw [interruptedDownload]
    split
    next left h =>
      have hok := (downloadArchive_ok hpins (congrArg Prod.fst h)).2
      rw [h] at hok
      exact .inl hok
    next h => exact hcache.attempt hpins hcontent hspared.1

theorem recoverable_downloadFailingAt {step : Option DownloadStep} (hpins : source.Pins archive hash)
    (hcontent : Matches archive hash content) (hcache : Recoverable archive hash content cache)
    (hspared : Spared hydrator source archive hash content cache opener step) :
    Recoverable archive hash content (downloadFailingAt hydrator source opener cache step).2 := by
  cases step with
  | none => exact hcache.attempt hpins hcontent hspared.1
  | some step =>
    simp only [downloadFailingAt, hpins.metadata, hpins.sha256]
    split
    next => exact hcache.attempt hpins hcontent hspared.1
    next h =>
      rw [any_isOk_iff] at h
      exact recoverable_interrupted hpins hcontent hcache hspared (by tauto)

theorem downloadFailingAt_ok {step : Option DownloadStep} {file : CacheFile}
    (hpins : source.Pins archive hash)
    (h : (downloadFailingAt hydrator source opener cache step).1 = .ok file) :
    file = .cached ∧
      (downloadFailingAt hydrator source opener cache step).2.Holds archive hash := by
  cases step with
  | none => exact downloadArchive_ok hpins h
  | some step =>
    simp only [downloadFailingAt, hpins.metadata, hpins.sha256] at h ⊢
    split at h
    next hholds =>
      rw [if_pos hholds]
      exact downloadArchive_ok hpins h
    next hholds =>
      -- no failing step returns
      exfalso
      cases step with
      | unlink =>
        rw [interruptedDownload] at h
        split at h
        · cases h
        next hfailed => exact hfailed _ _ (Prod.ext h rfl)
      | _ => cases h

/-! ## What runs keep -/

/-- The archive behind each pinned hash. -/
abbrev Contents := HashRef → Bytes

variable {contents : Contents}

/-- Both receipts of a published component are the receipt of its tree. -/
structure Receipted (hydrator : Hydrator) (loaded : LoadedToolchainSourceManifest)
    (root : ToolRoot) (source : ToolSource) (component : Component) : Prop where
  internal : ∃ receipt, component.receipt = some receipt ∧
    receiptOf hydrator source loaded component.tree = .ok receipt
  external : root.receipts source.componentId = component.receipt

/-- A published component exists only together with its receipts. -/
def Consistent (hydrator : Hydrator) (loaded : LoadedToolchainSourceManifest)
    (root : ToolRoot) : Prop :=
  ∀ componentId, root.components componentId = .missing ∨
    ∃ source ∈ loaded.manifest.components, source.componentId = componentId ∧
      ∃ component, root.components componentId = .directory component ∧
        Receipted hydrator loaded root source component

/-- Every archive of the manifest can be downloaded. -/
def Downloadable (contents : Contents) (loaded : LoadedToolchainSourceManifest)
    (root : ToolRoot) : Prop :=
  ∀ source ∈ loaded.manifest.components, ∀ archive hash, source.Pins archive hash →
    Recoverable archive hash (contents hash) (root.caches hash)

structure Sound (hydrator : Hydrator) (loaded : LoadedToolchainSourceManifest)
    (contents : Contents) (root : ToolRoot) : Prop where
  consistent : Consistent hydrator loaded root
  downloadable : Downloadable contents loaded root

/-- The contents are those that the manifest pins. -/
def Pinned (contents : Contents) (loaded : LoadedToolchainSourceManifest) : Prop :=
  ∀ source ∈ loaded.manifest.components, ∀ archive hash, source.Pins archive hash →
    Matches archive hash (contents hash)

/-- For a component that is missing, the run does not fail between the replacement and the external
receipt, and its download leaves what later ones succeed from. -/
def SparesSource (hydrator : Hydrator) (contents : Contents) (run : Run) (root : ToolRoot)
    (source : ToolSource) : Prop :=
  root.components source.componentId = .missing →
    (run.fault ≠ some (.component source.componentId .receiptPath) ∧
      run.fault ≠ some (.component source.componentId .receiptWrite)) ∧
    ∀ archive hash, source.Pins archive hash →
      Spared hydrator source archive hash (contents hash) (root.caches hash)
        (run.opener source.componentId) (run.downloadFault source.componentId)

theorem Recoverable.congr {archive' : ArchiveMetadata}
    (h : Recoverable archive hash content cache) (hsize : archive'.byteSize = archive.byteSize) :
    Recoverable archive' hash content cache := by
  have hmatches {bytes : Bytes} (h : Matches archive hash bytes) : Matches archive' hash bytes :=
    ⟨h.size.trans hsize.symm, h.hash⟩
  refine h.imp (fun ⟨bytes, hbytes, h⟩ => ⟨bytes, hbytes, hmatches h⟩) fun ⟨hlt, h⟩ => ?_
  unfold Cache.resumeFrom at *
  rw [hsize]
  exact ⟨hsize ▸ hlt, hmatches h⟩

theorem Cache.Holds.congr {archive' : ArchiveMetadata} (h : cache.Holds archive hash)
    (hsize : archive'.byteSize = archive.byteSize) : cache.Holds archive' hash :=
  have ⟨bytes, hbytes, hmatches⟩ := h
  ⟨bytes, hbytes, hmatches.size.trans hsize.symm, hmatches.hash⟩

theorem Pinned.byteSize_eq (h : Pinned contents loaded) {source' : ToolSource}
    {archive' : ArchiveMetadata} (hmem : source ∈ loaded.manifest.components)
    (hmem' : source' ∈ loaded.manifest.components) (hpins : source.Pins archive hash)
    (hpins' : source'.Pins archive' hash) : archive'.byteSize = archive.byteSize :=
  (h source' hmem' archive' hash hpins').size.symm.trans (h source hmem archive hash hpins).size

theorem ToolRoot.caches_putCache (root : ToolRoot) (key : Option HashRef) (cache : Cache) :
    (root.putCache key cache).caches = update root.caches key cache :=
  rfl

theorem Sound.putCache (h : Sound hydrator loaded contents root)
    (hpinned : Pinned contents loaded) (hmem : source ∈ loaded.manifest.components)
    (hpins : source.Pins archive hash)
    (hcache : Recoverable archive hash (contents hash) cache) :
    Sound hydrator loaded contents (root.putCache hash cache) where
  consistent componentId := (h.consistent componentId).imp_right
    fun ⟨source, hmem, hid, component, hcomponent, hreceipted⟩ =>
      ⟨source, hmem, hid, component, hcomponent, hreceipted.internal, hreceipted.external⟩
  downloadable source' hmem' archive' hash' hpins' := by
    by_cases hhash : hash' = hash
    · subst hhash
      rw [root.caches_putCache, update_self]
      exact hcache.congr (hpinned.byteSize_eq hmem hmem' hpins hpins')
    · rw [root.caches_putCache, update_of_ne (by simpa using hhash)]
      exact h.downloadable source' hmem' archive' hash' hpins'

theorem Sound.publish (h : Sound hydrator loaded contents root)
    (hmem : source ∈ loaded.manifest.components) {tree : Tree} {receipt : Bytes}
    (hreceipt : receiptOf hydrator source loaded tree = .ok receipt) :
    Sound hydrator loaded contents ((root.publish source.componentId ⟨tree, some receipt⟩).writeReceipt
      source.componentId receipt) where
  consistent componentId := by
    by_cases hid : componentId = source.componentId
    · subst hid
      exact .inr ⟨source, hmem, rfl, _, update_self .., ⟨receipt, rfl, hreceipt⟩, update_self ..⟩
    · refine (h.consistent componentId).imp (fun hmissing => ?_)
        fun ⟨source', hmem', hid', component, hcomponent, hreceipted⟩ =>
          ⟨source', hmem', hid', component, ?_, hreceipted.internal, ?_⟩
      · exact (update_of_ne hid ..).trans hmissing
      · exact (update_of_ne hid ..).trans hcomponent
      · exact (update_of_ne (hid' ▸ hid) ..).trans hreceipted.external
  downloadable := h.downloadable

/-! ## One component -/

/-- The tree can be published: it has a receipt and no directory in its place. -/
structure Publishable (hydrator : Hydrator) (loaded : LoadedToolchainSourceManifest)
    (source : ToolSource) (tree : Tree) : Prop where
  receipt : ∃ receipt, receiptOf hydrator source loaded tree = .ok receipt
  place : tree.node [".nova-hydration-receipt.json"] ≠ some .directory

/-- The source can be acquired in the run. -/
inductive Available (hydrator : Hydrator) (loaded : LoadedToolchainSourceManifest)
    (contents : Contents) (run : Run) (source : ToolSource) : Prop
  | archive {archive : ArchiveMetadata} {hash : HashRef} {host : String} :
      source.Pins archive hash → sourceHost hydrator.urls source = .ok host →
      Honest (contents hash) (run.opener source.componentId) →
      (∀ bytes, Matches archive hash bytes →
        ∃ tree, hydrator.safeExtractArchive source bytes = .ok tree ∧
          Publishable hydrator loaded source tree) →
      Available hydrator loaded contents run source
  | git {tree : Tree} : source.sourceKind = .git →
      checkoutGitSource hydrator source (run.git source.componentId) = .ok tree →
      Publishable hydrator loaded source tree → Available hydrator loaded contents run source

/-- What a component leaves of what concerns the others. -/
structure Advanced (source : ToolSource) (root root' : ToolRoot) : Prop where
  components : ∀ componentId, componentId ≠ source.componentId →
    root'.components componentId = root.components componentId
  caches : ∀ hash : HashRef, root'.caches hash = root.caches hash ∨
    ∃ archive, source.Pins archive hash ∧ (root'.caches hash).Holds archive hash

theorem Advanced.refl (source : ToolSource) (root : ToolRoot) : Advanced source root root :=
  ⟨fun _ _ => rfl, fun _ => .inl rfl⟩

theorem SparesSource.advanced {source' : ToolSource} {root' : ToolRoot}
    (hpinned : Pinned contents loaded) (hmem : source ∈ loaded.manifest.components)
    (hmem' : source' ∈ loaded.manifest.components)
    (hne : source'.componentId ≠ source.componentId) (hadvanced : Advanced source root root')
    (h : SparesSource hydrator contents run root source') :
    SparesSource hydrator contents run root' source' := by
  intro hmissing
  rw [hadvanced.components _ hne] at hmissing
  obtain ⟨hfault, hspared⟩ := h hmissing
  refine ⟨hfault, fun archive' hash hpins' => ?_⟩
  obtain hsame | ⟨archive, hpins, hholds⟩ := hadvanced.caches hash
  · rw [hsame]
    exact hspared archive' hash hpins'
  · have hholds' := hholds.congr (hpinned.byteSize_eq hmem hmem' hpins hpins')
    exact ⟨.inl hholds', .inl hholds'⟩

theorem downloadFault_of_none (h : run.fault = none) (componentId : String) :
    run.downloadFault componentId = none := by
  rw [Run.downloadFault, h]

/-- An archive that a run cannot download is not available in it. -/
theorem download_available (hpinned : Pinned contents loaded)
    (hsound : Sound hydrator loaded contents root) (hmem : source ∈ loaded.manifest.components)
    (hpins : source.Pins archive hash) (hfault : run.fault = none)
    (havailable : Available hydrator loaded contents run source) :
    (downloadFailingAt hydrator source (run.opener source.componentId) (root.caches hash)
      (run.downloadFault source.componentId)).1 = .ok .cached := by
  rw [downloadFault_of_none hfault]
  cases havailable with
  | archive hpins' hhost hhonest =>
    have hhash := hpins.sha256.symm.trans hpins'.sha256
    rw [Option.some.injEq] at hhash
    subst hhash
    have hcache := (hsound.downloadable source hmem archive hash hpins)
    exact hcache.succeeds hpins hhost (hpinned source hmem archive hash hpins) hhonest
  | git hkind =>
    have := hkind.symm.trans hpins.kind
    cases this

theorem download_endsIn (hpinned : Pinned contents loaded)
    (hsound : Sound hydrator loaded contents root) (hmem : source ∈ loaded.manifest.components)
    (hpins : source.Pins archive hash)
    (hspared : Spared hydrator source archive hash (contents hash) (root.caches hash)
      (run.opener source.componentId) (run.downloadFault source.componentId)) :
    EndsIn (download hydrator run source) root
      (fun bytes root' => Matches archive hash bytes ∧ Sound hydrator loaded contents root' ∧
        Advanced source root root')
      (fun _ root' => Sound hydrator loaded contents root' ∧
        ¬ (run.fault = none ∧ Available hydrator loaded contents run source)) := by
  have hcontent := hpinned source hmem archive hash hpins
  have hkey := hpins.sha256
  refine EndsIn.bind (EndsIn.get ?_)
  dsimp only
  rw [hkey]
  have hcache := recoverable_downloadFailingAt hpins hcontent
    (hsound.downloadable source hmem archive hash hpins) hspared
  have havailable (hfault : run.fault = none)
      (hsource : Available hydrator loaded contents run source) :=
    download_available hpinned hsound hmem hpins hfault hsource
  have hok {file : CacheFile} (h : (downloadFailingAt hydrator source
      (run.opener source.componentId) (root.caches hash)
      (run.downloadFault source.componentId)).1 = .ok file) :=
    downloadFailingAt_ok hpins h
  -- what the download returns and leaves
  generalize downloadFailingAt hydrator source (run.opener source.componentId) (root.caches hash)
    (run.downloadFault source.componentId) = result at hcache havailable hok ⊢
  obtain ⟨outcome, left⟩ := result
  have hsound' := hsound.putCache hpinned hmem hpins hcache
  refine EndsIn.bind (EndsIn.modify (EndsIn.bind (EndsIn.ofExcept (fun file hfile => ?_)
    fun e he => ⟨hsound', ?_⟩)))
  · cases outcome with
    | error e => cases hfile
    | ok _ =>
      obtain rfl := Except.ok.inj hfile
      obtain ⟨rfl, hholds⟩ := hok rfl
      have hadvanced : Advanced source root (root.putCache hash left) := by
        refine ⟨fun _ _ => rfl, fun hash' => ?_⟩
        rw [root.caches_putCache]
        by_cases hsame : hash' = hash
        · subst hsame
          exact .inr ⟨archive, hpins, by rwa [update_self]⟩
        · exact .inl (update_of_ne (by simpa using hsame) ..)
      obtain ⟨bytes, hbytes, hmatches⟩ := hholds
      have hread : left.read .cached = some bytes := hbytes
      refine EndsIn.ofExcept (fun bytes' hbytes' => ?_) fun e he => ?_
      · rw [hread] at hbytes'
        obtain rfl := Except.ok.inj hbytes'
        exact ⟨hmatches, hsound', hadvanced⟩
      · rw [hread] at he
        cases he
  · rintro ⟨hfault, hsource⟩
    have := havailable hfault hsource
    cases outcome with
    | error e => cases this
    | ok _ => cases he

/-- A source without a pinned archive is refused before the cache is touched. -/
theorem download_refused (hkind : source.sourceKind = .archive)
    (hpins : ∀ archive hash, ¬ source.Pins archive hash)
    {returned : Bytes → ToolRoot → Prop} {raised : HydrateFailure → ToolRoot → Prop}
    (hraised : ∀ e, raised e root) : EndsIn (download hydrator run source) root returned raised := by
  have hrefused (opener : Opener) (cache : Cache) (step : Option DownloadStep) :
      downloadFailingAt hydrator source opener cache step =
        (.error (.hydration "download_archive requires an ARCHIVE source"), cache) := by
    unfold downloadFailingAt downloadArchive
    cases harchive : source.archive with
    | none => cases step <;> simp [hkind]
    | some archive =>
      cases hhash : source.archiveSha256 with
      | none => cases step <;> simp [hkind]
      | some hash => exact absurd ⟨hkind, harchive, hhash⟩ (hpins archive hash)
  refine EndsIn.bind (EndsIn.get ?_)
  dsimp only
  rw [hrefused]
  refine EndsIn.bind (EndsIn.modify (EndsIn.bind (EndsIn.ofExcept nofun fun e _ => ?_)))
  have hsame : root.putCache source.archiveSha256 (root.caches source.archiveSha256) = root := by
    rw [ToolRoot.putCache, update_eq_self]
  rw [hsame]
  exact hraised e

/-- What a run leaves when it raises: a sound root, and only if something failed. -/
def Failed (hydrator : Hydrator) (loaded : LoadedToolchainSourceManifest) (contents : Contents)
    (run : Run) (source : ToolSource) (root : ToolRoot) : Prop :=
  Sound hydrator loaded contents root ∧
    ¬ (run.fault = none ∧ Available hydrator loaded contents run source)

theorem failed_of_fault {step : Step} (hsound : Sound hydrator loaded contents root)
    (hfault : run.fault = some step) : Failed hydrator loaded contents run source root :=
  ⟨hsound, fun ⟨hnone, _⟩ => by rw [hfault] at hnone; cases hnone⟩

theorem quiet_endsIn {step : ComponentStep} {returned : Unit → ToolRoot → Prop}
    (hsound : Sound hydrator loaded contents root) (hok : returned () root) :
    EndsIn (quiet run source step) root returned
      (fun _ => Failed hydrator loaded contents run source) :=
  EndsIn.operate (fun _ => hok) (failed_of_fault hsound)

theorem acquire_endsIn (hpinned : Pinned contents loaded)
    (hsound : Sound hydrator loaded contents root) (hmem : source ∈ loaded.manifest.components)
    (hspared : ∀ archive hash, source.Pins archive hash →
      Spared hydrator source archive hash (contents hash) (root.caches hash)
        (run.opener source.componentId) (run.downloadFault source.componentId)) :
    EndsIn (acquire hydrator run source) root
      (fun tree root' => Sound hydrator loaded contents root' ∧ Advanced source root root' ∧
        (Available hydrator loaded contents run source → Publishable hydrator loaded source tree))
      (fun _ => Failed hydrator loaded contents run source) := by
  unfold acquire
  cases hkind : source.sourceKind with
  | archive =>
    by_cases hpins : ∃ archive hash, source.Pins archive hash
    · obtain ⟨archive, hash, hpins⟩ := hpins
      refine EndsIn.bind ((download_endsIn hpinned hsound hmem hpins
        (hspared archive hash hpins)).mono (fun bytes root' h => ?_) fun _ _ => id)
      obtain ⟨hmatches, hsound', hadvanced⟩ := h
      have hextracts (h : Available hydrator loaded contents run source) :
          ∃ tree, hydrator.safeExtractArchive source bytes = .ok tree ∧
            Publishable hydrator loaded source tree := by
        cases h with
        | archive hpins' hhost hhonest hextracts =>
          refine hextracts bytes ⟨?_, ?_⟩
          · have := hpins.metadata.symm.trans hpins'.metadata
            rw [← Option.some.inj this, hmatches.size]
          · have := hpins.sha256.symm.trans hpins'.sha256
            rw [← Option.some.inj this, hmatches.hash]
        | git hgit =>
          rw [hkind] at hgit
          cases hgit
      refine EndsIn.bind (quiet_endsIn hsound' (EndsIn.ofExcept (fun tree htree => ?_)
        fun e he => ⟨hsound', fun ⟨_, h⟩ => ?_⟩))
      · refine ⟨hsound', hadvanced, fun h => ?_⟩
        obtain ⟨tree', htree', hpublishable⟩ := hextracts h
        rw [htree'] at htree
        obtain rfl := Except.ok.inj htree
        exact hpublishable
      · obtain ⟨tree, htree, -⟩ := hextracts h
        rw [htree] at he
        cases he
    · simp only [not_exists] at hpins
      refine EndsIn.bind (download_refused hkind hpins fun e => ⟨hsound, fun ⟨_, h⟩ => ?_⟩)
      cases h with
      | archive hpins' => exact hpins _ _ hpins'
      | git hgit =>
        rw [hkind] at hgit
        cases hgit
  | git =>
    have hchecks (h : Available hydrator loaded contents run source) :
        ∃ tree, checkoutGitSource hydrator source (run.git source.componentId) = .ok tree ∧
          Publishable hydrator loaded source tree := by
      cases h with
      | archive hpins =>
        rw [hpins.kind] at hkind
        cases hkind
      | git _ htree hpublishable => exact ⟨_, htree, hpublishable⟩
    refine EndsIn.ofExcept (fun tree htree => ?_) fun e he => ⟨hsound, fun ⟨_, h⟩ => ?_⟩
    · refine ⟨hsound, Advanced.refl .., fun h => ?_⟩
      obtain ⟨tree', htree', hpublishable⟩ := hchecks h
      rw [htree'] at htree
      obtain rfl := Except.ok.inj htree
      exact hpublishable
    · obtain ⟨tree, htree, -⟩ := hchecks h
      rw [htree] at he
      cases he

/-- What a run leaves when a component is done. -/
structure Done (hydrator : Hydrator) (loaded : LoadedToolchainSourceManifest)
    (contents : Contents) (source : ToolSource) (root root' : ToolRoot) : Prop where
  sound : Sound hydrator loaded contents root'
  advanced : Advanced source root root'
  published : (root'.components source.componentId).isDirectory

theorem publishComponent_endsIn (hpinned : Pinned contents loaded)
    (hsound : Sound hydrator loaded contents root) (hmem : source ∈ loaded.manifest.components)
    (hmissing : root.components source.componentId = .missing)
    (hspares : SparesSource hydrator contents run root source) :
    EndsIn (publishComponent hydrator run source loaded) root
      (fun component root' => component = hydrated hydrator source false ∧
        Done hydrator loaded contents source root root')
      (fun _ => Failed hydrator loaded contents run source) := by
  obtain ⟨⟨hpath, hwrite⟩, hspared⟩ := hspares hmissing
  refine EndsIn.bind (quiet_endsIn hsound ?_)
  refine EndsIn.bind ((acquire_endsIn hpinned hsound hmem hspared).mono
    (fun tree root' h => ?_) fun _ _ => id)
  obtain ⟨hsound', hadvanced, hpublishable⟩ := h
  refine EndsIn.bind (quiet_endsIn hsound' ?_)
  refine EndsIn.bind (EndsIn.ofExcept (fun receipt hreceipt => ?_)
    fun e he => ⟨hsound', fun ⟨_, h⟩ => ?_⟩)
  · refine EndsIn.bind (quiet_endsIn hsound' (EndsIn.bind (EndsIn.ofExcept (fun _ hplace => ?_)
      fun e he => ⟨hsound', fun ⟨_, h⟩ => ?_⟩)))
    · refine EndsIn.bind (EndsIn.operate (fun _ => ?_) (failed_of_fault hsound'))
      -- the component is there without its external receipt
      refine EndsIn.bind (EndsIn.operate (fun _ => ?_) fun h => absurd h hpath)
      refine EndsIn.bind (EndsIn.operate (fun _ => ?_) fun h => absurd h hwrite)
      have hpublished := hsound'.publish hmem hreceipt
      refine EndsIn.bind (quiet_endsIn hpublished (EndsIn.pure ⟨rfl, hpublished, ?_, ?_⟩))
      · exact ⟨fun componentId hne => (update_of_ne hne ..).trans (hadvanced.components _ hne),
          hadvanced.caches⟩
      · show (update root'.components source.componentId _ source.componentId).isDirectory = true
        rw [update_self]
        rfl
    · rw [require, if_pos (hpublishable h).place] at he
      cases he
  · obtain ⟨receipt, hreceipt⟩ := (hpublishable h).receipt
    rw [hreceipt] at he
    cases he

theorem hydrateComponent_endsIn (hpinned : Pinned contents loaded)
    (hsound : Sound hydrator loaded contents root) (hmem : source ∈ loaded.manifest.components)
    (hspares : SparesSource hydrator contents run root source) :
    EndsIn (hydrateComponent hydrator run source loaded) root
      (fun component root' =>
        component = hydrated hydrator source (root.components source.componentId).isDirectory ∧
        Done hydrator loaded contents source root root')
      (fun _ => Failed hydrator loaded contents run source) := by
  refine EndsIn.bind (quiet_endsIn hsound (EndsIn.bind (EndsIn.get ?_)))
  dsimp only
  obtain hmissing | ⟨source', hmem', hid, component, hcomponent, hreceipted⟩ :=
    hsound.consistent source.componentId
  · rw [hmissing]
    exact publishComponent_endsIn hpinned hsound hmem hmissing hspares
  · obtain rfl : source' = source :=
      List.inj_on_of_nodup_map loaded.manifest.unique hmem' hmem hid
    obtain ⟨receipt, hinternal, hreceipt⟩ := hreceipted.internal
    have hexternal := hreceipted.external.trans hinternal
    rw [hcomponent]
    refine EndsIn.bind (EndsIn.ofExcept (fun receipt' hreceipt' => ?_) fun e he => ?_)
    · rw [hreceipt] at hreceipt'
      obtain rfl := Except.ok.inj hreceipt'
      refine EndsIn.bind (EndsIn.check (fun _ => ?_) fun h => absurd ⟨hinternal, hexternal⟩ h)
      exact EndsIn.pure ⟨rfl, hsound, Advanced.refl .., by rw [hcomponent]; rfl⟩
    · rw [hreceipt] at he
      cases he

/-! ## Runs -/

/-- What a component is after a run that completes. -/
def HydratedFrom (hydrator : Hydrator) (root : ToolRoot) (source : ToolSource) :
    HydratedComponent :=
  hydrated hydrator source (root.components source.componentId).isDirectory

theorem hydrateComponents_endsIn (hpinned : Pinned contents loaded) {sources : List ToolSource}
    (hsound : Sound hydrator loaded contents root)
    (hmem : ∀ source ∈ sources, source ∈ loaded.manifest.components)
    (hunique : (sources.map ToolSource.componentId).Nodup)
    (hspares : ∀ source ∈ sources, SparesSource hydrator contents run root source) :
    EndsIn (hydrateComponents hydrator run loaded sources) root
      (fun components root' => components = sources.map (HydratedFrom hydrator root) ∧
        Sound hydrator loaded contents root' ∧
        (∀ source ∈ sources, (root'.components source.componentId).isDirectory) ∧
        ∀ componentId, componentId ∉ sources.map ToolSource.componentId →
          root'.components componentId = root.components componentId)
      (fun _ root' => Sound hydrator loaded contents root' ∧ ¬ (run.fault = none ∧
        ∀ source ∈ sources, Available hydrator loaded contents run source)) := by
  induction sources generalizing root with
  | nil => exact EndsIn.pure ⟨rfl, hsound, nofun, fun _ _ => rfl⟩
  | cons source rest ih =>
    rw [List.forall_mem_cons] at hmem hspares
    rw [List.map_cons, List.nodup_cons] at hunique
    have hne {source' : ToolSource} (h : source' ∈ rest) :
        source'.componentId ≠ source.componentId :=
      fun hsame => hunique.1 (hsame ▸ List.mem_map_of_mem h)
    refine EndsIn.bind ((hydrateComponent_endsIn hpinned hsound hmem.1 hspares.1).mono
      (fun component root' h => ?_)
      fun _ _ h => ⟨h.1, fun hall => h.2 ⟨hall.1, hall.2 _ List.mem_cons_self⟩⟩)
    obtain ⟨hcomponent, hdone⟩ := h
    have hspares' : ∀ source' ∈ rest, SparesSource hydrator contents run root' source' :=
      fun source' h => (hspares.2 source' h).advanced hpinned hmem.1 (hmem.2 source' h) (hne h)
        hdone.advanced
    refine EndsIn.bind ((ih hdone.sound hmem.2 hunique.2 hspares').mono
      (fun components last h => ?_)
      fun _ _ h => ⟨h.1, fun hall => h.2 ⟨hall.1, fun s hs =>
        hall.2 s (List.mem_cons_of_mem _ hs)⟩⟩)
    obtain ⟨hcomponents, hsound', hpublished, hkept⟩ := h
    refine EndsIn.pure ⟨?_, hsound', List.forall_mem_cons.mpr ⟨?_, hpublished⟩, ?_⟩
    · rw [hcomponent, hcomponents, List.map_cons]
      congr 1
      refine List.map_congr_left fun source' h => ?_
      rw [HydratedFrom, HydratedFrom, hdone.advanced.components _ (hne h)]
    · rw [hkept _ hunique.1]
      exact hdone.published
    · intro componentId h
      rw [List.map_cons, List.mem_cons, not_or] at h
      rw [hkept _ h.2, hdone.advanced.components _ h.1]

/-- No step fails and every source is available. -/
structure Correct (hydrator : Hydrator) (loaded : LoadedToolchainSourceManifest)
    (contents : Contents) (run : Run) : Prop where
  host : run.host = loaded.manifest.host
  fault : run.fault = none
  available : ∀ source ∈ loaded.manifest.components,
    Available hydrator loaded contents run source

/-- The run spares every component of the manifest. -/
def Spares (hydrator : Hydrator) (loaded : LoadedToolchainSourceManifest) (contents : Contents)
    (root : ToolRoot) (run : Run) : Prop :=
  ∀ source ∈ loaded.manifest.components, SparesSource hydrator contents run root source

theorem hydrateToolchain_endsIn (hpinned : Pinned contents loaded)
    (hname : hydrator.root.getLastD "" = loaded.manifest.toolRootName)
    (hsound : Sound hydrator loaded contents root)
    (hspares : Spares hydrator loaded contents root run) :
    EndsIn (hydrateToolchain hydrator loaded run) root
      (fun components root' =>
        components = loaded.manifest.components.map (HydratedFrom hydrator root) ∧
        Sound hydrator loaded contents root' ∧ ∀ source ∈ loaded.manifest.components,
          (root'.components source.componentId).isDirectory)
      (fun _ root' => Sound hydrator loaded contents root' ∧
        ¬ Correct hydrator loaded contents run) := by
  have hfault {step : Step} (h : run.fault = some step) :
      ¬ Correct hydrator loaded contents run := fun hcorrect => by
    rw [hcorrect.fault] at h
    cases h
  refine EndsIn.bind (EndsIn.check (fun _ => ?_) fun h => ⟨hsound, fun hc => h hc.host⟩)
  refine EndsIn.bind (EndsIn.check (fun _ => ?_) fun h => absurd hname h)
  refine EndsIn.bind (EndsIn.operate (fun _ => ?_) fun h => ⟨hsound, hfault h⟩)
  refine EndsIn.bind ((hydrateComponents_endsIn hpinned hsound (fun _ => id)
    loaded.manifest.unique hspares).mono (fun components root' h => ?_)
    fun _ _ h => ⟨h.1, fun hc => h.2 ⟨hc.fault, hc.available⟩⟩)
  obtain ⟨hcomponents, hsound', hpublished, -⟩ := h
  exact EndsIn.bind (EndsIn.operate
    (fun _ => EndsIn.pure ⟨hcomponents, hsound', hpublished⟩) fun h => ⟨hsound', hfault h⟩)

/-- A run against correct sources spares every component. -/
theorem Correct.spares (hpinned : Pinned contents loaded)
    (hsound : Sound hydrator loaded contents root)
    (h : Correct hydrator loaded contents run) : Spares hydrator loaded contents root run := by
  intro source hmem _
  refine ⟨by simp [h.fault], fun archive hash hpins => ⟨?_, .inr fun copied hcopied => ?_⟩⟩
  · have hcontent := hpinned source hmem archive hash hpins
    have hcache := hsound.downloadable source hmem archive hash hpins
    cases h.available source hmem with
    | archive hpins' _ hhonest =>
      have := hpins'.sha256.symm.trans hpins.sha256
      rw [Option.some.inj this] at hhonest
      exact harmless_of_honest hcontent hcache hhonest
    | git hgit =>
      rw [hpins.kind] at hgit
      cases hgit
  · rw [downloadFault_of_none h.fault] at hcopied
    cases hcopied

/-- The tool roots that `allowed` runs lead to. -/
inductive ReachableRoot (hydrator : Hydrator) (loaded : LoadedToolchainSourceManifest)
    (allowed : ToolRoot → Run → Prop) : ToolRoot → Prop
  | empty : ReachableRoot hydrator loaded allowed {}
  | run {root : ToolRoot} (run : Run) : ReachableRoot hydrator loaded allowed root →
      allowed root run →
      ReachableRoot hydrator loaded allowed (leaves (hydrateToolchain hydrator loaded run) root)

theorem sound_empty (hpinned : Pinned contents loaded) :
    Sound hydrator loaded contents {} where
  consistent _ := .inl rfl
  downloadable source hmem archive hash hpins :=
    recoverable_of_none (hpinned source hmem archive hash hpins)

theorem ReachableRoot.sound (hpinned : Pinned contents loaded)
    (hname : hydrator.root.getLastD "" = loaded.manifest.toolRootName)
    (h : ReachableRoot hydrator loaded (Spares hydrator loaded contents) root) :
    Sound hydrator loaded contents root := by
  induction h with
  | empty => exact sound_empty hpinned
  | run run _ hspares ih =>
    have hends := (hydrateToolchain_endsIn hpinned hname ih hspares).mono
      (fun _ _ h => h.2.1) fun _ _ h => h.1
    exact hends.leaves

/-- After runs that do not fail between the replacement of a directory and the write of its
external receipt, and that leave resumable downloads, a published component has its receipts, and a
run against correct sources reuses it or acquires it again. -/
theorem hydration_after_failures (hpinned : Pinned contents loaded)
    (hname : hydrator.root.getLastD "" = loaded.manifest.toolRootName)
    (hreachable : ReachableRoot hydrator loaded (Spares hydrator loaded contents) root) :
    Consistent hydrator loaded root ∧ ∀ run, Correct hydrator loaded contents run →
      ∃ root', hydrateToolchain hydrator loaded run root =
          .ok (loaded.manifest.components.map (HydratedFrom hydrator root)) root' ∧
        Consistent hydrator loaded root' ∧ ∀ source ∈ loaded.manifest.components,
          (root'.components source.componentId).isDirectory := by
  have hsound := hreachable.sound hpinned hname
  refine ⟨hsound.consistent, fun run hcorrect => ?_⟩
  have hends := hydrateToolchain_endsIn hpinned hname hsound (hcorrect.spares hpinned hsound)
  cases hrun : hydrateToolchain hydrator loaded run root with
  | ok components root' =>
    obtain ⟨rfl, hsound', hpublished⟩ := hends.of_ok hrun
    exact ⟨root', rfl, hsound'.consistent, hpublished⟩
  | error e root' => exact absurd hcorrect (hends.of_error hrun).2

/-! ## A manifest of one archive -/

def byteManifest : ToolchainSourceManifest where
  host := ⟨"linux", "x86_64"⟩
  toolRootName := ".nova-tools"
  components := [byteSource]
  unique := List.nodup_singleton _

def byteLoaded : LoadedToolchainSourceManifest := ⟨byteManifest, hashBytes []⟩

def emptyTree : Tree := .directory 493 []

def byteHydrator : Hydrator where
  root := ["home", ".nova-tools"]
  urls := byteUrls
  classes := .ascii
  safeExtractArchive _ _ := .ok emptyTree
  componentReceiptBytes _ _ _ := .ok [123, 125, 10]

/-- A run against the server that has the byte. -/
def byteRun (fault : Option Step) : Run where
  host := ⟨"linux", "x86_64"⟩
  opener _ := byteOpener
  git _ := ⟨fun _ => none, .other⟩
  fault := fault

def byteContents : Contents := fun _ => [1]

theorem byte_pins_eq (h : byteSource.Pins archive hash) :
    archive = byteArchive ∧ hash = hashBytes [1] :=
  ⟨(Option.some.inj h.metadata).symm, (Option.some.inj h.sha256).symm⟩

theorem byte_pinned : Pinned byteContents byteLoaded := by
  intro source hmem archive hash hpins
  obtain rfl := List.mem_singleton.mp hmem
  obtain ⟨rfl, rfl⟩ := byte_pins_eq hpins
  exact ⟨rfl, rfl⟩

theorem byteRun_correct : Correct byteHydrator byteLoaded byteContents (byteRun none) where
  host := rfl
  fault := rfl
  available source hmem := by
    obtain rfl := List.mem_singleton.mp hmem
    refine .archive byteSource_pins rfl byteOpener_honest fun bytes _ => ⟨emptyTree, rfl, ?_, nofun⟩
    exact ⟨_, rfl⟩

/-- The replacement of the directory fails. -/
def replacementFails : Run := byteRun (some (.component "suite" .replacement))

theorem replacementFails_spares : Spares byteHydrator byteLoaded byteContents {}
    replacementFails := by
  intro source hmem _
  obtain rfl := List.mem_singleton.mp hmem
  refine ⟨by decide, fun archive hash hpins => ?_⟩
  have hcontent := byte_pinned byteSource hmem archive hash hpins
  obtain ⟨rfl, rfl⟩ := byte_pins_eq hpins
  exact ⟨harmless_of_honest hcontent (recoverable_of_none hcontent) byteOpener_honest, .inr nofun⟩

theorem hydration_after_replacement_fails :
    ∃ components root', hydrateToolchain byteHydrator byteLoaded (byteRun none)
      (leaves (hydrateToolchain byteHydrator byteLoaded replacementFails) {}) =
        .ok components root' ∧ (root'.components "suite").isDirectory := by
  obtain ⟨-, hcompletes⟩ := hydration_after_failures byte_pinned rfl
    (.run replacementFails .empty replacementFails_spares)
  obtain ⟨root', hroot, -, hpublished⟩ := hcompletes (byteRun none) byteRun_correct
  exact ⟨_, root', hroot, hpublished byteSource (by simp [byteLoaded, byteManifest])⟩

/-- The write of the external receipt fails. -/
def receiptFails : Run := byteRun (some (.component "suite" .receiptWrite))

def completes (hydrator : Hydrator) (loaded : LoadedToolchainSourceManifest) (run : Run)
    (root : ToolRoot) : Bool :=
  match hydrateToolchain hydrator loaded run root with
  | .ok _ _ => true
  | .error _ _ => false

theorem receiptFails_blocks : completes byteHydrator byteLoaded (byteRun none)
    (leaves (hydrateToolchain byteHydrator byteLoaded receiptFails) {}) = false := by
  decide +kernel

/-- After one failed write of a receipt, a run against the same server does not complete. -/
theorem receipt_failure_blocks :
    ¬ ∀ root, ReachableRoot byteHydrator byteLoaded (fun _ _ => True) root →
      Consistent byteHydrator byteLoaded root ∧
      ∀ run, Correct byteHydrator byteLoaded byteContents run →
        ∃ components root', hydrateToolchain byteHydrator byteLoaded run root =
          .ok components root' := by
  intro h
  obtain ⟨-, hcompletes⟩ := h _ (.run receiptFails .empty trivial)
  obtain ⟨components, root', hroot⟩ := hcompletes (byteRun none) byteRun_correct
  have hblocked := receiptFails_blocks
  rw [completes, hroot] at hblocked
  cases hblocked

end NovaRtl.Hydration
