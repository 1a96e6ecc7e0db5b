import NovaRtl.Platform.Extraction
import NovaRtl.Text.Chars
import NovaRtl.Transact.Faults

/-!
# Hydration of a toolchain

`hydrate_toolchain` of `platform/hydration.py`, with the steps of which one may fail. A component is
acquired in a private staging directory, which is removed again, and then moved to its place; the
model passes it on as a value.
-/

namespace NovaRtl.Hydration

open Posix Transact

inductive HydrateFailure where
  | hydration (message : String)
  | download (failure : Failure)
  | extraction (failure : ExtractionFailure)
  | osError
  deriving DecidableEq

/-! ## Steps and failures -/

/-- Where a download can fail in local operations. A transfer that cannot be written, checked or
renamed leaves what a body that ends in an `OSError` leaves. -/
inductive DownloadStep where
  /-- Before the cache is touched -/
  | inspect
  /-- Once unusable files are removed -/
  | temporary
  /-- While the bytes to resume from are copied, after the given number -/
  | resume (copied : ℕ)
  /-- Removing the file to resume from after the archive is in its place -/
  | unlink
  deriving DecidableEq

inductive ComponentStep where
  | inspect
  | staging
  | download (step : DownloadStep)
  | extraction
  | inventory
  | internalReceipt
  | replacement
  /-- Between the replacement and the write of the external receipt -/
  | receiptPath
  /-- Until the external receipt is in its place -/
  | receiptWrite
  | receiptUnlink
  deriving DecidableEq

inductive Step where
  | lock
  | component (componentId : String) (step : ComponentStep)
  | unlock
  deriving DecidableEq

structure Completed where
  returncode : ℤ
  stdout : String

inductive GitCommand where
  | clone (url : String)
  | checkout (commit : String)
  | revParse

/-- What the commands give, `none` if they do not start, and the tree they leave. -/
structure Git where
  run : GitCommand → Option Completed
  worktree : Tree

/-! ## The tool root -/

/-- A component without its internal receipt, and the internal receipt. -/
structure Component where
  tree : Tree
  receipt : Option Bytes

inductive Destination where
  | missing
  | directory (component : Component)
  | symlink
  | other

def Destination.isDirectory : Destination → Bool
  | .directory _ => true
  | _ => false

structure ToolRoot where
  components : String → Destination := fun _ => .missing
  receipts : String → Option Bytes := fun _ => none
  caches : Option HashRef → Cache := fun _ => {}

structure HostPlatform where
  os : String
  architecture : String
  deriving DecidableEq

structure ToolchainSourceManifest where
  host : HostPlatform
  toolRootName : String
  components : List ToolSource
  unique : (components.map ToolSource.componentId).Nodup

structure LoadedToolchainSourceManifest where
  manifest : ToolchainSourceManifest
  contentIdentityHash : HashRef

structure HydratedComponent where
  componentId : String
  path : Path
  receiptPath : Path
  reused : Bool
  deriving DecidableEq

/-- One call: the host, what servers and Git answer for each component, and the step that fails. -/
structure Run where
  host : HostPlatform
  opener : String → Opener
  git : String → Git
  fault : Option Step

/-- The path of the tool root, what extracting an archive gives and how receipts are written. -/
structure Hydrator where
  root : Path
  urls : Urls
  classes : Text.CharClasses
  safeExtractArchive : ToolSource → Bytes → Except ExtractionFailure Tree
  componentReceiptBytes :
    HashRef → ToolSource → List ComponentInventoryEntry → Except HydrateFailure Bytes

abbrev Hydrate := EStateM HydrateFailure ToolRoot

/-! ## Acquisition -/

section

variable (hydrator : Hydrator) (run : Run) (source : ToolSource)

/-- `_run_git` -/
def runGit (git : Git) (command : GitCommand) : Except HydrateFailure Completed := do
  let completed ← (git.run command).elim (.error (.hydration "Git command failed to start")) .ok
  require (completed.returncode = 0) (.hydration "Git command failed")
  return completed

/-- `checkout_git_source`, into a new directory -/
def checkoutGitSource (git : Git) : Except HydrateFailure Tree :=
  match source.sourceKind, source.gitCommit with
  | .git, some commit => do
    let _ ← runGit git (.clone source.sourceUrl)
    let _ ← runGit git (.checkout commit)
    let completed ← runGit git .revParse
    let head := String.ofList (Text.strip hydrator.classes completed.stdout.toList)
    require (hydrator.urls.lower head = commit)
      (.hydration s!"Git commit mismatch for {source.componentId}: expected {commit}")
    return git.worktree
  | _, _ => .error (.hydration "checkout_git_source requires a GIT source")

/-- The step of the download of a component that fails. -/
def Run.downloadFault (componentId : String) : Option DownloadStep :=
  match run.fault with
  | some (.component failing (.download step)) => if failing = componentId then some step else none
  | _ => none

/-- `download_archive` when one of its local operations fails. -/
def interruptedDownload (opener : Opener) (cache : Cache) (limit : ℕ) :
    DownloadStep → Except Failure CacheFile × Cache
  | .inspect => (.error (.osError ""), cache)
  | .temporary => (.error (.osError ""), ⟨none, cache.part.filter (·.length ≤ limit)⟩)
  | .resume copied => (.error (Failure.osError "").raised,
      ⟨none, some (((cache.part.filter (·.length ≤ limit)).getD []).take copied)⟩)
  | .unlink =>
    match downloadArchive hydrator.urls opener source cache with
    | (.ok _, left) =>
      (.error (Failure.osError "").raised, ⟨left.cached, cache.part.filter (·.length ≤ limit)⟩)
    | failed => failed

/-- `download_archive` with the step that fails; later steps are not reached when the archive is in
the cache. -/
def downloadFailingAt (opener : Opener) (cache : Cache) :
    Option DownloadStep → Except Failure CacheFile × Cache
  | none => downloadArchive hydrator.urls opener source cache
  | some step =>
    match source.archive, source.archiveSha256 with
    | some archive, some hash =>
      if step ≠ .inspect ∧
          cache.cached.any (fun bytes => (verifyArchive source archive hash bytes).isOk) then
        downloadArchive hydrator.urls opener source cache
      else interruptedDownload hydrator source opener cache archive.byteSize step
    | _, _ => downloadArchive hydrator.urls opener source cache

def ToolRoot.putCache (key : Option HashRef) (cache : Cache) (root : ToolRoot) : ToolRoot :=
  {root with caches := Function.update root.caches key cache}

def download : Hydrate Bytes := do
  let cache := (← get).caches source.archiveSha256
  let (outcome, cache) := downloadFailingAt hydrator source (run.opener source.componentId) cache
    (run.downloadFault source.componentId)
  modify (ToolRoot.putCache source.archiveSha256 cache)
  let file ← ofExcept (outcome.mapError .download)
  ofExcept ((cache.read file).elim (.error .osError) .ok)

/-! ## Components -/

def io {α : Type} (step : ComponentStep) (f : ToolRoot → α × ToolRoot) : Hydrate α :=
  operate (run.fault = some (.component source.componentId step)) .osError f

def quiet (step : ComponentStep) : Hydrate Unit := io run source step fun root => ((), root)

def acquire : Hydrate Tree :=
  match source.sourceKind with
  | .archive => do
    let archive ← download hydrator run source
    quiet run source .extraction
    ofExcept ((hydrator.safeExtractArchive source archive).mapError .extraction)
  | .git => ofExcept (checkoutGitSource hydrator source (run.git source.componentId))

def sourceInventory (tree : Tree) : Except HydrateFailure (List ComponentInventoryEntry) :=
  (componentInventory tree (source.sourceKind = .git)).mapError .extraction

/-- The receipt of a component with the tree. -/
def receiptOf (loaded : LoadedToolchainSourceManifest) (tree : Tree) :
    Except HydrateFailure Bytes := do
  let inventory ← sourceInventory source tree
  hydrator.componentReceiptBytes loaded.contentIdentityHash source inventory

def componentPath : Path := hydrator.root ++ ["components", source.componentId]

def hydrated (reused : Bool) : HydratedComponent where
  componentId := source.componentId
  path := componentPath hydrator source
  receiptPath := hydrator.root ++ ["receipts", source.componentId ++ ".json"]
  reused := reused

def ToolRoot.publish (componentId : String) (component : Component) (root : ToolRoot) : ToolRoot :=
  {root with components := Function.update root.components componentId (.directory component)}

def ToolRoot.writeReceipt (componentId : String) (receipt : Bytes) (root : ToolRoot) : ToolRoot :=
  {root with receipts := Function.update root.receipts componentId (some receipt)}

/-- Acquire a component that is missing and publish it. -/
def publishComponent (loaded : LoadedToolchainSourceManifest) : Hydrate HydratedComponent := do
  quiet run source .staging
  let tree ← acquire hydrator run source
  quiet run source .inventory
  let receipt ← ofExcept (receiptOf hydrator source loaded tree)
  quiet run source .internalReceipt
  ofExcept (require (tree.node [".nova-hydration-receipt.json"] ≠ some .directory) .osError)
  io run source .replacement fun root =>
    ((), root.publish source.componentId ⟨tree, some receipt⟩)
  quiet run source .receiptPath
  io run source .receiptWrite fun root => ((), root.writeReceipt source.componentId receipt)
  quiet run source .receiptUnlink
  return hydrated hydrator source false

/-- The body of the loop over the components. -/
def hydrateComponent (loaded : LoadedToolchainSourceManifest) : Hydrate HydratedComponent := do
  quiet run source .inspect
  let root ← get
  let destination := "/" ++ asPosix (componentPath hydrator source)
  match root.components source.componentId with
  | .symlink =>
    throw (.hydration s!"component destination must not be a symlink: {destination}")
  | .directory component => do
    let receipt ← ofExcept (receiptOf hydrator source loaded component.tree)
    check (component.receipt = some receipt ∧ root.receipts source.componentId = some receipt)
      (.hydration s!"component receipt or tree identity mismatch: {source.componentId}")
    return hydrated hydrator source true
  | .other =>
    throw (.hydration s!"unreceipted component exists and will not be activated: {destination}")
  | .missing => publishComponent hydrator run source loaded

end

def hydrateComponents (hydrator : Hydrator) (run : Run) (loaded : LoadedToolchainSourceManifest) :
    List ToolSource → Hydrate (List HydratedComponent)
  | [] => pure []
  | source :: rest => do
    let component ← hydrateComponent hydrator run source loaded
    let components ← hydrateComponents hydrator run loaded rest
    return component :: components

/-- `hydrate_toolchain` -/
def hydrateToolchain (hydrator : Hydrator) (loaded : LoadedToolchainSourceManifest) (run : Run) :
    Hydrate (List HydratedComponent) := do
  let expected := loaded.manifest.host
  check (run.host = expected) (.hydration (s!"unsupported host: expected {expected.os}/" ++
    s!"{expected.architecture}, got {run.host.os}/{run.host.architecture}"))
  check (hydrator.root.getLastD "" = loaded.manifest.toolRootName)
    (.hydration "tool root basename does not match the manifest")
  operate (run.fault = some .lock) .osError fun root => ((), root)
  let components ← hydrateComponents hydrator run loaded loaded.manifest.components
  operate (run.fault = some .unlock) .osError fun root => ((), root)
  return components

end NovaRtl.Hydration
