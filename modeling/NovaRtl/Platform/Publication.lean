import NovaRtl.Contracts.CanonicalJson
import NovaRtl.Contracts.Checks
import NovaRtl.Transact.Faults

/-!
# Publishing a platform lock and its views

`publish_platform_outputs` of `platform/lock.py`, with the operations on files as steps of which at
most one fails. The local variables that its handlers read are part of the state.
-/

namespace NovaRtl.PlatformLock

open Transact

inductive Failure where
  | platformLock (message : String)
  | osError
  | typeError
  | valueError
  | validationError
  | yamlError
  /-- Any other exception -/
  | other
  deriving DecidableEq

/-- A file at a path, or one that `mkstemp` made. -/
inductive Entry where
  | file (path : String)
  | temporary (n : ℕ)
  deriving DecidableEq

abbrev Files := Entry → Option ByteArray

structure Publication where
  files : Files
  /-- How many temporary files were made. -/
  made : ℕ := 0
  lockPublished : Bool := false
  viewsPublished : Bool := false
  lockTemporary : Option Entry := none
  viewsTemporary : Option Entry := none

abbrev Publish := EStateM Failure (Faulty Publication)

/-! ## Operations on files -/

def io {α : Type} (f : Publication → α × Publication) : Publish α := perform .osError f

/-- An operation that changes no file: making a directory that is there, opening, flushing,
locking. -/
def quiet : Publish Unit := io fun p => ((), p)

def unlink (entry : Entry) : Publish Unit :=
  io fun p => ((), {p with files := Function.update p.files entry none})

def write (entry : Entry) (data : ByteArray) : Publish Unit :=
  io fun p => ((), {p with files := Function.update p.files entry (some data)})

/-- `os.replace` -/
def replace (source destination : Entry) : Publish Unit :=
  io fun p => ((), {p with
    files := Function.update (Function.update p.files destination (p.files source)) source none})

def mkstemp : Publish Entry :=
  io fun p => (.temporary p.made, {p with
    files := Function.update p.files (.temporary p.made) (some .empty), made := p.made + 1})

def exists? (entry : Entry) : Publish Bool := io fun p => ((p.files entry).isSome, p)

def readBytes (entry : Entry) : Publish ByteArray := do
  quiet
  validate fun p => (p.files entry).elim (.error .osError) .ok

/-! ## Writing outputs -/

/-- `_stage_bytes` -/
def stageBytes (data : ByteArray) : Publish Entry := do
  let temporary ← mkstemp
  onError
    (do
      -- `os.fdopen`, and `os.close` where it fails
      onError quiet quiet
      -- write, flush and `os.fsync`, and the end of `with`
      ensure (do write temporary data; quiet; quiet) quiet)
    (unlink temporary)
  return temporary

/-- `_atomic_write_bytes` -/
def atomicWriteBytes (destination : Entry) (data : ByteArray) : Publish Unit := do
  quiet
  let temporary ← stageBytes data
  ensure (replace temporary destination) (unlink temporary)

/-- `_publication_lock` -/
def publicationLock (body : Publish Unit) : Publish Unit := do
  quiet
  ensure (do quiet; body) (do quiet; quiet)

/-- `_restore_output` -/
def restoreOutput (path : Entry) : Option ByteArray → Publish Unit
  | none => unlink path
  | some prior => atomicWriteBytes path prior

/-! ## Publication -/

structure PlatformAnalysisViews where
  platformLockHash : HashRef

inductive VerificationStatus where
  | pass
  | fail
  deriving DecidableEq

/-- What is written for a lock at its destination and for its views, how views are read back, and
what `verify_platform_lock` says of a staged lock. -/
structure Outputs (PlatformLock : Type) where
  serializedLockBytes : PlatformLock → String → Except Failure ByteArray
  serializedAnalysisViews : PlatformLock → HashRef → Except Failure ByteArray
  loadViews : ByteArray → Except Failure PlatformAnalysisViews
  verifyPlatformLock : Option ByteArray → Except Failure VerificationStatus

/-- The exceptions that the publication handles. -/
def Failure.Handled (failure : Failure) : Prop := failure ≠ .other

instance : DecidablePred Failure.Handled := fun _ => inferInstanceAs (Decidable (_ ≠ _))

variable {PlatformLock : Type} (outputs : Outputs PlatformLock)

def readViews (entry : Entry) : Publish PlatformAnalysisViews := do
  let data ← readBytes entry
  validate fun _ => outputs.loadViews data

/-- The `try` block. -/
def publishPair (lockDestination viewsDestination : Entry) (lockData viewsData : ByteArray) :
    Publish Unit := do
  let lockTemporary ← stageBytes lockData
  assign fun p => {p with lockTemporary := some lockTemporary}
  let viewsTemporary ← stageBytes viewsData
  assign fun p => {p with viewsTemporary := some viewsTemporary}
  let stagedStatus ← validate fun p => outputs.verifyPlatformLock (p.files lockTemporary)
  let stagedViews ← readViews outputs viewsTemporary
  validate fun _ => require
    (stagedStatus = .pass ∧ stagedViews.platformLockHash = sha256 lockData)
    (.platformLock "staged platform lock/view pair failed validation")
  replace lockTemporary lockDestination
  assign fun p => {p with lockPublished := true}
  replace viewsTemporary viewsDestination
  assign fun p => {p with viewsPublished := true}
  let finalViews ← readViews outputs viewsDestination
  let finalLock ← readBytes lockDestination
  validate fun _ => require (sha256 finalLock = finalViews.platformLockHash)
    (.platformLock "published views do not bind the published platform lock")

def restorePublished (published : Publication → Bool) (path : Entry) (prior : Option ByteArray) :
    Publish Unit := do
  if published (← get).state then restoreOutput path prior

/-- The `except` clause. -/
def rollBack (lockDestination viewsDestination : Entry)
    (priorLock priorViews : Option ByteArray) : Publish Unit := do
  rescue (· = .osError)
    (do
      restorePublished Publication.lockPublished lockDestination priorLock
      restorePublished Publication.viewsPublished viewsDestination priorViews)
    (fun _ => throw (.platformLock "platform outputs failed and rollback also failed"))
  throw (.platformLock "platform outputs could not be published atomically")

def unlinkStaged (temporary : Publication → Option Entry) : Publish Unit := do
  match temporary (← get).state with
  | some path => unlink path
  | none => pure ()

/-- The `finally` clause. -/
def removeTemporaries : Publish Unit := do
  unlinkStaged Publication.lockTemporary
  unlinkStaged Publication.viewsTemporary

/-- `read_bytes` of a file that exists. -/
def readPrior (entry : Entry) : Publish (Option ByteArray) := do
  if ← exists? entry then return some (← readBytes entry)
  else return none

/-- `publish_platform_outputs`, on resolved destinations -/
def publishPlatformOutputs (lock : PlatformLock) (lockPath viewsPath : String) :
    Publish Unit := do
  validate fun _ => require (lockPath ≠ viewsPath)
    (.platformLock "platform lock and views require distinct destinations")
  quiet
  quiet
  let lockData ← validate fun _ => outputs.serializedLockBytes lock lockPath
  let viewsData ← validate fun _ => outputs.serializedAnalysisViews lock (sha256 lockData)
  publicationLock do
    let priorLock ← readPrior (.file lockPath)
    let priorViews ← readPrior (.file viewsPath)
    ensure
      (rescue Failure.Handled
        (publishPair outputs (.file lockPath) (.file viewsPath) lockData viewsData)
        fun _ => rollBack (.file lockPath) (.file viewsPath) priorLock priorViews)
      removeTemporaries

end NovaRtl.PlatformLock
