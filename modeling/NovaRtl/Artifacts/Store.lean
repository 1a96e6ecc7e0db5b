import NovaRtl.Contracts.CanonicalJson
import NovaRtl.Contracts.Checks
import NovaRtl.Scheduler.Contracts
import NovaRtl.Transact.System
import NovaRtl.Transact.Triples

/-!
# The artifact store

`ArtifactStore` of `artifacts/store.py` on a disk that several processes share. Each operation on a
file is one step, which may also raise or be the one at which its process is killed. Power may fail
at any time; then files lose what was not synced to the disk, and directory entries may go back to
what they were when their directory was last synced.
-/

namespace NovaRtl.Artifacts

open Scheduler Transact

abbrev Digest := String

/-- `sha256(data).hexdigest()` -/
def digestOf (data : ByteArray) : Digest := String.ofList (Text.Sha256.hexOfBytes data)

inductive StoreError where
  /-- `ArtifactStoreError` -/
  | store (text : String)
  | missing (text : String)
  | integrity (text : String)
  | osError
  deriving DecidableEq

/-! ## The disk -/

structure File where
  content : ByteArray
  mode : ℕ
  mtime : Instant
  /-- The content outlasts a power failure. -/
  synced : Bool

/-- What is at a path. -/
inductive Node where
  | regular (file : File)
  /-- Not a regular file; a symbolic link may lead nowhere. -/
  | special (leads : Bool)

/-- `path.exists()` -/
def exists? : Option Node → Bool
  | none => false
  | some (.regular _) => true
  | some (.special leads) => leads

/-- The path of a digest. -/
structure Blob where
  node : Option Node
  /-- What was there when the directory was last synced. -/
  durable : Option Node

/-- What a power failure does: which entries it keeps, and what it leaves of unsynced files. -/
structure Fate where
  keep : Digest → Bool
  garbled : Digest → ByteArray

structure Call where
  data : ByteArray
  mediaType : String
  classification : Classification
  readOnly : Bool

def Call.digest (call : Call) : Digest := digestOf call.data

abbrev ProcessId := ℕ

structure Disk where
  blobs : Digest → Blob
  /-- The temporary files, by the process that created them. -/
  temporaries : ProcessId × ℕ → Option File
  /-- Who holds the lock of a digest. -/
  holder : Digest → Option ProcessId
  /-- What `put_bytes` has returned since the last power failure. -/
  answers : List (Call × ArtifactRef)
  losses : ℕ
  /-- What each power failure will do. -/
  fates : ℕ → Fate

def Disk.node (s : Disk) (digest : Digest) : Option Node := (s.blobs digest).node

def Disk.setBlob (s : Disk) (digest : Digest) (blob : Blob) : Disk :=
  { s with blobs := Function.update s.blobs digest blob }

def Disk.setTemporary (s : Disk) (name : ProcessId × ℕ) (file : Option File) : Disk :=
  { s with temporaries := Function.update s.temporaries name file }

def Disk.setHolder (s : Disk) (digest : Digest) (holder : Option ProcessId) : Disk :=
  { s with holder := Function.update s.holder digest holder }

/-- What is left of a file when power fails. -/
def Fate.settle (fate : Fate) (digest : Digest) : Option Node → Option Node
  | some (.regular file) =>
    some (.regular (if file.synced then file
      else { file with content := fate.garbled digest, synced := true }))
  | node => node

def Fate.blob (fate : Fate) (digest : Digest) (blob : Blob) : Blob :=
  let node := fate.settle digest (if fate.keep digest then blob.node else blob.durable)
  ⟨node, node⟩

/-- The disk after a power failure. -/
def Disk.powerLoss (s : Disk) : Disk where
  blobs digest := (s.fates s.losses).blob digest (s.blobs digest)
  temporaries := s.temporaries
  holder _ := none
  answers := []
  losses := s.losses + 1
  fates := s.fates

/-! ## Verification -/

/-- `_verify_path`; a look at the path is one step. -/
def verifyPath (digest : Digest) (expectedSize : ℕ) : Option Node → Except StoreError ByteArray
  | none => .error .osError
  | some (.special _) =>
    .error (.integrity ("artifact artifact_" ++ digest ++ " is not a regular file"))
  | some (.regular file) =>
    if file.content.size ≠ expectedSize ∨ digestOf file.content ≠ digest then
      .error (.integrity ("artifact artifact_" ++ digest ++ " failed size or SHA-256 verification"))
    else .ok file.content

def uriPrefix : String := "artifact://sha256/"

def isDigest (digest : Digest) : Bool :=
  digest.length = 64 && digest.toList.all fun c => c.isDigit || ('a' ≤ c && c ≤ 'f')

/-- `blob_path`: the digest that names the path. -/
def blobPath (ref : ArtifactRef) : Except StoreError Digest := do
  require (uriPrefix.toList <+: ref.uri.toList)
    (.integrity ("artifact " ++ ref.artifactId ++ " is outside the content-addressed namespace"))
  let digest := String.ofList (ref.uri.toList.drop uriPrefix.length)
  require (isDigest digest)
    (.integrity ("artifact " ++ ref.artifactId ++ " has an invalid content-addressed URI"))
  require (ref.sha256 = "sha256:" ++ digest)
    (.integrity ("artifact " ++ ref.artifactId ++ " content identities disagree"))
  return digest

/-- `open_verified`, which looks at the path twice. -/
def openVerified (ref : ArtifactRef) (atExists atRead : Digest → Option Node) :
    Except StoreError ByteArray := do
  let digest ← blobPath ref
  require (exists? (atExists digest)) (.missing ("artifact " ++ ref.artifactId ++ " is missing"))
  verifyPath digest ref.sizeBytes (atRead digest)

def Call.ref (call : Call) (mtime : Instant) : ArtifactRef where
  artifactId := "artifact_" ++ call.digest
  uri := uriPrefix ++ call.digest
  sha256 := "sha256:" ++ call.digest
  mediaType := call.mediaType
  sizeBytes := call.data.size
  createdAt := mtime
  producerStageResultId := none
  classification := call.classification

/-! ## Operations -/

/-- The permissions of a blob. -/
def blobMode : ℕ := 0o444

inductive Operation where
  | ensureDirectory
  | openLock
  | lock (digest : Digest)
  /-- `LOCK_UN` and the end of the `with` block, which releases the lock at the latest. -/
  | unlock (digest : Digest)
  | exists? (digest : Digest)
  | verify (digest : Digest) (expectedSize : ℕ)
  | mode (digest : Digest)
  | chmod (digest : Digest)
  | fsyncBlob (digest : Digest)
  | createTemporary
  | write (temporary : ℕ) (data : ByteArray)
  | fchmod (temporary : ℕ)
  | fsync (temporary : ℕ)
  | replace (temporary : ℕ) (digest : Digest)
  | fsyncDirectory (digest : Digest)
  | unlink (temporary : ℕ)
  | stat (digest : Digest)
  deriving DecidableEq

abbrev Operation.Value : Operation → Type
  | .exists? _ => Bool
  | .verify _ _ => Except StoreError ByteArray
  | .mode _ | .createTemporary => ℕ
  | .write _ _ | .stat _ => Instant
  | _ => Unit

inductive Reply (α : Type) where
  | done (value : α)
  /-- An `OSError`; a write leaves part of the data behind. -/
  | failed (partialData : ByteArray)
  | killed

def Disk.regular? (s : Disk) (digest : Digest) : Option File :=
  match s.node digest with
  | some (.regular file) => some file
  | _ => none

/-- Which values an operation may return. A lock that is held makes its operation wait. -/
def Operation.Returns (process : ProcessId) (s : Disk) :
    (operation : Operation) → operation.Value → Prop
  | .lock digest, _ => s.holder digest = none
  | .exists? digest, found => found = Artifacts.exists? (s.node digest)
  | .verify digest size, result => result = verifyPath digest size (s.node digest)
  | .mode digest, permissions =>
    ∃ file, s.regular? digest = some file ∧ permissions = file.mode
  | .createTemporary, temporary => s.temporaries (process, temporary) = none
  | .replace temporary _, _ => s.temporaries (process, temporary) ≠ none
  | .stat digest, mtime => ∃ file, s.regular? digest = some file ∧ mtime = file.mtime
  | _, _ => True

def Disk.updateTemporary (s : Disk) (name : ProcessId × ℕ) (f : File → File) : Disk :=
  s.setTemporary name ((s.temporaries name).map f)

def Disk.updateBlob (s : Disk) (digest : Digest) (f : File → File) : Disk :=
  match s.regular? digest with
  | some file => s.setBlob digest { s.blobs digest with node := some (.regular (f file)) }
  | none => s

/-- What an operation does to the disk when it returns. -/
def Operation.apply (process : ProcessId) (s : Disk) :
    (operation : Operation) → operation.Value → Disk
  | .lock digest, _ => s.setHolder digest (some process)
  | .unlock digest, _ => s.setHolder digest none
  | .chmod digest, _ => s.updateBlob digest fun file => { file with mode := blobMode }
  | .fsyncBlob digest, _ => s.updateBlob digest fun file => { file with synced := true }
  | .createTemporary, temporary =>
    s.setTemporary (process, temporary) (some ⟨.empty, 0o600, 0, false⟩)
  | .write temporary data, mtime =>
    s.updateTemporary (process, temporary) fun file => { file with content := data, mtime }
  | .fchmod temporary, _ =>
    s.updateTemporary (process, temporary) fun file => { file with mode := blobMode }
  | .fsync temporary, _ =>
    s.updateTemporary (process, temporary) fun file => { file with synced := true }
  | .replace temporary digest, _ =>
    (s.setBlob digest { s.blobs digest with
      node := (s.temporaries (process, temporary)).map .regular }).setTemporary
        (process, temporary) none
  | .fsyncDirectory digest, _ =>
    s.setBlob digest { s.blobs digest with durable := (s.blobs digest).node }
  | .unlink temporary, _ => s.setTemporary (process, temporary) none
  | _, _ => s

/-- What is left when an operation raises. -/
def Operation.fail (process : ProcessId) (s : Disk) (partialData : ByteArray) : Operation → Disk
  | .unlock digest => s.setHolder digest none
  | .write temporary _ =>
    s.updateTemporary (process, temporary) fun file => { file with content := partialData }
  | _ => s

/-- The locks of a process that is killed are released. -/
def Disk.kill (s : Disk) (process : ProcessId) : Disk :=
  { s with holder := fun digest =>
      if s.holder digest = some process then none else s.holder digest }

/-- A request of a process. -/
abbrev Request := ProcessId × Operation

def disk : Env Disk fun request : Request => Reply request.2.Value where
  allows
    | s, (process, operation), .done value => operation.Returns process s value
    | _, _, .failed _ => True
    | _, _, .killed => True
  effect
    | (process, operation), .done value, s => operation.apply process s value
    | (process, operation), .failed partialData, s => operation.fail process s partialData
    | (process, _), .killed, s => s.kill process

/-- How a program ends without returning. -/
inductive Exit where
  | raised (e : StoreError)
  | killed
  deriving DecidableEq

/-- The exceptions that `finally` sees. -/
def Exit.IsRaised (exit : Exit) : Prop := exit ≠ .killed

instance : DecidablePred Exit.IsRaised := fun _ => inferInstanceAs (Decidable (_ ≠ _))

abbrev Op : Type → Type 1 := Prog Disk Exit fun request : Request => Reply request.2.Value

def perform (process : ProcessId) (operation : Operation) : Op operation.Value :=
  .call (process, operation) fun
    | .done value => .ret value
    | .failed _ => .throw (.raised .osError)
    | .killed => .throw .killed

/-! ## Publication -/

/-- `_verify_path` of the path of a digest. -/
def verifyBlob (process : ProcessId) (digest : Digest) (expectedSize : ℕ) : Op Unit := do
  match ← perform process (.verify digest expectedSize) with
  | .ok _ => return ()
  | .error e => .throw (.raised e)

/-- A blob that is there already. -/
def confirm (process : ProcessId) (call : Call) : Op Unit := do
  verifyBlob process call.digest call.data.size
  let permissions ← perform process (.mode call.digest)
  if permissions ≠ blobMode then
    perform process (.chmod call.digest)
    perform process (.fsyncBlob call.digest)
  else return ()

/-- A blob that is new: written to a temporary file, which then takes its place. -/
def publish (process : ProcessId) (call : Call) : Op Unit := do
  let temporary ← perform process .createTemporary
  Prog.onError Exit.IsRaised
    (do let _ ← perform process (.write temporary call.data)
        perform process (.fchmod temporary)
        perform process (.fsync temporary)
        perform process (.replace temporary call.digest))
    (perform process (.unlink temporary))
  perform process (.fsyncDirectory call.digest)
  verifyBlob process call.digest call.data.size

/-- What is done under the lock. -/
def putLocked (process : ProcessId) (call : Call) : Op Unit := do
  if ← perform process (.exists? call.digest) then confirm process call
  else publish process call

/-- `put_bytes` -/
def putBytes (process : ProcessId) (call : Call) : Op Unit :=
  if call.readOnly then .throw (.raised (.store "artifact store is read-only"))
  else do
    perform process .ensureDirectory
    perform process .openLock
    perform process (.lock call.digest)
    Prog.ensure Exit.IsRaised (putLocked process call) (perform process (.unlock call.digest))
    let mtime ← perform process (.stat call.digest)
    Prog.modify fun s => { s with answers := s.answers ++ [(call, call.ref mtime)] }

/-- Processes that publish artifacts on a disk whose power may fail. -/
def store : System ProcessId Disk Exit fun request : Request => Reply request.2.Value where
  env := disk
  invokes process _ program := ∃ call, program = putBytes process call
  mayHalt _ := True
  halted := Disk.powerLoss

abbrev Configuration : Type 1 :=
  Config ProcessId Disk Exit fun request : Request => Reply request.2.Value

/-- No process runs. -/
def Disk.mounted (s : Disk) : Configuration := .resting _ _ _ s

end NovaRtl.Artifacts
