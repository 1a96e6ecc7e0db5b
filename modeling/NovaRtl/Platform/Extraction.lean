import NovaRtl.Platform.Download
import NovaRtl.Posix.FileSystem

/-!
# Extraction of archives and inventories of components

`safe_extract_archive` and `component_inventory` of `platform/hydration.py`. An archive is the
sequence of members that reading its tar file gives. The private temporary files of decompression,
which are removed again, are left out.
-/

namespace NovaRtl.Hydration

open Posix Transact

inductive ExtractionFailure where
  | hydration (message : String)
  /-- `unsafe archive path: {name!r}` -/
  | pathRefused (name : String)
  /-- `unsafe archive link: {target!r}` -/
  | linkRefused (target : String)
  /-- `unsupported archive entry: {name!r}` -/
  | entryRefused (name : String)
  /-- `archive file could not be read: {name!r}` -/
  | fileUnreadable (name : String)
  /-- `archive extraction failed: {error}` -/
  | osError (errno : Errno)
  /-- The tar file cannot be read. -/
  | tarError
  /-- `component is missing or unsafe: {component}` -/
  | componentRefused
  /-- `unsupported component file type: {child}` -/
  | typeRefused (relative : Path)
  deriving DecidableEq

inductive MemberKind where
  | dir
  | file
  | sym
  | other
  deriving DecidableEq

structure TarMember where
  name : String
  kind : MemberKind
  linkname : String := ""
  size : ℕ := 0
  mode : ℕ := 0
  /-- What `extractfile` gives to read. -/
  content : Option Bytes := none

/-- The members that are read and whether reading them fails at the end. -/
structure TarArchive where
  members : List TarMember
  broken : Bool := false

structure RegularFile where
  content : Bytes
  mode : ℕ
  deriving DecidableEq

abbrev Extract := EStateM ExtractionFailure (FileSystem RegularFile)

/-- `_safe_member_path` -/
def safeMemberPath (name : String) (stripComponents : ℕ) :
    Except ExtractionFailure (Option Path) := do
  require (name ≠ "" ∧ '\\' ∉ name.toList ∧ ¬ isAbsolute name ∧ ".." ∉ parts name)
    (.pathRefused name)
  return if (parts name).length ≤ stripComponents then none
    else some ((parts name).drop stripComponents)

/-- The loop of `_safe_link_target`. -/
def resolveParts (target : String) : Path → List String → Except ExtractionFailure Unit
  | _, [] => .ok ()
  | resolved, part :: rest =>
    if part = ".." then
      if resolved = [] then .error (.linkRefused target)
      else resolveParts target resolved.dropLast rest
    else resolveParts target (resolved ++ [part]) rest

/-- `_safe_link_target` -/
def safeLinkTarget (linkPath : Path) (target : String) : Except ExtractionFailure Unit := do
  require (target ≠ "" ∧ '\\' ∉ target.toList ∧ ¬ isAbsolute target) (.linkRefused target)
  resolveParts target linkPath.dropLast (parts target)

/-! ## Extraction -/

variable (metadata : ArchiveMetadata)

/-- What a member adds to the entries, for the number of members and of bytes before it. -/
def scanMember (memberCount regularFileBytes : ℕ) (member : TarMember) :
    Except ExtractionFailure (Option Path × ℕ) := do
  require (memberCount + 1 ≤ metadata.maxEntries)
    (.hydration "archive entry-count budget exceeded")
  let relative ← safeMemberPath member.name metadata.stripComponents
  match relative with
  | none => return (none, regularFileBytes)
  | some relative => do
    require (member.kind ≠ .other) (.entryRefused member.name)
    require (member.kind = .sym → safeLinkTarget relative member.linkname = .ok ())
      (.linkRefused member.linkname)
    let regularFileBytes :=
      if member.kind = .file then regularFileBytes + member.size else regularFileBytes
    require (member.kind = .file → regularFileBytes ≤ metadata.maxRegularFileBytes)
      (.hydration "archive regular-file byte budget exceeded")
    return (some relative, regularFileBytes)

/-- The first loop of `_extract_tar`. -/
def scanMembers (broken : Bool) : ℕ → ℕ → List TarMember →
    Except ExtractionFailure (List (TarMember × Path))
  | _, _, [] => if broken then .error .tarError else .ok []
  | memberCount, regularFileBytes, member :: rest => do
    let (relative, regularFileBytes) ← scanMember metadata memberCount regularFileBytes member
    let entries ← scanMembers broken (memberCount + 1) regularFileBytes rest
    return relative.elim entries fun relative => (member, relative) :: entries

/-- An `OSError` of an operation on files. -/
def onFiles {α : Type} (x : EStateM Errno (FileSystem RegularFile) α) : Extract α :=
  x.adaptExcept .osError

/-- A directory or file of the archive. -/
def extractEntry (destination : Path) (entry : TarMember × Path) : Extract Unit := do
  let (member, relative) := entry
  let parent := destination ++ relative.dropLast
  match member.kind with
  | .dir => onFiles (makeDirs (destination ++ relative).reverse)
  | .file => do
    onFiles (makeDirs parent.reverse)
    match member.content with
    | none => throw (.fileUnreadable member.name)
    | some content =>
      onFiles (create parent (relative.getLastD "") (.file ⟨content, member.mode &&& 511⟩))
  | _ => pure ()

/-- A symbolic link of the archive. -/
def linkEntry (destination : Path) (entry : TarMember × Path) : Extract Unit := do
  let (member, relative) := entry
  let parent := destination ++ relative.dropLast
  if member.kind = .sym then do
    onFiles (makeDirs parent.reverse)
    onFiles (create parent (relative.getLastD "") (.symlink member.linkname))

/-- `destination.mkdir(parents=True, exist_ok=False)` -/
def makeDestination (destination : Path) : EStateM Errno (FileSystem RegularFile) Unit :=
  let parent := destination.dropLast
  let name := destination.getLastD ""
  rescue (· = .noEntry) (create parent name .directory) fun _ => do
    makeDirs parent.reverse
    create parent name .directory

/-- `_extract_tar` -/
def extractTar (archive : TarArchive) (destination : Path) : Extract Unit := do
  let entries ← ofExcept (scanMembers metadata archive.broken 0 0 archive.members)
  onFiles (makeDestination destination)
  entries.forM (extractEntry destination)
  entries.forM (linkEntry destination)

/-- `safe_extract_archive`, for what decompressing and opening the archive gives -/
def safeExtractArchive (archive : Except ExtractionFailure TarArchive) (destination : Path)
    (metadata : Option ArchiveMetadata) : Extract Unit := do
  match metadata with
  | none => throw (.hydration "archive metadata is required for extraction")
  | some metadata => do
    let archive ← ofExcept archive
    extractTar metadata archive destination

/-! ## Inventories -/

/-- The tree below a component, the children of a directory in the order of their names. -/
inductive Tree where
  | directory (mode : ℕ) (children : List (String × Tree))
  | file (content : RegularFile)
  | symlink (mode : ℕ) (target : String)
  /-- A node of another type -/
  | other

structure ComponentInventoryEntry where
  path : String
  type : MemberKind
  mode : ℕ
  sha256 : Option HashRef := none
  target : Option String := none

def asPosix (path : Path) : String := "/".intercalate path

/-- The entries of a component that its inventory leaves out. -/
def excluded (excludeGitMetadata : Bool) (relative : Path) : Bool :=
  relative = [".nova-hydration-receipt.json"] ||
    excludeGitMetadata && relative.head? = some ".git"

mutual

/-- What `visit` adds for a child. -/
def visitNode (excludeGitMetadata : Bool) (relative : Path) :
    Tree → Except ExtractionFailure (List ComponentInventoryEntry)
  | .directory mode children => do
    let below ← visit excludeGitMetadata relative children
    return {path := asPosix relative, type := .dir, mode := mode} :: below
  | .file content =>
    .ok [{
      path := asPosix relative
      type := .file
      mode := content.mode
      sha256 := some (hashBytes content.content)}]
  | .symlink mode target => do
    safeLinkTarget relative target
    return [{path := asPosix relative, type := .sym, mode := mode, target := some target}]
  | .other => .error (.typeRefused relative)

/-- `visit` -/
def visit (excludeGitMetadata : Bool) (above : Path) :
    List (String × Tree) → Except ExtractionFailure (List ComponentInventoryEntry)
  | [] => .ok []
  | (name, child) :: rest => do
    let relative := above ++ [name]
    let entries ← (if excluded excludeGitMetadata relative then .ok []
      else visitNode excludeGitMetadata relative child)
    let others ← visit excludeGitMetadata above rest
    return entries ++ others

end

/-- `component_inventory` -/
def componentInventory (component : Tree) (excludeGitMetadata : Bool) :
    Except ExtractionFailure (List ComponentInventoryEntry) :=
  match component with
  | .directory _ children => visit excludeGitMetadata [] children
  | _ => .error .componentRefused

mutual

/-- The node at a path of the tree. -/
def Tree.node : Tree → Path → Option (Node RegularFile)
  | .directory _ _, [] => some .directory
  | .directory _ children, name :: rest => childNode children name rest
  | .file content, [] => some (.file content)
  | .symlink _ target, [] => some (.symlink target)
  | _, _ => none

def childNode : List (String × Tree) → String → Path → Option (Node RegularFile)
  | [], _, _ => none
  | (name', child) :: others, name, rest =>
    if name' = name then child.node rest else childNode others name rest

end

end NovaRtl.Hydration
