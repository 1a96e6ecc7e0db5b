import NovaRtl.Contracts.CanonicalJson
import NovaRtl.Contracts.Checks
import NovaRtl.Transforms.Patterns

/-!
# Downloads of pinned archives

`download_archive` of `platform/hydration.py`. A failed transfer is kept as the file to resume from,
and the next attempt asks for the rest of it. The server is any function of the requests of an
attempt; URLs are split and joined as `urllib.parse` does. Operations on local files succeed.
-/

namespace NovaRtl.Hydration

abbrev Bytes := List UInt8

def hashBytes (bytes : Bytes) : HashRef := sha256 ⟨bytes.toArray⟩

inductive Failure where
  | hydration (message : String)
  | osError (text : String)
  /-- Any other exception -/
  | other
  deriving DecidableEq

inductive SourceKind where
  | archive
  | git
  deriving DecidableEq

structure ArchiveMetadata where
  byteSize : ℕ
  byteSize_pos : 0 < byteSize
  stripComponents : ℕ
  maxRegularFileBytes : ℕ
  maxEntries : ℕ

structure ToolSource where
  componentId : String
  sourceKind : SourceKind
  sourceUrl : String
  archiveSha256 : Option HashRef
  gitCommit : Option String := none
  archive : Option ArchiveMetadata
  allowedRedirectHosts : List String

/-- What `urlsplit` gives. -/
structure SplitUrl where
  scheme : String
  hostname : Option String
  username : Option String
  password : Option String

/-- `urlsplit`, `urljoin` and `str.lower`; `none` stands for a `ValueError`. -/
structure Urls where
  urlsplit : String → Option SplitUrl
  urljoin : String → String → Option String
  lower : String → String

/-- A GET request and the offset in its `Range` header. -/
structure Request where
  url : String
  range : Option ℕ

/-- The pieces in which a body arrives, and the failure that ends it, if any. -/
structure Body where
  pieces : List Bytes
  ending : Option Failure

structure Response where
  status : ℕ
  url : String
  location : Option String
  body : Body

/-- What the request with each number of an attempt is answered with. An `HTTPError` is a
response. -/
abbrev Opener := ℕ → Request → Except Failure Response

/-! ## Reading a body -/

namespace Body

/-- `source.read(size)` -/
def read (size : ℕ) (body : Body) : Except Failure (Bytes × Body) :=
  match body.pieces with
  | [] =>
    match body.ending with
    | none => .ok ([], body)
    | some failure => .error failure
  | piece :: rest =>
    .ok (piece.take size,
      ⟨if piece.length ≤ size then rest else piece.drop size :: rest, body.ending⟩)

/-- All that is read before the body ends; an empty piece ends it. -/
def received (body : Body) : Bytes := (body.pieces.takeWhile (· ≠ [])).flatten

/-- The failure that a reader meets at the end. -/
def failure (body : Body) : Option Failure := if [] ∈ body.pieces then none else body.ending

end Body

def limitMessage : String := "archive response exceeds expected size"

/-- `_copy_response_bounded`: what it returns or raises, and the file written. -/
def copyResponseBounded (source : Body) (destination : Bytes) (limit written : ℕ) :
    Except Failure ℕ × Bytes :=
  let remaining := limit - written
  match source.read (min (1024 * 1024) (remaining + 1)) with
  | .error failure => (.error failure, destination)
  | .ok (chunk, source) =>
    if chunk = [] then (.ok written, destination)
    else if chunk.length > remaining then (.error (.hydration limitMessage), destination)
    else copyResponseBounded source (destination ++ chunk) limit (written + chunk.length)
termination_by limit - written
decreasing_by
  have := List.length_pos_iff.mpr ‹chunk ≠ []›
  omega

namespace Body

variable {body rest : Body} {size : ℕ} {chunk : Bytes} {e : Failure}

theorem of_read_error (h : body.read size = .error e) :
    body.received = [] ∧ body.failure = some e := by
  obtain ⟨pieces, ending⟩ := body
  cases pieces with
  | nil =>
    cases ending with
    | none => simp [read] at h
    | some failure => simpa [read, received, Body.failure] using h
  | cons piece pieces => simp [read] at h

theorem of_read_nil (h : body.read size = .ok ([], rest)) (hsize : 0 < size) :
    body.received = [] ∧ body.failure = none := by
  obtain ⟨pieces, ending⟩ := body
  cases pieces with
  | nil =>
    cases ending with
    | none => simp [received, Body.failure]
    | some failure => simp [read] at h
  | cons piece pieces =>
    have hpiece : piece = [] := by
      have := congrArg (fun r => r.toOption.map (·.1)) h
      simpa [read, Except.toOption, hsize.ne'] using this
    simp [received, Body.failure, hpiece]

theorem of_read (h : body.read size = .ok (chunk, rest)) (hchunk : chunk ≠ []) :
    body.received = chunk ++ rest.received ∧ body.failure = rest.failure ∧
      chunk.length ≤ size := by
  obtain ⟨pieces, ending⟩ := body
  cases pieces with
  | nil => cases ending <;> simp_all [read]
  | cons piece pieces =>
    obtain ⟨rfl, rfl⟩ : piece.take size = chunk ∧ _ = rest := by simpa [read] using h
    have hpiece : piece ≠ [] := by
      rintro rfl
      simp at hchunk
    refine ⟨?_, ?_, by simp⟩
    · split
      next hle => simp [received, hpiece, List.take_of_length_le hle]
      next hle =>
        have hdrop : piece.drop size ≠ [] := by simpa using hle
        simp [received, hpiece, hdrop, ← List.append_assoc]
    · split
      next hle => simp [Body.failure, hpiece.symm]
      next hle =>
        have hdrop : piece.drop size ≠ [] := by simpa using hle
        simp [Body.failure, hpiece.symm, hdrop.symm]

end Body

/-- A body that fits is copied whole. -/
theorem copyResponseBounded_of_le {source : Body} {destination : Bytes} {limit written : ℕ}
    (h : written + source.received.length ≤ limit) :
    copyResponseBounded source destination limit written =
      (source.failure.elim (.ok (written + source.received.length)) .error,
        destination ++ source.received) := by
  fun_induction copyResponseBounded source destination limit written with
  | case1 source destination written remaining failure hread =>
    obtain ⟨hreceived, hfailure⟩ := Body.of_read_error hread
    simp [hreceived, hfailure]
  | case2 source destination written remaining rest hread =>
    obtain ⟨hreceived, hfailure⟩ := Body.of_read_nil hread (by omega)
    simp [hreceived, hfailure]
  | case3 source destination written remaining chunk rest hread hchunk hexceeds =>
    obtain ⟨hreceived, -, -⟩ := Body.of_read hread hchunk
    rw [hreceived, List.length_append] at h
    omega
  | case4 source destination written remaining chunk rest hread hchunk hfits ih =>
    obtain ⟨hreceived, hfailure, -⟩ := Body.of_read hread hchunk
    rw [hreceived, List.length_append] at h
    rw [ih (by omega), hreceived, hfailure, List.length_append, List.append_assoc, Nat.add_assoc]

/-- A body that does not fit is refused. -/
theorem copyResponseBounded_of_lt {source : Body} {destination : Bytes} {limit written : ℕ}
    (hwritten : written ≤ limit) (h : limit < written + source.received.length) :
    (copyResponseBounded source destination limit written).1 =
      .error (.hydration limitMessage) := by
  fun_induction copyResponseBounded source destination limit written with
  | case1 source destination written remaining failure hread =>
    obtain ⟨hreceived, -⟩ := Body.of_read_error hread
    simp only [hreceived, List.length_nil] at h
    omega
  | case2 source destination written remaining rest hread =>
    obtain ⟨hreceived, -⟩ := Body.of_read_nil hread (by omega)
    simp only [hreceived, List.length_nil] at h
    omega
  | case3 => rfl
  | case4 source destination written remaining chunk rest hread hchunk hfits ih =>
    obtain ⟨hreceived, -, -⟩ := Body.of_read hread hchunk
    rw [hreceived, List.length_append] at h
    exact ih (by omega) (by omega)

/-! ## The transfer -/

def maxRedirects : ℕ := 5

def redirectStatuses : List ℕ := [301, 302, 303, 307, 308]

section

variable (urls : Urls)

/-- `_validate_redirect_url` -/
def validateRedirectUrl (url : String) (allowedHosts : List String) : Except Failure Unit :=
  match urls.urlsplit url with
  | none => .error .other
  | some final =>
    require (urls.lower final.scheme = "https" ∧ final.username = none ∧ final.password = none ∧
        final.hostname.any (urls.lower · ∈ allowedHosts))
      (.hydration "redirect host violates the manifest allowlist")

/-- The URL of the next request. -/
def redirectUrl (allowedHosts : List String) (redirectCount : ℕ) (currentUrl : String)
    (location : Option String) : Except Failure String := do
  let location := location.getD ""
  require (location ≠ "" ∧ redirectCount ≠ maxRedirects)
    (.hydration "redirect limit or Location policy violation")
  let url ← (urls.urljoin currentUrl location).elim (.error .other) .ok
  validateRedirectUrl urls url allowedHosts
  return url

variable (opener : Opener) (limit : ℕ) (allowedHosts : List String) (resumed : Bytes)

/-- The offset to resume from, if there is one. -/
def rangeHeader (resumed : Bytes) : Option ℕ :=
  if resumed.length = 0 then none else some resumed.length

/-- What the transferred file holds before the body of the response. -/
def resumedBy (response : Response) : Bytes :=
  if resumed.length ≠ 0 ∧ response.status = 200 then [] else resumed

/-- Take the body of the response; what is raised, and the transferred file. -/
def receive (response : Response) : Except Failure Unit × Bytes :=
  let kept := resumedBy resumed response
  let (copied, written) := copyResponseBounded response.body kept limit kept.length
  (copied.map fun _ => (), written)

/-- The `for` loop over the requests, with the transferred file it leaves. -/
def transfer : List ℕ → String → Except Failure Unit × Bytes
  | [], _ => (.error (.hydration "redirect limit exceeded"), resumed)
  | redirectCount :: counts, currentUrl =>
    match opener redirectCount ⟨currentUrl, rangeHeader resumed⟩ with
    | .error failure => (.error failure, resumed)
    | .ok response =>
      if response.url ≠ currentUrl then
        (.error (.hydration "redirect handling must remain explicit"), resumed)
      else if response.status ∈ redirectStatuses then
        match redirectUrl urls allowedHosts redirectCount currentUrl response.location with
        | .error failure => (.error failure, resumed)
        | .ok url => transfer counts url
      else if response.status ∉ [200, 206] then
        (.error (.hydration
          s!"unexpected HTTP status while downloading archive: {response.status}"), resumed)
      else receive limit resumed response

end

/-! ## Attempts -/

/-- The two files of an archive in the cache directory. -/
structure Cache where
  cached : Option Bytes := none
  part : Option Bytes := none
  deriving DecidableEq

inductive CacheFile where
  | cached
  | part
  deriving DecidableEq

def Cache.read (cache : Cache) : CacheFile → Option Bytes
  | .cached => cache.cached
  | .part => cache.part

/-- `_verify_archive` -/
def verifyArchive (source : ToolSource) (archive : ArchiveMetadata) (hash : HashRef)
    (bytes : Bytes) : Except Failure Unit := do
  require (bytes.length = archive.byteSize)
    (.hydration (s!"archive size mismatch for {source.componentId}: " ++
      s!"expected {archive.byteSize}, got {bytes.length}"))
  require (hashBytes bytes = hash)
    (.hydration s!"archive SHA-256 mismatch for {source.componentId}")

/-- `source_host.lower()` of the source URL -/
def sourceHost (urls : Urls) (source : ToolSource) : Except Failure String :=
  match urls.urlsplit source.sourceUrl with
  | some ⟨_, some host, _, _⟩ => .ok (urls.lower host)
  | _ => .error .other

/-- The transfer in full and its check, with the transferred file. -/
def fetchArchive (urls : Urls) (opener : Opener) (source : ToolSource) (archive : ArchiveMetadata)
    (hash : HashRef) (resumed : Bytes) : Except Failure Unit × Bytes :=
  match sourceHost urls source with
  | .error failure => (.error failure, resumed)
  | .ok host =>
    let (outcome, written) := transfer urls opener archive.byteSize
      (host :: source.allowedRedirectHosts) resumed (List.range (maxRedirects + 1)) source.sourceUrl
    (outcome >>= fun _ => verifyArchive source archive hash written, written)

/-- The handling of a failed attempt: the file to resume from that it leaves. -/
def keepTransfer (limit : ℕ) (failure : Failure) (written : Bytes) (part : Option Bytes) :
    Option Bytes :=
  let invalid : Bool :=
    match failure with
    | .hydration message =>
      contains "exceeds expected size" message || decide (written.length > limit)
    | _ => false
  if ¬ invalid ∧ written.length ≤ limit then some written
  else if invalid then none
  else part

/-- What is raised for a failure. -/
def Failure.raised : Failure → Failure
  | .osError text => .hydration s!"archive download failed: {text}"
  | failure => failure

/-- The end of an attempt that found no archive in the cache. -/
def finishAttempt (limit : ℕ) (part : Option Bytes) :
    Except Failure Unit × Bytes → Except Failure CacheFile × Cache
  | (.ok (), written) => (.ok .cached, ⟨some written, none⟩)
  | (.error failure, written) =>
    (.error failure.raised, ⟨none, keepTransfer limit failure written part⟩)

/-- `download_archive`: which file it returns, or what it raises, and the cache it leaves. -/
def downloadArchive (urls : Urls) (opener : Opener) (source : ToolSource) (cache : Cache) :
    Except Failure CacheFile × Cache :=
  match source.sourceKind, source.archive, source.archiveSha256 with
  | .archive, some archive, some hash =>
    if cache.cached.any (fun bytes => (verifyArchive source archive hash bytes).isOk) then
      (.ok .cached, cache)
    else
      let part := cache.part.filter (·.length ≤ archive.byteSize)
      finishAttempt archive.byteSize part
        (fetchArchive urls opener source archive hash (part.getD []))
  | _, _, _ => (.error (.hydration "download_archive requires an ARCHIVE source"), cache)

end NovaRtl.Hydration
