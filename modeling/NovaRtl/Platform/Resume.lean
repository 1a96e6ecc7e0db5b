import NovaRtl.Platform.Download

/-!
# Resuming failed downloads

Whatever the server does, a returned archive is the pinned one and the file to resume from is no
longer than it. What an attempt leaves in that file decides whether later ones succeed: nothing
removes bytes that the rest of the archive does not complete.
-/

namespace NovaRtl.Hydration

variable {urls : Urls} {opener : Opener} {source : ToolSource} {archive : ArchiveMetadata}
  {hash : HashRef} {hosts : List String} {resumed content : Bytes} {response : Response}
  {cache : Cache}

structure ToolSource.Pins (source : ToolSource) (archive : ArchiveMetadata) (hash : HashRef) :
    Prop where
  kind : source.sourceKind = .archive
  metadata : source.archive = some archive
  sha256 : source.archiveSha256 = some hash

structure Matches (archive : ArchiveMetadata) (hash : HashRef) (bytes : Bytes) : Prop where
  size : bytes.length = archive.byteSize
  hash : hashBytes bytes = hash

theorem verifyArchive_eq_ok {bytes : Bytes} :
    verifyArchive source archive hash bytes = .ok () ↔ Matches archive hash bytes := by
  simp only [verifyArchive, bind_eq_ok, require_eq_ok, exists_const]
  exact ⟨fun h => ⟨h.1, h.2⟩, fun h => ⟨h.size, h.hash⟩⟩

/-! ## One transfer -/

/-- The response, not a redirect, that the requests of an attempt lead to. -/
inductive Answers (urls : Urls) (opener : Opener) (hosts : List String) (range : Option ℕ) :
    List ℕ → String → Response → Prop
  | final {count : ℕ} {counts : List ℕ} {url : String} {response : Response} :
      opener count ⟨url, range⟩ = .ok response → response.url = url →
      response.status ∉ redirectStatuses →
      Answers urls opener hosts range (count :: counts) url response
  | redirect {count : ℕ} {counts : List ℕ} {url next : String} {response last : Response} :
      opener count ⟨url, range⟩ = .ok response → response.url = url →
      response.status ∈ redirectStatuses →
      redirectUrl urls hosts count url response.location = .ok next →
      Answers urls opener hosts range counts next last →
      Answers urls opener hosts range (count :: counts) url last

/-- What the transferred file would hold after the whole body. -/
def delivered (resumed : Bytes) (response : Response) : Bytes :=
  resumedBy resumed response ++ response.body.received

theorem length_resumedBy_le : (resumedBy resumed response).length ≤ resumed.length := by
  unfold resumedBy
  split <;> simp

theorem receive_of_le {limit : ℕ} (h : (delivered resumed response).length ≤ limit) :
    receive limit resumed response =
      (response.body.failure.elim (.ok ()) .error, delivered resumed response) := by
  rw [delivered, List.length_append] at h
  rw [receive, copyResponseBounded_of_le h]
  cases response.body.failure <;> rfl

theorem receive_of_lt {limit : ℕ} (hresumed : resumed.length ≤ limit)
    (h : limit < (delivered resumed response).length) :
    (receive limit resumed response).1 = .error (.hydration limitMessage) := by
  rw [delivered, List.length_append] at h
  have hkept : (resumedBy resumed response).length ≤ limit := length_resumedBy_le.trans hresumed
  have hcopied : (copyResponseBounded response.body (resumedBy resumed response) limit
      (resumedBy resumed response).length).1 = .error (.hydration limitMessage) :=
    copyResponseBounded_of_lt hkept h
  simp only [receive, hcopied, Except.map]

/-- A transfer that meets no answer to take leaves the file as it was. -/
theorem transfer_cases (urls : Urls) (opener : Opener) (limit : ℕ) (hosts : List String)
    (resumed : Bytes) (counts : List ℕ) (url : String) :
    (∃ failure, transfer urls opener limit hosts resumed counts url = (.error failure, resumed)) ∨
      ∃ response, Answers urls opener hosts (rangeHeader resumed) counts url response ∧
        response.status ∈ [200, 206] ∧
        transfer urls opener limit hosts resumed counts url = receive limit resumed response := by
  induction counts generalizing url with
  | nil => exact .inl ⟨_, rfl⟩
  | cons count counts ih =>
    rw [transfer]
    split
    next failure h => exact .inl ⟨_, rfl⟩
    next response h =>
      split
      next => exact .inl ⟨_, rfl⟩
      next hurl =>
        rw [not_not] at hurl
        split
        next hredirect =>
          split
          next failure _ => exact .inl ⟨_, rfl⟩
          next next hnext =>
            obtain hfails | ⟨last, hanswers, hlast⟩ := ih next
            · exact .inl hfails
            · exact .inr ⟨last, .redirect h hurl hredirect hnext hanswers, hlast⟩
        next hredirect =>
          split
          next => exact .inl ⟨_, rfl⟩
          next hstatus =>
            exact .inr ⟨response, .final h hurl hredirect, not_not.mp hstatus, rfl⟩

/-- The response that an attempt for the source takes. -/
def Taken (urls : Urls) (opener : Opener) (source : ToolSource) (resumed : Bytes)
    (response : Response) : Prop :=
  response.status ∈ [200, 206] ∧ ∃ host, sourceHost urls source = .ok host ∧
    Answers urls opener (host :: source.allowedRedirectHosts) (rangeHeader resumed)
      (List.range (maxRedirects + 1)) source.sourceUrl response

/-- How the transfer and its check end. -/
inductive Fetched (urls : Urls) (opener : Opener) (source : ToolSource) (archive : ArchiveMetadata)
    (hash : HashRef) (resumed : Bytes) : Except Failure Unit × Bytes → Prop
  | refused (failure : Failure) :
      Fetched urls opener source archive hash resumed (.error failure, resumed)
  | exceeded {response : Response} (written : Bytes) : Taken urls opener source resumed response →
      archive.byteSize < (delivered resumed response).length →
      Fetched urls opener source archive hash resumed (.error (.hydration limitMessage), written)
  | complete {response : Response} : Taken urls opener source resumed response →
      response.body.failure = none → Matches archive hash (delivered resumed response) →
      Fetched urls opener source archive hash resumed (.ok (), delivered resumed response)
  | failed {response : Response} (failure : Failure) : Taken urls opener source resumed response →
      (delivered resumed response).length ≤ archive.byteSize →
      (response.body.failure = none → ¬ Matches archive hash (delivered resumed response)) →
      Fetched urls opener source archive hash resumed (.error failure, delivered resumed response)

theorem fetchArchive_of_transfer {host : String} {outcome : Except Failure Unit} {written : Bytes}
    (hhost : sourceHost urls source = .ok host)
    (h : transfer urls opener archive.byteSize (host :: source.allowedRedirectHosts) resumed
      (List.range (maxRedirects + 1)) source.sourceUrl = (outcome, written)) :
    fetchArchive urls opener source archive hash resumed =
      (outcome >>= fun _ => verifyArchive source archive hash written, written) := by
  simp only [fetchArchive, hhost, h]

theorem fetchArchive_fetched (hresumed : resumed.length ≤ archive.byteSize) :
    Fetched urls opener source archive hash resumed
      (fetchArchive urls opener source archive hash resumed) := by
  unfold fetchArchive
  split
  next failure _ => exact .refused failure
  next host hhost =>
    obtain ⟨failure, h⟩ | ⟨response, hanswers, hstatus, h⟩ := transfer_cases urls opener
      archive.byteSize (host :: source.allowedRedirectHosts) resumed
      (List.range (maxRedirects + 1)) source.sourceUrl
    · rw [h]
      exact .refused failure
    · rw [h]
      have htaken : Taken urls opener source resumed response := ⟨hstatus, host, hhost, hanswers⟩
      by_cases hfits : (delivered resumed response).length ≤ archive.byteSize
      · rw [receive_of_le hfits]
        cases hfailure : response.body.failure with
        | some failure => exact .failed failure htaken hfits (by simp [hfailure])
        | none =>
          simp only [Option.elim_none, bind, Except.bind]
          cases hverify : verifyArchive source archive hash (delivered resumed response) with
          | ok u => exact .complete htaken hfailure (verifyArchive_eq_ok.mp hverify)
          | error failure =>
            refine .failed failure htaken hfits fun _ hmatches => ?_
            rw [verifyArchive_eq_ok.mpr hmatches] at hverify
            cases hverify
      · rw [not_le] at hfits
        have hexceeded := receive_of_lt hresumed hfits
        rw [show receive archive.byteSize resumed response =
          (.error (.hydration limitMessage), (receive archive.byteSize resumed response).2) from
            Prod.ext hexceeded rfl]
        exact .exceeded _ htaken hfits

/-! ## One attempt -/

def Cache.Holds (archive : ArchiveMetadata) (hash : HashRef) (cache : Cache) : Prop :=
  ∃ bytes ∈ cache.cached, Matches archive hash bytes

/-- What an attempt resumes from. -/
def Cache.resumeFrom (archive : ArchiveMetadata) (cache : Cache) : Bytes :=
  (cache.part.filter (·.length ≤ archive.byteSize)).getD []

theorem Cache.length_resumeFrom_le : (cache.resumeFrom archive).length ≤ archive.byteSize := by
  unfold Cache.resumeFrom
  cases cache.part with
  | none => simp
  | some bytes =>
    rw [Option.filter_some]
    split
    next h => simpa using h
    next => simp

theorem any_isOk_iff : cache.cached.any (fun bytes =>
    (verifyArchive source archive hash bytes).isOk) ↔ cache.Holds archive hash := by
  rw [Option.any_eq_true, Cache.Holds]
  refine exists_congr fun bytes => and_congr_right fun _ => ?_
  have hverify : verifyArchive source archive hash bytes = .ok () ↔ Matches archive hash bytes :=
    verifyArchive_eq_ok
  rw [← hverify]
  cases verifyArchive source archive hash bytes <;> simp [Except.isOk, Except.toBool]

theorem downloadArchive_of_holds (hpins : source.Pins archive hash)
    (hholds : cache.Holds archive hash) :
    downloadArchive urls opener source cache = (.ok .cached, cache) := by
  simp only [downloadArchive, hpins.kind, hpins.metadata, hpins.sha256]
  rw [if_pos (any_isOk_iff.mpr hholds)]

theorem downloadArchive_of_not_holds (urls : Urls) (opener : Opener)
    (hpins : source.Pins archive hash) (hholds : ¬ cache.Holds archive hash) :
    ∃ result, Fetched urls opener source archive hash (cache.resumeFrom archive) result ∧
      fetchArchive urls opener source archive hash (cache.resumeFrom archive) = result ∧
      downloadArchive urls opener source cache =
        finishAttempt archive.byteSize (cache.part.filter (·.length ≤ archive.byteSize)) result := by
  refine ⟨_, fetchArchive_fetched cache.length_resumeFrom_le, rfl, ?_⟩
  simp only [downloadArchive, hpins.kind, hpins.metadata, hpins.sha256]
  rw [if_neg (any_isOk_iff.not.mpr hholds)]
  rfl

/-- A transfer that fits is kept unless the failure says that it does not. -/
theorem keepTransfer_of_le {limit : ℕ} {written : Bytes} (h : written.length ≤ limit)
    (failure : Failure) (part : Option Bytes) :
    keepTransfer limit failure written part = none ∨
      keepTransfer limit failure written part = some written := by
  unfold keepTransfer
  split <;> simp_all

theorem keepTransfer_le {limit : ℕ} {failure : Failure} {written : Bytes} {part : Option Bytes}
    (h : written.length ≤ limit) :
    ∀ bytes ∈ keepTransfer limit failure written part, bytes.length ≤ limit := by
  obtain hnone | hsome := keepTransfer_of_le h failure part
  · simp [hnone]
  · simpa [hsome] using h

theorem keepTransfer_exceeded {limit : ℕ} {written : Bytes} {part : Option Bytes} :
    keepTransfer limit (.hydration limitMessage) written part = none := by
  have hmessage : contains "exceeds expected size" limitMessage = true := by decide
  simp [keepTransfer, hmessage]

/-! ## Runs of attempts -/

/-- The caches that attempts under `allowed` servers lead to. -/
inductive Reachable (urls : Urls) (source : ToolSource) (allowed : Cache → Opener → Prop) :
    Cache → Prop
  | empty : Reachable urls source allowed {}
  | attempt {cache : Cache} (opener : Opener) : Reachable urls source allowed cache →
      allowed cache opener →
      Reachable urls source allowed (downloadArchive urls opener source cache).2

def Body.Delivers (body : Body) (bytes : Bytes) : Prop :=
  body.received = bytes ∧ body.failure = none

/-- The server has the archive: it sends all of it, or the rest that is asked for, or says that
there is none. -/
inductive Served (content : Bytes) (request : Request) (response : Response) : Prop
  | full : response.status = 200 → response.body.Delivers content →
      Served content request response
  | rest {offset : ℕ} : request.range = some offset → offset < content.length →
      response.status = 206 → response.body.Delivers (content.drop offset) →
      Served content request response
  | unsatisfiable {offset : ℕ} : request.range = some offset → content.length ≤ offset →
      response.status = 416 → Served content request response

def Honest (content : Bytes) (opener : Opener) : Prop :=
  ∀ count request, ∃ response, opener count request = .ok response ∧ response.url = request.url ∧
    Served content request response

/-- The rest of the archive completes what is there to the pinned one. -/
def Resumable (archive : ArchiveMetadata) (hash : HashRef) (content bytes : Bytes) : Prop :=
  bytes.length < archive.byteSize ∧
    Matches archive hash (bytes ++ content.drop bytes.length)

theorem resumable_of_prefix {bytes : Bytes} (hcontent : Matches archive hash content)
    (hbegins : bytes <+: content) (hne : bytes ≠ content) :
    Resumable archive hash content bytes := by
  obtain ⟨rest, rfl⟩ := hbegins
  have hrest : rest ≠ [] := by simpa using hne
  have hlength := List.length_pos_iff.mpr hrest
  have hsize := hcontent.size
  rw [List.length_append] at hsize
  refine ⟨by omega, ?_⟩
  rwa [List.drop_left]

/-- The attempt has the archive already, or the bytes that a response adds to the transferred file
are too many, or complete the archive, or can be completed. -/
def Harmless (urls : Urls) (source : ToolSource) (archive : ArchiveMetadata) (hash : HashRef)
    (content : Bytes) (cache : Cache) (opener : Opener) : Prop :=
  cache.Holds archive hash ∨
    ∀ response, Taken urls opener source (cache.resumeFrom archive) response →
      archive.byteSize < (delivered (cache.resumeFrom archive) response).length ∨
      (response.body.failure = none ∧
        Matches archive hash (delivered (cache.resumeFrom archive) response)) ∨
      Resumable archive hash content (delivered (cache.resumeFrom archive) response)

/-- An attempt under an honest server succeeds. -/
def Recoverable (archive : ArchiveMetadata) (hash : HashRef) (content : Bytes)
    (cache : Cache) : Prop :=
  cache.Holds archive hash ∨ Resumable archive hash content (cache.resumeFrom archive)

theorem resumable_nil (hcontent : Matches archive hash content) :
    Resumable archive hash content [] := by
  refine resumable_of_prefix hcontent List.nil_prefix fun h => ?_
  have hsize := hcontent.size
  have := archive.byteSize_pos
  rw [← h, List.length_nil] at hsize
  omega

theorem resumeFrom_of_le {bytes : Bytes} (h : bytes.length ≤ archive.byteSize) :
    Cache.resumeFrom archive ⟨none, some bytes⟩ = bytes := by
  simp only [Cache.resumeFrom, Option.filter_some, h, decide_true, if_true, Option.getD_some]

theorem recoverable_of_resumable {bytes : Bytes} (h : Resumable archive hash content bytes) :
    Recoverable archive hash content ⟨none, some bytes⟩ := by
  rw [Recoverable, resumeFrom_of_le h.1.le]
  exact .inr h

theorem recoverable_of_none (hcontent : Matches archive hash content) :
    Recoverable archive hash content ⟨none, none⟩ :=
  .inr (resumable_nil hcontent)

theorem recoverable_keepTransfer (hcontent : Matches archive hash content) {failure : Failure}
    {written : Bytes} {part : Option Bytes} (h : Resumable archive hash content written) :
    Recoverable archive hash content
      ⟨none, keepTransfer archive.byteSize failure written part⟩ := by
  obtain hkept | hkept := keepTransfer_of_le h.1.le failure part
  · rw [hkept]
    exact recoverable_of_none hcontent
  · rw [hkept]
    exact recoverable_of_resumable h

/-- A harmless attempt leaves a cache from which honest servers are served. -/
theorem Recoverable.attempt (hpins : source.Pins archive hash)
    (hcontent : Matches archive hash content)
    (hcache : Recoverable archive hash content cache)
    (hharmless : Harmless urls source archive hash content cache opener) :
    Recoverable archive hash content (downloadArchive urls opener source cache).2 := by
  by_cases hholds : cache.Holds archive hash
  · rw [downloadArchive_of_holds hpins hholds]
    exact hcache
  have hresumed := hcache.resolve_left hholds
  have hdelivered := hharmless.resolve_left hholds
  obtain ⟨result, hfetched, -, hresult⟩ := downloadArchive_of_not_holds urls opener
    hpins hholds
  rw [hresult]
  cases hfetched with
  | refused failure => exact recoverable_keepTransfer hcontent hresumed
  | exceeded _ htaken hexceeds =>
    simp only [finishAttempt, keepTransfer_exceeded]
    exact recoverable_of_none hcontent
  | complete htaken hfailure hmatches => exact .inl ⟨_, rfl, hmatches⟩
  | failed failure htaken hfits hfails =>
    obtain hexceeds | ⟨hfailure, hmatches⟩ | hresumable := hdelivered _ htaken
    · omega
    · exact absurd hmatches (hfails hfailure)
    · exact recoverable_keepTransfer hcontent hresumable

/-- What an honest server answers completes the archive. -/
theorem Served.delivers {url : String} (hcontent : Matches archive hash content)
    (hresumed : Resumable archive hash content resumed)
    (h : Served content ⟨url, rangeHeader resumed⟩ response) :
    response.status ∈ [200, 206] ∧ response.body.failure = none ∧
      Matches archive hash (delivered resumed response) := by
  cases h with
  | full hstatus hbody =>
    refine ⟨by simp [hstatus], hbody.2, ?_⟩
    have hkept : resumedBy resumed response = [] := by
      unfold resumedBy
      split
      next => rfl
      next h => simpa [hstatus] using h
    rwa [delivered, hkept, hbody.1]
  | rest hoffset hlt hstatus hbody =>
    refine ⟨by simp [hstatus], hbody.2, ?_⟩
    have hkept : resumedBy resumed response = resumed := by simp [resumedBy, hstatus]
    simp only [rangeHeader] at hoffset
    split at hoffset
    next => cases hoffset
    next =>
      obtain rfl := Option.some.inj hoffset
      rw [delivered, hkept, hbody.1]
      exact hresumed.2
  | unsatisfiable hoffset hle hstatus =>
    simp only [rangeHeader] at hoffset
    split at hoffset
    next => cases hoffset
    next =>
      obtain rfl := Option.some.inj hoffset
      have := hresumed.1
      rw [hcontent.size] at hle
      omega

theorem not_redirect_of_success {status : ℕ} (h : status ∈ [200, 206]) :
    status ∉ redirectStatuses := by
  obtain h | h : status = 200 ∨ status = 206 := by simpa using h
  all_goals rw [h]; decide

/-- An honest server is asked once. -/
theorem fetchArchive_of_honest {host : String} (hhost : sourceHost urls source = .ok host)
    (hcontent : Matches archive hash content) (hhonest : Honest content opener)
    (hresumed : Resumable archive hash content resumed) :
    ∃ written, fetchArchive urls opener source archive hash resumed = (.ok (), written) := by
  obtain ⟨response, hresponse, hurl, hserved⟩ := hhonest 0 ⟨source.sourceUrl, rangeHeader resumed⟩
  obtain ⟨hstatus, hfailure, hmatches⟩ := hserved.delivers hcontent hresumed
  have hredirect := not_redirect_of_success hstatus
  refine ⟨delivered resumed response, ?_⟩
  have htransfer : transfer urls opener archive.byteSize (host :: source.allowedRedirectHosts)
      resumed (List.range (maxRedirects + 1)) source.sourceUrl =
        (.ok (), delivered resumed response) := by
    rw [List.range_succ_eq_map, transfer, hresponse]
    simp only [hurl, ne_eq, not_true_eq_false, if_false, hredirect, hstatus]
    rw [receive_of_le hmatches.size.le, hfailure]
    rfl
  rw [fetchArchive_of_transfer hhost htransfer]
  exact Prod.ext (verifyArchive_eq_ok.mpr hmatches) rfl

/-- An honest server does no harm. -/
theorem harmless_of_honest (hcontent : Matches archive hash content)
    (hcache : Recoverable archive hash content cache) (hhonest : Honest content opener) :
    Harmless urls source archive hash content cache opener := by
  refine hcache.imp_right fun hresumed response ⟨_, host, _, hanswers⟩ => .inr (.inl ?_)
  have hserved {count : ℕ} {url : String} {response : Response}
      (h : opener count ⟨url, rangeHeader (cache.resumeFrom archive)⟩ = .ok response) :
      response.status ∈ [200, 206] ∧ response.body.failure = none ∧
        Matches archive hash (delivered (cache.resumeFrom archive) response) := by
    obtain ⟨response', hresponse, -, hserved⟩ :=
      hhonest count ⟨url, rangeHeader (cache.resumeFrom archive)⟩
    rw [h] at hresponse
    obtain rfl := Except.ok.inj hresponse
    exact hserved.delivers hcontent hresumed
  cases hanswers with
  | final hresponse => exact (hserved hresponse).2
  | redirect hresponse hurl hredirect =>
    exact absurd hredirect (not_redirect_of_success (hserved hresponse).1)

theorem Recoverable.succeeds {host : String} (hpins : source.Pins archive hash)
    (hhost : sourceHost urls source = .ok host) (hcontent : Matches archive hash content)
    (hcache : Recoverable archive hash content cache) (hhonest : Honest content opener) :
    (downloadArchive urls opener source cache).1 = .ok .cached := by
  by_cases hholds : cache.Holds archive hash
  · rw [downloadArchive_of_holds hpins hholds]
  · obtain ⟨result, -, hfetch, hresult⟩ := downloadArchive_of_not_holds urls opener
      hpins hholds
    obtain ⟨written, hwritten⟩ := fetchArchive_of_honest hhost hcontent hhonest
      (hcache.resolve_left hholds)
    rw [hresult, ← hfetch, hwritten]
    rfl

/-- Under any server, a returned file is the pinned archive and the file to resume from is no
longer than it. -/
theorem downloadArchive_safe (hpins : source.Pins archive hash)
    (hcache : ∀ bytes ∈ cache.part, bytes.length ≤ archive.byteSize) :
    (∀ bytes ∈ (downloadArchive urls opener source cache).2.part,
      bytes.length ≤ archive.byteSize) ∧
    ∀ file, (downloadArchive urls opener source cache).1 = .ok file →
      ∃ bytes ∈ (downloadArchive urls opener source cache).2.read file,
        Matches archive hash bytes := by
  by_cases hholds : cache.Holds archive hash
  · rw [downloadArchive_of_holds hpins hholds]
    refine ⟨hcache, ?_⟩
    rintro file ⟨⟩
    exact hholds
  obtain ⟨result, hfetched, -, hresult⟩ := downloadArchive_of_not_holds urls opener
    hpins hholds
  rw [hresult]
  cases hfetched with
  | refused failure => exact ⟨keepTransfer_le cache.length_resumeFrom_le, nofun⟩
  | exceeded _ htaken hexceeds => exact ⟨by simp [finishAttempt, keepTransfer_exceeded], nofun⟩
  | complete htaken hfailure hmatches =>
    refine ⟨nofun, ?_⟩
    rintro file ⟨⟩
    exact ⟨_, rfl, hmatches⟩
  | failed failure htaken hfits hfails => exact ⟨keepTransfer_le hfits, nofun⟩

theorem Reachable.part_le {allowed : Cache → Opener → Prop} (hpins : source.Pins archive hash)
    (h : Reachable urls source allowed cache) :
    ∀ bytes ∈ cache.part, bytes.length ≤ archive.byteSize := by
  induction h with
  | empty => nofun
  | attempt opener _ _ ih => exact (downloadArchive_safe hpins ih).1

theorem Reachable.recoverable (hpins : source.Pins archive hash)
    (hcontent : Matches archive hash content)
    (h : Reachable urls source (Harmless urls source archive hash content) cache) :
    Recoverable archive hash content cache := by
  induction h with
  | empty => exact recoverable_of_none hcontent
  | attempt opener _ hharmless ih => exact ih.attempt hpins hcontent hharmless

/-- After any attempts, a returned file is the pinned archive and the file to resume from is no
longer than it. After harmless attempts, an attempt under an honest server succeeds. -/
theorem download_after_attempts {host : String} (hpins : source.Pins archive hash)
    (hhost : sourceHost urls source = .ok host) (hcontent : Matches archive hash content) :
    (∀ cache, Reachable urls source (fun _ _ => True) cache →
      (∀ bytes ∈ cache.part, bytes.length ≤ archive.byteSize) ∧
      ∀ opener file, (downloadArchive urls opener source cache).1 = .ok file →
        ∃ bytes ∈ (downloadArchive urls opener source cache).2.read file,
          Matches archive hash bytes) ∧
    ∀ cache, Reachable urls source (Harmless urls source archive hash content) cache →
      ∀ opener, Honest content opener →
        ∃ file, (downloadArchive urls opener source cache).1 = .ok file := by
  refine ⟨fun cache h => ⟨h.part_le hpins, fun opener => ?_⟩, fun cache h opener hhonest => ?_⟩
  · exact (downloadArchive_safe hpins (h.part_le hpins)).2
  · exact ⟨.cached, (h.recoverable hpins hcontent).succeeds hpins hhost hcontent hhonest⟩

/-! ## One pinned byte -/

def byteArchive : ArchiveMetadata where
  byteSize := 1
  byteSize_pos := Nat.one_pos
  stripComponents := 0
  maxRegularFileBytes := 1
  maxEntries := 1

def byteSource : ToolSource where
  componentId := "suite"
  sourceKind := .archive
  sourceUrl := "https://example.test/suite.tar.gz"
  archiveSha256 := some (hashBytes [1])
  archive := some byteArchive
  allowedRedirectHosts := []

/-- As they are for the URL of the source. -/
def byteUrls : Urls where
  urlsplit _ := some ⟨"https", some "example.test", none, none⟩
  urljoin _ _ := none
  lower := id

/-- Every request is answered with the body. -/
def bodyOpener (body : Body) : Opener := fun _ request => .ok ⟨200, request.url, none, body⟩

/-- The server has the byte, and nothing past it. -/
def byteOpener : Opener := fun _ request =>
  match request.range with
  | some (_ + 1) => .ok ⟨416, request.url, none, ⟨[], none⟩⟩
  | _ => .ok ⟨200, request.url, none, ⟨[[1]], none⟩⟩

theorem byteSource_pins : byteSource.Pins byteArchive (hashBytes [1]) := ⟨rfl, rfl, rfl⟩

theorem byteOpener_honest : Honest [1] byteOpener := by
  rintro count ⟨url, _ | _ | offset⟩
  · exact ⟨_, rfl, rfl, .full rfl ⟨rfl, rfl⟩⟩
  · exact ⟨_, rfl, rfl, .full rfl ⟨rfl, rfl⟩⟩
  · exact ⟨_, rfl, rfl, .unsatisfiable rfl (by simp) rfl⟩

theorem bodyOpener_answer {body : Body} {range : Option ℕ} {counts : List ℕ} {url : String}
    (h : Answers urls (bodyOpener body) hosts range counts url response) :
    response.status = 200 ∧ response.body = body := by
  cases h with
  | final hresponse hurl hstatus =>
    obtain rfl := Except.ok.inj hresponse
    exact ⟨rfl, rfl⟩
  | redirect hresponse hurl hstatus =>
    obtain rfl := Except.ok.inj hresponse
    simp [redirectStatuses] at hstatus

/-- A body that ends before the first byte does no harm. -/
theorem harmless_of_empty {failure : Option Failure} (hcontent : Matches archive hash content)
    (hcache : cache.resumeFrom archive = []) :
    Harmless urls source archive hash content cache (bodyOpener ⟨[], failure⟩) := by
  refine .inr fun response ⟨_, host, _, hanswers⟩ => .inr (.inr ?_)
  obtain ⟨-, hbody⟩ := bodyOpener_answer hanswers
  have hdelivered : delivered (cache.resumeFrom archive) response = [] := by
    simp [delivered, resumedBy, Body.received, hcache, hbody]
  rw [hdelivered]
  exact resumable_nil hcontent

theorem download_after_empty_body :
    ∃ file, (downloadArchive byteUrls byteOpener byteSource
      (downloadArchive byteUrls (bodyOpener ⟨[], none⟩) byteSource {}).2).1 = .ok file := by
  have hcontent : Matches byteArchive (hashBytes [1]) [1] := ⟨rfl, rfl⟩
  exact (download_after_attempts byteSource_pins rfl hcontent).2 _
    (.attempt _ .empty (harmless_of_empty hcontent rfl)) byteOpener byteOpener_honest

theorem wrong_byte_kept :
    (downloadArchive byteUrls (bodyOpener ⟨[[0]], none⟩) byteSource {}).2 = ⟨none, some [0]⟩ := by
  have hhash : hashBytes [0] ≠ hashBytes [1] := by decide +kernel
  have htransfer : transfer byteUrls (bodyOpener ⟨[[0]], none⟩) 1 ["example.test"] []
      (List.range (maxRedirects + 1)) byteSource.sourceUrl =
        receive 1 [] ⟨200, byteSource.sourceUrl, none, ⟨[[0]], none⟩⟩ := rfl
  have hverify : verifyArchive byteSource byteArchive (hashBytes [1]) [0] =
      .error (.hydration "archive SHA-256 mismatch for suite") := by
    simp only [verifyArchive, require, if_neg hhash]
    rfl
  have hfetch : fetchArchive byteUrls (bodyOpener ⟨[[0]], none⟩) byteSource byteArchive
      (hashBytes [1]) [] = (.error (.hydration "archive SHA-256 mismatch for suite"), [0]) := by
    have hreceived : transfer byteUrls (bodyOpener ⟨[[0]], none⟩) 1 ["example.test"] []
        (List.range (maxRedirects + 1)) byteSource.sourceUrl = (.ok (), [0]) :=
      htransfer.trans (receive_of_le (by decide))
    have hhost : sourceHost byteUrls byteSource = .ok "example.test" := rfl
    rw [fetchArchive_of_transfer hhost hreceived]
    simp only [bind, Except.bind, hverify]
  have hattempt : downloadArchive byteUrls (bodyOpener ⟨[[0]], none⟩) byteSource {} =
      finishAttempt 1 none (.error (.hydration "archive SHA-256 mismatch for suite"), [0]) :=
    congrArg (finishAttempt 1 none) hfetch
  rw [hattempt]
  decide

/-- One wrong byte is kept, and then a server that has the archive is never asked for it. -/
theorem wrong_byte_unrecoverable :
    ¬ ∀ cache, Reachable byteUrls byteSource (fun _ _ => True) cache →
      ∀ opener, Honest [1] opener →
        ∃ file, (downloadArchive byteUrls opener byteSource cache).1 = .ok file := by
  intro h
  have hreachable : Reachable byteUrls byteSource (fun _ _ => True)
      (downloadArchive byteUrls (bodyOpener ⟨[[0]], none⟩) byteSource {}).2 :=
    .attempt _ .empty trivial
  rw [wrong_byte_kept] at hreachable
  obtain ⟨file, hfile⟩ := h _ hreachable byteOpener byteOpener_honest
  cases hfile

end NovaRtl.Hydration
