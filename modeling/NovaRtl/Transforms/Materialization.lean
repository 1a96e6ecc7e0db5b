import NovaRtl.Planner.CouncilReturns
import NovaRtl.Transforms.Executor
import NovaRtl.Transforms.Syntax.Protection

/-!
# Workspaces of candidates

What a workspace holds once `materialize` returns, what is left when it raises, and what later
candidates leave alone. A copy goes through Python's universal newlines, so that it keeps the bytes
of a file exactly if there is no carriage return in it.

## Main results

* `materialize_publishes` — the workspace of a candidate against the sources of its parent.
* `raise_keeps_workspaces` — an error leaves all workspaces alone.
* `workspaces_persist` — a candidate's workspace agrees with its source hash from then on.
-/

namespace NovaRtl.Transforms

open Text Transact
open Syntax (Replaces)

/-! ## Sources read and written -/

section Sources

variable {paths : SourcePaths} {before after sources : Sources paths} {root : Directory}

theorem return_not_mem_universalNewlines (text : List Char) : '\r' ∉ universalNewlines text := by
  fun_induction universalNewlines text with
  | case1 => simp
  | case2 rest ih => simp [ih]
  | case3 c rest _ ih =>
    simp only [List.mem_cons, not_or]
    refine ⟨?_, ih⟩
    split
    · decide
    · next h => exact fun heq => h heq.symm

theorem universalNewlines_eq_self {text : List Char} :
    universalNewlines text = text ↔ '\r' ∉ text := by
  constructor
  · intro h
    rw [← h]
    exact return_not_mem_universalNewlines text
  · intro h
    fun_induction universalNewlines text with
    | case1 => rfl
    | case2 rest ih => simp at h
    | case3 c rest _ ih =>
      simp only [List.mem_cons, not_or] at h
      rw [if_neg (fun heq => h.1 heq.symm), ih h.2]

/-- What is read back of a text that is written. -/
def reread (text : String) : String := String.ofList (universalNewlines text.toList)

theorem reread_eq_self {text : String} : reread text = text ↔ '\r' ∉ text.toList := by
  rw [← universalNewlines_eq_self, reread, ← String.toList_inj, String.toList_ofList]

theorem reread_reread (text : String) : reread (reread text) = reread text := by
  rw [reread_eq_self, reread, String.toList_ofList]
  exact return_not_mem_universalNewlines text.toList

theorem readText_eq_some {bytes : ByteArray} {text : String} :
    readText bytes = some text ↔ ∃ raw, bytes = encode raw ∧ reread raw = text := by
  simp only [readText, Option.map_eq_some_iff, decode_eq_some, reread]

theorem readSource_eq_ok {path text : String} : readSource root path = .ok text ↔
    normalizedPath path ∧ ∃ raw, root path = .file (encode raw) ∧ reread raw = text := by
  unfold readSource
  rw [seq_eq_ok, require_eq_ok]
  refine and_congr_right fun _ => ?_
  cases hentry : root path with
  | absent => simp
  | escapes => simp
  | file bytes =>
    have hfile : (∃ raw, Entry.file bytes = .file (encode raw) ∧ reread raw = text) ↔
        readText bytes = some text := by
      simp [readText_eq_some]
    rw [hfile]
    cases hread : readText bytes <;> simp [hread]

theorem foldlM_readSource {order : List {path // path ∈ paths.paths}} {acc : Sources paths} :
    order.foldlM (readInto root) acc = .ok sources ↔
      (∀ path ∈ order, readSource root path.1 = .ok (sources path)) ∧
        ∀ path ∉ order, sources path = acc path := by
  induction order generalizing acc with
  | nil => simp [pure, Except.pure, funext_iff, eq_comm]
  | cons path order ih =>
    rw [List.forall_mem_cons]
    simp only [List.foldlM_cons, readInto, bind_eq_ok, pure, Except.pure, Except.ok.injEq, ih,
      List.mem_cons, not_or]
    constructor
    · rintro ⟨_, ⟨text, hread, rfl⟩, horder, hrest⟩
      have hpath : sources path = text := by
        by_cases hmem : path ∈ order
        · exact Except.ok.inj ((horder path hmem).symm.trans hread)
        · rw [hrest path hmem, Function.update_self]
      refine ⟨⟨hpath ▸ hread, horder⟩, fun other hother => ?_⟩
      rw [hrest other hother.2, Function.update_of_ne hother.1]
    · rintro ⟨⟨hread, horder⟩, hrest⟩
      refine ⟨_, ⟨_, hread, rfl⟩, horder, fun other hother => ?_⟩
      by_cases heq : other = path
      · rw [heq, Function.update_self]
      · rw [hrest other ⟨heq, hother⟩, Function.update_of_ne heq]

theorem readSources_eq_ok : readSources root = .ok sources ↔
    paths.paths ≠ [] ∧ ∀ path, readSource root path.1 = .ok (sources path) := by
  simp only [readSources, bind_eq_ok, pure, Except.pure, Except.ok.injEq, foldlM_readSource,
    require_eq_ok]
  constructor
  · rintro ⟨read, ⟨hread, -⟩, -, hne, rfl⟩
    exact ⟨hne, fun path => hread path (mem_sortedPaths path)⟩
  · rintro ⟨hne, hread⟩
    exact ⟨sources, ⟨fun path _ => hread path, fun path h => absurd (mem_sortedPaths path) h⟩, (),
      hne, rfl⟩

theorem foldl_stage (order : List {path // path ∈ paths.paths}) (staging : Directory)
    (path : String) :
    order.foldl (fun staging path => staging.writeText path.1 (sources path)) staging path =
      if h : ∃ hmem, (⟨path, hmem⟩ : {path // path ∈ paths.paths}) ∈ order then
        .file (encode (sources ⟨path, h.1⟩)) else staging path := by
  induction order generalizing staging with
  | nil => simp
  | cons first order ih =>
    rw [List.foldl_cons, ih]
    by_cases hrest : ∃ hmem, (⟨path, hmem⟩ : {path // path ∈ paths.paths}) ∈ order
    · have hcons : ∃ hmem, (⟨path, hmem⟩ : {path // path ∈ paths.paths}) ∈ first :: order :=
        hrest.imp fun _ => List.mem_cons_of_mem first
      rw [dif_pos hrest, dif_pos hcons]
    · rw [dif_neg hrest]
      by_cases hfirst : path = first.1
      · subst hfirst
        rw [Directory.writeText_self, dif_pos ⟨first.2, List.mem_cons_self⟩]
      · rw [Directory.writeText_of_ne hfirst, dif_neg]
        rintro ⟨hmem, hcons⟩
        rcases List.mem_cons.mp hcons with heq | hcons
        · exact hfirst (congrArg Subtype.val heq)
        · exact hrest ⟨hmem, hcons⟩

theorem stage_of_mem (path : {path // path ∈ paths.paths}) :
    stage sources path.1 = .file (encode (sources path)) := by
  rw [stage, foldl_stage, dif_pos ⟨path.2, mem_sortedPaths path⟩]

theorem stage_of_not_mem {path : String} (h : path ∉ paths.paths) :
    stage sources path = .absent := by
  rw [stage, foldl_stage, dif_neg (fun hmem => h hmem.1)]

theorem changedPaths_eq_singleton {path : String} (h : changedPaths before after = [path]) :
    ∃ target : {path // path ∈ paths.paths}, target.1 = path ∧
      ∀ other, before other ≠ after other ↔ other = target := by
  obtain ⟨target, hfilter, rfl⟩ := List.map_eq_singleton_iff.mp h
  refine ⟨target, rfl, fun other => ?_⟩
  have hmem : other ∈ (sortedPaths paths).filter (fun path => before path ≠ after path) ↔
      other = target := by
    rw [hfilter, List.mem_singleton]
  rw [← hmem, List.mem_filter]
  simp [mem_sortedPaths]

/-- A snapshot determines the sources. -/
theorem snapshotBytes_injective (h : snapshotBytes before = snapshotBytes after) :
    before = after := by
  have hjson : Json.sortKeys (snapshotJson before) = Json.sortKeys (snapshotJson after) := by
    have htext := Option.get_inj.mp (encode_injective h)
    obtain ⟨text, hbefore⟩ := Option.isSome_iff_exists.mp
      (Json.isSome_dumps.mpr (snapshotJson_writable before))
    exact Json.sortKeys_eq_of_dumps hbefore (htext.symm.trans hbefore)
  have hfiles : (sortedPaths paths).map (Json.sortKeys ∘ snapshotFile before) =
      (sortedPaths paths).map (Json.sortKeys ∘ snapshotFile after) := by
    have hfield (sources : Sources paths) :
        ("files", Json.arr ((sortedPaths paths).map (snapshotFile sources))) ∈
          [("schema_version", .int 1),
            ("files", .arr ((sortedPaths paths).map (snapshotFile sources)))] := by
      simp
    have hvalue := Json.sortKeys_obj_value hjson (by simp) (hfield before) (hfield after)
    simpa only [Json.sortKeys, Json.sortItems_eq_map, List.map_map, Json.arr.injEq] using hvalue
  funext path
  have hfile := List.map_inj_left.mp hfiles path (mem_sortedPaths path)
  have hfield (sources : Sources paths) : ("text", (.str (sources path) : Json Empty)) ∈
      [("relative_path", .str path.1), ("sha256", .str (sha256Text (encode (sources path)))),
        ("text", .str (sources path))] := by
    simp
  have htext := Json.sortKeys_obj_value hfile (by simp) (hfield before) (hfield after)
  simpa only [Json.sortKeys, Json.str.injEq] using htext

end Sources

/-! ## Drafts -/

variable {φ Context Match Parameters : Type}
  {executor : TransformExecutor φ Context Match Parameters}
  {request : MaterializationRequest φ Context} {around : Surroundings} {s t u : Workspaces}
  {result : MaterializedCandidate} {e : ExecutorError}

/-- A copy of the parent's sources in which one source is edited. -/
structure IsEdited (request : MaterializationRequest φ Context)
    (copy : EditedCopy request.sourcePaths) (edit : SourceEdit)
    (target : {path // path ∈ request.sourcePaths.paths}) (rewritten : String)
    (startOffset endOffset : ℕ) : Prop where
  parent : readSources request.parentRoot = .ok copy.before
  target_eq : target.1 = request.authorizedSpan.relativePath
  within : ¬ (edit.start < request.authorizedSpan.start ∨ request.authorizedSpan.stop < edit.stop)
  replaces : Replaces edit (copy.before target) rewritten startOffset endOffset
  edited : copy.staging target.1 = .file (encode rewritten)
  others : ∀ path ≠ target, copy.staging path.1 = .file (encode (copy.before path))
  absent : ∀ path ∉ request.sourcePaths.paths, copy.staging path = .absent
  reread : readSources copy.staging = .ok copy.after
  changed : ∀ path, copy.before path ≠ copy.after path ↔ path = target

theorem mapError_eq_ok {ε ε' α : Type} {x : Except ε α} {f : ε → ε'} {a : α} :
    x.mapError f = .ok a ↔ x = .ok a := by
  cases x <;> simp [Except.mapError]

theorem editCopy_eq_ok {edit : SourceEdit} {kinds : List String}
    {copy : EditedCopy request.sourcePaths}
    (h : executor.editCopy request around edit kinds = .ok copy) :
    ∃ target rewritten startOffset endOffset,
      IsEdited request copy edit target rewritten startOffset endOffset := by
  simp only [TransformExecutor.editCopy, bind_eq_ok, require_eq_ok, mapError_eq_ok, pure,
    Except.pure, Except.ok.injEq, Prod.exists] at h
  obtain ⟨before, hbefore, -, -, applied, staging, happly, after, hafter, -, hchanged, rfl⟩ := h
  obtain ⟨target, htarget, honly⟩ := changedPaths_eq_singleton hchanged
  obtain ⟨hauthority, source, rewritten, hsource, hrewritten, rfl⟩ :=
    Syntax.applyAuthorizedEdit_eq_ok happly
  obtain ⟨startOffset, endOffset, hreplaces⟩ := Syntax.rewriteSource_eq_ok hrewritten
  simp only [Syntax.checkAuthority, bind_eq_ok, require_eq_ok] at hauthority
  obtain ⟨-, hpath, -, -, -, hwithin, -⟩ := hauthority
  have hedited : edit.relativePath = target.1 := hpath.trans htarget.symm
  obtain ⟨-, raw, -, hraw⟩ := readSource_eq_ok.mp ((readSources_eq_ok.mp hbefore).2 target)
  obtain rfl : source = before target := by
    obtain ⟨bytes, hbytes, htext⟩ := Syntax.readSource_eq_ok.mp hsource
    rw [hedited, stage_of_mem, Entry.file.injEq] at hbytes
    obtain ⟨text, hencode, hreread⟩ := readText_eq_some.mp htext
    obtain rfl := encode_injective (hbytes.trans hencode)
    rw [← hreread, ← hraw, reread_reread]
  have hothers : ∀ path ≠ target,
      (stage before).writeText edit.relativePath rewritten path.1 =
        .file (encode (before path)) := by
    intro path hne
    rw [Directory.writeText_of_ne fun heq => hne (Subtype.ext (heq.trans hedited)), stage_of_mem]
  have habsent : ∀ path ∉ request.sourcePaths.paths,
      (stage before).writeText edit.relativePath rewritten path = .absent := by
    intro path hmem
    have hne : path ≠ edit.relativePath := by
      rintro rfl
      exact hmem (hedited ▸ target.2)
    rw [Directory.writeText_of_ne hne, stage_of_not_mem hmem]
  have htext : (stage before).writeText edit.relativePath rewritten target.1 =
      .file (encode rewritten) := by
    rw [hedited, Directory.writeText_self]
  exact ⟨target, rewritten, startOffset, endOffset, hbefore, htarget, hwithin, hreplaces,
    htext, hothers, habsent, hafter, honly⟩

/-- A source that is not edited keeps its bytes exactly if it has no carriage return. -/
theorem IsEdited.copies_iff {copy : EditedCopy request.sourcePaths} {edit : SourceEdit}
    {target path : {path // path ∈ request.sourcePaths.paths}} {rewritten : String}
    {startOffset endOffset : ℕ}
    (h : IsEdited request copy edit target rewritten startOffset endOffset) (hne : path ≠ target) :
    copy.staging path.1 = request.parentRoot path.1 ↔
      ∀ raw, request.parentRoot path.1 = .file (encode raw) → '\r' ∉ raw.toList := by
  obtain ⟨-, raw, hraw, hread⟩ := readSource_eq_ok.mp ((readSources_eq_ok.mp h.parent).2 path)
  rw [h.others path hne, hraw, ← hread, Entry.file.injEq]
  constructor
  · intro heq other hother
    obtain rfl := encode_injective (Entry.file.inj hother)
    exact reread_eq_self.mp (encode_injective heq)
  · intro hclean
    rw [reread_eq_self.mpr (hclean raw rfl)]

/-- What the workspace, the artifacts and the name of a candidate are made of. -/
structure Draft.Sound (F : Floats φ) (request : MaterializationRequest φ Context)
    (draft : Draft request.sourcePaths) : Prop where
  edited : ∃ edit target rewritten startOffset endOffset,
    IsEdited request draft.toEditedCopy edit target rewritten startOffset endOffset
  patch_ne : patchBytes draft.before draft.after ≠ ByteArray.empty
  snapshot : ∃ mtime,
    draft.snapshotRef = (snapshotCall (snapshotBytes draft.after)).ref mtime
  patch : ∃ mtime,
    draft.patchRef = (patchCall (patchBytes draft.before draft.after)).ref mtime
  identity : ∃ digest, canonicalSha256 F (identityJson request.parentCandidateId request.proposal
    draft.snapshotRef.sha256 draft.patchRef.sha256 draft.fingerprint) = some digest ∧
      draft.candidateId = candidateIdOf digest

theorem ref_sha256 (call : Artifacts.Call) (mtime : Scheduler.Instant) :
    (call.ref mtime).sha256 = sha256Text call.data := by
  simp [Artifacts.Call.ref, Artifacts.Call.digest, Artifacts.digestOf, sha256Text,
    ← String.toList_inj, hashPrefix]

theorem put_eq_ok {call : Artifacts.Call} {ref : Scheduler.ArtifactRef}
    (h : TransformExecutor.put around call = .ok ref) : ∃ mtime, ref = call.ref mtime := by
  obtain ⟨mtime, -, rfl⟩ := map_eq_ok.mp h
  exact ⟨mtime, rfl⟩

theorem draft_eq_ok {draft : Draft request.sourcePaths}
    (h : executor.draft request around = .ok draft) : draft.Sound executor.floats request := by
  simp only [TransformExecutor.draft, bind_eq_ok, require_eq_ok] at h
  obtain ⟨rewrite, -, copy, hcopy, -, hpatch, snapshotRef, hsnapshotRef, patchRef, hpatchRef, h⟩ :=
    h
  split at h
  · cases h
  · next digest hdigest =>
    obtain rfl := Except.ok.inj h
    obtain ⟨target, rewritten, startOffset, endOffset, hedited⟩ := editCopy_eq_ok hcopy
    exact ⟨⟨_, target, rewritten, startOffset, endOffset, hedited⟩, hpatch, put_eq_ok hsnapshotRef,
      put_eq_ok hpatchRef, digest, hdigest, rfl⟩

theorem Draft.Sound.reread {F : Floats φ} {draft : Draft request.sourcePaths}
    (h : draft.Sound F request) :
    readSources draft.staging = .ok draft.after := by
  obtain ⟨edit, target, rewritten, startOffset, endOffset, hedited⟩ := h.edited
  exact hedited.reread

/-! ## Publication -/

/-- The workspace of a draft was there and agrees with it, or the copy has become the workspace. -/
inductive Published {paths : SourcePaths} (draft : Draft paths) (s t : Workspaces) : Prop where
  | created (hnone : s draft.candidateId = none)
      (ht : t = Function.update s draft.candidateId (some draft.staging))
  | confirmed (workspace : Directory) (hsome : s draft.candidateId = some workspace)
      (hread : readSources workspace = .ok draft.after) (ht : t = s)

theorem publish_ends {paths : SourcePaths} (draft : Draft paths) :
    EndsIn (TransformExecutor.publish around draft) s (fun _ t => Published draft s t)
      fun _ t => t = s := by
  unfold TransformExecutor.publish
  refine EndsIn.bind (EndsIn.get ?_)
  cases hworkspace : s draft.candidateId with
  | none =>
    refine EndsIn.bind (EndsIn.check (fun _ => ?_) fun _ => rfl)
    refine EndsIn.bind (EndsIn.check (fun _ => ?_) fun _ => rfl)
    exact EndsIn.modify (.created hworkspace rfl)
  | some workspace =>
    refine EndsIn.bind (EndsIn.ofExcept (fun existing hexisting => ?_) fun _ _ => rfl)
    refine EndsIn.check (fun hsame => ?_) fun _ => rfl
    exact .confirmed workspace hworkspace (snapshotBytes_injective hsame ▸ hexisting) rfl

/-! ## Records -/

/-- The name of a candidate is an identifier. -/
theorem candidateIdOf_valid (digest : HashRef) : isEntityId (candidateIdOf digest) := by
  have hlength := length_hashRef digest
  have hvalid := digest.2
  simp only [isHashRef, Bool.and_eq_true] at hvalid
  have hdigits : (hashDigits digest.val).toList = digest.val.toList.drop hashPrefix.length := by
    rw [hashDigits, if_pos hvalid.1.1, String.toList_ofList]
  have hhex : ∀ c ∈ (digest.val.toList.drop hashPrefix.length).take 24,
      (c.isLower || c.isDigit || c = '_') = true := by
    intro c hc
    have hc := List.all_eq_true.mp hvalid.2 c (List.mem_of_mem_take hc)
    rcases Bool.or_eq_true _ _ |>.mp hc with hdigit | hletter
    · simp [hdigit]
    · have hlower : c.isLower = true := by
        delta Char.isLower
        simp only [Bool.and_eq_true, decide_eq_true_eq, Char.le_def] at hletter
        grind
      simp [hlower]
  have hcount : ((digest.val.toList.drop hashPrefix.length).take 24).length = 24 := by
    simp [hlength]
  have hchars : (candidateIdOf digest).toList =
      'c' :: (['a', 'n', 'd', '_'] ++ (digest.val.toList.drop hashPrefix.length).take 24) := by
    simp [candidateIdOf, hdigits]
  simp only [isEntityId, hchars, List.all_append, List.length_append, hcount, Bool.and_eq_true,
    decide_eq_true_eq]
  exact ⟨⟨⟨by decide, by decide, List.all_eq_true.mpr hhex⟩, by decide⟩, by decide⟩

/-- What `CandidateRecord` demands of a candidate. -/
structure Recordable (request : MaterializationRequest φ Context)
    (draft : Draft request.sourcePaths) : Prop where
  candidate_id : isEntityId draft.candidateId
  run_id : isEntityId request.runId
  parent_id : isEntityId request.parentCandidateId
  lineageDepth_pos : 0 < request.lineageDepth
  span_id : isEntityId request.authorizedSpan.sourceSpanId
  fingerprint : isFingerprint draft.fingerprint
  parent_ne : request.parentCandidateId ≠ draft.candidateId
  artifacts_ne : draft.snapshotRef.artifactId ≠ draft.patchRef.artifactId
  strict : request.proposal.correctness.contract = .strictSeqEquiv

theorem record_eq_ok {draft : Draft request.sourcePaths} {candidate : CandidateRecord} :
    TransformExecutor.record request draft = .ok candidate ↔ Recordable request draft ∧
      candidate = {
        candidateId := draft.candidateId
        runId := request.runId
        parentCandidateId := request.parentCandidateId
        lineageDepth := request.lineageDepth
        proposalId := request.proposal.proposalId.val
        opportunityId := request.proposal.opportunityId.val
        rtlSnapshotArtifact := draft.snapshotRef
        patchArtifact := draft.patchRef
        sourceHash := draft.snapshotRef.sha256
        changedSpans := [request.authorizedSpan.sourceSpanId]
        transformFingerprint := draft.fingerprint
        requiredCorrectnessContract := request.proposal.correctness.contract
        createdAt := request.createdAt } := by
  simp only [TransformExecutor.record, bind_eq_ok, require_eq_ok, pure, Except.pure,
    Except.ok.injEq]
  constructor
  · rintro ⟨-, ⟨hid, hrun, hparent, hdepth, hspan, hfingerprint⟩, -, hne, -, hartifacts, -, hstrict,
      rfl⟩
    exact ⟨⟨hid, hrun, hparent, hdepth, hspan, hfingerprint, hne, hartifacts, hstrict⟩, rfl⟩
  · rintro ⟨h, rfl⟩
    exact ⟨(), ⟨h.candidate_id, h.run_id, h.parent_id, h.lineageDepth_pos, h.span_id,
      h.fingerprint⟩, (), h.parent_ne, (), h.artifacts_ne, (), h.strict, rfl⟩

/-! ## One candidate -/

theorem materialize_eq_ok : executor.materialize request around s = .ok result t ↔
    ∃ draft, executor.draft request around = .ok draft ∧
      TransformExecutor.publish around draft s = .ok () t ∧ ∃ candidate,
        TransformExecutor.record request draft = .ok candidate ∧
          result = ⟨candidate, draft.candidateId, draft.applied⟩ := by
  simp only [TransformExecutor.materialize, bind_ok, ofExcept_ok, pure_ok]
  constructor
  · rintro ⟨draft, _, ⟨hdraft, rfl⟩, ⟨⟩, _, hpublish, candidate, _, ⟨hrecord, rfl⟩, rfl, rfl⟩
    exact ⟨draft, hdraft, hpublish, candidate, hrecord, rfl⟩
  · rintro ⟨draft, hdraft, hpublish, candidate, hrecord, rfl⟩
    exact ⟨draft, s, ⟨hdraft, rfl⟩, (), t, hpublish, candidate, t, ⟨hrecord, rfl⟩, rfl, rfl⟩

theorem materialize_rejects {draft : Draft request.sourcePaths}
    (hdraft : executor.draft request around = .ok draft)
    (hpublish : TransformExecutor.publish around draft s = .ok () t)
    (hrecord : TransformExecutor.record request draft = .error e) :
    executor.materialize request around s = .error e t := by
  have hdrafted : (ofExcept (executor.draft request around) :
      EStateM ExecutorError Workspaces _) s = .ok draft s := by
    rw [hdraft]
    rfl
  have hrecorded : (ofExcept (TransformExecutor.record request draft) :
      EStateM ExecutorError Workspaces _) t = .error e t := by
    rw [hrecord]
    rfl
  simp only [TransformExecutor.materialize, bind, EStateM.bind, hdrafted, hpublish, hrecorded]

/-- The workspace of a candidate is a copy of its parent's sources with one authorized edit, or it
was there and reads as that copy. The artifacts of the candidate are its snapshot and its patch. -/
theorem materialize_publishes (h : executor.materialize request around s = .ok result t) :
    ∃ (draft : Draft request.sourcePaths) (edit : SourceEdit)
        (target : {path // path ∈ request.sourcePaths.paths}) (rewritten : String)
        (startOffset endOffset : ℕ),
      IsEdited request draft.toEditedCopy edit target rewritten startOffset endOffset ∧
        (∀ path ≠ target, (draft.staging path.1 = request.parentRoot path.1 ↔
          ∀ raw, request.parentRoot path.1 = .file (encode raw) → '\r' ∉ raw.toList)) ∧
        Published draft s t ∧ draft.candidateId = result.workspace ∧
        result.candidate.candidateId = result.workspace ∧
        result.candidate.sourceHash = sha256Text (snapshotBytes draft.after) ∧
        result.candidate.patchArtifact.sha256 = sha256Text (patchBytes draft.before draft.after) ∧
        patchBytes draft.before draft.after ≠ ByteArray.empty := by
  obtain ⟨draft, hdraft, hpublish, candidate, hrecord, rfl⟩ := materialize_eq_ok.mp h
  have hsound := draft_eq_ok hdraft
  obtain ⟨edit, target, rewritten, startOffset, endOffset, hedited⟩ := hsound.edited
  obtain ⟨mtime, hsnapshot⟩ := hsound.snapshot
  obtain ⟨mtime', hpatch⟩ := hsound.patch
  obtain ⟨-, rfl⟩ := record_eq_ok.mp hrecord
  refine ⟨draft, edit, target, rewritten, startOffset, endOffset, hedited,
    fun path hne => hedited.copies_iff hne, (publish_ends draft).of_ok hpublish, rfl, rfl, ?_, ?_,
    hsound.patch_ne⟩
  · simp only [hsnapshot]
    exact ref_sha256 _ _
  · simp only [hpatch]
    exact ref_sha256 _ _

theorem materialize_ends : EndsIn (executor.materialize request around) s
    (fun _ t => ∃ draft : Draft request.sourcePaths, draft.Sound executor.floats request ∧
      Published draft s t)
    (fun _ t => t = s ∨ ∃ draft : Draft request.sourcePaths,
      draft.Sound executor.floats request ∧ Published draft s t ∧ ¬ Recordable request draft) := by
  refine EndsIn.bind (EndsIn.ofExcept (fun draft hdraft => ?_) fun _ _ => .inl rfl)
  have hsound := draft_eq_ok hdraft
  refine EndsIn.bind ((publish_ends draft).mono (fun _ t hpublished => ?_) fun _ _ => .inl)
  refine EndsIn.bind (EndsIn.ofExcept (fun _ _ => ?_) fun e hrecord => ?_)
  · exact EndsIn.pure ⟨draft, hsound, hpublished⟩
  · refine .inr ⟨draft, hsound, hpublished, fun hrecordable => ?_⟩
    rw [record_eq_ok.mpr ⟨hrecordable, rfl⟩] at hrecord
    cases hrecord

/-- An error leaves all workspaces alone, unless `CandidateRecord` rejects a candidate whose
workspace has been published. -/
theorem raise_keeps_workspaces (h : executor.materialize request around s = .error e t) :
    t = s ∨ ∃ draft : Draft request.sourcePaths, draft.Sound executor.floats request ∧
      s draft.candidateId = none ∧
      t = Function.update s draft.candidateId (some draft.staging) ∧
      ¬ Recordable request draft := by
  obtain rfl | ⟨draft, hsound, hpublished, hrejected⟩ := materialize_ends.of_error h
  · exact .inl rfl
  cases hpublished with
  | created hnone ht => exact .inr ⟨draft, hsound, hnone, ht, hrejected⟩
  | confirmed _ _ _ ht => exact .inl ht

/-! ## Runs -/

/-- One call, however it ends. -/
inductive TransformExecutor.Step (executor : TransformExecutor φ Context Match Parameters)
    (s t : Workspaces) : Prop where
  | returns (request : MaterializationRequest φ Context) (around : Surroundings)
      (result : MaterializedCandidate)
      (h : executor.materialize request around s = .ok result t)
  | raises (request : MaterializationRequest φ Context) (around : Surroundings)
      (e : ExecutorError) (h : executor.materialize request around s = .error e t)

def TransformExecutor.Run (executor : TransformExecutor φ Context Match Parameters) :
    Workspaces → Workspaces → Prop :=
  Relation.ReflTransGen executor.Step

/-- Nothing is added, or the workspace of a draft is. -/
def TransformExecutor.Adds (executor : TransformExecutor φ Context Match Parameters)
    (s t : Workspaces) : Prop :=
  t = s ∨ ∃ (request : MaterializationRequest φ Context) (draft : Draft request.sourcePaths),
    draft.Sound executor.floats request ∧ s draft.candidateId = none ∧
      t = Function.update s draft.candidateId (some draft.staging)

theorem Published.adds {draft : Draft request.sourcePaths} (h : Published draft s t)
    (hsound : draft.Sound executor.floats request) : executor.Adds s t := by
  cases h with
  | created hnone ht => exact .inr ⟨request, draft, hsound, hnone, ht⟩
  | confirmed _ _ _ ht => exact .inl ht

theorem step_adds (h : executor.Step s t) : executor.Adds s t := by
  cases h with
  | returns request around result h =>
    obtain ⟨draft, hsound, hpublished⟩ := materialize_ends.of_ok h
    exact hpublished.adds hsound
  | raises request around e h =>
    obtain rfl | ⟨draft, hsound, hpublished, -⟩ := materialize_ends.of_error h
    · exact .inl rfl
    · exact hpublished.adds hsound

theorem step_keeps (h : executor.Step s t) {id : String} {workspace : Directory}
    (hworkspace : s id = some workspace) : t id = some workspace := by
  obtain rfl | ⟨request, draft, -, hnone, rfl⟩ := step_adds h
  · exact hworkspace
  · rw [Function.update_of_ne, hworkspace]
    rintro rfl
    rw [hnone] at hworkspace
    cases hworkspace

theorem run_keeps (h : executor.Run s t) {id : String} {workspace : Directory}
    (hworkspace : s id = some workspace) : t id = some workspace := by
  induction h with
  | refl => exact hworkspace
  | tail _ hstep ih => exact step_keeps hstep ih

def noWorkspaces : Workspaces := fun _ => none

/-- The workspace is a whole copy with one edit. -/
def Complete (executor : TransformExecutor φ Context Match Parameters) (id : String)
    (workspace : Directory) : Prop :=
  ∃ (request : MaterializationRequest φ Context) (draft : Draft request.sourcePaths),
    draft.Sound executor.floats request ∧ id = draft.candidateId ∧ workspace = draft.staging

/-- However the calls end, no workspace is ever partial. -/
theorem workspaces_complete (hrun : executor.Run noWorkspaces t) {id : String}
    {workspace : Directory} (hworkspace : t id = some workspace) :
    Complete executor id workspace := by
  induction hrun generalizing id workspace with
  | refl => cases hworkspace
  | tail _ hstep ih =>
    obtain rfl | ⟨request, draft, hsound, -, rfl⟩ := step_adds hstep
    · exact ih hworkspace
    · by_cases hid : id = draft.candidateId
      · subst hid
        rw [Function.update_self, Option.some.injEq] at hworkspace
        exact ⟨request, draft, hsound, rfl, hworkspace.symm⟩
      · rw [Function.update_of_ne hid] at hworkspace
        exact ih hworkspace

/-- A published draft has a workspace that reads as its sources. -/
theorem Published.reads {F : Floats φ} {draft : Draft request.sourcePaths}
    (h : Published draft s t) (hsound : draft.Sound F request) :
    ∃ workspace, t draft.candidateId = some workspace ∧
      readSources workspace = .ok draft.after := by
  cases h with
  | created hnone ht => exact ⟨draft.staging, by rw [ht, Function.update_self], hsound.reread⟩
  | confirmed workspace hsome hread ht => exact ⟨workspace, ht ▸ hsome, hread⟩

theorem publish_again {paths : SourcePaths} {draft : Draft paths} {workspace : Directory}
    (hworkspace : s draft.candidateId = some workspace)
    (hread : readSources workspace = .ok draft.after) :
    TransformExecutor.publish around draft s = .ok () s := by
  simp only [TransformExecutor.publish, bind_ok, get_ok]
  refine ⟨s, s, ⟨rfl, rfl⟩, ?_⟩
  rw [hworkspace]
  exact ofExcept_bind_ok.mpr ⟨draft.after, hread, check_ok.mpr ⟨rfl, rfl⟩⟩

/-- From then on the workspace of a candidate reads as the sources that its source hash binds, and
the same request is answered with the same candidate and changes nothing. -/
theorem workspaces_persist (h : executor.materialize request around s = .ok result t)
    (hrun : executor.Run t u) :
    (∃ workspace, ∃ sources : Sources request.sourcePaths,
      u result.workspace = some workspace ∧ readSources workspace = .ok sources ∧
        result.candidate.sourceHash = sha256Text (snapshotBytes sources)) ∧
      executor.materialize request around u = .ok result u := by
  obtain ⟨draft, hdraft, hpublish, candidate, hrecord, rfl⟩ := materialize_eq_ok.mp h
  have hsound := draft_eq_ok hdraft
  obtain ⟨workspace, hworkspace, hread⟩ :=
    ((publish_ends draft).of_ok hpublish).reads hsound
  have hkept := run_keeps hrun hworkspace
  obtain ⟨mtime, hsnapshot⟩ := hsound.snapshot
  obtain ⟨-, hcandidate⟩ := record_eq_ok.mp hrecord
  have hhash : candidate.sourceHash = sha256Text (snapshotBytes draft.after) := by
    rw [hcandidate, hsnapshot]
    exact ref_sha256 (snapshotCall _) mtime
  exact ⟨⟨workspace, draft.after, hkept, hread, hhash⟩,
    materialize_eq_ok.mpr ⟨draft, hdraft, publish_again hkept hread, candidate, hrecord, rfl⟩⟩

/-! ## A project with one source -/

section Sample

def samplePaths : SourcePaths where
  paths := ["rtl/a.sv"]
  nodup := List.nodup_singleton _
  printable := by
    intro path hpath
    obtain rfl := List.mem_singleton.mp hpath
    exact List.forall_iff_forall_mem.mp (by decide)

def sampleBefore : Sources samplePaths := fun _ => Syntax.sampleSource

def sampleAfter : Sources samplePaths := fun _ => Syntax.sampleRewritten

def sampleCapability : TransformCapability Unit Unit Unit Unit where
  metadata := ⟨⟨Planner.balanceBooleanTree, Planner.logicRestructuring, .strictSeqEquiv⟩,
    ["ExpressionStatement"]⟩
  parameterModel _ := .ok ()
  matchContext _ := .ok (some ())
  preflight _ _ := .ok ()
  rewrite _ _ := .ok Syntax.sampleEdit
  fingerprint _ _ := .ok "balance_boolean_tree:v1:tree"

def sampleExecutor : TransformExecutor Unit Unit Unit Unit where
  registry := ⟨[sampleCapability], List.nodup_singleton _⟩
  floats := Planner.halfFloats
  hashes := Syntax.sampleHashes

def sampleRequest (lineageDepth : ℤ) : MaterializationRequest Unit Unit where
  runId := "run_one"
  parentCandidateId := Planner.sampleCandidate.val
  parentRoot := Syntax.sampleRoot
  sourcePaths := samplePaths
  proposal := Planner.areaProposal
  authorizedSpan := { Syntax.sampleAuthorized with sourceSpanId := Planner.sampleSpan.val }
  protectedSpans := []
  parsedAst := Syntax.sampleAst
  transformContext := ()
  lineageDepth
  createdAt := 0

def calm : Surroundings where
  putBytes _ := .ok 0
  fails _ := false

variable (depth : ℤ)

theorem sample_resolve :
    sampleExecutor.registry.resolve Planner.balanceBooleanTree = .ok sampleCapability := by
  simp [TransformRegistry.resolve, sampleExecutor, sampleCapability]

theorem sample_rewrite : sampleExecutor.rewrite (sampleRequest depth) =
    .ok ⟨Syntax.sampleEdit, ["ExpressionStatement"], "balance_boolean_tree:v1:tree"⟩ := by
  have hoperation : (sampleRequest depth).proposal.transformation.operation =
      Planner.balanceBooleanTree := rfl
  simp only [TransformExecutor.rewrite, hoperation, sample_resolve, bind_eq_ok, require_eq_ok,
    mapError_eq_ok]
  exact ⟨(), rfl, (), rfl, _, rfl, (), rfl, (), rfl, (), rfl, some (), rfl, rfl⟩

theorem samplePath_normalized : normalizedPath "rtl/a.sv" := Syntax.sampleEdit.path_normalized

theorem sample_reread : reread Syntax.sampleSource = Syntax.sampleSource ∧
    reread Syntax.sampleRewritten = Syntax.sampleRewritten := by
  decide +kernel

theorem sample_parent : readSources Syntax.sampleRoot = .ok sampleBefore := by
  refine readSources_eq_ok.mpr ⟨List.cons_ne_nil _ _, fun path => ?_⟩
  obtain ⟨path, hpath⟩ := path
  obtain rfl := List.mem_singleton.mp hpath
  exact readSource_eq_ok.mpr ⟨samplePath_normalized, Syntax.sampleSource,
    Function.update_self .., sample_reread.1⟩

theorem sample_staging :
    readSources ((stage sampleBefore).writeText "rtl/a.sv" Syntax.sampleRewritten) =
      .ok sampleAfter := by
  refine readSources_eq_ok.mpr ⟨List.cons_ne_nil _ _, fun path => ?_⟩
  obtain ⟨path, hpath⟩ := path
  obtain rfl := List.mem_singleton.mp hpath
  exact readSource_eq_ok.mpr ⟨samplePath_normalized, Syntax.sampleRewritten,
    Directory.writeText_self .., sample_reread.2⟩

theorem sample_source : Syntax.readSource (stage sampleBefore) "rtl/a.sv" =
    .ok Syntax.sampleSource := by
  have hpath : "rtl/a.sv" ∈ samplePaths.paths := List.mem_singleton_self _
  refine Syntax.readSource_eq_ok.mpr ⟨_, stage_of_mem ⟨_, hpath⟩, ?_⟩
  exact readText_eq_some.mpr ⟨_, rfl, sample_reread.1⟩

theorem sample_copy : ∃ copy, sampleExecutor.editCopy (sampleRequest depth) calm Syntax.sampleEdit
    ["ExpressionStatement"] = .ok copy ∧
      patchBytes copy.before copy.after = patchBytes sampleBefore sampleAfter ∧
      snapshotBytes copy.after = snapshotBytes sampleAfter := by
  have happly : ∃ applied, Syntax.applyAuthorizedEdit Syntax.sampleHashes (stage sampleBefore)
      Syntax.sampleAst { Syntax.sampleAuthorized with sourceSpanId := Planner.sampleSpan.val } []
      Syntax.sampleEdit ["ExpressionStatement"] =
        .ok (applied, (stage sampleBefore).writeText "rtl/a.sv" Syntax.sampleRewritten) := by
    have hsource : Syntax.readSource (stage sampleBefore) Syntax.sampleEdit.relativePath =
        .ok Syntax.sampleSource := sample_source
    have hauthority : Syntax.checkAuthority Syntax.sampleAst
        { Syntax.sampleAuthorized with sourceSpanId := Planner.sampleSpan.val } []
        Syntax.sampleEdit ["ExpressionStatement"] = .ok () := by
      decide +kernel
    simp only [Syntax.applyAuthorizedEdit, hauthority, hsource]
    exact ⟨_, rfl⟩
  obtain ⟨applied, happly⟩ := happly
  have hchanged : changedPaths sampleBefore sampleAfter = ["rtl/a.sv"] := by decide +kernel
  refine ⟨⟨sampleBefore, sampleAfter,
    (stage sampleBefore).writeText "rtl/a.sv" Syntax.sampleRewritten, applied⟩, ?_, rfl, rfl⟩
  simp only [TransformExecutor.editCopy, bind_eq_ok, require_eq_ok, mapError_eq_ok, pure,
    Except.pure, Except.ok.injEq, Prod.exists]
  exact ⟨sampleBefore, sample_parent, (), rfl, applied, _, happly, sampleAfter, sample_staging, (),
    hchanged, rfl⟩

theorem firstDigits_digestOf (chars : List Char) :
    (Artifacts.digestOf (encode (String.ofList chars))).toList.take 8 = Sha256.hexWord
      (Sha256.quickDigest ((chars.flatMap String.utf8EncodeChar).map UInt8.toNat)).a := by
  rw [Artifacts.digestOf, String.toList_ofList, Sha256.hexOfBytes_encode_ofList,
    Sha256.take_hexDigest, Sha256.quickDigest_eq]

def samplePatch : List Char :=
  "--- a/rtl/a.sv\n+++ b/rtl/a.sv\n@@ -1 +1 @@\n-c = a ^ b;\n+c = b ^ a;\n".toList

def sampleSnapshot : List Char :=
  "\x7b\"files\":[\x7b\"relative_path\":\"rtl/a.sv\",\"sha256\":\"sha256:".toList ++
    "62ec3ef86ba286cccc52616f516a9d13649afcb8120ec884a84fdd11bc32c3aa".toList ++
    "\",\"text\":\"c = b ^ a;\\n\"\x7d],\"schema_version\":1\x7d".toList

/-- What is put into the store. -/
theorem sampleBytes_eq : patchBytes sampleBefore sampleAfter = encode (String.ofList samplePatch) ∧
    snapshotBytes sampleAfter = encode (String.ofList sampleSnapshot) := by
  have hlines : joinLines (patchLines sampleBefore sampleAfter) = samplePatch := by decide +kernel
  refine ⟨by rw [patchBytes, hlines], ?_⟩
  have htext := dumps_eq_some (Option.some_get
    (Json.isSome_dumps (F := noFloats) |>.mpr (snapshotJson_writable sampleAfter))).symm
  have hfiles : (sortedPaths samplePaths).map (snapshotFile sampleAfter) =
      [.obj [("relative_path", .str "rtl/a.sv"), ("sha256", .str
        "sha256:62ec3ef86ba286cccc52616f516a9d13649afcb8120ec884a84fdd11bc32c3aa"),
        ("text", .str Syntax.sampleRewritten)]] := by
    have hchars : Syntax.sampleRewritten = String.ofList Syntax.sampleRewritten.toList :=
      (String.ofList_toList).symm
    have hhash : sha256Text (encode Syntax.sampleRewritten) =
        "sha256:62ec3ef86ba286cccc52616f516a9d13649afcb8120ec884a84fdd11bc32c3aa" := by
      rw [hchars, sha256Text, Sha256.hexOfBytes_encode_ofList, ← Sha256.quickDigest_eq]
      decide +kernel
    rw [← hhash]
    rfl
  rw [snapshotBytes, htext, snapshotJson, hfiles]
  refine congrArg (fun chars => encode (String.ofList chars)) ?_
  decide +kernel

theorem sampleDigests_ne : Artifacts.digestOf (snapshotBytes sampleAfter) ≠
    Artifacts.digestOf (patchBytes sampleBefore sampleAfter) := by
  intro h
  have hpatch : (Sha256.quickDigest
      ((samplePatch.flatMap String.utf8EncodeChar).map UInt8.toNat)).a = 0x3c4f2124 := by
    decide +kernel
  have hsnapshot : (Sha256.quickDigest
      ((sampleSnapshot.flatMap String.utf8EncodeChar).map UInt8.toNat)).a = 0x7640e375 := by
    decide +kernel
  have hdigits := congrArg (fun digest : String => digest.toList.take 8) h
  simp only [sampleBytes_eq, firstDigits_digestOf, hpatch, hsnapshot] at hdigits
  exact absurd hdigits (by decide +kernel)

theorem sampleIdentity_writable (sourceHash patchHash : String) :
    (identityJson "candidate_baseline" Planner.areaProposal sourceHash patchHash
      "balance_boolean_tree:v1:tree").writable := by
  simp [identityJson, proposalJson, Planner.areaProposal, Planner.treeProposal, Planner.idsJson,
    Planner.codesJson, Planner.ProposalTarget.toJson, Planner.Transformation.toJson,
    Planner.ProposalCorrectness.toJson, Planner.EvidenceRef.toJson, Planner.payloadJson,
    Planner.JsonScalar.toJson, Json.writable_int_of_lt, Planner.sampleEvidence]

theorem sample_draft : ∃ draft, sampleExecutor.draft (sampleRequest depth) calm = .ok draft ∧
    (0 < depth → Recordable (sampleRequest depth) draft) := by
  obtain ⟨copy, hcopy, hpatchBytes, hsnapshotBytes⟩ := sample_copy depth
  have hpatch : patchBytes copy.before copy.after ≠ ByteArray.empty := by
    rw [hpatchBytes, sampleBytes_eq.1]
    decide +kernel
  let snapshotRef := (snapshotCall (snapshotBytes copy.after)).ref 0
  let patchRef := (patchCall (patchBytes copy.before copy.after)).ref 0
  obtain ⟨digest, hdigest⟩ := Option.isSome_iff_exists.mp (isSome_canonicalSha256
    (F := Planner.halfFloats) |>.mpr (sampleIdentity_writable snapshotRef.sha256 patchRef.sha256))
  refine ⟨⟨copy, candidateIdOf digest, snapshotRef, patchRef, "balance_boolean_tree:v1:tree"⟩,
    ?_, fun hdepth => ?_⟩
  · simp only [TransformExecutor.draft, bind_eq_ok, require_eq_ok]
    refine ⟨_, sample_rewrite depth, copy, hcopy, (), hpatch, snapshotRef, rfl, patchRef, rfl, ?_⟩
    have hidentity : canonicalSha256 sampleExecutor.floats (identityJson
        (sampleRequest depth).parentCandidateId (sampleRequest depth).proposal snapshotRef.sha256
        patchRef.sha256 "balance_boolean_tree:v1:tree") = some digest := hdigest
    rw [hidentity]
    rfl
  · have hartifacts : snapshotRef.artifactId ≠ patchRef.artifactId := by
      intro h
      refine sampleDigests_ne ?_
      rw [← hsnapshotBytes, ← hpatchBytes]
      simpa [snapshotRef, patchRef, Artifacts.Call.ref, Artifacts.Call.digest, snapshotCall,
        patchCall, ← String.toList_inj] using h
    have hparent : "candidate_baseline" ≠ candidateIdOf digest := by
      intro h
      have hfifth := congrArg (fun id : String => id.toList[4]?) h
      simp [candidateIdOf] at hfifth
    have hrun : isEntityId "run_one" := by decide +kernel
    have hfingerprint : isFingerprint "balance_boolean_tree:v1:tree" := by decide +kernel
    exact ⟨candidateIdOf_valid digest, hrun, Planner.sampleCandidate.2, hdepth,
      Planner.sampleSpan.2, hfingerprint, hparent, hartifacts, rfl⟩

theorem sample_publish {paths : SourcePaths} (draft : Draft paths) :
    TransformExecutor.publish calm draft noWorkspaces =
      .ok () (Function.update noWorkspaces draft.candidateId (some draft.staging)) := by
  rfl

theorem sample_returns (hdepth : 0 < depth) : ∃ result t,
    sampleExecutor.materialize (sampleRequest depth) calm noWorkspaces = .ok result t := by
  obtain ⟨draft, hdraft, hrecordable⟩ := sample_draft depth
  exact ⟨_, _, materialize_eq_ok.mpr ⟨draft, hdraft, sample_publish draft, _,
    record_eq_ok.mpr ⟨hrecordable hdepth, rfl⟩, rfl⟩⟩

theorem materialize_publishes_sample : ∃ result t workspace edit rewritten startOffset endOffset,
    sampleExecutor.materialize (sampleRequest 1) calm noWorkspaces = .ok result t ∧
      t result.workspace = some workspace ∧ workspace "rtl/a.sv" = .file (encode rewritten) ∧
      Replaces edit Syntax.sampleSource rewritten startOffset endOffset := by
  obtain ⟨result, t, h⟩ := sample_returns 1 (by decide)
  obtain ⟨draft, edit, target, rewritten, startOffset, endOffset, hedited, -, hpublished, hid, -⟩ :=
    materialize_publishes h
  have hbefore : draft.before target = Syntax.sampleSource :=
    congrFun (Except.ok.inj (hedited.parent.symm.trans sample_parent)) target
  have htarget : target.1 = "rtl/a.sv" := hedited.target_eq
  refine ⟨result, t, draft.staging, edit, rewritten, startOffset, endOffset, h, ?_,
    htarget ▸ hedited.edited, hbefore ▸ hedited.replaces⟩
  cases hpublished with
  | created _ ht => rw [ht, ← hid, Function.update_self]
  | confirmed _ hsome => cases hsome

/-- The candidate is published although its lineage depth is rejected. -/
theorem sample_raises : ∃ t, sampleExecutor.materialize (sampleRequest 0) calm noWorkspaces =
    .error (.validation "fields") t ∧ t ≠ noWorkspaces := by
  obtain ⟨draft, hdraft, -⟩ := sample_draft 0
  refine ⟨Function.update noWorkspaces draft.candidateId (some draft.staging), ?_, fun h => ?_⟩
  · have hrecord : TransformExecutor.record (sampleRequest 0) draft =
        .error (.validation "fields") := by
      rw [TransformExecutor.record, require, if_neg (fun h => absurd h.2.2.2.1 (by decide))]
      rfl
    exact materialize_rejects hdraft (sample_publish draft) hrecord
  · have hworkspace := congrFun h draft.candidateId
    rw [Function.update_self] at hworkspace
    cases hworkspace

theorem raise_keeps_workspaces_sample : ∃ t,
    sampleExecutor.materialize (sampleRequest 0) calm noWorkspaces =
      .error (.validation "fields") t ∧
        ∃ draft : Draft samplePaths, t draft.candidateId = some draft.staging ∧
          ¬ Recordable (sampleRequest 0) draft := by
  obtain ⟨t, h, hne⟩ := sample_raises
  obtain heq | ⟨draft, -, -, ht, hrejected⟩ := raise_keeps_workspaces h
  · exact absurd heq hne
  · exact ⟨t, h, draft, by rw [ht]; exact Function.update_self .., hrejected⟩

theorem workspaces_complete_sample : ∃ id workspace t,
    sampleExecutor.Run noWorkspaces t ∧ t id = some workspace ∧
      Complete sampleExecutor id workspace := by
  obtain ⟨t, h, hne⟩ := sample_raises
  obtain ⟨id, hid⟩ := Function.ne_iff.mp hne
  obtain ⟨workspace, hworkspace⟩ := Option.ne_none_iff_exists'.mp hid
  have hrun : sampleExecutor.Run noWorkspaces t := .single (.raises _ _ _ h)
  exact ⟨id, workspace, t, hrun, hworkspace, workspaces_complete hrun hworkspace⟩

theorem workspaces_persist_sample : ∃ result t,
    sampleExecutor.materialize (sampleRequest 1) calm noWorkspaces = .ok result t ∧
      sampleExecutor.materialize (sampleRequest 1) calm t = .ok result t := by
  obtain ⟨result, t, h⟩ := sample_returns 1 (by decide)
  exact ⟨result, t, h, (workspaces_persist h .refl).2⟩

end Sample

end NovaRtl.Transforms
