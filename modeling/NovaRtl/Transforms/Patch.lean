import NovaRtl.Contracts.Checks
import NovaRtl.Difflib.Unified
import NovaRtl.Text.Files
import NovaRtl.Text.Lines
import NovaRtl.Text.Newlines

/-!
# Patches of candidates

`_patch_bytes` of `transforms/executor.py`, the unified diffs of the sources that changed. A diff
is made of the lines without their ends, so that candidates have different patches exactly if they
differ in the lines of some source.
-/

namespace NovaRtl.Transforms

open Difflib Text

/-- The sources of a project. -/
structure SourcePaths where
  paths : List String
  nodup : paths.Nodup
  /-- `_normalized_relative_path` of the manifest admits no control characters. -/
  printable : ∀ path ∈ paths, ∀ c ∈ path.toList, 32 ≤ c.toNat ∧ c.toNat ≠ 127

/-- A dictionary of texts with the paths as keys. -/
abbrev Sources (paths : SourcePaths) := {path : String // path ∈ paths.paths} → String

/-- `text.splitlines()` -/
def splitlines (text : String) : List (List Char) := (splitLines text.toList).map Line.content

variable {paths : SourcePaths}

/-- The diff of one source. -/
def sourceDiff (before after : Sources paths) (path : {path // path ∈ paths.paths}) :
    List (List Char) :=
  if before path = after path then []
  else unifiedDiff (splitlines (before path)) (splitlines (after path))
    ("a/".toList ++ path.1.toList) ("b/".toList ++ path.1.toList)

/-- `sorted(before)` -/
def sortedPaths (paths : SourcePaths) : List {path // path ∈ paths.paths} :=
  (sorted paths.paths).pmap Subtype.mk fun _ h => mem_sorted.mp h

def patchLines (before after : Sources paths) : List (List Char) :=
  (sortedPaths paths).flatMap (sourceDiff before after)

/-- `("\n".join(lines) + "\n") if lines else ""` -/
def joinLines (lines : List (List Char)) : List Char :=
  if lines = [] then [] else List.intercalate ['\n'] lines ++ ['\n']

/-- `_patch_bytes` -/
def patchBytes (before after : Sources paths) : ByteArray :=
  encode (String.ofList (joinLines (patchLines before after)))

/-! ## The lines of a patch -/

variable {before after first second : Sources paths} {path : {path // path ∈ paths.paths}}

theorem mem_sortedPaths (path : {path // path ∈ paths.paths}) : path ∈ sortedPaths paths :=
  List.mem_pmap.mpr ⟨path.1, mem_sorted.mpr path.2, rfl⟩

theorem nodup_sortedPaths (paths : SourcePaths) : (sortedPaths paths).Nodup := by
  refine List.Nodup.pmap (fun _ _ _ _ h => Subtype.mk.inj h) ?_
  exact (List.perm_insertionSort _ _).nodup_iff.mpr paths.nodup

theorem joinLines_eq (lines : List (List Char)) :
    joinLines lines = lines.flatMap (· ++ ['\n']) := by
  unfold joinLines
  split_ifs with hnil
  · rw [hnil]
    rfl
  · exact intercalate_newline hnil

theorem flatMap_line_injective {lines lines' : List (List Char)} (h : ∀ line ∈ lines, '\n' ∉ line)
    (h' : ∀ line ∈ lines', '\n' ∉ line)
    (heq : lines.flatMap (· ++ ['\n']) = lines'.flatMap (· ++ ['\n'])) : lines = lines' := by
  induction lines generalizing lines' with
  | nil =>
    cases lines' with
    | nil => rfl
    | cons line' lines' => simp at heq
  | cons line lines ih =>
    cases lines' with
    | nil => simp at heq
    | cons line' lines' =>
      obtain ⟨hline, hlines⟩ := List.forall_mem_cons.mp h
      obtain ⟨hline', hlines'⟩ := List.forall_mem_cons.mp h'
      simp only [List.flatMap_cons, List.append_assoc, List.singleton_append] at heq
      obtain ⟨rfl, hrest⟩ := append_cons_inj hline hline' heq
      rw [ih hlines hlines' hrest]

theorem newline_not_mem_splitlines {text : String} {line : List Char} (h : line ∈ splitlines text) :
    '\n' ∉ line := by
  obtain ⟨whole, hwhole, rfl⟩ := List.mem_map.mp h
  intro hmem
  exact absurd ((split_of_mem_splitLines hwhole).content_clean _ hmem) (by decide)

theorem newline_not_mem_path (path : {path // path ∈ paths.paths}) : '\n' ∉ path.1.toList :=
  fun h => absurd (paths.printable _ path.2 _ h) (by decide)

theorem newline_not_mem_sourceDiff {line : List Char} (h : line ∈ sourceDiff before after path) :
    '\n' ∉ line := by
  have hpath := newline_not_mem_path path
  unfold sourceDiff at h
  split_ifs at h with hsame
  · cases h
  rcases mem_unifiedDiff h with rfl | rfl | ⟨span, rfl⟩ | ⟨mark, text, rfl, htext⟩
  · simpa using hpath
  · simpa using hpath
  · intro hmem
    rcases Span.mem_line hmem with hrange | hother
    · exact absurd hrange (by decide)
    · exact absurd hother (by decide)
  · have hclean : '\n' ∉ text := by
      rcases htext with htext | htext <;> exact newline_not_mem_splitlines htext
    intro hmem
    rcases List.mem_cons.mp hmem with hmark | hmem
    · cases mark <;> exact absurd hmark (by dsimp only; decide)
    · exact hclean hmem

/-- The lines can be read off the bytes. -/
theorem patchLines_eq_of_patchBytes (h : patchBytes before first = patchBytes before second) :
    patchLines before first = patchLines before second := by
  have htext : joinLines (patchLines before first) = joinLines (patchLines before second) := by
    have hdecode := congrArg decode h
    rw [patchBytes, patchBytes, decode_encode, decode_encode] at hdecode
    simpa using congrArg String.toList (Option.some.inj hdecode)
  rw [joinLines_eq, joinLines_eq] at htext
  have hclean : ∀ after : Sources paths, ∀ line ∈ patchLines before after, '\n' ∉ line := by
    intro after line hline
    obtain ⟨path, -, hline⟩ := List.mem_flatMap.mp hline
    exact newline_not_mem_sourceDiff hline
  exact flatMap_line_injective (hclean first) (hclean second) htext

/-! ## Reading a patch -/

theorem sourceDiff_eq_nil_iff :
    sourceDiff before after path = [] ↔ splitlines (before path) = splitlines (after path) := by
  unfold sourceDiff
  split_ifs with hsame
  · simp [hsame]
  · refine ⟨unifiedDiff_eq_nil, fun h => ?_⟩
    rw [h]
    exact unifiedDiff_self _ _ _

/-- The first line of a patch names the first source with a diff. -/
theorem head?_flatMap_sourceDiff (before after : Sources paths)
    (order : List {path // path ∈ paths.paths}) :
    order.flatMap (sourceDiff before after) = [] ∨ ∃ path ∈ order,
      (order.flatMap (sourceDiff before after)).head? =
        some ("--- ".toList ++ ("a/".toList ++ path.1.toList)) := by
  induction order with
  | nil => exact .inl rfl
  | cons path order ih =>
    rw [List.flatMap_cons]
    by_cases hnil : sourceDiff before after path = []
    · rw [hnil, List.nil_append]
      exact ih.imp_right fun ⟨other, hmem, hhead⟩ => ⟨other, List.mem_cons_of_mem path hmem, hhead⟩
    · have hne : splitlines (before path) ≠ splitlines (after path) :=
        fun h => hnil (sourceDiff_eq_nil_iff.mpr h)
      refine .inr ⟨path, List.mem_cons_self, ?_⟩
      rw [sourceDiff, if_neg (fun h => hne (congrArg splitlines h)), unifiedDiff_eq hne]
      rfl

theorem noHunk_flatMap_sourceDiff (before after : Sources paths)
    (order : List {path // path ∈ paths.paths}) :
    NoHunk (order.flatMap (sourceDiff before after)) := by
  intro line hline
  rcases head?_flatMap_sourceDiff before after order with hnil | ⟨path, -, hhead⟩
  · rw [hnil] at hline
    cases hline
  · rw [hhead] at hline
    obtain rfl := Option.some.inj hline
    exact fun h => absurd (Option.some.inj h) (by decide)

/-- A patch begins with the diff of a source, or that source has none. -/
theorem sourceDiff_append_ne {order : List {path // path ∈ paths.paths}} (hpath : path ∉ order)
    {rest : List (List Char)} (hne : sourceDiff before second path ≠ []) :
    order.flatMap (sourceDiff before first) ≠ sourceDiff before second path ++ rest := by
  intro h
  have hsingle := head?_flatMap_sourceDiff before second [path]
  rw [List.flatMap_singleton] at hsingle
  obtain hnil | ⟨other, hother, hhead⟩ := hsingle
  · exact hne hnil
  obtain rfl := List.mem_singleton.mp hother
  rcases head?_flatMap_sourceDiff before first order with hnil | ⟨named, hnamed, hfirst⟩
  · rw [hnil] at h
    exact hne (List.append_eq_nil_iff.mp h.symm).1
  · rw [h, List.head?_append_of_ne_nil _ hne, hhead] at hfirst
    have hname := List.append_cancel_left (List.append_cancel_left (Option.some.inj hfirst))
    have hsame : other = named := Subtype.ext (String.toList_inj.mp hname)
    exact hpath (hsame ▸ hnamed)

/-- The base and the diffs of its sources determine the lines of the candidate. -/
theorem splitlines_eq_of_diffs {order : List {path // path ∈ paths.paths}} (hnodup : order.Nodup)
    (h : order.flatMap (sourceDiff before first) = order.flatMap (sourceDiff before second)) :
    ∀ path ∈ order, splitlines (first path) = splitlines (second path) := by
  induction order with
  | nil => exact nofun
  | cons path order ih =>
    obtain ⟨hpath, hnodup⟩ := List.nodup_cons.mp hnodup
    rw [List.flatMap_cons, List.flatMap_cons] at h
    by_cases hfirst : sourceDiff before first path = [] <;>
      by_cases hsecond : sourceDiff before second path = []
    · rw [hfirst, hsecond] at h
      refine List.forall_mem_cons.mpr ⟨?_, ih hnodup h⟩
      rw [← sourceDiff_eq_nil_iff.mp hfirst, sourceDiff_eq_nil_iff.mp hsecond]
    · rw [hfirst] at h
      exact absurd h (sourceDiff_append_ne hpath hsecond)
    · rw [hsecond] at h
      exact absurd h.symm (sourceDiff_append_ne hpath hfirst)
    · have hne := fun h => hfirst (sourceDiff_eq_nil_iff.mpr h)
      have hne' := fun h => hsecond (sourceDiff_eq_nil_iff.mpr h)
      rw [sourceDiff, sourceDiff, if_neg (fun h => hne (congrArg splitlines h)),
        if_neg (fun h => hne' (congrArg splitlines h))] at h
      obtain ⟨hlines, hrest⟩ := unifiedDiff_decode hne hne' (noHunk_flatMap_sourceDiff _ _ _)
        (noHunk_flatMap_sourceDiff _ _ _) h
      exact List.forall_mem_cons.mpr ⟨hlines, ih hnodup hrest⟩

/-- Patches against one base are equal exactly if the lines of all sources are. -/
theorem patchBytes_eq_iff : patchBytes before first = patchBytes before second ↔
    ∀ path, splitlines (first path) = splitlines (second path) := by
  constructor
  · intro h path
    exact splitlines_eq_of_diffs (nodup_sortedPaths paths) (patchLines_eq_of_patchBytes h) path
      (mem_sortedPaths path)
  · intro h
    have hdiff : sourceDiff before first = sourceDiff before second := by
      funext path
      by_cases hsame : splitlines (before path) = splitlines (first path)
      · rw [sourceDiff_eq_nil_iff.mpr hsame, sourceDiff_eq_nil_iff.mpr (hsame.trans (h path))]
      · have hsame' : splitlines (before path) ≠ splitlines (second path) := h path ▸ hsame
        rw [sourceDiff, sourceDiff, if_neg (fun h => hsame (congrArg splitlines h)),
          if_neg (fun h => hsame' (congrArg splitlines h)), h path]
    rw [patchBytes, patchBytes, patchLines, patchLines, hdiff]

theorem patchBytes_self (before : Sources paths) : patchBytes before before = ByteArray.empty := by
  have hnil : patchLines before before = [] :=
    List.flatMap_eq_nil_iff.mpr fun path _ => sourceDiff_eq_nil_iff.mpr rfl
  rw [patchBytes, hnil]
  rfl

/-! ## What the callers rely on -/

/-- A patch is not empty exactly if the candidate differs from the base, and patches identify
candidates. -/
structure Faithful (before first second : Sources paths) : Prop where
  first_nonempty : patchBytes before first ≠ ByteArray.empty ↔ first ≠ before
  second_nonempty : patchBytes before second ≠ ByteArray.empty ↔ second ≠ before
  identifies : patchBytes before first = patchBytes before second → first = second

/-- Texts that differ, differ in the lines of some source. -/
def DifferInLines (first second : Sources paths) : Prop :=
  first ≠ second → ∃ path, splitlines (first path) ≠ splitlines (second path)

theorem differInLines_iff : DifferInLines first second ↔
    ((∀ path, splitlines (first path) = splitlines (second path)) → first = second) := by
  rw [DifferInLines, ← not_forall, not_imp_not]

theorem patchBytes_ne_empty_iff :
    (patchBytes before after ≠ ByteArray.empty ↔ after ≠ before) ↔ DifferInLines after before := by
  rw [differInLines_iff, not_iff_not, ← patchBytes_self before, patchBytes_eq_iff]
  constructor
  · exact Iff.mp
  · intro h
    refine ⟨h, ?_⟩
    rintro rfl _
    rfl

/-- Patches are faithful exactly if no texts differ only in how their lines end. -/
theorem faithful_iff_differInLines (before first second : Sources paths) :
    Faithful before first second ↔ DifferInLines first before ∧ DifferInLines second before ∧
      DifferInLines first second := by
  constructor
  · rintro ⟨hfirst, hsecond, hidentifies⟩
    refine ⟨patchBytes_ne_empty_iff.mp hfirst, patchBytes_ne_empty_iff.mp hsecond, ?_⟩
    rw [differInLines_iff, ← patchBytes_eq_iff]
    exact hidentifies
  · rintro ⟨hfirst, hsecond, hboth⟩
    rw [differInLines_iff, ← patchBytes_eq_iff] at hboth
    exact ⟨patchBytes_ne_empty_iff.mpr hfirst, patchBytes_ne_empty_iff.mpr hsecond, hboth⟩

/-- One source. -/
def onePath : SourcePaths where
  paths := ["lane.sv"]
  nodup := List.nodup_singleton _
  printable := by
    intro path hpath
    obtain rfl := List.mem_singleton.mp hpath
    exact List.forall_iff_forall_mem.mp (by decide)

/-- A source without a newline at its end, and the same with one. -/
theorem added_newline_empty_patch :
    ¬ ∀ (paths : SourcePaths) (before first second : Sources paths),
      Faithful before first second := by
  intro h
  have hempty : patchBytes (fun _ => "x" : Sources onePath) (fun _ => "x\n") = ByteArray.empty := by
    rw [← patchBytes_self fun _ => "x", patchBytes_eq_iff]
    exact fun _ => by decide
  have hdiffers : (fun _ => "x\n" : Sources onePath) ≠ fun _ => "x" := by
    intro heq
    exact absurd (congrFun heq ⟨"lane.sv", List.mem_singleton_self _⟩) (by decide)
  exact (h onePath (fun _ => "x") (fun _ => "x\n") fun _ => "x").first_nonempty.mpr hdiffers hempty

end NovaRtl.Transforms
