import NovaRtl.Text.Newlines
import NovaRtl.Transforms.Patch

/-!
# Changed lines of a patch

`source_change_lines` of `_comparison_records` in `optimization/search_flow.py`, read off a stored
patch. A line counts by its first characters, so that a deleted line which begins with `--` is taken
for a header, and so is an inserted one with `++`. A path with a line boundary makes several lines
of a header.
-/

namespace NovaRtl.Optimization

open Difflib Text Transforms

def startsWith (line : List Char) (start : String) : Bool := start.toList.isPrefixOf line

/-- The condition on a line of the patch. -/
def counted (line : List Char) : Bool :=
  (startsWith line "+" || startsWith line "-") && !startsWith line "+++" && !startsWith line "---"

/-- `changed_lines`; `none` if the patch is not UTF-8. -/
def changedLines (patch : ByteArray) : Option ℕ :=
  (decode patch).map fun text => (splitlines text).countP counted

variable {paths : SourcePaths}

/-- How many lines the diffs delete and insert. -/
def diffLines (before after : Sources paths) : ℕ :=
  ((sortedPaths paths).map fun path =>
    ((opcodes (splitlines (before path)) (splitlines (after path))).map Opcode.changed).sum).sum

/-- A deleted line that begins with `--`, or an inserted one that begins with `++`. -/
def hidden : Mark × List Char → Bool
  | (.context, _) => false
  | (.delete, line) => startsWith line "--"
  | (.insert, line) => startsWith line "++"

/-- How many deleted and inserted lines look like a header. -/
def hiddenLines (before after : Sources paths) : ℕ :=
  ((sortedPaths paths).map fun path =>
    let a := splitlines (before path)
    let b := splitlines (after path)
    (changesOf a b (opcodes a b)).countP hidden).sum

/-- How many lines that count are in the two headers for the path of a changed source. -/
def headerLines (before after : Sources paths) : ℕ :=
  ((sortedPaths paths).map fun path =>
    if splitlines (before path) = splitlines (after path) then 0
    else 2 * (pieces path.1.toList).tail.countP counted).sum

/-! ## The lines of one diff -/

variable {before after : Sources paths} {path : {path // path ∈ paths.paths}}

theorem counted_markedLine (mark : Mark) (line : List Char) :
    counted (markedLine (mark, line)) = (mark ≠ .context && !hidden (mark, line)) := by
  cases mark <;> simp [counted, startsWith, markedLine, Mark.char, hidden, List.isPrefixOf_cons_cons]

theorem changes_cons (marked : Mark × List Char) (body : List (Mark × List Char)) :
    changes (marked :: body) =
      if marked.1 = .context then changes body else marked :: changes body := by
  simp [changes, List.filter_cons]

/-- The lines of a body that count, and those that look like a header. -/
theorem countP_body (body : List (Mark × List Char)) :
    (body.map markedLine).countP counted + (changes body).countP hidden = (changes body).length := by
  induction body with
  | nil => rfl
  | cons marked body ih =>
    obtain ⟨mark, line⟩ := marked
    rw [List.map_cons, List.countP_cons, counted_markedLine, changes_cons]
    by_cases hmark : mark = .context
    · simpa [hmark] using ih
    · rw [if_neg hmark, List.countP_cons, List.length_cons, decide_eq_true hmark, Bool.true_and]
      cases hidden (mark, line) <;>
        simp only [Bool.not_true, Bool.not_false, Bool.false_eq_true, if_true, if_false] <;> omega

theorem clean_of_mem_splitlines {text : String} {line : List Char} (h : line ∈ splitlines text) :
    Clean line := by
  obtain ⟨whole, hwhole, rfl⟩ := List.mem_map.mp h
  exact (split_of_mem_splitLines hwhole).content_clean

theorem not_isLineEnd_of_isRangeChar {c : Char} (h : isRangeChar c) : isLineEnd c = false := by
  simp only [isRangeChar, Char.isDigit, Bool.or_eq_true, Bool.and_eq_true, decide_eq_true_eq] at h
  rcases h with hdigit | rfl
  · have hlow : 48 ≤ c.toNat := hdigit.1
    have hhigh : c.toNat ≤ 57 := hdigit.2
    simp only [isLineEnd, List.contains_eq_mem, decide_eq_false_iff_not, List.mem_cons,
      List.not_mem_nil, or_false]
    omega
  · rfl

theorem clean_span (span : Span) : Clean span.line := by
  intro c hc
  rcases Span.mem_line hc with hrange | hother
  · exact not_isLineEnd_of_isRangeChar hrange
  · have hspecial : ∀ c ∈ [' ', '@', '-', '+'], isLineEnd c = false :=
      List.forall_iff_forall_mem.mp (by decide)
    exact hspecial c hother

theorem clean_markedLine {mark : Mark} {line : List Char} (h : Clean line) :
    Clean (markedLine (mark, line)) := by
  refine List.forall_mem_cons.mpr ⟨?_, h⟩
  cases mark <;> rfl

theorem counted_span (span : Span) : counted span.line = false := rfl

/-- Clean lines are the lines of the text that they make. -/
theorem flatMap_pieces {lines : List (List Char)} (h : ∀ line ∈ lines, Clean line) :
    lines.flatMap pieces = lines := by
  induction lines with
  | nil => rfl
  | cons line lines ih =>
    obtain ⟨hline, hlines⟩ := List.forall_mem_cons.mp h
    rw [List.flatMap_cons, pieces_of_clean hline, ih hlines]
    rfl

/-- The first line of a header does not count. -/
theorem countP_header {start : List Char} (hclean : Clean start)
    (hstart : ∀ more, counted (start ++ more) = false) (path : List Char) :
    (pieces (start ++ path)).countP counted = (pieces path).tail.countP counted := by
  rw [pieces_append hclean, List.countP_cons, hstart]
  rfl

theorem mark_clean {a b : List (List Char)} (ha : ∀ line ∈ a, Clean line)
    (hb : ∀ line ∈ b, Clean line) {hunk : Hunk (List Char)} {group : List Opcode}
    (h : hunk = hunkOf a b group) : ∀ line ∈ hunk.lines, Clean line := by
  subst h
  refine List.forall_mem_cons.mpr ⟨clean_span _, ?_⟩
  intro line hline
  obtain ⟨⟨mark, text⟩, hmarked, rfl⟩ := List.mem_map.mp hline
  obtain ⟨c, -, hc⟩ := List.mem_flatMap.mp hmarked
  refine clean_markedLine ?_
  rcases Opcode.mem_marks hc with htext | htext
  · exact ha _ htext
  · exact hb _ htext

/-- The lines of the hunks that count, and those that look like a header. -/
theorem countP_hunks (a b : List (List Char)) (groups : List (List Opcode)) :
    (groups.flatMap fun group => (hunkOf a b group).lines).countP counted +
      (changesOf a b groups.flatten).countP hidden = (changesOf a b groups.flatten).length := by
  induction groups with
  | nil => rfl
  | cons group groups ih =>
    have hbody := countP_body (group.flatMap (Opcode.marks a b))
    have hlines : (hunkOf a b group).lines.countP counted =
        ((group.flatMap (Opcode.marks a b)).map markedLine).countP counted := by
      rw [Hunk.lines, List.countP_cons, counted_span]
      rfl
    rw [List.flatMap_cons, List.flatten_cons, changesOf_append, List.countP_append,
      List.countP_append, List.length_append, hlines]
    simp only [changesOf] at ih ⊢
    omega

/-- The lines of a diff that count: those that it deletes and inserts, less those that look like a
header, and those of the path. -/
theorem countP_sourceDiff (before after : Sources paths) (path : {path // path ∈ paths.paths}) :
    ((sourceDiff before after path).flatMap pieces).countP counted +
        (changesOf (splitlines (before path)) (splitlines (after path))
          (opcodes (splitlines (before path)) (splitlines (after path)))).countP hidden =
      ((opcodes (splitlines (before path)) (splitlines (after path))).map Opcode.changed).sum +
        if splitlines (before path) = splitlines (after path) then 0
        else 2 * (pieces path.1.toList).tail.countP counted := by
  obtain ⟨a, ha⟩ : ∃ a, splitlines (before path) = a := ⟨_, rfl⟩
  obtain ⟨b, hb⟩ : ∃ b, splitlines (after path) = b := ⟨_, rfl⟩
  have hchain := opcodes_chain a b
  rw [ha, hb, ← hchain.length_changesOf (Nat.le_refl _) (Nat.le_refl _)]
  by_cases hsame : a = b
  · have hnil : sourceDiff before after path = [] :=
      sourceDiff_eq_nil_iff.mpr (ha.trans (hsame.trans hb.symm))
    have hnone : changesOf a b (opcodes a b) = [] := by
      rw [← changesOf_groupedOpcodes 3, hsame, groupedOpcodes_self]
      rfl
    rw [hnil, hnone, if_pos hsame]
    rfl
  · have hhunks := countP_hunks a b (groupedOpcodes 3 a b)
    rw [changesOf_groupedOpcodes] at hhunks
    have hdiffers : before path ≠ after path := fun h => hsame (ha ▸ hb ▸ congrArg splitlines h)
    have hclean : ∀ line ∈ (groupedOpcodes 3 a b).flatMap fun group => (hunkOf a b group).lines,
        Clean line := by
      intro line hline
      obtain ⟨group, -, hline⟩ := List.mem_flatMap.mp hline
      refine mark_clean (fun _ h => ?_) (fun _ h => ?_) rfl line hline
      · exact clean_of_mem_splitlines (ha ▸ h)
      · exact clean_of_mem_splitlines (hb ▸ h)
    have hold : Clean ("--- ".toList ++ "a/".toList) := List.forall_iff_forall_mem.mp (by decide)
    have hnew : Clean ("+++ ".toList ++ "b/".toList) := List.forall_iff_forall_mem.mp (by decide)
    rw [sourceDiff, if_neg hdiffers, ha, hb, unifiedDiff_eq hsame, if_neg hsame, List.flatMap_map,
      List.flatMap_cons, List.flatMap_cons, flatMap_pieces hclean, List.countP_append,
      List.countP_append, ← List.append_assoc, ← List.append_assoc, countP_header hold fun _ => rfl,
      countP_header hnew fun _ => rfl]
    omega

/-! ## The patch -/

/-- The lines of the patch that count, and those that look like a header. -/
theorem changedLines_patchBytes (before after : Sources paths) :
    ∃ lines, changedLines (patchBytes before after) = some lines ∧
      lines + hiddenLines before after = diffLines before after + headerLines before after := by
  have hlines : splitlines (String.ofList (joinLines (patchLines before after))) =
      (patchLines before after).flatMap pieces := by
    rw [splitlines, String.toList_ofList, joinLines_eq, splitLines_flatMap]
  refine ⟨((patchLines before after).flatMap pieces).countP counted, ?_, ?_⟩
  · rw [changedLines, patchBytes, decode_encode, Option.map_some, hlines]
  · rw [patchLines, List.flatMap_assoc]
    unfold hiddenLines diffLines headerLines
    generalize sortedPaths paths = order
    induction order with
    | nil => simp
    | cons path order ih =>
      have hpath := countP_sourceDiff before after path
      rw [List.flatMap_cons, List.countP_append]
      simp only [List.map_cons, List.sum_cons] at ih ⊢
      omega

/-- The count is right exactly if as many changed lines look like a header as there are lines of
paths that count. -/
theorem changedLines_eq_diffLines_iff (before after : Sources paths) :
    changedLines (patchBytes before after) = some (diffLines before after) ↔
      hiddenLines before after = headerLines before after := by
  obtain ⟨lines, hlines, hsum⟩ := changedLines_patchBytes before after
  rw [hlines, Option.some_inj]
  omega

theorem sortedPaths_onePath : sortedPaths onePath = [⟨"lane.sv", List.mem_singleton_self _⟩] := rfl

/-- A deleted line that begins with two dashes. -/
theorem deleted_dashes_not_counted :
    ¬ ∀ (paths : SourcePaths) (before after : Sources paths),
      changedLines (patchBytes before after) = some (diffLines before after) := by
  intro h
  have hcount := h onePath (fun _ => "-- a") fun _ => ""
  obtain ⟨lines, hlines, hsum⟩ :=
    changedLines_patchBytes (fun _ => "-- a" : Sources onePath) fun _ => ""
  have hhidden : hiddenLines (fun _ => "-- a" : Sources onePath) (fun _ => "") = 1 := by
    rw [hiddenLines, sortedPaths_onePath]
    decide +kernel
  have hheader : headerLines (fun _ => "-- a" : Sources onePath) (fun _ => "") = 0 := by
    rw [headerLines, sortedPaths_onePath]
    decide +kernel
  rw [hlines, Option.some_inj] at hcount
  omega

end NovaRtl.Optimization
