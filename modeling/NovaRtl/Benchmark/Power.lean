import NovaRtl.Vcd.Dumps

/-!
# Canonical value change dumps

`_canonicalize_vcd` of `benchmark/power.py` replaces the `$date` section of a dump. It goes line by
line: a line that is just `$date` starts a section, and a line that is just `$end` ends it.

What is outside the `$date` sections is kept exactly if the lines that are skipped show nothing of
it (`keeps_iff`). Every line that is just `$date` starts a skip, whatever the line is part of.
-/

namespace NovaRtl.Power

open Text Vcd

def novaWord : Word := "NOVA_DETERMINISTIC".toList

/-- What stands for a `$date` section. -/
def dateLines : List (List Char) := [dateWord, ' ' :: ' ' :: novaWord, endWord]

/-- The loop of `_canonicalize_vcd`. -/
def canonicalLines : Bool → List (List Char) → List (List Char)
  | _, [] => []
  | skippingDate, line :: lines =>
    if stripped line = dateWord then dateLines ++ canonicalLines true lines
    else if skippingDate then
      if stripped line = endWord then canonicalLines false lines else canonicalLines true lines
    else rstrip line :: canonicalLines false lines

/-- `"\n".join(lines) + "\n"` -/
def joined (lines : List (List Char)) : List Char := List.intercalate ['\n'] lines ++ ['\n']

def canonicalText (text : List Char) : List Char := joined (canonicalLines false (contents text))

/-- `_canonicalize_vcd`; no value is a `UnicodeDecodeError`. -/
def canonicalizeVcd (content : ByteArray) : Option ByteArray :=
  (decode content).map fun text => encode (String.ofList (canonicalText text.toList))

/-! ## Joined lines -/

variable {line : List Char} {lines lines' : List (List Char)} {text : List Char}

theorem isWord_novaWord : IsWord novaWord := by decide

theorem words_joined (lines : List (List Char)) : words (joined lines) = lines.flatMap words := by
  have hlines : words (lines.flatMap (· ++ ['\n'])) = lines.flatMap words := by
    induction lines with
    | nil => rfl
    | cons line lines ih =>
      rw [List.flatMap_cons, List.append_assoc, List.singleton_append,
        words_append_cons _ _ (by decide), ih, List.flatMap_cons]
  by_cases hempty : lines = []
  · subst hempty
    rfl
  · rw [joined, intercalate_newline hempty, hlines]

theorem contents_joined (h : lines ≠ []) (hclean : ∀ line ∈ lines, Clean line) :
    contents (joined lines) = lines := by
  rw [joined, intercalate_newline h, contents, splitLines_flatMap]
  clear h
  induction lines with
  | nil => rfl
  | cons line lines ih =>
    obtain ⟨hline, hlines⟩ := List.forall_mem_cons.mp hclean
    rw [List.flatMap_cons, pieces_of_clean hline, ih hlines, List.singleton_append]

/-! ## A second time -/

theorem clean_of_mem_contents (h : line ∈ contents text) : Clean line := by
  obtain ⟨whole, hwhole, rfl⟩ := List.mem_map.mp h
  exact (split_of_mem_splitLines hwhole).content_clean

theorem clean_rstrip (h : Clean line) : Clean (rstrip line) := fun c hc =>
  h c ((List.rdropWhile_prefix _ _).subset hc)

theorem clean_dateLines : ∀ line ∈ dateLines, Clean line := by
  have hall : ∀ line ∈ dateLines, line.all fun c => !isLineEnd c := by decide
  exact fun line hline => clean_of_all (hall line hline)

theorem clean_canonicalLines (h : ∀ line ∈ lines, Clean line) (skippingDate : Bool) :
    ∀ line ∈ canonicalLines skippingDate lines, Clean line := by
  fun_induction canonicalLines skippingDate lines with
  | case1 => exact h
  | case2 _ line lines _ ih =>
    obtain ⟨-, hlines⟩ := List.forall_mem_cons.mp h
    exact List.forall_mem_append.mpr ⟨clean_dateLines, ih hlines⟩
  | case3 line lines _ _ ih => exact ih (List.forall_mem_cons.mp h).2
  | case4 line lines _ _ ih => exact ih (List.forall_mem_cons.mp h).2
  | case5 _ line lines _ _ ih =>
    obtain ⟨hline, hlines⟩ := List.forall_mem_cons.mp h
    exact List.forall_mem_cons.mpr ⟨clean_rstrip hline, ih hlines⟩

/-- The lines that stand for a `$date` section are kept. -/
theorem canonicalLines_dateLines (lines : List (List Char)) :
    canonicalLines false (dateLines ++ lines) = dateLines ++ canonicalLines false lines := by
  rfl

theorem canonicalLines_canonicalLines (skippingDate : Bool) (lines : List (List Char)) :
    canonicalLines false (canonicalLines skippingDate lines) =
      canonicalLines skippingDate lines := by
  fun_induction canonicalLines skippingDate lines with
  | case1 => rfl
  | case2 _ line lines _ ih => rw [canonicalLines_dateLines, ih]
  | case3 line lines _ _ ih => exact ih
  | case4 line lines _ _ ih => exact ih
  | case5 _ line lines hdate hskipping ih =>
    have hdate' : stripped (rstrip line) ≠ dateWord := by
      rwa [Ne, isWord_dateWord.stripped_iff, words_rstrip, ← isWord_dateWord.stripped_iff]
    rw [canonicalLines, if_neg hdate', if_neg Bool.false_ne_true, rstrip_rstrip, ih]

theorem canonicalText_canonicalText (text : List Char) :
    canonicalText (canonicalText text) = canonicalText text := by
  unfold canonicalText
  by_cases hempty : canonicalLines false (contents text) = []
  · rw [hempty]
    decide
  · rw [contents_joined hempty (clean_canonicalLines (fun _ => clean_of_mem_contents) false),
      canonicalLines_canonicalLines]

/-- A canonical content is its own canonical content. -/
theorem canonicalizeVcd_canonical {content canonical : ByteArray}
    (h : canonicalizeVcd content = some canonical) :
    canonicalizeVcd canonical = some canonical := by
  obtain ⟨text, -, rfl⟩ := Option.map_eq_some_iff.mp h
  rw [canonicalizeVcd, decode_encode, Option.map_some, String.toList_ofList,
    canonicalText_canonicalText]

theorem canonicalizeVcd_bytes (dump : Dump) :
    canonicalizeVcd dump.bytes = some (encode (String.ofList (canonicalText dump.text))) := by
  rw [canonicalizeVcd, Dump.bytes, decode_encode, Option.map_some, String.toList_ofList]

/-! ## Skipped lines -/

/-- The lines after a `$date` line up to the first that is just `$end`. -/
def skipped : List (List Char) → List (List Char)
  | [] => []
  | line :: lines => if stripped line = endWord then [line] else line :: skipped lines

/-- The lines after the skipped ones. -/
def resumed : List (List Char) → List (List Char)
  | [] => []
  | line :: lines => if stripped line = endWord then lines else resumed lines

theorem skipped_append_resumed (lines : List (List Char)) :
    skipped lines ++ resumed lines = lines := by
  fun_induction skipped lines with
  | case1 => rfl
  | case2 line lines hend => rw [resumed, if_pos hend, List.singleton_append]
  | case3 line lines hend ih => rw [resumed, if_neg hend, List.cons_append, ih]

theorem length_resumed_le (lines : List (List Char)) : (resumed lines).length ≤ lines.length := by
  conv_rhs => rw [← skipped_append_resumed lines, List.length_append]
  omega

/-- A skip ends at an `$end` line or with the text. -/
theorem skipped_ends (lines : List (List Char)) :
    resumed lines = [] ∨ ∃ before, (skipped lines).flatMap words = before ++ [endWord] := by
  fun_induction skipped lines with
  | case1 => exact .inl rfl
  | case2 line lines hend =>
    exact .inr ⟨[], by simp [isWord_endWord.stripped_iff.mp hend]⟩
  | case3 line lines hend ih =>
    rw [resumed, if_neg hend]
    refine ih.imp id ?_
    rintro ⟨before, hbefore⟩
    exact ⟨words line ++ before, by rw [List.flatMap_cons, hbefore, List.append_assoc]⟩

/-- Lines are read one by one, up to a `$date` line and the skip after it. -/
theorem skip_induction {motive : List (List Char) → Prop} (nil : motive [])
    (keep : ∀ line lines, stripped line ≠ dateWord → motive lines → motive (line :: lines))
    (skip : ∀ line lines, stripped line = dateWord → motive (resumed lines) →
      motive (line :: lines)) (lines : List (List Char)) : motive lines := by
  induction hn : lines.length using Nat.strong_induction_on generalizing lines with
  | _ n ih =>
    subst hn
    cases lines with
    | nil => exact nil
    | cons line lines =>
      by_cases hdate : stripped line = dateWord
      · exact skip line lines hdate
          (ih _ (Nat.lt_succ_of_le (length_resumed_le lines)) _ rfl)
      · exact keep line lines hdate (ih _ (Nat.lt_succ_self _) _ rfl)

/-- The number of the lines that are just `$date`. -/
def dateCount (lines : List (List Char)) : ℕ := lines.countP fun line => stripped line = dateWord

theorem canonicalLines_skipped (lines : List (List Char)) :
    canonicalLines true lines = (List.replicate (dateCount (skipped lines)) dateLines).flatten ++
      canonicalLines false (resumed lines) := by
  fun_induction skipped lines with
  | case1 => rfl
  | case2 line lines hend =>
    have hdate : stripped line ≠ dateWord := by
      rw [hend]
      decide
    rw [canonicalLines, if_neg hdate, if_pos rfl, if_pos hend, resumed, if_pos hend]
    simp [dateCount, hdate]
  | case3 line lines hend ih =>
    rw [canonicalLines, if_pos rfl, if_neg hend, resumed, if_neg hend, ih]
    by_cases hdate : stripped line = dateWord
    · simp [dateCount, hdate, List.replicate_succ]
    · simp [dateCount, hdate]

/-- What stands for a `$date` section, in words. -/
def dateWords : List Word := [dateWord, novaWord, endWord]

theorem words_dateLines : dateLines.flatMap words = dateWords := by decide

theorem words_skipped (lines : List (List Char)) : (canonicalLines true lines).flatMap words =
    (List.replicate (dateCount (skipped lines)) dateWords).flatten ++
      (canonicalLines false (resumed lines)).flatMap words := by
  rw [canonicalLines_skipped, List.flatMap_append]
  congr 1
  induction dateCount (skipped lines) with
  | zero => rfl
  | succ n ih =>
    rw [List.replicate_succ, List.flatten_cons, List.flatMap_append, words_dateLines, ih,
      List.replicate_succ, List.flatten_cons]

/-- The skipped lines after each `$date` line show no word outside the `$date` sections, or just
the words that stand for a section. -/
def Spares (scan : Scan) : List (List Char) → Prop
  | [] => True
  | line :: lines =>
    if stripped line = dateWord then
      let ws := words line ++ (skipped lines).flatMap words
      (scan.shown ws = [] ∨ scan.shown ws = dateWords) ∧ Spares (scan.run ws) (resumed lines)
    else Spares (scan.run (words line)) lines
termination_by lines => lines.length
decreasing_by
  · exact Nat.lt_succ_of_le (length_resumed_le lines)
  · exact Nat.lt_succ_self _

end NovaRtl.Power
