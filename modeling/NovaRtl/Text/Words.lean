import Mathlib.Data.List.DropRight
import NovaRtl.Text.Newlines

/-!
# Words between white space

`str.split()`, `str.strip()` and `str.rstrip()` of Python. Stripping a text keeps its words, and
every line boundary is white space, so the words of a text are those of its lines.
-/

namespace Text

/-- `str.isspace` of one character -/
def isWhitespace (c : Char) : Bool :=
  (9 ≤ c.toNat && c.toNat ≤ 13) || (28 ≤ c.toNat && c.toNat ≤ 32) ||
    (0x2000 ≤ c.toNat && c.toNat ≤ 0x200a) ||
    [0x85, 0xa0, 0x1680, 0x2028, 0x2029, 0x202f, 0x205f, 0x3000].contains c.toNat

/-- `text.rstrip()` -/
def rstrip (text : List Char) : List Char := text.rdropWhile isWhitespace

/-- `text.strip()` -/
def stripped (text : List Char) : List Char := rstrip (text.dropWhile isWhitespace)

/-- `text.split()` -/
def words (text : List Char) : List (List Char) := (text.splitOnP isWhitespace).filter (· ≠ [])

/-- White space only. -/
def IsBlank (text : List Char) : Prop := ∀ c ∈ text, isWhitespace c

theorem isBlank_iff_all (text : List Char) : text.all isWhitespace ↔ IsBlank text := by
  simp [IsBlank]

instance (text : List Char) : Decidable (IsBlank text) :=
  decidable_of_iff _ (isBlank_iff_all text)

/-- A text that is one word. -/
def IsWord (text : List Char) : Prop := text ≠ [] ∧ ∀ c ∈ text, isWhitespace c = false

theorem isWord_iff_all (text : List Char) :
    (text != [] && text.all fun c => !isWhitespace c) ↔ IsWord text := by
  simp [IsWord]

instance (text : List Char) : Decidable (IsWord text) :=
  decidable_of_iff _ (isWord_iff_all text)

theorem clean_of_all {text : List Char} (h : text.all fun c => !isLineEnd c) : Clean text := by
  simpa [Clean] using h

variable {text rest word blank : List Char} {c : Char}

theorem isWhitespace_of_isLineEnd (h : isLineEnd c) : isWhitespace c := by
  simp only [isLineEnd, List.contains_eq_mem, List.mem_cons, List.not_mem_nil, or_false,
    decide_eq_true_eq] at h
  simp only [isWhitespace, Bool.or_eq_true, Bool.and_eq_true, decide_eq_true_eq,
    List.contains_eq_mem, List.mem_cons, List.not_mem_nil, or_false]
  omega

/-! ## Words -/

@[simp] theorem words_nil : words [] = [] := rfl

theorem words_append_cons (text rest : List Char) (hc : isWhitespace c) :
    words (text ++ c :: rest) = words text ++ words rest := by
  unfold words
  rw [List.splitOnP_append_cons text rest hc, List.filter_append]

theorem words_cons (hc : isWhitespace c) (rest : List Char) : words (c :: rest) = words rest :=
  words_append_cons [] rest hc

theorem words_of_isBlank (h : IsBlank text) : words text = [] := by
  induction text with
  | nil => rfl
  | cons c rest ih =>
    obtain ⟨hc, hrest⟩ := List.forall_mem_cons.mp h
    rw [words_cons hc, ih hrest]

theorem IsWord.words_eq (h : IsWord word) : words word = [word] := by
  rw [words, List.splitOnP_eq_singleton h.2]
  simp [h.1]

theorem words_blank_append (h : IsBlank blank) (rest : List Char) :
    words (blank ++ rest) = words rest := by
  induction blank with
  | nil => rfl
  | cons c blank ih =>
    obtain ⟨hc, hblank⟩ := List.forall_mem_cons.mp h
    rw [List.cons_append, words_cons hc, ih hblank]

theorem words_append_blank (h : IsBlank blank) (text : List Char) :
    words (text ++ blank) = words text := by
  cases blank with
  | nil => rw [List.append_nil]
  | cons c blank =>
    obtain ⟨hc, hblank⟩ := List.forall_mem_cons.mp h
    rw [words_append_cons text blank hc, words_of_isBlank hblank, List.append_nil]

/-- Text that does not go on with the word before it. -/
def Apart (text : List Char) : Prop := ∀ c ∈ text.head?, isWhitespace c

/-- Text that the word after it does not go on. -/
def Ended (text : List Char) : Prop := ∀ c ∈ text.getLast?, isWhitespace c

theorem words_append_of_ended (h : Ended text) (rest : List Char) :
    words (text ++ rest) = words text ++ words rest := by
  cases text using List.reverseRecOn with
  | nil => rfl
  | append_singleton text c =>
    have hc : isWhitespace c := h c (by simp)
    rw [List.append_assoc, List.singleton_append, words_append_cons _ _ hc,
      words_append_cons _ _ hc, words_nil, List.append_nil]

theorem IsWord.words_append (h : IsWord word) (hrest : Apart rest) :
    words (word ++ rest) = word :: words rest := by
  cases rest with
  | nil => rw [List.append_nil, h.words_eq, words_nil]
  | cons c rest =>
    have hc : isWhitespace c := hrest c rfl
    rw [words_append_cons word rest hc, h.words_eq, words_cons hc]
    rfl

/-- The first word of a text that does not start with white space. -/
theorem exists_word (hc : isWhitespace c = false) (rest : List Char) :
    ∃ word after, IsWord word ∧ Apart after ∧ c :: rest = word ++ after := by
  let p : Char → Bool := fun d => !isWhitespace d
  refine ⟨(c :: rest).takeWhile p, (c :: rest).dropWhile p, ⟨?_, fun d hd => ?_⟩, fun d hd => ?_,
    List.takeWhile_append_dropWhile.symm⟩
  · simp [p, hc]
  · simpa [p] using List.mem_takeWhile_imp hd
  · have hnot := List.head?_dropWhile_not p (c :: rest)
    rw [Option.mem_def.mp hd] at hnot
    simpa [p] using hnot

theorem words_eq_nil_iff : words text = [] ↔ IsBlank text := by
  refine ⟨fun h => ?_, words_of_isBlank⟩
  induction text with
  | nil => exact fun _ hc => absurd hc List.not_mem_nil
  | cons c rest ih =>
    cases hc : isWhitespace c with
    | true => exact List.forall_mem_cons.mpr ⟨hc, ih ((words_cons hc rest).symm.trans h)⟩
    | false =>
      obtain ⟨word, after, hword, hafter, heq⟩ := exists_word hc rest
      rw [heq, hword.words_append hafter] at h
      cases h

/-- The first word of a text, after white space. -/
theorem words_eq_cons {ws : List (List Char)} (h : words text = word :: ws) :
    ∃ before after, IsBlank before ∧ IsWord word ∧ Apart after ∧ text = before ++ (word ++ after) ∧
      words after = ws := by
  induction text with
  | nil => cases h
  | cons c rest ih =>
    cases hc : isWhitespace c with
    | true =>
      obtain ⟨before, after, hbefore, hword, hafter, rfl, hwords⟩ :=
        ih ((words_cons hc rest).symm.trans h)
      exact ⟨c :: before, after, List.forall_mem_cons.mpr ⟨hc, hbefore⟩, hword, hafter, rfl, hwords⟩
    | false =>
      obtain ⟨first, after, hfirst, hafter, heq⟩ := exists_word hc rest
      rw [heq, hfirst.words_append hafter] at h
      obtain ⟨rfl, hwords⟩ := List.cons.inj h
      exact ⟨[], after, fun _ hd => absurd hd List.not_mem_nil, hfirst, hafter, heq, hwords⟩

/-- A text with one word is that word between white space. -/
theorem words_eq_singleton (h : words text = [word]) :
    ∃ before after, IsBlank before ∧ IsBlank after ∧ text = before ++ word ++ after := by
  obtain ⟨before, after, hbefore, -, -, rfl, hafter⟩ := words_eq_cons h
  exact ⟨before, after, hbefore, words_eq_nil_iff.mp hafter, (List.append_assoc _ _ _).symm⟩

theorem ended_of_isBlank (h : IsBlank text) : Ended text := fun c hc =>
  h c (List.mem_of_mem_getLast? hc)

/-- Each of the words is somewhere in the text, between the words before and after it. -/
theorem exists_of_words_eq {ws ws' : List (List Char)} (h : words text = ws ++ word :: ws') :
    ∃ before after, text = before ++ (word ++ after) ∧ IsWord word ∧ Ended before ∧ Apart after ∧
      words before = ws ∧ words after = ws' := by
  induction ws generalizing text with
  | nil =>
    obtain ⟨before, after, hbefore, hword, hafter, rfl, hwords⟩ := words_eq_cons h
    exact ⟨before, after, rfl, hword, ended_of_isBlank hbefore, hafter,
      words_of_isBlank hbefore, hwords⟩
  | cons first ws ih =>
    obtain ⟨blank, rest, hblank, hfirst, hrest, rfl, hwords⟩ := words_eq_cons h
    obtain ⟨before, after, rfl, hword, hbefore, hafter, hws, hws'⟩ := ih hwords
    -- the two words are not one
    have hne : before ≠ [] := by
      rintro rfl
      obtain ⟨c, word, rfl⟩ := List.exists_cons_of_ne_nil hword.1
      have hc := hword.2 c List.mem_cons_self
      exact absurd (hrest c rfl) (by simp [hc])
    have happart : Apart before := fun c hc =>
      hrest c (by rw [List.head?_append_of_ne_nil _ hne]; exact hc)
    refine ⟨blank ++ (first ++ before), after, by simp, hword, fun c hc => ?_, hafter, ?_, hws'⟩
    · rw [← List.append_assoc, List.getLast?_append_of_ne_nil _ hne] at hc
      exact hbefore c hc
    · rw [words_blank_append hblank, hfirst.words_append happart, hws]

/-! ## Stripping -/

theorem rstrip_spec (text : List Char) : ∃ blank, IsBlank blank ∧ text = rstrip text ++ blank :=
  ⟨text.rtakeWhile isWhitespace, fun _ hc => List.mem_rtakeWhile_imp hc,
    List.rdropWhile_append_rtakeWhile.symm⟩

theorem stripped_spec (text : List Char) : ∃ before after, IsBlank before ∧ IsBlank after ∧
    text = before ++ stripped text ++ after := by
  obtain ⟨after, hafter, heq⟩ := rstrip_spec (text.dropWhile isWhitespace)
  refine ⟨text.takeWhile isWhitespace, after, fun _ hc => List.mem_takeWhile_imp hc, hafter, ?_⟩
  rw [List.append_assoc]
  exact List.takeWhile_append_dropWhile.symm.trans (congrArg _ heq)

@[simp] theorem words_rstrip (text : List Char) : words (rstrip text) = words text := by
  obtain ⟨blank, hblank, heq⟩ := rstrip_spec text
  exact (words_append_blank hblank _).symm.trans (congrArg words heq.symm)

@[simp] theorem words_stripped (text : List Char) : words (stripped text) = words text := by
  obtain ⟨before, after, hbefore, hafter, heq⟩ := stripped_spec text
  rw [← words_blank_append hbefore, ← words_append_blank hafter]
  exact congrArg words heq.symm

theorem rstrip_rstrip (text : List Char) : rstrip (rstrip text) = rstrip text :=
  List.rdropWhile_idempotent _ _

theorem rstrip_blank (text : List Char) (h : IsBlank blank) :
    rstrip (text ++ blank) = rstrip text := by
  unfold rstrip List.rdropWhile
  rw [List.reverse_append, List.dropWhile_append_of_pos fun c hc => h c (List.mem_reverse.mp hc)]

theorem IsWord.rstrip_eq (h : IsWord word) : rstrip word = word :=
  List.rdropWhile_eq_self_iff.mpr fun hne => by
    rw [h.2 _ (List.getLast_mem hne)]
    exact Bool.false_ne_true

theorem IsWord.stripped_eq (h : IsWord word) {before after : List Char} (hbefore : IsBlank before)
    (hafter : IsBlank after) : stripped (before ++ word ++ after) = word := by
  obtain ⟨c, rest, rfl⟩ := List.exists_cons_of_ne_nil h.1
  have hc : ¬ isWhitespace c := by simp [h.2 c List.mem_cons_self]
  rw [stripped, List.append_assoc, List.dropWhile_append_of_pos hbefore, List.cons_append,
    List.dropWhile_cons_of_neg hc, ← List.cons_append, rstrip_blank _ hafter, h.rstrip_eq]

/-- A line is stripped to a word if that is its only word. -/
theorem IsWord.stripped_iff (h : IsWord word) : stripped text = word ↔ words text = [word] := by
  constructor
  · intro hstripped
    rw [← words_stripped, hstripped, h.words_eq]
  · intro hwords
    obtain ⟨before, after, hbefore, hafter, rfl⟩ := words_eq_singleton hwords
    exact h.stripped_eq hbefore hafter

/-! ## Lines -/

/-- `text.splitlines()` -/
def contents (text : List Char) : List (List Char) := (splitLines text).map Line.content

/-- A text before the first of some lines. -/
def glue (before : List Char) : List (List Char) → List (List Char)
  | [] => [before]
  | line :: lines => (before ++ line) :: lines

theorem contents_consContent (c : Char) (lines : List Line) (before : List Char) :
    glue before ((consContent c lines).map Line.content) =
      glue (before ++ [c]) (lines.map Line.content) := by
  cases lines with
  | nil => rfl
  | cons line lines => simp [consContent, glue]

theorem flatMap_words_glue_nil (lines : List (List Char)) :
    (glue [] lines).flatMap words = lines.flatMap words := by
  cases lines <;> rfl

theorem flatMap_words_glue (before text : List Char) :
    (glue before (contents text)).flatMap words = words (before ++ text) := by
  unfold contents
  fun_induction splitLines text generalizing before with
  | case1 => simp [glue]
  | case2 rest ih =>
    have hrest := (flatMap_words_glue_nil _).symm.trans (ih [])
    simp only [List.map_cons, glue, List.append_nil, List.flatMap_cons, hrest, List.nil_append]
    rw [words_append_cons _ _ (by decide), words_cons (by decide)]
  | case3 c rest _ hend ih =>
    have hrest := (flatMap_words_glue_nil _).symm.trans (ih [])
    simp only [List.map_cons, glue, List.append_nil, List.flatMap_cons, hrest, List.nil_append]
    rw [words_append_cons _ _ (isWhitespace_of_isLineEnd hend)]
  | case4 c rest _ _ ih => rw [contents_consContent, ih, List.append_assoc, List.singleton_append]

/-- The words of a text are those of its lines. -/
theorem flatMap_words_contents (text : List Char) : (contents text).flatMap words = words text :=
  (flatMap_words_glue_nil _).symm.trans (flatMap_words_glue [] text)

/-! ## Texts that go on -/

/-- The complete lines of a text, and the beginning of a line after them. -/
def cut : List Char → List (List Char) × List Char
  | [] => ([], [])
  | '\r' :: '\n' :: rest => ([] :: (cut rest).1, (cut rest).2)
  | c :: rest =>
    if isLineEnd c then ([] :: (cut rest).1, (cut rest).2)
    else
      match cut rest with
      | ([], last) => ([], c :: last)
      | (line :: lines, last) => ((c :: line) :: lines, last)

@[simp] theorem glue_glue (a b : List Char) (lines : List (List Char)) :
    glue a (glue b lines) = glue (a ++ b) lines := by
  cases lines with
  | nil => rfl
  | cons line lines => exact congrArg (· :: lines) (List.append_assoc a b line).symm

theorem glue_nil {lines : List (List Char)} (h : lines ≠ []) : glue [] lines = lines := by
  cases lines with
  | nil => exact absurd rfl h
  | cons line lines => rfl

theorem contents_ne_nil (h : text ≠ []) : contents text ≠ [] := by
  simpa [contents] using splitLines_ne_nil h

theorem contents_cons (hc : isLineEnd c = false) (rest : List Char) :
    contents (c :: rest) = glue [c] (contents rest) := by
  have hne : contents (c :: rest) ≠ [] := contents_ne_nil (List.cons_ne_nil _ _)
  rw [← glue_nil hne, contents, splitLines_cons hc, contents_consContent]
  rfl

/-- A word goes on with the line after it. -/
theorem contents_clean_append (hclean : Clean text) (hne : text ≠ []) (rest : List Char) :
    contents (text ++ rest) = glue text (contents rest) := by
  induction text with
  | nil => exact absurd rfl hne
  | cons c text ih =>
    obtain ⟨hc, htext⟩ := List.forall_mem_cons.mp hclean
    rw [List.cons_append, contents_cons hc]
    cases text with
    | nil => rfl
    | cons d text => rw [ih htext (List.cons_ne_nil _ _), glue_glue, List.singleton_append]

theorem contents_line_end_cons (hc : isLineEnd c)
    (hreturn : ∀ more, c = '\r' → rest ≠ '\n' :: more) :
    contents (c :: rest) = [] :: contents rest := by
  rw [contents, splitLines, if_pos hc]
  · rfl
  · exact fun more h => hreturn more h

theorem contents_append_newline (hclean : Clean text) (rest : List Char) :
    contents (text ++ '\n' :: rest) = text :: contents rest := by
  have hline : contents ('\n' :: rest) = [] :: contents rest := by
    rw [contents, splitLines_newline]
    rfl
  by_cases hne : text = []
  · rw [hne, List.nil_append, hline]
  · rw [contents_clean_append hclean hne, hline, glue, List.append_nil]

/-- A text that goes on has its complete lines before the rest. -/
theorem contents_append_cons (hc : isLineEnd c = false) (text rest : List Char) :
    contents (text ++ c :: rest) = (cut text).1 ++ glue (cut text).2 (contents (c :: rest)) := by
  fun_induction cut text with
  | case1 => exact (glue_nil (contents_ne_nil (List.cons_ne_nil _ _))).symm
  | case2 text ih =>
    have hlines : contents ('\r' :: '\n' :: (text ++ c :: rest)) =
        [] :: contents (text ++ c :: rest) := by simp [contents, splitLines]
    exact hlines.trans (congrArg _ ih)
  | case3 d text hreturn hd ih =>
    rw [List.cons_append, contents_line_end_cons hd, ih, List.cons_append]
    rintro more rfl heq
    cases text with
    | nil =>
      obtain ⟨rfl, -⟩ := List.cons.inj heq
      exact absurd hc (by decide)
    | cons e text =>
      obtain ⟨rfl, -⟩ := List.cons.inj heq
      exact hreturn text rfl rfl
  | case4 d text hreturn hd last hcut ih =>
    rw [List.cons_append, contents_cons (by simpa using hd), ih, hcut, List.nil_append, glue_glue]
    rfl
  | case5 d text hreturn hd line lines last hcut ih =>
    rw [List.cons_append, contents_cons (by simpa using hd), ih, hcut]
    rfl

theorem contents_eq (text : List Char) :
    contents text = (cut text).1 ++ if (cut text).2 = [] then [] else [(cut text).2] := by
  fun_induction cut text with
  | case1 => rfl
  | case2 text ih =>
    have hlines : contents ('\r' :: '\n' :: text) = [] :: contents text := by
      simp [contents, splitLines]
    exact hlines.trans (congrArg _ ih)
  | case3 d text hreturn hd ih =>
    rw [contents_line_end_cons hd fun more hd' h => hreturn more hd' h, ih, List.cons_append]
  | case4 d text hreturn hd last hcut ih =>
    rw [contents_cons (by simpa using hd), ih, hcut]
    by_cases hlast : last = [] <;> simp [hlast, glue]
  | case5 d text hreturn hd line lines last hcut ih =>
    rw [contents_cons (by simpa using hd), ih, hcut]
    rfl

theorem clean_cut (text : List Char) : Clean (cut text).2 := by
  fun_induction cut text with
  | case1 => exact nofun
  | case2 text ih => exact ih
  | case3 c text _ _ ih => exact ih
  | case4 c text _ hc last hcut ih =>
    rw [hcut] at ih
    exact List.forall_mem_cons.mpr ⟨by simpa using hc, ih⟩
  | case5 c text _ _ line lines last hcut ih => rwa [hcut] at ih

/-- A complete line has words of the text. -/
theorem words_subset_of_mem_cut {line : List Char} (h : line ∈ (cut text).1) :
    words line ⊆ words text := by
  intro word hword
  rw [← flatMap_words_contents, contents_eq, List.flatMap_append]
  exact List.mem_append_left _ (List.mem_flatMap.mpr ⟨line, h, hword⟩)

end Text
