import NovaRtl.Benchmark.PowerLaws

/-!
# Dates of canonical dumps

A `$date` section on lines of its own leaves nothing of its text in the canonical dump. A section
that shares a line is not recognized: some dump that differs only inside it is mapped elsewhere.
-/

namespace NovaRtl.Power

open Text Vcd

variable {line before after : List Char} {lines more : List (List Char)} {item : DateSection}
  {items : List DateSection}

/-! ## Sections on lines of their own -/

/-- No line is just `$date`. -/
def NoDateLine (lines : List (List Char)) : Prop := ∀ line ∈ lines, stripped line ≠ dateWord

/-- The text after the last complete line is before a section or at the end. -/
def Opens (last : List Char) (items : List DateSection) : Prop :=
  if items = [] then stripped last ≠ dateWord else IsBlank last

/-- The text of a section begins and ends with a line break, and has no line that is just
`$date`. -/
def OwnInside (inside : List Char) : Prop :=
  match cut inside with
  | ([], _) => False
  | (first :: middle, last) => IsBlank first ∧ NoDateLine middle ∧ IsBlank last

/-- A line break follows the section, or the text ends. -/
def OwnRest (rest : List Char) (items : List DateSection) : Prop :=
  match cut rest with
  | ([], last) => items = [] ∧ IsBlank last
  | (first :: middle, last) => IsBlank first ∧ NoDateLine middle ∧ Opens last items

def OwnSections : List DateSection → Prop
  | [] => True
  | item :: items => OwnInside item.inside ∧ OwnRest item.rest items ∧ OwnSections items

/-- The keywords of each `$date` section are alone on their lines, and no other line is just
`$date`. -/
def OwnLines (dump : Dump) : Prop :=
  NoDateLine (cut dump.head).1 ∧ Opens (cut dump.head).2 dump.sections ∧ OwnSections dump.sections

/-! ## Their canonical lines -/

/-- The lines of a text that does not go on. -/
def endLines (last : List Char) : List (List Char) := if last = [] then [] else [rstrip last]

/-- The canonical lines of sections with those texts after them. -/
def restLines : List (List Char) → List (List Char)
  | [] => []
  | rest :: rests =>
    dateLines ++ (match cut rest with
      | ([], _) => []
      | (_ :: middle, last) => middle.map rstrip ++ if rests = [] then endLines last else []) ++
    restLines rests

theorem canonicalLines_append (h : NoDateLine lines) (more : List (List Char)) :
    canonicalLines false (lines ++ more) = lines.map rstrip ++ canonicalLines false more := by
  induction lines with
  | nil => rfl
  | cons line lines ih =>
    obtain ⟨hline, hlines⟩ := List.forall_mem_cons.mp h
    rw [List.cons_append, canonicalLines, if_neg hline, if_neg Bool.false_ne_true, ih hlines]
    rfl

theorem canonicalLines_inside (hdate : NoDateLine lines)
    (hend : ∀ line ∈ lines, endWord ∉ words line) (hline : stripped line = endWord)
    (more : List (List Char)) :
    canonicalLines true (lines ++ line :: more) = canonicalLines false more := by
  have hne : stripped line ≠ dateWord := by
    rw [hline]
    decide
  induction lines with
  | nil => rw [List.nil_append, canonicalLines, if_neg hne, if_pos rfl, if_pos hline]
  | cons first lines ih =>
    obtain ⟨hfirst, hlines⟩ := List.forall_mem_cons.mp hdate
    obtain ⟨hfirst', hlines'⟩ := List.forall_mem_cons.mp hend
    have hnot : stripped first ≠ endWord := by
      rw [Ne, isWord_endWord.stripped_iff]
      intro heq
      exact hfirst' (heq ▸ List.mem_singleton_self _)
    rw [List.cons_append, canonicalLines, if_neg hfirst, if_pos rfl, if_neg hnot,
      ih hlines hlines']

theorem clean_dateWord : Clean dateWord := clean_of_all (by decide)

theorem clean_endWord : Clean endWord := clean_of_all (by decide)

/-- The lines of a text that goes on with a keyword. -/
theorem contents_append_word {word : Word} (hclean : Clean word) (hne : word ≠ [])
    (text rest : List Char) : contents (text ++ (word ++ rest)) =
      (cut text).1 ++ contents ((cut text).2 ++ (word ++ rest)) := by
  obtain ⟨c, word, rfl⟩ := List.exists_cons_of_ne_nil hne
  rw [List.cons_append, contents_append_cons (hclean c List.mem_cons_self)]
  congr 1
  cases hlast : (cut text).2 with
  | nil => rw [glue_nil (contents_ne_nil (List.cons_ne_nil _ _)), List.nil_append]
  | cons d last =>
    exact (contents_clean_append (hlast ▸ clean_cut text) (List.cons_ne_nil _ _) _).symm

theorem contents_word {word : Word} (hclean : Clean word) (hne : word ≠ [])
    (hbefore : Clean before) (rest : List Char) :
    contents (before ++ (word ++ rest)) = glue (before ++ word) (contents rest) := by
  have hcleanWord : Clean (before ++ word) := List.forall_mem_append.mpr ⟨hbefore, hclean⟩
  rw [← List.append_assoc, contents_clean_append hcleanWord (by simp [hne])]

theorem contents_of_clean (h : Clean line) : contents line = if line = [] then [] else [line] := by
  by_cases hnil : line = []
  · rw [if_pos hnil, hnil]
    rfl
  · have hglue := contents_clean_append h hnil []
    rw [List.append_nil] at hglue
    rw [if_neg hnil, hglue]
    rfl

/-- The lines after a section. -/
theorem contents_rest {first last : List Char} {middle : List (List Char)}
    (hcut : cut item.rest = (first :: middle, last)) (items : List DateSection) :
    contents (item.rest ++ sectionsText items) =
      first :: (middle ++ contents (last ++ sectionsText items)) := by
  cases items with
  | nil =>
    have hclean : Clean last := by simpa [hcut] using clean_cut item.rest
    rw [sectionsText, List.flatMap_nil, List.append_nil, List.append_nil, contents_eq, hcut,
      contents_of_clean hclean]
    rfl
  | cons next items =>
    rw [sectionsText_cons, contents_append_word clean_dateWord isWord_dateWord.1, hcut]
    rfl

theorem canonicalLines_sections (hclean : Clean before) (hopens : Opens before items)
    (h : OwnSections items) : canonicalLines false (contents (before ++ sectionsText items)) =
      (if items = [] then endLines before else []) ++ restLines (items.map DateSection.rest) := by
  induction items generalizing before with
  | nil =>
    have hdate : stripped before ≠ dateWord := hopens
    rw [sectionsText, List.flatMap_nil, List.append_nil, contents_of_clean hclean, if_pos rfl,
      List.map_nil, restLines, List.append_nil, endLines]
    split
    · rfl
    · rw [canonicalLines, if_neg hdate, if_neg Bool.false_ne_true, canonicalLines]
  | cons item items ih =>
    obtain ⟨hinside, hrest, hitems⟩ := h
    have hbefore : IsBlank before := hopens
    unfold OwnInside at hinside
    unfold OwnRest at hrest
    split at hinside
    · exact hinside.elim
    next first middle last hcut =>
    obtain ⟨hfirst, hmiddle, hlast⟩ := hinside
    have hend : ∀ line ∈ middle, endWord ∉ words line := fun line hline hmem =>
      item.dated.words (words_subset_of_mem_cut (by rw [hcut]; exact List.mem_cons_of_mem _ hline)
        hmem)
    have hcleanLast : Clean last := by simpa [hcut] using clean_cut item.inside
    have hdate : stripped (before ++ dateWord ++ first) = dateWord :=
      isWord_dateWord.stripped_eq hbefore hfirst
    have hlines : contents (before ++ sectionsText (item :: items)) =
        (before ++ dateWord ++ first) ::
          (middle ++ glue (last ++ endWord) (contents (item.rest ++ sectionsText items))) := by
      rw [sectionsText_cons, contents_word clean_dateWord isWord_dateWord.1 hclean,
        contents_append_word clean_endWord isWord_endWord.1, hcut,
        contents_word clean_endWord isWord_endWord.1 hcleanLast]
      rfl
    rw [hlines, canonicalLines, if_pos hdate, if_neg (List.cons_ne_nil _ _), List.nil_append,
      List.map_cons, restLines, List.append_assoc]
    congr 1
    split at hrest
    next last' hcutRest =>
      obtain ⟨rfl, hlast'⟩ := hrest
      have hrest' : contents (item.rest ++ sectionsText []) =
          if last' = [] then [] else [last'] := by
        rw [sectionsText, List.flatMap_nil, List.append_nil, contents_eq, hcutRest]
        rfl
      have hline : glue (last ++ endWord) (contents (item.rest ++ sectionsText [])) =
          [last ++ endWord ++ last'] := by
        rw [hrest']
        by_cases hnil : last' = [] <;> simp [hnil, glue]
      rw [hline, canonicalLines_inside hmiddle hend (isWord_endWord.stripped_eq hlast hlast')]
      simp [canonicalLines, restLines]
    next first' middle' last' hcutRest =>
      obtain ⟨hfirst', hmiddle', hopens'⟩ := hrest
      have hcleanLast' : Clean last' := by simpa [hcutRest] using clean_cut item.rest
      rw [contents_rest hcutRest, glue,
        canonicalLines_inside hmiddle hend (isWord_endWord.stripped_eq hlast hfirst'),
        canonicalLines_append hmiddle', ih hcleanLast' hopens' hitems]
      simp

/-! ## The laws on lines of their own -/

variable {dump dump' : Dump}

theorem canonicalLines_of_ownLines (h : OwnLines dump) :
    canonicalLines false (contents dump.text) = (cut dump.head).1.map rstrip ++
      ((if dump.sections = [] then endLines (cut dump.head).2 else []) ++
        restLines (dump.sections.map DateSection.rest)) := by
  obtain ⟨hhead, hopens, hsections⟩ := h
  have hlines : contents dump.text = (cut dump.head).1 ++
      contents ((cut dump.head).2 ++ sectionsText dump.sections) := by
    rw [Dump.text]
    cases dump.sections with
    | nil =>
      rw [sectionsText, List.flatMap_nil, List.append_nil, List.append_nil, contents_eq,
        contents_of_clean (clean_cut _)]
    | cons item items =>
      rw [sectionsText_cons, contents_append_word clean_dateWord isWord_dateWord.1]
  rw [hlines, canonicalLines_append hhead, canonicalLines_sections (clean_cut _) hopens hsections]

/-- Of a section on lines of its own nothing is left. -/
theorem canonicalizeVcd_eq_of_ownLines (hsame : SameOutside dump dump') (h : OwnLines dump)
    (h' : OwnLines dump') : canonicalizeVcd dump.bytes = canonicalizeVcd dump'.bytes := by
  obtain ⟨hhead, hrests⟩ := hsame
  have hnil : dump.sections = [] ↔ dump'.sections = [] := by
    rw [← List.map_eq_nil_iff (f := DateSection.rest), hrests, List.map_eq_nil_iff]
  rw [canonicalizeVcd_bytes, canonicalizeVcd_bytes, canonicalText, canonicalText,
    canonicalLines_of_ownLines h, canonicalLines_of_ownLines h', hhead, hrests]
  simp only [hnil]

theorem words_cut (text : List Char) : wordsOf (cut text).1 ++ words (cut text).2 = words text := by
  rw [← flatMap_words_contents text, contents_eq, List.flatMap_append]
  by_cases hnil : (cut text).2 = []
  · rw [hnil, if_pos rfl]
    rfl
  · rw [if_neg hnil, List.flatMap_singleton]
    rfl

theorem wordsOf_map_rstrip (lines : List (List Char)) :
    wordsOf (lines.map rstrip) = wordsOf lines := by
  simp [wordsOf, List.flatMap_map]

theorem wordsOf_endLines (last : List Char) : wordsOf (endLines last) = words last := by
  unfold endLines
  split
  next hnil => rw [hnil]; rfl
  · simp [wordsOf]

theorem wordsOf_opens {last : List Char} (h : Opens last items) :
    wordsOf (if items = [] then endLines last else []) = words last := by
  unfold Opens at h
  split
  · exact wordsOf_endLines last
  next hne =>
    rw [if_neg hne] at h
    exact (words_of_isBlank h).symm

theorem wordsOf_restLines (h : OwnSections items) :
    wordsOf (restLines (items.map DateSection.rest)) =
      items.flatMap fun item => dateWords ++ words item.rest := by
  induction items with
  | nil => rfl
  | cons item items ih =>
    obtain ⟨-, hrest, hitems⟩ := h
    have hwords := words_cut item.rest
    rw [List.map_cons, restLines, wordsOf, List.flatMap_append, List.flatMap_append,
      words_dateLines, List.flatMap_cons, ← ih hitems, ← hwords]
    unfold OwnRest at hrest
    split at hrest
    next last hcut =>
      obtain ⟨rfl, hlast⟩ := hrest
      simp [hcut, words_of_isBlank hlast, wordsOf]
    next first middle last hcut =>
      obtain ⟨hfirst, -, hopens⟩ := hrest
      have hlast := wordsOf_opens hopens
      have hmiddle := wordsOf_map_rstrip middle
      unfold wordsOf at hlast hmiddle ⊢
      simp only [hcut, List.flatMap_append, List.flatMap_cons, hmiddle, words_of_isBlank hfirst,
        List.map_eq_nil_iff, hlast, List.nil_append]

theorem shown_dateWords_append (ws : List Word) :
    Scan.command.shown (dateWords ++ ws) = Scan.command.shown ws := by
  obtain ⟨hrun, hshown⟩ := scan_dateWords .command
  rw [Scan.shown_append, hrun, hshown]
  rfl

theorem keeps_of_ownLines (h : OwnLines dump) : Keeps dump := by
  have hwords : wordsOf (canonicalLines false (contents dump.text)) = words dump.head ++
      dump.sections.flatMap fun item => dateWords ++ words item.rest := by
    rw [canonicalLines_of_ownLines h, wordsOf_append, wordsOf_append, wordsOf_map_rstrip,
      wordsOf_opens h.2.1, wordsOf_restLines h.2.2, ← List.append_assoc, words_cut]
  obtain ⟨-, hrun, hshown⟩ := dump.head_commands.scanned
  rw [keeps_iff_outside, dump.scanned.2.2, outside_canonicalText, hwords, Scan.shown_append, hrun,
    hshown]
  congr 1
  induction dump.sections with
  | nil => rfl
  | cons item items ih =>
    obtain ⟨-, hrun, hshown⟩ := item.rest_commands.scanned
    rw [List.flatMap_cons, List.append_assoc, shown_dateWords_append, Scan.shown_append, hrun,
      hshown, ih, List.flatMap_cons]

/-! ## Sections that are not recognized -/

theorem canonicalLines_prefix (skippingDate : Bool) (lines : List (List Char)) :
    ∃ (skipping : Bool) (kept : List (List Char)), ∀ more,
      canonicalLines skippingDate (lines ++ more) = kept ++ canonicalLines skipping more := by
  induction lines generalizing skippingDate with
  | nil => exact ⟨skippingDate, [], fun _ => rfl⟩
  | cons line lines ih =>
    by_cases hdate : stripped line = dateWord
    · obtain ⟨skipping, kept, h⟩ := ih true
      exact ⟨skipping, dateLines ++ kept, fun more => by
        rw [List.cons_append, canonicalLines, if_pos hdate, h, List.append_assoc]⟩
    · cases skippingDate with
      | false =>
        obtain ⟨skipping, kept, h⟩ := ih false
        exact ⟨skipping, rstrip line :: kept, fun more => by
          rw [List.cons_append, canonicalLines, if_neg hdate, if_neg Bool.false_ne_true, h]
          rfl⟩
      | true =>
        by_cases hend : stripped line = endWord
        · obtain ⟨skipping, kept, h⟩ := ih false
          exact ⟨skipping, kept, fun more => by
            rw [List.cons_append, canonicalLines, if_neg hdate, if_pos rfl, if_pos hend, h]⟩
        · obtain ⟨skipping, kept, h⟩ := ih true
          exact ⟨skipping, kept, fun more => by
            rw [List.cons_append, canonicalLines, if_neg hdate, if_pos rfl, if_neg hend, h]⟩

theorem exists_glue (lines : List (List Char)) : ∃ (rest : List Char) (more : List (List Char)),
    ∀ before, glue before lines = (before ++ rest) :: more := by
  cases lines with
  | nil => exact ⟨[], [], fun before => by rw [List.append_nil]; rfl⟩
  | cons line lines => exact ⟨line, lines, fun _ => rfl⟩

/-- A line with another word is not just the keyword. -/
theorem stripped_ne {keyword word : Word} (hkeyword : IsWord keyword) (hmem : word ∈ words line)
    (hne : word ≠ keyword) : stripped line ≠ keyword := by
  rw [Ne, hkeyword.stripped_iff]
  intro heq
  rw [heq] at hmem
  exact hne (List.mem_singleton.mp hmem)

/-- A text on the line of the keywords. -/
def sameLine (c : Char) : List Char := [' ', c, ' ']

/-- A text with a line that is just `$date`. -/
def dateInside : List Char := [' ', 'X', '\n'] ++ (dateWord ++ ['\n', 'X', ' '])

theorem inside_sameLine {c : Char} (hc : isWhitespace c = false) :
    Inside (sameLine c) where
  ne := List.cons_ne_nil _ _
  apart d hd := by
    obtain rfl : ' ' = d := Option.some.inj hd
    decide
  ended d hd := by
    obtain rfl : ' ' = d := Option.some.inj hd
    decide
  words := by
    have hword : IsWord [c] := ⟨List.cons_ne_nil _ _, by simpa using hc⟩
    have hwords : words (sameLine c) = [[c]] :=
      (words_cons (by decide) _).trans ((words_append_blank (by decide) [c]).trans hword.words_eq)
    rw [hwords]
    simp [endWord]

theorem inside_dateInside : Inside dateInside where
  ne := by decide
  apart d hd := by
    obtain rfl : ' ' = d := Option.some.inj hd
    decide
  ended d hd := by
    obtain rfl : ' ' = d := Option.some.inj hd
    decide
  words := by decide

variable {head rest : List Char}

/-- The text of a dump with that text inside its first section. -/
def dated (head inside rest : List Char) : List Char :=
  head ++ (dateWord ++ (inside ++ (endWord ++ rest)))

theorem contents_sameLine {c : Char} (hc : isLineEnd c = false) (head rest : List Char) :
    contents (dated head (sameLine c) rest) = (cut head).1 ++
      glue ((cut head).2 ++ (dateWord ++ (sameLine c ++ endWord))) (contents rest) := by
  have hclean : Clean (sameLine c) := by
    intro d hd
    simp only [sameLine, List.mem_cons, List.not_mem_nil, or_false] at hd
    obtain rfl | rfl | rfl := hd
    · decide
    · exact hc
    · decide
  rw [dated, contents_append_word clean_dateWord isWord_dateWord.1,
    contents_word clean_dateWord isWord_dateWord.1 (clean_cut head),
    contents_word clean_endWord isWord_endWord.1 hclean, glue_glue]
  simp

theorem contents_dateInside (head rest : List Char) :
    contents (dated head dateInside rest) = (cut head).1 ++
      ((cut head).2 ++ (dateWord ++ [' ', 'X'])) :: dateWord ::
        glue (['X', ' '] ++ endWord) (contents rest) := by
  have hfirst : Clean ((cut head).2 ++ (dateWord ++ [' ', 'X'])) :=
    List.forall_mem_append.mpr ⟨clean_cut head, clean_of_all (by decide)⟩
  have hlast : Clean ['X', ' '] := clean_of_all (by decide)
  have htext : (cut head).2 ++ (dateWord ++ (dateInside ++ (endWord ++ rest))) =
      ((cut head).2 ++ (dateWord ++ [' ', 'X'])) ++
        '\n' :: (dateWord ++ '\n' :: (['X', ' '] ++ (endWord ++ rest))) := by
    simp [dateInside]
  rw [dated, contents_append_word clean_dateWord isWord_dateWord.1, htext,
    contents_append_newline hfirst, contents_append_newline clean_dateWord,
    contents_word clean_endWord isWord_endWord.1 hlast]

/-- The line of a section on one line. -/
theorem words_sameLine {c : Char} (hc : isWhitespace c = false) (before after : List Char) :
    words (before ++ (dateWord ++ (sameLine c ++ endWord)) ++ after) =
      words (before ++ dateWord) ++ [c] :: words (endWord ++ after) := by
  have hword : IsWord [c] := ⟨List.cons_ne_nil _ _, by simpa using hc⟩
  have hline : before ++ (dateWord ++ (sameLine c ++ endWord)) ++ after =
      (before ++ dateWord) ++ ' ' :: ([c] ++ ' ' :: (endWord ++ after)) := by
    simp [sameLine]
  rw [hline, words_append_cons _ _ (by decide), words_append_cons _ _ (by decide), hword.words_eq]
  rfl

/-- A line with a word that is no keyword is skipped. -/
theorem canonicalLines_skips {word : Word} (hmem : word ∈ words line) (hdate : word ≠ dateWord)
    (hend : word ≠ endWord) (more : List (List Char)) :
    canonicalLines true (line :: more) = canonicalLines true more := by
  rw [canonicalLines, if_neg (stripped_ne isWord_dateWord hmem hdate), if_pos rfl,
    if_neg (stripped_ne isWord_endWord hmem hend)]

/-- Outside a skip the line is kept. -/
theorem canonicalLines_keeps {word : Word} (hmem : word ∈ words line) (hdate : word ≠ dateWord)
    (more : List (List Char)) :
    canonicalLines false (line :: more) = rstrip line :: canonicalLines false more := by
  rw [canonicalLines, if_neg (stripped_ne isWord_dateWord hmem hdate), if_neg Bool.false_ne_true]

/-- Every section can be written so that its text is left in the canonical dump or another number
of sections is. -/
theorem exists_variants (head rest : List Char) :
    canonicalText (dated head (sameLine 'X') rest) ≠
        canonicalText (dated head (sameLine 'Y') rest) ∨
      canonicalText (dated head (sameLine 'X') rest) ≠
        canonicalText (dated head dateInside rest) := by
  obtain ⟨first, more, hglue⟩ := exists_glue (contents rest)
  obtain ⟨skipping, kept, hkept⟩ := canonicalLines_prefix false (cut head).1
  have hX := words_sameLine (c := 'X') (by decide) (cut head).2 first
  have hY := words_sameLine (c := 'Y') (by decide) (cut head).2 first
  have hmemX := hX ▸ List.mem_append_right (words ((cut head).2 ++ dateWord)) List.mem_cons_self
  have hmemY := hY ▸ List.mem_append_right (words ((cut head).2 ++ dateWord)) List.mem_cons_self
  rw [canonicalText, canonicalText, canonicalText, contents_sameLine (by decide),
    contents_sameLine (by decide), contents_dateInside, hglue, hglue, hglue, hkept, hkept, hkept]
  cases skipping with
  | true =>
    refine .inr fun heq => ?_
    have hbefore : ['X'] ∈ words ((cut head).2 ++ (dateWord ++ [' ', 'X'])) := by
      have hline : (cut head).2 ++ (dateWord ++ [' ', 'X']) =
          ((cut head).2 ++ dateWord) ++ ' ' :: ['X'] := by simp
      rw [hline, words_append_cons _ _ (by decide)]
      exact List.mem_append_right _ (by decide)
    have hafter : ['X'] ∈ words (['X', ' '] ++ endWord ++ first) := by
      have hline : ['X', ' '] ++ endWord ++ first = ['X'] ++ ' ' :: (endWord ++ first) := by simp
      rw [hline, words_append_cons _ _ (by decide)]
      exact List.mem_append_left _ (by decide)
    have hdate : stripped dateWord = dateWord := by decide
    rw [canonicalLines_skips hmemX (by decide) (by decide),
      canonicalLines_skips hbefore (by decide) (by decide), canonicalLines, if_pos hdate,
      canonicalLines_skips hafter (by decide) (by decide)] at heq
    have hwords := congrArg words heq
    rw [words_joined, words_joined, List.flatMap_append, List.flatMap_append,
      List.flatMap_append, words_dateLines] at hwords
    have hlength := congrArg List.length (List.append_cancel_left hwords)
    rw [List.length_append, dateWords, List.length_cons] at hlength
    omega
  | false =>
    refine .inl fun heq => ?_
    rw [canonicalLines_keeps hmemX (by decide), canonicalLines_keeps hmemY (by decide)] at heq
    have hwords := congrArg words heq
    rw [words_joined, words_joined, List.flatMap_append, List.flatMap_append,
      List.flatMap_cons, List.flatMap_cons, words_rstrip, words_rstrip, hX, hY] at hwords
    have hline := List.append_cancel_left hwords
    rw [List.append_assoc, List.append_assoc] at hline
    have hword := (List.cons.inj (List.append_cancel_left hline)).1
    exact absurd hword (by decide)

/-- A section is followed by another one with a text that is left in the canonical dump. -/
theorem exists_other (hsections : dump.sections ≠ []) :
    ∃ dump' : Dump, SameOutside dump dump' ∧
      canonicalizeVcd dump.bytes ≠ canonicalizeVcd dump'.bytes := by
  obtain ⟨item, items, hsections⟩ := List.exists_cons_of_ne_nil hsections
  have htext : ∀ {inside : List Char} (h : Inside inside), (dump.withInside hsections h).text =
      dated dump.head inside (item.rest ++ sectionsText items) := by
    intro inside h
    rw [Dump.text, dated]
    exact congrArg (dump.head ++ ·) (sectionsText_cons _ items)
  have hsame : ∀ {inside : List Char} (h : Inside inside),
      SameOutside dump (dump.withInside hsections h) := fun h =>
    ⟨rfl, by rw [hsections]; rfl⟩
  by_contra hall
  push Not at hall
  have hcanonical : ∀ {inside inside' : List Char}, Inside inside → Inside inside' →
      canonicalText (dated dump.head inside (item.rest ++ sectionsText items)) =
        canonicalText (dated dump.head inside' (item.rest ++ sectionsText items)) := by
    intro inside inside' h h'
    have heq := (hall _ (hsame h)).symm.trans (hall _ (hsame h'))
    rw [canonicalizeVcd_bytes, canonicalizeVcd_bytes, htext, htext, Option.some.injEq] at heq
    exact String.ofList_injective (encode_injective heq)
  rcases exists_variants dump.head (item.rest ++ sectionsText items) with hne | hne
  · exact hne (hcanonical (inside_sameLine (by decide)) (inside_sameLine (by decide)))
  · exact hne (hcanonical (inside_sameLine (by decide)) inside_dateInside)

/-! ## When the laws hold -/

/-- The canonical content of a dump is its own, keeps what is outside the `$date` sections, and is
that of every dump with the same text outside them. -/
def Lawful (dump : Dump) : Prop :=
  (∃ canonical, canonicalizeVcd dump.bytes = some canonical ∧
    canonicalizeVcd canonical = some canonical) ∧ Keeps dump ∧
  ∀ dump', SameOutside dump dump' → canonicalizeVcd dump.bytes = canonicalizeVcd dump'.bytes

theorem eq_of_nil (hnil : dump.sections = []) (hsame : SameOutside dump dump') :
    canonicalizeVcd dump.bytes = canonicalizeVcd dump'.bytes := by
  obtain ⟨hhead, hrests⟩ := hsame
  rw [hnil, List.map_nil] at hrests
  have hnil' : dump'.sections = [] := List.map_eq_nil_iff.mp hrests.symm
  rw [Dump.bytes, Dump.bytes, Dump.text, Dump.text, hhead, hnil, hnil']

/-- A `$date` section and a time scale. -/
def timed {inside : List Char} (h : Inside inside) : Dump where
  head := []
  sections :=
    [{ inside
       rest := "\n$timescale 1ps $end\n".toList
       dated := h
       rest_apart := fun c hc => by
        obtain rfl : '\n' = c := Option.some.inj hc
        decide
       rest_commands := by
        refine ⟨[["$timescale".toList, "1ps".toList, endWord]], fun command hcommand => ?_, rfl⟩
        obtain rfl := List.mem_singleton.mp hcommand
        exact @Command.text "$timescale".toList ["1ps".toList] (by decide) (by decide) }]
  head_commands := ⟨[], nofun, rfl⟩
  separated := ⟨nofun, fun h => absurd rfl h, trivial⟩

theorem inside_one : Inside (sameLine '1') := inside_sameLine (by decide)

theorem inside_two : Inside (sameLine '2') := inside_sameLine (by decide)

theorem inside_ownDate : Inside "\n  1 ".toList where
  ne := by decide
  apart c hc := by
    obtain rfl : '\n' = c := Option.some.inj hc
    decide
  ended c hc := by
    obtain rfl : ' ' = c := Option.some.inj hc
    decide
  words := by decide

end NovaRtl.Power
