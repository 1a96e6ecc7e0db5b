import NovaRtl.Benchmark.Power

/-!
# What canonical dumps keep

The laws of `_canonicalize_vcd`. The words that the code writes for a section are scanned beside
the words that it skips, and the two scans agree after every skip.
-/

namespace NovaRtl.Power

open Text Vcd Scan

/-! ## Two scans -/

/-- The scans read what follows alike: `$end` after value changes may end a command or not. -/
def Agree (first second : Scan) : Prop :=
  first = second ∨ first = .dump ∧ second = .command ∨ first = .dumpCode ∧ second = .code

variable {scan scan' : Scan} {word : Word} {ws : List Word} {line : List Char}
  {lines : List (List Char)}

theorem Agree.refl (scan : Scan) : Agree scan scan := .inl rfl

theorem Agree.next (h : Agree scan scan') (hadmits : scan.Admits word) :
    Agree (scan.next word) (scan'.next word) ∧ scan.shows word = scan'.shows word := by
  obtain rfl | ⟨rfl, rfl⟩ | ⟨rfl, rfl⟩ := h
  · exact ⟨.refl _, rfl⟩
  · rcases hadmits with rfl | hvector | hscalar
    · exact ⟨.inl rfl, rfl⟩
    · obtain ⟨hdate, hend, htext, hdump⟩ := not_keyword (isVectorValue_head hvector)
      exact ⟨.inr (.inr (by simp [Scan.next, *])), by simp [shows, hdate]⟩
    · obtain ⟨hdate, hend, htext, hdump⟩ := not_keyword (isScalarChange_head hscalar)
      have hvector := not_isVectorValue_of_isScalarChange hscalar
      exact ⟨.inr (.inl (by simp [Scan.next, *])), by simp [shows, hdate]⟩
  · exact ⟨.inr (.inl ⟨rfl, rfl⟩), rfl⟩

theorem Agree.run (h : Agree scan scan') (hadmits : scan.AdmitsAll ws) :
    Agree (scan.run ws) (scan'.run ws) ∧ scan.shown ws = scan'.shown ws := by
  induction ws generalizing scan scan' with
  | nil => exact ⟨h, rfl⟩
  | cons word ws ih =>
    obtain ⟨hword, hws⟩ := hadmits
    obtain ⟨hnext, hshows⟩ := h.next hword
    obtain ⟨hrun, hshown⟩ := ih hnext hws
    exact ⟨hrun, by rw [shown, shown, hshows, hshown]⟩

/-- After an admitted `$end` the scan agrees with one between commands. -/
theorem agree_end (h : scan.Admits endWord) : Agree (scan.next endWord) .command := by
  cases scan with
  | command => exact absurd h (by unfold Admits; decide)
  | date => exact .refl _
  | text => exact .refl _
  | code => exact .refl _
  | dump => exact .refl _
  | dumpCode => exact .inr (.inl ⟨rfl, rfl⟩)

/-! ## What is shown first -/

/-- No command besides `$date` starts with a word that stands for a section. -/
theorem head_shown (hscan : scan = .command ∨ scan = .date) (hadmits : scan.AdmitsAll ws) :
    ∀ first ∈ (scan.shown ws).head?, first ∉ dateWords := by
  induction ws generalizing scan with
  | nil => exact fun _ h => by cases h
  | cons word ws ih =>
    obtain ⟨hword, hws⟩ := hadmits
    rcases hscan with rfl | rfl
    · by_cases hdate : word = dateWord
      · subst hdate
        exact ih (.inr rfl) hws
      · have hnot : word ∉ dateWords := by
          intro hmem
          simp only [dateWords, List.mem_cons, List.not_mem_nil, or_false] at hmem
          obtain rfl | rfl | rfl := hmem
          · exact hdate rfl
          · exact absurd hword (by unfold Admits; decide)
          · exact absurd hword (by unfold Admits; decide)
        simpa [shown, shows, hdate] using hnot
    · have hnext : Scan.date.next word = .command ∨ Scan.date.next word = .date := by
        by_cases hend : word = endWord
        · exact .inl (if_pos hend)
        · exact .inr (if_neg hend)
      exact ih hnext hws

theorem head_shown_ne (hagree : Agree scan .command) (hadmits : scan.AdmitsAll ws) :
    ∀ first ∈ (scan.shown ws).head?, first ≠ novaWord := by
  obtain rfl | ⟨rfl, -⟩ | ⟨-, hcode⟩ := hagree
  · intro first hfirst heq
    exact head_shown (.inl rfl) hadmits first hfirst (heq ▸ by decide)
  · cases ws with
    | nil => exact fun _ h => by cases h
    | cons word ws =>
      have hnot : word ≠ novaWord := by
        rintro rfl
        exact absurd hadmits.1 (by unfold Admits; decide)
      simpa [shown, shows] using hnot
  · cases hcode

/-! ## Words that stand for sections -/

theorem scan_dateWords (scan : Scan) : scan.run dateWords = .command ∧
    scan.shown dateWords = if scan = .command ∨ scan = .date then [] else dateWords := by
  cases scan <;> decide

theorem scan_replicate (n : ℕ) : Scan.command.run (List.replicate n dateWords).flatten = .command ∧
    Scan.command.shown (List.replicate n dateWords).flatten = [] := by
  induction n with
  | zero => exact ⟨rfl, rfl⟩
  | succ n ih =>
    obtain ⟨hrun, hshown⟩ := scan_dateWords .command
    rw [List.replicate_succ, List.flatten_cons, run_append, shown_append, hrun, hshown]
    exact ⟨ih.1, ih.2⟩

/-! ## After a skip -/

/-- The words of some lines. -/
def wordsOf (lines : List (List Char)) : List Word := lines.flatMap words

theorem wordsOf_cons (line : List Char) (lines : List (List Char)) :
    wordsOf (line :: lines) = words line ++ wordsOf lines := List.flatMap_cons

theorem wordsOf_append (first second : List (List Char)) :
    wordsOf (first ++ second) = wordsOf first ++ wordsOf second := List.flatMap_append

/-- The words of a `$date` line and of the lines that are skipped after it. -/
def skippedWords (lines : List (List Char)) : List Word := dateWord :: wordsOf (skipped lines)

theorem wordsOf_date (hdate : stripped line = dateWord) :
    wordsOf (line :: lines) = skippedWords lines ++ wordsOf (resumed lines) := by
  have hlines := congrArg wordsOf (skipped_append_resumed lines)
  rw [wordsOf_append] at hlines
  rw [wordsOf_cons, isWord_dateWord.stripped_iff.mp hdate]
  exact congrArg (dateWord :: ·) hlines.symm

theorem spares_date (hdate : stripped line = dateWord) : Spares scan (line :: lines) ↔
    (scan.shown (skippedWords lines) = [] ∨ scan.shown (skippedWords lines) = dateWords) ∧
      Spares (scan.run (skippedWords lines)) (resumed lines) := by
  rw [Spares, if_pos hdate, isWord_dateWord.stripped_iff.mp hdate]
  rfl

theorem spares_of_ne (hdate : stripped line ≠ dateWord) :
    Spares scan (line :: lines) ↔ Spares (scan.run (words line)) lines := by
  rw [Spares, if_neg hdate]

theorem shown_canonicalLines_date (hdate : stripped line = dateWord) :
    scan.shown (wordsOf (canonicalLines false (line :: lines))) =
      (if scan = .command ∨ scan = .date then [] else dateWords) ++
        Scan.command.shown (wordsOf (canonicalLines false (resumed lines))) := by
  obtain ⟨hrun, hshown⟩ := scan_dateWords scan
  obtain ⟨hrun', hshown'⟩ := scan_replicate (dateCount (skipped lines))
  rw [canonicalLines, if_pos hdate, wordsOf, List.flatMap_append, words_dateLines, words_skipped,
    shown_append, hrun, hshown, shown_append, hrun', hshown']
  rfl

theorem wordsOf_canonicalLines_of_ne (hdate : stripped line ≠ dateWord) :
    wordsOf (canonicalLines false (line :: lines)) =
      words line ++ wordsOf (canonicalLines false lines) := by
  rw [canonicalLines, if_neg hdate, if_neg Bool.false_ne_true, wordsOf, List.flatMap_cons,
    words_rstrip]
  rfl

/-- The scan of a dump reads the lines to the end of the last command. -/
def Completes (scan : Scan) (lines : List (List Char)) : Prop :=
  scan.AdmitsAll (wordsOf lines) ∧ scan.run (wordsOf lines) = .command

theorem Completes.cons (h : Completes scan (line :: lines)) :
    scan.AdmitsAll (words line) ∧ Completes (scan.run (words line)) lines := by
  obtain ⟨hadmits, hrun⟩ := h
  rw [wordsOf_cons, admitsAll_append] at hadmits
  rw [wordsOf_cons, run_append] at hrun
  exact ⟨hadmits.1, hadmits.2, hrun⟩

/-- After a skip the scan of the dump agrees with that of the canonical text. -/
theorem Completes.resumed (h : Completes scan (line :: lines)) (hdate : stripped line = dateWord) :
    scan.AdmitsAll (skippedWords lines) ∧ Agree (scan.run (skippedWords lines)) .command ∧
      Completes (scan.run (skippedWords lines)) (resumed lines) := by
  obtain ⟨hadmits, hrun⟩ := h
  rw [wordsOf_date hdate, admitsAll_append] at hadmits
  rw [wordsOf_date hdate, run_append] at hrun
  refine ⟨hadmits.1, ?_, hadmits.2, hrun⟩
  rcases skipped_ends lines with hnil | ⟨before, hbefore⟩
  · rw [hnil] at hrun
    exact .inl hrun
  · have hwords : skippedWords lines = (dateWord :: before) ++ [endWord] := congrArg _ hbefore
    rw [hwords, admitsAll_append] at hadmits
    rw [hwords, run_append]
    exact agree_end hadmits.1.2.1

/-! ## What is kept -/

/-- A scan that admits `$date` is not inside a dump of values. -/
theorem Agree.hides_iff (h : Agree scan scan') (hadmits : scan.Admits dateWord) :
    (scan = .command ∨ scan = .date) ↔ (scan' = .command ∨ scan' = .date) := by
  obtain rfl | ⟨rfl, rfl⟩ | ⟨rfl, rfl⟩ := h
  · rfl
  · exact absurd hadmits (by unfold Admits; decide)
  · decide

theorem shown_skippedWords (hscan : ¬ (scan = .command ∨ scan = .date)) :
    scan.shown (skippedWords lines) =
      dateWord :: (scan.next dateWord).shown (wordsOf (skipped lines)) := by
  cases scan with
  | command => exact absurd (.inl rfl) hscan
  | date => exact absurd (.inr rfl) hscan
  | _ => rfl

/-- The canonical text shows no word more often, but for two that stand for a section. -/
theorem count_shown_le (hagree : Agree scan scan') (hlines : Completes scan lines)
    (hnova : word ≠ novaWord) (hend : word ≠ endWord) :
    (scan'.shown (wordsOf (canonicalLines false lines))).count word ≤
      (scan.shown (wordsOf lines)).count word := by
  induction lines using skip_induction generalizing scan scan' with
  | nil => exact Nat.le_refl _
  | keep line lines hdate ih =>
    obtain ⟨hadmits, hrest⟩ := hlines.cons
    obtain ⟨hrun, hshown⟩ := hagree.run hadmits
    rw [wordsOf_canonicalLines_of_ne hdate, wordsOf_cons, shown_append, shown_append, hshown,
      List.count_append, List.count_append]
    exact Nat.add_le_add_left (ih hrun hrest) _
  | skip line lines hdate ih =>
    obtain ⟨hadmits, hrun, hrest⟩ := hlines.resumed hdate
    have hskipped : (if scan' = .command ∨ scan' = .date then [] else dateWords).count word ≤
        (scan.shown (skippedWords lines)).count word := by
      split
      · exact Nat.zero_le _
      next hscan =>
        rw [shown_skippedWords (mt (hagree.hides_iff hadmits.1).mp hscan), List.count_cons]
        simp only [dateWords, List.count_cons, List.count_nil, beq_iff_eq, Ne.symm hnova,
          Ne.symm hend, if_false]
        omega
    rw [shown_canonicalLines_date hdate, wordsOf_date hdate, shown_append, List.count_append,
      List.count_append]
    exact Nat.add_le_add hskipped (ih hrun hrest)

/-- Words that a command starts with are not made up for. -/
theorem eq_nil_of_count_le {first rest rest' : List Word}
    (hfirst : ∀ word ∈ first.head?, word ∉ dateWords)
    (hcount : ∀ word, word ≠ novaWord → word ≠ endWord → rest'.count word ≤ rest.count word)
    (h : first ++ rest = rest') : first = [] := by
  cases first with
  | nil => rfl
  | cons word first =>
    have hnot : word ∉ dateWords := hfirst word rfl
    simp only [dateWords, List.mem_cons, List.not_mem_nil, or_false, not_or] at hnot
    have hle := hcount word hnot.2.1 hnot.2.2
    rw [← h, List.count_append, List.count_cons_self] at hle
    omega

/-- In the text of a command, what is skipped is the words that stand for a section. -/
theorem text_skip {ws rest rest' : List Word} (hadmits : Scan.text.AdmitsAll ws)
    (hagree : Agree (Scan.text.run ws) .command)
    (hcount : ∀ word, word ≠ novaWord → word ≠ endWord → rest'.count word ≤ rest.count word)
    (h : Scan.text.shown ws ++ rest = novaWord :: endWord :: rest') :
    Scan.text.shown ws = [novaWord, endWord] := by
  have htext : ¬ Agree Scan.text .command := by
    unfold Agree
    decide
  cases ws with
  | nil => exact absurd hagree htext
  | cons first ws =>
    obtain ⟨rfl, h⟩ := List.cons.inj h
    cases ws with
    | nil => exact absurd hagree htext
    | cons second ws =>
      obtain ⟨rfl, h⟩ := List.cons.inj h
      have hnil : Scan.command.shown ws = [] :=
        eq_nil_of_count_le (head_shown (.inl rfl) hadmits.2.2) hcount h
      exact congrArg (novaWord :: endWord :: ·) hnil

theorem append_ne_cons {first rest rest' : List Word}
    (hfirst : ∀ word ∈ first.head?, word ≠ novaWord) (hrest : ∀ word ∈ rest.head?, word ≠ novaWord) :
    first ++ rest ≠ novaWord :: rest' := by
  intro h
  cases first with
  | nil =>
    rw [List.nil_append] at h
    exact hrest novaWord (by rw [h]; rfl) rfl
  | cons word first => exact hfirst word rfl (List.cons.inj h).1

/-- A skip that is not at a `$date` section keeps the words outside the sections only if they are
those that stand for a section. -/
theorem inner_skip {rest' : List Word} (hscan : ¬ (scan = .command ∨ scan = .date))
    (hadmits : scan.AdmitsAll (skippedWords lines))
    (hagree : Agree (scan.run (skippedWords lines)) .command)
    (hlines : Completes (scan.run (skippedWords lines)) (resumed lines))
    (hcount : ∀ word, word ≠ novaWord → word ≠ endWord → rest'.count word ≤
      ((scan.run (skippedWords lines)).shown (wordsOf (resumed lines))).count word)
    (h : scan.shown (skippedWords lines) ++
        (scan.run (skippedWords lines)).shown (wordsOf (resumed lines)) = dateWords ++ rest') :
    scan.shown (skippedWords lines) = dateWords := by
  rw [shown_skippedWords hscan] at h ⊢
  have htail := (List.cons.inj h).2
  have hrest := head_shown_ne hagree hlines.1
  cases scan with
  | command => exact absurd (.inl rfl) hscan
  | date => exact absurd (.inr rfl) hscan
  | text => exact congrArg (dateWord :: ·) (text_skip hadmits.2 hagree hcount htail)
  | code => exact absurd htail (append_ne_cons (head_shown_ne (.refl _) hadmits.2) hrest)
  | dump => exact absurd hadmits.1 (by unfold Admits; decide)
  | dumpCode =>
    exact absurd htail (append_ne_cons (head_shown_ne (.inr (.inl ⟨rfl, rfl⟩)) hadmits.2) hrest)

/-- The words outside the `$date` sections are kept exactly if the skips spare them. -/
theorem shown_canonicalLines_iff (hagree : Agree scan scan') (hlines : Completes scan lines) :
    scan'.shown (wordsOf (canonicalLines false lines)) = scan.shown (wordsOf lines) ↔
      Spares scan lines := by
  induction lines using skip_induction generalizing scan scan' with
  | nil => simp [wordsOf, canonicalLines, shown, Spares]
  | keep line lines hdate ih =>
    obtain ⟨hadmits, hrest⟩ := hlines.cons
    obtain ⟨hrun, hshown⟩ := hagree.run hadmits
    rw [spares_of_ne hdate, ← ih hrun hrest, wordsOf_canonicalLines_of_ne hdate, wordsOf_cons,
      shown_append, shown_append, hshown, List.append_cancel_left_eq]
  | skip line lines hdate ih =>
    obtain ⟨hadmits, hrun, hrest⟩ := hlines.resumed hdate
    have hcount := fun (word : Word) (hnova : word ≠ novaWord) (hend : word ≠ endWord) =>
      count_shown_le hrun hrest hnova hend
    rw [spares_date hdate, ← ih hrun hrest, shown_canonicalLines_date hdate, wordsOf_date hdate,
      shown_append]
    by_cases hscan : scan = .command ∨ scan = .date
    · rw [if_pos ((hagree.hides_iff hadmits.1).mp hscan), List.nil_append]
      constructor
      · intro h
        have hnil := eq_nil_of_count_le (head_shown hscan hadmits) hcount h.symm
        rw [hnil, List.nil_append] at h
        exact ⟨.inl hnil, h⟩
      · rintro ⟨hnil | hshown, h⟩
        · rw [hnil, h, List.nil_append]
        · exact absurd List.mem_cons_self (head_shown hscan hadmits dateWord (by rw [hshown]; rfl))
    · rw [if_neg (mt (hagree.hides_iff hadmits.1).mpr hscan)]
      constructor
      · intro h
        have hshown := inner_skip hscan hadmits hrun hrest hcount h.symm
        rw [hshown, List.append_cancel_left_eq] at h
        exact ⟨.inr hshown, h⟩
      · rintro ⟨hnil | hshown, h⟩
        · rw [shown_skippedWords hscan] at hnil
          cases hnil
        · rw [hshown, h]

/-- Every word outside the `$date` sections is kept, in order, and no other is added. -/
def Keeps (dump : Dump) : Prop :=
  ∃ text : String, canonicalizeVcd dump.bytes = some (encode text) ∧
    outside text.toList = outside dump.text

theorem keeps_iff_outside (dump : Dump) :
    Keeps dump ↔ outside (canonicalText dump.text) = outside dump.text := by
  constructor
  · rintro ⟨text, hcanonical, houtside⟩
    rw [canonicalizeVcd_bytes, Option.some.injEq] at hcanonical
    obtain rfl := encode_injective hcanonical
    rwa [String.toList_ofList] at houtside
  · intro houtside
    exact ⟨_, canonicalizeVcd_bytes dump, by rwa [String.toList_ofList]⟩

theorem outside_canonicalText (text : List Char) : outside (canonicalText text) =
    Scan.command.shown (wordsOf (canonicalLines false (contents text))) := by
  unfold outside canonicalText
  rw [words_joined]
  rfl

theorem keeps_iff (dump : Dump) : Keeps dump ↔ Spares .command (contents dump.text) := by
  have hwords : wordsOf (contents dump.text) = words dump.text := flatMap_words_contents dump.text
  obtain ⟨hadmits, hrun, -⟩ := dump.scanned
  have hlines : Completes .command (contents dump.text) := ⟨hwords ▸ hadmits, hwords ▸ hrun⟩
  rw [keeps_iff_outside, ← shown_canonicalLines_iff (.refl _) hlines, hwords,
    outside_canonicalText]
  rfl

end NovaRtl.Power
