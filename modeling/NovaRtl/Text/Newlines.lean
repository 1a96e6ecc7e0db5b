import NovaRtl.Text.Lines

/-!
# Lines before a newline

A newline ends a line, whatever follows: the lines of a text are those of its parts that end in
newlines.
-/

namespace Text

variable {text rest : List Char} {c : Char}

/-- A text without line boundaries. -/
def Clean (text : List Char) : Prop := ∀ c ∈ text, isLineEnd c = false

/-- The lines that a text makes before a newline. -/
def pieces (text : List Char) : List (List Char) := (splitLines (text ++ ['\n'])).map Line.content

theorem splitLines_cons (hc : isLineEnd c = false) (rest : List Char) :
    splitLines (c :: rest) = consContent c (splitLines rest) := by
  rw [splitLines, if_neg (by simp [hc])]
  rintro rest' rfl
  exact absurd hc (by decide)

theorem consContent_append {lines : List Line} (h : lines ≠ []) (more : List Line) :
    consContent c (lines ++ more) = consContent c lines ++ more := by
  cases lines with
  | nil => exact absurd rfl h
  | cons line lines => rfl

theorem splitLines_ne_nil (h : text ≠ []) : splitLines text ≠ [] := by
  intro hnil
  have hflat := flatMap_splitLines text
  rw [hnil] at hflat
  exact h hflat.symm

theorem splitLines_newline (rest : List Char) :
    splitLines ('\n' :: rest) = ⟨[], ['\n']⟩ :: splitLines rest := by
  rw [splitLines, if_pos (by decide)]
  exact fun _ h => absurd h (by decide)

/-- A newline ends a line, whatever follows. -/
theorem splitLines_append_newline (text rest : List Char) :
    splitLines (text ++ '\n' :: rest) = splitLines (text ++ ['\n']) ++ splitLines rest := by
  fun_induction splitLines text with
  | case1 =>
    rw [List.nil_append, List.nil_append, splitLines_newline, splitLines_newline]
    rfl
  | case2 text ih =>
    simp only [List.cons_append, splitLines, ih]
  | case3 c text hreturn hend ih =>
    by_cases hlast : c = '\r' ∧ text = []
    · obtain ⟨rfl, rfl⟩ := hlast
      simp [splitLines]
    · have hcons : ∀ more, splitLines (c :: (text ++ '\n' :: more)) =
          ⟨[], [c]⟩ :: splitLines (text ++ '\n' :: more) := by
        intro more
        rw [splitLines, if_pos hend]
        rintro rest' rfl heq
        cases text with
        | nil => exact hlast ⟨rfl, rfl⟩
        | cons d text =>
          obtain ⟨rfl, -⟩ := List.cons.inj heq
          exact hreturn text rfl rfl
      rw [List.cons_append, List.cons_append, hcons rest, hcons [], ih]
      rfl
  | case4 c text hreturn hend ih =>
    have hc : isLineEnd c = false := by simpa using hend
    have hne : splitLines (text ++ ['\n']) ≠ [] := splitLines_ne_nil (by simp)
    rw [List.cons_append, List.cons_append, splitLines_cons hc, splitLines_cons hc, ih,
      consContent_append hne]

/-- The lines of a text that ends in newlines are those of its parts. -/
theorem splitLines_flatMap (texts : List (List Char)) :
    (splitLines (texts.flatMap (· ++ ['\n']))).map Line.content = texts.flatMap pieces := by
  induction texts with
  | nil => rfl
  | cons text texts ih =>
    rw [List.flatMap_cons, List.append_assoc, List.singleton_append, splitLines_append_newline,
      List.map_append, ih, List.flatMap_cons]
    rfl

/-- A clean beginning joins the first line. -/
theorem pieces_append (hclean : Clean text) (rest : List Char) :
    pieces (text ++ rest) = (text ++ (pieces rest).headD []) :: (pieces rest).tail := by
  have hne : splitLines (rest ++ ['\n']) ≠ [] := splitLines_ne_nil (by simp)
  unfold pieces
  obtain ⟨line, lines, hlines⟩ := List.exists_cons_of_ne_nil hne
  rw [List.append_assoc, hlines]
  induction text with
  | nil => simp [hlines]
  | cons c text ih =>
    obtain ⟨hc, htext⟩ := List.forall_mem_cons.mp hclean
    have htail := ih htext
    rw [List.cons_append, splitLines_cons hc]
    cases hsplit : splitLines (text ++ (rest ++ ['\n'])) with
    | nil => simp [hsplit] at htail
    | cons first others =>
      rw [hsplit] at htail
      simp only [consContent, List.map_cons, List.headD_cons, List.tail_cons,
        List.cons.injEq] at htail ⊢
      exact ⟨by rw [htail.1, List.cons_append], htail.2⟩

theorem pieces_of_clean (hclean : Clean text) : pieces text = [text] := by
  have hpieces := pieces_append hclean []
  rw [List.append_nil] at hpieces
  rw [hpieces]
  simp [pieces, splitLines_newline, splitLines]

/-- Joined lines with a newline at the end. -/
theorem intercalate_newline {lines : List (List Char)} (h : lines ≠ []) :
    List.intercalate ['\n'] lines ++ ['\n'] = lines.flatMap (· ++ ['\n']) := by
  induction lines with
  | nil => exact absurd rfl h
  | cons line lines ih =>
    cases lines with
    | nil => simp [List.intercalate]
    | cons next lines =>
      rw [List.flatMap_cons, ← ih (List.cons_ne_nil _ _)]
      simp [List.intercalate, List.intersperse]

end Text
