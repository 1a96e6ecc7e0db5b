import Mathlib.Algebra.GroupWithZero.Nat
import NovaRtl.Difflib.Opcodes

/-!
# Unified diffs

`unified_diff(a, b, fromfile, tofile, lineterm="")`. A hunk says in its first line how many lines of
either sequence it shows, so that a reader knows where it ends whatever its lines are: the first
sequence and the diff determine the second one.
-/

namespace Difflib

variable {α : Type}

/-- What a line of a hunk is. -/
inductive Mark where
  | context | delete | insert
  deriving DecidableEq, Repr

def Mark.char : Mark → Char
  | context => ' '
  | delete => '-'
  | insert => '+'

/-- The lines of one opcode. -/
def Opcode.marks (a b : List α) (c : Opcode) : List (Mark × α) :=
  match c.tag with
  | .equal => (slice a c.i1 c.i2).map (.context, ·)
  | .replace => (slice a c.i1 c.i2).map (.delete, ·) ++ (slice b c.j1 c.j2).map (.insert, ·)
  | .delete => (slice a c.i1 c.i2).map (.delete, ·)
  | .insert => (slice b c.j1 c.j2).map (.insert, ·)

structure Hunk (α : Type) where
  span : Span
  body : List (Mark × α)

/-- The part of a diff for one group. -/
def hunkOf (a b : List α) (group : List Opcode) : Hunk α :=
  ⟨spanOf group, group.flatMap (Opcode.marks a b)⟩

/-- `str(n)` -/
def digits (n : ℕ) : List Char := Nat.toDigits 10 n

/-- `_format_range_unified` -/
def formatRange (start stop : ℕ) : List Char :=
  let length := stop - start
  if length = 1 then digits (start + 1)
  else digits (if length = 0 then start else start + 1) ++ ',' :: digits length

/-- `@@ -{} +{} @@` -/
def Span.line (span : Span) : List Char :=
  "@@ -".toList ++ formatRange span.i1 span.i2 ++ " +".toList ++ formatRange span.j1 span.j2 ++
    " @@".toList

def markedLine (marked : Mark × List Char) : List Char := marked.1.char :: marked.2

def Hunk.lines (hunk : Hunk (List Char)) : List (List Char) :=
  hunk.span.line :: hunk.body.map markedLine

/-- `unified_diff(a, b, fromfile=fromFile, tofile=toFile, lineterm="")` -/
def unifiedDiff (a b : List (List Char)) (fromFile toFile : List Char) : List (List Char) :=
  match groupedOpcodes 3 a b with
  | [] => []
  | groups =>
    ("--- ".toList ++ fromFile) :: ("+++ ".toList ++ toFile) ::
      groups.flatMap fun group => (hunkOf a b group).lines

/-! ## What a hunk shows -/

/-- The lines of the first sequence. -/
def olds (body : List (Mark × α)) : List α := (body.filter (·.1 ≠ .insert)).map Prod.snd

/-- The lines of the second sequence. -/
def news (body : List (Mark × α)) : List α := (body.filter (·.1 ≠ .delete)).map Prod.snd

section Marks

variable {a b : List α} {i j i' j' : ℕ} {c : Opcode} {codes : List Opcode}
  {body more : List (Mark × α)}

@[simp] theorem olds_append : olds (body ++ more) = olds body ++ olds more := by
  simp [olds]

@[simp] theorem news_append : news (body ++ more) = news body ++ news more := by
  simp [news]

@[simp] theorem olds_map (mark : Mark) (lines : List α) :
    olds (lines.map (mark, ·)) = if mark = .insert then [] else lines := by
  cases mark <;> simp [olds, List.filter_map, Function.comp_def]

@[simp] theorem news_map (mark : Mark) (lines : List α) :
    news (lines.map (mark, ·)) = if mark = .delete then [] else lines := by
  cases mark <;> simp [news, List.filter_map, Function.comp_def]

theorem Opcode.Valid.olds_marks (h : c.Valid a b) : olds (c.marks a b) = slice a c.i1 c.i2 := by
  unfold Opcode.marks
  split
  · simp
  · simp
  · simp
  next htag => simp [h.inserts htag]

theorem Opcode.Valid.news_marks (h : c.Valid a b) : news (c.marks a b) = slice b c.j1 c.j2 := by
  unfold Opcode.marks
  split
  next htag =>
    have hslice := slice_eq_of_same (h.same htag) (h.length_eq htag) h.i_le h.j_le
    simpa using hslice
  · simp
  next htag => simp [h.deletes htag]
  · simp

theorem Chain.olds_flatMap (h : Chain a b i j codes i' j') :
    olds (codes.flatMap (Opcode.marks a b)) = slice a i i' := by
  induction codes generalizing i j with
  | nil =>
    obtain ⟨rfl, rfl⟩ := h
    rw [slice_self]
    rfl
  | cons c rest ih =>
    obtain ⟨rfl, rfl, hvalid, hrest⟩ := h
    rw [List.flatMap_cons, olds_append, hvalid.olds_marks, ih hrest,
      slice_append hvalid.i_le hrest.le.1]

theorem Chain.news_flatMap (h : Chain a b i j codes i' j') :
    news (codes.flatMap (Opcode.marks a b)) = slice b j j' := by
  induction codes generalizing i j with
  | nil =>
    obtain ⟨rfl, rfl⟩ := h
    rw [slice_self]
    rfl
  | cons c rest ih =>
    obtain ⟨rfl, rfl, hvalid, hrest⟩ := h
    rw [List.flatMap_cons, news_append, hvalid.news_marks, ih hrest,
      slice_append hvalid.j_le hrest.le.2]

/-- A hunk has the lines that its first line announces. -/
structure Hunk.WellFormed (hunk : Hunk α) : Prop where
  i_le : hunk.span.i1 ≤ hunk.span.i2
  j_le : hunk.span.j1 ≤ hunk.span.j2
  olds_length : (olds hunk.body).length = hunk.span.i2 - hunk.span.i1
  news_length : (news hunk.body).length = hunk.span.j2 - hunk.span.j1

theorem hunkOf_span (h : Chain a b i j codes i' j') (hne : codes ≠ []) :
    (hunkOf a b codes).span = ⟨i, i', j, j'⟩ := h.spanOf_eq hne

theorem hunkOf_wellFormed (h : Chain a b i j codes i' j') (hne : codes ≠ [])
    (ha : i' ≤ a.length) (hb : j' ≤ b.length) : (hunkOf a b codes).WellFormed := by
  have hspan := hunkOf_span h hne
  refine ⟨?_, ?_, ?_, ?_⟩
  · rw [hspan]
    exact h.le.1
  · rw [hspan]
    exact h.le.2
  · rw [hspan, hunkOf, h.olds_flatMap, length_slice ha]
  · rw [hspan, hunkOf, h.news_flatMap, length_slice hb]

end Marks

/-! ## Rebuilding the second sequence -/

/-- The second sequence, from the first one and the hunks. -/
def rebuild (a : List α) (i : ℕ) : List (Hunk α) → List α
  | [] => a.drop i
  | hunk :: hunks => slice a i hunk.span.i1 ++ news hunk.body ++ rebuild a hunk.span.i2 hunks

theorem Covers.rebuild_eq {a b : List α} {i j : ℕ} {groups : List (List Opcode)}
    (h : Covers a b i j groups) : rebuild a i (groups.map (hunkOf a b)) = b.drop j := by
  induction groups generalizing i j with
  | nil => exact h
  | cons group groups ih =>
    obtain ⟨hne, i1, j1, i2, j2, hi, hj, hslice, hchain, -, -, hrest⟩ := h
    rw [List.map_cons, rebuild, hunkOf_span hchain hne, ih hrest, hunkOf, hchain.news_flatMap,
      hslice, slice_append hj hchain.le.2, slice_append_drop (hj.trans hchain.le.2)]

theorem Covers.wellFormed {a b : List α} {i j : ℕ} {groups : List (List Opcode)}
    (h : Covers a b i j groups) : ∀ hunk ∈ groups.map (hunkOf a b), hunk.WellFormed := by
  induction groups generalizing i j with
  | nil => exact nofun
  | cons group groups ih =>
    obtain ⟨hne, i1, j1, i2, j2, -, -, -, hchain, ha, hb, hrest⟩ := h
    exact List.forall_mem_cons.mpr ⟨hunkOf_wellFormed hchain hne ha hb, ih hrest⟩

/-! ## Changes -/

/-- How many lines an opcode deletes, and how many it inserts. -/
def Opcode.changed (c : Opcode) : ℕ :=
  match c.tag with
  | .replace => (c.i2 - c.i1) + (c.j2 - c.j1)
  | .delete => c.i2 - c.i1
  | .insert => c.j2 - c.j1
  | .equal => 0

/-- The deleted and inserted lines. -/
def changes (body : List (Mark × α)) : List (Mark × α) := body.filter (·.1 ≠ .context)

def changesOf (a b : List α) (codes : List Opcode) : List (Mark × α) :=
  changes (codes.flatMap (Opcode.marks a b))

section Changes

variable {a b : List α} {i j i' j' n : ℕ} {c : Opcode} {codes more : List Opcode}

@[simp] theorem changes_append {body more : List (Mark × α)} :
    changes (body ++ more) = changes body ++ changes more := by
  simp [changes]

@[simp] theorem changes_map (mark : Mark) (lines : List α) :
    changes (lines.map (mark, ·)) = if mark = .context then [] else lines.map (mark, ·) := by
  cases mark <;> simp [changes, List.filter_map, Function.comp_def, List.filter_eq_self.mpr]

@[simp] theorem changesOf_append :
    changesOf a b (codes ++ more) = changesOf a b codes ++ changesOf a b more := by
  simp [changesOf, changes]

theorem changesOf_cons :
    changesOf a b (c :: codes) = changes (c.marks a b) ++ changesOf a b codes := by
  simp [changesOf]

theorem changes_marks_of_equal (htag : c.tag = .equal) : changes (c.marks a b) = [] := by
  rw [Opcode.marks, htag]
  simp

theorem changesOf_trimFirst : changesOf a b (trimFirst n codes) = changesOf a b codes := by
  cases codes with
  | nil => rfl
  | cons c rest =>
    rw [trimFirst]
    split_ifs with htag
    · rw [changesOf_cons, changesOf_cons, changes_marks_of_equal htag,
        changes_marks_of_equal (c := c.keepLast n) htag]
    · rfl

theorem changesOf_trimLast : changesOf a b (trimLast n codes) = changesOf a b codes := by
  fun_induction trimLast n codes with
  | case1 => rfl
  | case2 c =>
    split_ifs with htag
    · rw [changesOf_cons, changesOf_cons, changes_marks_of_equal htag,
        changes_marks_of_equal (c := c.keepFirst n) htag]
    · rfl
  | case3 c next rest ih => rw [changesOf_cons, ih, ← changesOf_cons]

theorem changesOf_of_not_showsChange {group : List Opcode} (h : showsChange group = false) :
    changesOf a b group = [] := by
  cases group with
  | nil => rfl
  | cons c rest =>
    cases rest with
    | nil =>
      rw [changesOf_cons, changes_marks_of_equal (by simpa [showsChange] using h)]
      rfl
    | cons next rest => cases h

theorem changesOf_groupFrom {group : List Opcode} :
    changesOf a b (groupFrom n group codes).flatten =
      changesOf a b group ++ changesOf a b codes := by
  induction codes generalizing group with
  | nil =>
    rw [groupFrom]
    split_ifs with hshows
    · simp [changesOf, changes]
    · have hnone : changesOf a b group = [] :=
        changesOf_of_not_showsChange (by simpa using hshows)
      rw [hnone]
      rfl
  | cons c rest ih =>
    rw [groupFrom]
    split_ifs with hlong
    · rw [List.flatten_cons, changesOf_append, changesOf_append, ih, changesOf_cons, changesOf_cons,
        changesOf_cons, changes_marks_of_equal hlong.1,
        changes_marks_of_equal (c := c.keepFirst n) hlong.1,
        changes_marks_of_equal (c := c.keepLast n) hlong.1]
      simp [changesOf, changes]
    · rw [ih, changesOf_append, changesOf_cons, changesOf_cons, List.append_assoc]
      simp [changesOf, changes]

/-- Grouping loses no change. -/
theorem changesOf_groupedOpcodes [DecidableEq α] (n : ℕ) (a b : List α) :
    changesOf a b (groupedOpcodes n a b).flatten = changesOf a b (opcodes a b) := by
  rw [groupedOpcodes, changesOf_groupFrom, changesOf_trimLast, changesOf_trimFirst]
  split_ifs with hnil
  · rw [hnil, changesOf_cons, changes_marks_of_equal rfl]
    rfl
  · rfl

theorem Opcode.Valid.length_changes (hi : c.i2 ≤ a.length) (hj : c.j2 ≤ b.length) :
    (changes (c.marks a b)).length = c.changed := by
  unfold Opcode.marks Opcode.changed
  cases c.tag <;> simp [length_slice, hi, hj]

theorem Chain.length_changesOf (h : Chain a b i j codes i' j') (hi : i' ≤ a.length)
    (hj : j' ≤ b.length) : (changesOf a b codes).length = (codes.map Opcode.changed).sum := by
  induction codes generalizing i j with
  | nil => rfl
  | cons c rest ih =>
    obtain ⟨-, -, -, hrest⟩ := h
    have hle := hrest.le
    rw [changesOf_cons, List.length_append, ih hrest,
      Opcode.Valid.length_changes (hle.1.trans hi) (hle.2.trans hj), List.map_cons, List.sum_cons]

end Changes

/-! ## Reading a diff -/

theorem digits_injective : Function.Injective digits := by
  intro m n h
  have hread := congrArg (Nat.ofDigitChars 10 · 0) h
  simpa [digits, Nat.ofDigitChars_ten_toDigits] using hread

theorem isDigit_of_mem_digits {n : ℕ} {c : Char} (h : c ∈ digits n) : c.isDigit :=
  Nat.isDigit_of_mem_toDigits (by omega) (by omega) h

/-- What precedes the first occurrence of an element is determined. -/
theorem append_cons_inj {β : Type} {x : β} {xs ys rest rest' : List β} (hxs : x ∉ xs)
    (hys : x ∉ ys) (h : xs ++ x :: rest = ys ++ x :: rest') : xs = ys ∧ rest = rest' := by
  induction xs generalizing ys with
  | nil =>
    cases ys with
    | nil => exact ⟨rfl, (List.cons.inj h).2⟩
    | cons y ys => exact absurd (List.cons.inj h).1 fun heq => hys (heq ▸ List.mem_cons_self)
  | cons z xs ih =>
    cases ys with
    | nil => exact absurd (List.cons.inj h).1.symm fun heq => hxs (heq ▸ List.mem_cons_self)
    | cons y ys =>
      obtain ⟨rfl, htail⟩ := List.cons.inj h
      obtain ⟨rfl, hrest⟩ := ih (fun hmem => hxs (List.mem_cons_of_mem _ hmem))
        (fun hmem => hys (List.mem_cons_of_mem _ hmem)) htail
      exact ⟨rfl, hrest⟩

/-- The characters of a range. -/
def isRangeChar (c : Char) : Bool := c.isDigit || c = ','

theorem isRangeChar_of_mem {start stop : ℕ} {c : Char} (h : c ∈ formatRange start stop) :
    isRangeChar c := by
  unfold formatRange at h
  dsimp only at h
  unfold isRangeChar
  split_ifs at h
  · rw [isDigit_of_mem_digits h]
    rfl
  all_goals
    rcases List.mem_append.mp h with h | h
    · rw [isDigit_of_mem_digits h]
      rfl
    · rcases List.mem_cons.mp h with rfl | h
      · rfl
      · rw [isDigit_of_mem_digits h]
        rfl

theorem comma_not_mem (n : ℕ) : ',' ∉ digits n :=
  fun h => absurd (isDigit_of_mem_digits h) (by decide)

/-- A range that is written can be read. -/
theorem formatRange_injective {start stop start' stop' : ℕ} (hle : start ≤ stop)
    (hle' : start' ≤ stop') (h : formatRange start stop = formatRange start' stop') :
    start = start' ∧ stop = stop' := by
  have hcomma : ∀ n m : ℕ, ∀ rest : List Char, digits n ≠ digits m ++ ',' :: rest := by
    intro n m rest heq
    exact comma_not_mem n (heq ▸ List.mem_append_right _ List.mem_cons_self)
  by_cases hone : stop - start = 1 <;> by_cases hone' : stop' - start' = 1 <;>
    simp only [formatRange, hone, hone', if_true, if_false] at h
  · have hbeginning := digits_injective h
    omega
  · exact absurd h (hcomma _ _ _)
  · exact absurd h.symm (hcomma _ _ _)
  · obtain ⟨hbeginning, hlength⟩ := append_cons_inj (comma_not_mem _) (comma_not_mem _) h
    have hbeginning := digits_injective hbeginning
    have hlength := digits_injective hlength
    split at hbeginning <;> split at hbeginning <;> omega

/-- The line, with the space after the first range set apart. -/
theorem Span.line_eq (span : Span) : span.line = "@@ -".toList ++ (formatRange span.i1 span.i2 ++
    ' ' :: '+' :: (formatRange span.j1 span.j2 ++ ' ' :: "@@".toList)) := by
  have hline : span.line = "@@ -".toList ++ formatRange span.i1 span.i2 ++ [' ', '+'] ++
      formatRange span.j1 span.j2 ++ ' ' :: "@@".toList := rfl
  rw [hline]
  simp only [List.append_assoc, List.cons_append, List.nil_append]

theorem Span.line_injective {span span' : Span} (hi : span.i1 ≤ span.i2) (hj : span.j1 ≤ span.j2)
    (hi' : span'.i1 ≤ span'.i2) (hj' : span'.j1 ≤ span'.j2) (h : span.line = span'.line) :
    span = span' := by
  have hspace : ∀ start stop : ℕ, ' ' ∉ formatRange start stop := by
    intro start stop hmem
    exact absurd (isRangeChar_of_mem hmem) (by decide)
  rw [Span.line_eq, Span.line_eq] at h
  obtain ⟨hfirst, h⟩ := append_cons_inj (hspace _ _) (hspace _ _) (List.append_cancel_left h)
  obtain ⟨hsecond, -⟩ := append_cons_inj (hspace _ _) (hspace _ _) (List.cons.inj h).2
  obtain ⟨h1, h2⟩ := formatRange_injective hi hi' hfirst
  obtain ⟨h3, h4⟩ := formatRange_injective hj hj' hsecond
  obtain ⟨i1, i2, j1, j2⟩ := span
  obtain ⟨i1', i2', j1', j2'⟩ := span'
  exact (Span.mk.injEq ..).mpr ⟨h1, h2, h3, h4⟩

theorem Span.mem_line {span : Span} {c : Char} (h : c ∈ span.line) :
    isRangeChar c ∨ c ∈ [' ', '@', '-', '+'] := by
  have hmarks : ∀ c ∈ "@@ -".toList ++ "@@".toList, c ∈ [' ', '@', '-', '+'] := by
    simp
  rw [Span.line_eq] at h
  simp only [List.mem_append, List.mem_cons] at h
  rcases h with h | h | rfl | rfl | h | rfl | h
  · exact .inr (hmarks c (List.mem_append_left _ h))
  · exact .inl (isRangeChar_of_mem h)
  · exact .inr (by simp)
  · exact .inr (by simp)
  · exact .inl (isRangeChar_of_mem h)
  · exact .inr (by simp)
  · exact .inr (hmarks c (List.mem_append_right _ h))

theorem markedLine_injective : Function.Injective markedLine := by
  rintro ⟨mark, line⟩ ⟨mark', line'⟩ h
  obtain ⟨hmark, hline⟩ := List.cons.inj h
  dsimp only at hmark hline
  subst hline
  cases mark <;> cases mark' <;> first | rfl | exact absurd hmark (by decide)

/-- Every line of a body counts for one of the sequences. -/
theorem eq_nil_of_olds_news {body : List (Mark × α)} (holds : (olds body).length = 0)
    (hnews : (news body).length = 0) : body = [] := by
  cases body with
  | nil => rfl
  | cons marked body =>
    obtain ⟨mark, line⟩ := marked
    cases mark <;> simp_all [olds, news]

/-- Of two bodies with the same numbers of lines one does not go on after the other. -/
theorem body_decode {body body' : List (Mark × List Char)} {rest rest' : List (List Char)}
    (holds : (olds body).length = (olds body').length)
    (hnews : (news body).length = (news body').length)
    (h : body.map markedLine ++ rest = body'.map markedLine ++ rest') :
    body = body' ∧ rest = rest' := by
  -- the longer body
  have hlonger : ∀ {body body' : List (Mark × List Char)} {more : List (List Char)},
      (olds body).length = (olds body').length → (news body).length = (news body').length →
      body.map markedLine = body'.map markedLine ++ more → body = body' ∧ more = [] := by
    intro body body' more holds hnews hmap
    obtain ⟨first, second, rfl, hfirst, rfl⟩ := List.map_eq_append_iff.mp hmap
    obtain rfl := (List.map_inj_right fun _ _ h => markedLine_injective h).mp hfirst
    rw [olds_append, List.length_append] at holds
    rw [news_append, List.length_append] at hnews
    have hnil : second = [] := eq_nil_of_olds_news (by omega) (by omega)
    simp [hnil]
  rcases List.append_eq_append_iff.mp h with ⟨more, hmap, hrest⟩ | ⟨more, hmap, hrest⟩
  · obtain ⟨rfl, rfl⟩ := hlonger holds.symm hnews.symm hmap
    exact ⟨rfl, hrest⟩
  · obtain ⟨rfl, rfl⟩ := hlonger holds hnews hmap
    exact ⟨rfl, hrest.symm⟩

theorem Hunk.lines_decode {hunk hunk' : Hunk (List Char)} {rest rest' : List (List Char)}
    (hwell : hunk.WellFormed) (hwell' : hunk'.WellFormed)
    (h : hunk.lines ++ rest = hunk'.lines ++ rest') : hunk = hunk' ∧ rest = rest' := by
  obtain ⟨hline, hbody⟩ := List.cons.inj h
  have hspan := Span.line_injective hwell.i_le hwell.j_le hwell'.i_le hwell'.j_le hline
  obtain ⟨hbody, hrest⟩ := body_decode
    (by rw [hwell.olds_length, hwell'.olds_length, hspan])
    (by rw [hwell.news_length, hwell'.news_length, hspan]) hbody
  cases hunk
  cases hunk'
  simp_all

/-- No hunk begins here. -/
def NoHunk (lines : List (List Char)) : Prop := ∀ line ∈ lines.head?, line.head? ≠ some '@'

theorem hunks_decode {hunks hunks' : List (Hunk (List Char))} {rest rest' : List (List Char)}
    (hwell : ∀ hunk ∈ hunks, hunk.WellFormed) (hwell' : ∀ hunk ∈ hunks', hunk.WellFormed)
    (hrest : NoHunk rest) (hrest' : NoHunk rest')
    (h : hunks.flatMap Hunk.lines ++ rest = hunks'.flatMap Hunk.lines ++ rest') :
    hunks = hunks' ∧ rest = rest' := by
  have hends : ∀ {hunk : Hunk (List Char)} {rest more : List (List Char)}, NoHunk rest →
      rest ≠ hunk.lines ++ more := by
    intro hunk rest more hrest heq
    exact hrest hunk.span.line (heq ▸ rfl) rfl
  induction hunks generalizing hunks' with
  | nil =>
    cases hunks' with
    | nil => exact ⟨rfl, h⟩
    | cons hunk' hunks' =>
      rw [List.flatMap_cons, List.append_assoc] at h
      exact absurd h (hends hrest)
  | cons hunk hunks ih =>
    cases hunks' with
    | nil =>
      rw [List.flatMap_cons, List.append_assoc] at h
      exact absurd h.symm (hends hrest')
    | cons hunk' hunks' =>
      obtain ⟨hfirst, hmore⟩ := List.forall_mem_cons.mp hwell
      obtain ⟨hfirst', hmore'⟩ := List.forall_mem_cons.mp hwell'
      rw [List.flatMap_cons, List.flatMap_cons, List.append_assoc, List.append_assoc] at h
      obtain ⟨rfl, htail⟩ := Hunk.lines_decode hfirst hfirst' h
      obtain ⟨rfl, hrest⟩ := ih hmore hmore' htail
      exact ⟨rfl, hrest⟩

/-! ## Diffs -/

section Diffs

variable {a b b' : List (List Char)} {fromFile toFile : List Char}

theorem unifiedDiff_self (a : List (List Char)) (fromFile toFile : List Char) :
    unifiedDiff a a fromFile toFile = [] := by
  rw [unifiedDiff, groupedOpcodes_self]

theorem unifiedDiff_eq_nil (h : unifiedDiff a b fromFile toFile = []) : a = b := by
  unfold unifiedDiff at h
  split at h
  next hgroups =>
    have hcovers := groupedOpcodes_covers 3 a b
    rw [hgroups] at hcovers
    exact hcovers
  · cases h

/-- A diff that is not empty is its two first lines and hunks. -/
theorem unifiedDiff_eq (h : a ≠ b) : unifiedDiff a b fromFile toFile =
    ("--- ".toList ++ fromFile) :: ("+++ ".toList ++ toFile) ::
      ((groupedOpcodes 3 a b).map (hunkOf a b)).flatMap Hunk.lines := by
  unfold unifiedDiff
  split
  next hgroups =>
    have hcovers := groupedOpcodes_covers 3 a b
    rw [hgroups] at hcovers
    exact absurd hcovers h
  · rw [List.flatMap_map]

theorem Opcode.mem_marks {marked : Mark × List Char} {c : Opcode} (h : marked ∈ c.marks a b) :
    marked.2 ∈ a ∨ marked.2 ∈ b := by
  have hslice : ∀ {xs : List (List Char)} {i j : ℕ} {line}, line ∈ slice xs i j → line ∈ xs :=
    fun h => List.mem_of_mem_take (List.mem_of_mem_drop h)
  unfold Opcode.marks at h
  split at h <;> simp only [List.mem_append, List.mem_map] at h
  · obtain ⟨line, hline, rfl⟩ := h
    exact .inl (hslice hline)
  · rcases h with ⟨line, hline, rfl⟩ | ⟨line, hline, rfl⟩
    · exact .inl (hslice hline)
    · exact .inr (hslice hline)
  · obtain ⟨line, hline, rfl⟩ := h
    exact .inl (hslice hline)
  · obtain ⟨line, hline, rfl⟩ := h
    exact .inr (hslice hline)

/-- The lines of a diff. -/
theorem mem_unifiedDiff {line : List Char} (h : line ∈ unifiedDiff a b fromFile toFile) :
    line = "--- ".toList ++ fromFile ∨ line = "+++ ".toList ++ toFile ∨
      (∃ span : Span, line = span.line) ∨
      ∃ mark text, line = markedLine (mark, text) ∧ (text ∈ a ∨ text ∈ b) := by
  unfold unifiedDiff at h
  split at h
  · cases h
  · rcases List.mem_cons.mp h with h | h
    · exact .inl h
    rcases List.mem_cons.mp h with h | h
    · exact .inr (.inl h)
    obtain ⟨group, -, h⟩ := List.mem_flatMap.mp h
    rcases List.mem_cons.mp h with h | h
    · exact .inr (.inr (.inl ⟨_, h⟩))
    · obtain ⟨⟨mark, text⟩, hmarked, rfl⟩ := List.mem_map.mp h
      obtain ⟨c, -, hc⟩ := List.mem_flatMap.mp hmarked
      exact .inr (.inr (.inr ⟨mark, text, rfl, Opcode.mem_marks hc⟩))

/-- The first sequence and its diff determine the second one, whatever follows the diff. -/
theorem unifiedDiff_decode {rest rest' : List (List Char)} (hne : a ≠ b) (hne' : a ≠ b')
    (hrest : NoHunk rest) (hrest' : NoHunk rest')
    (h : unifiedDiff a b fromFile toFile ++ rest = unifiedDiff a b' fromFile toFile ++ rest') :
    b = b' ∧ rest = rest' := by
  rw [unifiedDiff_eq hne, unifiedDiff_eq hne'] at h
  have hhunks := (List.cons.inj (List.cons.inj h).2).2
  have hcovers := groupedOpcodes_covers 3 a b
  have hcovers' := groupedOpcodes_covers 3 a b'
  obtain ⟨hsame, hrest⟩ := hunks_decode hcovers.wellFormed hcovers'.wellFormed hrest hrest' hhunks
  have hrebuild := hcovers.rebuild_eq
  rw [hsame, hcovers'.rebuild_eq] at hrebuild
  exact ⟨hrebuild.symm, hrest⟩

end Diffs

end Difflib
