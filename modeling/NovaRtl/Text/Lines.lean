import Mathlib.Algebra.Ring.Nat
import Mathlib.Data.List.Basic

/-!
# Lines and positions

`splitLines` cuts a text as Python's `str.splitlines` does and keeps what ended each line. A
position names a character by its line and column, both counted from one. Positions order the
characters as offsets do: `lineStart_add_le_iff` is what every range of the sources rests on.
-/

namespace Text

/-- A line and the line boundary after it, which only the last line may lack. -/
structure Line where
  content : List Char
  ending : List Char
  deriving DecidableEq

def Line.text (line : Line) : List Char := line.content ++ line.ending

/-- The line boundaries of one character. -/
def isLineEnd (c : Char) : Bool :=
  [0x0a, 0x0b, 0x0c, 0x0d, 0x1c, 0x1d, 0x1e, 0x85, 0x2028, 0x2029].contains c.toNat

/-- A character before the first boundary joins the first line. -/
def consContent (c : Char) : List Line → List Line
  | [] => [⟨[c], []⟩]
  | line :: lines => ⟨c :: line.content, line.ending⟩ :: lines

def splitLines : List Char → List Line
  | [] => []
  | '\r' :: '\n' :: rest => ⟨[], ['\r', '\n']⟩ :: splitLines rest
  | c :: rest =>
    if isLineEnd c then ⟨[], [c]⟩ :: splitLines rest else consContent c (splitLines rest)

theorem flatMap_consContent (c : Char) (lines : List Line) :
    (consContent c lines).flatMap Line.text = c :: lines.flatMap Line.text := by
  cases lines <;> simp [consContent, Line.text]

/-- No character is lost between the lines. -/
theorem flatMap_splitLines (text : List Char) : (splitLines text).flatMap Line.text = text := by
  fun_induction splitLines text with
  | case1 => rfl
  | case2 rest ih => simp [Line.text, ih]
  | case3 c rest _ _ ih => simp [Line.text, ih]
  | case4 c rest _ _ ih => rw [flatMap_consContent, ih]

/-- A boundary is `\r\n` or one character. -/
def IsEnding (ending : List Char) : Prop :=
  ending = ['\r', '\n'] ∨ ∃ c, isLineEnd c ∧ ending = [c]

/-- What `splitLines` makes of a line. -/
structure Line.Split (line : Line) : Prop where
  content_clean : ∀ c ∈ line.content, isLineEnd c = false
  ending_ok : line.ending = [] ∨ IsEnding line.ending

theorem split_of_mem_splitLines {text : List Char} {line : Line} (h : line ∈ splitLines text) :
    line.Split := by
  fun_induction splitLines text generalizing line with
  | case1 => cases h
  | case2 rest ih =>
    rcases List.mem_cons.mp h with rfl | h
    · exact ⟨nofun, .inr (.inl rfl)⟩
    · exact ih h
  | case3 c rest _ hend ih =>
    rcases List.mem_cons.mp h with rfl | h
    · exact ⟨nofun, .inr (.inr ⟨c, hend, rfl⟩)⟩
    · exact ih h
  | case4 c rest _ hend ih =>
    have hc : isLineEnd c = false := by simpa using hend
    cases hlines : splitLines rest with
    | nil =>
      simp only [hlines, consContent, List.mem_singleton] at h
      subst h
      exact ⟨by simp [hc], .inl rfl⟩
    | cons first lines =>
      simp only [hlines, consContent, List.mem_cons] at h
      rcases h with rfl | h
      · obtain ⟨hclean, hending⟩ := ih (hlines ▸ List.mem_cons_self)
        exact ⟨by simpa [hc] using hclean, hending⟩
      · exact ih (hlines ▸ List.mem_cons_of_mem _ h)

/-! ## Positions -/

structure Position where
  line : ℕ
  column : ℕ
  deriving DecidableEq

namespace Position

instance : LT Position :=
  ⟨fun p q => p.line < q.line ∨ p.line = q.line ∧ p.column < q.column⟩

instance : LE Position :=
  ⟨fun p q => p.line < q.line ∨ p.line = q.line ∧ p.column ≤ q.column⟩

variable {p q : Position}

theorem lt_def : p < q ↔ p.line < q.line ∨ p.line = q.line ∧ p.column < q.column := Iff.rfl

theorem le_def : p ≤ q ↔ p.line < q.line ∨ p.line = q.line ∧ p.column ≤ q.column := Iff.rfl

instance : Decidable (p < q) := decidable_of_iff _ lt_def.symm

instance : Decidable (p ≤ q) := decidable_of_iff _ le_def.symm

theorem not_le : ¬ p ≤ q ↔ q < p := by
  simp only [le_def, lt_def]
  omega

theorem not_lt : ¬ p < q ↔ q ≤ p := by
  simp only [le_def, lt_def]
  omega

end Position

variable {lines : List Line} {line : Line} {p q : Position} {offset n m : ℕ}

/-- The offset of the first character of a line. -/
def lineStart (lines : List Line) (line : ℕ) : ℕ :=
  ((lines.take (line - 1)).map fun l => l.text.length).sum

theorem lineStart_succ (hn : 1 ≤ n) (h : lines[n - 1]? = some line) :
    lineStart lines (n + 1) = lineStart lines n + line.text.length := by
  obtain ⟨k, rfl⟩ := Nat.exists_eq_add_of_le' hn
  simp only [Nat.add_sub_cancel] at h
  simp [lineStart, List.take_add_one, h]

theorem lineStart_mono (h : n ≤ m) : lineStart lines n ≤ lineStart lines m := by
  obtain ⟨k, hk⟩ := Nat.exists_eq_add_of_le (Nat.sub_le_sub_right h 1)
  simp only [lineStart, hk, List.take_add, List.map_append, List.sum_append]
  exact Nat.le_add_right _ _

/-- `p` is the position of the character at `offset`. -/
def CharAt (lines : List Line) (p : Position) (offset : ℕ) : Prop :=
  ∃ line, 1 ≤ p.line ∧ lines[p.line - 1]? = some line ∧ 1 ≤ p.column ∧
    p.column ≤ line.text.length ∧ offset = lineStart lines p.line + (p.column - 1)

/-- A boundary lies before a character or at the end of a line. -/
def BoundaryAt (lines : List Line) (q : Position) : Prop :=
  ∃ line, 1 ≤ q.line ∧ lines[q.line - 1]? = some line ∧ 1 ≤ q.column ∧
    q.column ≤ line.text.length + 1

/-- Positions are ordered as the offsets they stand for. -/
theorem lineStart_add_le_iff (hp : CharAt lines p offset) (hq : BoundaryAt lines q) :
    lineStart lines q.line + (q.column - 1) ≤ offset ↔ q ≤ p := by
  obtain ⟨line, hline, hget, hcolumn, hlength, rfl⟩ := hp
  obtain ⟨line', hline', hget', hcolumn', hlength'⟩ := hq
  rw [Position.le_def]
  rcases Nat.lt_trichotomy q.line p.line with hlt | heq | hgt
  · have hnext := lineStart_succ hline' hget'
    have hmono := @lineStart_mono lines _ _ (show q.line + 1 ≤ p.line from hlt)
    omega
  · rw [heq]
    omega
  · have hnext := lineStart_succ hline hget
    have hmono := @lineStart_mono lines _ _ (show p.line + 1 ≤ q.line from hgt)
    omega

theorem lt_lineStart_add_iff (hp : CharAt lines p offset) (hq : BoundaryAt lines q) :
    offset < lineStart lines q.line + (q.column - 1) ↔ p < q := by
  rw [← Nat.not_le, lineStart_add_le_iff hp hq, Position.not_le]

end Text
