import Mathlib.Data.List.Basic
import Mathlib.Order.Nat
import NovaRtl.Verilog.Tokens

/-!
# Where atoms begin

`Boundary` says that no atom of a text lies on both sides of a place. There the atoms of the text
are those of its two parts (`atoms_append`).

`Sound` text has no comments and no open strings. It has a boundary before a character that no
atom continues with, unless it ends in an escaped name (`boundary_of_sound`).
-/

namespace Verilog

open Text

variable {classes : CharClasses} {c h : Char} {rest u v w : List Char} {skip index : ℕ}

/-! ## Lengths of atoms -/

theorem length_takeWhile_append {p : Char → Bool}
    (hle : ((u ++ v).takeWhile p).length ≤ u.length) :
    ((u ++ v).takeWhile p).length = (u.takeWhile p).length := by
  rw [List.takeWhile_append] at hle ⊢
  split_ifs with hall
  · rw [if_pos hall, List.length_append] at hle
    rw [List.length_append]
    omega
  · rfl

theorem stringTail_le (backslash : Bool) (u : List Char) : stringTail backslash u ≤ u.length := by
  induction u generalizing backslash with
  | nil => rfl
  | cons c rest ih =>
    have hrest := ih false
    have hmore := ih (c = '\\')
    rw [stringTail, List.length_cons]
    split_ifs <;> omega

theorem stringTail_append {backslash : Bool} (hle : stringTail backslash (u ++ v) ≤ u.length) :
    stringTail backslash (u ++ v) = stringTail backslash u := by
  induction u generalizing backslash with
  | nil => simpa [stringTail] using hle
  | cons c rest ih =>
    rw [List.cons_append, stringTail, List.length_cons] at hle
    rw [List.cons_append, stringTail, stringTail]
    split_ifs at hle ⊢
    · rw [ih (by omega)]
    · rfl
    · rw [ih (by omega)]

theorem commentTail_le (star : Bool) (u : List Char) : commentTail star u ≤ u.length := by
  induction u generalizing star with
  | nil => rfl
  | cons c rest ih =>
    have hmore := ih (c = '*')
    rw [commentTail, List.length_cons]
    split_ifs <;> omega

theorem commentTail_append {star : Bool} (hle : commentTail star (u ++ v) ≤ u.length) :
    commentTail star (u ++ v) = commentTail star u := by
  induction u generalizing star with
  | nil => simpa [commentTail] using hle
  | cons c rest ih =>
    rw [List.cons_append, commentTail, List.length_cons] at hle
    rw [List.cons_append, commentTail, commentTail]
    split_ifs at hle ⊢
    · rfl
    · rw [ih (by omega)]

variable {kind : Kind}

theorem more_le (kind : Kind) (rest : List Char) : kind.more classes rest ≤ rest.length := by
  cases kind with
  | lineComment | escaped | word | number | literal => exact (List.takeWhile_sublist _).length_le
  | string => exact stringTail_le _ _
  | blockComment =>
    cases rest with
    | nil => rfl
    | cons c rest => exact Nat.succ_le_succ (commentTail_le _ _)
  | space | delimiter | symbol => exact Nat.zero_le _

/-- An atom that ends before a place does not depend on what follows the place. -/
theorem more_append (hle : kind.more classes (u ++ v) ≤ u.length) :
    kind.more classes (u ++ v) = kind.more classes u := by
  cases kind with
  | lineComment | escaped | word | number | literal => exact length_takeWhile_append hle
  | string => exact stringTail_append hle
  | blockComment =>
    cases u with
    | nil => exact Nat.le_zero.mp hle
    | cons c u => exact congrArg (· + 1) (commentTail_append (Nat.le_of_succ_le_succ hle))
  | space | delimiter | symbol => rfl

theorem atomKind_append
    (hle : (atomKind classes c (u ++ v).head?).more classes (u ++ v) ≤ u.length) :
    atomKind classes c (u ++ v).head? = atomKind classes c u.head? := by
  cases u with
  | cons d u => rfl
  | nil =>
    -- a comment has a second character
    cases v with
    | nil => rfl
    | cons d v =>
      rw [List.nil_append, List.head?_cons] at hle
      have hcomment : ¬ (c = '/' ∧ (d = '/' ∨ d = '*')) := by
        rintro ⟨rfl, rfl | rfl⟩
        · simp [atomKind, Kind.more] at hle
        · simp [atomKind, Kind.more] at hle
      simp only [not_and, not_or] at hcomment
      unfold atomKind
      simp only [List.nil_append, List.head?_cons, List.head?_nil, Option.some.injEq]
      split_ifs <;> grind

/-! ## Boundaries -/

variable (classes) in
/-- No atom of `u ++ v` that begins after the first `skip` characters lies on both sides of the
place between `u` and `v`. -/
def Boundary (skip : ℕ) : List Char → List Char → Prop
  | [], _ => skip = 0
  | c :: u, v =>
    match skip with
    | skip + 1 => Boundary skip u v
    | 0 => Boundary ((atomKind classes c (u ++ v).head?).more classes (u ++ v)) u v

theorem Boundary.le (h : Boundary classes skip u v) : skip ≤ u.length := by
  induction u generalizing skip with
  | nil => exact h.le
  | cons c u ih =>
    cases skip with
    | zero => exact Nat.zero_le _
    | succ skip => exact Nat.succ_le_succ (ih h)

theorem atoms_append (h : Boundary classes skip u v) :
    atoms classes skip index (u ++ v) =
      atoms classes skip index u ++ atoms classes 0 (index + u.length) v := by
  induction u generalizing skip index with
  | nil =>
    obtain rfl : skip = 0 := h
    rfl
  | cons c u ih =>
    have hindex : index + 1 + u.length = index + (c :: u).length := by
      rw [List.length_cons]
      omega
    cases skip with
    | succ skip =>
      have hrest := @ih _ (index + 1) h
      rw [hindex] at hrest
      exact hrest
    | zero =>
      rw [Boundary] at h
      have hle := h.le
      have hrest := @ih _ (index + 1) h
      have hkind := atomKind_append hle
      rw [hkind] at hle hrest
      have hmore := more_append hle
      rw [List.cons_append, atoms, atoms, hkind]
      simp only [hrest, hindex, List.cons_append, List.take_append_of_le_length hle]
      rw [hmore]

theorem takeWhile_head {p : Char → Bool} (hle : ((u ++ h :: v).takeWhile p).length ≤ u.length) :
    (u ++ h :: w).takeWhile p = (u ++ h :: v).takeWhile p := by
  rw [List.takeWhile_append] at hle ⊢
  rw [List.takeWhile_append]
  split_ifs with hall
  · rw [if_pos hall, List.takeWhile_cons] at hle
    rw [List.takeWhile_cons, List.takeWhile_cons]
    split_ifs at hle ⊢ with hp
    · simp only [List.length_append, List.length_cons] at hle
      omega
    · rfl
  · rfl

theorem stringTail_head {backslash : Bool}
    (hle : stringTail backslash (u ++ h :: v) ≤ u.length) :
    stringTail backslash (u ++ h :: w) = stringTail backslash (u ++ h :: v) := by
  induction u generalizing backslash with
  | nil =>
    rw [List.nil_append, stringTail, List.length_nil] at hle
    split_ifs at hle <;> exact absurd hle (Nat.not_succ_le_zero _)
  | cons c u ih =>
    rw [List.cons_append, stringTail, List.length_cons] at hle
    rw [List.cons_append, List.cons_append, stringTail, stringTail]
    split_ifs at hle ⊢
    · rw [ih (by omega)]
    · rfl
    · rw [ih (by omega)]

theorem commentTail_head {star : Bool} (hle : commentTail star (u ++ h :: v) ≤ u.length) :
    commentTail star (u ++ h :: w) = commentTail star (u ++ h :: v) := by
  induction u generalizing star with
  | nil =>
    rw [List.nil_append, commentTail, List.length_nil] at hle
    split_ifs at hle <;> exact absurd hle (Nat.not_succ_le_zero _)
  | cons c u ih =>
    rw [List.cons_append, commentTail, List.length_cons] at hle
    rw [List.cons_append, List.cons_append, commentTail, commentTail]
    split_ifs at hle ⊢
    · rfl
    · rw [ih (by omega)]

theorem more_head (hle : kind.more classes (u ++ h :: v) ≤ u.length) :
    kind.more classes (u ++ h :: w) = kind.more classes (u ++ h :: v) := by
  cases kind with
  | lineComment | escaped | word | number | literal =>
    exact congrArg List.length (takeWhile_head hle)
  | string => exact stringTail_head hle
  | blockComment =>
    cases u with
    | nil => exact absurd hle (Nat.not_succ_le_zero _)
    | cons c u => exact congrArg (· + 1) (commentTail_head (Nat.le_of_succ_le_succ hle))
  | space | delimiter | symbol => rfl

/-- Whether there is a boundary depends on the next character only. -/
theorem Boundary.head (hboundary : Boundary classes skip u (h :: v)) :
    Boundary classes skip u (h :: w) := by
  induction u generalizing skip with
  | nil => exact hboundary
  | cons c u ih =>
    cases skip with
    | succ skip => exact @ih skip hboundary
    | zero =>
      have hhead : (u ++ h :: w).head? = (u ++ h :: v).head? := by cases u <;> rfl
      rw [Boundary] at hboundary ⊢
      rw [hhead, more_head hboundary.le]
      exact ih hboundary

/-- Atoms lie inside their text. -/
theorem of_mem_atoms {t : Token} (h : t ∈ atoms classes skip index u) :
    index + skip ≤ t.start ∧ t.start < index + u.length ∧ t.stop ≤ index + u.length := by
  induction u generalizing skip index with
  | nil => cases h
  | cons c u ih =>
    rw [List.length_cons]
    cases skip with
    | succ skip =>
      have hrest := @ih skip (index + 1) h
      omega
    | zero =>
      rcases List.mem_cons.mp h with rfl | h
      · simp only [Token.stop, List.length_cons, List.length_take]
        omega
      · have hrest := ih h
        omega

/-- The first character of an atom decides on its kind. -/
theorem kind_of_mem_atoms {t : Token} (h : t ∈ atoms classes skip index u) :
    ∃ c next more, t.text = c :: more ∧ t.kind = atomKind classes c next := by
  induction u generalizing skip index with
  | nil => cases h
  | cons c u ih =>
    cases skip with
    | succ skip => exact @ih skip _ h
    | zero =>
      rcases List.mem_cons.mp h with rfl | h
      · exact ⟨c, _, _, rfl, rfl⟩
      · exact ih h

theorem atomKind_of_separates {next : Option Char}
    (h : (atomKind classes c next).separates = false) :
    atomKind classes c next = charKind classes c := by
  unfold atomKind at h ⊢
  split_ifs at h ⊢
  · cases h
  · cases h
  · rfl

/-- Where an atom begins, there is a boundary. -/
theorem boundary_of_mem {t : Token} (h : t ∈ atoms classes skip index (u ++ v))
    (hstart : t.start = index + u.length) : Boundary classes skip u v := by
  induction u generalizing skip index with
  | nil =>
    have hle := (of_mem_atoms h).1
    rw [hstart, List.length_nil] at hle
    exact Nat.le_zero.mp (by omega)
  | cons c u ih =>
    rw [List.length_cons] at hstart
    cases skip with
    | succ skip => exact @ih skip (index + 1) h (by omega)
    | zero =>
      rcases List.mem_cons.mp h with rfl | h
      · simp only at hstart
        omega
      · exact ih h (by omega)

/-! ## Sound text -/

/-- A string literal whose opening quote precedes a text is closed in it; a backslash may come
first. -/
def stringCloses (backslash : Bool) : List Char → Bool
  | [] => false
  | c :: rest =>
    if backslash then stringCloses false rest else c = '"' || stringCloses (c = '\\') rest

/-- The atom at `c` is no comment and, if it is a string, closed. -/
def Closed (c : Char) (rest : List Char) : Prop :=
  ¬ (c = '/' ∧ (rest.head? = some '/' ∨ rest.head? = some '*')) ∧
    (c = '"' → stringCloses false rest)

variable (classes) in
/-- There are no comments and no open strings after the first `skip` characters. -/
def Sound (skip : ℕ) : List Char → Prop
  | [] => True
  | c :: rest =>
    match skip with
    | skip + 1 => Sound skip rest
    | 0 => Closed c rest ∧ Sound ((atomKind classes c rest.head?).more classes rest) rest

variable (classes) in
/-- No atom continues with the character. -/
def Stops (h : Char) : Prop := wordChar classes h = false ∧ h ∉ ['?', '/', '*']

/-- The last atom is an escaped name. -/
def EndsEscaped (ts : List Token) : Prop := ts.getLast?.map Token.kind = some .escaped

theorem stringTail_of_closes {backslash : Bool} (hcloses : stringCloses backslash u) :
    stringTail backslash (u ++ v) = stringTail backslash u := by
  induction u generalizing backslash with
  | nil => cases hcloses
  | cons c u ih =>
    rw [stringCloses] at hcloses
    rw [List.cons_append, stringTail, stringTail]
    split_ifs at hcloses ⊢ with hbackslash hquote
    · rw [ih hcloses]
    · rfl
    · rw [decide_eq_false hquote, Bool.false_or] at hcloses
      rw [ih hcloses]

theorem takeWhile_of_stops {p : Char → Bool} (hp : p h = false) :
    (u ++ h :: w).takeWhile p = u.takeWhile p := by
  rw [List.takeWhile_append, List.takeWhile_cons_of_neg (by simp [hp]), List.append_nil]
  split_ifs with hall
  · exact (List.takeWhile_sublist p).eq_of_length hall |>.symm
  · rfl

theorem atomKind_of_closed (hclosed : Closed c rest) :
    atomKind classes c rest.head? = charKind classes c := by
  unfold atomKind
  grind [Closed]

theorem Closed.append (hclosed : Closed c u) (hstops : Stops classes h) :
    atomKind classes c (u ++ h :: w).head? = charKind classes c := by
  unfold atomKind
  cases u with
  | nil => grind [Stops, Closed]
  | cons d u => grind [Closed]

theorem charKind_eq_string (h : charKind classes c = .string) : c = '"' := by
  unfold charKind at h
  split_ifs at h
  assumption

theorem charKind_eq_escaped (h : charKind classes c = .escaped) : c = '\\' := by
  unfold charKind at h
  split_ifs at h
  assumption

theorem charKind_ne_comment : charKind classes c ≠ .lineComment ∧ charKind classes c ≠ .blockComment := by
  unfold charKind
  split_ifs <;> exact ⟨nofun, nofun⟩

theorem Stops.more_append (hstops : Stops classes h)
    (hstring : kind = .string → stringCloses false u)
    (hline : kind ≠ .lineComment) (hblock : kind ≠ .blockComment)
    (hescaped : kind = .escaped → classes.isSpace h ∨ kind.more classes u < u.length) :
    kind.more classes (u ++ h :: w) = kind.more classes u := by
  obtain ⟨hword, hnot⟩ := hstops
  simp only [wordChar, Bool.or_eq_false_iff] at hword
  cases kind with
  | lineComment => exact absurd rfl hline
  | blockComment => exact absurd rfl hblock
  | string => exact stringTail_of_closes (hstring rfl)
  | word => exact congrArg List.length (takeWhile_of_stops (by simp [wordChar, hword]))
  | number => exact congrArg List.length (takeWhile_of_stops (by simp [digitChar, hword]))
  | literal =>
    exact congrArg List.length (takeWhile_of_stops (by simp_all [literalChar]))
  | escaped =>
    rcases hescaped rfl with hspace | hlt
    · exact congrArg List.length (takeWhile_of_stops (by simp [hspace]))
    · rw [Kind.more] at hlt
      simp only [Kind.more, List.takeWhile_append, if_neg hlt.ne]
  | space | delimiter | symbol => rfl

theorem atoms_eq_nil (h : u.length ≤ skip) : atoms classes skip index u = [] := by
  induction u generalizing skip index with
  | nil => rfl
  | cons c u ih =>
    rw [List.length_cons] at h
    obtain ⟨skip, rfl⟩ := Nat.exists_eq_add_one_of_ne_zero (by omega : skip ≠ 0)
    exact ih (by omega)

theorem atoms_of_closed (hclosed : Closed c u) :
    atoms classes 0 index (c :: u) =
      ⟨charKind classes c, c :: u.take ((charKind classes c).more classes u), index⟩ ::
        atoms classes ((charKind classes c).more classes u) (index + 1) u := by
  rw [atoms, atomKind_of_closed hclosed]

theorem EndsEscaped.cons {ts : List Token} (t : Token) (h : EndsEscaped ts) :
    EndsEscaped (t :: ts) := by
  cases ts with
  | nil => cases h
  | cons next ts => simpa [EndsEscaped] using h

/-- Sound text has a boundary before a character that no atom continues with, unless it ends in
an escaped name that white space does not follow. -/
theorem boundary_of_sound (hsound : Sound classes skip u) (hskip : skip ≤ u.length)
    (hstops : Stops classes h)
    (hends : classes.isSpace h ∨ ¬ EndsEscaped (atoms classes skip index u)) :
    Boundary classes skip u (h :: w) := by
  induction u generalizing skip index with
  | nil => exact Nat.le_zero.mp hskip
  | cons c u ih =>
    cases skip with
    | succ skip => exact @ih skip _ hsound (Nat.le_of_succ_le_succ hskip) hends
    | zero =>
      obtain ⟨hclosed, hsound⟩ := hsound
      rw [atomKind_of_closed hclosed] at hsound
      have hmore : (charKind classes c).more classes (u ++ h :: w) =
          (charKind classes c).more classes u := by
        apply hstops.more_append
        · exact fun hkind => hclosed.2 (charKind_eq_string hkind)
        · exact charKind_ne_comment.1
        · exact charKind_ne_comment.2
        · refine fun hkind => hends.imp_right fun hends => ?_
          refine lt_of_le_of_ne (more_le _ _) fun hall => hends ?_
          rw [EndsEscaped, atoms_of_closed hclosed, atoms_eq_nil hall.ge, hkind]
          rfl
      rw [Boundary, hclosed.append hstops, hmore]
      rw [atoms_of_closed hclosed] at hends
      exact ih hsound (more_le _ _) (hends.imp_right fun hends hrest => hends (hrest.cons _))

end Verilog
