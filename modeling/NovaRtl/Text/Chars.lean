import Mathlib.Data.List.TakeWhile

/-!
# Characters and stripped text

Python asks the Unicode tables for the classes of a character, so the classes are a parameter.
`strip` removes white space at both ends, and `strip_spec` says what it leaves.
-/

namespace Text

/-- Python's `isspace`, `isalpha`, `isdigit`, `isalnum` and `isdecimal`. -/
structure CharClasses where
  isSpace : Char → Bool
  isAlpha : Char → Bool
  isDigit : Char → Bool
  isAlnum : Char → Bool
  isDecimal : Char → Bool

/-- The classes on ASCII text. -/
def CharClasses.ascii : CharClasses where
  isSpace c := c = ' ' || (9 ≤ c.toNat && c.toNat ≤ 13) || (28 ≤ c.toNat && c.toNat ≤ 31)
  isAlpha := Char.isAlpha
  isDigit := Char.isDigit
  isAlnum := Char.isAlphanum
  isDecimal := Char.isDigit

/-- What Python's tables have in common with the classes on ASCII text. -/
structure CharClasses.Lawful (classes : CharClasses) : Prop where
  isSpace_of_lt : ∀ c, c.toNat < 128 → classes.isSpace c = CharClasses.ascii.isSpace c
  isAlpha_of_lt : ∀ c, c.toNat < 128 → classes.isAlpha c = CharClasses.ascii.isAlpha c
  isDigit_of_lt : ∀ c, c.toNat < 128 → classes.isDigit c = CharClasses.ascii.isDigit c
  isAlnum_of_lt : ∀ c, c.toNat < 128 → classes.isAlnum c = CharClasses.ascii.isAlnum c
  isAlnum_of_isAlpha : ∀ c, classes.isAlpha c → classes.isAlnum c
  isAlnum_of_isDigit : ∀ c, classes.isDigit c → classes.isAlnum c
  isDigit_of_isDecimal : ∀ c, classes.isDecimal c → classes.isDigit c
  not_isSpace_of_isAlnum : ∀ c, classes.isAlnum c → classes.isSpace c = false

theorem CharClasses.lawful_ascii : CharClasses.ascii.Lawful where
  isSpace_of_lt _ _ := rfl
  isAlpha_of_lt _ _ := rfl
  isDigit_of_lt _ _ := rfl
  isAlnum_of_lt _ _ := rfl
  isAlnum_of_isAlpha c h := by
    simp only [ascii] at h ⊢
    simp [Char.isAlphanum, h]
  isAlnum_of_isDigit c h := by
    simp only [ascii] at h ⊢
    simp [Char.isAlphanum, h]
  isDigit_of_isDecimal _ h := h
  not_isSpace_of_isAlnum c h := by
    simp only [ascii, Char.isAlphanum, Char.isDigit] at h
    delta Char.isAlpha Char.isUpper Char.isLower at h
    simp only [Bool.or_eq_true, decide_eq_true_eq, Bool.and_eq_true, UInt32.le_iff_toNat_le,
      ge_iff_le] at h
    have hnat : c.toNat = c.val.toNat := rfl
    have hspace : c ≠ ' ' := by
      rintro rfl
      simp at h
    simp only [ascii, Bool.or_eq_false_iff, Bool.and_eq_false_iff, decide_eq_false_iff_not, hspace,
      not_false_eq_true, true_and, hnat]
    simp at h
    omega

variable (classes : CharClasses)

def strip (text : List Char) : List Char :=
  ((text.dropWhile classes.isSpace).reverse.dropWhile classes.isSpace).reverse

/-- Text of white space only. -/
def Blank (text : List Char) : Prop := ∀ c ∈ text, classes.isSpace c

variable {classes}

@[simp] theorem blank_nil : Blank classes [] := nofun

theorem blank_takeWhile (text : List Char) : Blank classes (text.takeWhile classes.isSpace) :=
  fun _ hc => List.mem_takeWhile_imp hc

theorem Blank.reverse {text : List Char} (h : Blank classes text) : Blank classes text.reverse :=
  fun c hc => h c (List.mem_reverse.mp hc)

theorem Blank.append {left right : List Char} (hleft : Blank classes left)
    (hright : Blank classes right) : Blank classes (left ++ right) := by
  intro c hc
  rcases List.mem_append.mp hc with hc | hc
  · exact hleft c hc
  · exact hright c hc

/-- A text is its stripped part between white space. -/
theorem strip_spec (classes : CharClasses) (text : List Char) :
    ∃ before after, Blank classes before ∧ Blank classes after ∧
      text = before ++ strip classes text ++ after := by
  let left := text.dropWhile classes.isSpace
  refine ⟨text.takeWhile classes.isSpace, (left.reverse.takeWhile classes.isSpace).reverse,
    blank_takeWhile text, (blank_takeWhile _).reverse, ?_⟩
  have hright : left.reverse.takeWhile classes.isSpace ++ left.reverse.dropWhile classes.isSpace =
      left.reverse := List.takeWhile_append_dropWhile
  have hleft := congrArg List.reverse hright
  rw [List.reverse_append, List.reverse_reverse] at hleft
  rw [List.append_assoc, strip, hleft]
  exact List.takeWhile_append_dropWhile.symm

end Text
