import Mathlib.Data.List.Basic

/-!
# Four-state vectors

Bits are `0`, `1`, unknown or floating. Bitwise operators follow the truth tables of
SystemVerilog, in which a floating operand counts as unknown. Vectors are unsigned: the
shorter operand of a binary operator is extended with zeros.

`Vec.truth` is the test of an `if`: some bit is known to be `1`. Case equality compares bits
as they are. On one bit the two agree; `Vec.caseEq_one_iff` says what they share on more.
-/

namespace FourState

inductive Logic where
  | zero | one | x | z
  deriving DecidableEq, Repr

namespace Logic

def ofBool : Bool → Logic
  | true => one
  | false => zero

def and : Logic → Logic → Logic
  | zero, _ | _, zero => zero
  | one, one => one
  | _, _ => x

def or : Logic → Logic → Logic
  | one, _ | _, one => one
  | zero, zero => zero
  | _, _ => x

def not : Logic → Logic
  | zero => one
  | one => zero
  | _ => x

@[simp] theorem ofBool_eq_one {b : Bool} : ofBool b = one ↔ b := by cases b <;> simp [ofBool]

@[simp] theorem and_ofBool (a b : Bool) : (ofBool a).and (ofBool b) = ofBool (a && b) := by
  cases a <;> cases b <;> rfl

@[simp] theorem or_ofBool (a b : Bool) : (ofBool a).or (ofBool b) = ofBool (a || b) := by
  cases a <;> cases b <;> rfl

@[simp] theorem not_ofBool (a : Bool) : (ofBool a).not = ofBool (!a) := by cases a <;> rfl

end Logic

/-- A vector of at least one bit, the least significant bit first. -/
structure Vec where
  bits : List Logic
  nonempty : bits ≠ []
  deriving DecidableEq

namespace Vec

variable {v : Vec}

@[ext] theorem ext {v w : Vec} (h : v.bits = w.bits) : v = w := by
  cases v; cases w; cases h; rfl

def width (v : Vec) : ℕ := v.bits.length

theorem width_pos (v : Vec) : 0 < v.width := List.length_pos_of_ne_nil v.nonempty

def ofBit (b : Logic) : Vec := ⟨[b], by simp⟩

/-- `b` in all of `n + 1` bits. -/
def fill (n : ℕ) (b : Logic) : Vec := ⟨List.replicate (n + 1) b, by simp⟩

@[simp] theorem width_ofBit (b : Logic) : (ofBit b).width = 1 := rfl

@[simp] theorem width_fill (n : ℕ) (b : Logic) : (fill n b).width = n + 1 := by
  simp [fill, width]

/-- A bit-select. Outside the vector it is unknown. -/
def bit (v : Vec) (i : ℕ) : Logic := v.bits.getD i .x

def setBit (v : Vec) (i : ℕ) (b : Logic) : Vec :=
  ⟨v.bits.set i b, by simpa using v.nonempty⟩

@[simp] theorem width_setBit (v : Vec) (i : ℕ) (b : Logic) : (v.setBit i b).width = v.width := by
  simp [setBit, width]

theorem bit_setBit {i : ℕ} (hi : i < v.width) (b : Logic) (j : ℕ) :
    (v.setBit i b).bit j = if j = i then b else v.bit j := by
  unfold width at hi
  rcases eq_or_ne j i with rfl | hj
  · simp [bit, setBit, List.getD_eq_getElem?_getD, hi]
  · simp [bit, setBit, List.getD_eq_getElem?_getD, hj, Ne.symm hj]

/-- The part-select of `n + 1` bits from bit 0. -/
def lower (v : Vec) (n : ℕ) : Vec := ⟨(List.range (n + 1)).map v.bit, by simp⟩

def reduceOr (v : Vec) : Logic := v.bits.foldr Logic.or .zero

/-- The bits of `v`, extended with zeros to width `n`. -/
def extend (v : Vec) (n : ℕ) : List Logic := v.bits ++ List.replicate (n - v.width) .zero

@[simp] theorem length_extend (v : Vec) (n : ℕ) : (v.extend n).length = max v.width n := by
  simp only [extend, List.length_append, List.length_replicate, width]
  omega

theorem extend_ne_nil (v : Vec) (n : ℕ) : v.extend n ≠ [] := by
  simp [extend, v.nonempty]

/-- A bitwise operator on two vectors. -/
def zipWith (f : Logic → Logic → Logic) (v w : Vec) : Vec :=
  ⟨(v.extend w.width).zipWith f (w.extend v.width), by
    simp [List.zipWith_eq_nil_iff, extend_ne_nil]⟩

def and (v w : Vec) : Vec := v.zipWith Logic.and w

def not (v : Vec) : Vec := ⟨v.bits.map Logic.not, by simpa using v.nonempty⟩

/-- `===` -/
def caseEq (v w : Vec) : Bool := v.extend w.width = w.extend v.width

/-- The value of a condition: some bit is known to be `1`. -/
def truth (v : Vec) : Bool := v.bits.any (· = .one)

@[simp] theorem and_ofBit (a b : Logic) : (ofBit a).and (ofBit b) = ofBit (a.and b) := rfl

@[simp] theorem not_ofBit (a : Logic) : (ofBit a).not = ofBit a.not := rfl

@[simp] theorem truth_ofBit (b : Logic) : (ofBit b).truth = decide (b = .one) := by
  simp [truth, ofBit]

@[simp] theorem caseEq_ofBit (a b : Logic) : (ofBit a).caseEq (ofBit b) = decide (a = b) := by
  simp [caseEq, extend, ofBit, width]

/-- The vectors that case equality takes for `1'b1`. -/
theorem caseEq_one_iff :
    v.caseEq (ofBit .one) ↔ ∃ n, v.bits = .one :: List.replicate n .zero := by
  obtain ⟨bits, hbits⟩ := v
  obtain ⟨b, rest, rfl⟩ := List.exists_cons_of_ne_nil hbits
  have hwidth : 1 - (rest.length + 1) = 0 := by omega
  simp only [caseEq, extend, ofBit, width, List.length_cons, List.length_nil, Nat.zero_add,
    hwidth, List.replicate_zero, List.append_nil, Nat.add_sub_cancel, List.cons_append,
    List.nil_append, List.cons.injEq, decide_eq_true_eq]
  constructor
  · rintro ⟨rfl, hrest⟩
    exact ⟨rest.length, rfl, hrest⟩
  · rintro ⟨n, rfl, rfl⟩
    simp

/-- What is equal to `1'b1` is true. -/
theorem truth_of_caseEq_one (h : v.caseEq (ofBit .one)) : v.truth := by
  obtain ⟨n, hbits⟩ := caseEq_one_iff.mp h
  simp [truth, hbits]

/-- On one bit, being true is being equal to `1'b1`. -/
theorem caseEq_one_eq_truth (h : v.width = 1) : v.caseEq (ofBit .one) = v.truth := by
  obtain ⟨b, hb⟩ := List.length_eq_one_iff.mp h
  obtain rfl : v = ofBit b := ext hb
  simp

/-- `10…0`: true, and not equal to `1'b1`. -/
def high (n : ℕ) : Vec := ⟨List.replicate (n + 1) .zero ++ [.one], by simp⟩

@[simp] theorem width_high (n : ℕ) : (high n).width = n + 2 := by simp [high, width]

theorem truth_high (n : ℕ) : (high n).truth := by simp [truth, high]

theorem caseEq_high (n : ℕ) : (high n).caseEq (ofBit .one) = false := by
  rw [Bool.eq_false_iff]
  intro h
  obtain ⟨m, hbits⟩ := caseEq_one_iff.mp h
  simp [high, List.replicate_succ] at hbits

@[simp] theorem truth_fill_zero (n : ℕ) : (fill n .zero).truth = false := by
  simp [truth, fill]

@[simp] theorem bit_lower {n i : ℕ} (hi : i ≤ n) : (v.lower n).bit i = v.bit i := by
  have hlt : i < n + 1 := Nat.lt_succ_of_le hi
  simp [lower, bit, List.getD_eq_getElem?_getD, hlt]

/-- The disjunction of known bits. -/
theorem reduceOr_lower {n : ℕ} (f : ℕ → Bool) (h : ∀ i ≤ n, v.bit i = .ofBool (f i)) :
    (v.lower n).reduceOr = .ofBool ((List.range (n + 1)).any f) := by
  have hmap : (List.range (n + 1)).map v.bit = (List.range (n + 1)).map fun i => .ofBool (f i) :=
    List.map_congr_left fun i hi => h i (Nat.lt_succ_iff.mp (List.mem_range.mp hi))
  change ((List.range (n + 1)).map v.bit).foldr Logic.or .zero = _
  rw [hmap]
  generalize List.range (n + 1) = indices
  induction indices with
  | nil => rfl
  | cons i rest ih =>
    rw [List.map_cons, List.foldr_cons, ih, Logic.or_ofBool, List.any_cons]

end Vec

end FourState
