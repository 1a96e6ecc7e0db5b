import Mathlib.Order.Nat
import NovaRtl.FourState.Vector

/-!
# Laws of the bitwise operators

The bitwise operators read a floating bit as unknown. They are associative and conjunction
distributes over disjunction, on bits and on vectors. The laws of vectors hold at all widths,
as the operators extend the shorter operand with zeros and `0` with `0` gives `0`.
-/

namespace FourState

namespace Logic

def xor : Logic → Logic → Logic
  | zero, zero | one, one => zero
  | zero, one | one, zero => one
  | _, _ => x

/-- `0` or `1` -/
def isKnown (b : Logic) : Bool := b = zero || b = one

theorem xor_eq_zero {a b : Logic} : a.xor b = zero ↔ a.isKnown ∧ a = b := by
  cases a <;> cases b <;> simp [xor, isKnown]

theorem or_eq_zero {a b : Logic} : a.or b = zero ↔ a = zero ∧ b = zero := by
  cases a <;> cases b <;> simp [or]

theorem not_eq_one {a : Logic} : a.not = one ↔ a = zero := by cases a <;> simp [not]

instance : Std.Associative and := ⟨fun a b c => by cases a <;> cases b <;> cases c <;> rfl⟩

instance : Std.Associative or := ⟨fun a b c => by cases a <;> cases b <;> cases c <;> rfl⟩

instance : Std.Associative xor := ⟨fun a b c => by cases a <;> cases b <;> cases c <;> rfl⟩

theorem and_or_distrib (a b c : Logic) : a.and (b.or c) = (a.and b).or (a.and c) := by
  cases a <;> cases b <;> cases c <;> rfl

end Logic

namespace Vec

def or (v w : Vec) : Vec := v.zipWith Logic.or w

def xor (v w : Vec) : Vec := v.zipWith Logic.xor w

/-- A bit of the vector, extended with zeros. -/
def digit (v : Vec) (i : ℕ) : Logic := v.bits.getD i .zero

theorem ext_digit {v w : Vec} (hwidth : v.width = w.width) (h : ∀ i, v.digit i = w.digit i) :
    v = w := by
  apply Vec.ext
  apply List.ext_getElem hwidth
  intro i hi hi'
  simpa [digit, List.getD_eq_getElem?_getD, hi, hi'] using h i

theorem getD_extend (v : Vec) (n i : ℕ) : (v.extend n).getD i .zero = v.digit i := by
  simp only [extend, digit, List.getD_eq_getElem?_getD, List.getElem?_append, List.getElem?_replicate]
  split
  · rfl
  next hi =>
    rw [List.getElem?_eq_none (not_lt.mp hi)]
    split <;> rfl

section ZipWith

variable {f g : Logic → Logic → Logic} {u v w : Vec}

@[simp] theorem width_zipWith (f : Logic → Logic → Logic) (v w : Vec) :
    (v.zipWith f w).width = max v.width w.width := by
  change ((v.extend w.width).zipWith f (w.extend v.width)).length = _
  rw [List.length_zipWith, length_extend, length_extend, max_comm w.width, min_self]

theorem digit_zipWith (hf : f .zero .zero = .zero) (v w : Vec) (i : ℕ) :
    (v.zipWith f w).digit i = f (v.digit i) (w.digit i) := by
  have hv := length_extend v w.width
  have hw := length_extend w v.width
  rw [← getD_extend v w.width i, ← getD_extend w v.width i]
  change ((v.extend w.width).zipWith f (w.extend v.width)).getD i .zero = _
  simp only [List.getD_eq_getElem?_getD, List.getElem?_zipWith]
  rcases lt_or_ge i (max v.width w.width) with hi | hi
  · have hv' : i < (v.extend w.width).length := by omega
    have hw' : i < (w.extend v.width).length := by omega
    rw [List.getElem?_eq_getElem hv', List.getElem?_eq_getElem hw']
    rfl
  · have hv' : (v.extend w.width).length ≤ i := by omega
    have hw' : (w.extend v.width).length ≤ i := by omega
    rw [List.getElem?_eq_none hv', List.getElem?_eq_none hw']
    exact hf.symm

theorem zipWith_assoc [Std.Associative f] (hf : f .zero .zero = .zero) (u v w : Vec) :
    (u.zipWith f v).zipWith f w = u.zipWith f (v.zipWith f w) := by
  apply ext_digit
  · simp only [width_zipWith, max_assoc]
  · intro i
    simp only [digit_zipWith hf, Std.Associative.assoc]

end ZipWith

instance : Std.Associative and := ⟨zipWith_assoc rfl⟩

instance : Std.Associative or := ⟨zipWith_assoc rfl⟩

instance : Std.Associative xor := ⟨zipWith_assoc rfl⟩

theorem and_or_distrib (u v w : Vec) : u.and (v.or w) = (u.and v).or (u.and w) := by
  apply ext_digit
  · simp only [and, or, width_zipWith]
    omega
  · intro i
    simp only [and, or, digit_zipWith (f := Logic.and) rfl, digit_zipWith (f := Logic.or) rfl,
      Logic.and_or_distrib]

/-! ## Equality -/

def isKnown (v : Vec) : Bool := v.bits.all Logic.isKnown

/-- `==`, which is unknown where unknown bits leave it open. -/
def logicalEq (v w : Vec) : Logic := (v.xor w).reduceOr.not

theorem foldr_or_eq_zero {bits : List Logic} :
    bits.foldr Logic.or .zero = .zero ↔ ∀ b ∈ bits, b = .zero := by
  induction bits with
  | nil => simp
  | cons b bits ih => rw [List.foldr_cons, Logic.or_eq_zero, ih, List.forall_mem_cons]

theorem zipWith_xor_eq_zero {bits bits' : List Logic} (hlength : bits.length = bits'.length) :
    (∀ b ∈ bits.zipWith Logic.xor bits', b = .zero) ↔ bits.all Logic.isKnown ∧ bits = bits' := by
  induction bits generalizing bits' with
  | nil => simpa using List.eq_nil_of_length_eq_zero hlength.symm
  | cons b bits ih =>
    obtain ⟨b', bits', rfl⟩ := List.exists_cons_of_length_eq_add_one hlength.symm
    rw [List.zipWith_cons_cons, List.forall_mem_cons, ih (Nat.succ.inj hlength),
      Logic.xor_eq_zero, List.all_cons, Bool.and_eq_true, List.cons.injEq]
    tauto

/-- The two equalities agree where one side is known. -/
theorem logicalEq_eq_one_iff {v w : Vec} : v.logicalEq w = .one ↔ v.isKnown ∧ v.caseEq w := by
  have hlength : (v.extend w.width).length = (w.extend v.width).length := by
    rw [length_extend, length_extend, max_comm]
  have hextend : (v.extend w.width).all Logic.isKnown = v.isKnown := by
    simp [extend, isKnown, Logic.isKnown]
  rw [logicalEq, Logic.not_eq_one]
  change ((v.extend w.width).zipWith Logic.xor (w.extend v.width)).foldr Logic.or .zero = .zero ↔ _
  rw [foldr_or_eq_zero, zipWith_xor_eq_zero hlength, hextend, caseEq, decide_eq_true_eq]

end Vec

/-- The operators of a bitwise reduction. -/
inductive Operator where
  | and | or | xor
  deriving DecidableEq, Repr

namespace Operator

def onBits : Operator → Logic → Logic → Logic
  | and => Logic.and
  | or => Logic.or
  | xor => Logic.xor

def onVecs : Operator → Vec → Vec → Vec
  | and => Vec.and
  | or => Vec.or
  | xor => Vec.xor

instance : (op : Operator) → Std.Associative op.onBits
  | and => inferInstanceAs (Std.Associative Logic.and)
  | or => inferInstanceAs (Std.Associative Logic.or)
  | xor => inferInstanceAs (Std.Associative Logic.xor)

instance : (op : Operator) → Std.Associative op.onVecs
  | and => inferInstanceAs (Std.Associative Vec.and)
  | or => inferInstanceAs (Std.Associative Vec.or)
  | xor => inferInstanceAs (Std.Associative Vec.xor)

theorem digit_onVecs (op : Operator) (v w : Vec) (i : ℕ) :
    (op.onVecs v w).digit i = op.onBits (v.digit i) (w.digit i) := by
  cases op <;> exact Vec.digit_zipWith rfl v w i

end Operator

end FourState
