import Mathlib.Algebra.Group.Nat.Defs
import Mathlib.Data.Nat.Notation
import Mathlib.Tactic.Basic

/-!
# Gray codes

The Gray code of a counter, and the comparison by which a queue with counters of one bit more than
its addresses tells that it is full: the codes of two counters that are half a turn apart differ in
exactly the two topmost bits.
-/

namespace Gray

variable {w : ℕ} {x y : BitVec w}

def gray (x : BitVec w) : BitVec w := (x >>> 1) ^^^ x

theorem getLsbD_gray (x : BitVec w) (i : ℕ) :
    (gray x).getLsbD i = (x.getLsbD (i + 1) ^^ x.getLsbD i) := by
  simp [gray, Nat.add_comm 1 i]

theorem gray_xor (x y : BitVec w) : gray (x ^^^ y) = gray x ^^^ gray y := by
  rw [gray, gray, gray, BitVec.ushiftRight_xor_distrib]
  ac_rfl

theorem gray_injective : Function.Injective (gray (w := w)) := by
  intro x y h
  have hzero : gray (x ^^^ y) = 0#w := by
    rw [gray_xor, h, BitVec.xor_self]
  have hshift : (x ^^^ y) >>> 1 = x ^^^ y := BitVec.xor_eq_zero_iff.mp hzero
  have hhalf := congrArg BitVec.toNat hshift
  rw [BitVec.toNat_ushiftRight, Nat.shiftRight_eq_div_pow] at hhalf
  have hnone : (x ^^^ y).toNat = 0 := by omega
  exact BitVec.xor_eq_zero_iff.mp (BitVec.eq_of_toNat_eq hnone)

@[simp] theorem gray_zero : gray (0#w) = 0#w := by simp [gray]

/-! ## Half a turn -/

/-- Half a turn changes the topmost bit. -/
theorem add_half (x : BitVec (w + 1)) :
    x + BitVec.twoPow (w + 1) w = x ^^^ BitVec.twoPow (w + 1) w := by
  apply BitVec.eq_of_getLsbD_eq
  intro i hi
  have hcarry : BitVec.carry i x (BitVec.twoPow (w + 1) w) false = false := by
    have hdvd : 2 ^ i ∣ 2 ^ w := Nat.pow_dvd_pow 2 (by omega)
    have hlt : x.toNat % 2 ^ i < 2 ^ i := Nat.mod_lt _ (Nat.two_pow_pos i)
    have htop : (BitVec.twoPow (w + 1) w).toNat = 2 ^ w :=
      BitVec.toNat_twoPow_of_lt (Nat.lt_succ_self w)
    simp only [BitVec.carry, htop, Nat.mod_eq_zero_of_dvd hdvd, Bool.toNat_false,
      decide_eq_false_iff_not]
    omega
  rw [BitVec.getLsbD_add hi, hcarry, BitVec.getLsbD_xor, Bool.xor_false]

/-- `{~code[w+1:w], code[w-1:0]}` -/
def flipTop (code : BitVec (w + 2)) : BitVec (w + 2) :=
  (~~~(code.extractLsb' w 2) ++ code.extractLsb' 0 w).cast (Nat.add_comm 2 w)

theorem getLsbD_flipTop (code : BitVec (w + 2)) {i : ℕ} (hi : i < w + 2) :
    (flipTop code).getLsbD i = (code.getLsbD i ^^ decide (w ≤ i)) := by
  rw [flipTop, BitVec.getLsbD_cast, BitVec.getLsbD_append]
  by_cases hlow : i < w
  · simp [hlow, Nat.not_le.mpr hlow]
  · have hsub : i - w < 2 := by omega
    have hadd : w + (i - w) = i := by omega
    simp [hlow, Nat.not_lt.mp hlow, hsub, hadd]

theorem flipTop_gray (x : BitVec (w + 2)) :
    flipTop (gray x) = gray (x + BitVec.twoPow (w + 2) (w + 1)) := by
  rw [add_half, gray_xor]
  apply BitVec.eq_of_getLsbD_eq
  intro i hi
  rw [getLsbD_flipTop _ hi, BitVec.getLsbD_xor, getLsbD_gray (BitVec.twoPow _ _),
    BitVec.getLsbD_twoPow, BitVec.getLsbD_twoPow]
  congr 1
  grind

/-! ## Counters -/

/-- Counters that are less than a turn apart show it. -/
theorem ofNat_inj {a b : ℕ} (hle : b ≤ a) (hlt : a < b + 2 ^ w) :
    BitVec.ofNat w a = BitVec.ofNat w b ↔ a = b := by
  constructor
  · intro h
    have hmod := congrArg BitVec.toNat h
    rw [BitVec.toNat_ofNat, BitVec.toNat_ofNat] at hmod
    have hdvd := Nat.sub_mod_eq_zero_of_mod_eq hmod
    rw [Nat.mod_eq_of_lt (by omega)] at hdvd
    omega
  · rintro rfl
    rfl

/-- The queue is full exactly if the codes differ in the two topmost bits. -/
theorem gray_eq_flipTop_iff {a b : ℕ} (hle : b ≤ a) (hbound : a ≤ b + 2 ^ (w + 1)) :
    gray (BitVec.ofNat (w + 2) a) = flipTop (gray (BitVec.ofNat (w + 2) b)) ↔
      a = b + 2 ^ (w + 1) := by
  have hhalf : BitVec.twoPow (w + 2) (w + 1) = BitVec.ofNat (w + 2) (2 ^ (w + 1)) := by
    apply BitVec.eq_of_toNat_eq
    rw [BitVec.toNat_twoPow, BitVec.toNat_ofNat]
  have hturn : 2 ^ (w + 2) = 2 ^ (w + 1) + 2 ^ (w + 1) := by
    rw [Nat.pow_succ, Nat.mul_two]
  have hpos : 0 < 2 ^ (w + 1) := Nat.two_pow_pos _
  rw [flipTop_gray, gray_injective.eq_iff, hhalf, BitVec.ofNat_add_ofNat, eq_comm,
    ofNat_inj hbound (by omega), eq_comm]

end Gray
