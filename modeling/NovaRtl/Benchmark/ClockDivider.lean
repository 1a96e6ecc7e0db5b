import Mathlib.Algebra.Order.Floor.Semiring
import Mathlib.Algebra.Ring.Parity
import Mathlib.Data.Nat.Log
import Mathlib.Data.Nat.ModEq
import Mathlib.Data.Nat.Periodic
import Mathlib.Data.Rat.Floor
import Mathlib.Tactic.Linarith
import Mathlib.Tactic.NormNum
import Mathlib.Tactic.Positivity
import Mathlib.Tactic.Ring

/-!
# The generated clocks

The counter of `benchmark/rtl/clocking/protected_clock_divider.sv`, the constraint that `constraints`
renders for its output and the entry that `generator` records in the clock inventory. All three are
read as waveforms in units of time, with `period` the period of the master clock.

## Main definitions

* `stateAt` — the registers after as many master edges.
* `Waveform.High` — the times at which a periodic waveform is high.
-/

namespace NovaRtl.Benchmark.ClockDivider

/-! ## The counter -/

def lowSpan (ratio : ℕ) : ℕ := ratio / 2

def highSpan (ratio : ℕ) : ℕ := ratio - lowSpan ratio

def countWidth (ratio : ℕ) : ℕ := if ratio ≤ 2 then 1 else Nat.clog 2 ratio

structure Divider (ratio : ℕ) where
  spanCount : BitVec (countWidth ratio)
  generatedClock : Bool

section Counter

variable {ratio : ℕ}

def activeSpan (s : Divider ratio) : BitVec (countWidth ratio) :=
  if s.generatedClock then BitVec.ofNat _ (highSpan ratio) else BitVec.ofNat _ (lowSpan ratio)

def masterEdge (s : Divider ratio) : Divider ratio :=
  if s.spanCount = activeSpan s - 1 then ⟨0, !s.generatedClock⟩
  else ⟨s.spanCount + 1, s.generatedClock⟩

def reset (ratio : ℕ) : Divider ratio := ⟨0, false⟩

/-- After `n` edges of the master clock since the reset was released. -/
def stateAt (ratio n : ℕ) : Divider ratio := masterEdge^[n] (reset ratio)

theorem lowSpan_add_highSpan (ratio : ℕ) : lowSpan ratio + highSpan ratio = ratio := by
  simp only [highSpan, lowSpan]
  omega

theorem lowSpan_pos (hratio : 2 ≤ ratio) : 0 < lowSpan ratio := by
  simp only [lowSpan]
  omega

theorem highSpan_eq (ratio : ℕ) : highSpan ratio = (ratio + 1) / 2 := by
  simp only [highSpan, lowSpan]
  omega

theorem highSpan_lt (hratio : 2 ≤ ratio) : highSpan ratio < 2 ^ countWidth ratio := by
  simp only [highSpan, lowSpan, countWidth]
  split_ifs with htwo
  · omega
  · have hclog : ratio ≤ 2 ^ Nat.clog 2 ratio := Nat.le_pow_clog (by decide) ratio
    omega

/-- The registers in cycle `r` of a period. -/
def inCycle (ratio r : ℕ) : Divider ratio :=
  if r < lowSpan ratio then ⟨BitVec.ofNat _ r, false⟩
  else ⟨BitVec.ofNat _ (r - lowSpan ratio), true⟩

theorem spanCount_eq_iff {width count span : ℕ} (hcount : count < span) (hspan : span < 2 ^ width) :
    BitVec.ofNat width count = BitVec.ofNat width span - 1 ↔ count + 1 = span := by
  have hpred : BitVec.ofNat width span - 1 = BitVec.ofNat width (span - 1) := by
    have hsum : BitVec.ofNat width span = BitVec.ofNat width (span - 1) + 1 := by
      rw [show (1 : BitVec width) = BitVec.ofNat width 1 from rfl, BitVec.ofNat_add_ofNat,
        Nat.sub_add_cancel (by omega)]
    rw [hsum, BitVec.add_sub_cancel]
  rw [hpred, ← BitVec.toNat_inj, BitVec.toNat_ofNat, BitVec.toNat_ofNat,
    Nat.mod_eq_of_lt (by omega), Nat.mod_eq_of_lt (by omega)]
  omega

theorem masterEdge_inCycle (hratio : 2 ≤ ratio) {r : ℕ} (hr : r < ratio) :
    masterEdge (inCycle ratio r) = inCycle ratio ((r + 1) % ratio) := by
  have hsum := lowSpan_add_highSpan ratio
  have hpos := lowSpan_pos hratio
  have hhigh := highSpan_lt hratio
  have hlow : lowSpan ratio ≤ highSpan ratio := by
    simp only [highSpan, lowSpan]
    omega
  by_cases hfirst : r < lowSpan ratio
  · have hnext : (r + 1) % ratio = r + 1 := Nat.mod_eq_of_lt (by omega)
    have hlast := spanCount_eq_iff hfirst (hlow.trans_lt hhigh)
    by_cases hend : r + 1 = lowSpan ratio
    · rw [hnext]
      simp [masterEdge, inCycle, activeSpan, hfirst, hlast.mpr hend, hend]
    · have hstay : r + 1 < lowSpan ratio := by omega
      simp only [masterEdge, inCycle, activeSpan, hfirst, hnext, if_true, hstay,
        Bool.false_eq_true, if_false, mt hlast.mp hend]
      rw [show (1 : BitVec (countWidth ratio)) = BitVec.ofNat _ 1 from rfl,
        BitVec.ofNat_add_ofNat]
  · have hcount : r - lowSpan ratio < highSpan ratio := by omega
    have hlast := spanCount_eq_iff hcount hhigh
    by_cases hend : r - lowSpan ratio + 1 = highSpan ratio
    · have hnext : (r + 1) % ratio = 0 := by
        rw [show r + 1 = ratio by omega, Nat.mod_self]
      simp [masterEdge, inCycle, activeSpan, hfirst, hnext, hlast.mpr hend, hpos]
    · have hnext : (r + 1) % ratio = r + 1 := Nat.mod_eq_of_lt (by omega)
      have hstay : ¬ r + 1 < lowSpan ratio := by omega
      simp only [masterEdge, inCycle, activeSpan, hfirst, hnext, if_true, hstay, if_false,
        mt hlast.mp hend]
      rw [show (1 : BitVec (countWidth ratio)) = BitVec.ofNat _ 1 from rfl,
        BitVec.ofNat_add_ofNat, show r - lowSpan ratio + 1 = r + 1 - lowSpan ratio by omega]

theorem stateAt_eq (hratio : 2 ≤ ratio) (n : ℕ) : stateAt ratio n = inCycle ratio (n % ratio) := by
  induction n with
  | zero => simp [stateAt, reset, inCycle, lowSpan_pos hratio]
  | succ n ih =>
    have hr : n % ratio < ratio := Nat.mod_lt _ (by omega)
    rw [stateAt, Function.iterate_succ_apply', ← stateAt, ih, masterEdge_inCycle hratio hr,
      Nat.mod_add_mod]

theorem generatedClock_iff (hratio : 2 ≤ ratio) (n : ℕ) :
    (stateAt ratio n).generatedClock = true ↔ lowSpan ratio ≤ n % ratio := by
  rw [stateAt_eq hratio, inCycle]
  split_ifs with hlow
  · simpa using hlow
  · simpa using Nat.le_of_not_lt hlow

/-- In each period the clock is low and then high, and it has no shorter period. -/
theorem generatedClock_period (hratio : 2 ≤ ratio) (p : ℕ) :
    (∀ n, (stateAt ratio (n + p)).generatedClock = (stateAt ratio n).generatedClock) ↔
      ratio ∣ p := by
  have hclock (n : ℕ) := generatedClock_iff hratio n
  have hpos := lowSpan_pos hratio
  have hhigh : lowSpan ratio < ratio := by
    simp only [lowSpan]
    omega
  constructor
  · intro hsame
    -- the last cycle before a rise and the rise itself meet the same cycles `p` later
    have hrise := hsame (lowSpan ratio)
    have hbefore := hsame (lowSpan ratio - 1)
    rw [Bool.eq_iff_iff, hclock, hclock, Nat.mod_eq_of_lt hhigh] at hrise
    have hlast : (lowSpan ratio - 1) % ratio = lowSpan ratio - 1 := Nat.mod_eq_of_lt (by omega)
    rw [Bool.eq_iff_iff, hclock, hclock, hlast] at hbefore
    have hup := hrise.mpr le_rfl
    have hdown : ¬ lowSpan ratio ≤ (lowSpan ratio - 1 + p) % ratio :=
      fun hle => absurd (hbefore.mp hle) (by omega)
    have hnext : (lowSpan ratio + p) % ratio =
        ((lowSpan ratio - 1 + p) % ratio + 1) % ratio := by
      rw [Nat.mod_add_mod]
      congr 1
      omega
    have hlt : (lowSpan ratio - 1 + p) % ratio + 1 < ratio := by omega
    rw [Nat.mod_eq_of_lt hlt] at hnext
    have heq : (lowSpan ratio + p) % ratio = lowSpan ratio := by omega
    have hmod : (lowSpan ratio + p) % ratio = (lowSpan ratio + 0) % ratio := by
      rw [heq, Nat.add_zero, Nat.mod_eq_of_lt hhigh]
    exact Nat.dvd_of_mod_eq_zero (Nat.ModEq.add_left_cancel' _ hmod)
  · rintro ⟨q, rfl⟩ n
    rw [Bool.eq_iff_iff, hclock, hclock, Nat.add_mul_mod_self_left]

theorem count_generatedClock (hratio : 2 ≤ ratio) (m : ℕ) :
    ((Finset.Ico m (m + ratio)).filter fun n => (stateAt ratio n).generatedClock = true).card =
      (ratio + 1) / 2 := by
  have hperiodic : Function.Periodic
      (fun n => (stateAt ratio n).generatedClock = true) ratio := by
    intro n
    simp only [(generatedClock_period hratio ratio).mpr dvd_rfl n]
  have hsum := lowSpan_add_highSpan ratio
  have hlow : ∀ n < lowSpan ratio, ¬ (stateAt ratio n).generatedClock = true := by
    intro n hn
    rw [generatedClock_iff hratio, Nat.mod_eq_of_lt (by omega)]
    omega
  have hhigh : ∀ n < highSpan ratio,
      (stateAt ratio (lowSpan ratio + n)).generatedClock = true := by
    intro n hn
    rw [generatedClock_iff hratio, Nat.mod_eq_of_lt (by omega)]
    omega
  calc
    _ = Nat.count (fun n => (stateAt ratio n).generatedClock = true) ratio :=
      Nat.filter_Ico_card_eq_of_periodic m ratio _ hperiodic
    _ = Nat.count (fun n => (stateAt ratio n).generatedClock = true)
          (lowSpan ratio + highSpan ratio) := by rw [hsum]
    _ = 0 + highSpan ratio := by
      rw [Nat.count_add, Nat.count_iff_forall_not.mpr hlow, Nat.count_iff_forall.mpr hhigh]
    _ = (ratio + 1) / 2 := by rw [Nat.zero_add, highSpan_eq]

end Counter

/-! ## The constraint -/

structure BenchmarkMasterDomain where
  domainId : String
  masterClockId : String

inductive WaveformMode where
  | evenDivideBy
  | oddEdgeList
deriving DecidableEq

structure GeneratedClockConstraint where
  clockId : String
  domainId : String
  masterClockId : String
  sourceSelector : String
  targetSelector : String
  divideBy : ℕ
  waveformMode : WaveformMode
  edgeIndices : List ℕ

def GeneratedClockConstraint.waveformMatchesDivider (clock : GeneratedClockConstraint) :
    Except String Unit :=
  if clock.divideBy % 2 = 0 then
    if clock.waveformMode ≠ .evenDivideBy ∨ clock.edgeIndices ≠ [] then
      throw "even generated clocks must use divide-by waveform semantics"
    else pure ()
  else if clock.waveformMode ≠ .oddEdgeList ∨
      clock.edgeIndices ≠ [1, clock.divideBy + 2, 2 * clock.divideBy + 1] then
    throw "odd generated clock edge list does not match divider semantics"
  else pure ()

/-- The decimal of at least `width` digits. -/
def padded (width n : ℕ) : String :=
  String.ofList (List.replicate (width - (Nat.repr n).length) '0') ++ Nat.repr n

def generatedClockId (domain : BenchmarkMasterDomain) (ratio : ℕ) : String :=
  s!"gclk_{domain.domainId}_div_{padded 3 ratio}"

/-- The constraint of the clock at `index` of a domain's dividers. -/
def clockConstraint (domain : BenchmarkMasterDomain) (index ratio : ℕ) :
    GeneratedClockConstraint where
  clockId := generatedClockId domain ratio
  domainId := domain.domainId
  masterClockId := domain.masterClockId
  sourceSelector := s!"[get_ports {domain.masterClockId}]"
  targetSelector := s!"[get_nets {domain.domainId}_generated_clocks[{index}]]"
  divideBy := ratio
  waveformMode := if ratio % 2 = 0 then .evenDivideBy else .oddEdgeList
  edgeIndices := if ratio % 2 = 0 then [] else [1, ratio + 2, 2 * ratio + 1]

inductive WaveformOption where
  | divideBy (factor : ℕ)
  | edges (indices : List ℕ)

def WaveformOption.text : WaveformOption → String
  | divideBy factor => s!"-divide_by {factor}"
  | edges indices => "-edges \x7b" ++ " ".intercalate (indices.map toString) ++ "\x7d"

def GeneratedClockConstraint.waveformOption (clock : GeneratedClockConstraint) : WaveformOption :=
  match clock.waveformMode with
  | .evenDivideBy => .divideBy clock.divideBy
  | .oddEdgeList => .edges clock.edgeIndices

/-- The line of the constraint file. -/
def GeneratedClockConstraint.sdcText (clock : GeneratedClockConstraint) : String :=
  s!"create_generated_clock -name {clock.clockId} " ++
    s!"-source {clock.sourceSelector} {clock.waveformOption.text} {clock.targetSelector}"

/-! ## The inventory -/

structure GeneratedClockExpectation where
  clockId : String
  domainId : String
  masterClockId : String
  dividerRatio : ℕ
  activeConsumers : List String

def expectation (domain : BenchmarkMasterDomain) (index ratio : ℕ) : GeneratedClockExpectation :=
  let subsystemInstance :=
    if domain.domainId = "schedule" then "u_schedule" else s!"u_{domain.domainId}"
  { clockId := generatedClockId domain ratio
    domainId := domain.domainId
    masterClockId := domain.masterClockId
    dividerRatio := ratio
    activeConsumers := [s!"{subsystemInstance}.u_domain.gen_consumers[{index}].u_consumer"] }

structure GeneratedClockEntry where
  clockId : String
  domainId : String
  masterClockId : String
  sourceObject : String
  multiplyBy : ℕ
  divideBy : ℕ
  waveformNs : ℚ × ℚ
  activeConsumerCount : ℕ

def GeneratedClockEntry.waveformIncreases (entry : GeneratedClockEntry) : Except String Unit :=
  if entry.waveformNs.2 ≤ entry.waveformNs.1 then
    throw "generated clock waveform must increase"
  else pure ()

def inventoryEntry (period : ℚ) (expected : GeneratedClockExpectation) :
    GeneratedClockEntry where
  clockId := expected.clockId
  domainId := expected.domainId
  masterClockId := expected.masterClockId
  sourceObject := s!"nebula_top/u_{expected.domainId}_dividers/" ++
    s!"gen_div_{padded 2 expected.dividerRatio}/u_divider/generated_clock"
  multiplyBy := 1
  divideBy := expected.dividerRatio
  waveformNs := (0, period * ((expected.dividerRatio + 1) / 2 : ℕ))
  activeConsumerCount := expected.activeConsumers.length

/-! ## Waveforms -/

/-- A clock that rises and falls at these times, and again after each period. -/
@[ext] structure Waveform where
  rise : ℚ
  fall : ℚ
  period : ℚ

def Waveform.High (wave : Waveform) (t : ℚ) : Prop :=
  ∃ n : ℤ, wave.rise + n * wave.period ≤ t ∧ t < wave.fall + n * wave.period

/-- `create_clock` of a master clock. -/
def masterWaveform (period : ℚ) : Waveform := ⟨0, period / 2, period⟩

/-- The time of a clock's edge; the first is a rise, and the edges alternate. -/
def Waveform.edgeTime (wave : Waveform) (edge : ℕ) : ℚ :=
  if edge % 2 = 1 then wave.rise + ((edge - 1) / 2 : ℕ) * wave.period
  else wave.fall + ((edge - 2) / 2 : ℕ) * wave.period

/-- What `create_generated_clock` says: the waveform of the master made longer by the factor, or a
rise, a fall and the next rise at edges of the master. -/
def WaveformOption.waveform (master : Waveform) : WaveformOption → Option Waveform
  | divideBy factor => some ⟨factor * master.rise, factor * master.fall, factor * master.period⟩
  | edges [rise, fall, next] =>
    some ⟨master.edgeTime rise, master.edgeTime fall,
      master.edgeTime next - master.edgeTime rise⟩
  | edges _ => none

def GeneratedClockEntry.waveform (period : ℚ) (entry : GeneratedClockEntry) : Waveform :=
  ⟨entry.waveformNs.1, entry.waveformNs.2, period * entry.divideBy / entry.multiplyBy⟩

/-- The output of the counter, if the reset is released at time zero and the master rises after each
period. -/
def outputAt (ratio : ℕ) (period t : ℚ) : Bool :=
  (stateAt ratio ⌊t / period⌋₊).generatedClock

/-- High for the larger half of the cycles. -/
def dividedWaveform (ratio : ℕ) (period : ℚ) : Waveform :=
  ⟨0, period * ((ratio + 1) / 2 : ℕ), period * ratio⟩

/-! ## One clock -/

section Agreement

variable (domain : BenchmarkMasterDomain) (index : ℕ) {ratio : ℕ} {period : ℚ}

theorem clockConstraint_valid (ratio : ℕ) :
    (clockConstraint domain index ratio).waveformMatchesDivider = .ok () := by
  unfold GeneratedClockConstraint.waveformMatchesDivider clockConstraint
  split_ifs <;> simp_all <;> rfl

theorem clockConstraint_waveform (ratio : ℕ) (period : ℚ) :
    (clockConstraint domain index ratio).waveformOption.waveform (masterWaveform period) =
      some (dividedWaveform ratio period) := by
  unfold GeneratedClockConstraint.waveformOption clockConstraint masterWaveform dividedWaveform
  rcases Nat.even_or_odd' ratio with ⟨half, rfl | rfl⟩
  · have heven : 2 * half % 2 = 0 := by omega
    have hhigh : (2 * half + 1) / 2 = half := by omega
    simp only [heven, if_true, WaveformOption.waveform, hhigh, Option.some.injEq,
      Waveform.mk.injEq]
    push_cast
    exact ⟨by ring, by ring, by ring⟩
  · have hodd : (2 * half + 1) % 2 ≠ 0 := by omega
    have hhigh : (2 * half + 1 + 1) / 2 = half + 1 := by omega
    have hfall : (2 * half + 1 + 2) % 2 = 1 := by omega
    have hfall' : (2 * half + 1 + 2 - 1) / 2 = half + 1 := by omega
    have hnext : (2 * (2 * half + 1) + 1) % 2 = 1 := by omega
    have hnext' : (2 * (2 * half + 1) + 1 - 1) / 2 = 2 * half + 1 := by omega
    simp only [hodd, if_false, WaveformOption.waveform, Waveform.edgeTime, hhigh, hfall, hfall',
      hnext, hnext', if_true, Option.some.injEq, Waveform.mk.injEq]
    push_cast
    exact ⟨by simp, by ring, by simp; ring⟩

theorem inventoryEntry_valid (hratio : 2 ≤ ratio) (hperiod : 0 < period) :
    (inventoryEntry period (expectation domain index ratio)).waveformIncreases = .ok () := by
  have hhigh : 0 < (ratio + 1) / 2 := by omega
  have hpos : 0 < period * (((ratio + 1) / 2 : ℕ) : ℚ) := by positivity
  exact if_neg (not_le.mpr hpos)

theorem inventoryEntry_waveform (ratio : ℕ) (period : ℚ) :
    (inventoryEntry period (expectation domain index ratio)).waveform period =
      dividedWaveform ratio period := by
  simp [GeneratedClockEntry.waveform, inventoryEntry, expectation, dividedWaveform]

/-- The output is the waveform, later by the cycles of the first low span. -/
theorem outputAt_iff (hratio : 2 ≤ ratio) (hperiod : 0 < period) {t : ℚ} (ht : 0 ≤ t) :
    outputAt ratio period t = true ↔
      (dividedWaveform ratio period).High (t - period * lowSpan ratio) := by
  have hhigh : (((ratio + 1) / 2 : ℕ) : ℚ) = ratio - lowSpan ratio := by
    rw [← highSpan_eq, eq_sub_iff_add_eq']
    exact_mod_cast lowSpan_add_highSpan ratio
  have hfloor (z : ℤ) : z ≤ (⌊t / period⌋₊ : ℤ) ↔ z * period ≤ t := by
    rw [Int.natCast_floor_eq_floor (div_nonneg ht hperiod.le), Int.le_floor, le_div_iff₀ hperiod]
  rw [outputAt, generatedClock_iff hratio]
  set m := ⌊t / period⌋₊
  have hcycle (n : ℤ) :
      ((dividedWaveform ratio period).rise + n * (dividedWaveform ratio period).period ≤
          t - period * lowSpan ratio ∧
        t - period * lowSpan ratio < (dividedWaveform ratio period).fall +
          n * (dividedWaveform ratio period).period) ↔
      lowSpan ratio + n * ratio ≤ m ∧ (m : ℤ) < ratio + n * ratio := by
    rw [hfloor, ← not_le, ← not_le, hfloor]
    simp only [dividedWaveform, hhigh]
    push_cast
    constructor
    · rintro ⟨hrise, hfall⟩
      exact ⟨by linarith, fun hle => hfall (by linarith)⟩
    · rintro ⟨hrise, hfall⟩
      exact ⟨by linarith, fun hle => hfall (by linarith)⟩
  simp only [Waveform.High, hcycle]
  constructor
  · intro hlow
    refine ⟨(m / ratio : ℕ), ?_⟩
    have hdiv := Nat.mod_add_div m ratio
    have hlt := Nat.mod_lt m (show 0 < ratio by omega)
    rw [Nat.mul_comm] at hdiv
    constructor <;> norm_cast <;> omega
  · rintro ⟨n, hrise, hfall⟩
    have hmod : (m : ℤ) % ratio = m - n * ratio := by
      rw [← Int.sub_mul_emod_self_right (m : ℤ) n ratio]
      exact Int.emod_eq_of_lt (by omega) (by omega)
    omega

end Agreement

end NovaRtl.Benchmark.ClockDivider
