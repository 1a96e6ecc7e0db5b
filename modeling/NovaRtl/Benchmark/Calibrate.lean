import Mathlib.Data.List.MinMax
import Mathlib.Data.Prod.Lex
import Mathlib.Order.Interval.Finset.Nat

/-!
# Calibration of the benchmark

`calibrate_with_measurement` of `benchmark/calibrate.py`: the search for a workload scale whose
mapped-cell count lies in a target. The hashes and tool records of a sample are left out.

The samples fall into those below the target and those above it. `Bracketing` is what the search
keeps: no sample has passed, and the last one is the largest, the smallest, or inside a bracket.
-/

namespace NovaRtl.Calibrate

/-- `MAX_CALIBRATION_SAMPLES` -/
def maxCalibrationSamples : ℕ := 12

structure MappedCellTarget where
  minimum : ℕ
  maximum : ℕ
  minimum_pos : 1 ≤ minimum
  ordered : minimum ≤ maximum

structure CalibrationSample where
  workloadScale : ℕ
  mappedCellCount : ℕ
  workloadScale_pos : 1 ≤ workloadScale
  mappedCellCount_pos : 1 ≤ mappedCellCount

inductive CalibrationStatus where
  | pass | targetNotReached | budgetExhausted
  deriving DecidableEq

def CalibrationSample.inRange (target : MappedCellTarget) (sample : CalibrationSample) : Bool :=
  target.minimum ≤ sample.mappedCellCount && sample.mappedCellCount ≤ target.maximum

def scales (samples : List CalibrationSample) : List ℕ :=
  samples.map CalibrationSample.workloadScale

/-- `CalibrationReport`, with the checks of `selection_budget_and_hash_are_consistent`. -/
structure CalibrationReport where
  target : MappedCellTarget
  samples : List CalibrationSample
  selectedWorkloadScale : Option ℕ
  status : CalibrationStatus
  samples_ne : samples ≠ []
  length_le : samples.length ≤ 12
  scales_nodup : (scales samples).Nodup
  selected : if status = .pass then
      ∃ scale ∈ selectedWorkloadScale, scale ∈ scales (samples.filter (·.inRange target))
    else selectedWorkloadScale = none

inductive CalibrationError where
  /-- `CalibrationError(message, report=report)` -/
  | message (text : String) (report : Option CalibrationReport)
  /-- A `ValidationError` of `CalibrationReport`. -/
  | validation

open CalibrationError

def CalibrationReport.make (target : MappedCellTarget) (samples : List CalibrationSample)
    (selected : Option ℕ) (status : CalibrationStatus) :
    Except CalibrationError CalibrationReport :=
  if h : samples ≠ [] ∧ samples.length ≤ 12 ∧ (scales samples).Nodup ∧
      (if status = .pass then
        ∃ scale ∈ selected, scale ∈ scales (samples.filter (·.inRange target))
      else selected = none) then
    .ok ⟨target, samples, selected, status, h.1, h.2.1, h.2.2.1, h.2.2.2⟩
  else .error validation

/-- `build_calibration_report` -/
def buildCalibrationReport (target : MappedCellTarget) (samples : List CalibrationSample)
    (budgetExhausted : Bool) : Except CalibrationError CalibrationReport :=
  let selected := (samples.find? (·.inRange target)).map CalibrationSample.workloadScale
  let status : CalibrationStatus :=
    if selected.isSome then .pass
    else if budgetExhausted then .budgetExhausted else .targetNotReached
  CalibrationReport.make target samples selected status

section Search

variable (target : MappedCellTarget)

def below (samples : List CalibrationSample) : List CalibrationSample :=
  samples.filter fun sample => sample.mappedCellCount < target.minimum

def above (samples : List CalibrationSample) : List CalibrationSample :=
  samples.filter fun sample => target.maximum < sample.mappedCellCount

/-- `min(candidates, key=lambda scale: (abs(scale - midpoint), scale))` -/
def nearest (midpoint : ℕ) (candidates : List ℕ) : Option ℕ :=
  candidates.argmin fun scale : ℕ => toLex (((scale : ℤ) - midpoint).natAbs, scale)

/-- `_next_scale` -/
def nextScale (samples : List CalibrationSample) : Except CalibrationError (Option ℕ) :=
  let tried := scales samples
  match (scales (below target samples)).max?, (scales (above target samples)).min?,
    samples.getLast? with
  | some low, some high, _ =>
    if high < low then
      .error (message "mapped cell observations are not monotonic with workload scale" none)
    else
      let candidates := (List.range' (low + 1) (high - (low + 1))).filter (· ∉ tried)
      .ok (nearest ((low + high) / 2) candidates)
  | some _, none, some latest =>
    let candidate := latest.workloadScale * 2
    .ok (if candidate ∉ tried then some candidate else none)
  | none, some _, some latest =>
    let candidate := max 1 (latest.workloadScale / 2)
    .ok (if candidate ∉ tried then some candidate else none)
  | _, _, _ => .ok none

variable (measure : ℕ → CalibrationSample)

def exhausted : String :=
  "calibration exhausted the twelve-sample budget without reaching 45,000-55,000 cells"

/-- The loop, with the samples that it has measured when it ends. `budget` is what is left of
`max_samples`. -/
def search (budget : ℕ) (samples : List CalibrationSample) (next : Option ℕ) :
    List CalibrationSample × Except CalibrationError CalibrationReport :=
  match budget, next with
  | budget + 1, some scale =>
    let sample := measure scale
    if sample.workloadScale ≠ scale then
      (samples,
        .error (message "measurement returned the wrong workload scale identity" none))
    else
      let samples := samples ++ [sample]
      match buildCalibrationReport target samples false with
      | .error error => (samples, .error error)
      | .ok report =>
        if report.status = .pass then (samples, .ok report)
        else
          match nextScale target samples with
          | .error error => (samples, .error error)
          | .ok next => search budget samples next
  | _, _ =>
    match buildCalibrationReport target samples true with
    | .error error => (samples, .error error)
    | .ok report => (samples, .error (message exhausted (some report)))

end Search

/-- The fields of `BenchmarkConfig` that the search reads. -/
structure BenchmarkConfig where
  workloadScale : ℕ
  mappedCellTarget : Option MappedCellTarget
  workloadScale_pos : 1 ≤ workloadScale

/-- `calibrate_with_measurement`, with the samples that are measured. `measure` is the measurement
of the configuration whose scale is replaced. -/
def calibrateWithMeasurement (base : BenchmarkConfig) (measure : ℕ → CalibrationSample)
    (maxSamples : ℕ) : List CalibrationSample × Except CalibrationError CalibrationReport :=
  match base.mappedCellTarget with
  | none => ([], .error (message "calibration requires a mapped-cell target" none))
  | some target =>
    if 1 ≤ maxSamples ∧ maxSamples ≤ maxCalibrationSamples then
      search target measure maxSamples [] (some base.workloadScale)
    else
      ([], .error
        (message "calibration sample budget must be between one and twelve" none))

/-! ## Reports -/

variable {target : MappedCellTarget} {samples : List CalibrationSample}

variable (target) in
/-- A report of different samples, up to twelve, is valid. -/
theorem buildCalibrationReport_ok (stopped : Bool) (hne : samples ≠ []) (hle : samples.length ≤ 12)
    (hnodup : (scales samples).Nodup) :
    ∃ report, buildCalibrationReport target samples stopped = .ok report ∧
      report.samples = samples ∧
      (report.status = .pass ↔ ∃ sample ∈ samples, sample.inRange target) := by
  unfold buildCalibrationReport CalibrationReport.make
  cases hfind : samples.find? (·.inRange target) with
  | none =>
    have hfailed : ¬ ∃ sample ∈ samples, sample.inRange target := by
      simpa using List.find?_eq_none.mp hfind
    have hstatus : (if stopped then CalibrationStatus.budgetExhausted else .targetNotReached) ≠
        .pass := by
      cases stopped <;> decide
    simp only [Option.map_none, Option.isSome_none, Bool.false_eq_true, if_false]
    rw [dif_pos ⟨hne, hle, hnodup, by rw [if_neg hstatus]; trivial⟩]
    exact ⟨_, rfl, rfl, iff_of_false hstatus hfailed⟩
  | some sample =>
    have hmem := List.mem_of_find?_eq_some hfind
    have hrange : sample.inRange target := by
      have hfound := List.find?_some hfind
      exact hfound
    simp only [Option.map_some, Option.isSome_some, if_true]
    rw [dif_pos]
    · exact ⟨_, rfl, rfl, iff_of_true rfl ⟨sample, hmem, hrange⟩⟩
    · exact ⟨hne, hle, hnodup, sample.workloadScale, rfl,
        List.mem_map.mpr ⟨sample, List.mem_filter.mpr ⟨hmem, hrange⟩, rfl⟩⟩

/-! ## Brackets -/

variable {f : ℕ → ℕ} {low high scale : ℕ} {sample last : CalibrationSample}

/-- Counts do not decrease with the scale. -/
def Nondecreasing (f : ℕ → ℕ) : Prop := ∀ a b, 1 ≤ a → a ≤ b → f a ≤ f b

/-- The samples have the counts of a function. -/
def Observes (f : ℕ → ℕ) (samples : List CalibrationSample) : Prop :=
  ∀ sample ∈ samples, f sample.workloadScale = sample.mappedCellCount

/-- No positive scale can have a count in the target. -/
def Hopeless (target : MappedCellTarget) (samples : List CalibrationSample) : Prop :=
  ∀ f, Nondecreasing f → Observes f samples →
    ∀ scale, 1 ≤ scale → ¬ (target.minimum ≤ f scale ∧ f scale ≤ target.maximum)

/-- The largest scale below the target and the smallest one above it. -/
def Bracket (target : MappedCellTarget) (samples : List CalibrationSample) (low high : ℕ) : Prop :=
  (scales (below target samples)).max? = some low ∧
    (scales (above target samples)).min? = some high

theorem mem_below : sample ∈ below target samples ↔
    sample ∈ samples ∧ sample.mappedCellCount < target.minimum := by
  simp [below]

theorem mem_above : sample ∈ above target samples ↔
    sample ∈ samples ∧ target.maximum < sample.mappedCellCount := by
  simp [above]

theorem inRange_eq_false : sample.inRange target = false ↔
    sample.mappedCellCount < target.minimum ∨ target.maximum < sample.mappedCellCount := by
  simp only [CalibrationSample.inRange, Bool.and_eq_false_iff, decide_eq_false_iff_not, not_le]

theorem Bracket.exists_low (h : Bracket target samples low high) :
    ∃ sample ∈ below target samples, sample.workloadScale = low :=
  List.mem_map.mp (List.max?_eq_some_iff.mp h.1).1

theorem Bracket.exists_high (h : Bracket target samples low high) :
    ∃ sample ∈ above target samples, sample.workloadScale = high :=
  List.mem_map.mp (List.min?_eq_some_iff.mp h.2).1

theorem Bracket.le_low (h : Bracket target samples low high)
    (hsample : sample ∈ below target samples) : sample.workloadScale ≤ low :=
  (List.max?_eq_some_iff.mp h.1).2 _ (List.mem_map_of_mem hsample)

theorem Bracket.high_le (h : Bracket target samples low high)
    (hsample : sample ∈ above target samples) : high ≤ sample.workloadScale :=
  (List.min?_eq_some_iff.mp h.2).2 _ (List.mem_map_of_mem hsample)

/-- A scale below the target is smaller than one above it. -/
theorem lt_of_counts (hf : Nondecreasing f) (hobserves : Observes f samples)
    (hlow : sample ∈ below target samples) (hhigh : last ∈ above target samples) :
    sample.workloadScale < last.workloadScale := by
  obtain ⟨hlowMem, hlowCount⟩ := mem_below.mp hlow
  obtain ⟨hhighMem, hhighCount⟩ := mem_above.mp hhigh
  have hordered := target.ordered
  by_contra hle
  have hcounts := hf _ _ last.workloadScale_pos (Nat.le_of_not_lt hle)
  rw [hobserves _ hlowMem, hobserves _ hhighMem] at hcounts
  omega

theorem Bracket.lt (hf : Nondecreasing f) (hobserves : Observes f samples)
    (h : Bracket target samples low high) : low < high := by
  obtain ⟨first, hfirst, rfl⟩ := h.exists_low
  obtain ⟨second, hsecond, rfl⟩ := h.exists_high
  exact lt_of_counts hf hobserves hfirst hsecond

/-- Without scales between the two sides no scale is left. -/
theorem Bracket.hopeless (h : Bracket target samples low high) (hempty : high ≤ low + 1) :
    Hopeless target samples := by
  intro f hf hobserves scale hscale hrange
  obtain ⟨first, hfirst, rfl⟩ := h.exists_low
  obtain ⟨second, hsecond, rfl⟩ := h.exists_high
  obtain ⟨hfirstMem, hfirstCount⟩ := mem_below.mp hfirst
  obtain ⟨hsecondMem, hsecondCount⟩ := mem_above.mp hsecond
  rcases le_or_gt scale first.workloadScale with hle | hlt
  · have hcounts := hf _ _ hscale hle
    rw [hobserves _ hfirstMem] at hcounts
    omega
  · have hcounts := hf _ _ second.workloadScale_pos (show second.workloadScale ≤ scale by omega)
    rw [hobserves _ hsecondMem] at hcounts
    omega

/-- If the smallest scale is above the target, no scale is left. -/
theorem hopeless_of_one (hsample : sample ∈ above target samples)
    (hone : sample.workloadScale = 1) : Hopeless target samples := by
  intro f hf hobserves scale hscale hrange
  obtain ⟨hmem, hcount⟩ := mem_above.mp hsample
  have hcounts := hf _ _ le_rfl hscale
  rw [← hone, hobserves _ hmem] at hcounts
  omega

/-! ## The next scale -/

/-- What the search keeps while no sample has passed. -/
structure Bracketing (target : MappedCellTarget) (samples : List CalibrationSample) : Prop where
  nodup : (scales samples).Nodup
  failed : ∀ sample ∈ samples, sample.inRange target = false
  last_max : above target samples = [] → ∀ last ∈ samples.getLast?, ∀ sample ∈ samples,
    sample.workloadScale ≤ last.workloadScale
  last_min : below target samples = [] → ∀ last ∈ samples.getLast?, ∀ sample ∈ samples,
    last.workloadScale ≤ sample.workloadScale

/-- A scale that continues the search. -/
structure Continues (target : MappedCellTarget) (samples : List CalibrationSample) (scale : ℕ) :
    Prop where
  pos : 1 ≤ scale
  new : scale ∉ scales samples
  max : above target samples = [] → ∀ sample ∈ samples, sample.workloadScale ≤ scale
  min : below target samples = [] → ∀ sample ∈ samples, scale ≤ sample.workloadScale
  halves : ∀ low high, Bracket target samples low high → scale = (low + high) / 2 ∧
    low < scale ∧ scale < high

theorem nearest_midpoint {candidates : List ℕ} (hmem : scale ∈ candidates) :
    nearest scale candidates = some scale := by
  unfold nearest
  cases hmin : candidates.argmin fun other : ℕ => toLex (((other : ℤ) - scale).natAbs, other) with
  | none => simp [List.argmin_eq_none.mp hmin] at hmem
  | some least =>
    have hle := List.le_of_mem_argmin hmem hmin
    rw [Prod.Lex.toLex_le_toLex] at hle
    simp only [sub_self, Int.natAbs_zero] at hle
    have heq : least = scale := by omega
    rw [heq]

theorem scales_append (more : List CalibrationSample) :
    scales (samples ++ more) = scales samples ++ scales more := List.map_append

/-- No sample passed, so a scale that was tried is on one side. -/
theorem Bracketing.below_or_above (h : Bracketing target samples) (hsample : sample ∈ samples) :
    sample ∈ below target samples ∨ sample ∈ above target samples := by
  rw [mem_below, mem_above]
  exact (inRange_eq_false.mp (h.failed sample hsample)).imp (⟨hsample, ·⟩) (⟨hsample, ·⟩)

/-- No scale in the bracket was tried. -/
theorem Bracket.not_mem_scales (hbracketing : Bracketing target samples)
    (h : Bracket target samples low high) (hlow : low < scale) (hhigh : scale < high) :
    scale ∉ scales samples := by
  intro hmem
  obtain ⟨sample, hsample, rfl⟩ := List.mem_map.mp hmem
  rcases hbracketing.below_or_above hsample with hside | hside
  · exact absurd (h.le_low hside) (Nat.not_le_of_lt hlow)
  · exact absurd (h.high_le hside) (Nat.not_le_of_lt hhigh)

theorem scales_eq_nil : scales samples = [] ↔ samples = [] := List.map_eq_nil_iff

/-- Between the two sides the search goes on at the midpoint. -/
theorem Bracket.continues (h : Bracketing target samples)
    (hbracket : Bracket target samples low high)
    (hlow : low < (low + high) / 2) (hhigh : (low + high) / 2 < high) :
    Continues target samples ((low + high) / 2) where
  pos := by omega
  new := hbracket.not_mem_scales h hlow hhigh
  max habove := by
    obtain ⟨sample, hsample, -⟩ := hbracket.exists_high
    simp [habove] at hsample
  min hbelow := by
    obtain ⟨sample, hsample, -⟩ := hbracket.exists_low
    simp [hbelow] at hsample
  halves low' high' hbracket' := by
    obtain rfl := Option.some.inj (hbracket.1.symm.trans hbracket'.1)
    obtain rfl := Option.some.inj (hbracket.2.symm.trans hbracket'.2)
    exact ⟨rfl, hlow, hhigh⟩

/-- Below the target the search doubles the last scale. -/
theorem Bracketing.doubles (h : Bracketing target samples) (habove : above target samples = [])
    (hbelow : below target samples ≠ []) (hlast : last ∈ samples.getLast?) :
    Continues target samples (last.workloadScale * 2) where
  pos := by
    have hpos := last.workloadScale_pos
    omega
  new hmem := by
    obtain ⟨sample, hsample, heq⟩ := List.mem_map.mp hmem
    have hle := h.last_max habove last hlast sample hsample
    have hpos := last.workloadScale_pos
    omega
  max _ sample hsample := by
    have hle := h.last_max habove last hlast sample hsample
    omega
  min hnone := absurd hnone hbelow
  halves low high hbracket := by
    obtain ⟨sample, hsample, -⟩ := hbracket.exists_high
    simp [habove] at hsample

/-- Above the target the search halves the last scale, down to one. -/
theorem Bracketing.shrinks (h : Bracketing target samples) (hbelow : below target samples = [])
    (habove : above target samples ≠ []) (hlast : last ∈ samples.getLast?)
    (hnew : max 1 (last.workloadScale / 2) ∉ scales samples) :
    Continues target samples (max 1 (last.workloadScale / 2)) where
  pos := Nat.le_max_left _ _
  new := hnew
  max hnone := absurd hnone habove
  min _ sample hsample := by
    have hle := h.last_min hbelow last hlast sample hsample
    have hpos := last.workloadScale_pos
    omega
  halves low high hbracket := by
    obtain ⟨sample, hsample, -⟩ := hbracket.exists_low
    simp [hbelow] at hsample

/-- The search goes on with a new scale or no scale is left. -/
theorem nextScale_spec (hf : Nondecreasing f) (hobserves : Observes f samples)
    (h : Bracketing target samples) (hlast : last ∈ samples.getLast?) :
    ∃ next, nextScale target samples = .ok next ∧
      (∀ scale ∈ next, Continues target samples scale) ∧
      (next = none → Hopeless target samples) := by
  have hmem : last ∈ samples := List.mem_of_getLast? hlast
  unfold nextScale
  cases hlow : (scales (below target samples)).max? with
  | some low =>
    have hbelow : below target samples ≠ [] := fun hnone => by simp [hnone, scales] at hlow
    cases hhigh : (scales (above target samples)).min? with
    | some high =>
      have hbracket : Bracket target samples low high := ⟨hlow, hhigh⟩
      have hlt := hbracket.lt hf hobserves
      simp only [if_neg (Nat.not_lt_of_lt hlt)]
      by_cases hempty : high ≤ low + 1
      · have hcandidates : high - (low + 1) = 0 := by omega
        rw [hcandidates, List.range'_zero, List.filter_nil]
        exact ⟨none, rfl, by simp, fun _ => hbracket.hopeless hempty⟩
      · have hcontinues := Bracket.continues h hbracket (by omega) (by omega)
        refine ⟨some ((low + high) / 2), ?_, ?_, by simp⟩
        · rw [nearest_midpoint]
          refine List.mem_filter.mpr ⟨List.mem_range'_1.mpr ⟨by omega, by omega⟩, ?_⟩
          exact decide_eq_true hcontinues.new
        · rintro scale ⟨⟩
          exact hcontinues
    | none =>
      have habove : above target samples = [] := by
        rwa [List.min?_eq_none_iff, scales_eq_nil] at hhigh
      have hcontinues := h.doubles habove hbelow hlast
      rw [Option.mem_def.mp hlast]
      refine ⟨some (last.workloadScale * 2), ?_, ?_, by simp⟩
      · simp only [if_pos hcontinues.new]
      · rintro scale ⟨⟩
        exact hcontinues
  | none =>
    have hbelow : below target samples = [] := by
      rwa [List.max?_eq_none_iff, scales_eq_nil] at hlow
    have hside : last ∈ above target samples := by
      have hcases := h.below_or_above hmem
      rw [hbelow] at hcases
      exact hcases.resolve_left (List.not_mem_nil)
    cases hhigh : (scales (above target samples)).min? with
    | none =>
      rw [List.min?_eq_none_iff, scales_eq_nil] at hhigh
      simp [hhigh] at hside
    | some high =>
      rw [Option.mem_def.mp hlast]
      by_cases hnew : max 1 (last.workloadScale / 2) ∉ scales samples
      · refine ⟨some (max 1 (last.workloadScale / 2)), ?_, ?_, by simp⟩
        · simp only [if_pos hnew]
        · rintro scale ⟨⟩
          exact h.shrinks hbelow (List.ne_nil_of_mem hside) hlast hnew
      · refine ⟨none, by simp only [if_neg hnew], by simp, fun _ => hopeless_of_one hside ?_⟩
        -- A scale that was tried is not smaller than the last one, so the last one is 1.
        obtain ⟨sample, hsample, heq⟩ := List.mem_map.mp (not_not.mp hnew)
        have hle := h.last_min hbelow last hlast sample hsample
        have hpos := last.workloadScale_pos
        omega

/-! ## Runs -/

theorem below_append (more : List CalibrationSample) :
    below target (samples ++ more) = below target samples ++ below target more :=
  List.filter_append _ _

theorem above_append (more : List CalibrationSample) :
    above target (samples ++ more) = above target samples ++ above target more :=
  List.filter_append _ _

theorem Bracketing.nil : Bracketing target [] where
  nodup := List.nodup_nil
  failed := by simp
  last_max := by simp
  last_min := by simp

/-- Every positive scale can start the search. -/
theorem Continues.nil (hscale : 1 ≤ scale) : Continues target [] scale where
  pos := hscale
  new := List.not_mem_nil
  max := by simp
  min := by simp
  halves low high hbracket := by
    obtain ⟨sample, hsample, -⟩ := hbracket.exists_low
    simp [below] at hsample

theorem Continues.nodup (h : Bracketing target samples)
    (hcontinues : Continues target samples sample.workloadScale) :
    (scales (samples ++ [sample])).Nodup := by
  rw [scales_append, List.nodup_append]
  refine ⟨h.nodup, List.nodup_singleton _, ?_⟩
  rintro a ha b hb rfl
  obtain rfl := List.mem_singleton.mp hb
  exact hcontinues.new ha

/-- A failed sample keeps the invariant. -/
theorem Bracketing.append (h : Bracketing target samples)
    (hcontinues : Continues target samples sample.workloadScale)
    (hfailed : sample.inRange target = false) : Bracketing target (samples ++ [sample]) where
  nodup := hcontinues.nodup h
  failed other hother := by
    rcases List.mem_append.mp hother with hold | hnew
    · exact h.failed other hold
    · rwa [List.mem_singleton.mp hnew]
  last_max habove last hlast other hother := by
    rw [above_append, List.append_eq_nil_iff] at habove
    rw [List.getLast?_concat] at hlast
    obtain rfl := Option.some.inj hlast
    rcases List.mem_append.mp hother with hold | hnew
    · exact hcontinues.max habove.1 other hold
    · rw [List.mem_singleton.mp hnew]
  last_min hbelow last hlast other hother := by
    rw [below_append, List.append_eq_nil_iff] at hbelow
    rw [List.getLast?_concat] at hlast
    obtain rfl := Option.some.inj hlast
    rcases List.mem_append.mp hother with hold | hnew
    · exact hcontinues.min hbelow.1 other hold
    · rw [List.mem_singleton.mp hnew]

/-- At most half of the scales between the two sides are left. -/
def Halves (target : MappedCellTarget) (samples : List CalibrationSample)
    (sample : CalibrationSample) : Prop :=
  ∀ low high, Bracket target samples low high → sample.inRange target ∨
    ∃ low' high', Bracket target (samples ++ [sample]) low' high' ∧
      Finset.Ioo low' high' ⊆ Finset.Ioo low high ∧
      2 * (Finset.Ioo low' high').card ≤ (Finset.Ioo low high).card

/-- A sample below the target is the new lower side. -/
theorem Bracket.raise (h : Bracket target samples low high) (hle : low ≤ sample.workloadScale)
    (hside : sample.mappedCellCount < target.minimum) :
    Bracket target (samples ++ [sample]) sample.workloadScale high := by
  have hordered := target.ordered
  constructor
  · have hnew : below target [sample] = [sample] := by simp [below, hside]
    rw [below_append, hnew, scales_append, List.max?_eq_some_iff]
    refine ⟨List.mem_append_right _ (List.mem_singleton_self _), fun scale hscale => ?_⟩
    rcases List.mem_append.mp hscale with hold | hlast
    · exact ((List.max?_eq_some_iff.mp h.1).2 scale hold).trans hle
    · rw [List.mem_singleton.mp hlast]
  · have hnew : above target [sample] = [] := by simp [above]; omega
    rw [above_append, hnew, List.append_nil]
    exact h.2

/-- A sample above the target is the new upper side. -/
theorem Bracket.lower (h : Bracket target samples low high) (hle : sample.workloadScale ≤ high)
    (hside : target.maximum < sample.mappedCellCount) :
    Bracket target (samples ++ [sample]) low sample.workloadScale := by
  have hordered := target.ordered
  constructor
  · have hnew : below target [sample] = [] := by simp [below]; omega
    rw [below_append, hnew, List.append_nil]
    exact h.1
  · have hnew : above target [sample] = [sample] := by simp [above, hside]
    rw [above_append, hnew, scales_append, List.min?_eq_some_iff]
    refine ⟨List.mem_append_right _ (List.mem_singleton_self _), fun scale hscale => ?_⟩
    rcases List.mem_append.mp hscale with hold | hlast
    · exact hle.trans ((List.min?_eq_some_iff.mp h.2).2 scale hold)
    · rw [List.mem_singleton.mp hlast]

theorem Continues.halve (hcontinues : Continues target samples sample.workloadScale) :
    Halves target samples sample := by
  intro low high hbracket
  obtain ⟨hmiddle, hlow, hhigh⟩ := hcontinues.halves low high hbracket
  cases hrange : sample.inRange target with
  | true => exact .inl rfl
  | false =>
    right
    rcases inRange_eq_false.mp hrange with hside | hside
    · refine ⟨_, _, hbracket.raise hlow.le hside, Finset.Ioo_subset_Ioo_left hlow.le, ?_⟩
      rw [Nat.card_Ioo, Nat.card_Ioo]
      omega
    · refine ⟨_, _, hbracket.lower hhigh.le hside, Finset.Ioo_subset_Ioo_right hhigh.le, ?_⟩
      rw [Nat.card_Ioo, Nat.card_Ioo]
      omega

variable {measure : ℕ → CalibrationSample} {budget : ℕ} {next : Option ℕ}
  {all : List CalibrationSample} {result : Except CalibrationError CalibrationReport}

/-- A search ends with a sample that passes, or without a scale or a budget. -/
inductive Ends (target : MappedCellTarget) (limit : ℕ) (all : List CalibrationSample) :
    Except CalibrationError CalibrationReport → Prop
  | passes {report : CalibrationReport} (hsamples : report.samples = all)
      (hstatus : report.status = .pass) (hpass : ∃ sample ∈ all, sample.inRange target) :
    Ends target limit all (.ok report)
  | fails {report : CalibrationReport} (hsamples : report.samples = all)
      (hstatus : report.status ≠ .pass) (hstop : all.length = limit ∨ Hopeless target all) :
    Ends target limit all (.error (message exhausted (some report)))

/-- The samples are measurements of their own scales. -/
def Measured (measure : ℕ → CalibrationSample) (samples : List CalibrationSample) : Prop :=
  ∀ sample ∈ samples, measure sample.workloadScale = sample

theorem Measured.append (h : Measured measure samples) (hidentity :
    (measure scale).workloadScale = scale) : Measured measure (samples ++ [measure scale]) := by
  intro sample hsample
  rcases List.mem_append.mp hsample with hold | hnew
  · exact h sample hold
  · rw [List.mem_singleton.mp hnew, hidentity]

theorem Measured.observes (h : Measured measure samples) :
    Observes (fun scale => (measure scale).mappedCellCount) samples := by
  intro sample hsample
  simp only [h sample hsample]

structure Searched (target : MappedCellTarget) (measure : ℕ → CalibrationSample) (limit : ℕ)
    (samples all : List CalibrationSample) (result : Except CalibrationError CalibrationReport) :
    Prop where
  measured : Measured measure all
  extends_samples : samples <+: all
  nodup : (scales all).Nodup
  length_le : all.length ≤ limit
  ends : Ends target limit all result
  halves : ∀ before sample after, all = before ++ sample :: after →
    samples.length ≤ before.length → Halves target before sample

theorem searched_self {limit : ℕ} (hmeasured : Measured measure samples)
    (hnodup : (scales samples).Nodup) (hle : samples.length ≤ limit)
    (hends : Ends target limit samples result) :
    Searched target measure limit samples samples result where
  measured := hmeasured
  extends_samples := List.prefix_rfl
  nodup := hnodup
  length_le := hle
  ends := hends
  halves before sample after hsplit hlength := by
    have hlengths := congrArg List.length hsplit
    simp only [List.length_append, List.length_cons] at hlengths
    omega

/-- The last report has the samples and no selected scale. -/
theorem search_of_stop (hmeasured : Measured measure samples)
    (hstop : budget = 0 ∨ next = none) (hne : samples ≠ [])
    (hle : samples.length ≤ 12) (hbracketing : Bracketing target samples)
    (hopeless : next = none → Hopeless target samples) :
    ∃ result, search target measure budget samples next = (samples, result) ∧
      Searched target measure (samples.length + budget) samples samples result := by
  obtain ⟨report, hreport, hsamples, hpass⟩ :=
    buildCalibrationReport_ok target true hne hle hbracketing.nodup
  have hstatus : report.status ≠ .pass := by
    rw [ne_eq, hpass]
    rintro ⟨sample, hsample, hrange⟩
    rw [hbracketing.failed sample hsample] at hrange
    cases hrange
  refine ⟨_, ?_, searched_self hmeasured hbracketing.nodup (Nat.le_add_right _ _)
    (.fails hsamples hstatus (hstop.imp ?_ hopeless))⟩
  · unfold search
    rcases hstop with rfl | rfl
    · simp only [hreport]
    · simp only [hreport]
  · rintro rfl
    rfl

theorem Searched.of_append {limit : ℕ}
    (h : Searched target measure limit (samples ++ [sample]) all result)
    (hhalves : Halves target samples sample) :
    Searched target measure limit samples all result where
  measured := h.measured
  extends_samples := (List.prefix_append _ _).trans h.extends_samples
  nodup := h.nodup
  length_le := h.length_le
  ends := h.ends
  halves before other after hsplit hlength := by
    rcases Nat.eq_or_lt_of_le hlength with heq | hlt
    · obtain ⟨more, hmore⟩ := h.extends_samples
      rw [List.append_assoc, hsplit, List.singleton_append] at hmore
      obtain ⟨rfl, htail⟩ := List.append_inj hmore heq
      obtain ⟨rfl, -⟩ := List.cons.inj htail
      exact hhalves
    · refine h.halves before other after hsplit ?_
      rw [List.length_append, List.length_singleton]
      exact hlt

/-- The induction is on the budget: a failed sample keeps the invariant. -/
theorem search_spec (hmeasure : ∀ scale, 1 ≤ scale → (measure scale).workloadScale = scale)
    (hf : Nondecreasing fun scale => (measure scale).mappedCellCount)
    (hmeasured : Measured measure samples) (hbracketing : Bracketing target samples)
    (hnext : ∀ scale ∈ next, Continues target samples scale)
    (hopeless : next = none → Hopeless target samples)
    (hstart : samples ≠ [] ∨ 0 < budget ∧ next ≠ none) (hle : samples.length + budget ≤ 12) :
    ∃ all result, search target measure budget samples next = (all, result) ∧
      Searched target measure (samples.length + budget) samples all result := by
  induction budget generalizing samples next with
  | zero =>
    have hne := hstart.resolve_right fun h => absurd h.1 (Nat.lt_irrefl 0)
    obtain ⟨result, hsearch, hsearched⟩ :=
      search_of_stop hmeasured (.inl rfl) hne hle hbracketing hopeless
    exact ⟨_, _, hsearch, hsearched⟩
  | succ budget ih =>
    cases next with
    | none =>
      have hne := hstart.resolve_right fun h => absurd rfl h.2
      obtain ⟨result, hsearch, hsearched⟩ := search_of_stop hmeasured
        (Or.inr rfl : budget + 1 = 0 ∨ none = none) hne (by omega) hbracketing hopeless
      exact ⟨_, _, hsearch, hsearched⟩
    | some scale =>
      have hcontinues := hnext scale rfl
      have hidentity := hmeasure scale hcontinues.pos
      have hcontinues' : Continues target samples (measure scale).workloadScale := by
        rwa [hidentity]
      have hmeasured' := hmeasured.append hidentity
      have hlength : (samples ++ [measure scale]).length = samples.length + 1 :=
        List.length_append
      have hne : samples ++ [measure scale] ≠ [] := List.append_ne_nil_of_right_ne_nil _ (by simp)
      have hnodup := hcontinues'.nodup hbracketing
      have hlimit : (samples ++ [measure scale]).length + budget =
          samples.length + (budget + 1) := by omega
      obtain ⟨report, hreport, hsamples, hpass⟩ := buildCalibrationReport_ok target false hne
        (by omega) hnodup
      unfold search
      simp only [ne_eq, hidentity, not_true_eq_false, if_false, hreport]
      by_cases hstatus : report.status = .pass
      · rw [if_pos hstatus]
        have hends : Ends target (samples.length + (budget + 1)) (samples ++ [measure scale])
            (.ok report) := .passes hsamples hstatus (hpass.mp hstatus)
        have hsearched := searched_self hmeasured' hnodup (by omega) hends
        exact ⟨_, _, rfl, hsearched.of_append hcontinues'.halve⟩
      · rw [if_neg hstatus]
        have hfailed : (measure scale).inRange target = false := by
          rw [hpass, not_exists] at hstatus
          have hlast := hstatus (measure scale)
          simpa using hlast
        have hbracketing' := hbracketing.append hcontinues' hfailed
        obtain ⟨next, hnextScale, hnext', hopeless'⟩ :=
          nextScale_spec hf hmeasured'.observes hbracketing' (List.getLast?_concat)
        obtain ⟨all, result, hsearch, hsearched⟩ := ih hmeasured' hbracketing' hnext' hopeless'
          (.inl hne) (by omega)
        rw [hlimit] at hsearched
        exact ⟨all, result, by simp only [hnextScale, hsearch],
          hsearched.of_append hcontinues'.halve⟩

theorem Ends.stops {limit : ℕ} (hf : Nondecreasing f) (hobserves : Observes f all)
    (h : Ends target limit all result) (hlt : all.length < limit) :
    (∃ sample ∈ all, sample.inRange target) ∨
      ∀ scale, 1 ≤ scale → ¬ (target.minimum ≤ f scale ∧ f scale ≤ target.maximum) := by
  cases h with
  | passes _ _ hpass => exact .inl hpass
  | fails _ _ hstop => exact .inr (hstop.resolve_left (by omega) f hf hobserves)

/-- For counts that do not decrease, every scale is measured at most once, the search stops early
only with a sample that passes or without a scale that could, and once the target is bracketed each
sample leaves at most half of the scales. -/
theorem calibrateWithMeasurement_search (base : BenchmarkConfig) (target : MappedCellTarget)
    (measure : ℕ → CalibrationSample) (maxSamples : ℕ)
    (htarget : base.mappedCellTarget = some target)
    (hbudget : 1 ≤ maxSamples ∧ maxSamples ≤ maxCalibrationSamples)
    (hmeasure : ∀ scale, 1 ≤ scale → (measure scale).workloadScale = scale)
    (hmonotone : ∀ a b, 1 ≤ a → a ≤ b →
      (measure a).mappedCellCount ≤ (measure b).mappedCellCount) :
    ∃ samples result, calibrateWithMeasurement base measure maxSamples = (samples, result) ∧
      Measured measure samples ∧ (scales samples).Nodup ∧ samples.length ≤ maxSamples ∧
      Ends target maxSamples samples result ∧
      (samples.length < maxSamples → (∃ sample ∈ samples, sample.inRange target) ∨
        ∀ scale, 1 ≤ scale → (measure scale).inRange target = false) ∧
      ∀ before sample after, samples = before ++ sample :: after →
        Halves target before sample := by
  have hstart : ∀ scale ∈ some base.workloadScale, Continues target [] scale := by
    rintro scale ⟨⟩
    exact .nil base.workloadScale_pos
  have hnone : Measured measure [] := by simp [Measured]
  obtain ⟨samples, result, hsearch, hsearched⟩ := search_spec hmeasure hmonotone hnone .nil hstart
    (by simp) (.inr ⟨hbudget.1, by simp⟩) ((Nat.zero_add _).le.trans hbudget.2)
  rw [List.length_nil, Nat.zero_add] at hsearched
  refine ⟨samples, result, ?_, hsearched.measured, hsearched.nodup, hsearched.length_le,
    hsearched.ends, fun hlt => ?_, fun before sample after hsplit =>
      hsearched.halves before sample after hsplit (Nat.zero_le _)⟩
  · simp only [calibrateWithMeasurement, htarget, if_pos hbudget, hsearch]
  · refine (hsearched.ends.stops hmonotone hsearched.measured.observes hlt).imp id ?_
    intro hnone scale hscale
    rw [inRange_eq_false]
    have hside := hnone scale hscale
    omega

/-- Each unit of scale maps to 4,000 cells. -/
def sampleMeasurement (scale : ℕ) : CalibrationSample where
  workloadScale := max 1 scale
  mappedCellCount := 4000 * max 1 scale
  workloadScale_pos := Nat.le_max_left _ _
  mappedCellCount_pos := by omega

def sampleConfig : BenchmarkConfig where
  workloadScale := 1
  mappedCellTarget := some ⟨45000, 55000, by decide, by decide⟩
  workloadScale_pos := le_rfl

example : scales (calibrateWithMeasurement sampleConfig sampleMeasurement 12).1 =
    [1, 2, 4, 8, 16, 12] := by decide

theorem calibrateWithMeasurement_search_sample : ∃ samples result,
    calibrateWithMeasurement sampleConfig sampleMeasurement 12 = (samples, result) ∧
      (scales samples).Nodup := by
  obtain ⟨samples, result, hsearch, -, hnodup, -⟩ := calibrateWithMeasurement_search sampleConfig
    ⟨45000, 55000, by decide, by decide⟩ sampleMeasurement 12 rfl (by decide)
    (fun scale hscale => Nat.max_eq_right hscale)
    (fun a b _ hle => Nat.mul_le_mul_left 4000 (max_le_max_left 1 hle))
  exact ⟨samples, result, hsearch, hnodup⟩

end NovaRtl.Calibrate
