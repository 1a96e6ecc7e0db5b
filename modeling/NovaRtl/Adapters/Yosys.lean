import NovaRtl.Adapters.OpenSta
import NovaRtl.Text.Markers

/-!
# The Yosys adapter

`parse_report` of `adapters/yosys.py`, for the summary of the flow and for the native output of
Yosys.
-/

namespace NovaRtl.Reports.Yosys

open Text
open Migrations (MetricField)

/-! ## Rows -/

/-- The first way in which a row of the text matches `^…$`. -/
def rowHit? (body : Pattern) (text : List Char) : Option Hit :=
  (body.hits text).find? fun hit => hit.rest = [] || hit.rest.head? = some '\n'

/-- `re.finditer` with `re.MULTILINE`, for a pattern `^…$` that takes some character: the matches
after a character, the next of whose successors may have been taken already. -/
def rowsFrom (body : Pattern) : Char → ℕ → List Char → List Hit
  | _, _, [] => []
  | _, taken + 1, c :: rest => rowsFrom body c taken rest
  | previous, 0, c :: rest =>
    match if previous = '\n' then rowHit? body (c :: rest) else none with
    | some hit => hit :: rowsFrom body c (hit.taken.length - 1) rest
    | none => rowsFrom body c 0 rest

def finditer (body : Pattern) (text : List Char) : List Hit := rowsFrom body '\n' 0 text

/-- `match.start()` -/
def start (text : List Char) (hit : Hit) : ℕ :=
  text.length - hit.rest.length - hit.taken.length

/-- `match.end()` -/
def stop (text : List Char) (hit : Hit) : ℕ := text.length - hit.rest.length

section Patterns

variable (rules : ReportRules)

def spaces : Pattern := .many rules.classes.isSpace

def spaces1 : Pattern := .many1 rules.classes.isSpace

def count : Pattern := .group "count" (.many1 rules.classes.isDecimal)

/-- `[0-9]+(?:\.[0-9]+)?` -/
def numeral : Pattern :=
  .seq (.group "whole" (.many1 Char.isDigit))
    (.optional (.seq (.char (· = '.')) (.group "fraction" (.many1 Char.isDigit))))

def cellsPattern : Pattern :=
  .inOrder [spaces rules, count rules, .optional (.seq (spaces1 rules) numeral), spaces1 rules,
    .literal "cells", spaces rules]

def areaPattern : Pattern :=
  .inOrder [spaces rules, .literal "Chip area for top module ", .many1 (· ≠ '\n'), .literal ":",
    spaces rules, numeral, spaces rules]

def registerPattern : Pattern :=
  .inOrder [spaces rules, count rules, .optional (.seq (spaces1 rules) numeral), spaces1 rules,
    .literal "DFF", .many (!rules.classes.isSpace ·), spaces rules]

/-- The areas of the locked cells. -/
def cellAreas : List (String × Binary64) :=
  [("DFFASRHQNx1_ASAP7_75t_R", .round false 0.37908),
    ("DFFHQNx1_ASAP7_75t_R", .round false 0.2916),
    ("INVx1_ASAP7_75t_R", .round false 0.04374),
    ("NAND2x1_ASAP7_75t_R", .round false 0.08748)]

def inventoryPattern : Pattern :=
  .inOrder [spaces rules, count rules, spaces1 rules,
    .group "cell" (.alt (.literal "DFFASRHQNx1_ASAP7_75t_R") (.alt (.literal "DFFHQNx1_ASAP7_75t_R")
      (.alt (.literal "INVx1_ASAP7_75t_R") (.literal "NAND2x1_ASAP7_75t_R")))), spaces rules]

end Patterns

/-! ## The native output -/

/-- The row of the cell count, the row of the area if there is one, and the text between them. -/
structure Statistics where
  cells : Hit
  area : Option Hit
  summary : List Char

structure Synthesis where
  cellCount : ℤ
  area : Binary64
  registerCount : ℤ
  deriving DecidableEq

section Read

variable (rules : ReportRules) (text : String)

def readStatistics : Except Raised Statistics :=
  let chars := text.toList
  let area := (finditer (areaPattern rules) chars).getLast?
  match (finditer (cellsPattern rules) chars).getLast? with
  | none => throw (missingSection
      "native Yosys output lacks final hierarchical cell count or chip area")
  | some cells => do
    require (area.isSome ∨ occurs "NOVA_YOSYS_AREA_FROM_LOCKED_CELL_COUNTS" text) (missingSection
      "native Yosys output lacks final hierarchical cell count or chip area")
    let before := (area.map (start chars)).getD chars.length
    require (start chars cells ≤ before)
      (malformed "native Yosys hierarchy summary follows its chip-area marker")
    return ⟨cells, area, (chars.take before).drop (stop chars cells)⟩

/-- The counts of rows. -/
def intRows (rows : List Hit) : Except Raised (List ℕ) :=
  rows.mapM fun row => int rules (row.group "count")

def registerRows (summary : List Char) : List Hit := finditer (registerPattern rules) summary

def readRegisters (summary : List Char) : Except Raised ℕ := do
  let counts ← intRows rules (registerRows rules summary)
  require (0 < counts.sum)
    (missingSection "native Yosys mapping summary contains no sequential cells")
  return counts.sum

/-- The last count for a cell. -/
def lastCount (counts : List (List Char × ℕ)) (name : String) : Option ℕ :=
  counts.reverse.lookup name.toList

def totalCount (counts : List (List Char × ℕ)) : ℕ :=
  (cellAreas.filterMap fun entry => lastCount counts entry.1).sum

/-- `counts[name] * area` -/
def product (counts : List (List Char × ℕ)) (entry : String × Binary64) :
    Except Raised Binary64 :=
  match lastCount counts entry.1 with
  | none => .error (.key entry.1)
  | some count =>
    match Binary64.ofNat? count with
    | none => .error .floatOverflow
    | some x => .ok (x.mul entry.2)

def inventoryRows (summary : List Char) : List Hit := finditer (inventoryPattern rules) summary

/-- The area of the cells, by their counts. -/
def countedArea (cells : Hit) (summary : List Char) : Except Raised Binary64 := do
  let counts ← intRows rules (inventoryRows rules summary)
  let inventory := ((inventoryRows rules summary).map (Hit.group · "cell")).zip counts
  let total ← int rules (cells.group "count")
  require (totalCount inventory = total)
    (missingSection "native Yosys cell-area inventory does not cover all mapped cells")
  let areas ← cellAreas.mapM (product inventory)
  return rules.sum areas

/-- The number in a row of the area. -/
def rowArea (row : Hit) : Binary64 :=
  .round false (decimal rules (row.group "whole") (row.group "fraction") 0)

def mappedArea (statistics : Statistics) : Except Raised Binary64 :=
  match statistics.area with
  | some row => .ok (rowArea rules row)
  | none => countedArea rules statistics.cells statistics.summary

/-- `_native_mapped_statistics` -/
def nativeMappedStatistics : Except Raised Synthesis := do
  let statistics ← readStatistics rules text
  let registers ← readRegisters rules statistics.summary
  let area ← mappedArea rules statistics
  let cells ← int rules (statistics.cells.group "count")
  return ⟨cells, area, registers⟩

def readSummary : Except Raised Synthesis := do
  let fields ← summaryFields rules text "NOVA_YOSYS_SUMMARY" "NOVA_YOSYS_END"
  let cellCount ← strictInt rules fields "cell_count"
  let area ← finiteFloat rules fields "mapped_area_um2"
  let registerCount ← strictInt rules fields "register_count"
  return ⟨cellCount, area, registerCount⟩

def readSource : Except Raised Synthesis :=
  if occurs "NOVA_YOSYS_SUMMARY" text then readSummary rules text
  else nativeMappedStatistics rules text

def readSynthesis : Except Raised Synthesis := do
  let synthesis ← readSource rules text
  require (0 ≤ min synthesis.cellCount synthesis.registerCount ∧ synthesis.area.isNegative = false)
    (malformed "synthesis counts and area must be nonnegative")
  return synthesis

def Synthesis.value (synthesis : Synthesis) : MetricField → Option Metric
  | .cellCount => some (.int synthesis.cellCount)
  | .mappedAreaUm2 => some (.float synthesis.area)
  | .registerCount => some (.int synthesis.registerCount)
  | _ => none

/-- `parse_report` -/
def parseReport (_exitCode : ℤ) (context : AdapterParseContext) :
    Except Raised ParsedAdapterResult :=
  context.catchReport (readSynthesis rules text) fun synthesis =>
    context.metricsResult synthesis.value
      (if occurs "NOVA_YOSYS_DESIGN_FAIL" text then
        some ("SYNTHESIS_DESIGN_CHECK_FAILED",
          "Yosys reported a complete synthesis result with a design check failure")
      else none)

end Read

/-! ## What a synthesis report says -/

section Says

variable (rules : ReportRules)

/-- The sum of the counts of rows. -/
def rowTotal (rows : List Hit) : ℕ := (rows.map fun row => digits rules (row.group "count")).sum

/-- The counts of the cells in an inventory. -/
def inventory (summary : List Char) : List (List Char × ℕ) :=
  (inventoryRows rules summary).map fun row => (row.group "cell", digits rules (row.group "count"))

/-- No count of the rows is too long for `int`. -/
def Short (rows : List Hit) : Prop := ∀ row ∈ rows, (row.group "count").length ≤ maxStrDigits

/-- The products that make up the area of an inventory. -/
def Products (counts : List (List Char × ℕ)) (areas : List Binary64) : Prop :=
  List.Forall₂ (fun entry area => ∃ count x, lastCount counts entry.1 = some count ∧
    Binary64.ofNat? count = some x ∧ x.mul entry.2 = area) cellAreas areas

/-- The fields of a summary. -/
structure SynthesisFields (fields : Fields) : Prop where
  cellCount : HasCount rules fields "cell_count"
  area : ∃ x, HasFloat rules fields "mapped_area_um2" x ∧ x.isFinite ∧ x.isNegative = false
  registerCount : HasCount rules fields "register_count"

/-- The native statistics, whose inventory has to cover the cells where there is no area. -/
structure NativeReport (statistics : Statistics) : Prop where
  registers : 0 < rowTotal rules (registerRows rules statistics.summary)
  area : ∀ row ∈ statistics.area, (rowArea rules row).isFinite
  covers : statistics.area = none → totalCount (inventory rules statistics.summary) =
    digits rules (statistics.cells.group "count") ∧
    ∃ areas, Products (inventory rules statistics.summary) areas ∧
      (rules.sum areas).isFinite ∧ (rules.sum areas).isNegative = false

variable (text : String)

/-- The grammar and the bounds of a synthesis report. -/
def SynthesisReport : Prop :=
  if occurs "NOVA_YOSYS_SUMMARY" text then
    ∃ fields, summaryFields rules text "NOVA_YOSYS_SUMMARY" "NOVA_YOSYS_END" = .ok fields ∧
      SynthesisFields rules fields
  else ∃ statistics, readStatistics rules text = .ok statistics ∧ NativeReport rules statistics

/-- The counts of a summary are not too long for `int`. -/
structure HandlesSummary : Prop where
  cells_short : ∀ fields,
    summaryFields rules text "NOVA_YOSYS_SUMMARY" "NOVA_YOSYS_END" = .ok fields →
    ∀ digits n, HasDigits rules fields "cell_count" digits n → digits.length ≤ maxStrDigits
  registers_short : ∀ fields,
    summaryFields rules text "NOVA_YOSYS_SUMMARY" "NOVA_YOSYS_END" = .ok fields →
    (∃ digits n, HasDigits rules fields "cell_count" digits n) →
    HasFinite rules fields "mapped_area_um2" →
    ∀ digits n, HasDigits rules fields "register_count" digits n → digits.length ≤ maxStrDigits

/-- The counts of the native output are not too long for `int`, a printed area is not too large for
a float, and a matching inventory has all the cells, with an area that is not too large. -/
structure HandlesNative (statistics : Statistics) : Prop where
  registers_short : Short (registerRows rules statistics.summary)
  inventory_short : 0 < rowTotal rules (registerRows rules statistics.summary) →
    statistics.area = none → Short (inventoryRows rules statistics.summary)
  cells_short : 0 < rowTotal rules (registerRows rules statistics.summary) →
    (statistics.cells.group "count").length ≤ maxStrDigits
  area : 0 < rowTotal rules (registerRows rules statistics.summary) →
    ∀ row ∈ statistics.area, (rowArea rules row).isFinite
  counted : 0 < rowTotal rules (registerRows rules statistics.summary) → statistics.area = none →
    totalCount (inventory rules statistics.summary) =
      digits rules (statistics.cells.group "count") →
    ∃ areas, Products (inventory rules statistics.summary) areas ∧
      ((rules.sum areas).isFinite ∨ (rules.sum areas).isNegative)

def Handles : Prop :=
  if occurs "NOVA_YOSYS_SUMMARY" text then HandlesSummary rules text
  else ∀ statistics, readStatistics rules text = .ok statistics → HandlesNative rules statistics

end Says

section Results

variable {rules : ReportRules} {text : String} {summary : List Char} {rows : List Hit}
variable {statistics : Statistics}

theorem intRows_eq_ok {counts : List ℕ} : intRows rules rows = .ok counts ↔
    Short rows ∧ rows.map (fun row => digits rules (row.group "count")) = counts :=
  mapM_eq_ok_map fun _ _ _ => int_eq_ok

theorem escapes_intRows : Escapes (intRows rules rows) ↔ ¬ Short rows := by
  have hreport (code message : String) : intRows rules rows ≠ .error (.report code message) :=
    mapM_ne_report (fun _ => int_ne_report) code message
  simp only [escapes_iff_not_ok hreport, intRows_eq_ok, exists_and_left, exists_eq', and_true]

theorem escapes_readRegisters : Escapes (readRegisters rules summary) ↔
    ¬ Short (registerRows rules summary) := by
  simp only [readRegisters, escapes_bind, escapes_intRows, missingSection, not_escapes_require,
    not_escapes_pure, and_false, exists_false, or_false]

theorem readRegisters_eq_ok {n : ℕ} : readRegisters rules summary = .ok n ↔
    Short (registerRows rules summary) ∧ 0 < rowTotal rules (registerRows rules summary) ∧
      rowTotal rules (registerRows rules summary) = n := by
  simp only [readRegisters, bind_eq_ok, intRows_eq_ok, pure, Except.pure, Except.ok.injEq]
  constructor
  · rintro ⟨_, ⟨hshort, rfl⟩, _, hpos, hn⟩
    exact ⟨hshort, require_eq_ok.mp hpos, hn⟩
  · rintro ⟨hshort, hpos, hn⟩
    exact ⟨_, ⟨hshort, rfl⟩, (), require_eq_ok.mpr hpos, hn⟩

theorem product_ne_report {counts : List (List Char × ℕ)} (entry : String × Binary64)
    (code message : String) : product counts entry ≠ .error (.report code message) := by
  unfold product
  split
  · simp
  · split <;> simp

theorem product_eq_ok {counts : List (List Char × ℕ)} {entry : String × Binary64}
    {area : Binary64} : product counts entry = .ok area ↔
      ∃ count x, lastCount counts entry.1 = some count ∧ Binary64.ofNat? count = some x ∧
        x.mul entry.2 = area := by
  unfold product
  cases lastCount counts entry.1 with
  | none => simp
  | some count =>
    cases hfloat : Binary64.ofNat? count with
    | none => simp [hfloat]
    | some x => simp [hfloat]

theorem products_eq_ok {counts : List (List Char × ℕ)} {areas : List Binary64} :
    cellAreas.mapM (product counts) = .ok areas ↔ Products counts areas := by
  simp only [mapM_eq_ok, product_eq_ok, Products]

theorem escapes_products {counts : List (List Char × ℕ)} :
    Escapes (cellAreas.mapM (product counts)) ↔ ¬ ∃ areas, Products counts areas := by
  rw [escapes_iff_not_ok (mapM_ne_report product_ne_report)]
  simp only [products_eq_ok]

variable {cells : Hit}

theorem zip_counts : ((inventoryRows rules summary).map (Hit.group · "cell")).zip
    ((inventoryRows rules summary).map fun row => digits rules (row.group "count")) =
      inventory rules summary := by
  rw [List.zip_map']
  rfl

theorem escapes_countedArea : Escapes (countedArea rules cells summary) ↔
    ¬ Short (inventoryRows rules summary) ∨ maxStrDigits < (cells.group "count").length ∨
      totalCount (inventory rules summary) = digits rules (cells.group "count") ∧
        ¬ ∃ areas, Products (inventory rules summary) areas := by
  simp only [countedArea, escapes_bind, escapes_intRows, intRows_eq_ok, escapes_int, int_eq_ok,
    missingSection, not_escapes_require, escapes_products, not_escapes_pure, and_false,
    exists_false, or_false, false_or]
  by_cases hshort : Short (inventoryRows rules summary)
  · by_cases hcells : (cells.group "count").length ≤ maxStrDigits
    · have hnot : ¬ maxStrDigits < (cells.group "count").length := Nat.not_lt_of_le hcells
      simp only [hshort, hcells, hnot, not_true_eq_false, false_or, true_and, exists_eq_left',
        zip_counts, require_eq_ok, exists_const]
    · have hlong : maxStrDigits < (cells.group "count").length := Nat.lt_of_not_le hcells
      simp only [hshort, hlong, true_or, or_true, true_and, exists_eq_left']
  · simp only [hshort, not_false_eq_true, true_or]

theorem countedArea_eq_ok {area : Binary64} : countedArea rules cells summary = .ok area ↔
    Short (inventoryRows rules summary) ∧ (cells.group "count").length ≤ maxStrDigits ∧
      totalCount (inventory rules summary) = digits rules (cells.group "count") ∧
      ∃ areas, Products (inventory rules summary) areas ∧ rules.sum areas = area := by
  simp only [countedArea, bind_eq_ok, intRows_eq_ok, int_eq_ok, products_eq_ok, pure, Except.pure,
    Except.ok.injEq, and_assoc, exists_and_left, exists_eq_left', zip_counts, require_eq_ok,
    exists_const]

theorem products_unique {counts : List (List Char × ℕ)} {areas areas' : List Binary64}
    (h : Products counts areas) (h' : Products counts areas') : areas = areas' := by
  rw [← products_eq_ok] at h h'
  exact Except.ok.inj (h.symm.trans h')

theorem not_escapes_readStatistics : ¬ Escapes (readStatistics rules text) := by
  simp only [readStatistics]
  split
  · exact not_escapes_report _ _
  · simp only [escapes_bind, missingSection, malformed, not_escapes_require, not_escapes_pure,
      and_false, exists_false, or_false, not_false_eq_true]

theorem escapes_mappedArea : Escapes (mappedArea rules statistics) ↔
    statistics.area = none ∧ (¬ Short (inventoryRows rules statistics.summary) ∨
      maxStrDigits < (statistics.cells.group "count").length ∨
      totalCount (inventory rules statistics.summary) =
          digits rules (statistics.cells.group "count") ∧
        ¬ ∃ areas, Products (inventory rules statistics.summary) areas) := by
  unfold mappedArea
  cases statistics.area with
  | some row => simp
  | none => simp only [escapes_countedArea, true_and]

theorem mappedArea_eq_ok {area : Binary64} : mappedArea rules statistics = .ok area ↔
    (∀ row ∈ statistics.area, rowArea rules row = area) ∧
    (statistics.area = none → Short (inventoryRows rules statistics.summary) ∧
      (statistics.cells.group "count").length ≤ maxStrDigits ∧
      totalCount (inventory rules statistics.summary) =
        digits rules (statistics.cells.group "count") ∧
      ∃ areas, Products (inventory rules statistics.summary) areas ∧ rules.sum areas = area) := by
  unfold mappedArea
  cases statistics.area with
  | some row => simp
  | none => simp [countedArea_eq_ok]

/-- What escapes from the native output. -/
theorem escapes_nativeMappedStatistics : Escapes (nativeMappedStatistics rules text) ↔
    ∃ statistics, readStatistics rules text = .ok statistics ∧
      (¬ Short (registerRows rules statistics.summary) ∨
        0 < rowTotal rules (registerRows rules statistics.summary) ∧
        (Escapes (mappedArea rules statistics) ∨
          maxStrDigits < (statistics.cells.group "count").length)) := by
  simp only [nativeMappedStatistics, escapes_bind, not_escapes_readStatistics,
    escapes_readRegisters, readRegisters_eq_ok, escapes_int, not_escapes_pure, and_false,
    exists_false, or_false, false_or]
  refine exists_congr fun statistics => and_congr_right fun _ => ?_
  constructor
  · rintro (hlong | ⟨_, ⟨-, hpos, -⟩, hescapes | ⟨_, -, hlong⟩⟩)
    · exact .inl hlong
    · exact .inr ⟨hpos, .inl hescapes⟩
    · exact .inr ⟨hpos, .inr hlong⟩
  · intro h
    by_cases hshort : Short (registerRows rules statistics.summary)
    · obtain ⟨hpos, h⟩ := h.resolve_left (not_not_intro hshort)
      refine .inr ⟨_, ⟨hshort, hpos, rfl⟩, ?_⟩
      rcases h with hescapes | hlong
      · exact .inl hescapes
      · cases harea : statistics.area with
        | some row =>
          refine .inr ⟨rowArea rules row, mappedArea_eq_ok.mpr ?_, hlong⟩
          simp [harea]
        | none => exact .inl (escapes_mappedArea.mpr ⟨harea, .inr (.inl hlong)⟩)
    · exact .inl hshort

/-- What was read of the native output. -/
structure ReadsNative (rules : ReportRules) (statistics : Statistics) (synthesis : Synthesis) :
    Prop where
  registers_short : Short (registerRows rules statistics.summary)
  registers_pos : 0 < rowTotal rules (registerRows rules statistics.summary)
  registers_eq : synthesis.registerCount = rowTotal rules (registerRows rules statistics.summary)
  cells_short : (statistics.cells.group "count").length ≤ maxStrDigits
  cells_eq : synthesis.cellCount = digits rules (statistics.cells.group "count")
  area_eq : mappedArea rules statistics = .ok synthesis.area

theorem nativeMappedStatistics_eq_ok {synthesis : Synthesis} :
    nativeMappedStatistics rules text = .ok synthesis ↔
      ∃ statistics, readStatistics rules text = .ok statistics ∧
        ReadsNative rules statistics synthesis := by
  simp only [nativeMappedStatistics, bind_eq_ok, readRegisters_eq_ok, int_eq_ok, pure, Except.pure,
    Except.ok.injEq]
  refine exists_congr fun statistics => and_congr_right fun _ => ?_
  constructor
  · rintro ⟨_, ⟨hshort, hpos, rfl⟩, area, harea, _, ⟨hcells, rfl⟩, rfl⟩
    exact ⟨hshort, hpos, rfl, hcells, rfl, harea⟩
  · intro h
    exact ⟨_, ⟨h.registers_short, h.registers_pos, rfl⟩, synthesis.area, h.area_eq, _,
      ⟨h.cells_short, rfl⟩, by rw [← h.cells_eq, ← h.registers_eq]⟩

theorem escapes_readSummary : Escapes (readSummary rules text) ↔ ¬ HandlesSummary rules text := by
  simp only [readSummary, escapes_bind, not_escapes_summaryFields, escapes_strictInt,
    strictInt_eq_ok, not_escapes_finiteFloat, finiteFloat_eq_ok, not_escapes_pure, and_false,
    exists_false, or_false, false_or]
  constructor
  · rintro ⟨fields, hfields, ⟨digits, n, hcells, hlong⟩ |
      ⟨n, ⟨digits, hcells, -⟩, x, harea, digits', m, hregisters, hlong⟩⟩ h
    · exact Nat.not_le_of_lt hlong (h.cells_short fields hfields digits n hcells)
    · exact Nat.not_le_of_lt hlong
        (h.registers_short fields hfields ⟨digits, n, hcells⟩ ⟨x, harea⟩ digits' m hregisters)
  · intro h
    by_contra hnot
    push Not at hnot
    have hcells_short : ∀ fields,
        summaryFields rules text "NOVA_YOSYS_SUMMARY" "NOVA_YOSYS_END" = .ok fields →
        ∀ digits n, HasDigits rules fields "cell_count" digits n →
          digits.length ≤ maxStrDigits := fun fields hfields => (hnot fields hfields).1
    refine h ⟨hcells_short, ?_⟩
    rintro fields hfields ⟨digits, n, hcells⟩ ⟨x, harea⟩ digits' m hregisters
    exact (hnot fields hfields).2 n ⟨digits, hcells, hcells_short fields hfields digits n hcells⟩ x
      harea digits' m hregisters

/-- What was read of a summary. -/
structure ReadsSummary (rules : ReportRules) (fields : Fields) (synthesis : Synthesis) : Prop where
  cells : ∃ digits, HasDigits rules fields "cell_count" digits synthesis.cellCount
  area : HasFloat rules fields "mapped_area_um2" synthesis.area
  area_finite : synthesis.area.isFinite
  registers : ∃ digits, HasDigits rules fields "register_count" digits synthesis.registerCount

theorem reads_of_readSummary {synthesis : Synthesis} (h : readSummary rules text = .ok synthesis) :
    ∃ fields, summaryFields rules text "NOVA_YOSYS_SUMMARY" "NOVA_YOSYS_END" = .ok fields ∧
      ReadsSummary rules fields synthesis := by
  simp only [readSummary, bind_eq_ok, strictInt_eq_ok, finiteFloat_eq_ok, pure, Except.pure,
    Except.ok.injEq] at h
  obtain ⟨fields, hfields, _, ⟨digits, hcells, -⟩, _, ⟨harea, hfinite⟩, _, ⟨digits', hregs, -⟩,
    rfl⟩ := h
  exact ⟨fields, hfields, ⟨digits, hcells⟩, harea, hfinite, digits', hregs⟩

/-- The contract takes what is not negative, if its area is finite. -/
theorem accepted_value_iff {synthesis : Synthesis}
    (hcounts : 0 ≤ min synthesis.cellCount synthesis.registerCount)
    (harea : synthesis.area.isNegative = false) :
    Accepted synthesis.value ↔ synthesis.area.isFinite := by
  obtain ⟨hcells, hregisters⟩ := le_min_iff.mp hcounts
  constructor
  · intro haccepted
    have hboth : (synthesis.area.isFinite && !synthesis.area.isNegative) = true :=
      haccepted .mappedAreaUm2 _ rfl
    exact (Bool.and_eq_true_iff.mp hboth).1
  · intro hfinite field metric hmetric
    cases field with
    | cellCount =>
      obtain rfl := Option.mem_some.mp hmetric
      exact decide_eq_true hcells
    | registerCount =>
      obtain rfl := Option.mem_some.mp hmetric
      exact decide_eq_true hregisters
    | mappedAreaUm2 =>
      obtain rfl := Option.mem_some.mp hmetric
      change (synthesis.area.isFinite && !synthesis.area.isNegative) = true
      rw [hfinite, harea]
      rfl
    | _ => cases hmetric

theorem escapes_readSynthesis :
    Escapes (readSynthesis rules text) ↔ Escapes (readSource rules text) := by
  simp only [readSynthesis, escapes_bind, malformed, not_escapes_require, not_escapes_pure,
    and_false, exists_false, or_false]

theorem readSynthesis_eq_ok {synthesis : Synthesis} :
    readSynthesis rules text = .ok synthesis ↔ readSource rules text = .ok synthesis ∧
      0 ≤ min synthesis.cellCount synthesis.registerCount ∧
        synthesis.area.isNegative = false := by
  simp only [readSynthesis, bind_eq_ok, require_eq_ok, pure, Except.pure, Except.ok.injEq]
  constructor
  · rintro ⟨synthesis, hsource, _, hbounds, rfl⟩
    exact ⟨hsource, hbounds⟩
  · rintro ⟨hsource, hbounds⟩
    exact ⟨synthesis, hsource, (), hbounds, rfl⟩

/-- What was read of the native output is a report, if its area is finite. -/
theorem ReadsNative.report {synthesis : Synthesis} (h : ReadsNative rules statistics synthesis)
    (hfinite : synthesis.area.isFinite) (hnegative : synthesis.area.isNegative = false) :
    NativeReport rules statistics := by
  obtain ⟨hrow, hcounted⟩ := mappedArea_eq_ok.mp h.area_eq
  refine ⟨h.registers_pos, fun row hmem => by rwa [hrow row hmem], fun hnone => ?_⟩
  obtain ⟨-, -, htotal, areas, hproducts, hsum⟩ := hcounted hnone
  exact ⟨htotal, areas, hproducts, by rwa [hsum], by rwa [hsum]⟩

theorem ReadsSummary.report {fields : Fields} {synthesis : Synthesis}
    (h : ReadsSummary rules fields synthesis)
    (hcounts : 0 ≤ min synthesis.cellCount synthesis.registerCount)
    (hnegative : synthesis.area.isNegative = false) : SynthesisFields rules fields := by
  obtain ⟨hcells, hregisters⟩ := le_min_iff.mp hcounts
  obtain ⟨digits, hdigits⟩ := h.cells
  obtain ⟨digits', hdigits'⟩ := h.registers
  exact ⟨⟨digits, _, hdigits, hcells⟩, ⟨_, h.area, h.area_finite, hnegative⟩,
    ⟨digits', _, hdigits', hregisters⟩⟩

/-- The area of a native output is finite, where it is not negative. -/
theorem HandlesNative.area_finite (h : HandlesNative rules statistics) {synthesis : Synthesis}
    (hreads : ReadsNative rules statistics synthesis)
    (hnegative : synthesis.area.isNegative = false) : synthesis.area.isFinite := by
  obtain ⟨hrow, hcounted⟩ := mappedArea_eq_ok.mp hreads.area_eq
  cases harea : statistics.area with
  | some row =>
    rw [← hrow row harea]
    exact h.area hreads.registers_pos row harea
  | none =>
    obtain ⟨-, -, htotal, areas, hproducts, hsum⟩ := hcounted harea
    obtain ⟨areas', hproducts', hbounds⟩ := h.counted hreads.registers_pos harea htotal
    rw [products_unique hproducts' hproducts, hsum, hnegative] at hbounds
    exact hbounds.resolve_right Bool.false_ne_true

theorem HandlesNative.not_escapes (h : HandlesNative rules statistics)
    (hstatistics : readStatistics rules text = .ok statistics) :
    ¬ Escapes (nativeMappedStatistics rules text) := by
  rw [escapes_nativeMappedStatistics]
  rintro ⟨statistics', hstatistics', hescapes⟩
  obtain rfl := Except.ok.inj (hstatistics.symm.trans hstatistics')
  obtain hlong | ⟨hpos, hescapes | hlong⟩ := hescapes
  · exact hlong h.registers_short
  · obtain ⟨hnone, hlong | hlong | ⟨htotal, hproducts⟩⟩ := escapes_mappedArea.mp hescapes
    · exact hlong (h.inventory_short hpos hnone)
    · exact Nat.not_le_of_lt hlong (h.cells_short hpos)
    · obtain ⟨areas, hareas, -⟩ := h.counted hpos hnone htotal
      exact hproducts ⟨areas, hareas⟩
  · exact Nat.not_le_of_lt hlong (h.cells_short hpos)

theorem handlesNative_of (hstatistics : readStatistics rules text = .ok statistics)
    (hescapes : ¬ Escapes (nativeMappedStatistics rules text))
    (hfinite : ∀ synthesis, ReadsNative rules statistics synthesis →
      synthesis.area.isNegative = false → synthesis.area.isFinite) :
    HandlesNative rules statistics := by
  rw [escapes_nativeMappedStatistics] at hescapes
  have hregisters : Short (registerRows rules statistics.summary) := by
    by_contra hlong
    exact hescapes ⟨statistics, hstatistics, .inl hlong⟩
  have hcells (hpos : 0 < rowTotal rules (registerRows rules statistics.summary)) :
      (statistics.cells.group "count").length ≤ maxStrDigits := by
    by_contra hlong
    exact hescapes ⟨statistics, hstatistics, .inr ⟨hpos, .inr (Nat.lt_of_not_le hlong)⟩⟩
  have harea (hpos : 0 < rowTotal rules (registerRows rules statistics.summary)) :
      ¬ Escapes (mappedArea rules statistics) :=
    fun h => hescapes ⟨statistics, hstatistics, .inr ⟨hpos, .inl h⟩⟩
  have hinventory (hpos : 0 < rowTotal rules (registerRows rules statistics.summary))
      (hnone : statistics.area = none) : Short (inventoryRows rules statistics.summary) := by
    by_contra hlong
    exact harea hpos (escapes_mappedArea.mpr ⟨hnone, .inl hlong⟩)
  -- what is read of an area is finite
  have hread (hpos : 0 < rowTotal rules (registerRows rules statistics.summary)) {x : Binary64}
      (hx : mappedArea rules statistics = .ok x) (hnegative : x.isNegative = false) : x.isFinite :=
    hfinite ⟨digits rules (statistics.cells.group "count"), x,
      rowTotal rules (registerRows rules statistics.summary)⟩
      ⟨hregisters, hpos, rfl, hcells hpos, rfl, hx⟩ hnegative
  refine ⟨hregisters, hinventory, hcells, fun hpos row hrow => ?_, fun hpos hnone htotal => ?_⟩
  · refine hread hpos (mappedArea_eq_ok.mpr ?_) (Binary64.isNegative_round_false _)
    rw [Option.mem_def.mp hrow]
    exact ⟨fun other hother => by rw [Option.mem_some.mp hother], nofun⟩
  · have hproducts : ∃ areas, Products (inventory rules statistics.summary) areas := by
      by_contra hnot
      exact harea hpos (escapes_mappedArea.mpr ⟨hnone, .inr (.inr ⟨htotal, hnot⟩)⟩)
    obtain ⟨areas, hareas⟩ := hproducts
    refine ⟨areas, hareas, ?_⟩
    cases hnegative : (rules.sum areas).isNegative with
    | true => exact .inr rfl
    | false =>
      refine .inl (hread hpos (mappedArea_eq_ok.mpr ⟨?_, fun _ => ?_⟩) hnegative)
      · rw [hnone]
        exact nofun
      · exact ⟨hinventory hpos hnone, hcells hpos, htotal, areas, hareas, rfl⟩

theorem handled_iff (exitCode : ℤ) (context : AdapterParseContext) :
    Handled (parseReport rules text exitCode context) (SynthesisReport rules text) ↔
      Handles rules text := by
  have haccepted : (∀ synthesis, readSynthesis rules text = .ok synthesis →
        Accepted synthesis.value) ↔
      ∀ synthesis, readSource rules text = .ok synthesis →
        0 ≤ min synthesis.cellCount synthesis.registerCount →
        synthesis.area.isNegative = false → synthesis.area.isFinite := by
    simp only [readSynthesis_eq_ok, and_imp]
    refine forall₂_congr fun synthesis _ => forall₂_congr fun hcounts hnegative => ?_
    exact accepted_value_iff hcounts hnegative
  rw [parseReport, handled_catchReport_iff, escapes_readSynthesis, haccepted]
  · unfold Handles readSource
    split
    · rw [escapes_readSummary, not_not]
      refine ⟨And.left, fun h => ⟨h, fun synthesis hread _ _ => ?_⟩⟩
      obtain ⟨fields, -, hreads⟩ := reads_of_readSummary hread
      exact hreads.area_finite
    · constructor
      · rintro ⟨hescapes, hfinite⟩ statistics hstatistics
        refine handlesNative_of hstatistics hescapes fun synthesis hreads hnegative => ?_
        refine hfinite synthesis (nativeMappedStatistics_eq_ok.mpr ⟨_, hstatistics, hreads⟩) ?_
          hnegative
        rw [hreads.cells_eq, hreads.registers_eq]
        positivity
      · intro h
        refine ⟨?_, fun synthesis hread _ hnegative => ?_⟩
        · rw [escapes_nativeMappedStatistics]
          rintro ⟨statistics, hstatistics, hescapes⟩
          exact (h statistics hstatistics).not_escapes hstatistics
            (escapes_nativeMappedStatistics.mpr ⟨statistics, hstatistics, hescapes⟩)
        · obtain ⟨statistics, hstatistics, hreads⟩ := nativeMappedStatistics_eq_ok.mp hread
          exact (h statistics hstatistics).area_finite hreads hnegative
  · intro synthesis hread haccepted
    obtain ⟨hsource, hcounts, hnegative⟩ := readSynthesis_eq_ok.mp hread
    have hfinite := (accepted_value_iff hcounts hnegative).mp haccepted
    unfold SynthesisReport
    unfold readSource at hsource
    split at hsource
    next hsummary =>
      rw [if_pos hsummary]
      obtain ⟨fields, hfields, hreads⟩ := reads_of_readSummary hsource
      exact ⟨fields, hfields, hreads.report hcounts hnegative⟩
    next hsummary =>
      rw [if_neg hsummary]
      obtain ⟨statistics, hstatistics, hreads⟩ := nativeMappedStatistics_eq_ok.mp hsource
      exact ⟨statistics, hstatistics, hreads.report hfinite hnegative⟩

end Results

end NovaRtl.Reports.Yosys

namespace NovaRtl.Reports

/-- Both parsers handle a report exactly if no count on their way is too long, no frequency is
zero or negative, no area is too large, and no cell is missing in an inventory. -/
theorem parse_reports_handled_iff (rules : ReportRules) (text : String) (exitCode : ℤ)
    (context : AdapterParseContext) :
    (Handled (OpenSta.parseReport rules text exitCode context) (OpenSta.TimingReport rules text) ↔
      OpenSta.Handles rules text) ∧
    (Handled (Yosys.parseReport rules text exitCode context) (Yosys.SynthesisReport rules text) ↔
      Yosys.Handles rules text) :=
  ⟨OpenSta.handled_iff exitCode context, Yosys.handled_iff exitCode context⟩

/-! ## An inventory without one of the cells -/

def asciiRules : ReportRules where
  classes := .ascii
  digitValue c := c.toNat - '0'.toNat
  general _ := "0"
  sum areas := areas.headD (.finite false 0)

def synthesisContext : AdapterParseContext where
  stage := .yosysSynth
  analysisViewId := none
  runtimeMs := 1
  evidenceArtifactId := ⟨"synthesis_stdout", by decide⟩

def twoRegisters : String :=
  "NOVA_YOSYS_AREA_FROM_LOCKED_CELL_COUNTS\n2 cells\n2 DFFHQNx1_ASAP7_75t_R\n"

theorem not_handled_twoRegisters :
    ¬ Handled (Yosys.parseReport asciiRules twoRegisters 0 synthesisContext)
      (Yosys.SynthesisReport asciiRules twoRegisters) := by
  have hread : Yosys.readSynthesis asciiRules twoRegisters =
      .error (.key "DFFASRHQNx1_ASAP7_75t_R") := by
    decide +kernel
  rw [Yosys.parseReport, hread]
  exact nofun

end NovaRtl.Reports
