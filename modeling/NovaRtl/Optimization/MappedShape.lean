import Mathlib.Data.Int.Notation
import Mathlib.Data.List.Nodup
import Mathlib.Logic.Relation
import Mathlib.Order.MinMax
import Mathlib.Order.Nat
import NovaRtl.Order.Chains
import NovaRtl.Order.Iteration

/-!
# The shape of a mapped module

`_module_shape` of `optimization/comparison.py`, on the cells of a module. The depth of a cell is
kept when it is known, also when it was found inside a loop that the traversal had cut. Without
loops nothing is cut, and the depth is the longest chain of drivers.

## Main definitions

* `depth`, `moduleShape` — the traversal.
* `DrivenBy` — the driver graph.
* `WellDriven` — no loops, and no bit with two drivers.
-/

namespace NovaRtl.Optimization

open Chains Relation

/-- A cell with the bits of its output ports and of its input ports. -/
structure MappedCell where
  name : String
  outputs : List ℤ
  inputs : List ℤ
  deriving DecidableEq

structure MappedModule where
  cells : List MappedCell
  names_nodup : (cells.map MappedCell.name).Nodup

/-- The depths that are known. -/
abbrev Memo := List (String × ℕ)

section Shape

variable (order : SetOrder ℤ) (module : MappedModule)

/-- `drivers`: the last cell with the bit at an output. -/
def drivers : ℤ → Option String :=
  module.cells.foldl (fun drivers cell bit =>
    if bit ∈ cell.outputs then some cell.name else drivers bit) fun _ => none

/-- `inputs.get(cell_name, set())` -/
def inputsOf (name : String) : List ℤ :=
  match module.cells.find? fun cell => cell.name = name with
  | some cell => order.iterate cell.inputs
  | none => []

/-- The drivers of the inputs of a cell. -/
def driversOf (name : String) : List String :=
  (inputsOf order module name).filterMap (drivers module)

/-- One step of the maximum in `depth`. -/
def deepen (visit : String → Memo → Option (ℕ × Memo)) (best : ℕ × Memo) (driver : String) :
    Option (ℕ × Memo) := do
  let (value, memo) ← visit driver best.2
  return (max best.1 value, memo)

/-- `depth`, with a bound on the nesting of calls. -/
def depth : ℕ → List String → String → Memo → Option (ℕ × Memo)
  | 0, _, _, _ => none
  | fuel + 1, active, name, memo =>
    match memo.lookup name with
    | some value => some (value, memo)
    | none =>
      if name ∈ active then some (0, memo)
      else do
        let (best, memo) ← (driversOf order module name).foldlM
          (deepen (depth fuel (name :: active))) (0, memo)
        return (1 + best, (name, 1 + best) :: memo)

/-- The number of cells and the largest depth. -/
def shapeWithin (fuel : ℕ) : Option (ℕ × ℕ) := do
  let (best, _) ← (module.cells.map MappedCell.name).foldlM
    (deepen (depth order module fuel [])) (0, [])
  return (module.cells.length, best)

/-- `_module_shape`: no more calls are nested than there are cells. -/
def moduleShape : Option (ℕ × ℕ) := shapeWithin order module (module.cells.length + 1)

end Shape

variable {order : SetOrder ℤ} {module : MappedModule} {name driver : String} {bit : ℤ}
  {active : List String} {memo : Memo} {fuel : ℕ}

/-! ## The driver graph -/

theorem drivers_eq_some_iff {cells : List MappedCell} {start : ℤ → Option String}
    (h : cells.foldl (fun drivers cell bit =>
      if bit ∈ cell.outputs then some cell.name else drivers bit) start bit = some name) :
    (∃ cell ∈ cells, cell.name = name ∧ bit ∈ cell.outputs) ∨
      start bit = some name ∧ ∀ cell ∈ cells, bit ∉ cell.outputs := by
  induction cells generalizing start with
  | nil => exact .inr ⟨h, nofun⟩
  | cons cell cells ih =>
    rcases ih h with ⟨other, hmem, hother⟩ | ⟨hstart, hnone⟩
    · exact .inl ⟨other, List.mem_cons_of_mem cell hmem, hother⟩
    · dsimp only at hstart
      split_ifs at hstart with hbit
      · exact .inl ⟨cell, List.mem_cons_self, Option.some.inj hstart, hbit⟩
      · exact .inr ⟨hstart, List.forall_mem_cons.mpr ⟨hbit, hnone⟩⟩

/-- A driver is a cell with the bit at an output. -/
theorem exists_of_drivers (h : drivers module bit = some name) :
    ∃ cell ∈ module.cells, cell.name = name ∧ bit ∈ cell.outputs := by
  rcases drivers_eq_some_iff h with hcell | ⟨hnone, -⟩
  · exact hcell
  · cases hnone

theorem drivers_isSome {cell : MappedCell} (hmem : cell ∈ module.cells)
    (hbit : bit ∈ cell.outputs) : ∃ name, drivers module bit = some name := by
  have hgeneral : ∀ (cells : List MappedCell) (start : ℤ → Option String),
      (start bit).isSome ∨ cell ∈ cells → (cells.foldl (fun drivers cell bit =>
        if bit ∈ cell.outputs then some cell.name else drivers bit) start bit).isSome := by
    intro cells
    induction cells with
    | nil => simp
    | cons other cells ih =>
      intro start hstart
      refine ih _ ?_
      dsimp only
      rcases hstart with hstart | hmem
      · split_ifs
        · exact .inl rfl
        · exact .inl hstart
      · rcases List.mem_cons.mp hmem with rfl | hmem
        · rw [if_pos hbit]
          exact .inl rfl
        · exact .inr hmem
  exact Option.isSome_iff_exists.mp (hgeneral module.cells _ (.inr hmem))

/-- A cell with an input that the other one drives. -/
def DrivenBy (module : MappedModule) (name driver : String) : Prop :=
  ∃ cell ∈ module.cells, cell.name = name ∧ ∃ bit ∈ cell.inputs, drivers module bit = some driver

theorem find?_eq_some {cell : MappedCell} (hmem : cell ∈ module.cells) :
    (module.cells.find? fun other => other.name = cell.name) = some cell := by
  cases hfind : module.cells.find? fun other => other.name = cell.name with
  | none => simpa using List.find?_eq_none.mp hfind cell hmem
  | some other =>
    have hname := List.find?_some hfind
    simp only [decide_eq_true_eq] at hname
    rw [List.inj_on_of_nodup_map module.names_nodup (List.mem_of_find?_eq_some hfind) hmem hname]

theorem mem_driversOf : driver ∈ driversOf order module name ↔ DrivenBy module name driver := by
  unfold driversOf inputsOf
  rw [List.mem_filterMap]
  constructor
  · rintro ⟨bit, hbit, hdriver⟩
    split at hbit
    next cell hfind =>
      have hname := List.find?_some hfind
      simp only [decide_eq_true_eq] at hname
      exact ⟨cell, List.mem_of_find?_eq_some hfind, hname, bit, order.mem_iterate.mp hbit, hdriver⟩
    next => cases hbit
  · rintro ⟨cell, hmem, rfl, bit, hbit, hdriver⟩
    rw [find?_eq_some hmem]
    exact ⟨bit, order.mem_iterate.mpr hbit, hdriver⟩

theorem DrivenBy.driver_mem (h : DrivenBy module name driver) :
    driver ∈ module.cells.map MappedCell.name := by
  obtain ⟨-, -, -, bit, -, hdriver⟩ := h
  obtain ⟨cell, hmem, rfl, -⟩ := exists_of_drivers hdriver
  exact List.mem_map_of_mem hmem

/-! ## Termination -/

theorem isSome_foldlM_deepen {visit : String → Memo → Option (ℕ × Memo)} {names : List String}
    (h : ∀ name ∈ names, ∀ memo, (visit name memo).isSome) (best : ℕ × Memo) :
    (names.foldlM (deepen visit) best).isSome := by
  induction names generalizing best with
  | nil => rfl
  | cons name names ih =>
    obtain ⟨hname, hnames⟩ := List.forall_mem_cons.mp h
    obtain ⟨answer, hanswer⟩ := Option.isSome_iff_exists.mp (hname best.2)
    have hstep : deepen visit best name = some (max best.1 answer.1, answer.2) := by
      rw [deepen, hanswer]
      rfl
    rw [List.foldlM_cons, hstep]
    exact ih hnames _

/-- The cells that are not active. -/
def waiting (module : MappedModule) (active : List String) : List String :=
  (module.cells.map MappedCell.name).filter (· ∉ active)

theorem length_waiting_lt (hname : name ∈ module.cells.map MappedCell.name)
    (hactive : name ∉ active) :
    (waiting module (name :: active)).length < (waiting module active).length := by
  have hsub : waiting module (name :: active) =
      (waiting module active).filter (· ≠ name) := by
    rw [waiting, waiting, List.filter_filter]
    refine List.filter_congr fun other _ => ?_
    simp [not_or]
  rw [hsub, List.length_filter_lt_length_iff_exists]
  refine ⟨name, List.mem_filter.mpr ⟨hname, by simpa using hactive⟩, by simp⟩

/-- A call nests at most one call for each cell that is not active, and one more. -/
theorem depth_isSome (hname : name ∈ module.cells.map MappedCell.name)
    (hfuel : (waiting module active).length < fuel) :
    (depth order module fuel active name memo).isSome := by
  induction fuel generalizing active name memo with
  | zero => omega
  | succ fuel ih =>
    rw [depth]
    cases memo.lookup name with
    | some value => rfl
    | none =>
      split_ifs with hactive
      · rfl
      · have hless := length_waiting_lt hname hactive
        have hdrivers : ∀ driver ∈ driversOf order module name, ∀ memo,
            (depth order module fuel (name :: active) driver memo).isSome := by
          intro driver hdriver memo
          exact ih (mem_driversOf.mp hdriver).driver_mem (by omega)
        obtain ⟨answer, hanswer⟩ :=
          Option.isSome_iff_exists.mp (isSome_foldlM_deepen hdrivers (0, memo))
        rw [hanswer]
        rfl

theorem shapeWithin_isSome (hfuel : module.cells.length < fuel) :
    (shapeWithin order module fuel).isSome := by
  have hall : ∀ name ∈ module.cells.map MappedCell.name, ∀ memo,
      (depth order module fuel [] name memo).isSome := by
    intro name hname memo
    refine depth_isSome hname (lt_of_le_of_lt (List.length_filter_le _ _) ?_)
    rw [List.length_map]
    exact hfuel
  obtain ⟨answer, hanswer⟩ := Option.isSome_iff_exists.mp (isSome_foldlM_deepen hall (0, []))
  rw [shapeWithin, hanswer]
  rfl

/-! ## Depth without loops -/

/-- No cell drives itself through other cells. -/
def Acyclic (module : MappedModule) : Prop := ∀ name, ¬ TransGen (DrivenBy module) name name

/-- The known depths are longest chains. -/
def Sound (module : MappedModule) (memo : Memo) : Prop :=
  ∀ name value, memo.lookup name = some value → IsHeight (DrivenBy module) name value

theorem Sound.cons {value : ℕ} (h : Sound module memo)
    (hvalue : IsHeight (DrivenBy module) name value) : Sound module ((name, value) :: memo) := by
  intro other found hfound
  rw [List.lookup_cons] at hfound
  split at hfound
  next heq =>
    obtain rfl := Option.some.inj hfound
    rw [eq_of_beq heq]
    exact hvalue
  next => exact h other found hfound

/-- What a visit returns is a longest chain, and what it knows remains sound. -/
def Correct (module : MappedModule) (visit : String → Memo → Option (ℕ × Memo)) (name : String) :
    Prop :=
  ∀ memo value memo', Sound module memo → visit name memo = some (value, memo') →
    IsHeight (DrivenBy module) name value ∧ Sound module memo'

theorem foldlM_deepen_correct {visit : String → Memo → Option (ℕ × Memo)} {names : List String}
    (hvisit : ∀ name ∈ names, Correct module visit name) {start best : ℕ × Memo}
    (hsound : Sound module start.2) (h : names.foldlM (deepen visit) start = some best) :
    Sound module best.2 ∧ start.1 ≤ best.1 ∧
      (∀ name ∈ names, ∃ value ≤ best.1, IsHeight (DrivenBy module) name value) ∧
      (best.1 = start.1 ∨ ∃ name ∈ names, IsHeight (DrivenBy module) name best.1) := by
  induction names generalizing start with
  | nil =>
    obtain rfl : start = best := Option.some.inj h
    exact ⟨hsound, le_rfl, nofun, .inl rfl⟩
  | cons name names ih =>
    obtain ⟨hname, hnames⟩ := List.forall_mem_cons.mp hvisit
    rw [List.foldlM_cons] at h
    obtain ⟨next, hnext, h⟩ := Option.bind_eq_some_iff.mp h
    obtain ⟨answer, hanswer, hdeepen⟩ := Option.bind_eq_some_iff.mp hnext
    obtain rfl : (max start.1 answer.1, answer.2) = next := Option.some.inj hdeepen
    obtain ⟨hheight, hsound'⟩ := hname _ _ _ hsound hanswer
    have hnext' : Sound module ((max start.1 answer.1, answer.2) : ℕ × Memo).2 := hsound'
    obtain ⟨hsound'', hle, hrest, hattained⟩ := ih hnames hnext' h
    refine ⟨hsound'', le_trans (le_max_left _ _) hle, ?_, ?_⟩
    · refine List.forall_mem_cons.mpr ⟨⟨answer.1, ?_, hheight⟩, hrest⟩
      exact le_trans (le_max_right _ _) hle
    · rcases hattained with hsame | ⟨other, hother, hlongest⟩
      · rcases max_choice start.1 answer.1 with hmax | hmax
        · exact .inl (hsame.trans hmax)
        · refine .inr ⟨name, List.mem_cons_self, ?_⟩
          rw [hsame, hmax]
          exact hheight
      · exact .inr ⟨other, List.mem_cons_of_mem name hother, hlongest⟩

/-- Without loops an active cell, which the visited one drives, is never met again. -/
theorem depth_correct (hacyclic : Acyclic module)
    (hactive : ∀ other ∈ active, TransGen (DrivenBy module) other name) :
    Correct module (depth order module fuel active) name := by
  induction fuel generalizing active name with
  | zero => exact fun _ _ _ _ h => nomatch h
  | succ fuel ih =>
    intro memo value memo' hsound h
    rw [depth] at h
    split at h
    next known hknown =>
      obtain ⟨rfl, rfl⟩ := Prod.mk.inj (Option.some.inj h)
      exact ⟨hsound name known hknown, hsound⟩
    next =>
      rw [if_neg fun hmem => hacyclic name (hactive name hmem)] at h
      obtain ⟨best, hbest, h⟩ := Option.bind_eq_some_iff.mp h
      obtain ⟨rfl, rfl⟩ := Prod.mk.inj (Option.some.inj h)
      have hdrivers : ∀ driver ∈ driversOf order module name,
          Correct module (depth order module fuel (name :: active)) driver := by
        intro driver hdriver
        have hstep := mem_driversOf.mp hdriver
        refine ih (List.forall_mem_cons.mpr ⟨.single hstep, fun other hother => ?_⟩)
        exact (hactive other hother).tail hstep
      obtain ⟨hsound', -, hsuccessors, hattained⟩ := foldlM_deepen_correct hdrivers hsound hbest
      have hheight : IsHeight (DrivenBy module) name (1 + best.1) := by
        refine isHeight_succ (fun driver hstep => hsuccessors driver (mem_driversOf.mpr hstep)) ?_
        exact hattained.imp_right fun ⟨driver, hdriver, hlongest⟩ =>
          ⟨driver, mem_driversOf.mp hdriver, hlongest⟩
      exact ⟨hheight, hsound'.cons hheight⟩

/-- Without loops the depth is the longest chain of drivers. -/
theorem shapeWithin_longest (hacyclic : Acyclic module) (hfuel : module.cells.length < fuel) :
    ∃ best, shapeWithin order module fuel = some (module.cells.length, best) ∧
      IsLongest (DrivenBy module) (module.cells.map MappedCell.name) best := by
  obtain ⟨shape, hshape⟩ := Option.isSome_iff_exists.mp (shapeWithin_isSome hfuel)
  rw [hshape]
  obtain ⟨best, hbest, h⟩ := Option.bind_eq_some_iff.mp hshape
  obtain rfl := Option.some.inj h
  have hempty : Sound module ((0, []) : ℕ × Memo).2 := nofun
  obtain ⟨-, -, hall, hattained⟩ :=
    foldlM_deepen_correct (fun name _ => depth_correct hacyclic (List.forall_mem_nil _)) hempty hbest
  refine ⟨best.1, rfl, ?_, ?_⟩
  · exact hattained.imp_right fun ⟨name, hname, hlongest⟩ => ⟨name, hname, hlongest.chain⟩
  · intro name hname m hchain
    obtain ⟨value, hle, hheight⟩ := hall name hname
    exact (hheight.longest m hchain).trans hle

/-! ## Renaming -/

def MappedCell.rename (σ : String → String) (τ : ℤ → ℤ) (cell : MappedCell) : MappedCell where
  name := σ cell.name
  outputs := cell.outputs.map τ
  inputs := cell.inputs.map τ

/-- The same cells in another order, with other names and other bit numbers. -/
def Isomorphic (module renamed : MappedModule) : Prop :=
  ∃ σ τ, Function.Injective σ ∧ Function.Injective τ ∧
    renamed.cells.Perm (module.cells.map (MappedCell.rename σ τ))

/-- No bit is at outputs of two cells. -/
def SingleDriven (module : MappedModule) : Prop :=
  ∀ cell ∈ module.cells, ∀ other ∈ module.cells, ∀ bit ∈ cell.outputs, bit ∈ other.outputs →
    cell = other

structure WellDriven (module : MappedModule) : Prop where
  acyclic : Acyclic module
  single : SingleDriven module

theorem SingleDriven.drivers_iff (h : SingleDriven module) :
    drivers module bit = some name ↔
      ∃ cell ∈ module.cells, cell.name = name ∧ bit ∈ cell.outputs := by
  constructor
  · exact exists_of_drivers
  · rintro ⟨cell, hmem, rfl, hbit⟩
    obtain ⟨name, hname⟩ := drivers_isSome hmem hbit
    obtain ⟨other, hother, rfl, hbit'⟩ := exists_of_drivers hname
    rw [hname, h cell hmem other hother bit hbit hbit']

theorem SingleDriven.drivenBy_iff (h : SingleDriven module) :
    DrivenBy module name driver ↔ ∃ cell ∈ module.cells, ∃ other ∈ module.cells,
      cell.name = name ∧ other.name = driver ∧ ∃ bit ∈ cell.inputs, bit ∈ other.outputs := by
  simp only [DrivenBy, h.drivers_iff]
  constructor
  · rintro ⟨cell, hmem, hname, bit, hbit, other, hother, hdriver, hout⟩
    exact ⟨cell, hmem, other, hother, hname, hdriver, bit, hbit, hout⟩
  · rintro ⟨cell, hmem, other, hother, hname, hdriver, bit, hbit, hout⟩
    exact ⟨cell, hmem, hname, bit, hbit, other, hother, hdriver, hout⟩

section Renamed

variable {renamed : MappedModule} {σ : String → String} {τ : ℤ → ℤ}

theorem mem_renamed (hperm : renamed.cells.Perm (module.cells.map (MappedCell.rename σ τ)))
    {cell : MappedCell} :
    cell ∈ renamed.cells ↔ ∃ original ∈ module.cells, original.rename σ τ = cell := by
  rw [hperm.mem_iff, List.mem_map]

theorem SingleDriven.of_perm (h : SingleDriven module) (hτ : Function.Injective τ)
    (hperm : renamed.cells.Perm (module.cells.map (MappedCell.rename σ τ))) :
    SingleDriven renamed := by
  intro cell hcell other hother bit hbit hbit'
  obtain ⟨original, hmem, rfl⟩ := (mem_renamed hperm).mp hcell
  obtain ⟨original', hmem', rfl⟩ := (mem_renamed hperm).mp hother
  obtain ⟨source, hsource, rfl⟩ := List.mem_map.mp hbit
  rw [h original hmem original' hmem' source hsource ((List.mem_map_of_injective hτ).mp hbit')]

theorem DrivenBy.rename (h : SingleDriven module) (h' : SingleDriven renamed)
    (hperm : renamed.cells.Perm (module.cells.map (MappedCell.rename σ τ)))
    (hdriven : DrivenBy module name driver) : DrivenBy renamed (σ name) (σ driver) := by
  obtain ⟨cell, hmem, other, hother, rfl, rfl, bit, hbit, hout⟩ := h.drivenBy_iff.mp hdriven
  exact h'.drivenBy_iff.mpr
    ⟨cell.rename σ τ, (mem_renamed hperm).mpr ⟨cell, hmem, rfl⟩,
      other.rename σ τ, (mem_renamed hperm).mpr ⟨other, hother, rfl⟩, rfl, rfl,
      τ bit, List.mem_map_of_mem hbit, List.mem_map_of_mem hout⟩

theorem DrivenBy.of_rename (h : SingleDriven module) (h' : SingleDriven renamed)
    (hσ : Function.Injective σ) (hτ : Function.Injective τ)
    (hperm : renamed.cells.Perm (module.cells.map (MappedCell.rename σ τ))) {image : String}
    (hdriven : DrivenBy renamed (σ name) image) :
    ∃ driver, σ driver = image ∧ DrivenBy module name driver := by
  obtain ⟨cell, hcell, other, hother, hname, rfl, bit, hbit, hout⟩ := h'.drivenBy_iff.mp hdriven
  obtain ⟨original, hmem, rfl⟩ := (mem_renamed hperm).mp hcell
  obtain ⟨original', hmem', rfl⟩ := (mem_renamed hperm).mp hother
  obtain ⟨source, hsource, rfl⟩ := List.mem_map.mp hbit
  exact ⟨original'.name, rfl, h.drivenBy_iff.mpr ⟨original, hmem, original', hmem', hσ hname, rfl,
    source, hsource, (List.mem_map_of_injective hτ).mp hout⟩⟩

theorem transGen_of_rename (h : SingleDriven module) (h' : SingleDriven renamed)
    (hσ : Function.Injective σ) (hτ : Function.Injective τ)
    (hperm : renamed.cells.Perm (module.cells.map (MappedCell.rename σ τ))) {image : String}
    (hdriven : TransGen (DrivenBy renamed) (σ name) image) :
    ∃ driver, σ driver = image ∧ TransGen (DrivenBy module) name driver := by
  induction hdriven with
  | single hstep =>
    obtain ⟨driver, rfl, hdriver⟩ := hstep.of_rename h h' hσ hτ hperm
    exact ⟨driver, rfl, .single hdriver⟩
  | tail _ hstep ih =>
    obtain ⟨between, rfl, hbetween⟩ := ih
    obtain ⟨driver, rfl, hdriver⟩ := hstep.of_rename h h' hσ hτ hperm
    exact ⟨driver, rfl, hbetween.tail hdriver⟩

theorem DrivenBy.name_mem (h : DrivenBy module name driver) :
    name ∈ module.cells.map MappedCell.name := by
  obtain ⟨cell, hmem, rfl, -⟩ := h
  exact List.mem_map_of_mem hmem

theorem Acyclic.of_perm (hacyclic : Acyclic module) (h : SingleDriven module)
    (hσ : Function.Injective σ) (hτ : Function.Injective τ)
    (hperm : renamed.cells.Perm (module.cells.map (MappedCell.rename σ τ))) :
    Acyclic renamed := by
  intro image hloop
  have h' := h.of_perm hτ hperm
  obtain ⟨driver, hfirst, -⟩ := TransGen.head'_iff.mp hloop
  obtain ⟨cell, hcell, rfl⟩ := List.mem_map.mp hfirst.name_mem
  obtain ⟨original, hmem, rfl⟩ := (mem_renamed hperm).mp hcell
  obtain ⟨name, hname, hback⟩ := transGen_of_rename h h' hσ hτ hperm hloop
  rw [hσ hname] at hback
  exact hacyclic _ hback

/-- Isomorphic modules without loops and with single drivers have one shape. -/
theorem WellDriven.shape_eq (h : WellDriven module) (hiso : Isomorphic module renamed)
    {order' : SetOrder ℤ} {fuel' : ℕ} (hfuel : module.cells.length < fuel)
    (hfuel' : renamed.cells.length < fuel') :
    shapeWithin order' renamed fuel' = shapeWithin order module fuel := by
  obtain ⟨σ, τ, hσ, hτ, hperm⟩ := hiso
  have hsingle := h.single.of_perm hτ hperm
  have hacyclic := h.acyclic.of_perm h.single hσ hτ hperm
  obtain ⟨best, hshape, hlongest⟩ : ∃ best,
      shapeWithin order module fuel = some (module.cells.length, best) ∧
        IsLongest (DrivenBy module) (module.cells.map MappedCell.name) best :=
    shapeWithin_longest h.acyclic hfuel
  obtain ⟨best', hshape', hlongest'⟩ : ∃ best,
      shapeWithin order' renamed fuel' = some (renamed.cells.length, best) ∧
        IsLongest (DrivenBy renamed) (renamed.cells.map MappedCell.name) best :=
    shapeWithin_longest hacyclic hfuel'
  have hnames : ∀ image, image ∈ renamed.cells.map MappedCell.name ↔
      ∃ name ∈ module.cells.map MappedCell.name, σ name = image := by
    intro image
    rw [(hperm.map MappedCell.name).mem_iff]
    simp only [List.map_map, List.mem_map, Function.comp_apply, MappedCell.rename,
      exists_exists_and_eq_and]
  have hmapped : IsLongest (DrivenBy renamed) (renamed.cells.map MappedCell.name) best :=
    hlongest.map (fun _ _ hdriven => hdriven.rename h.single hsingle hperm)
      (fun _ _ hdriven => hdriven.of_rename h.single hsingle hσ hτ hperm) hnames
  rw [hshape, hshape', hlongest'.unique hmapped, hperm.length_eq, List.length_map]

end Renamed

end NovaRtl.Optimization
