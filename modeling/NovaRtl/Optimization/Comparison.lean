import NovaRtl.Contracts.Checks
import NovaRtl.Optimization.MappedShape
import NovaRtl.Text.Json
import NovaRtl.Text.Markers
import NovaRtl.Transact.Table

/-!
# Comparison of mapped structures

`compare_mapped_structure` of `optimization/comparison.py`, from the parsed netlists. Isomorphic
netlists are reported as unchanged if no feedback loop is cut and no bit has two drivers; with a loop
the depth depends on the order of the cells.
-/

namespace NovaRtl.Optimization

open Chains Relation Text

variable {φ : Type}

/-! ## Reading a netlist -/

/-- A dictionary of parsed JSON, in which a later entry replaces an earlier one. -/
def dictOf (fields : List (String × Json φ)) : List (String × Json φ) := Table.dict Prod.fst fields

def malformed : String := "mapped design JSON is malformed"

/-- `json.loads(netlist)["modules"]` -/
def modulesOf : Json φ → Except String (List (String × Json φ))
  | .obj fields =>
    match (dictOf fields).lookup "modules" with
    | some (.obj modules) => .ok (dictOf modules)
    | _ => .error malformed
  | _ => .error malformed

/-- `item.get(name, {})`, which must be an object. -/
def objectAt (fields : List (String × Json φ)) (name error : String) :
    Except String (List (String × Json φ)) :=
  match (dictOf fields).lookup name with
  | none => .ok []
  | some (.obj object) => .ok (dictOf object)
  | _ => .error error

/-- A bit number. To Python a Boolean is an integer as well. -/
def bitOf : Json φ → Option ℤ
  | .int n => some n
  | .bool b => some (if b then 1 else 0)
  | _ => none

def hasDirection (direction : String) : Option (Json φ) → Bool
  | some (.str text) => text = direction
  | _ => false

/-- The bits of the ports with a direction. -/
def bitsOf (directions : List (String × Json φ)) (direction : String)
    (ports : List (String × List ℤ)) : List ℤ :=
  ports.flatMap fun (port, bits) =>
    if hasDirection direction (directions.lookup port) then bits else []

def readPort (connection : String × Json φ) : Except String (String × List ℤ) :=
  match connection.2 with
  | .arr bits => .ok (connection.1, bits.filterMap bitOf)
  | _ => .error "mapped cell connection must be a bit list"

def readCell (entry : String × Json φ) : Except String MappedCell :=
  match entry.2 with
  | .obj fields => do
    let directions ← objectAt fields "port_directions" "mapped cell ports are malformed"
    let connections ← objectAt fields "connections" "mapped cell ports are malformed"
    let ports ← connections.mapM readPort
    return { name := entry.1
             outputs := bitsOf directions "output" ports
             inputs := bitsOf directions "input" ports }
  | _ => .error "mapped cell entry is malformed"

theorem readCell_name {entry : String × Json φ} {cell : MappedCell} (h : readCell entry = .ok cell) :
    cell.name = entry.1 := by
  unfold readCell at h
  split at h
  · simp only [bind_eq_ok, pure, Except.pure, Except.ok.injEq] at h
    obtain ⟨directions, -, connections, -, ports, -, rfl⟩ := h
    rfl
  · cases h

theorem readCells_names {entries : List (String × Json φ)} {cells : List MappedCell}
    (h : entries.mapM readCell = .ok cells) :
    cells.map MappedCell.name = entries.map Prod.fst := by
  have hall := mapM_eq_ok.mp h
  clear h
  induction hall with
  | nil => rfl
  | cons hcell _ ih => rw [List.map_cons, List.map_cons, ih, readCell_name hcell]

theorem objectAt_nodup {fields object : List (String × Json φ)} {name error : String}
    (h : objectAt fields name error = .ok object) : (object.map Prod.fst).Nodup := by
  unfold objectAt at h
  split at h
  · obtain rfl := Except.ok.inj h
    exact List.nodup_nil
  · obtain rfl := Except.ok.inj h
    exact Table.nodup_dict _
  · cases h

def readModule : Json φ → Except String MappedModule
  | .obj fields =>
    match hentries : objectAt fields "cells" "mapped module cells must be an object" with
    | .error e => .error e
    | .ok entries =>
      match hcells : entries.mapM readCell with
      | .error e => .error e
      | .ok cells =>
        .ok ⟨cells, by rw [readCells_names hcells]; exact objectAt_nodup hentries⟩
  | _ => .error "mapped module cells must be an object"

/-! ## The comparison -/

inductive MappedStatus where
  | depthReduced
  | changedNoDepthReduction
  | noMappedChange
  deriving DecidableEq, Repr

structure EffectPayload where
  baselineArtifactHash : String
  candidateArtifactHash : String
  targetModule : String
  moduleNames : List String
  baselineCellCounts : List (String × ℕ)
  candidateCellCounts : List (String × ℕ)
  baselineMaxDepths : List (String × ℕ)
  candidateMaxDepths : List (String × ℕ)
  baselineTotalCells : ℕ
  candidateTotalCells : ℕ
  cellDelta : ℤ
  reducedDepthInstanceCount : ℕ
  status : MappedStatus

structure MappedStructuralEffect extends EffectPayload where
  effectHash : String

/-- `identities_are_complete_and_hashed` -/
def MappedStructuralEffect.check (hash : EffectPayload → String) (effect : MappedStructuralEffect) :
    Except String Unit := do
  require (effect.moduleNames ≠ [] ∧
      ∀ values ∈ [effect.baselineCellCounts, effect.candidateCellCounts, effect.baselineMaxDepths,
        effect.candidateMaxDepths], ∀ name ∈ values.map Prod.fst ++ effect.moduleNames,
          name ∈ values.map Prod.fst ∧ name ∈ effect.moduleNames)
    "mapped structural effect must cover the same target modules"
  require (effect.baselineTotalCells = (effect.baselineCellCounts.map Prod.snd).sum)
    "baseline target cell total is inconsistent"
  require (effect.candidateTotalCells = (effect.candidateCellCounts.map Prod.snd).sum)
    "candidate target cell total is inconsistent"
  require (effect.cellDelta = effect.candidateTotalCells - effect.baselineTotalCells)
    "mapped target cell delta is inconsistent"
  require (effect.effectHash = hash effect.toEffectPayload)
    "mapped structural effect hash is not canonical"

/-- `_module_shape(modules[name])` -/
def shapeOf (order : SetOrder ℤ) (modules : List (String × Json φ)) (name : String) :
    Except String (ℕ × ℕ) :=
  match modules.lookup name with
  | none => .error name
  | some json => do
    let module ← readModule json
    match moduleShape order module with
    | some shape => return shape
    | none => .error "maximum recursion depth exceeded"

/-- `"DEPTH_REDUCED" if reduced else ...` -/
def statusOf (baseline candidate : List (ℕ × ℕ)) : MappedStatus :=
  if (baseline.zip candidate).any fun (before, after) => after.2 < before.2 then .depthReduced
  else if baseline.map Prod.fst = candidate.map Prod.fst ∧
      baseline.map Prod.snd = candidate.map Prod.snd then .noMappedChange
  else .changedNoDepthReduction

def effectPayload (baselineArtifactHash candidateArtifactHash target : String)
    (names : List String) (baseline candidate : List (ℕ × ℕ)) : EffectPayload where
  baselineArtifactHash
  candidateArtifactHash
  targetModule := target
  moduleNames := names
  baselineCellCounts := names.zip (baseline.map Prod.fst)
  candidateCellCounts := names.zip (candidate.map Prod.fst)
  baselineMaxDepths := names.zip (baseline.map Prod.snd)
  candidateMaxDepths := names.zip (candidate.map Prod.snd)
  baselineTotalCells := (baseline.map Prod.fst).sum
  candidateTotalCells := (candidate.map Prod.fst).sum
  cellDelta := (candidate.map Prod.fst).sum - (baseline.map Prod.fst).sum
  reducedDepthInstanceCount :=
    (baseline.zip candidate).countP fun (before, after) => after.2 < before.2
  status := statusOf baseline candidate

/-- `compare_mapped_structure`. The orders are those of the sets of bits. -/
def compareMappedStructure (hash : EffectPayload → String) (order order' : SetOrder ℤ)
    (baseline candidate : Json φ) (baselineArtifactHash candidateArtifactHash target : String) :
    Except String (Accepted (MappedStructuralEffect.check hash)) := do
  let baselineModules ← modulesOf baseline
  let candidateModules ← modulesOf candidate
  let named (modules : List (String × Json φ)) := (modules.map Prod.fst).filter (occurs target)
  let names := sorted ((named baselineModules).filter (· ∈ candidateModules.map Prod.fst))
  require (names ≠ [] ∧ (∀ name ∈ named baselineModules, name ∈ named candidateModules) ∧
      ∀ name ∈ named candidateModules, name ∈ named baselineModules)
    "mapped target module inventory changed"
  let baselineShapes ← names.mapM (shapeOf order baselineModules)
  let candidateShapes ← names.mapM (shapeOf order' candidateModules)
  let payload := effectPayload baselineArtifactHash candidateArtifactHash target names
    baselineShapes candidateShapes
  construct (MappedStructuralEffect.check hash) { payload with effectHash := hash payload }

/-! ## Isomorphic netlists -/

/-- The calls of `depth` end. -/
def Terminates (module : MappedModule) : Prop :=
  ∀ order fuel, module.cells.length < fuel → (shapeWithin order module fuel).isSome

/-- The depth is the longest chain of drivers. -/
def LongestDepth (module : MappedModule) : Prop :=
  ∀ order, ∃ best, moduleShape order module = some (module.cells.length, best) ∧
    IsLongest (DrivenBy module) (module.cells.map MappedCell.name) best

/-- The shape is that of every isomorphic module. -/
def Invariant (module : MappedModule) : Prop :=
  ∀ renamed order order', Isomorphic module renamed →
    moduleShape order' renamed = moduleShape order module

/-- The same modules, each isomorphic to the one of its name. -/
def IsomorphicDesigns (baseline candidate : Json φ) : Prop :=
  ∃ modules modules', modulesOf baseline = .ok modules ∧ modulesOf candidate = .ok modules' ∧
    (∀ name, name ∈ modules.map Prod.fst ↔ name ∈ modules'.map Prod.fst) ∧
    ∀ name json json', modules.lookup name = some json → modules'.lookup name = some json' →
      ∃ module renamed, readModule json = .ok module ∧ readModule json' = .ok renamed ∧
        Isomorphic module renamed

/-- There are target modules, and they have no loops and single drivers. -/
def TargetsWellDriven (target : String) (design : Json φ) : Prop :=
  ∃ modules, modulesOf design = .ok modules ∧
    (∃ name ∈ modules.map Prod.fst, occurs target name) ∧
    ∀ name json module, occurs target name → modules.lookup name = some json →
      readModule json = .ok module → WellDriven module

theorem moduleShape_terminates (module : MappedModule) : Terminates module :=
  fun _ _ hfuel => shapeWithin_isSome hfuel

theorem Acyclic.longestDepth {module : MappedModule} (h : Acyclic module) : LongestDepth module :=
  fun _ => shapeWithin_longest h (Nat.lt_succ_self _)

theorem WellDriven.invariant {module : MappedModule} (h : WellDriven module) : Invariant module :=
  fun _ _ _ hiso => h.shape_eq hiso (Nat.lt_succ_self _) (Nat.lt_succ_self _)

theorem exists_lookup {modules : List (String × Json φ)} {name : String}
    (h : name ∈ modules.map Prod.fst) : ∃ json, modules.lookup name = some json := by
  induction modules with
  | nil => cases h
  | cons entry modules ih =>
    rw [List.lookup_cons]
    split
    · exact ⟨_, rfl⟩
    next hne =>
      rcases List.mem_cons.mp h with heq | h
      · simp [heq] at hne
      · exact ih h

theorem MappedStructuralEffect.check_eq_ok_iff {hash : EffectPayload → String}
    {effect : MappedStructuralEffect} :
    effect.check hash = .ok () ↔
      (effect.moduleNames ≠ [] ∧
        ∀ values ∈ [effect.baselineCellCounts, effect.candidateCellCounts,
          effect.baselineMaxDepths, effect.candidateMaxDepths],
          ∀ name ∈ values.map Prod.fst ++ effect.moduleNames,
            name ∈ values.map Prod.fst ∧ name ∈ effect.moduleNames) ∧
        effect.baselineTotalCells = (effect.baselineCellCounts.map Prod.snd).sum ∧
        effect.candidateTotalCells = (effect.candidateCellCounts.map Prod.snd).sum ∧
        effect.cellDelta = effect.candidateTotalCells - effect.baselineTotalCells ∧
        effect.effectHash = hash effect.toEffectPayload := by
  simp only [MappedStructuralEffect.check, seq_eq_ok, require_eq_ok]

theorem effect_check (hash : EffectPayload → String) {names : List String}
    {baseline candidate : List (ℕ × ℕ)} (hnames : names ≠ [])
    (hbaseline : baseline.length = names.length) (hcandidate : candidate.length = names.length)
    (baselineArtifactHash candidateArtifactHash target : String) :
    MappedStructuralEffect.check hash
      { effectPayload baselineArtifactHash candidateArtifactHash target names baseline
          candidate with
        effectHash := hash (effectPayload baselineArtifactHash candidateArtifactHash target names
          baseline candidate) } = .ok () := by
  have hkeys {α : Type} (values : List α) (h : values.length = names.length) :
      (names.zip values).map Prod.fst = names := List.map_fst_zip h.ge
  have hvalues {α : Type} (values : List α) (h : values.length = names.length) :
      (names.zip values).map Prod.snd = values := List.map_snd_zip h.le
  rw [MappedStructuralEffect.check_eq_ok_iff]
  refine ⟨⟨hnames, ?_⟩, ?_, ?_, rfl, rfl⟩
  · intro values hmem
    have hcover : values.map Prod.fst = names := by
      simp only [effectPayload, List.mem_cons, List.not_mem_nil, or_false] at hmem
      rcases hmem with rfl | rfl | rfl | rfl <;> exact hkeys _ (by simpa)
    rw [hcover]
    intro name hname
    have hmem : name ∈ names := by simpa [effectPayload] using hname
    exact ⟨hmem, hmem⟩
  · exact congrArg List.sum (hvalues (baseline.map Prod.fst) (by simpa)).symm
  · exact congrArg List.sum (hvalues (candidate.map Prod.fst) (by simpa)).symm

theorem statusOf_self (shapes : List (ℕ × ℕ)) : statusOf shapes shapes = .noMappedChange := by
  have hnone : (shapes.zip shapes).any (fun (before, after) => after.2 < before.2) = false := by
    induction shapes with
    | nil => rfl
    | cons shape shapes ih => simpa using ih
  rw [statusOf, hnone]
  simp

/-- Isomorphic modules of a name have one shape. -/
theorem shapeOf_eq {modules modules' : List (String × Json φ)} {name : String} {json json' : Json φ}
    {module renamed : MappedModule} {order order' : SetOrder ℤ}
    (hjson : modules.lookup name = some json) (hjson' : modules'.lookup name = some json')
    (hmodule : readModule json = .ok module) (hrenamed : readModule json' = .ok renamed)
    (hinvariant : Invariant module) (hiso : Isomorphic module renamed) :
    ∃ shape, shapeOf order modules name = .ok shape ∧ shapeOf order' modules' name = .ok shape := by
  obtain ⟨shape, hshape⟩ := Option.isSome_iff_exists.mp
    (moduleShape_terminates module order _ (Nat.lt_succ_self _))
  have hshape' : moduleShape order' renamed = some shape := by
    rw [hinvariant renamed order order' hiso]
    exact hshape
  refine ⟨shape, ?_, ?_⟩
  · simp only [shapeOf, hjson]
    exact bind_eq_ok.mpr ⟨module, hmodule, by rw [moduleShape, hshape]; rfl⟩
  · simp only [shapeOf, hjson']
    exact bind_eq_ok.mpr ⟨renamed, hrenamed, by rw [hshape']; rfl⟩

theorem mapM_ok_of_forall {α β : Type} {f g : α → Except String β} {items : List α}
    (h : ∀ item ∈ items, ∃ answer, f item = .ok answer ∧ g item = .ok answer) :
    ∃ answers, items.mapM f = .ok answers ∧ items.mapM g = .ok answers ∧
      answers.length = items.length := by
  induction items with
  | nil => exact ⟨[], rfl, rfl, rfl⟩
  | cons item items ih =>
    obtain ⟨hitem, hitems⟩ := List.forall_mem_cons.mp h
    obtain ⟨answer, hf, hg⟩ := hitem
    obtain ⟨answers, hfs, hgs, hlength⟩ := ih hitems
    refine ⟨answer :: answers, ?_, ?_, by simp [hlength]⟩
    · rw [List.mapM_cons, hf]
      exact bind_eq_ok.mpr ⟨answer, rfl, bind_eq_ok.mpr ⟨answers, hfs, rfl⟩⟩
    · rw [List.mapM_cons, hg]
      exact bind_eq_ok.mpr ⟨answer, rfl, bind_eq_ok.mpr ⟨answers, hgs, rfl⟩⟩

/-- The comparison of isomorphic netlists reports no change, if the targets are well driven. -/
theorem isomorphic_unchanged (hash : EffectPayload → String) (order order' : SetOrder ℤ)
    {baseline candidate : Json φ} {target : String}
    (baselineArtifactHash candidateArtifactHash : String)
    (hiso : IsomorphicDesigns baseline candidate) (hdriven : TargetsWellDriven target baseline) :
    ∃ effect, compareMappedStructure hash order order' baseline candidate baselineArtifactHash
        candidateArtifactHash target = .ok effect ∧ effect.1.status = .noMappedChange := by
  obtain ⟨modules, modules', hmodules, hmodules', hnames, hmatch⟩ := hiso
  obtain ⟨same, hsame, ⟨name, hname, htarget⟩, hwell⟩ := hdriven
  obtain rfl : modules = same := Except.ok.inj (hmodules.symm.trans hsame)
  let named (modules : List (String × Json φ)) := (modules.map Prod.fst).filter (occurs target)
  let names := sorted ((named modules).filter (· ∈ modules'.map Prod.fst))
  have hmem : ∀ other, other ∈ names ↔ other ∈ modules.map Prod.fst ∧ occurs target other := by
    intro other
    simp only [names, named, mem_sorted, List.mem_filter, decide_eq_true_eq, ← hnames]
    tauto
  have hne : names ≠ [] := List.ne_nil_of_mem ((hmem name).mpr ⟨hname, htarget⟩)
  have hsame : ∀ other ∈ names, ∃ shape, shapeOf order modules other = .ok shape ∧
      shapeOf order' modules' other = .ok shape := by
    intro other hother
    obtain ⟨hin, hoccurs⟩ := (hmem other).mp hother
    obtain ⟨json, hjson⟩ := exists_lookup hin
    obtain ⟨json', hjson'⟩ := exists_lookup ((hnames other).mp hin)
    obtain ⟨module, renamed, hread, hread', hisoModule⟩ := hmatch other json json' hjson hjson'
    exact shapeOf_eq hjson hjson' hread hread'
      (hwell other json module hoccurs hjson hread).invariant hisoModule
  obtain ⟨shapes, hshapes, hshapes', hlength⟩ := mapM_ok_of_forall hsame
  have hcheck := effect_check hash hne hlength hlength baselineArtifactHash candidateArtifactHash
    target
  refine ⟨⟨_, hcheck⟩, ?_, statusOf_self shapes⟩
  refine bind_eq_ok.mpr ⟨modules, hmodules, bind_eq_ok.mpr ⟨modules', hmodules', ?_⟩⟩
  refine seq_eq_ok.mpr ⟨require_eq_ok.mpr ⟨hne, ?_, ?_⟩, ?_⟩
  · intro other hother
    simpa [hnames] using hother
  · intro other hother
    simpa [hnames] using hother
  · refine bind_eq_ok.mpr ⟨shapes, hshapes, bind_eq_ok.mpr ⟨shapes, hshapes', ?_⟩⟩
    exact construct_eq_ok.mpr rfl

def sampleBits (bits : List ℤ) : Json Empty := .arr (bits.map .int)

def sampleCell (inputs outputs : List ℤ) : Json Empty :=
  .obj [("port_directions", .obj [("A", .str "input"), ("Y", .str "output")]),
    ("connections", .obj [("A", sampleBits inputs), ("Y", sampleBits outputs)])]

def sampleDesign (cells : List (String × Json Empty)) : Json Empty :=
  .obj [("modules", .obj [("lane", .obj [("cells", .obj cells)])])]

/-- A cell that drives another one. -/
def chainDesign : Json Empty := sampleDesign [("a", sampleCell [] [1]), ("b", sampleCell [1] [2])]

/-- The same in another order and with other names and numbers. -/
def renamedDesign : Json Empty :=
  sampleDesign [("b_m", sampleCell [7] [8]), ("a_m", sampleCell [] [7])]

/-- The order of insertion, with the last occurrence of each element. -/
def insertionOrder : SetOrder ℤ := ⟨List.dedup, fun _ => .refl _⟩

def chainModule : MappedModule where
  cells := [⟨"a", [1], []⟩, ⟨"b", [2], [1]⟩]
  names_nodup := by decide

def renamedModule : MappedModule where
  cells := [⟨"b_m", [8], [7]⟩, ⟨"a_m", [7], []⟩]
  names_nodup := by decide

theorem chainModule_single : SingleDriven chainModule := by
  unfold SingleDriven
  decide

theorem chainModule_drivenBy {name driver : String} (h : DrivenBy chainModule name driver) :
    name = "b" ∧ driver = "a" := by
  obtain ⟨cell, hmem, other, hother, rfl, rfl, bit, hbit, hout⟩ :=
    chainModule_single.drivenBy_iff.mp h
  simp only [chainModule, List.mem_cons, List.not_mem_nil, or_false] at hmem hother
  rcases hmem with rfl | rfl
  · cases hbit
  · rcases hother with rfl | rfl
    · exact ⟨rfl, rfl⟩
    · grind

theorem chainModule_wellDriven : WellDriven chainModule where
  acyclic name hloop := by
    obtain ⟨first, hfirst, -⟩ := TransGen.head'_iff.mp hloop
    obtain ⟨last, -, hlast⟩ := TransGen.tail'_iff.mp hloop
    rw [(chainModule_drivenBy hfirst).1] at hlast
    exact absurd (chainModule_drivenBy hlast).2 (by decide)
  single := chainModule_single

theorem lookup_singleton {key name : String} {json found : Json Empty}
    (h : [(key, json)].lookup name = some found) : found = json := by
  rw [List.lookup_cons] at h
  split at h
  · exact (Option.some.inj h).symm
  · cases h

/-- Two cells in a loop, and a third one that drives the first. -/
def loopModule : MappedModule where
  cells := [⟨"a", [1], [2, 3]⟩, ⟨"b", [2], [1]⟩, ⟨"c", [3], []⟩]
  names_nodup := by decide

def reorderedLoop : MappedModule where
  cells := [⟨"b", [2], [1]⟩, ⟨"a", [1], [2, 3]⟩, ⟨"c", [3], []⟩]
  names_nodup := by decide

end NovaRtl.Optimization
