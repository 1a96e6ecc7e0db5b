import Mathlib.Data.List.ReduceOption
import Mathlib.Data.String.Basic
import NovaRtl.Contracts.Checks
import NovaRtl.Graph.Classes

/-!
# Connectivity of an emitted netlist

`_verify_connectivity_alignment` of `evidence/source_map.py` compares the cells of a design in JSON
with the cells of the emitted netlist, position by position. A scalar connection is a bit on one
side and a text on the other; both are read as constants where they look like one, and then the
connections that share a bit have to be the ones that share a text.
-/

namespace NovaRtl.SourceMap

/-! ## The two sides -/

inductive Constant where
  | zero
  | one
  | x
  | z
  deriving DecidableEq

/-- A bit of the design: the number of a net, or a constant. -/
inductive Bit where
  | net (id : ℤ)
  | const (value : Constant)
  deriving DecidableEq

/-- An entry of `ports` or `netnames`. -/
structure Wires where
  bits : List Bit
  offset : ℤ

/-- A module of the design. There is nothing for what is no mapping, and for an entry that has no
list of bits or no integer as offset. -/
structure Module where
  ports : Option (List (String × Option Wires))
  netnames : Option (List (String × Option Wires))

/-- A cell of the design with the bits of its ports; a value that is no list has no bits. -/
inductive RawCell where
  | invalid
  | invalidConnections
  | connections (ports : List (String × List Bit))

structure JsonCell where
  name : String
  cell : RawCell

structure EmittedCell where
  cellType : String
  cellName : String
  connections : List (String × String)

inductive SourceMapError where
  /-- "invalid cell mapping in module …" -/
  | cellMapping (moduleName : String)
  /-- "invalid cell connectivity in module …" -/
  | cellConnectivity (moduleName : String)
  /-- "cell port set differs for emitted module …" -/
  | portSet (moduleName : String)
  /-- "scalar cell connection differs for emitted module …" -/
  | scalarConnection (moduleName : String)
  /-- "cell connectivity differs for emitted module …: …/… expected …, got …" -/
  | connectivity (moduleName jsonName port : String) (aliases : List String) (signal : List Char)
  /-- "cell constant connectivity differs for emitted module …" -/
  | constant (moduleName : String)
  /-- "cell connectivity signature differs for emitted module …" -/
  | signature (moduleName : String)
  /-- The `ValueError` of `zip(strict=True)`. -/
  | lengths

/-! ## Reading constants -/

def Constant.char : Constant → Char
  | zero => '0'
  | one => '1'
  | x => 'x'
  | z => 'z'

def constantOf : Char → Option Constant
  | '0' => some .zero
  | '1' => some .one
  | 'x' | 'X' => some .x
  | 'z' | 'Z' => some .z
  | _ => none

/-- `.lower().replace("z", "x")` -/
def Constant.normalized : Constant → Char
  | z => 'x'
  | c => c.char

section Reading

variable (isDecimal : Char → Bool)

/-- The digit that `(?:\d+)?'[sS]?[bBoOdDhH]([01xXzZ])` matches in a text. -/
def readConstant (text : List Char) : Option Constant :=
  match text.dropWhile isDecimal with
  | '\'' :: rest =>
    let afterSign := match rest with
      | 's' :: more | 'S' :: more => more
      | _ => rest
    match afterSign with
    | [base, digit] => if base ∈ "bBoOdDhH".toList then constantOf digit else none
    | _ => none
  | _ => none

/-- `signal.removeprefix("\\")` -/
def withoutBackslash : List Char → List Char
  | '\\' :: name => name
  | text => text

/-- `_normalize_constant` -/
def normalizeConstant (signal : List Char) : List Char :=
  match readConstant isDecimal (withoutBackslash signal) with
  | some c => [c.normalized]
  | none => withoutBackslash signal

/-! ## Aliases -/

/-- The names of a net in one entry. -/
def Wires.aliases (wires : Wires) (name : String) (id : ℤ) : List String :=
  (wires.bits.zipIdx.filter fun entry => entry.1 = .net id).map fun entry =>
    if wires.bits.length = 1 then name
    else name ++ "[" ++ toString (wires.offset + entry.2) ++ "]"

def entryAliases (id : ℤ) (entry : String × Option Wires) : List String :=
  match entry.2 with
  | none => []
  | some wires => wires.aliases entry.1 id

/-- `_module_port_aliases`, for one net -/
def modulePortAliases (module : Module) (id : ℤ) : List String :=
  match module.ports with
  | none => []
  | some ports =>
    ports.flatMap (entryAliases id) ++
      ((module.netnames.getD []).filter fun entry => entry.1.toList.head? ≠ some '$').flatMap
        (entryAliases id)

/-- `stable_aliases.get(bit, set())` -/
def stableAliases (module : Module) : Bit → List String
  | .net id => modulePortAliases module id
  | .const _ => []

/-! ## The comparison -/

/-- A scalar connection: its cell and port, its bit, and the text in the netlist. -/
structure Connection where
  endpoint : ℕ × String
  bit : Bit
  signal : List Char

/-- The connection of one port, if it is scalar. -/
def alignPort (moduleName : String) (module : Module) (index : ℕ) (jsonName : String)
    (emitted : List (String × String)) (entry : String × List Bit) :
    Except SourceMapError (Option Connection) :=
  match entry.2 with
  | [bit] => do
    let signal := ((emitted.lookup entry.1).getD "").toList
    require (signal.head? ≠ some '{' ∧ ',' ∉ signal) (.scalarConnection moduleName)
    let normalized := normalizeConstant isDecimal signal
    let aliases := stableAliases module bit
    require (aliases = [] ∨ (aliases.map String.toList).contains normalized)
      (.connectivity moduleName jsonName entry.1 aliases normalized)
    match bit with
    | .net _ => pure ()
    | .const value =>
      require (normalized = normalizeConstant isDecimal [value.char]) (.constant moduleName)
    return some ⟨(index, entry.1), bit, signal⟩
  | _ => return none

def alignCell (moduleName : String) (module : Module) (index : ℕ) (json : JsonCell)
    (emitted : EmittedCell) : Except SourceMapError (List Connection) :=
  match json.cell with
  | .invalid => throw (.cellMapping moduleName)
  | .invalidConnections => throw (.cellConnectivity moduleName)
  | .connections ports => do
    require ((ports.map Prod.fst).toFinset = (emitted.connections.map Prod.fst).toFinset)
      (.portSet moduleName)
    let connections ← ports.mapM
      (alignPort isDecimal moduleName module index json.name emitted.connections)
    return connections.reduceOption

def alignCells (moduleName : String) (module : Module) : ℕ → List JsonCell → List EmittedCell →
    Except SourceMapError (List Connection)
  | _, [], [] => return []
  | index, json :: jsonCells, emitted :: emittedCells => do
    let connections ← alignCell isDecimal moduleName module index json emitted
    let rest ← alignCells moduleName module (index + 1) jsonCells emittedCells
    return connections ++ rest
  | _, _, _ => throw .lengths

/-- `_verify_connectivity_alignment` -/
def verifyConnectivityAlignment (moduleName : String) (module : Module)
    (jsonCells : List JsonCell) (emittedCells : List EmittedCell) :
    Except SourceMapError Unit := do
  let connections ← alignCells isDecimal moduleName module 0 jsonCells emittedCells
  require (Groups.shared connections Connection.endpoint Connection.bit =
      Groups.shared connections Connection.endpoint
        fun connection => normalizeConstant isDecimal connection.signal)
    (.signature moduleName)

end Reading

/-! ## What the comparison accepts -/

/-- A text of one signal. -/
def Plain (signal : List Char) : Prop := signal.head? ≠ some '{' ∧ ',' ∉ signal

instance : DecidablePred Plain := fun _ => inferInstanceAs (Decidable (_ ∧ _))

/-- A cell of the design and its cell of the netlist, with equal port sets and plain texts for the
scalar ports. -/
structure CellPair where
  jsonName : String
  cellType : String
  cellName : String
  ports : List (String × List Bit)
  emitted : List (String × String)
  ports_nodup : (ports.map Prod.fst).Nodup
  ports_eq : (ports.map Prod.fst).toFinset = (emitted.map Prod.fst).toFinset
  plain : ∀ entry ∈ ports, entry.2.length = 1 →
    Plain ((emitted.lookup entry.1).getD "").toList

namespace CellPair

def json (pair : CellPair) : JsonCell := ⟨pair.jsonName, .connections pair.ports⟩

def emittedCell (pair : CellPair) : EmittedCell := ⟨pair.cellType, pair.cellName, pair.emitted⟩

/-- The connection of a scalar port. -/
def connection? (pair : CellPair) (index : ℕ) (entry : String × List Bit) : Option Connection :=
  match entry.2 with
  | [bit] => some ⟨(index, entry.1), bit, ((pair.emitted.lookup entry.1).getD "").toList⟩
  | _ => none

end CellPair

/-- The scalar connections of cells, from an index on. -/
def scalarConnections : ℕ → List CellPair → List Connection
  | _, [] => []
  | index, pair :: pairs =>
    (pair.ports.map (pair.connection? index)).reduceOption ++ scalarConnections (index + 1) pairs

section Accepts

variable {isDecimal : Char → Bool} {moduleName : String} {module : Module} {index : ℕ}

/-- The checks of one connection. -/
def Sound (isDecimal : Char → Bool) (module : Module) (connection : Connection) : Prop :=
  (stableAliases module connection.bit = [] ∨ normalizeConstant isDecimal connection.signal ∈
    (stableAliases module connection.bit).map String.toList) ∧
  ∀ value, connection.bit = .const value →
    normalizeConstant isDecimal connection.signal = normalizeConstant isDecimal [value.char]

theorem alignPort_eq_ok {pair : CellPair} {entry : String × List Bit} (hentry : entry ∈ pair.ports)
    {found : Option Connection} :
    alignPort isDecimal moduleName module index pair.jsonName pair.emitted entry = .ok found ↔
      (∀ connection ∈ pair.connection? index entry, Sound isDecimal module connection) ∧
        pair.connection? index entry = found := by
  obtain ⟨port, bits⟩ := entry
  unfold alignPort CellPair.connection?
  match bits, pair.plain _ hentry with
  | [bit], hplain =>
    obtain ⟨hbrace, hcomma⟩ := hplain rfl
    have hscalar : ((pair.emitted.lookup port).getD "").toList.head? ≠ some '{' ∧
        ',' ∉ ((pair.emitted.lookup port).getD "").toList := ⟨hbrace, hcomma⟩
    simp only [Option.mem_some_iff, forall_eq']
    cases bit with
    | net id =>
      simp only [seq_eq_ok, require_eq_ok, hscalar, Sound, List.contains_iff_mem, reduceCtorEq, false_implies,
        implies_true, and_true, pure, Except.pure, Except.ok.injEq, true_and, not_false_eq_true,
        ne_eq]
    | const value =>
      simp only [seq_eq_ok, require_eq_ok, hscalar, Sound, List.contains_iff_mem, Bit.const.injEq, forall_eq', pure,
        Except.pure, Except.ok.injEq, true_and, and_assoc, not_false_eq_true, ne_eq]
  | [], _ => simp [pure, Except.pure]
  | _ :: _ :: _, _ => simp [pure, Except.pure]

theorem alignCell_eq_ok {pair : CellPair} {found : List Connection} :
    alignCell isDecimal moduleName module index pair.json pair.emittedCell = .ok found ↔
      (∀ connection ∈ (pair.ports.map (pair.connection? index)).reduceOption,
        Sound isDecimal module connection) ∧
      (pair.ports.map (pair.connection? index)).reduceOption = found := by
  change (require _ _ >>= fun _ => _) = .ok found ↔ _
  rw [seq_eq_ok, require_eq_ok]
  have hports : (pair.ports.map Prod.fst).toFinset =
    (pair.emittedCell.connections.map Prod.fst).toFinset := pair.ports_eq
  have hmapM {connections : List (Option Connection)} :
      pair.ports.mapM (alignPort isDecimal moduleName module index pair.jsonName pair.emitted) =
          .ok connections ↔
        (∀ entry ∈ pair.ports, ∀ connection ∈ pair.connection? index entry,
          Sound isDecimal module connection) ∧
          pair.ports.map (pair.connection? index) = connections :=
    mapM_eq_ok_map fun entry hentry found => alignPort_eq_ok hentry
  change _ ∧ (pair.ports.mapM (alignPort isDecimal moduleName module index pair.jsonName
    pair.emitted) >>= fun _ => _) = _ ↔ _
  simp only [hports, true_and, bind_eq_ok, hmapM, pure, Except.pure, Except.ok.injEq]
  have hmem (connection : Connection) :
      connection ∈ (pair.ports.map (pair.connection? index)).reduceOption ↔
        ∃ entry ∈ pair.ports, pair.connection? index entry = some connection := by
    rw [List.reduceOption_mem_iff, List.mem_map]
  simp only [hmem, Option.mem_def]
  grind

theorem alignCells_eq_ok {pairs : List CellPair} {found : List Connection} :
    alignCells isDecimal moduleName module index (pairs.map CellPair.json)
        (pairs.map CellPair.emittedCell) = .ok found ↔
      (∀ connection ∈ scalarConnections index pairs, Sound isDecimal module connection) ∧
        scalarConnections index pairs = found := by
  induction pairs generalizing index found with
  | nil => simp [alignCells, scalarConnections, pure, Except.pure]
  | cons pair pairs ih =>
    simp only [List.map_cons, alignCells, bind_eq_ok, alignCell_eq_ok, ih, pure, Except.pure,
      Except.ok.injEq, scalarConnections, List.forall_mem_append]
    grind

theorem endpoint_of_connection? {pair : CellPair} {entry : String × List Bit}
    {connection : Connection} (h : pair.connection? index entry = some connection) :
    connection.endpoint = (index, entry.1) := by
  unfold CellPair.connection? at h
  split at h
  · rw [← Option.some.inj h]
  · cases h

theorem index_of_mem {pair : CellPair} {connection : Connection}
    (h : connection ∈ (pair.ports.map (pair.connection? index)).reduceOption) :
    connection.endpoint.1 = index := by
  rw [List.reduceOption_mem_iff] at h
  obtain ⟨entry, -, hentry⟩ := List.mem_map.mp h
  rw [endpoint_of_connection? hentry]

theorem le_index_of_mem {pairs : List CellPair} {connection : Connection}
    (h : connection ∈ scalarConnections index pairs) : index ≤ connection.endpoint.1 := by
  induction pairs generalizing index with
  | nil => cases h
  | cons pair pairs ih =>
    rcases List.mem_append.mp h with h | h
    · rw [index_of_mem h]
    · exact Nat.le_of_succ_le (ih h)

theorem endpoints_nodup (index : ℕ) (pairs : List CellPair) :
    ((scalarConnections index pairs).map Connection.endpoint).Nodup := by
  induction pairs generalizing index with
  | nil => exact List.nodup_nil
  | cons pair pairs ih =>
    rw [scalarConnections, List.map_append]
    refine List.nodup_append.mpr ⟨?_, ih (index + 1), ?_⟩
    · -- the endpoints of one cell are its ports, in order
      have hsublist : (((pair.ports.map (pair.connection? index)).reduceOption).map
          Connection.endpoint).Sublist (pair.ports.map fun entry => (index, entry.1)) := by
        generalize pair.ports = ports
        induction ports with
        | nil => exact .slnil
        | cons entry ports ihports =>
          rw [List.map_cons, List.map_cons]
          cases hentry : pair.connection? index entry with
          | none =>
            rw [List.reduceOption_cons_of_none]
            exact ihports.cons _
          | some connection =>
            rw [List.reduceOption_cons_of_some, List.map_cons, endpoint_of_connection? hentry]
            exact ihports.cons_cons _
      refine hsublist.nodup ?_
      have hports := pair.ports_nodup.map (Prod.mk_right_injective index)
      rwa [List.map_map] at hports
    · rintro _ hhere _ hthere rfl
      obtain ⟨here, hmemhere, rfl⟩ := List.mem_map.mp hhere
      obtain ⟨there, hmemthere, heq⟩ := List.mem_map.mp hthere
      have hle := le_index_of_mem hmemthere
      rw [heq, index_of_mem hmemhere] at hle
      omega

/-- The comparison accepts what is sound and has the same classes on both sides, as read. -/
theorem accepts_iff {pairs : List CellPair} :
    verifyConnectivityAlignment isDecimal moduleName module (pairs.map CellPair.json)
        (pairs.map CellPair.emittedCell) = .ok () ↔
      (∀ connection ∈ scalarConnections 0 pairs, Sound isDecimal module connection) ∧
        ∀ c ∈ scalarConnections 0 pairs, ∀ d ∈ scalarConnections 0 pairs,
          c.bit = d.bit ↔
            normalizeConstant isDecimal c.signal = normalizeConstant isDecimal d.signal := by
  rw [verifyConnectivityAlignment, bind_eq_ok]
  simp only [alignCells_eq_ok, and_assoc, exists_and_left, exists_eq_left', require_eq_ok,
    Groups.shared_eq_iff (endpoints_nodup 0 pairs)]

end Accepts

/-! ## What the texts mean -/

/-- A constant or an identifier. -/
inductive Signal where
  | const (value : Constant)
  | name (text : List Char)
  deriving DecidableEq

section Meaning

variable (isDecimal : Char → Bool)

/-- What a text stands for: an identifier after a backslash, else a constant where it looks like
one. -/
def meaning (text : List Char) : Signal :=
  match text with
  | '\\' :: name => .name name
  | _ => match readConstant isDecimal text with
    | some value => .const value
    | none => .name text

/-- The connections of a netlist that stands for the module. -/
structure Aligned (module : Module) (connections : List Connection) : Prop where
  constants : ∀ c ∈ connections, ∀ value, c.bit = .const value →
    meaning isDecimal c.signal = .const value
  aliases : ∀ c ∈ connections, stableAliases module c.bit ≠ [] →
    ∃ a ∈ stableAliases module c.bit, meaning isDecimal c.signal = .name a.toList
  classes : ∀ c ∈ connections, ∀ d ∈ connections,
    c.bit = d.bit ↔ meaning isDecimal c.signal = meaning isDecimal d.signal

/-- The comparison accepts the cells exactly if they are aligned. -/
def Agrees (moduleName : String) (module : Module) (pairs : List CellPair) : Prop :=
  verifyConnectivityAlignment isDecimal moduleName module (pairs.map CellPair.json)
      (pairs.map CellPair.emittedCell) = .ok () ↔
    Aligned isDecimal module (scalarConnections 0 pairs)

end Meaning

/-- The texts, constants and aliases that a design and its netlist may use. -/
structure Vocabulary where
  signals : Set (List Char)
  constants : Set Constant
  aliases : Set String
  plain : ∀ signal ∈ signals, Plain signal

namespace Vocabulary

/-- The scalar connections use the vocabulary. -/
structure Covers (vocabulary : Vocabulary) (module : Module) (pairs : List CellPair) : Prop where
  signal_mem : ∀ c ∈ scalarConnections 0 pairs, c.signal ∈ vocabulary.signals
  constant_mem : ∀ c ∈ scalarConnections 0 pairs, ∀ value, c.bit = .const value →
    value ∈ vocabulary.constants
  alias_mem : ∀ c ∈ scalarConnections 0 pairs, ∀ a ∈ stableAliases module c.bit,
    a ∈ vocabulary.aliases

/-- Texts that mean different things are normalized to different texts: no two signals, no signal
and constant, and no signal and alias are taken for one another. -/
structure Unambiguous (isDecimal : Char → Bool) (vocabulary : Vocabulary) : Prop where
  signals : ∀ s ∈ vocabulary.signals, ∀ t ∈ vocabulary.signals,
    normalizeConstant isDecimal s = normalizeConstant isDecimal t →
      meaning isDecimal s = meaning isDecimal t
  constants : ∀ s ∈ vocabulary.signals, ∀ value ∈ vocabulary.constants,
    normalizeConstant isDecimal s = [value.char] ↔ meaning isDecimal s = .const value
  aliases : ∀ s ∈ vocabulary.signals, ∀ a ∈ vocabulary.aliases,
    normalizeConstant isDecimal s = a.toList ↔ meaning isDecimal s = .name a.toList

end Vocabulary

section Meaning

variable {isDecimal : Char → Bool} {moduleName : String} {module : Module}
  {vocabulary : Vocabulary} {pairs : List CellPair}

/-- The text that a signal is normalized to. -/
def Signal.normalized (isDecimal : Char → Bool) : Signal → List Char
  | .const value => [value.normalized]
  | .name text =>
    match readConstant isDecimal text with
    | some value => [value.normalized]
    | none => text

theorem normalizeConstant_eq (text : List Char) :
    normalizeConstant isDecimal text = (meaning isDecimal text).normalized isDecimal := by
  unfold meaning
  split
  next name => rfl
  next hname =>
    have hslash : withoutBackslash text = text := by
      unfold withoutBackslash
      split
      next name => exact absurd rfl (hname name)
      next => rfl
    rw [normalizeConstant, hslash]
    cases h : readConstant isDecimal text with
    | some value => rfl
    | none => simp only [Signal.normalized, h]

theorem normalizeConstant_char (value : Constant) :
    normalizeConstant isDecimal [value.char] = [value.char] := by
  have hread : readConstant isDecimal [value.char] = none := by
    unfold readConstant
    cases hdecimal : isDecimal value.char <;> cases value <;>
      simp_all [List.dropWhile, Constant.char]
  have hslash : withoutBackslash [value.char] = [value.char] := by
    cases value <;> rfl
  rw [normalizeConstant, hslash, hread]

theorem stableAliases_const (value : Constant) : stableAliases module (.const value) = [] := rfl

/-- The checks of a connection, where nothing is ambiguous. -/
theorem sound_iff (module : Module) (hclear : vocabulary.Unambiguous isDecimal) {c : Connection}
    (hsignal : c.signal ∈ vocabulary.signals)
    (hconstant : ∀ value, c.bit = .const value → value ∈ vocabulary.constants)
    (halias : ∀ a ∈ stableAliases module c.bit, a ∈ vocabulary.aliases) :
    Sound isDecimal module c ↔
      (∀ value, c.bit = .const value → meaning isDecimal c.signal = .const value) ∧
      (stableAliases module c.bit ≠ [] →
        ∃ a ∈ stableAliases module c.bit, meaning isDecimal c.signal = .name a.toList) := by
  rw [Sound, and_comm]
  refine and_congr (forall₂_congr fun value hvalue => ?_) ?_
  · rw [normalizeConstant_char]
    exact hclear.constants _ hsignal _ (hconstant value hvalue)
  · rw [or_iff_not_imp_left, List.mem_map]
    refine imp_congr_right fun _ => exists_congr fun a => and_congr_right fun hmem => ?_
    rw [eq_comm]
    exact hclear.aliases _ hsignal _ (halias a hmem)

theorem agrees_of_unambiguous (hclear : vocabulary.Unambiguous isDecimal)
    (hcovers : vocabulary.Covers module pairs) : Agrees isDecimal moduleName module pairs := by
  have hsound (c : Connection) (hc : c ∈ scalarConnections 0 pairs) :=
    sound_iff module hclear (hcovers.signal_mem c hc) (hcovers.constant_mem c hc)
      (hcovers.alias_mem c hc)
  have hequal (c : Connection) (hc : c ∈ scalarConnections 0 pairs) (d : Connection)
      (hd : d ∈ scalarConnections 0 pairs) :
      normalizeConstant isDecimal c.signal = normalizeConstant isDecimal d.signal ↔
        meaning isDecimal c.signal = meaning isDecimal d.signal := by
    refine ⟨hclear.signals _ (hcovers.signal_mem c hc) _ (hcovers.signal_mem d hd), fun h => ?_⟩
    rw [normalizeConstant_eq, normalizeConstant_eq, h]
  rw [Agrees, accepts_iff]
  constructor
  · rintro ⟨hall, hclasses⟩
    exact ⟨fun c hc => ((hsound c hc).mp (hall c hc)).1,
      fun c hc => ((hsound c hc).mp (hall c hc)).2,
      fun c hc d hd => (hclasses c hc d hd).trans (hequal c hc d hd)⟩
  · rintro ⟨hconstants, haliases, hclasses⟩
    exact ⟨fun c hc => (hsound c hc).mpr ⟨hconstants c hc, haliases c hc⟩,
      fun c hc d hd => (hclasses c hc d hd).trans (hequal c hc d hd).symm⟩

/-- Ordinary texts are unambiguous: no constant `z`, no identifier that reads as a constant or as
the digit of one, and no alias that is such a digit. -/
theorem unambiguous_of_ordinary
    (hconst : ∀ s ∈ vocabulary.signals, meaning isDecimal s ≠ .const .z)
    (hname : ∀ s ∈ vocabulary.signals, ∀ text, meaning isDecimal s = .name text →
      readConstant isDecimal text = none ∧ ∀ value : Constant, text ≠ [value.char])
    (halias : ∀ a ∈ vocabulary.aliases, ∀ value : Constant, a.toList ≠ [value.char]) :
    vocabulary.Unambiguous isDecimal := by
  have hconstant {value : Constant} (h : value ≠ .z) : value.normalized = value.char := by
    cases value with
    | z => exact absurd rfl h
    | _ => rfl
  have hinj {v w : Constant} (h : [v.char] = [w.char]) : v = w := by
    cases v <;> cases w <;> first | rfl | exact absurd h (by decide)
  -- a signal is normalized to the digit of a constant or to its identifier
  have hnormalized (s : List Char) (hs : s ∈ vocabulary.signals) :
      (∃ value ≠ Constant.z, meaning isDecimal s = .const value ∧
        normalizeConstant isDecimal s = [value.char]) ∨
      (meaning isDecimal s = .name (normalizeConstant isDecimal s) ∧
        ∀ value : Constant, normalizeConstant isDecimal s ≠ [value.char]) := by
    cases hmeaning : meaning isDecimal s with
    | const value =>
      have hvalue : value ≠ .z := by
        rintro rfl
        exact hconst s hs hmeaning
      refine .inl ⟨value, hvalue, rfl, ?_⟩
      rw [normalizeConstant_eq, hmeaning, Signal.normalized, hconstant hvalue]
    | name text =>
      obtain ⟨hread, hchar⟩ := hname s hs text hmeaning
      have htext : normalizeConstant isDecimal s = text := by
        simp only [normalizeConstant_eq, hmeaning, Signal.normalized, hread]
      exact .inr ⟨by rw [htext], by rwa [htext]⟩
  refine ⟨fun s hs t ht heq => ?_, fun s hs value hvalue => ?_, fun s hs a ha => ?_⟩
  · obtain ⟨v, -, hv, hsv⟩ | ⟨hv, hsv⟩ := hnormalized s hs <;>
      obtain ⟨w, -, hw, htw⟩ | ⟨hw, htw⟩ := hnormalized t ht
    · rw [hsv, htw] at heq
      rw [hv, hw, hinj heq]
    · exact absurd (heq ▸ hsv) (htw v)
    · exact absurd (heq ▸ htw) (hsv w)
    · rw [hv, hw, heq]
  · obtain ⟨v, -, hv, hsv⟩ | ⟨hv, hsv⟩ := hnormalized s hs
    · rw [hv, hsv, Signal.const.injEq]
      exact ⟨hinj, congrArg fun digit : Constant => [digit.char]⟩
    · rw [hv]
      exact iff_of_false (hsv value) Signal.noConfusion
  · obtain ⟨v, -, hv, hsv⟩ | ⟨hv, hsv⟩ := hnormalized s hs
    · rw [hv, hsv]
      exact iff_of_false (halias a ha v).symm Signal.noConfusion
    · rw [hv, Signal.name.injEq]

/-! ## Ambiguous texts mislead the comparison -/

/-- A cell with one port, of one bit. -/
def CellPair.onePort (bit : Bit) (signal : List Char) (h : Plain signal) : CellPair where
  jsonName := "$1"
  cellType := "BUF"
  cellName := "_0_"
  ports := [("A", [bit])]
  emitted := [("A", String.ofList signal)]
  ports_nodup := List.nodup_singleton _
  ports_eq := rfl
  plain := by
    intro entry hentry _
    rw [List.mem_singleton.mp hentry]
    change Plain (String.ofList signal).toList
    rwa [String.toList_ofList]

theorem scalarConnections_onePort {bit : Bit} {signal : List Char} (h : Plain signal)
    (index : ℕ) : scalarConnections index [.onePort bit signal h] =
      [⟨(index, "A"), bit, signal⟩] := by
  change [Connection.mk (index, "A") bit (String.ofList signal).toList] = _
  rw [String.toList_ofList]

theorem scalarConnections_onePort_onePort {bit bit' : Bit} {signal signal' : List Char}
    (h : Plain signal) (h' : Plain signal') :
    scalarConnections 0 [.onePort bit signal h, .onePort bit' signal' h'] =
      [⟨(0, "A"), bit, signal⟩, ⟨(1, "A"), bit', signal'⟩] := by
  change Connection.mk (0, "A") bit (String.ofList signal).toList ::
    scalarConnections 1 [.onePort bit' signal' h'] = _
  rw [String.toList_ofList, scalarConnections_onePort]

/-- A module without ports. -/
def noPorts : Module := ⟨none, none⟩

/-- A module whose only port is the net 0. -/
def inputPort (name : String) : Module := ⟨some [(name, some ⟨[.net 0], 0⟩)], none⟩

theorem stableAliases_noPorts (bit : Bit) : stableAliases noPorts bit = [] := by
  cases bit <;> rfl

theorem stableAliases_inputPort (name : String) :
    stableAliases (inputPort name) (.net 0) = [name] := rfl

variable {bit bit' : Bit} {s t : List Char}

theorem covers_onePort (hp : Plain s) (hs : s ∈ vocabulary.signals)
    (hconstant : ∀ value, bit = .const value → value ∈ vocabulary.constants)
    (halias : ∀ a ∈ stableAliases module bit, a ∈ vocabulary.aliases) :
    vocabulary.Covers module [.onePort bit s hp] := by
  constructor <;> rw [scalarConnections_onePort] <;> intro c hc <;>
    obtain rfl := List.mem_singleton.mp hc
  · exact hs
  · exact hconstant
  · exact halias

/-- On one connection only the checks of the connection matter. -/
theorem agrees_onePort (hp : Plain s) :
    Agrees isDecimal moduleName module [.onePort bit s hp] ↔
      (Sound isDecimal module ⟨(0, "A"), bit, s⟩ ↔
        (∀ value, bit = .const value → meaning isDecimal s = .const value) ∧
        (stableAliases module bit ≠ [] →
          ∃ a ∈ stableAliases module bit, meaning isDecimal s = .name a.toList)) := by
  rw [Agrees, accepts_iff, scalarConnections_onePort]
  refine iff_congr ?_ ?_
  · simp only [List.forall_mem_singleton, and_true]
  · refine ⟨fun h => ⟨h.constants _ List.mem_cons_self, h.aliases _ List.mem_cons_self⟩,
      fun ⟨hconstants, haliases⟩ => ⟨?_, ?_, ?_⟩⟩
    · simpa only [List.forall_mem_singleton] using hconstants
    · simpa only [List.forall_mem_singleton] using haliases
    · simp only [List.forall_mem_singleton]

/-- A cell with a floating input. -/
def floatingInput : CellPair := .onePort (.const .z) ['1', '\'', 'h', 'z'] (by decide)

end Meaning

end NovaRtl.SourceMap
