import NovaRtl.Transforms.PriorityMux.Parser
import NovaRtl.Transforms.RewriteContext

/-!
# The priority-mux rewrite

`RestructurePriorityMux` of `transforms/priority_mux.py`: `match` parses a chain, `rewrite`
replaces it by a block that decodes its conditions into one bit each and branches on these bits
with `case (1'b1)`. The hashes are parameters.
-/

namespace NovaRtl.PriorityMux

open Text PriorityMuxError

structure PriorityMuxParameters where
  maxBranches : ℕ := 8
  two_le : 2 ≤ maxBranches := by decide
  le_sixteen : maxBranches ≤ 16 := by decide

theorem PriorityMuxParameters.data_injective :
    Function.Injective fun parameters : PriorityMuxParameters =>
    parameters.maxBranches := by
  rintro ⟨⟩ ⟨⟩ h
  simp_all

instance : DecidableEq PriorityMuxParameters := PriorityMuxParameters.data_injective.decidableEq

structure PriorityMuxContext extends RewriteContext
  deriving DecidableEq

structure Hashes where
  /-- `canonical_sha256` of a match without its hash. -/
  canonical : PriorityMuxContext → String → List PriorityBranch → String → String
  /-- `"sha256:" + sha256(text.encode("utf-8")).hexdigest()` -/
  ofText : String → String

variable (hashes : Hashes)

structure PriorityMuxMatch where
  context : PriorityMuxContext
  assignmentTarget : String
  branches : List PriorityBranch
  defaultValue : String
  matchHash : String
  assignmentTarget_ne : assignmentTarget ≠ ""
  two_le : 2 ≤ branches.length
  le_sixteen : branches.length ≤ 16
  defaultValue_ne : defaultValue ≠ ""
  matchHash_eq : matchHash = hashes.canonical context assignmentTarget branches defaultValue

variable {hashes}

theorem PriorityMuxMatch.data_injective : Function.Injective fun m : PriorityMuxMatch hashes =>
    (m.context, m.assignmentTarget, m.branches, m.defaultValue) := by
  rintro ⟨⟩ ⟨⟩ h
  simp_all

instance : DecidableEq (PriorityMuxMatch hashes) := PriorityMuxMatch.data_injective.decidableEq

def PriorityMuxMatch.make (context : PriorityMuxContext) (target : String)
    (branches : List PriorityBranch) (default : String) :
    Except PriorityMuxError (PriorityMuxMatch hashes) :=
  if h : target ≠ "" ∧ 2 ≤ branches.length ∧ branches.length ≤ 16 ∧ default ≠ "" then
    .ok ⟨context, target, branches, default, hashes.canonical context target branches default,
      h.1, h.2.1, h.2.2.1, h.2.2.2, rfl⟩
  else .error validation

/-- `RestructurePriorityMux.match` -/
def match_ (classes : CharClasses) (context : PriorityMuxContext) :
    Except PriorityMuxError (PriorityMuxMatch hashes) := do
  context.checkOwnership message "priority mux has a protected neighbor"
    "priority mux must belong to exactly one clock domain"
  let (target, branches, default) ← parse classes context.sourceText
  PriorityMuxMatch.make context target branches default

def conditionLine (index : ℕ) (condition : String) : String :=
  s!"  nova_priority_cond[{index}] = (({condition}) === 1'b1);"

def matchLine (index : ℕ) : String :=
  let below := index - 1
  s!"  nova_priority_match[{index}] = nova_priority_cond[{index}] " ++
    s!"& ~(|nova_priority_cond[{below}:0]);"

def itemLine (target : String) (index : ℕ) (value : String) : String :=
  s!"    nova_priority_match[{index}]: " ++ s!"{target} = {value};"

namespace PriorityMuxMatch

variable (m : PriorityMuxMatch hashes)

def blockName : String :=
  "nova_priority_mux_" ++ String.ofList ((hashDigits m.matchHash).toList.take 10)

/-- The `lines` of `rewrite`. -/
def replacementLines : List String :=
  let last := m.branches.length - 1
  ["begin : " ++ m.blockName,
    s!"  logic [{last}:0] nova_priority_cond;",
    s!"  logic [{last}:0] nova_priority_match;"] ++
  m.branches.zipIdx.map (fun (branch, index) => conditionLine index branch.condition) ++
  ["  nova_priority_match[0] = nova_priority_cond[0];"] ++
  (List.range' 1 last).map matchLine ++
  ["  case (1'b1)"] ++
  m.branches.zipIdx.map (fun (branch, index) => itemLine m.assignmentTarget index branch.value) ++
  ["    default: " ++ m.assignmentTarget ++ " = " ++ m.defaultValue ++ ";", "  endcase", "end"]

def replacement : String := "\n".intercalate m.replacementLines

/-- `SourceEdit(...)`, for the range of the match. -/
def edit : Except PriorityMuxError SourceEdit :=
  m.context.edit validation (hashes.ofText m.context.sourceText) m.replacement conditionalStatement

/-- `RestructurePriorityMux.preflight` -/
def preflight (parameters : PriorityMuxParameters) : Except PriorityMuxError Unit :=
  require (m.branches.length ≤ parameters.maxBranches)
    (message "priority branch count exceeds configured bound")

/-- `RestructurePriorityMux.rewrite` -/
def rewrite (parameters : PriorityMuxParameters) : Except PriorityMuxError SourceEdit := do
  require (m.branches.length ≤ parameters.maxBranches)
    (message "priority branch count exceeds configured bound")
  m.edit

/-- `RestructurePriorityMux.selected_branch` -/
def selectedBranch (conditions : List String) : Except PriorityMuxError ℕ := do
  require (conditions.length = m.branches.length ∧
      conditions.all (· ∈ ["0", "1", "x", "z"]))
    (message "condition vector does not match priority branches")
  .ok (conditions.findIdx (· = "1"))

end PriorityMuxMatch

end NovaRtl.PriorityMux
