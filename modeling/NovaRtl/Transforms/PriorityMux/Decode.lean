import NovaRtl.Transforms.PriorityMux.Grammar
import NovaRtl.Transforms.PriorityMux.Rewrite

/-!
# The block that replaces a chain

`decodeOf` is the statement that `rewrite` prints, and `replacementLines_eq` says so.
`chainOf_assignments` and `decodeOf_assignments` are the two meanings: both assign to the target
once, the chain by the first condition that is true, the block by the first one that is equal to
`1'b1`.
-/

namespace NovaRtl.PriorityMux

open FourState

variable {α : Type}

def conditionName : String := "nova_priority_cond"

def matchName : String := "nova_priority_match"

/-- Bit `i` of `nova_priority_match`: condition `i` holds and none before it. -/
def matchBit (i : ℕ) : Expr α :=
  if i = 0 then .bit conditionName 0
  else .and (.bit conditionName i) (.not (.reduceOr (.lower conditionName (i - 1))))

/-- The block of `rewrite`, for arms that are pairs of a condition and a value. -/
def decodeOf (name target : String) (default : α) (arms : List (α × α)) : Stmt α :=
  let last := arms.length - 1
  .block name [(conditionName, last), (matchName, last)]
    (arms.zipIdx.map (fun (arm, i) => .setBit conditionName i (.caseEq (.source arm.1) .one)) ++
      [.setBit matchName 0 (matchBit 0)] ++
      (List.range' 1 last).map (fun i => .setBit matchName i (matchBit i)) ++
      [.case .one (arms.zipIdx.map fun (arm, i) => (.bit matchName i, .assign target arm.2))
        (.assign target default)])

/-! ## Text -/

section Text

variable (text : α → String)

def exprText : Expr α → String
  | .source a => "(" ++ text a ++ ")"
  | .one => "1'b1"
  | .bit name index => name ++ "[" ++ toString index ++ "]"
  | .lower name high => name ++ "[" ++ toString high ++ ":0]"
  | .caseEq left right => "(" ++ exprText left ++ " === " ++ exprText right ++ ")"
  | .and left right => exprText left ++ " & " ++ exprText right
  | .not operand => "~" ++ exprText operand
  | .reduceOr operand => "(|" ++ exprText operand ++ ")"

def indent (lines : List String) : List String := lines.map ("  " ++ ·)

def localLine (declared : String × ℕ) : String :=
  "logic [" ++ toString declared.2 ++ ":0] " ++ declared.1 ++ ";"

/-- A label in front of a statement. -/
def labelled (label : String) : List String → List String
  | [] => []
  | first :: rest => (label ++ ": " ++ first) :: rest

mutual

def stmtLines : Stmt α → List String
  | .assign target value => [target ++ " = " ++ text value ++ ";"]
  | .setBit name index value =>
    [name ++ "[" ++ toString index ++ "] = " ++ exprText text value ++ ";"]
  | .ite condition yes no =>
    ("if " ++ exprText text condition) :: indent (stmtLines yes) ++
      "else" :: indent (stmtLines no)
  | .case subject items default =>
    ("case (" ++ exprText text subject ++ ")") ::
      indent (itemLines items ++ labelled "default" (stmtLines default)) ++ ["endcase"]
  | .block name locals body =>
    ("begin : " ++ name) :: indent (locals.map localLine ++ allLines body) ++ ["end"]

def allLines : List (Stmt α) → List String
  | [] => []
  | stmt :: rest => stmtLines stmt ++ allLines rest

def itemLines : List (Expr α × Stmt α) → List String
  | [] => []
  | (label, stmt) :: rest =>
    labelled (exprText text label) (stmtLines stmt) ++ itemLines rest

end

end Text

variable {text : α → String} {hashes : Hashes} {m : PriorityMuxMatch hashes}

theorem allLines_eq (body : List (Stmt α)) :
    allLines text body = body.flatMap (stmtLines text) := by
  induction body with
  | nil => rfl
  | cons stmt rest ih => rw [allLines, ih, List.flatMap_cons]

theorem itemLines_eq (items : List (Expr α × Stmt α)) :
    itemLines text items =
      items.flatMap fun item => labelled (exprText text item.1) (stmtLines text item.2) := by
  induction items with
  | nil => rfl
  | cons item rest ih => rw [itemLines, ih, List.flatMap_cons]

theorem zipIdx_arms {β : Type} {arms : List (α × α)} {f : PriorityBranch × ℕ → β}
    {g : (α × α) × ℕ → β} (h : arms.map (Prod.map text text) = m.branches.map PriorityBranch.arm)
    (hfg : ∀ arm branch i, text arm.1 = branch.condition → text arm.2 = branch.value →
      g (arm, i) = f (branch, i)) :
    arms.zipIdx.map g = m.branches.zipIdx.map f := by
  have hlength : arms.length = m.branches.length := by simpa using congrArg List.length h
  refine List.ext_getElem (by simpa using hlength) fun i hi hi' => ?_
  rw [List.length_map, List.length_zipIdx] at hi hi'
  have harm := congrArg (·[i]?) h
  simp only [List.getElem?_map, List.getElem?_eq_getElem hi, List.getElem?_eq_getElem hi',
    Option.map_some, Option.some.injEq, Prod.map, PriorityBranch.arm, Prod.mk.injEq] at harm
  simpa using hfg _ _ i harm.1 harm.2

theorem conditionLine_eq (i : ℕ) (a : α) :
    indent (stmtLines text (Stmt.setBit conditionName i (.caseEq (.source a) .one))) =
      [conditionLine i (text a)] := by
  simp only [indent, stmtLines, exprText, List.map_cons, List.map_nil, List.cons.injEq, and_true]
  unfold conditionLine conditionName
  rw [← String.toList_inj]
  simp [toString]

theorem matchLine_eq {i : ℕ} (hi : 1 ≤ i) :
    indent (stmtLines text (Stmt.setBit matchName i (matchBit i))) = [matchLine i] := by
  have hne : i ≠ 0 := by omega
  simp only [indent, stmtLines, matchBit, if_neg hne, exprText, List.map_cons, List.map_nil,
    List.cons.injEq, and_true]
  unfold matchLine conditionName matchName
  rw [← String.toList_inj]
  simp [toString]

theorem itemLine_eq (target : String) (i : ℕ) (value : α) :
    indent (indent (labelled (exprText text (.bit matchName i))
      (stmtLines text (.assign target value)))) = [itemLine target i (text value)] := by
  simp only [indent, labelled, stmtLines, exprText, List.map_cons, List.map_nil, List.cons.injEq,
    and_true]
  unfold itemLine matchName
  rw [← String.toList_inj]
  simp [toString]

theorem localLines_eq (last : ℕ) :
    indent [localLine (conditionName, last), localLine (matchName, last)] =
      [s!"  logic [{last}:0] nova_priority_cond;", s!"  logic [{last}:0] nova_priority_match;"] := by
  simp only [indent, List.map_cons, List.map_nil, List.cons.injEq, and_true]
  unfold localLine conditionName matchName
  rw [← String.toList_inj, ← String.toList_inj]
  simp [toString]

theorem firstMatchLine_eq :
    indent (stmtLines text (.setBit matchName 0 (matchBit 0))) =
      ["  nova_priority_match[0] = nova_priority_cond[0];"] := by
  rw [stmtLines, matchBit, if_pos rfl, exprText]
  decide +kernel

theorem defaultLine_eq (target : String) (value : α) :
    indent (indent (labelled "default" (stmtLines text (.assign target value)))) =
      ["    default: " ++ target ++ " = " ++ text value ++ ";"] := by
  simp only [indent, labelled, stmtLines, List.map_cons, List.map_nil, List.cons.injEq, and_true]
  rw [← String.toList_inj]
  simp

theorem indent_cons (first : String) (rest : List String) :
    indent (first :: rest) = ("  " ++ first) :: indent rest := rfl

theorem indent_append (first second : List String) :
    indent (first ++ second) = indent first ++ indent second := List.map_append

theorem indent_flatMap {β : Type} (f : β → List String) (l : List β) :
    indent (l.flatMap f) = l.flatMap fun b => indent (f b) := List.map_flatMap

theorem allLines_append (first second : List (Stmt α)) :
    allLines text (first ++ second) = allLines text first ++ allLines text second := by
  simp only [allLines_eq, List.flatMap_append]

section

variable {arms : List (α × α)}
  (h : arms.map (Prod.map text text) = m.branches.map PriorityBranch.arm)
include h

theorem conditionLines_eq :
    indent (allLines text (arms.zipIdx.map fun (arm, i) =>
      .setBit conditionName i (.caseEq (.source arm.1) .one))) =
      m.branches.zipIdx.map fun (branch, i) => conditionLine i branch.condition := by
  rw [allLines_eq, indent_flatMap, List.flatMap_map]
  simp only [conditionLine_eq, ← List.map_eq_flatMap]
  exact zipIdx_arms h fun arm branch i hcondition _ => by simp only [hcondition]

theorem itemLines_arms (target : String) :
    indent (indent (itemLines text (arms.zipIdx.map fun (arm, i) =>
      (.bit matchName i, .assign target arm.2)))) =
      m.branches.zipIdx.map fun (branch, i) => itemLine target i branch.value := by
  rw [itemLines_eq, indent_flatMap, indent_flatMap, List.flatMap_map]
  simp only [itemLine_eq, ← List.map_eq_flatMap]
  exact zipIdx_arms h fun arm branch i _ hvalue => by simp only [hvalue]

/-- `rewrite` prints the block. -/
theorem replacementLines_eq {default : α} (hdefault : text default = m.defaultValue) :
    m.replacementLines =
      stmtLines text (decodeOf m.blockName m.assignmentTarget default arms) := by
  have hlength : arms.length = m.branches.length := by simpa using congrArg List.length h
  have hmatches : indent (allLines text ((List.range' 1 (m.branches.length - 1)).map fun i =>
      .setBit matchName i (matchBit i))) =
      (List.range' 1 (m.branches.length - 1)).map matchLine := by
    rw [allLines_eq, indent_flatMap, List.flatMap_map, List.map_eq_flatMap]
    exact List.flatMap_congr fun i hi => matchLine_eq (List.mem_range'_1.mp hi).1
  have hcase : indent (stmtLines text (.case .one (arms.zipIdx.map fun (arm, i) =>
      (.bit matchName i, .assign m.assignmentTarget arm.2)) (.assign m.assignmentTarget default))) =
      ["  case (1'b1)"] ++
        m.branches.zipIdx.map (fun (branch, i) => itemLine m.assignmentTarget i branch.value) ++
        ["    default: " ++ m.assignmentTarget ++ " = " ++ m.defaultValue ++ ";", "  endcase"] := by
    rw [stmtLines, indent_append, indent_cons, indent_append, indent_append, itemLines_arms h,
      defaultLine_eq, hdefault, List.cons_append, List.append_assoc]
    rfl
  have hallLines (stmt : Stmt α) : allLines text [stmt] = stmtLines text stmt :=
    List.append_nil _
  unfold PriorityMuxMatch.replacementLines decodeOf
  rw [stmtLines, indent_append, List.map_cons, List.map_cons, List.map_nil, localLines_eq]
  simp only [allLines_append, indent_append, hallLines, conditionLines_eq h, firstMatchLine_eq,
    hlength, hmatches, hcase]
  simp only [List.append_assoc, List.cons_append, List.nil_append]

end

end NovaRtl.PriorityMux
