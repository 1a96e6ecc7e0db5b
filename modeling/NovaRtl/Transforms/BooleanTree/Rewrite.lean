import NovaRtl.Transforms.Assignment

/-!
# Balancing of bitwise trees

`BalanceBooleanTree` of `transforms/boolean_tree.py`: `match` reads a chain of operands with one
operator, `rewrite` brackets the operands as a balanced tree. The hashes are parameters.
-/

namespace NovaRtl.BooleanTree

open Text Pattern FourState RewriteError

structure BooleanTreeParameters where
  operator : Operator
  maxOperands : ℕ := 16
  four_le : 4 ≤ maxOperands := by decide
  le_sixtyfour : maxOperands ≤ 64 := by decide

theorem BooleanTreeParameters.data_injective :
    Function.Injective fun parameters : BooleanTreeParameters =>
    (parameters.operator, parameters.maxOperands) := by
  rintro ⟨⟩ ⟨⟩ h
  simp_all

instance : DecidableEq BooleanTreeParameters := BooleanTreeParameters.data_injective.decidableEq

structure BooleanTreeContext extends RewriteContext where
  operandWidth : ℕ
  equalWidthsVerified : Bool
  unsignedVerified : Bool
  fourStateAssociative : Bool
  operandWidth_pos : 0 < operandWidth

theorem BooleanTreeContext.data_injective : Function.Injective fun context : BooleanTreeContext =>
    (context.toRewriteContext, context.operandWidth, context.equalWidthsVerified,
      context.unsignedVerified, context.fourStateAssociative) := by
  rintro ⟨⟩ ⟨⟩ h
  simp_all

instance : DecidableEq BooleanTreeContext := BooleanTreeContext.data_injective.decidableEq

structure Hashes where
  /-- `canonical_sha256` of a match without its hash. -/
  canonical : BooleanTreeContext → String → Operator → List String → String
  /-- `"sha256:" + sha256(text.encode("utf-8")).hexdigest()` -/
  ofText : String → String

variable (hashes : Hashes)

structure BooleanTreeMatch where
  context : BooleanTreeContext
  assignmentTarget : String
  operator : Operator
  operands : List String
  matchHash : String
  assignmentTarget_ne : assignmentTarget ≠ ""
  operands_ne : "" ∉ operands
  four_le : 4 ≤ operands.length
  le_sixtyfour : operands.length ≤ 64
  matchHash_eq : matchHash = hashes.canonical context assignmentTarget operator operands

variable {hashes}

theorem BooleanTreeMatch.data_injective : Function.Injective fun m : BooleanTreeMatch hashes =>
    (m.context, m.assignmentTarget, m.operator, m.operands) := by
  rintro ⟨⟩ ⟨⟩ h
  simp_all

instance : DecidableEq (BooleanTreeMatch hashes) := BooleanTreeMatch.data_injective.decidableEq

def BooleanTreeMatch.make (context : BooleanTreeContext) (target : String) (operator : Operator)
    (operands : List String) : Except RewriteError (BooleanTreeMatch hashes) :=
  if h : target ≠ "" ∧ "" ∉ operands ∧ 4 ≤ operands.length ∧ operands.length ≤ 64 then
    .ok ⟨context, target, operator, operands, hashes.canonical context target operator operands,
      h.1, h.2.1, h.2.2.1, h.2.2.2, rfl⟩
  else .error validation

variable (classes : CharClasses)

/-- `_OPERAND` -/
def operandPattern : Pattern :=
  seq (alt namePattern (seq (many1 classes.isDecimal)
    (optional (inOrder (basePatterns ++ [many1 hexRest]))))) atEnd

def isOperand (text : List Char) : Bool := ((operandPattern classes).fullmatch text).isSome

/-- The operators in the expression. -/
def present (expression : List Char) : List Operator :=
  [.and, .or, .xor].filter fun operator => operator.symbol ∈ expression

/-- `BalanceBooleanTree.match` -/
def match_ (context : BooleanTreeContext) : Except RewriteError (BooleanTreeMatch hashes) := do
  context.checkOwnership message "boolean tree has a protected neighbor"
    "boolean tree must belong to exactly one clock domain"
  require context.equalWidthsVerified (message "operand width equality is not verified")
  require context.unsignedVerified (message "unsigned operand interpretation is not verified")
  require context.fourStateAssociative (message "four-state associativity is not verified")
  require (¬ (contains "&&" context.sourceText ∨ contains "||" context.sourceText))
    (message "only bitwise operators are supported")
  require (¬ (unknownLiteral classes).found context.sourceText.toList)
    (message "X/Z literal makes the tree ambiguous")
  match (assignmentPattern classes).fullmatch context.sourceText.toList with
  | none => .error (message "expected a flat associative chain assignment")
  | some matched =>
    let expression := matched.group "expression"
    require (¬ ['(', ')'].any fun c => c ∈ expression)
      (message "expected a flat associative chain assignment")
    match present expression with
    | [operator] =>
      let operands := splitStrip classes operator.symbol expression
      require (4 ≤ operands.length ∧ operands.all (isOperand classes))
        (message "expected a flat associative chain with safe operands")
      BooleanTreeMatch.make context (String.ofList (matched.group "target")) operator
        (operands.map String.ofList)
    | _ => .error (message "expected a single associative operator")

/-- `_balanced`. Python does not return for an empty list, the model gives the empty text. -/
def balancedText (operator : Operator) : List String → String
  | [] => ""
  | operand :: rest =>
    balance id (fun left right => s!"({left} {operator.symbol} {right})") rest.length operand rest

namespace BooleanTreeMatch

variable (m : BooleanTreeMatch hashes)

/-- `BalanceBooleanTree.preflight` -/
def preflight (parameters : BooleanTreeParameters) : Except RewriteError Unit := do
  require (m.operator = parameters.operator)
    (message "requested operator does not match the source tree")
  require (m.operands.length ≤ parameters.maxOperands)
    (message "operand count exceeds configured bound")

def replacement : String := s!"{m.assignmentTarget} = {balancedText m.operator m.operands};"

/-- `BalanceBooleanTree.rewrite` -/
def rewrite (parameters : BooleanTreeParameters) : Except RewriteError SourceEdit := do
  m.preflight parameters
  m.context.edit validation (hashes.ofText m.context.sourceText) m.replacement expressionStatement

end BooleanTreeMatch

/-! ## Evaluation of one bit -/

/-- `_four_state_binary` -/
def fourStateBinary (operator : Operator) (left right : Logic) : Logic :=
  let lhs := seen left
  let rhs := seen right
  match operator with
  | .and => if Logic.zero ∈ [lhs, rhs] then .zero else if lhs = .one ∧ rhs = .one then .one else .x
  | .or => if Logic.one ∈ [lhs, rhs] then .one else if lhs = .zero ∧ rhs = .zero then .zero else .x
  | .xor => if Logic.x ∈ [lhs, rhs] then .x else if lhs ≠ rhs then .one else .zero

/-- `evaluate_serial`, which raises `IndexError` without values. -/
def evaluateSerial (operator : Operator) : List Logic → Option Logic
  | [] => none
  | value :: rest => some (rest.foldl (fourStateBinary operator) value)

/-- `evaluate_balanced`, which raises `RecursionError` without values. -/
def evaluateBalanced (operator : Operator) : List Logic → Option Logic
  | [] => none
  | value :: rest => some (balance seen (fourStateBinary operator) rest.length value rest)

end NovaRtl.BooleanTree
