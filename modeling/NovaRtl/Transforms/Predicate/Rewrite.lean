import Mathlib.Data.List.Dedup
import Mathlib.Data.List.ReduceOption
import NovaRtl.Transforms.Assignment

/-!
# Factoring of a common predicate

`FactorCommonPredicate` of `transforms/predicate.py`: `match` reads a disjunction of products
with one predicate, `rewrite` replaces it by the product of the predicate and the disjunction of
the values. The hashes are parameters.
-/

namespace NovaRtl.Predicate

open Text Pattern FourState RewriteError

structure PredicateParameters where
  maxTerms : ℕ := 16
  maxFanout : ℕ := 32
  three_le : 3 ≤ maxTerms := by decide
  maxTerms_le : maxTerms ≤ 64 := by decide
  maxFanout_pos : 1 ≤ maxFanout := by decide
  maxFanout_le : maxFanout ≤ 1024 := by decide

theorem PredicateParameters.data_injective :
    Function.Injective fun parameters : PredicateParameters =>
    (parameters.maxTerms, parameters.maxFanout) := by
  rintro ⟨⟩ ⟨⟩ h
  simp_all

instance : DecidableEq PredicateParameters := PredicateParameters.data_injective.decidableEq

structure PredicateContext extends RewriteContext where
  equalWidthsVerified : Bool
  unsignedVerified : Bool
  predicatePure : Bool
  fourStateDistributive : Bool
  estimatedFanoutAfter : ℕ
  estimatedFanoutAfter_pos : 1 ≤ estimatedFanoutAfter

theorem PredicateContext.data_injective : Function.Injective fun context : PredicateContext =>
    ((context.toRewriteContext, context.equalWidthsVerified, context.unsignedVerified),
      context.predicatePure, context.fourStateDistributive, context.estimatedFanoutAfter) := by
  rintro ⟨⟩ ⟨⟩ h
  simp_all

instance : DecidableEq PredicateContext := PredicateContext.data_injective.decidableEq

structure Hashes where
  /-- `canonical_sha256` of a match without its hash. -/
  canonical : PredicateContext → String → String → List String → String
  /-- `"sha256:" + sha256(text.encode("utf-8")).hexdigest()` -/
  ofText : String → String

variable (hashes : Hashes)

structure PredicateMatch where
  context : PredicateContext
  assignmentTarget : String
  predicate : String
  values : List String
  matchHash : String
  assignmentTarget_ne : assignmentTarget ≠ ""
  predicate_ne : predicate ≠ ""
  values_ne : "" ∉ values
  three_le : 3 ≤ values.length
  le_sixtyfour : values.length ≤ 64
  matchHash_eq : matchHash = hashes.canonical context assignmentTarget predicate values

variable {hashes}

theorem PredicateMatch.data_injective : Function.Injective fun m : PredicateMatch hashes =>
    (m.context, m.assignmentTarget, m.predicate, m.values) := by
  rintro ⟨⟩ ⟨⟩ h
  simp_all

instance : DecidableEq (PredicateMatch hashes) := PredicateMatch.data_injective.decidableEq

def PredicateMatch.make (context : PredicateContext) (target predicate : String)
    (values : List String) : Except RewriteError (PredicateMatch hashes) :=
  if h : target ≠ "" ∧ predicate ≠ "" ∧ "" ∉ values ∧ 3 ≤ values.length ∧ values.length ≤ 64 then
    .ok ⟨context, target, predicate, values, hashes.canonical context target predicate values,
      h.1, h.2.1, h.2.2.1, h.2.2.2.1, h.2.2.2.2, rfl⟩
  else .error validation

variable (classes : CharClasses)

/-- `_TERM` -/
def termPattern : Pattern :=
  inOrder [char (· = '('), spaces classes, group "predicate" namePattern, spaces classes,
    char (· = '&'), spaces classes, group "value" namePattern, spaces classes, char (· = ')'),
    atEnd]

/-- `FactorCommonPredicate.match` -/
def match_ (context : PredicateContext) : Except RewriteError (PredicateMatch hashes) := do
  context.checkOwnership message "predicate expression has a protected neighbor"
    "predicate expression must belong to one clock domain"
  require context.equalWidthsVerified (message "operand width equality is not verified")
  require context.unsignedVerified (message "unsigned operand interpretation is not verified")
  require context.predicatePure (message "common predicate is not proven pure")
  require context.fourStateDistributive (message "four-state distributivity is not verified")
  require (¬ (contains "&&" context.sourceText ∨ contains "||" context.sourceText))
    (message "only bitwise predicate factoring is supported")
  require (¬ (unknownLiteral classes).found context.sourceText.toList)
    (message "X/Z literal makes predicate factoring ambiguous")
  match (assignmentPattern classes).fullmatch context.sourceText.toList with
  | none => .error (message "expected a repeated predicate assignment")
  | some assignment =>
    let terms := splitStrip classes '|' (assignment.group "expression")
    let parsed := terms.map (termPattern classes).fullmatch
    require (3 ≤ terms.length ∧ none ∉ parsed)
      (message "expected a repeated predicate bitwise expression")
    let items := parsed.reduceOption
    let predicates := items.map (·.group "predicate")
    require (predicates.dedup.length = 1) (message "terms do not share one common predicate")
    PredicateMatch.make context (String.ofList (assignment.group "target"))
      (String.ofList (predicates.headD [])) (items.map fun item => String.ofList (item.group "value"))

namespace PredicateMatch

variable (m : PredicateMatch hashes)

/-- `FactorCommonPredicate.preflight` -/
def preflight (parameters : PredicateParameters) : Except RewriteError Unit := do
  require (m.values.length ≤ parameters.maxTerms)
    (message "predicate term count exceeds configured bound")
  require (m.context.estimatedFanoutAfter ≤ parameters.maxFanout)
    (message "factored predicate exceeds configured fanout")

def replacement : String :=
  let values := " | ".intercalate m.values
  s!"{m.assignmentTarget} = {m.predicate} & ({values});"

/-- `FactorCommonPredicate.rewrite` -/
def rewrite (parameters : PredicateParameters) : Except RewriteError SourceEdit := do
  m.preflight parameters
  m.context.edit validation (hashes.ofText m.context.sourceText) m.replacement expressionStatement

end PredicateMatch

/-! ## Evaluation of one bit -/

/-- `_four_state_binary`, which takes every operator but `&` for `|`. -/
def fourStateBinary (operator : Operator) (left right : Logic) : Logic :=
  let lhs := seen left
  let rhs := seen right
  if operator = .and then
    if Logic.zero ∈ [lhs, rhs] then .zero else if lhs = .one ∧ rhs = .one then .one else .x
  else if Logic.one ∈ [lhs, rhs] then .one
  else if lhs = .zero ∧ rhs = .zero then .zero else .x

/-- `_fold`, which raises `IndexError` without values. -/
def fold (operator : Operator) : List Logic → Option Logic
  | [] => none
  | value :: rest => some (rest.foldl (fourStateBinary operator) value)

/-- `evaluate_serial` -/
def evaluateSerial (predicate : Logic) (values : List Logic) : Option Logic :=
  fold .or (values.map (fourStateBinary .and predicate))

/-- `evaluate_factored` -/
def evaluateFactored (predicate : Logic) (values : List Logic) : Option Logic :=
  (fold .or values).map (fourStateBinary .and predicate)

end NovaRtl.Predicate
