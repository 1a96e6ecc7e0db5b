import NovaRtl.FourState.Bitwise
import NovaRtl.FourState.Reduction
import NovaRtl.Text.Chars

/-!
# Bitwise expressions

Expressions with the binary bitwise operators over the expressions of a source, and the ways in
which they are written: operators associate to the left, `&` binds closer than `^`, and `^`
closer than `|`. White space may surround every expression.

A reduction tree is read as an expression with `Reduction.eval`, whose operators then all are the same.
-/

namespace FourState

namespace Operator

def symbol : Operator → Char
  | and => '&'
  | or => '|'
  | xor => '^'

/-- An operator of a higher level binds closer. -/
def level : Operator → ℕ
  | and => 2
  | xor => 1
  | or => 0

theorem symbol_injective : Function.Injective symbol := by
  intro op op' h
  cases op <;> cases op' <;> simp_all [symbol]

end Operator

inductive Expression (α : Type) where
  | operand (a : α)
  | binary (op : Operator) (left right : Expression α)
  deriving DecidableEq

namespace Expression

variable {α β : Type}

def eval (ρ : α → Vec) : Expression α → Vec
  | operand a => ρ a
  | binary op left right => op.onVecs (left.eval ρ) (right.eval ρ)

def operands : Expression α → List α
  | operand a => [a]
  | binary _ left right => left.operands ++ right.operands

def depth : Expression α → ℕ
  | operand _ => 0
  | binary _ left right => max left.depth right.depth + 1

/-! ## Reduction trees -/

variable {op : Operator} {leaf : β → Expression α}

theorem eval_tree (ρ : α → Vec) (t : Reduction β) :
    (t.eval leaf (binary op)).eval ρ = t.eval (fun b => (leaf b).eval ρ) op.onVecs :=
  t.eval_hom fun _ _ => rfl

/-- A tree of vectors is evaluated bit by bit. -/
theorem digit_eval_tree (value : β → Vec) (t : Reduction β) (i : ℕ) :
    (t.eval value op.onVecs).digit i = t.eval (fun b => (value b).digit i) op.onBits :=
  t.eval_hom (f := fun v : Vec => v.digit i) fun v w => op.digit_onVecs v w i

theorem operands_tree (t : Reduction β) :
    (t.eval leaf (binary op)).operands = t.leaves.flatMap fun b => (leaf b).operands := by
  induction t with
  | leaf b => simp [Reduction.eval, Reduction.leaves]
  | node left right ihleft ihright =>
    rw [Reduction.eval, operands, ihleft, ihright, Reduction.leaves, List.flatMap_append]

theorem operands_tree_operand (t : Reduction α) : (t.eval operand (binary op)).operands = t.leaves := by
  rw [operands_tree]
  exact List.flatMap_singleton' _

theorem depth_tree (t : Reduction α) : (t.eval operand (binary op)).depth = t.depth := by
  induction t with
  | leaf b => rfl
  | node left right ihleft ihright => rw [Reduction.eval, depth, ihleft, ihright, Reduction.depth]

end Expression

/-! ## Text -/

open Text Expression

variable {classes : CharClasses} {operandText : String → Prop}

/-- The text is a way to write the expression where unbracketed operators have at least the given
level. The texts of operands are given. -/
inductive Written (classes : CharClasses) (operandText : String → Prop) :
    ℕ → Expression String → List Char → Prop where
  | operand {level : ℕ} {a : String} (h : operandText a) :
    Written classes operandText level (.operand a) a.toList
  | spaced {level : ℕ} {e : Expression String} {before text after : List Char}
    (hbefore : Blank classes before) (hafter : Blank classes after)
    (h : Written classes operandText level e text) :
    Written classes operandText level e (before ++ text ++ after)
  | bracketed {level : ℕ} {e : Expression String} {text : List Char}
    (h : Written classes operandText 0 e text) :
    Written classes operandText level e ('(' :: text ++ [')'])
  | binary {level : ℕ} {op : Operator} {left right : Expression String} {l r : List Char}
    (hlevel : level ≤ op.level) (hl : Written classes operandText op.level left l)
    (hr : Written classes operandText (op.level + 1) right r) :
    Written classes operandText level (.binary op left right) (l ++ op.symbol :: r)

namespace Written

variable {level : ℕ} {op : Operator} {e : Expression String} {text : List Char}

theorem mono {level' : ℕ} (h : Written classes operandText level e text) (hle : level' ≤ level) :
    Written classes operandText level' e text := by
  induction h generalizing level' with
  | operand h => exact .operand h
  | spaced hbefore hafter _ ih => exact .spaced hbefore hafter (ih hle)
  | bracketed h => exact .bracketed h
  | binary hlevel hl hr => exact .binary (hle.trans hlevel) hl hr

/-- Operands of an operator, written one after the other. -/
theorem serial {β : Type} {leaf : β → Expression String} {b : β} {rest : List β}
    {texts : List (List Char)} (h : Written classes operandText (op.level + 1) (leaf b) text)
    (hrest : List.Forall₂ (fun b text => Written classes operandText (op.level + 1) (leaf b) text)
      rest texts) :
    Written classes operandText op.level ((Reduction.serial b rest).eval leaf (.binary op))
      ([op.symbol].intercalate (text :: texts)) := by
  have hfold (t : Reduction β) (text : List Char)
      (ht : Written classes operandText op.level (t.eval leaf (.binary op)) text) :
      Written classes operandText op.level
        ((rest.foldl (fun tree b => .node tree (.leaf b)) t).eval leaf (.binary op))
        ([op.symbol].intercalate (text :: texts)) := by
    clear h
    induction hrest generalizing t text with
    | nil => simpa using ht
    | @cons b next rest texts hnext _ ih =>
      have hmerge : [op.symbol].intercalate (text :: next :: texts) =
          [op.symbol].intercalate ((text ++ op.symbol :: next) :: texts) := by
        cases texts <;> simp [List.intercalate_cons_cons]
      rw [hmerge]
      apply ih
      exact .binary le_rfl ht hnext
  exact hfold (.leaf b) text (h.mono (Nat.le_succ _))

end Written

end FourState
