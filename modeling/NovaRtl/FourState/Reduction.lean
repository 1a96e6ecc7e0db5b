import Mathlib.Data.Nat.Log
import NovaRtl.FourState.Vector

/-!
# Reductions

A binary operator applied to a list of operands, bracketed as a tree. With an associative
operator the value depends on the leaves only (`eval_eq_of_leaves`), so every bracketing of the
same operands has the same value. `balanced` splits the operands in the middle: it keeps them in
order (`Reduction.leaves_balanced`) and has logarithmic depth (`Reduction.depth_balanced`).
-/

namespace FourState

inductive Reduction (α : Type) where
  | leaf (a : α)
  | node (left right : Reduction α)
  deriving DecidableEq

namespace Reduction

variable {α β γ : Type}

def leaves : Reduction α → List α
  | leaf a => [a]
  | node left right => left.leaves ++ right.leaves

def depth : Reduction α → ℕ
  | leaf _ => 0
  | node left right => max left.depth right.depth + 1

def eval (value : α → β) (op : β → β → β) : Reduction α → β
  | leaf a => value a
  | node left right => op (left.eval value op) (right.eval value op)

/-- A homomorphism may be applied to the leaves. -/
theorem eval_hom {value : α → β} {f : β → γ} {op : β → β → β} {op' : γ → γ → γ}
    (hf : ∀ a b, f (op a b) = op' (f a) (f b)) (t : Reduction α) :
    f (t.eval value op) = t.eval (fun a => f (value a)) op' := by
  induction t with
  | leaf a => rfl
  | node left right ihleft ihright => rw [eval, hf, ihleft, ihright, eval]

/-- The left-associated tree. -/
def serial (a : α) (rest : List α) : Reduction α := rest.foldl (fun tree b => node tree (leaf b)) (leaf a)

theorem leaves_ne_nil (t : Reduction α) : t.leaves ≠ [] := by
  induction t with
  | leaf a => exact List.cons_ne_nil a []
  | node left right ihleft _ => exact List.append_ne_nil_of_left_ne_nil ihleft _

theorem leaves_serial (a : α) (rest : List α) : (serial a rest).leaves = a :: rest := by
  have hfold (t : Reduction α) :
      (rest.foldl (fun tree b => node tree (leaf b)) t).leaves = t.leaves ++ rest := by
    induction rest generalizing t with
    | nil => simp
    | cons b rest ih => rw [List.foldl_cons, ih, leaves, leaves, List.append_assoc, List.singleton_append]
  exact hfold (leaf a)

theorem eval_serial (value : α → β) (op : β → β → β) (a : α) (rest : List α) :
    (serial a rest).eval value op = (rest.map value).foldl op (value a) := by
  have hfold (t : Reduction α) :
      (rest.foldl (fun tree b => node tree (leaf b)) t).eval value op =
        (rest.map value).foldl op (t.eval value op) := by
    induction rest generalizing t with
    | nil => rfl
    | cons b rest ih => exact ih _
  exact hfold (leaf a)

section Associative

variable {value : α → β} {op : β → β → β} [Std.Associative op]

theorem eval_of_leaves {t : Reduction α} {a : α} {rest : List α} (h : t.leaves = a :: rest) :
    t.eval value op = (rest.map value).foldl op (value a) := by
  induction t generalizing a rest with
  | leaf b =>
    obtain ⟨rfl, rfl⟩ := List.cons.inj h
    rfl
  | node left right ihleft ihright =>
    obtain ⟨b, more, hleft⟩ := List.exists_cons_of_ne_nil left.leaves_ne_nil
    obtain ⟨c, others, hright⟩ := List.exists_cons_of_ne_nil right.leaves_ne_nil
    rw [leaves, hleft, hright, List.cons_append] at h
    obtain ⟨rfl, rfl⟩ := List.cons.inj h
    rw [eval, ihleft hleft, ihright hright, List.map_append, List.map_cons, List.foldl_append,
      List.foldl_cons]
    exact List.foldl_assoc.symm

theorem eval_eq_of_leaves {t u : Reduction α} (h : t.leaves = u.leaves) :
    t.eval value op = u.eval value op := by
  obtain ⟨a, rest, hleaves⟩ := List.exists_cons_of_ne_nil u.leaves_ne_nil
  rw [eval_of_leaves hleaves, eval_of_leaves (h.trans hleaves)]

end Associative

end Reduction

section Balance

variable {α β γ : Type}

/-- Splits the operands `a :: rest` in the middle until one is left, in at most `fuel` steps. -/
def balance (leaf : α → β) (node : β → β → β) : (fuel : ℕ) → α → List α → β
  | 0, a, _ => leaf a
  | fuel + 1, a, rest =>
    let midpoint := (rest.length + 1) / 2
    match (a :: rest).drop midpoint with
    | [] => leaf a
    | b :: right =>
      if midpoint = 0 then leaf a
      else node (balance leaf node fuel a (rest.take (midpoint - 1)))
        (balance leaf node fuel b right)

def Reduction.balanced (a : α) (rest : List α) : Reduction α := balance .leaf .node rest.length a rest

/-- Every balanced reduction is one of the balanced tree. -/
theorem balance_eq_eval (leaf : α → β) (node : β → β → β) (fuel : ℕ) (a : α) (rest : List α) :
    balance leaf node fuel a rest = (balance Reduction.leaf Reduction.node fuel a rest).eval leaf node := by
  induction fuel generalizing a rest with
  | zero => rfl
  | succ fuel ih =>
    simp only [balance]
    split
    · rfl
    · split
      · rfl
      · rw [ih, ih, Reduction.eval]

@[simp] theorem balance_singleton (leaf : α → β) (node : β → β → β) (fuel : ℕ) (a : α) :
    balance leaf node fuel a [] = leaf a := by
  cases fuel <;> simp [balance]

/-- What a step does with at least two operands. -/
theorem balance_step (fuel : ℕ) (a : α) {rest : List α} (leaf : α → β) (node : β → β → β)
    (hrest : rest ≠ []) :
    ∃ left b right, rest = left ++ b :: right ∧ left.length = (rest.length + 1) / 2 - 1 ∧
      balance leaf node (fuel + 1) a rest =
        node (balance leaf node fuel a left) (balance leaf node fuel b right) := by
  have hpos : 0 < rest.length := List.length_pos_of_ne_nil hrest
  obtain ⟨k, hk⟩ : ∃ k, (rest.length + 1) / 2 = k + 1 :=
    Nat.exists_eq_succ_of_ne_zero (by omega)
  have hdrop : rest.drop k ≠ [] := by
    rw [Ne, List.drop_eq_nil_iff]
    omega
  obtain ⟨b, right, hb⟩ := List.exists_cons_of_ne_nil hdrop
  refine ⟨rest.take k, b, right, ?_, ?_, ?_⟩
  · rw [← hb, List.take_append_drop]
  · rw [hk, List.length_take]
    omega
  · simp only [balance, hk, List.drop_succ_cons, hb, Nat.add_sub_cancel, Nat.succ_ne_zero, if_false]

theorem leaves_balance {fuel : ℕ} {a : α} {rest : List α} (h : rest.length ≤ fuel) :
    (balance Reduction.leaf Reduction.node fuel a rest).leaves = a :: rest := by
  induction fuel generalizing a rest with
  | zero =>
    obtain rfl := List.length_eq_zero_iff.mp (Nat.le_zero.mp h)
    rfl
  | succ fuel ih =>
    rcases eq_or_ne rest [] with rfl | hrest
    · simp [Reduction.leaves]
    · obtain ⟨left, b, right, hsplit, hlength, hstep⟩ :=
        balance_step fuel a Reduction.leaf Reduction.node hrest
      have htotal := congrArg List.length hsplit
      rw [List.length_append, List.length_cons] at htotal
      rw [hstep, Reduction.leaves, ih (by omega), ih (by omega), hsplit, List.cons_append]

theorem depth_balance {fuel : ℕ} {a : α} {rest : List α} (h : rest.length ≤ fuel) :
    (balance Reduction.leaf Reduction.node fuel a rest).depth = Nat.clog 2 (rest.length + 1) := by
  induction fuel generalizing a rest with
  | zero =>
    obtain rfl := List.length_eq_zero_iff.mp (Nat.le_zero.mp h)
    rfl
  | succ fuel ih =>
    rcases eq_or_ne rest [] with rfl | hrest
    · simp [Reduction.depth]
    · obtain ⟨left, b, right, hsplit, hlength, hstep⟩ :=
        balance_step fuel a Reduction.leaf Reduction.node hrest
      have hpos : 0 < rest.length := List.length_pos_of_ne_nil hrest
      have htotal := congrArg List.length hsplit
      rw [List.length_append, List.length_cons] at htotal
      have hmono : Nat.clog 2 (left.length + 1) ≤ Nat.clog 2 (right.length + 1) :=
        Nat.clog_mono_right 2 (by omega)
      have hhalf : (rest.length + 1 + 2 - 1) / 2 = right.length + 1 := by omega
      rw [hstep, Reduction.depth, ih (by omega), ih (by omega), max_eq_right hmono,
        Nat.clog_of_two_le (n := rest.length + 1) (by omega) (by omega), hhalf]

theorem Reduction.leaves_balanced (a : α) (rest : List α) : (Reduction.balanced a rest).leaves = a :: rest :=
  leaves_balance le_rfl

theorem Reduction.depth_balanced (a : α) (rest : List α) :
    (Reduction.balanced a rest).depth = Nat.clog 2 (rest.length + 1) := depth_balance le_rfl

end Balance

end FourState
