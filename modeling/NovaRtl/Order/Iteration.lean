import Mathlib.Data.List.Dedup

/-!
# Orders of iteration

A set is iterated in some order of its elements. Which order it is may depend on how the elements
were inserted, and on the run.
-/

/-- The order in which a run goes through a set, by the order of insertion. -/
structure SetOrder (α : Type) [DecidableEq α] where
  iterate : List α → List α
  iterate_perm : ∀ inserted, (iterate inserted).Perm inserted.dedup

theorem SetOrder.mem_iterate {α : Type} [DecidableEq α] (order : SetOrder α) {inserted : List α}
    {a : α} : a ∈ order.iterate inserted ↔ a ∈ inserted := by
  rw [(order.iterate_perm inserted).mem_iff, List.mem_dedup]
