import Mathlib.Data.Fin.Basic
import Mathlib.Logic.Relation
import Mathlib.Order.Fin.Basic
import Mathlib.Order.MinMax

/-!
# Disjoint sets

Sets of the numbers below `n` in a table of parents. Every link goes down, so that the walk to a
root ends and the root is the smallest number of its set. Finding a root rewrites the table, but no
root changes.
-/

/-- A table of parents whose links go down. -/
structure ParentForest (n : ℕ) where
  parent : Fin n → Fin n
  parent_le : ∀ i, parent i ≤ i

namespace ParentForest

open Relation

variable {n : ℕ} (forest : ParentForest n) {i j : Fin n}

/-- Every number is a root. -/
def singletons (n : ℕ) : ParentForest n := ⟨id, fun _ => le_rfl⟩

theorem parent_lt (h : forest.parent i ≠ i) : forest.parent i < i :=
  lt_of_le_of_ne (forest.parent_le i) h

/-- The root of the set of a number. -/
def root (i : Fin n) : Fin n :=
  if forest.parent i = i then i else root (forest.parent i)
termination_by i
decreasing_by exact forest.parent_lt ‹_›

/-- Give a number a smaller parent. -/
def setParent (i j : Fin n) (hle : j ≤ i) : ParentForest n where
  parent := Function.update forest.parent i j
  parent_le k := by
    rcases eq_or_ne k i with rfl | hne
    · rwa [Function.update_self]
    · rw [Function.update_of_ne hne]
      exact forest.parent_le k

@[simp]
theorem setParent_self (hle : j ≤ i) : (forest.setParent i j hle).parent i = j :=
  Function.update_self ..

theorem setParent_of_ne (hle : j ≤ i) {k : Fin n} (hne : k ≠ i) :
    (forest.setParent i j hle).parent k = forest.parent k :=
  Function.update_of_ne hne ..

/-- Link a number to the parent of its parent. -/
def halve (i : Fin n) : ParentForest n :=
  forest.setParent i (forest.parent (forest.parent i))
    ((forest.parent_le _).trans (forest.parent_le i))

theorem halve_parent_self : (forest.halve i).parent i = forest.parent (forest.parent i) :=
  forest.setParent_self _

/-- The root of a number, with the path to it halved. -/
def find (forest : ParentForest n) (i : Fin n) : ParentForest n × Fin n :=
  if forest.parent i = i then (forest, i)
  else find (forest.halve i) ((forest.halve i).parent i)
termination_by i
decreasing_by
  rw [halve_parent_self]
  exact (forest.parent_le _).trans_lt (forest.parent_lt ‹_›)

/-- Join the sets of two numbers: the smaller root becomes the parent of the other. -/
def union (first second : Fin n) : ParentForest n :=
  let (forest, firstRoot) := forest.find first
  let (forest, secondRoot) := forest.find second
  if firstRoot ≠ secondRoot then
    forest.setParent (max firstRoot secondRoot) (min firstRoot secondRoot) min_le_max
  else forest

/-! ## Roots -/

theorem root_of_parent_eq (h : forest.parent i = i) : forest.root i = i := by
  rw [root, if_pos h]

@[simp]
theorem root_parent : forest.root (forest.parent i) = forest.root i := by
  conv_rhs => rw [root]
  split
  · next h => rw [h, forest.root_of_parent_eq h]
  · rfl

/-- A function that links do not change and that fixes the numbers without a link is the root. -/
theorem root_eq (g : Fin n → Fin n) (hparent : ∀ k, g (forest.parent k) = g k)
    (hfixed : ∀ k, forest.parent k = k → g k = k) (i : Fin n) : forest.root i = g i := by
  induction i using root.induct forest with
  | case1 i h => rw [forest.root_of_parent_eq h, hfixed i h]
  | case2 i h ih => rw [← root_parent, ih, hparent]

theorem parent_root (i : Fin n) : forest.parent (forest.root i) = forest.root i := by
  induction i using root.induct forest with
  | case1 i h => rw [forest.root_of_parent_eq h, h]
  | case2 i h ih => rwa [root_parent] at ih

@[simp]
theorem root_root : forest.root (forest.root i) = forest.root i :=
  forest.root_of_parent_eq (forest.parent_root i)

@[simp]
theorem root_singletons : (singletons n).root i = i :=
  root_of_parent_eq _ rfl

theorem root_halve (i j : Fin n) : (forest.halve i).root j = forest.root j := by
  refine root_eq _ forest.root (fun k => ?_) (fun k hk => ?_) j
  · rcases eq_or_ne k i with rfl | hne
    · rw [halve_parent_self, root_parent, root_parent]
    · rw [halve, forest.setParent_of_ne _ hne, root_parent]
  · rcases eq_or_ne k i with rfl | hne
    · rw [halve_parent_self] at hk
      refine forest.root_of_parent_eq (le_antisymm (forest.parent_le k) ?_)
      calc k = forest.parent (forest.parent k) := hk.symm
        _ ≤ forest.parent k := forest.parent_le _
    · rw [halve, forest.setParent_of_ne _ hne] at hk
      exact forest.root_of_parent_eq hk

/-- The search returns the root and changes none. -/
theorem find_spec (i : Fin n) :
    (forest.find i).2 = forest.root i ∧ ∀ j, (forest.find i).1.root j = forest.root j := by
  induction forest, i using find.induct with
  | case1 forest i h =>
    rw [find, if_pos h]
    exact ⟨(forest.root_of_parent_eq h).symm, fun _ => rfl⟩
  | case2 forest i h ih =>
    rw [find, if_neg h]
    refine ⟨?_, fun j => ?_⟩
    · rw [ih.1, root_parent, root_halve]
    · rw [ih.2, root_halve]

/-- A root that gets a smaller root as its parent. -/
theorem root_setParent (hi : forest.parent i = i) (hj : forest.parent j = j) (hlt : j < i)
    (k : Fin n) : (forest.setParent i j hlt.le).root k =
      if forest.root k = i then j else forest.root k := by
  refine root_eq _ (fun k => if forest.root k = i then j else forest.root k)
    (fun k => ?_) (fun k hk => ?_) k
  · rcases eq_or_ne k i with rfl | hne
    · rw [setParent_self, if_pos (forest.root_of_parent_eq hi), forest.root_of_parent_eq hj,
        if_neg hlt.ne]
    · rw [forest.setParent_of_ne _ hne, root_parent]
  · rcases eq_or_ne k i with rfl | hne
    · rw [setParent_self] at hk
      exact absurd hk hlt.ne
    · rw [forest.setParent_of_ne _ hne] at hk
      rw [forest.root_of_parent_eq hk, if_neg hne]

/-- The numbers of two sets get the smaller of the two roots. -/
theorem root_union (first second k : Fin n) : (forest.union first second).root k =
    if forest.root k = forest.root first ∨ forest.root k = forest.root second then
      min (forest.root first) (forest.root second)
    else forest.root k := by
  obtain ⟨hfirst, hfind⟩ := forest.find_spec first
  obtain ⟨hsecond, hfind'⟩ := (forest.find first).1.find_spec second
  rw [hfind] at hsecond
  have hroots : ∀ k, ((forest.find first).1.find second).1.root k = forest.root k := fun k => by
    rw [hfind', hfind]
  have hparents : ∀ k, ((forest.find first).1.find second).1.parent (forest.root k) =
      forest.root k := fun k => by
    rw [← hroots k]
    exact parent_root _ k
  simp only [union, hfirst, hsecond]
  split
  · next hne =>
    rcases lt_or_gt_of_ne hne with hlt | hlt
    · simp only [max_eq_right hlt.le, min_eq_left hlt.le]
      rw [root_setParent _ (hparents _) (hparents _) hlt, hroots]
      grind
    · simp only [max_eq_left hlt.le, min_eq_right hlt.le]
      rw [root_setParent _ (hparents _) (hparents _) hlt, hroots]
      grind
  · next heq =>
    rw [hroots]
    grind

/-! ## Sets -/

/-- Two numbers of one set. -/
def Joined (i j : Fin n) : Prop := forest.root i = forest.root j

theorem joined_equivalence : Equivalence forest.Joined :=
  ⟨fun _ => rfl, Eq.symm, Eq.trans⟩

/-- What is joined once two numbers are. -/
def JoinedBy (pairs : List (Fin n × Fin n)) : Fin n → Fin n → Prop :=
  EqvGen fun a b => forest.Joined a b ∨ (a, b) ∈ pairs

instance (pairs : List (Fin n × Fin n)) : IsEquiv (Fin n) (forest.JoinedBy pairs) :=
  (EqvGen.is_equivalence _).isEquiv

/-- A number and its root after a union. -/
theorem joinedBy_root_union (first second k : Fin n) :
    forest.JoinedBy [(first, second)] k ((forest.union first second).root k) := by
  have hroot (a : Fin n) : forest.JoinedBy [(first, second)] a (forest.root a) :=
    .rel _ _ (.inl (forest.root_root).symm)
  have hpair : forest.JoinedBy [(first, second)] first second :=
    .rel _ _ (.inr (List.mem_singleton_self _))
  have hfirst : forest.JoinedBy [(first, second)] first
      (min (forest.root first) (forest.root second)) := by
    rcases min_choice (forest.root first) (forest.root second) with h | h
    · rw [h]
      exact hroot first
    · rw [h]
      exact hpair.trans _ _ _ (hroot second)
  rw [root_union]
  split
  · next h =>
    refine EqvGen.trans _ first _ ?_ hfirst
    rcases h with h | h
    · exact .rel _ _ (.inl h)
    · exact (EqvGen.rel _ _ (.inl h)).trans _ _ _ (hpair.symm _ _)
  · exact hroot k

/-- A union joins its two numbers and what follows from that. -/
theorem joined_union (first second : Fin n) :
    (forest.union first second).Joined i j ↔ forest.JoinedBy [(first, second)] i j := by
  constructor
  · intro h
    have hi := forest.joinedBy_root_union first second i
    have hj := forest.joinedBy_root_union first second j
    rw [← h] at hj
    exact hi.trans _ _ _ (hj.symm _ _)
  · intro h
    induction h with
    | rel a b h =>
      rcases h with h | h
      · rw [Joined, root_union, root_union, h]
      · obtain ⟨rfl, rfl⟩ := Prod.mk.inj (List.mem_singleton.mp h)
        rw [Joined, root_union, root_union, if_pos (.inl rfl), if_pos (.inr rfl)]
    | refl a => exact (joined_equivalence _).refl a
    | symm a b _ ih => exact (joined_equivalence _).symm ih
    | trans a b c _ _ ih ih' => exact (joined_equivalence _).trans ih ih'

/-- After a list of unions two numbers are joined if the pairs connect them. -/
theorem joined_foldl_union (pairs : List (Fin n × Fin n)) :
    (pairs.foldl (fun forest pair => forest.union pair.1 pair.2) forest).Joined i j ↔
      forest.JoinedBy pairs i j := by
  induction pairs generalizing forest with
  | nil =>
    simp only [List.foldl_nil, JoinedBy, List.not_mem_nil, or_false]
    exact forest.joined_equivalence.eqvGen_iff.symm
  | cons pair pairs ih =>
    rw [List.foldl_cons, ih]
    constructor
    · refine EqvGen.eqvGen_le (fun a b hab => ?_) i j
      rcases hab with hab | hab
      · refine EqvGen.mono (fun c d hcd => ?_) a b ((forest.joined_union _ _).mp hab)
        exact hcd.imp_right fun hmem => List.mem_cons.mpr (.inl (List.mem_singleton.mp hmem))
      · exact .rel _ _ (.inr (List.mem_cons_of_mem _ hab))
    · refine EqvGen.eqvGen_le (fun a b hab => ?_) i j
      rcases hab with hab | hab
      · exact .rel _ _ (.inl ((forest.joined_union _ _).mpr (.rel _ _ (.inl hab))))
      · rcases List.mem_cons.mp hab with hpair | hmem
        · have hjoined : forest.JoinedBy [(pair.1, pair.2)] a b :=
            .rel _ _ (.inr (List.mem_singleton.mpr hpair))
          exact .rel _ _ (.inl ((forest.joined_union _ _).mpr hjoined))
        · exact .rel _ _ (.inr hmem)

/-- From single numbers, exactly the pairs connect. -/
theorem joinedBy_singletons (pairs : List (Fin n × Fin n)) :
    (singletons n).JoinedBy pairs i j ↔ EqvGen (fun a b => (a, b) ∈ pairs) i j := by
  constructor
  · refine EqvGen.eqvGen_le (fun a b hab => ?_) i j
    rcases hab with hab | hab
    · rw [Joined, root_singletons, root_singletons] at hab
      exact hab ▸ .refl a
    · exact .rel _ _ hab
  · exact EqvGen.mono (fun a b hab => .inr hab) i j

end ParentForest
