import Mathlib.Data.Fintype.Card
import Mathlib.Data.List.Sort
import Mathlib.Data.Set.Finite.List

/-!
# Frontiers

The members of a list that no other member dominates, for a dominance that is a strict partial
order, and lists that a key orders.
-/

namespace NovaRtl

section Undominated

variable {α : Type} {dom : α → α → Prop} {xs ys : List α} {x y z : α}

/-- `x` is on the frontier of `xs`. -/
def Undominated (dom : α → α → Prop) (xs : List α) (x : α) : Prop :=
  x ∈ xs ∧ ∀ y ∈ xs, ¬ dom y x

/-- Every member is on the frontier or below a member that is. -/
theorem exists_undominated [IsTrans α dom] [Std.Irrefl dom] (hx : x ∈ xs) :
    ∃ y, Undominated dom xs y ∧ (y = x ∨ dom y x) := by
  let below : {y // y ∈ xs} → {y // y ∈ xs} → Prop := fun a b => dom a b
  have : Finite {y // y ∈ xs} := (List.finite_toSet xs).to_subtype
  have : IsTrans _ below := ⟨fun _ _ _ hab hbc => Trans.trans (r := dom) (s := dom) hab hbc⟩
  have : Std.Irrefl below := ⟨fun a => Std.Irrefl.irrefl (r := dom) a.1⟩
  have hwf : WellFounded below := Finite.wellFounded_of_trans_of_irrefl below
  suffices h : ∀ a : {y // y ∈ xs}, ∃ y, Undominated dom xs y ∧ (y = a.1 ∨ dom y a.1) from
    h ⟨x, hx⟩
  intro a
  induction a using hwf.induction with
  | _ a ih =>
    by_cases htop : ∀ y ∈ xs, ¬ dom y a.1
    · exact ⟨a.1, ⟨a.2, htop⟩, .inl rfl⟩
    · push Not at htop
      obtain ⟨b, hb, hba⟩ := htop
      obtain ⟨y, hy, hyb⟩ := ih ⟨b, hb⟩ hba
      refine ⟨y, hy, .inr ?_⟩
      rcases hyb with rfl | hyb
      · exact hba
      · exact Trans.trans (r := dom) (s := dom) hyb hba

/-- What an insertion leaves of the frontier. -/
theorem undominated_insert_of_mem (hys : ∀ y, y ∈ ys ↔ y ∈ xs ∨ y = z) (hx : x ∈ xs) :
    Undominated dom ys x ↔ Undominated dom xs x ∧ ¬ dom z x := by
  simp only [Undominated, hys]
  constructor
  · rintro ⟨-, hy⟩
    exact ⟨⟨hx, fun y hmem => hy y (.inl hmem)⟩, hy z (.inr rfl)⟩
  · rintro ⟨⟨-, hy⟩, hz⟩
    refine ⟨.inl hx, ?_⟩
    rintro y (hmem | rfl)
    · exact hy y hmem
    · exact hz

/-- A dominated element dominates nothing on the frontier. -/
theorem Undominated.not_dom [IsTrans α dom] (hx : Undominated dom xs x) (hy : y ∈ xs)
    (hyz : dom y z) : ¬ dom z x :=
  fun hzx => hx.2 y hy (Trans.trans (r := dom) (s := dom) hyz hzx)

end Undominated

section SortedBy

variable {α κ : Type} [LinearOrder κ] (key : α → κ) {xs ys : List α} {x : α}

/-- `sorted(xs, key=key)` -/
def sortedBy (xs : List α) : List α := xs.insertionSort fun x y => key x ≤ key y

theorem sortedBy_perm (xs : List α) : (sortedBy key xs).Perm xs :=
  List.perm_insertionSort _ xs

@[simp] theorem mem_sortedBy : x ∈ sortedBy key xs ↔ x ∈ xs :=
  (sortedBy_perm key xs).mem_iff

theorem sortedBy_pairwise (xs : List α) :
    (sortedBy key xs).Pairwise fun x y => key x ≤ key y := by
  have : Std.Total fun x y : α => key x ≤ key y := ⟨fun x y => le_total (key x) (key y)⟩
  have : IsTrans α fun x y => key x ≤ key y := ⟨fun _ _ _ => le_trans⟩
  exact List.pairwise_insertionSort _ xs

/-- Distinct keys fix the order. -/
theorem sortedBy_eq_of_perm (h : xs.Perm ys) (hkeys : (xs.map key).Nodup) :
    sortedBy key xs = sortedBy key ys := by
  have hperm : (sortedBy key xs).Perm (sortedBy key ys) :=
    (sortedBy_perm key xs).trans (h.trans (sortedBy_perm key ys).symm)
  have hanti : ∀ x y, x ∈ sortedBy key xs → y ∈ sortedBy key ys →
      key x ≤ key y → key y ≤ key x → x = y := by
    intro x y hx hy hxy hyx
    rw [mem_sortedBy] at hx hy
    exact List.inj_on_of_nodup_map hkeys hx (h.mem_iff.mpr hy) (le_antisymm hxy hyx)
  exact hperm.eq_of_pairwise hanti (sortedBy_pairwise key xs) (sortedBy_pairwise key ys)

theorem filter_sortedBy (p : α → Bool) (hkeys : (xs.map key).Nodup) :
    (sortedBy key xs).filter p = sortedBy key (xs.filter p) := by
  have hperm : ((sortedBy key xs).filter p).Perm (sortedBy key (xs.filter p)) :=
    ((sortedBy_perm key xs).filter p).trans (sortedBy_perm key _).symm
  have hanti : ∀ x y, x ∈ (sortedBy key xs).filter p → y ∈ sortedBy key (xs.filter p) →
      key x ≤ key y → key y ≤ key x → x = y := by
    intro x y hx hy hxy hyx
    simp only [List.mem_filter, mem_sortedBy] at hx hy
    exact List.inj_on_of_nodup_map hkeys hx.1 hy.1 (le_antisymm hxy hyx)
  exact hperm.eq_of_pairwise hanti ((sortedBy_pairwise key xs).filter p) (sortedBy_pairwise key _)

end SortedBy

end NovaRtl
