import Mathlib.Data.List.Dedup
import Mathlib.Data.List.Sort
import Mathlib.Data.String.Basic

/-!
# Checked steps and canonical sequences

Code that raises is written in `Except`, one `require` for each check. Sequences are kept sorted,
and sets as sorted sequences without duplicates.
-/

namespace NovaRtl

section Except

variable {ε α β : Type} {x : Except ε α} {f : α → Except ε β} {e : ε}

def require (p : Prop) [Decidable p] (error : ε) : Except ε Unit :=
  if p then .ok () else .error error

theorem bind_eq_ok {b : β} : x >>= f = .ok b ↔ ∃ a, x = .ok a ∧ f a = .ok b := by
  cases x <;> simp [bind, Except.bind]

theorem seq_eq_ok {y : Except ε Unit} {b : α} :
    (y >>= fun _ => x) = .ok b ↔ y = .ok () ∧ x = .ok b := by
  cases y <;> simp [bind, Except.bind]

theorem map_eq_ok {g : α → β} {b : β} : x.map g = .ok b ↔ ∃ a, x = .ok a ∧ g a = b := by
  cases x <;> simp [Except.map]

theorem bind_ne_error (hx : x ≠ .error e) (hf : ∀ a, x = .ok a → f a ≠ .error e) :
    x >>= f ≠ .error e := by
  cases x with
  | error _ => simpa [bind, Except.bind] using hx
  | ok a => exact hf a rfl

variable {p : Prop} [Decidable p] {error : ε}

theorem require_eq_ok {u : Unit} : require p error = .ok u ↔ p := by
  unfold require
  split <;> simp_all

theorem require_ne (h : error ≠ e) : require p error ≠ .error e := by
  unfold require
  split <;> simp [h]

theorem require_of (h : p) : require p error = .ok () := require_eq_ok.mpr h

theorem mapM_eq_ok {xs : List α} {ys : List β} :
    xs.mapM f = .ok ys ↔ List.Forall₂ (fun x y => f x = .ok y) xs ys := by
  induction xs generalizing ys with
  | nil => cases ys <;> simp [pure, Except.pure]
  | cons x xs ih =>
    simp only [List.mapM_cons, bind_eq_ok, pure, Except.pure, Except.ok.injEq,
      List.forall₂_cons_left_iff, ih]
    constructor
    · rintro ⟨y, hy, rest, hrest, rfl⟩
      exact ⟨y, rest, hy, hrest, rfl⟩
    · rintro ⟨y, rest, hy, hrest, rfl⟩
      exact ⟨y, hy, rest, hrest, rfl⟩

theorem exists_mapM_eq_ok {xs : List α} (h : ∀ x ∈ xs, ∃ y, f x = .ok y) :
    ∃ ys, xs.mapM f = .ok ys := by
  induction xs with
  | nil => exact ⟨[], rfl⟩
  | cons x xs ih =>
    obtain ⟨⟨y, hy⟩, hxs⟩ := List.forall_mem_cons.mp h
    obtain ⟨ys, hys⟩ := ih hxs
    exact ⟨y :: ys, mapM_eq_ok.mpr (.cons hy (mapM_eq_ok.mp hys))⟩

/-- Steps that succeed with a fixed value, if they do. -/
theorem mapM_eq_ok_map {xs : List α} {p : α → Prop} {g : α → β}
    (h : ∀ x ∈ xs, ∀ y, f x = .ok y ↔ p x ∧ g x = y) {ys : List β} :
    xs.mapM f = .ok ys ↔ (∀ x ∈ xs, p x) ∧ xs.map g = ys := by
  induction xs generalizing ys with
  | nil => simp [pure, Except.pure]
  | cons x xs ih =>
    have hrest {rest : List β} : xs.mapM f = .ok rest ↔ (∀ a ∈ xs, p a) ∧ xs.map g = rest :=
      ih fun a ha => h a (List.mem_cons_of_mem x ha)
    simp only [List.mapM_cons, bind_eq_ok, hrest, h x List.mem_cons_self, pure, Except.pure,
      Except.ok.injEq, List.forall_mem_cons, List.map_cons]
    grind

theorem forM_eq_ok {xs : List α} {g : α → Except ε Unit} {u : Unit} :
    forM xs g = .ok u ↔ ∀ x ∈ xs, g x = .ok () := by
  induction xs with
  | nil => simp [pure, Except.pure]
  | cons x xs ih =>
    rw [List.forM_cons, bind_eq_ok, List.forall_mem_cons]
    constructor
    · rintro ⟨⟨⟩, hx, hxs⟩
      exact ⟨hx, ih.mp hxs⟩
    · rintro ⟨hx, hxs⟩
      exact ⟨⟨⟩, hx, ih.mpr hxs⟩

/-- A contract: a value that its validator accepts. -/
def Accepted (check : α → Except ε Unit) : Type := {a : α // check a = .ok ()}

/-- The contract's constructor. -/
def construct (check : α → Except ε Unit) (a : α) : Except ε (Accepted check) :=
  match h : check a with
  | .ok _ => .ok ⟨a, h⟩
  | .error e => .error e

theorem construct_eq_ok {check : α → Except ε Unit} {a : α} {b : Accepted check} :
    construct check a = .ok b ↔ b.1 = a := by
  unfold construct
  constructor
  · intro h
    split at h
    · cases h
      rfl
    · cases h
  · rintro rfl
    split
    next => rfl
    next e he => simp [b.2] at he

end Except

section Related

variable {α β : Type} {R : α → β → Prop} {xs : List α} {ys : List β}

theorem exists_of_mem_left (h : List.Forall₂ R xs ys) {x : α} (hx : x ∈ xs) :
    ∃ y ∈ ys, R x y := by
  induction h with
  | nil => cases hx
  | cons hxy _ ih =>
    rcases List.mem_cons.mp hx with rfl | hx
    · exact ⟨_, List.mem_cons_self, hxy⟩
    · obtain ⟨y, hy, hxy⟩ := ih hx
      exact ⟨y, List.mem_cons_of_mem _ hy, hxy⟩

theorem exists_of_mem_right (h : List.Forall₂ R xs ys) {y : β} (hy : y ∈ ys) :
    ∃ x ∈ xs, R x y :=
  exists_of_mem_left h.flip hy

end Related

/-- `sorted(xs)` -/
def sorted (xs : List String) : List String := xs.insertionSort (· ≤ ·)

/-- `sorted(set(xs))` -/
def sortedSet (xs : List String) : List String := sorted xs.dedup

@[simp] theorem mem_sorted {xs : List String} {x : String} : x ∈ sorted xs ↔ x ∈ xs :=
  List.mem_insertionSort _

@[simp] theorem mem_sortedSet {xs : List String} {x : String} : x ∈ sortedSet xs ↔ x ∈ xs := by
  simp [sortedSet]

end NovaRtl
