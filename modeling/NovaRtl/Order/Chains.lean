import Mathlib.Data.Nat.Notation
import Mathlib.Tactic.Basic

/-!
# Longest chains

The lengths of the chains of a relation that start at an element. Where the longest chain from each
successor is known, so is the longest one from the element; and a map that respects two relations
takes chains to chains.
-/

namespace Chains

variable {α β : Type*} {R : α → α → Prop} {S : β → β → Prop} {a b : α} {n m : ℕ}

/-- A chain of `n` elements starts at `a`. -/
inductive ChainFrom (R : α → α → Prop) : α → ℕ → Prop where
  | single (a : α) : ChainFrom R a 1
  | cons {a b : α} {n : ℕ} (hstep : R a b) (hchain : ChainFrom R b n) : ChainFrom R a (n + 1)

/-- The longest chain from `a` has `n` elements. -/
structure IsHeight (R : α → α → Prop) (a : α) (n : ℕ) : Prop where
  chain : ChainFrom R a n
  longest : ∀ m, ChainFrom R a m → m ≤ n

/-- The longest chain from any element of the list has `n` elements. -/
structure IsLongest (R : α → α → Prop) (starts : List α) (n : ℕ) : Prop where
  chain : n = 0 ∨ ∃ a ∈ starts, ChainFrom R a n
  longest : ∀ a ∈ starts, ∀ m, ChainFrom R a m → m ≤ n

theorem IsHeight.unique (h : IsHeight R a n) (h' : IsHeight R a m) : n = m :=
  Nat.le_antisymm (h'.longest n h.chain) (h.longest m h'.chain)

theorem ChainFrom.pos (h : ChainFrom R a n) : 0 < n := by
  cases h <;> omega

theorem IsLongest.unique {starts : List α} (h : IsLongest R starts n)
    (h' : IsLongest R starts m) : n = m := by
  have hle {k l : ℕ} (hk : IsLongest R starts k) (hl : IsLongest R starts l) : k ≤ l := by
    rcases hk.chain with rfl | ⟨a, hmem, hchain⟩
    · exact Nat.zero_le l
    · exact hl.longest a hmem k hchain
  exact Nat.le_antisymm (hle h h') (hle h' h)

/-- One more than the longest chain of the successors. -/
theorem isHeight_succ {best : ℕ} (hsuccessors : ∀ b, R a b → ∃ m ≤ best, IsHeight R b m)
    (hattained : best = 0 ∨ ∃ b, R a b ∧ IsHeight R b best) : IsHeight R a (1 + best) := by
  constructor
  · rcases hattained with rfl | ⟨b, hstep, hheight⟩
    · exact .single a
    · rw [Nat.add_comm]
      exact .cons hstep hheight.chain
  · intro m hchain
    cases hchain with
    | single => omega
    | cons hstep hrest =>
      obtain ⟨k, hk, hheight⟩ := hsuccessors _ hstep
      have := hheight.longest _ hrest
      omega

theorem ChainFrom.map {f : α → β} (hf : ∀ a b, R a b → S (f a) (f b)) (h : ChainFrom R a n) :
    ChainFrom S (f a) n := by
  induction h with
  | single a => exact .single (f a)
  | cons hstep hchain ih => exact .cons (hf _ _ hstep) ih

/-- A chain between images comes from a chain, if every step from an image does. -/
theorem ChainFrom.of_map {f : α → β} (hf : ∀ a b, S (f a) b → ∃ c, f c = b ∧ R a c) {c : β}
    (h : ChainFrom S c n) : ∀ a, f a = c → ChainFrom R a n := by
  induction h with
  | single => exact fun a _ => .single a
  | cons hstep hchain ih =>
    rintro a rfl
    obtain ⟨c, hc, hR⟩ := hf a _ hstep
    exact .cons hR (ih c hc)

/-- Two lists of elements that correspond have chains of the same lengths. -/
theorem IsLongest.map {f : α → β} {starts : List α} {images : List β}
    (hf : ∀ a b, R a b → S (f a) (f b)) (hback : ∀ a b, S (f a) b → ∃ c, f c = b ∧ R a c)
    (himages : ∀ b, b ∈ images ↔ ∃ a ∈ starts, f a = b) (h : IsLongest R starts n) :
    IsLongest S images n := by
  constructor
  · rcases h.chain with hzero | ⟨a, hmem, hchain⟩
    · exact .inl hzero
    · exact .inr ⟨f a, (himages _).mpr ⟨a, hmem, rfl⟩, hchain.map hf⟩
  · intro b hmem m hchain
    obtain ⟨a, ha, rfl⟩ := (himages b).mp hmem
    exact h.longest a ha m (hchain.of_map hback a rfl)

end Chains
