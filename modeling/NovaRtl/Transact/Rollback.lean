import Mathlib.Tactic.Basic

/-!
# Transactions with partial writes

The body of a transaction is a computation that keeps its writes when it raises. `transaction` runs
it the way a database does: the writes stay if the body returns, and none stays if it raises.
-/

namespace Transact

variable {σ ε α β : Type} {s t u : σ} {a : α} {b : β} {e : ε}

def transaction (body : EStateM ε σ α) : EStateM ε σ α := fun s =>
  match body s with
  | .ok a t => .ok a t
  | .error e _ => .error e s

def check (p : Prop) [Decidable p] (e : ε) : EStateM ε σ Unit :=
  if p then pure () else throw e

theorem pure_ok {a' : α} : (pure a : EStateM ε σ α) s = .ok a' t ↔ a = a' ∧ s = t := by
  simp [pure, EStateM.pure]

theorem bind_ok {x : EStateM ε σ α} {f : α → EStateM ε σ β} :
    (x >>= f) s = .ok b u ↔ ∃ a t, x s = .ok a t ∧ f a t = .ok b u := by
  simp only [bind, EStateM.bind]
  constructor
  · intro h
    split at h
    next a t hx => exact ⟨a, t, hx, h⟩
    next => cases h
  · rintro ⟨a, t, hx, h⟩
    rw [hx]
    exact h

theorem get_ok : (get : EStateM ε σ σ) s = .ok t u ↔ s = t ∧ s = u := by
  show EStateM.Result.ok s s = .ok t u ↔ _
  simp

theorem set_ok {r : PUnit} : (set t : EStateM ε σ PUnit) s = .ok r u ↔ t = u := by
  show EStateM.Result.ok ⟨⟩ t = .ok r u ↔ _
  simp

theorem modify_ok {f : σ → σ} {r : PUnit} :
    (modify f : EStateM ε σ PUnit) s = .ok r t ↔ f s = t := by
  show EStateM.Result.ok ⟨⟩ (f s) = .ok r t ↔ _
  simp

theorem throw_ok {a : α} : (throw e : EStateM ε σ α) s = .ok a t ↔ False := by
  show EStateM.Result.error e s = .ok a t ↔ _
  simp

theorem check_ok {p : Prop} [Decidable p] {r : Unit} :
    (check p e : EStateM ε σ Unit) s = .ok r t ↔ p ∧ s = t := by
  unfold check
  split
  · simp_all [pure_ok]
  · simp_all [throw_ok]

theorem ofExcept_ok {x : Except ε α} :
    (ofExcept x : EStateM ε σ α) s = .ok a t ↔ x = .ok a ∧ s = t := by
  cases x with
  | ok b =>
    rw [Except.ok.injEq]
    exact pure_ok
  | error e =>
    rw [iff_false_right (by simp)]
    exact throw_ok.mp

theorem check_bind_ok {p : Prop} [Decidable p] {f : Unit → EStateM ε σ β} :
    (check p e >>= f) s = .ok b u ↔ p ∧ f () s = .ok b u := by
  simp only [bind_ok, check_ok]
  constructor
  · rintro ⟨_, t, ⟨hp, rfl⟩, h⟩
    exact ⟨hp, h⟩
  · rintro ⟨hp, h⟩
    exact ⟨(), s, ⟨hp, rfl⟩, h⟩

theorem ofExcept_bind_ok {x : Except ε α} {f : α → EStateM ε σ β} :
    (ofExcept x >>= f) s = .ok b u ↔ ∃ a, x = .ok a ∧ f a s = .ok b u := by
  simp only [bind_ok, ofExcept_ok]
  constructor
  · rintro ⟨a, t, ⟨hx, rfl⟩, h⟩
    exact ⟨a, hx, h⟩
  · rintro ⟨a, hx, h⟩
    exact ⟨a, s, ⟨hx, rfl⟩, h⟩

theorem get_bind_ok {f : σ → EStateM ε σ β} : (get >>= f) s = .ok b u ↔ f s s = .ok b u := by
  rfl

theorem transaction_ok {body : EStateM ε σ α} :
    transaction body s = .ok a t ↔ body s = .ok a t := by
  unfold transaction
  cases body s <;> simp

/-- A transaction that raises changes nothing. -/
theorem transaction_error {body : EStateM ε σ α} (h : transaction body s = .error e t) : t = s := by
  unfold transaction at h
  split at h
  · cases h
  · exact (EStateM.Result.error.inj h).2.symm

theorem adaptExcept_ok {ε' : Type} {f : ε → ε'} {x : EStateM ε σ α} :
    EStateM.adaptExcept f x s = .ok a t ↔ x s = .ok a t := by
  unfold EStateM.adaptExcept
  cases x s <;> simp

/-- A computation that changes nothing when it raises. -/
def Atomic (x : EStateM ε σ α) : Prop := ∀ ⦃s e t⦄, x s = .error e t → t = s

theorem atomic_transaction (body : EStateM ε σ α) : Atomic (transaction body) :=
  fun _ _ _ => transaction_error

theorem Atomic.check_bind {p : Prop} [Decidable p] {f : Unit → EStateM ε σ α}
    (hf : Atomic (f ())) : Atomic (check p e >>= f) := by
  intro s e' t h
  unfold check at h
  split at h
  · exact hf h
  · exact (EStateM.Result.error.inj h).2.symm

theorem Atomic.ofExcept_bind {x : Except ε α} {f : α → EStateM ε σ β} (hf : ∀ a, Atomic (f a)) :
    Atomic (ofExcept x >>= f) := by
  intro s e' t h
  cases x with
  | error e => exact (EStateM.Result.error.inj h).2.symm
  | ok a => exact hf a h

theorem discard_ok {x : EStateM ε σ α} {r : PUnit} :
    (discard x) s = .ok r t ↔ ∃ a, x s = .ok a t := by
  simp only [discard, Functor.mapConst, EStateM.map, Function.comp_apply]
  cases x s <;> simp

theorem Atomic.discard {x : EStateM ε σ α} (hx : Atomic x) : Atomic (discard x) := by
  intro s e t h
  simp only [Functor.discard, Functor.mapConst, EStateM.map, Function.comp_apply] at h
  cases hs : x s with
  | ok a s' => simp [hs] at h
  | error e' s' =>
    rw [hs] at h
    cases h
    exact hx hs

end Transact
