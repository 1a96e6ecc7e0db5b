import Mathlib.Data.Nat.Notation
import NovaRtl.Transact.Ends

/-!
# Programs of which one step fails

A program takes steps one after the other, and at most one of them fails: either the step that the
fault is set on, or a check that does not pass. After it no step fails any more, so what a handler
or a `finally` does takes effect.
-/

namespace Transact

/-- A state and the number of operations up to the one that fails; `none` when no more fail. -/
structure Faulty (σ : Type) where
  state : σ
  fault : Option ℕ

variable {σ ε α β : Type}

/-- One operation, which fails with `e` and without effect when the fault is set on it. -/
def perform (e : ε) (f : σ → α × σ) : EStateM ε (Faulty σ) α := fun w =>
  match w.fault with
  | some 0 => .error e ⟨w.state, none⟩
  | some (n + 1) => .ok (f w.state).1 ⟨(f w.state).2, some n⟩
  | none => .ok (f w.state).1 ⟨(f w.state).2, none⟩

/-- An operation that fails with `e` and without effect if it is the failing one. -/
def operate (fails : Prop) [Decidable fails] (e : ε) (f : σ → α × σ) : EStateM ε σ α := fun s =>
  if fails then .error e s else .ok (f s).1 (f s).2

/-- The result of a check; a failed one is the step that fails. -/
def validate (x : σ → Except ε α) : EStateM ε (Faulty σ) α := fun w =>
  match x w.state with
  | .ok a => .ok a w
  | .error e => .error e ⟨w.state, none⟩

/-- A change that is no operation. -/
def assign (f : σ → σ) : EStateM ε (Faulty σ) Unit := fun w => .ok () ⟨f w.state, w.fault⟩

/-- `finally` -/
def ensure (x : EStateM ε σ α) (cleanup : EStateM ε σ Unit) : EStateM ε σ α := fun s =>
  match x s with
  | .ok a t =>
    match cleanup t with
    | .ok () u => .ok a u
    | .error e u => .error e u
  | .error e t =>
    match cleanup t with
    | .ok () u => .error e u
    | .error e' u => .error e' u

/-- Clean up and raise again. -/
def onError (x : EStateM ε σ α) (cleanup : EStateM ε σ Unit) : EStateM ε σ α :=
  rescue (fun _ => True) x fun e => do
    cleanup
    throw e

theorem EndsIn.operate {s : σ} {fails : Prop} [Decidable fails] {e : ε} {f : σ → α × σ}
    {returned : α → σ → Prop} {raised : ε → σ → Prop}
    (hok : ¬ fails → returned (f s).1 (f s).2) (hfail : fails → raised e s) :
    EndsIn (operate fails e f) s returned raised := by
  unfold EndsIn Transact.operate
  by_cases h : fails
  · simpa [h] using hfail h
  · simpa [h] using hok h

namespace EndsIn

variable {s : σ} {fault : Option ℕ} {e : ε} {x : EStateM ε σ α} {cleanup : EStateM ε σ Unit}
  {returned : α → Faulty σ → Prop} {raised : ε → Faulty σ → Prop}

/-- After a failure an operation does not fail. -/
theorem perform {f : σ → α × σ}
    (hok : ∀ later, (fault = none → later = none) → returned (f s).1 ⟨(f s).2, later⟩)
    (hfail : fault ≠ none → raised e ⟨s, none⟩) :
    EndsIn (perform e f) ⟨s, fault⟩ returned raised := by
  unfold EndsIn Transact.perform
  match fault with
  | some 0 => exact hfail nofun
  | some (n + 1) => exact hok _ nofun
  | none => exact hok _ id

theorem validate {x : σ → Except ε α} (hok : ∀ a, x s = .ok a → returned a ⟨s, fault⟩)
    (hfail : ∀ e, x s = .error e → raised e ⟨s, none⟩) :
    EndsIn (validate x) ⟨s, fault⟩ returned raised := by
  unfold EndsIn Transact.validate
  cases hx : x s with
  | ok a => simpa [hx] using hok a hx
  | error e => simpa [hx] using hfail e hx

theorem assign {f : σ → σ} {returned : Unit → Faulty σ → Prop} (h : returned () ⟨f s, fault⟩) :
    EndsIn (assign f) ⟨s, fault⟩ returned raised := h

theorem ensure {returned : α → σ → Prop} {raised : ε → σ → Prop}
    (h : EndsIn x s (fun a t => EndsIn cleanup t (fun _ u => returned a u) raised)
      fun e t => EndsIn cleanup t (fun _ u => raised e u) raised) :
    EndsIn (ensure x cleanup) s returned raised := by
  unfold EndsIn Transact.ensure at *
  cases hx : x s with
  | ok a t => rw [hx] at h; cases hc : cleanup t <;> simp_all
  | error e t => rw [hx] at h; cases hc : cleanup t <;> simp_all

theorem onError {returned : α → σ → Prop} {raised : ε → σ → Prop}
    (h : EndsIn x s returned fun e t => EndsIn cleanup t (fun _ u => raised e u) raised) :
    EndsIn (onError x cleanup) s returned raised := by
  refine rescue (h.mono (fun _ _ => id) fun e t ht => ⟨fun _ => ?_, fun hfalse => ?_⟩)
  · exact bind (ht.mono (fun _ _ h => throw h) fun _ _ => id)
  · exact absurd trivial hfalse

end EndsIn

end Transact
