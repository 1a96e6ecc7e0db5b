import NovaRtl.Transact.Rollback

/-!
# How a computation ends

`EndsIn` says of a computation and the state it starts in what holds when it returns and what holds
when it raises. A sequence of steps ends as its parts do. A computation on a part of the state is
carried to the whole by `onPart`, and
`rescue` handles errors.
-/

namespace Transact

variable {σ τ ε α β : Type} {s : σ} {x : EStateM ε σ α} {returned returned' : α → σ → Prop}
  {raised raised' : ε → σ → Prop}

/-- What holds of the value and the state when `x` returns from `s`, and of the error and the state
when it raises. -/
def EndsIn (x : EStateM ε σ α) (s : σ) (returned : α → σ → Prop) (raised : ε → σ → Prop) : Prop :=
  match x s with
  | .ok a t => returned a t
  | .error e t => raised e t

namespace EndsIn

theorem mono (h : EndsIn x s returned raised) (hreturned : ∀ a t, returned a t → returned' a t)
    (hraised : ∀ e t, raised e t → raised' e t) : EndsIn x s returned' raised' := by
  unfold EndsIn at h ⊢
  split at h
  · exact hreturned _ _ h
  · exact hraised _ _ h

theorem pure {a : α} (h : returned a s) : EndsIn (pure a) s returned raised := h

theorem throw {e : ε} (h : raised e s) : EndsIn (throw e : EStateM ε σ α) s returned raised := h

/-- The rest runs from the state that the first part returned in. -/
theorem bind {f : α → EStateM ε σ β} {returned : β → σ → Prop}
    (h : EndsIn x s (fun a t => EndsIn (f a) t returned raised) raised) :
    EndsIn (x >>= f) s returned raised := by
  unfold EndsIn at h ⊢
  simp only [Bind.bind, EStateM.bind]
  cases hx : x s with
  | ok a t =>
    rw [hx] at h
    exact h
  | error e t =>
    rw [hx] at h
    exact h

theorem get {returned : σ → σ → Prop} (h : returned s s) : EndsIn get s returned raised := h

theorem modify {f : σ → σ} {returned : PUnit → σ → Prop} (h : returned ⟨⟩ (f s)) :
    EndsIn (modify f) s returned raised := h

theorem check {p : Prop} [Decidable p] {e : ε} {returned : Unit → σ → Prop}
    (hpass : p → returned () s) (hfail : ¬ p → raised e s) :
    EndsIn (check p e) s returned raised := by
  unfold Transact.check
  split
  next hp => exact pure (hpass hp)
  next hp => exact throw (hfail hp)

theorem ofExcept {y : Except ε α} (hok : ∀ a, y = .ok a → returned a s)
    (herror : ∀ e, y = .error e → raised e s) : EndsIn (ofExcept y) s returned raised := by
  cases y with
  | ok a => exact pure (hok a rfl)
  | error e => exact throw (herror e rfl)

theorem adaptExcept {ε' : Type} {f : ε → ε'} {raised : ε' → σ → Prop}
    (h : EndsIn x s returned fun e t => raised (f e) t) :
    EndsIn (x.adaptExcept f) s returned raised := by
  unfold EndsIn EStateM.adaptExcept at *
  cases hx : x s with
  | ok a t => simpa [hx] using h
  | error e t => simpa [hx] using h

/-- A loop keeps what each of its steps keeps. -/
theorem forM (kept : List α → σ → Prop) {xs : List α} {f : α → EStateM ε σ PUnit}
    {raised : ε → σ → Prop} (hstep : ∀ a rest s, kept (a :: rest) s →
      EndsIn (f a) s (fun _ t => kept rest t) raised) (h : kept xs s) :
    EndsIn (xs.forM f) s (fun _ t => kept [] t) raised := by
  induction xs generalizing s with
  | nil => exact h
  | cons a rest ih => exact bind ((hstep a rest s h).mono (fun _ _ ht => ih ht) fun _ _ => id)

theorem of_ok {a : α} {t : σ} (h : EndsIn x s returned raised) (hx : x s = .ok a t) :
    returned a t := by
  unfold EndsIn at h
  rwa [hx] at h

theorem of_error {e : ε} {t : σ} (h : EndsIn x s returned raised) (hx : x s = .error e t) :
    raised e t := by
  unfold EndsIn at h
  rwa [hx] at h

end EndsIn

/-- The state that a computation leaves, however it ends. -/
def leaves (x : EStateM ε σ α) (s : σ) : σ :=
  match x s with
  | .ok _ t => t
  | .error _ t => t

theorem EndsIn.leaves {p : σ → Prop} (h : EndsIn x s (fun _ => p) fun _ => p) : p (leaves x s) := by
  unfold EndsIn Transact.leaves at *
  split at h <;> simp_all

/-- Go on with `handler` from the state that a handled error leaves. -/
def rescue (handled : ε → Prop) [DecidablePred handled] (x : EStateM ε σ α)
    (handler : ε → EStateM ε σ α) : EStateM ε σ α := fun s =>
  match x s with
  | .ok a t => .ok a t
  | .error e t => if handled e then handler e t else .error e t

theorem EndsIn.rescue {handled : ε → Prop} [DecidablePred handled] {handler : ε → EStateM ε σ α}
    (h : EndsIn x s returned fun e t =>
      (handled e → EndsIn (handler e) t returned raised) ∧ (¬ handled e → raised e t)) :
    EndsIn (rescue handled x handler) s returned raised := by
  unfold EndsIn Transact.rescue at *
  cases hx : x s with
  | ok a t => simpa [hx] using h
  | error e t =>
    simp only [hx] at h ⊢
    by_cases he : handled e
    · simpa only [if_pos he] using h.1 he
    · simpa only [if_neg he] using h.2 he

theorem rescue_ok {handled : ε → Prop} [DecidablePred handled] {handler : ε → EStateM ε σ α}
    {a : α} {t : σ} : rescue handled x handler s = .ok a t ↔
      x s = .ok a t ∨ ∃ e u, x s = .error e u ∧ handled e ∧ handler e u = .ok a t := by
  unfold rescue
  cases x s with
  | ok b u => simp
  | error e u =>
    dsimp only
    constructor
    · intro h
      split at h
      next he => exact .inr ⟨e, u, rfl, he, h⟩
      next => cases h
    · rintro (h | ⟨_, _, heq, he, h⟩)
      · cases h
      · cases heq
        rwa [if_pos he]

/-- Run a computation on a part of the state. -/
def onPart (part : σ → τ) (put : τ → σ → σ) (x : EStateM ε τ α) : EStateM ε σ α := fun s =>
  match x (part s) with
  | .ok a t => .ok a (put t s)
  | .error e t => .error e (put t s)

theorem onPart_ok {part : σ → τ} {put : τ → σ → σ} {x : EStateM ε τ α} {a : α} {t : σ} :
    onPart part put x s = .ok a t ↔ ∃ u, x (part s) = .ok a u ∧ t = put u s := by
  unfold onPart
  cases x (part s) with
  | ok b u =>
    constructor
    · rintro ⟨⟩
      exact ⟨u, rfl, rfl⟩
    · rintro ⟨_, ⟨⟩, rfl⟩
      rfl
  | error e u => simp

theorem EndsIn.onPart {part : σ → τ} {put : τ → σ → σ} {x : EStateM ε τ α}
    (h : EndsIn x (part s) (fun a t => returned a (put t s)) fun e t => raised e (put t s)) :
    EndsIn (onPart part put x) s returned raised := by
  unfold EndsIn Transact.onPart at *
  split at h <;> simp [*]

end Transact
