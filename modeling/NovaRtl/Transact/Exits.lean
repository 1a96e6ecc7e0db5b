import Mathlib.Data.List.TakeWhile
import Mathlib.Tactic.Tauto

/-!
# How a computation may end

A caller handles some errors of a computation and not others. `Exits` says of a computation exactly
when it raises nothing but `allowed` errors, and exactly when it returns. Both are computed from the
parts: of a sequence of steps, a step counts only if the steps before it returned.
-/

namespace Transact

variable {ε α β : Type} {allowed : ε → Prop} {x : Except ε α} {a : α} {e : ε}
  {fine fine' done done' p q : Prop}

structure Exits (allowed : ε → Prop) (x : Except ε α) (fine done : Prop) : Prop where
  fine_iff : (∀ e, x = .error e → allowed e) ↔ fine
  done_iff : (∃ a, x = .ok a) ↔ done

namespace Exits

theorem congr (h : Exits allowed x fine done) (hfine : fine ↔ fine') (hdone : done ↔ done') :
    Exits allowed x fine' done' :=
  ⟨h.fine_iff.trans hfine, h.done_iff.trans hdone⟩

theorem ok : Exits allowed (.ok a : Except ε α) True True :=
  ⟨by simp, by simp⟩

theorem allowed_error (he : allowed e) : Exits allowed (.error e : Except ε α) True False :=
  ⟨by simpa using he, by simp⟩

theorem raised (he : ¬ allowed e) : Exits allowed (.error e : Except ε α) False False :=
  ⟨by simpa using he, by simp⟩

theorem bind {f : α → Except ε β} (hx : Exits allowed x fine done)
    (hf : ∀ a, x = .ok a → Exits allowed (f a) fine' done') :
    Exits allowed (x >>= f) (fine ∧ (done → fine')) (done ∧ done') := by
  cases x with
  | error e =>
    have hdone : ¬ done := fun h => by simpa using hx.done_iff.mpr h
    have hfine : allowed e ↔ fine := by simpa using hx.fine_iff
    exact ⟨by simp [Bind.bind, Except.bind, hdone, hfine],
      by simp [Bind.bind, Except.bind, hdone]⟩
  | ok a =>
    have hdone : done := hx.done_iff.mp ⟨a, rfl⟩
    have hfine : fine := hx.fine_iff.mp nofun
    exact (hf a rfl).congr (by simp [hdone, hfine]) (by simp [hdone])

theorem map {f : α → β} (hx : Exits allowed x fine done) :
    Exits allowed (f <$> x) fine done := by
  refine (bind hx (f := fun a => .ok (f a)) fun a _ => ok).congr (by simp) (by simp)

/-- A step that is refused unless `p`, and raises what is not allowed unless `q`. -/
abbrev Guarded (allowed : ε → Prop) (x : Except ε α) (p q : Prop) : Prop :=
  Exits allowed x (p → q) (p ∧ q)

/-- A sequence of steps is left at the first one that is refused. -/
theorem mapM {xs : List α} {f : α → Except ε β} {p q : α → Prop} [DecidablePred p]
    (h : ∀ a ∈ xs, Guarded allowed (f a) (p a) (q a)) :
    Exits allowed (xs.mapM f) (∀ a ∈ xs.takeWhile (fun a => p a), q a) (∀ a ∈ xs, p a ∧ q a) := by
  induction xs with
  | nil => exact ok.congr (by simp) (by simp)
  | cons a rest ih =>
    rw [List.mapM_cons]
    have hrest := ih fun b hb => h b (by simp [hb])
    refine (bind (h a (by simp)) fun b _ => bind hrest fun bs _ => ok).congr ?_ (by simp)
    by_cases hp : p a
    · rw [List.takeWhile_cons_of_pos (by simpa using hp), List.forall_mem_cons]
      tauto
    · rw [List.takeWhile_cons_of_neg (by simpa using hp)]
      simp [hp]

/-- Steps that are never refused. -/
theorem mapM_all {xs : List α} {f : α → Except ε β} {q : α → Prop}
    (h : ∀ a ∈ xs, Exits allowed (f a) (q a) (q a)) :
    Exits allowed (xs.mapM f) (∀ a ∈ xs, q a) (∀ a ∈ xs, q a) := by
  have hall : ∀ a ∈ xs, Guarded allowed (f a) True (q a) := fun a ha =>
    (h a ha).congr (by simp) (by simp)
  have hwhole : xs.takeWhile (fun _ => decide True) = xs := List.takeWhile_eq_self_iff.mpr (by simp)
  exact (mapM (p := fun _ => True) hall).congr (by rw [hwhole]) (by simp)

end Exits

end Transact
