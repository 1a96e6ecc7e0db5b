import Mathlib.Logic.Unique
import Mathlib.Order.Defs.Unbundled
import NovaRtl.Transact.Program

/-!
# Rely-guarantee safety

`Safe E R G Q p g s` is defined by recursion on the program. Before each step the others
may move the state along `R`; the step itself must move it along `G`; the result must
satisfy `Q` at every state the others can still produce. The resource `g` is the client's
own: nobody else sees it, and the guarantee says which steps it permits and what is left of
it afterwards.

`Solo` is the case without others and without a resource.

## Main results

* `Safe.bind`, `Safe.weaken`, `Safe.stable`: composition, consequence, and interference
  before the first step.
* `Safe.step`: what one step of a safe program does.
* `Solo.invariant`, `Solo.steps`: invariants and uninterrupted executions.
-/

namespace Transact

variable {σ ε Req γ : Type} {Ans : Req → Type} {α β δ : Type}
variable {E : Env σ Ans} {R : σ → σ → Prop} {G : γ → σ → σ → γ → Prop}

def Safe (E : Env σ Ans) (R : σ → σ → Prop) (G : γ → σ → σ → γ → Prop)
    (Q : Except ε α → γ → σ → Prop) : Prog σ ε Ans α → γ → σ → Prop
  | .ret a, g, s => ∀ t, R s t → Q (.ok a) g t
  | .throw e, g, s => ∀ t, R s t → Q (.error e) g t
  | .commit f k, g, s => ∀ t, R s t →
      match f t with
      | .ok (b, u) => ∃ g', G g t u g' ∧ Safe E R G Q (k b) g' u
      | .error e => ∀ u, R t u → Q (.error e) g u
  | .call r k, g, s => ∀ t, R s t → ∀ a, E.allows t r a →
      ∃ g', G g t (E.effect r a t) g' ∧ Safe E R G Q (k a) g' (E.effect r a t)

variable {g : γ} {s t : σ}

theorem Safe.stable [IsTrans σ R] {Q : Except ε α → γ → σ → Prop} {p : Prog σ ε Ans α}
    (h : Safe E R G Q p g s) (hst : R s t) : Safe E R G Q p g t := by
  cases p with
  | ret a => exact fun u hu => h u (trans_of R hst hu)
  | throw e => exact fun u hu => h u (trans_of R hst hu)
  | commit f k => exact fun u hu => h u (trans_of R hst hu)
  | call r k => exact fun u hu => h u (trans_of R hst hu)

/-- Consequence, in the guarantee and in the result. -/
theorem Safe.weaken {G' : γ → σ → σ → γ → Prop} {Q Q' : Except ε α → γ → σ → Prop}
    {p : Prog σ ε Ans α} (h : Safe E R G Q p g s)
    (hG : ∀ g s t g', G g s t g' → G' g s t g') (hQ : ∀ r g t, Q r g t → Q' r g t) :
    Safe E R G' Q' p g s := by
  induction p generalizing g s with
  | ret a => exact fun t ht => hQ _ _ _ (h t ht)
  | throw e => exact fun t ht => hQ _ _ _ (h t ht)
  | commit f k ih =>
    intro t ht
    have := h t ht
    split at this
    · obtain ⟨g', hg, hk⟩ := this
      exact ⟨g', hG _ _ _ _ hg, ih _ hk⟩
    · exact fun u hu => hQ _ _ _ (this u hu)
  | call r k ih =>
    intro t ht a ha
    obtain ⟨g', hg, hk⟩ := h t ht a ha
    exact ⟨g', hG _ _ _ _ hg, ih _ hk⟩

theorem Safe.bind [Std.Refl R] {Q : Except ε β → γ → σ → Prop} {p : Prog σ ε Ans α}
    {k : α → Prog σ ε Ans β}
    (h : Safe E R G (fun r g t => match r with
      | .ok a => Safe E R G Q (k a) g t
      | .error e => Q (.error e) g t) p g s) : Safe E R G Q (p >>= k) g s := by
  induction p generalizing g s with
  | ret a => exact h s (refl s)
  | throw e => exact fun t ht => h t ht
  | commit f m ih =>
    intro t ht
    have := h t ht
    split at this
    · obtain ⟨g', hg, hk⟩ := this
      exact ⟨g', hg, ih _ hk⟩
    · exact fun u hu => this u hu
  | call r m ih =>
    intro t ht a ha
    obtain ⟨g', hg, hk⟩ := h t ht a ha
    exact ⟨g', hg, ih _ hk⟩

/-- One step of a safe program is permitted, and what is left of it is safe. -/
theorem Safe.step [Std.Refl R] {Q : Except ε α → γ → σ → Prop} {p q : Prog σ ε Ans α}
    (h : Safe E R G Q p g s) (hstep : Step E (p, s) (q, t)) :
    (t = s ∧ Safe E R G Q q g t) ∨ ∃ g', G g s t g' ∧ Safe E R G Q q g' t := by
  cases hstep with
  | commit hf =>
    have := h s (refl s)
    rw [hf] at this
    exact .inr this
  | abort hf =>
    have := h s (refl s)
    rw [hf] at this
    exact .inl ⟨rfl, this⟩
  | answer a ha => exact .inr (h s (refl s) a ha)

theorem Safe.finished [Std.Refl R] {Q : Except ε α → γ → σ → Prop} :
    (∀ a : α, Safe E R G Q (.ret a) g s → Q (.ok a) g s) ∧
      ∀ e : ε, Safe E R G Q (.throw e : Prog σ ε Ans α) g s → Q (.error e) g s :=
  ⟨fun _ h => h s (refl s), fun _ h => h s (refl s)⟩

/-! ## Sequential reasoning -/

section Solo

variable {G : σ → σ → Prop} {Q : Except ε α → σ → Prop}

/-- Nobody else touches the state. -/
abbrev Solo (E : Env σ Ans) (G : σ → σ → Prop) (Q : Except ε α → σ → Prop)
    (p : Prog σ ε Ans α) (s : σ) : Prop :=
  Safe E (· = ·) (fun (_ : Unit) s t _ => G s t) (fun r _ t => Q r t) p () s

@[simp] theorem solo_ret (a : α) :
    Solo E G Q (.ret a) s ↔ Q (.ok a) s := by simp [Solo, Safe]

@[simp] theorem solo_throw (e : ε) :
    Solo E G Q (.throw e) s ↔ Q (.error e) s := by simp [Solo, Safe]

theorem solo_commit (f : σ → Except ε (β × σ)) (k : β → Prog σ ε Ans α) :
    Solo E G Q (.commit f k) s ↔
      match f s with
      | .ok (b, t) => G s t ∧ Solo E G Q (k b) t
      | .error e => Q (.error e) s := by
  simp only [Solo, Safe, forall_eq', Unique.exists_iff, PUnit.default_eq_unit]

theorem solo_call (r : Req) (k : Ans r → Prog σ ε Ans α) :
    Solo E G Q (.call r k) s ↔ ∀ a, E.allows s r a →
      G s (E.effect r a s) ∧ Solo E G Q (k a) (E.effect r a s) := by
  simp only [Solo, Safe, forall_eq', Unique.exists_iff, PUnit.default_eq_unit]

theorem Solo.weaken {G' : σ → σ → Prop} {Q' : Except ε α → σ → Prop} {p : Prog σ ε Ans α}
    (h : Solo E G Q p s) (hG : ∀ s t, G s t → G' s t) (hQ : ∀ r t, Q r t → Q' r t) :
    Solo E G' Q' p s :=
  Safe.weaken h (fun _ s t _ => hG s t) fun r _ t => hQ r t

section Derived

variable {Q : Except ε β → σ → Prop}

theorem solo_transact (f : σ → Except ε (α × σ)) (k : α → Prog σ ε Ans β) :
    Solo E G Q (Prog.transact f >>= k) s ↔
      match f s with
      | .ok (a, t) => G s t ∧ Solo E G Q (k a) t
      | .error e => Q (.error e) s := solo_commit f k

theorem solo_read (f : σ → α) (k : α → Prog σ ε Ans β) :
    Solo E G Q (Prog.read f >>= k) s ↔ G s s ∧ Solo E G Q (k (f s)) s :=
  solo_commit (fun s => .ok (f s, s)) k

theorem solo_modify (f : σ → σ) (k : Unit → Prog σ ε Ans β) :
    Solo E G Q (Prog.modify f >>= k) s ↔ G s (f s) ∧ Solo E G Q (k ()) (f s) :=
  solo_commit (fun s => .ok ((), f s)) k

theorem solo_lift (x : Except ε α) (k : α → Prog σ ε Ans β) :
    Solo E G Q (Prog.lift x >>= k) s ↔
      match x with
      | .ok a => Solo E G Q (k a) s
      | .error e => Q (.error e) s := by
  cases x with
  | ok a => exact Iff.rfl
  | error e => exact solo_throw e

end Derived

theorem Solo.bind {Q : Except ε β → σ → Prop} {p : Prog σ ε Ans α} {k : α → Prog σ ε Ans β}
    (h : Solo E G (fun r t => match r with
      | .ok a => Solo E G Q (k a) t
      | .error e => Q (.error e) t) p s) : Solo E G Q (p >>= k) s := by
  refine Safe.bind (Safe.weaken h (fun _ _ _ _ h => h) fun r _ t ht => ?_)
  cases r with
  | ok a => exact ht
  | error e => exact ht

/-- An invariant that the program's own changes preserve. -/
theorem Solo.invariant {I : σ → Prop} {p : Prog σ ε Ans α} (h : Solo E G Q p s)
    (hG : ∀ s t, I s → G s t → I t) (hs : I s) :
    Solo E (fun s t => I s ∧ G s t) (fun r t => I t ∧ Q r t) p s := by
  induction p generalizing s with
  | ret a => exact (solo_ret a).mpr ⟨hs, (solo_ret a).mp h⟩
  | throw e => exact (solo_throw e).mpr ⟨hs, (solo_throw e).mp h⟩
  | commit f k ih =>
    rw [solo_commit] at h ⊢
    split at h
    · exact ⟨⟨hs, h.1⟩, ih _ h.2 (hG _ _ hs h.1)⟩
    · exact ⟨hs, h⟩
  | call r k ih =>
    rw [solo_call] at h ⊢
    intro a ha
    obtain ⟨hg, hk⟩ := h a ha
    exact ⟨⟨hs, hg⟩, ih _ hk (hG _ _ hs hg)⟩

/-- Every state change of an uninterrupted execution is permitted, and its result is `Q`. -/
theorem Solo.steps {p q : Prog σ ε Ans α} (h : Solo E G Q p s)
    (hsteps : Steps E (p, s) (q, t)) :
    Relation.ReflTransGen G s t ∧ Solo E G Q q t := by
  generalize hc : (p, s) = c at hsteps
  generalize hd : (q, t) = d at hsteps
  induction hsteps generalizing q t with
  | refl => obtain ⟨rfl, rfl⟩ := Prod.mk.inj (hc.trans hd.symm); exact ⟨.refl, h⟩
  | @tail c d _ hstep ih =>
    subst hd
    obtain ⟨hrun, hsafe⟩ := ih (q := c.1) (t := c.2) rfl
    obtain ⟨rfl, hsafe'⟩ | ⟨⟨⟩, hg, hsafe'⟩ := hsafe.step hstep
    · exact ⟨hrun, hsafe'⟩
    · exact ⟨hrun.tail hg, hsafe'⟩

end Solo

end Transact
