import NovaRtl.Transact.System

/-!
# Triples for programs among others

`Triple E R G P x Q` says that `x`, started where `P` holds, is safe: between its steps others move
the state along `R`, its own steps move it along `G`, and it ends in `Q`. The rules follow the
program. `attempt` makes an exception a value, from which handlers are put together.
-/

namespace Transact

variable {σ ε Req : Type} {Ans : Req → Type} {α β : Type}

/-- A transaction that returns its failure. -/
def attempted (f : σ → Except ε (β × σ)) (s : σ) : Except ε (Except ε β × σ) :=
  match f s with
  | .ok (b, t) => .ok (.ok b, t)
  | .error e => .ok (.error e, s)

namespace Prog

/-- Go on with the exception of a program as a value. -/
def attempt : Prog σ ε Ans α → Prog σ ε Ans (Except ε α)
  | .ret a => .ret (.ok a)
  | .throw e => .ret (.error e)
  | .commit f k => .commit (attempted f) fun r =>
    match r with
    | .ok b => (k b).attempt
    | .error e => .ret (.error e)
  | .call r k => .call r fun a => (k a).attempt

/-- Run `cleanup` when `x` raises what is handled, and go on raising it. -/
def onError (handled : ε → Prop) [DecidablePred handled] (x : Prog σ ε Ans α)
    (cleanup : Prog σ ε Ans Unit) : Prog σ ε Ans α :=
  x.attempt >>= fun
    | .ok a => .ret a
    | .error e => if handled e then cleanup >>= fun _ => .throw e else .throw e

/-- Run `cleanup` when `x` returns or raises what is handled. -/
def ensure (handled : ε → Prop) [DecidablePred handled] (x : Prog σ ε Ans α)
    (cleanup : Prog σ ε Ans Unit) : Prog σ ε Ans α :=
  onError handled x cleanup >>= fun a => cleanup >>= fun _ => .ret a

end Prog

/-! ## Triples -/

variable {E : Env σ Ans} {R G : σ → σ → Prop}

def Triple (E : Env σ Ans) (R G : σ → σ → Prop) (P : σ → Prop) (x : Prog σ ε Ans α)
    (Q : Except ε α → σ → Prop) : Prop :=
  ∀ s, P s → Safe E R (fun (_ : Unit) s t _ => G s t) (fun r _ t => Q r t) x () s

/-- The assertion survives what others do. -/
def Stable (R : σ → σ → Prop) (P : σ → Prop) : Prop := ∀ s t, P s → R s t → P t

namespace Triple

variable {P P' : σ → Prop} {x : Prog σ ε Ans α} {Q Q' : Except ε α → σ → Prop}

theorem ret {a : α} (hP : Stable R P) (h : ∀ s, P s → Q (.ok a) s) :
    Triple E R G P (.ret a) Q :=
  fun s hs t ht => h t (hP s t hs ht)

theorem throw {e : ε} (hP : Stable R P) (h : ∀ s, P s → Q (.error e) s) :
    Triple E R G P (.throw e) Q :=
  fun s hs t ht => h t (hP s t hs ht)

theorem call {r : Req} {k : Ans r → Prog σ ε Ans α} (hP : Stable R P) (M : Ans r → σ → Prop)
    (hcall : ∀ s a, P s → E.allows s r a → G s (E.effect r a s) ∧ M a (E.effect r a s))
    (hk : ∀ a, Triple E R G (M a) (k a) Q) : Triple E R G P (.call r k) Q := by
  intro s hs t ht a ha
  obtain ⟨hg, hm⟩ := hcall t a (hP s t hs ht) ha
  exact ⟨(), hg, hk a _ hm⟩

theorem modify {f : σ → σ} {Q : Except ε Unit → σ → Prop} (hP : Stable R P)
    (hf : ∀ s, P s → G s (f s)) (hQ : ∀ s t, P s → R (f s) t → Q (.ok ()) t) :
    Triple E R G P (Prog.modify f) Q :=
  fun s hs t ht => ⟨(), hf t (hP s t hs ht), fun u hu => hQ t u (hP s t hs ht) hu⟩

theorem conseq (h : Triple E R G P' x Q') (hP : ∀ s, P s → P' s)
    (hQ : ∀ r s, Q' r s → Q r s) : Triple E R G P x Q :=
  fun s hs => Safe.weaken (h s (hP s hs)) (fun _ _ _ _ => id) fun r _ t => hQ r t

/-- The rest runs from where the first part returns. -/
theorem bind [Std.Refl R] {k : α → Prog σ ε Ans β} (M : α → σ → Prop)
    {Q : Except ε β → σ → Prop}
    (hx : Triple E R G P x fun
      | .ok a => M a
      | .error e => Q (.error e))
    (hk : ∀ a, Triple E R G (M a) (k a) Q) : Triple E R G P (x >>= k) Q := by
  intro s hs
  refine Safe.bind (Safe.weaken (hx s hs) (fun _ _ _ _ => id) fun r g t ht => ?_)
  cases r with
  | ok a => exact hk a t ht
  | error e => exact ht

/-- What holds of the result of a program that handles its exceptions itself. -/
def Tried (Q : Except ε α → σ → Prop) : Except ε (Except ε α) → σ → Prop
  | .ok r => Q r
  | .error _ => fun _ => False

theorem attempt (hrefl : ∀ s, G s s) (h : Triple E R G P x Q) :
    Triple E R G P x.attempt (Tried Q) := by
  intro s hs
  have hsafe := h s hs
  clear h hs
  induction x generalizing s with
  | ret a => exact hsafe
  | throw e => exact hsafe
  | commit f k ih =>
    unfold Prog.attempt
    intro t ht
    have hcommit := hsafe t ht
    unfold attempted
    cases hf : f t with
    | ok r =>
      rw [hf] at hcommit
      obtain ⟨g, hg, hk⟩ := hcommit
      exact ⟨g, hg, ih r.1 r.2 hk⟩
    | error e =>
      rw [hf] at hcommit
      exact ⟨(), hrefl t, hcommit⟩
  | call r k ih =>
    intro t ht a ha
    obtain ⟨g, hg, hk⟩ := hsafe t ht a ha
    exact ⟨g, hg, ih a _ hk⟩

variable {handled : ε → Prop} [DecidablePred handled] {cleanup : Prog σ ε Ans Unit}

theorem onError [Std.Refl R] (hrefl : ∀ s, G s s) (M : Except ε α → σ → Prop)
    (hM : ∀ r, Stable R (M r)) (hx : Triple E R G P x M) (hok : ∀ a s, M (.ok a) s → Q (.ok a) s)
    (hunhandled : ∀ e s, ¬ handled e → M (.error e) s → Q (.error e) s)
    (hcleanup : ∀ e, handled e → Triple E R G (M (.error e)) cleanup fun
      | .ok () => Q (.error e)
      | .error e' => Q (.error e'))
    (hstable : ∀ e, Stable R (Q (.error e))) :
    Triple E R G P (x.onError handled cleanup) Q := by
  refine bind M ((attempt hrefl hx).conseq (fun _ => id) fun r s hr => ?_) fun r => ?_
  · cases r with
    | ok r => exact hr
    | error e => exact hr.elim
  · cases r with
    | ok a => exact ret (hM _) (hok a)
    | error e =>
      dsimp only
      split
      next he =>
        refine bind (fun _ => Q (.error e)) ((hcleanup e he).conseq (fun _ => id) fun r s hr => ?_)
          fun _ => throw (hstable e) fun _ => id
        cases r with
        | ok u => exact hr
        | error e' => exact hr
      next he => exact throw (hM _) fun s hs => hunhandled e s he hs

end Triple

/-! ## Executions -/

variable {p q x : Prog σ ε Ans α} {s t u : σ}

theorem Step.bind (h : Step E (p, s) (q, t)) (k : α → Prog σ ε Ans β) :
    Step E (p >>= k, s) (q >>= k, t) := by
  cases h with
  | commit hf => exact .commit hf
  | abort hf => exact .abort hf
  | answer a ha => exact .answer a ha

theorem Step.attempt (h : Step E (p, s) (q, t)) : Step E (p.attempt, s) (q.attempt, t) := by
  cases h with
  | @commit δ f k _ _ b hf =>
    have hattempted : ∀ m : Except ε δ → Prog σ ε Ans (Except ε α),
        Step E (.commit (attempted f) m, s) (m (.ok b), t) :=
      fun _ => .commit (by rw [attempted, hf])
    rw [Prog.attempt]
    exact hattempted _
  | @abort δ f k _ e hf =>
    have hattempted : ∀ m : Except ε δ → Prog σ ε Ans (Except ε α),
        Step E (.commit (attempted f) m, s) (m (.error e), s) :=
      fun _ => .commit (by rw [attempted, hf])
    rw [Prog.attempt, Prog.attempt]
    exact hattempted _
  | answer a ha => exact .answer a ha

/-- The rest runs from where the first part returns. -/
theorem Steps.bind {a : α} {k : α → Prog σ ε Ans β} {r : Prog σ ε Ans β}
    (h : Steps E (x, s) (.ret a, t)) (hk : Steps E (k a, t) (r, u)) :
    Steps E (x >>= k, s) (r, u) := by
  refine Relation.ReflTransGen.trans ?_ hk
  exact h.lift (fun c : Prog σ ε Ans α × σ => (c.1 >>= k, c.2)) fun _ _ hstep => hstep.bind k

theorem Steps.onError {a : α} {handled : ε → Prop} [DecidablePred handled]
    {cleanup : Prog σ ε Ans Unit} (h : Steps E (x, s) (.ret a, t)) :
    Steps E (x.onError handled cleanup, s) (.ret a, t) := by
  have hattempt : Steps E (x.attempt, s) (.ret (.ok a), t) :=
    h.lift (fun c : Prog σ ε Ans α × σ => (c.1.attempt, c.2)) fun _ _ hstep => hstep.attempt
  exact hattempt.bind .refl

theorem Steps.ensure {a : α} {handled : ε → Prop} [DecidablePred handled]
    {cleanup : Prog σ ε Ans Unit} (h : Steps E (x, s) (.ret a, t))
    (hcleanup : Steps E (cleanup, t) (.ret (), u)) :
    Steps E (x.ensure handled cleanup, s) (.ret a, u) :=
  h.onError.bind (hcleanup.bind .refl)

variable {ι : Type} [DecidableEq ι]

/-- A client that nobody disturbs. -/
theorem System.run_steps {S : System ι σ ε Ans} {c : Config ι σ ε Ans} {i : ι}
    {p : Prog σ ε Ans Unit} (hi : c.running i = none) (hp : S.invokes i c.state p)
    (h : Steps S.env (p, c.state) (.ret (), t)) : S.Run c ⟨c.running, t⟩ := by
  have hsteps : S.Run ⟨Function.update c.running i (some p), c.state⟩
      ⟨Function.update c.running i (some (.ret ())), t⟩ := by
    refine h.lift (fun d => (⟨Function.update c.running i (some d.1), d.2⟩ : Config ι σ ε Ans))
      fun d e hstep => ?_
    have hadvance := Step.advance (S := S)
      (c := ⟨Function.update c.running i (some d.1), d.2⟩) (Function.update_self _ _ _) hstep
    rwa [Function.update_idem] at hadvance
  have hfinish : S.Step ⟨Function.update c.running i (some (.ret ())), t⟩ ⟨c.running, t⟩ := by
    have hstep := Step.finish (S := S)
      (c := ⟨Function.update c.running i (some (.ret ())), t⟩) (Function.update_self _ _ _) trivial
    rwa [Function.update_idem, ← hi, Function.update_eq_self] at hstep
  exact (Relation.ReflTransGen.head (.invoke hi hp) hsteps).tail hfinish

end Transact
