import Mathlib.Logic.Function.Iterate
import Mathlib.Logic.Relation

/-!
# Transactional programs

A client of a shared store is a tree of atomic steps. `commit` runs a transaction: it
reads the whole state and either replaces it and returns a value, or fails and leaves
the state as it was. `call` asks the surroundings a question and goes on with the
answer. Control flow is Lean's own, so a loop is a recursive function into `Prog`.

`Step` is one atomic step. `Safe` is the rely-guarantee judgement over these steps: the
program may be interrupted between any two of them by changes in `R`, makes only changes
in `G`, and ends in `Q`. With `R` equality it is ordinary sequential reasoning.
-/

namespace Transact

/-- The surroundings of a program: the answers they may give, and what an answer does. -/
structure Env (σ : Type) {Req : Type} (Ans : Req → Type) where
  allows : σ → (r : Req) → Ans r → Prop
  effect : (r : Req) → Ans r → σ → σ

inductive Prog (σ ε : Type) {Req : Type} (Ans : Req → Type) (α : Type) : Type 1 where
  | ret (a : α)
  | throw (e : ε)
  | commit {β : Type} (f : σ → Except ε (β × σ)) (k : β → Prog σ ε Ans α)
  | call (r : Req) (k : Ans r → Prog σ ε Ans α)

variable {σ ε Req : Type} {Ans : Req → Type} {α β γ : Type}

namespace Prog

def bind : Prog σ ε Ans α → (α → Prog σ ε Ans β) → Prog σ ε Ans β
  | .ret a, k => k a
  | .throw e, _ => .throw e
  | .commit f m, k => .commit f fun b => (m b).bind k
  | .call r m, k => .call r fun a => (m a).bind k

instance : Monad (Prog σ ε Ans) where
  pure := .ret
  bind := .bind

@[simp] theorem pure_eq (a : α) : (pure a : Prog σ ε Ans α) = .ret a := rfl

@[simp] theorem ret_bind (a : α) (k : α → Prog σ ε Ans β) : (.ret a >>= k) = k a := rfl

@[simp] theorem throw_bind (e : ε) (k : α → Prog σ ε Ans β) : (.throw e >>= k) = .throw e := rfl

@[simp] theorem commit_bind (f : σ → Except ε (γ × σ)) (m : γ → Prog σ ε Ans α)
    (k : α → Prog σ ε Ans β) : (.commit f m >>= k) = .commit f fun b => m b >>= k := rfl

@[simp] theorem call_bind (r : Req) (m : Ans r → Prog σ ε Ans α) (k : α → Prog σ ε Ans β) :
    (.call r m >>= k) = .call r fun a => m a >>= k := rfl

theorem bind_assoc (p : Prog σ ε Ans α) (k : α → Prog σ ε Ans β) (l : β → Prog σ ε Ans γ) :
    (p >>= k) >>= l = p >>= fun a => k a >>= l := by
  induction p with
  | ret a => rfl
  | throw e => rfl
  | commit f m ih => simp only [commit_bind, ih]
  | call r m ih => simp only [call_bind, ih]

theorem bind_ret (p : Prog σ ε Ans α) : (p >>= fun a => .ret a) = p := by
  induction p with
  | ret a => rfl
  | throw e => rfl
  | commit f m ih => simp only [commit_bind, ih]
  | call r m ih => simp only [call_bind, ih]

theorem ite_bind (c : Prop) [Decidable c] (p q : Prog σ ε Ans α) (k : α → Prog σ ε Ans β) :
    (if c then p else q) >>= k = if c then p >>= k else q >>= k := by
  split <;> rfl

/-- Run a transaction and return its value. -/
def transact (f : σ → Except ε (β × σ)) : Prog σ ε Ans β := .commit f .ret

/-- Read the state without changing it. -/
def read (f : σ → β) : Prog σ ε Ans β := .commit (fun s => .ok (f s, s)) .ret

/-- Change the state without reading it. -/
def modify (f : σ → σ) : Prog σ ε Ans Unit := .commit (fun s => .ok ((), f s)) .ret

/-- Go on with the value of a computation, or fail with its error. -/
def lift : Except ε α → Prog σ ε Ans α
  | .ok a => .ret a
  | .error e => .throw e

def Finished : Prog σ ε Ans α → Prop
  | .ret _ | .throw _ => True
  | _ => False

instance (p : Prog σ ε Ans α) : Decidable p.Finished := by
  cases p <;> unfold Finished <;> infer_instance

/-- The result of a finished program. -/
def result : Prog σ ε Ans α → Option (Except ε α)
  | .ret a => some (.ok a)
  | .throw e => some (.error e)
  | _ => none

theorem result_eq_ok {p : Prog σ ε Ans α} {a : α} (h : p.result = some (.ok a)) : p = .ret a := by
  cases p <;> simp_all [result]

theorem result_eq_error {p : Prog σ ε Ans α} {e : ε} (h : p.result = some (.error e)) :
    p = .throw e := by
  cases p <;> simp_all [result]

end Prog

/-- One atomic step of a program. A failing transaction leaves the state alone. -/
inductive Step (E : Env σ Ans) : Prog σ ε Ans α × σ → Prog σ ε Ans α × σ → Prop where
  | commit {δ : Type} {f : σ → Except ε (δ × σ)} {k : δ → Prog σ ε Ans α} {s t : σ} {b : δ} :
      f s = .ok (b, t) → Step E (.commit f k, s) (k b, t)
  | abort {δ : Type} {f : σ → Except ε (δ × σ)} {k : δ → Prog σ ε Ans α} {s : σ} {e : ε} :
      f s = .error e → Step E (.commit f k, s) (.throw e, s)
  | answer {r : Req} {k : Ans r → Prog σ ε Ans α} {s : σ} (a : Ans r) :
      E.allows s r a → Step E (.call r k, s) (k a, E.effect r a s)

abbrev Steps (E : Env σ Ans) : Prog σ ε Ans α × σ → Prog σ ε Ans α × σ → Prop :=
  Relation.ReflTransGen (Step E)

/-- No program runs for ever: every chain of atomic steps descends the tree. -/
theorem Step.acc (E : Env σ Ans) (p : Prog σ ε Ans α) (s : σ) :
    Acc (fun d c => Step E c d) (p, s) := by
  induction p generalizing s with
  | ret a => exact ⟨_, fun d h => by cases h⟩
  | throw e => exact ⟨_, fun d h => by cases h⟩
  | commit f k ih =>
    refine ⟨_, fun d h => ?_⟩
    cases h with
    | commit _ => exact ih _ _
    | abort _ => exact ⟨_, fun d h => by cases h⟩
  | call r k ih =>
    refine ⟨_, fun d h => ?_⟩
    cases h with
    | answer a _ => exact ih _ _

/-! ## Execution against an oracle -/

/-- The step a program takes when `o` answers its questions. -/
def advance (E : Env σ Ans) (o : σ → (r : Req) → Ans r) :
    Prog σ ε Ans α × σ → Prog σ ε Ans α × σ
  | (.ret a, s) => (.ret a, s)
  | (.throw e, s) => (.throw e, s)
  | (.commit f k, s) =>
    match f s with
    | .ok (b, t) => (k b, t)
    | .error e => (.throw e, s)
  | (.call r k, s) => (k (o s r), E.effect r (o s r) s)

theorem advance_step (E : Env σ Ans) {o : σ → (r : Req) → Ans r} {p : Prog σ ε Ans α} {s : σ}
    (ho : ∀ r k, p = .call r k → E.allows s r (o s r)) (hp : ¬ p.Finished) :
    Step E (p, s) (advance E o (p, s)) := by
  cases p with
  | ret a => exact (hp trivial).elim
  | throw e => exact (hp trivial).elim
  | commit f k =>
    cases h : f s with
    | error e => simpa only [advance, h] using Step.abort h
    | ok r => simpa only [advance, h] using Step.commit h
  | call r k => exact .answer _ (ho r k rfl)

theorem advance_steps (E : Env σ Ans) {o : σ → (r : Req) → Ans r}
    (ho : ∀ s r, E.allows s r (o s r)) (n : ℕ) (c : Prog σ ε Ans α × σ) :
    Steps E c (((advance E o)^[n] c).1, ((advance E o)^[n] c).2) := by
  induction n generalizing c with
  | zero => exact Relation.ReflTransGen.refl
  | succ n ih =>
    obtain ⟨p, s⟩ := c
    refine Relation.ReflTransGen.trans ?_ (ih _)
    by_cases hp : p.Finished
    · cases p <;> first | exact Relation.ReflTransGen.refl | exact hp.elim
    · exact .single (advance_step E (fun r _ _ => ho s r) hp)

end Transact
