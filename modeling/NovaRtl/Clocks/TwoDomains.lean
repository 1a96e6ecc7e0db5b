import Mathlib.Data.List.Infix
import Mathlib.Tactic.Basic

/-!
# Circuits with two clocks

The registers of each clock domain change at the edges of its own clock and read the other domain as
it was before the edge, also when both clocks rise at once. A circuit that takes words in on one
clock and hands them out on the other is a queue if at each edge what it holds before and takes in is
what it hands out and holds after.

## Main definitions

* `Circuit.run` — the registers after any interleaving of edges.
* `Circuit.run_keeps` — what each edge keeps is kept by a run.
* `Circuit.run_conserves` — the law of a queue over a run.
-/

namespace TwoDomains

/-- The clocks that rise, with the inputs that are sampled. -/
inductive Edge (α β : Type*) where
  | left (input : α)
  | right (input : β)
  | both (input : α) (input' : β)

def Edge.left? {α β : Type*} : Edge α β → Option α
  | left input | both input _ => some input
  | right _ => none

def Edge.right? {α β : Type*} : Edge α β → Option β
  | right input | both _ input => some input
  | left _ => none

/-- The next registers of each domain, from the registers of both and the inputs. -/
structure Circuit (σ τ α β : Type*) where
  left : σ → τ → α → σ
  right : σ → τ → β → τ

namespace Circuit

variable {σ τ α β γ : Type*} (circuit : Circuit σ τ α β)

def step (s : σ × τ) (edge : Edge α β) : σ × τ :=
  (match edge.left? with
    | some input => circuit.left s.1 s.2 input
    | none => s.1,
   match edge.right? with
    | some input => circuit.right s.1 s.2 input
    | none => s.2)

def run (s : σ × τ) (edges : List (Edge α β)) : σ × τ := edges.foldl circuit.step s

/-- What is seen along a run, edge by edge. -/
def observed (see : σ × τ → Edge α β → List γ) : σ × τ → List (Edge α β) → List γ
  | _, [] => []
  | s, edge :: edges => see s edge ++ observed see (circuit.step s edge) edges

variable {circuit} {s : σ × τ}

@[simp] theorem run_nil : circuit.run s [] = s := rfl

@[simp] theorem run_cons (edge : Edge α β) (edges : List (Edge α β)) :
    circuit.run s (edge :: edges) = circuit.run (circuit.step s edge) edges := rfl

theorem run_append (edges more : List (Edge α β)) :
    circuit.run s (edges ++ more) = circuit.run (circuit.run s edges) more :=
  List.foldl_append

theorem observed_append (see : σ × τ → Edge α β → List γ) (edges more : List (Edge α β)) :
    circuit.observed see s (edges ++ more) =
      circuit.observed see s edges ++ circuit.observed see (circuit.run s edges) more := by
  induction edges generalizing s with
  | nil => rfl
  | cons edge edges ih => simp [observed, ih]

theorem run_keeps {inv : σ × τ → Prop} (hstep : ∀ s edge, inv s → inv (circuit.step s edge))
    (h : inv s) (edges : List (Edge α β)) : inv (circuit.run s edges) := by
  induction edges generalizing s with
  | nil => exact h
  | cons edge edges ih => exact ih (hstep s edge h)

/-- What is held and taken in is handed out in order or still held. -/
theorem run_conserves {inv : σ × τ → Prop} {held : σ × τ → List γ}
    {takenIn handedOut : σ × τ → Edge α β → List γ}
    (hkeeps : ∀ s edge, inv s → inv (circuit.step s edge))
    (hstep : ∀ s edge, inv s →
      held s ++ takenIn s edge = handedOut s edge ++ held (circuit.step s edge))
    (h : inv s) (edges : List (Edge α β)) :
    held s ++ circuit.observed takenIn s edges =
      circuit.observed handedOut s edges ++ held (circuit.run s edges) := by
  induction edges generalizing s with
  | nil => simp [observed]
  | cons edge edges ih =>
    rw [observed, observed, run_cons, ← List.append_assoc, hstep s edge h, List.append_assoc,
      ih (hkeeps s edge h), List.append_assoc]

end Circuit

end TwoDomains
