import Mathlib.Logic.Function.Basic
import NovaRtl.FourState.Vector

/-!
# Procedural statements

Statements of a procedural block over source expressions `α`, whose values are given. A block
declares local variables, all of whose bits are unknown at first. Assignments to anything else
are recorded in the order in which they happen.

`execAll_setBits` is the rule for a sequence of assignments to single bits of one variable,
`execItems_eq` the rule for a `case` whose items are tested for `1'b1`.
-/

namespace FourState

inductive Expr (α : Type) where
  | source (a : α)
  /-- `1'b1` -/
  | one
  | bit (name : String) (index : ℕ)
  /-- `name[high:0]` -/
  | lower (name : String) (high : ℕ)
  | caseEq (left right : Expr α)
  | and (left right : Expr α)
  | not (operand : Expr α)
  | reduceOr (operand : Expr α)

inductive Stmt (α : Type) where
  /-- An assignment to a target of the source. -/
  | assign (target : String) (value : α)
  | setBit (name : String) (index : ℕ) (value : Expr α)
  | ite (condition : Expr α) (yes no : Stmt α)
  | case (subject : Expr α) (items : List (Expr α × Stmt α)) (default : Stmt α)
  /-- Local variables are given by name and width less one. -/
  | block (name : String) (locals : List (String × ℕ)) (body : List (Stmt α))

structure State where
  locals : String → Vec
  assigned : List (String × Vec)

/-- Nothing is declared and nothing assigned. -/
def State.initial : State := ⟨fun _ => .ofBit .x, []⟩

def State.setLocal (s : State) (name : String) (v : Vec) : State :=
  { s with locals := Function.update s.locals name v }

def State.declare (s : State) (locals : List (String × ℕ)) : State :=
  locals.foldl (fun s l => s.setLocal l.1 (.fill l.2 .x)) s

variable {α : Type} {ρ : α → Vec} {s t : State} {name : String}

def Expr.eval (ρ : α → Vec) (locals : String → Vec) : Expr α → Vec
  | source a => ρ a
  | one => .ofBit .one
  | bit name index => .ofBit ((locals name).bit index)
  | lower name high => (locals name).lower high
  | caseEq left right => .ofBit (.ofBool ((left.eval ρ locals).caseEq (right.eval ρ locals)))
  | and left right => (left.eval ρ locals).and (right.eval ρ locals)
  | not operand => (operand.eval ρ locals).not
  | reduceOr operand => .ofBit (operand.eval ρ locals).reduceOr

mutual

def Stmt.exec (ρ : α → Vec) : Stmt α → State → State
  | .assign target value, s => { s with assigned := s.assigned ++ [(target, ρ value)] }
  | .setBit name index value, s =>
    s.setLocal name ((s.locals name).setBit index ((value.eval ρ s.locals).bit 0))
  | .ite condition yes no, s =>
    if (condition.eval ρ s.locals).truth then yes.exec ρ s else no.exec ρ s
  | .case subject items default, s =>
    execItems ρ (subject.eval ρ s.locals) items (default.exec ρ s) s
  | .block _ locals body, s => { execAll ρ body (s.declare locals) with locals := s.locals }

def execAll (ρ : α → Vec) : List (Stmt α) → State → State
  | [], s => s
  | stmt :: rest, s => execAll ρ rest (stmt.exec ρ s)

/-- The first item whose label is equal to the subject, or the default. -/
def execItems (ρ : α → Vec) (subject : Vec) :
    List (Expr α × Stmt α) → (default : State) → State → State
  | [], default, _ => default
  | (label, stmt) :: rest, default, s =>
    if subject.caseEq (label.eval ρ s.locals) then stmt.exec ρ s
    else execItems ρ subject rest default s

end

/-- The assignments of a statement that is executed on its own. -/
def Stmt.assignments (ρ : α → Vec) (stmt : Stmt α) : List (String × Vec) :=
  (stmt.exec ρ .initial).assigned

theorem execAll_append (ρ : α → Vec) (first second : List (Stmt α)) (s : State) :
    execAll ρ (first ++ second) s = execAll ρ second (execAll ρ first s) := by
  induction first generalizing s with
  | nil => rfl
  | cons stmt rest ih => exact ih _

@[simp] theorem setLocal_same (s : State) (name : String) (v : Vec) :
    (s.setLocal name v).locals name = v := Function.update_self ..

@[simp] theorem setLocal_other {other : String} (h : other ≠ name) (s : State) (v : Vec) :
    (s.setLocal name v).locals other = s.locals other := Function.update_of_ne h ..

@[simp] theorem setLocal_assigned (s : State) (name : String) (v : Vec) :
    (s.setLocal name v).assigned = s.assigned := rfl

/-- Single bits of one variable were assigned. -/
structure BitsSet (name : String) (indices : List ℕ) (b : ℕ → Logic) (s t : State) : Prop where
  assigned : t.assigned = s.assigned
  others : ∀ other, other ≠ name → t.locals other = s.locals other
  width : (t.locals name).width = (s.locals name).width
  bits : ∀ j, (t.locals name).bit j = if j ∈ indices then b j else (s.locals name).bit j

/-- Assignments to bits of `name` whose values do not depend on `name`. -/
theorem execAll_setBits {indices : List ℕ} {e : ℕ → Expr α} {b : ℕ → Logic}
    (hwidth : ∀ i ∈ indices, i < (s.locals name).width)
    (heval : ∀ i ∈ indices, ∀ locals, (∀ other, other ≠ name → locals other = s.locals other) →
      ((e i).eval ρ locals).bit 0 = b i) :
    BitsSet name indices b s (execAll ρ (indices.map fun i => .setBit name i (e i)) s) := by
  induction indices generalizing s with
  | nil => exact ⟨rfl, fun _ _ => rfl, rfl, fun j => by simp [execAll]⟩
  | cons i rest ih =>
    have hi := hwidth i List.mem_cons_self
    have hvalue := heval i List.mem_cons_self s.locals fun _ _ => rfl
    -- the state after the first assignment
    let u := s.setLocal name ((s.locals name).setBit i (b i))
    have hstep : (Stmt.setBit name i (e i)).exec ρ s = u := by
      simp only [Stmt.exec, hvalue, u]
    have hrest : BitsSet name rest b u (execAll ρ (rest.map fun i => .setBit name i (e i)) u) := by
      refine ih (fun j hj => ?_) fun j hj locals hother => ?_
      · simpa [u] using hwidth j (List.mem_cons_of_mem i hj)
      · refine heval j (List.mem_cons_of_mem i hj) locals fun other ho => ?_
        simpa [u, ho] using hother other ho
    rw [List.map_cons, execAll, hstep]
    refine ⟨hrest.assigned, fun other ho => ?_, ?_, fun j => ?_⟩
    · simpa [u, ho] using hrest.others other ho
    · simpa [u] using hrest.width
    · rw [hrest.bits j]
      simp only [u, setLocal_same, Vec.bit_setBit hi, List.mem_cons]
      by_cases hj : j = i
      · subst hj
        by_cases hmem : j ∈ rest <;> simp [hmem]
      · simp [hj]

/-- A `case (1'b1)` takes the first item whose label is `1`. -/
theorem execItems_eq {indices : List ℕ} {label : ℕ → Expr α} {stmt : ℕ → Stmt α} {b : ℕ → Logic}
    (hlabel : ∀ i ∈ indices, (label i).eval ρ s.locals = .ofBit (b i)) (default : State) :
    execItems ρ (.ofBit .one) (indices.map fun i => (label i, stmt i)) default s =
      match indices.find? fun i => b i = .one with
      | some i => (stmt i).exec ρ s
      | none => default := by
  induction indices with
  | nil => rfl
  | cons i rest ih =>
    have ih := ih fun j hj => hlabel j (List.mem_cons_of_mem i hj)
    rw [List.map_cons, execItems, hlabel i List.mem_cons_self, List.find?_cons]
    by_cases hb : b i = .one
    · simp [hb]
    · simp [hb, Ne.symm hb, ih]

end FourState
