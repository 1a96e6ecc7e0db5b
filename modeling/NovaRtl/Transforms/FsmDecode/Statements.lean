import NovaRtl.FourState.Bitwise
import NovaRtl.Transforms.FsmDecode.Rewrite

/-!
# Conditional and case statements

The statements that the source of a match consists of, and the `case` statement of its edit. A
branch that is not introduced by `else` begins a statement of its own (`statements`), so several
statements may execute a body.

Conditional statements compare with `==`, which is never true when the state has unknown bits,
the `case` statement compares bit for bit. `executed_eq_case_iff` says when both execute the same
body.
-/

namespace NovaRtl.FsmDecode

open FourState

/-- An `if` with its `else if` branches and its final `else`. -/
structure Conditional where
  branches : List FsmDecodeBranch
  otherwise : Option String

/-- A `case` statement. -/
structure Case where
  items : List FsmDecodeBranch
  default : String

/-- How the rewrite prints a `case` statement. -/
def Case.lines (signal : String) (c : Case) : List String :=
  [s!"case ({signal})"] ++
  c.items.map (fun item => s!"  {item.stateLabel}: begin {item.body} end") ++
  [s!"  default: begin {c.default} end", "endcase"]

section Execution

variable (state : Vec) (ρ : String → Vec)

/-- The body that a conditional statement executes. -/
def Conditional.execute (c : Conditional) : Option String :=
  ((c.branches.find? fun branch => state.logicalEq (ρ branch.stateLabel) = .one).map
    FsmDecodeBranch.body).or c.otherwise

/-- The bodies that a sequence of statements executes. -/
def executeAll (statements : List Conditional) : List String :=
  statements.filterMap (Conditional.execute state ρ)

/-- The body that a `case` statement executes. -/
def Case.execute (c : Case) : String :=
  ((c.items.find? fun item => state.caseEq (ρ item.stateLabel)).map
    FsmDecodeBranch.body).getD c.default

end Execution

/-- The statements of branches and a final `else`, when the branches of a first statement are
already known. -/
def statementsFrom (default : String) (current : List FsmDecodeBranch) :
    List (Bool × FsmDecodeBranch) → List Conditional
  | [] => [⟨current, some default⟩]
  | (introduced, branch) :: rest =>
    if introduced then statementsFrom default (current ++ [branch]) rest
    else ⟨current, none⟩ :: statementsFrom default [branch] rest

def statements (default : String) : List (Bool × FsmDecodeBranch) → List Conditional
  | [] => []
  | (_, branch) :: rest => statementsFrom default [branch] rest

/-! ## Selection -/

/-- Branches from the first one whose label is equal to the state, bit for bit. -/
def fromSelected (state : Vec) (ρ : String → Vec) (branches : List (Bool × FsmDecodeBranch)) :
    List (Bool × FsmDecodeBranch) :=
  branches.dropWhile fun branch => !state.caseEq (ρ branch.2.stateLabel)

/-- If a label is equal to the state, bit for bit, then, for the first such label, either the
state is known and only `else if` branches follow, or the branch has the body of the default. -/
def SelectsAlike (state : Vec) (ρ : String → Vec) (default : String)
    (branches : List (Bool × FsmDecodeBranch)) : Prop :=
  match fromSelected state ρ branches with
  | [] => True
  | (_, branch) :: following =>
    if state.isKnown then ∀ later ∈ following, later.1 else branch.body = default

variable {state : Vec} {ρ : String → Vec} {default : String} {branch : FsmDecodeBranch}
variable {current : List FsmDecodeBranch} {branches : List (Bool × FsmDecodeBranch)}

@[simp] theorem executeAll_nil : executeAll state ρ [] = [] := rfl

@[simp] theorem executeAll_cons (c : Conditional) (statements : List Conditional) :
    executeAll state ρ (c :: statements) =
      (c.execute state ρ).toList ++ executeAll state ρ statements := by
  cases h : c.execute state ρ <;> simp [executeAll, h]

/-- The branch is the first of the list that is taken. -/
def FirstTaken (state : Vec) (ρ : String → Vec) (branches : List FsmDecodeBranch)
    (branch : FsmDecodeBranch) : Prop :=
  branches.find? (fun branch => state.logicalEq (ρ branch.stateLabel) = .one) = some branch

theorem FirstTaken.execute (h : FirstTaken state ρ current branch) (otherwise : Option String) :
    Conditional.execute state ρ ⟨current, otherwise⟩ = some branch.body := by
  rw [Conditional.execute, h]
  rfl

theorem firstTaken_singleton (h : state.logicalEq (ρ branch.stateLabel) = .one) :
    FirstTaken state ρ [branch] branch := by
  simp [FirstTaken, h]

theorem FirstTaken.append (h : FirstTaken state ρ current branch)
    (more : List FsmDecodeBranch) : FirstTaken state ρ (current ++ more) branch := by
  rw [FirstTaken, List.find?_append, h, Option.some_or]

/-- No branch of the list is taken. -/
def NoneTaken (state : Vec) (ρ : String → Vec) (branches : List FsmDecodeBranch) : Prop :=
  ∀ branch ∈ branches, state.logicalEq (ρ branch.stateLabel) ≠ .one

namespace NoneTaken

theorem find (h : NoneTaken state ρ current) :
    current.find? (fun branch => state.logicalEq (ρ branch.stateLabel) = .one) = none := by
  rw [List.find?_eq_none]
  intro branch hbranch
  simpa using h branch hbranch

theorem execute (h : NoneTaken state ρ current) (otherwise : Option String) :
    Conditional.execute state ρ ⟨current, otherwise⟩ = otherwise := by
  rw [Conditional.execute, h.find]
  rfl

theorem append (h : NoneTaken state ρ current) {more : List FsmDecodeBranch}
    (hmore : NoneTaken state ρ more) : NoneTaken state ρ (current ++ more) := by
  intro b hb
  rcases List.mem_append.mp hb with hb | hb
  · exact h b hb
  · exact hmore b hb

theorem firstTaken (h : NoneTaken state ρ current)
    (hbranch : state.logicalEq (ρ branch.stateLabel) = .one) :
    FirstTaken state ρ (current ++ [branch]) branch := by
  rw [FirstTaken, List.find?_append, h.find]
  exact firstTaken_singleton hbranch

theorem cons_iff : NoneTaken state ρ (branch :: current) ↔
    NoneTaken state ρ [branch] ∧ NoneTaken state ρ current := by
  simp [NoneTaken]

end NoneTaken

@[simp] theorem statementsFrom_else :
    statementsFrom default current ((true, branch) :: branches) =
      statementsFrom default (current ++ [branch]) branches := rfl

@[simp] theorem statementsFrom_if :
    statementsFrom default current ((false, branch) :: branches) =
      ⟨current, none⟩ :: statementsFrom default [branch] branches := rfl

/-- Without a taken branch, the final `else` is executed. -/
theorem executeAll_of_noneTaken (hcurrent : NoneTaken state ρ current)
    (hbranches : NoneTaken state ρ (branches.map Prod.snd)) :
    executeAll state ρ (statementsFrom default current branches) = [default] := by
  induction branches generalizing current with
  | nil => simp [statementsFrom, hcurrent.execute]
  | cons next rest ih =>
    obtain ⟨introduced, next⟩ := next
    obtain ⟨hnext, hrest⟩ := NoneTaken.cons_iff.mp hbranches
    cases introduced with
    | true => exact ih (hcurrent.append hnext) hrest
    | false => simp [hcurrent.execute, ih hnext hrest]

/-- The last statement executes a body. -/
theorem executeAll_ne_nil (current : List FsmDecodeBranch) :
    executeAll state ρ (statementsFrom default current branches) ≠ [] := by
  induction branches generalizing current with
  | nil => simp [statementsFrom, Conditional.execute]
  | cons next rest ih =>
    obtain ⟨introduced, next⟩ := next
    cases introduced with
    | true => exact ih _
    | false =>
      rw [statementsFrom_if, executeAll_cons]
      exact List.append_ne_nil_of_right_ne_nil _ (ih _)

/-- After a taken branch nothing else is executed exactly if all other branches are introduced by
`else`. -/
theorem executeAll_of_firstTaken (h : FirstTaken state ρ current branch) :
    executeAll state ρ (statementsFrom default current branches) = [branch.body] ↔
      ∀ later ∈ branches, later.1 := by
  induction branches generalizing current with
  | nil => simp [statementsFrom, h.execute]
  | cons next rest ih =>
    obtain ⟨introduced, next⟩ := next
    cases introduced with
    | true => simpa using ih (h.append [next])
    | false => simp [h.execute, executeAll_ne_nil]

/-- What is executed from the first branch that is taken. -/
theorem executeAll_append {before : List (Bool × FsmDecodeBranch)} {introduced : Bool}
    (hcurrent : NoneTaken state ρ current) (hbefore : NoneTaken state ρ (before.map Prod.snd))
    (hbranch : state.logicalEq (ρ branch.stateLabel) = .one) :
    ∃ current', FirstTaken state ρ current' branch ∧
      executeAll state ρ
          (statementsFrom default current (before ++ (introduced, branch) :: branches)) =
        executeAll state ρ (statementsFrom default current' branches) := by
  induction before generalizing current with
  | nil =>
    cases introduced with
    | true => exact ⟨current ++ [branch], hcurrent.firstTaken hbranch, rfl⟩
    | false =>
      refine ⟨[branch], firstTaken_singleton hbranch, ?_⟩
      simp [hcurrent.execute]
  | cons next before ih =>
    obtain ⟨introduced', next⟩ := next
    obtain ⟨hnext, hbefore'⟩ := NoneTaken.cons_iff.mp hbefore
    cases introduced' with
    | true => exact ih (hcurrent.append hnext) hbefore'
    | false =>
      obtain ⟨current', hfirst, heq⟩ := ih hnext hbefore'
      refine ⟨current', hfirst, ?_⟩
      simpa [hcurrent.execute] using heq

/-! ## The two selections -/

theorem logicalEq_ne_one_of_unknown (h : state.isKnown = false) (v : Vec) :
    state.logicalEq v ≠ .one := by
  intro hone
  obtain ⟨hknown, -⟩ := Vec.logicalEq_eq_one_iff.mp hone
  exact Bool.false_ne_true (h.symm.trans hknown)

/-- What lies before the first branch whose label is equal to the state. -/
theorem split_selected {selected : Bool × FsmDecodeBranch}
    {following : List (Bool × FsmDecodeBranch)}
    (h : fromSelected state ρ branches = selected :: following) :
    ∃ before, branches = before ++ selected :: following ∧
      (∀ b ∈ before, state.caseEq (ρ b.2.stateLabel) = false) ∧
      state.caseEq (ρ selected.2.stateLabel) := by
  refine ⟨branches.takeWhile fun b => !state.caseEq (ρ b.2.stateLabel), ?_, ?_, ?_⟩
  · rw [← h]
    exact List.takeWhile_append_dropWhile.symm
  · intro b hb
    simpa using List.mem_takeWhile_imp hb
  · have hhead := List.head?_dropWhile_not (fun b => !state.caseEq (ρ b.2.stateLabel)) branches
    rw [fromSelected] at h
    simpa [h] using hhead

theorem noneTaken_of_caseEq (h : ∀ b ∈ branches, state.caseEq (ρ b.2.stateLabel) = false) :
    NoneTaken state ρ (branches.map Prod.snd) := by
  intro branch hbranch hone
  obtain ⟨b, hb, rfl⟩ := List.mem_map.mp hbranch
  obtain ⟨-, heq⟩ := Vec.logicalEq_eq_one_iff.mp hone
  exact Bool.false_ne_true ((h b hb).symm.trans heq)

theorem executeAll_from_nil :
    executeAll state ρ (statementsFrom default [] branches) =
        [Case.execute state ρ ⟨branches.map Prod.snd, default⟩] ↔
      SelectsAlike state ρ default branches := by
  have hnil : NoneTaken state ρ [] := nofun
  unfold SelectsAlike Case.execute
  rw [List.find?_map]
  split
  next hselected =>
    have hnone : ∀ b ∈ branches, state.caseEq (ρ b.2.stateLabel) = false := by
      simpa [fromSelected, List.dropWhile_eq_nil_iff] using hselected
    have hfind : branches.find? (fun b => state.caseEq (ρ b.2.stateLabel)) = none := by
      simpa [List.find?_eq_none] using hnone
    rw [executeAll_of_noneTaken hnil (noneTaken_of_caseEq hnone)]
    simp [Function.comp_def, hfind]
  next introduced selected following hselected =>
    obtain ⟨before, rfl, hbefore, hcaseEq⟩ := split_selected hselected
    have hfind : (before ++ (introduced, selected) :: following).find?
        (fun b => state.caseEq (ρ b.2.stateLabel)) = some (introduced, selected) := by
      rw [List.find?_append, List.find?_eq_none.mpr fun b hb => by simp [hbefore b hb]]
      simp [hcaseEq]
    simp only [Function.comp_def, hfind, Option.map_some, Option.getD_some]
    cases hknown : state.isKnown with
    | true =>
      have hone := Vec.logicalEq_eq_one_iff.mpr ⟨hknown, hcaseEq⟩
      obtain ⟨current, hfirst, heq⟩ : ∃ current, FirstTaken state ρ current selected ∧
          executeAll state ρ
              (statementsFrom default [] (before ++ (introduced, selected) :: following)) =
            executeAll state ρ (statementsFrom default current following) :=
        executeAll_append hnil (noneTaken_of_caseEq hbefore) hone
      rw [heq, executeAll_of_firstTaken hfirst, if_pos rfl]
    | false =>
      rw [executeAll_of_noneTaken hnil fun branch _ => logicalEq_ne_one_of_unknown hknown _]
      simp [eq_comm]

/-- The statements execute the body of the `case` statement, and no other. -/
theorem executeAll_eq_case_iff (hne : branches ≠ []) :
    executeAll state ρ (statements default branches) =
        [Case.execute state ρ ⟨branches.map Prod.snd, default⟩] ↔
      SelectsAlike state ρ default branches := by
  obtain ⟨⟨introduced, first⟩, rest, rfl⟩ := List.exists_cons_of_ne_nil hne
  -- how the first branch is introduced makes no difference
  have hstatements : statements default ((introduced, first) :: rest) =
      statementsFrom default [] ((true, first) :: rest) := rfl
  have halike : SelectsAlike state ρ default ((introduced, first) :: rest) ↔
      SelectsAlike state ρ default ((true, first) :: rest) := by
    cases hfirst : state.caseEq (ρ first.stateLabel) <;>
      simp [SelectsAlike, fromSelected, hfirst]
  rw [hstatements, halike, ← executeAll_from_nil]
  rfl

end NovaRtl.FsmDecode
