import NovaRtl.Verilog.Joins

/-!
# Side effects of expressions

The tokens by which an expression assigns, and the names by which it calls a function, a method or
a system function. A call may leave out its argument list, so whether a name calls something is
known only where it is resolved: `Callee` is a parameter.
-/

namespace Verilog

attribute [local instance] lawfulBEq_text

/-- Whether a name, after the tokens before it, is that of a function or a method. -/
abbrev Callee := List (List Char) → List Char → Bool

/-- Assignments, increments and decrements. -/
def assignmentOperators : List (List Char) :=
  ["=", "+=", "-=", "*=", "/=", "%=", "&=", "|=", "^=", "<<=", ">>=", "<<<=", ">>>=", "++",
    "--"].map String.toList

/-- The system functions that only convert their argument. -/
def casts : List (List Char) := ["$signed", "$unsigned"].map String.toList

def isSystemName (name : List Char) : Bool := name.head? = some '$' && 1 < name.length

/-- The next token opens an argument list. -/
def opensList (next : Option Token) : Bool := next.map Token.text = some ['(']

section Calls

variable (callee : Callee)

/-- A call with an argument list. -/
def hasListCall : List Token → Bool
  | [] => false
  | t :: rest =>
    (t.isName && t.text ∉ casts && opensList rest.head?) || hasListCall rest

/-- A call without an argument list, after the tokens of some texts. -/
def hasBareCall (before : List (List Char)) : List Token → Bool
  | [] => false
  | t :: rest =>
    (t.isName && t.text ∉ casts && !opensList rest.head? &&
      (isSystemName t.text || callee before t.text)) || hasBareCall (before ++ [t.text]) rest

/-- A name that is called, with or without an argument list. -/
def hasCall (before : List (List Char)) : List Token → Bool
  | [] => false
  | t :: rest =>
    (t.isName && t.text ∉ casts &&
      (opensList rest.head? || isSystemName t.text || callee before t.text)) ||
    hasCall (before ++ [t.text]) rest

theorem hasCall_eq (before : List (List Char)) (ts : List Token) :
    hasCall callee before ts = (hasListCall ts || hasBareCall callee before ts) := by
  induction ts generalizing before with
  | nil => rfl
  | cons t rest ih =>
    rw [hasCall, hasListCall, hasBareCall, ih]
    cases opensList rest.head? <;> grind

theorem hasListCall_shift (n : ℕ) (ts : List Token) :
    hasListCall (ts.map (Token.shift n)) = hasListCall ts := by
  have hopens (ts : List Token) :
      opensList (ts.map (Token.shift n)).head? = opensList ts.head? := by
    cases ts <;> rfl
  induction ts with
  | nil => rfl
  | cons t rest ih =>
    rw [List.map_cons, hasListCall, hasListCall, ih, hopens]
    rfl

theorem exists_of_hasListCall {ts : List Token} (h : hasListCall ts) :
    ∃ before t next after, ts = before ++ t :: next :: after ∧ t.isName ∧ t.text ∉ casts ∧
      next.text = ['('] := by
  induction ts with
  | nil => cases h
  | cons t rest ih =>
    rw [hasListCall, Bool.or_eq_true] at h
    rcases h with hhead | hrest
    · cases rest with
      | nil => simp [opensList] at hhead
      | cons next rest =>
        simp only [List.head?_cons, opensList, Option.map_some, Bool.and_eq_true,
          decide_eq_true_eq, Option.some.injEq] at hhead
        exact ⟨[], t, next, rest, rfl, hhead.1.1, hhead.1.2, hhead.2⟩
    · obtain ⟨before, t', next, after, rfl, hcall⟩ := ih hrest
      exact ⟨t :: before, t', next, after, rfl, hcall⟩

/-- The tokens contain no assignment, increment, decrement or call. -/
structure SideEffectFree (ts : List Token) : Prop where
  assign : ∀ t ∈ ts, t.text ∉ assignmentOperators
  call : hasCall callee [] ts = false

end Calls

end Verilog
