import Mathlib.Data.List.TakeWhile
import NovaRtl.FourState.Procedural
import NovaRtl.Transforms.PriorityMux.Parser

/-!
# The chains that the parser accepts

`Reads` is the grammar of conditional assignments: it relates a statement to its tokens, given
the texts of the statement's expressions. `chainOf` is the statement of a chain. `parse_sound`
says that an accepted source is the chain of the parser's result.

`parse_ne_outOfFuel` says that the bound on the parser's loop is never reached.
-/

namespace NovaRtl.PriorityMux

open Text PriorityMuxError FourState

variable {tokens rest inner : List Token} {text printed : String}

theorem of_peek (h : peek tokens = some text) :
    ∃ token, token.text = text ∧ tokens = token :: tokens.tail := by
  cases tokens with
  | nil => cases h
  | cons token rest => exact ⟨token, Option.some.inj h, rfl⟩

theorem expect_sound (h : expect text printed tokens = .ok rest) :
    ∃ token, token.text = text ∧ tokens = token :: rest := by
  unfold expect at h
  split at h
  next hpeek =>
    obtain rfl := Except.ok.inj h
    exact of_peek hpeek
  next => cases h

theorem afterElse_sound (h : afterElse tokens = .ok rest) :
    ∃ token, token.text = "else" ∧ tokens = token :: rest := by
  unfold afterElse at h
  split at h
  next hpeek =>
    obtain rfl := Except.ok.inj h
    exact of_peek hpeek
  next => cases h

theorem untilClosed_sound {depth : ℕ} (h : untilClosed depth tokens = some (inner, rest)) :
    ∃ close, close.text = ")" ∧ tokens = inner ++ close :: rest := by
  -- a token that the loop passes over
  have skip {depth token tokens inner}
      (ih : ∀ {inner}, untilClosed depth tokens = some (inner, rest) →
        ∃ close : Token, close.text = ")" ∧ tokens = inner ++ close :: rest)
      (h : ((untilClosed depth tokens).map fun p => (token :: p.1, p.2)) = some (inner, rest)) :
      ∃ close, close.text = ")" ∧ token :: tokens = inner ++ close :: rest := by
    obtain ⟨⟨inner', rest'⟩, hmore, hpair⟩ := Option.map_eq_some_iff.mp h
    obtain ⟨rfl, rfl⟩ := Prod.mk.inj hpair
    obtain ⟨close, hclose, rfl⟩ := ih hmore
    exact ⟨close, hclose, rfl⟩
  induction tokens generalizing depth inner with
  | nil => cases h
  | cons token tokens ih =>
    unfold untilClosed at h
    split at h
    · exact skip ih h
    split at h
    next hclose =>
      cases depth with
      | zero =>
        obtain ⟨rfl, rfl⟩ := Prod.mk.inj (Option.some.inj h)
        exact ⟨token, hclose, rfl⟩
      | succ depth => exact skip ih h
    · exact skip ih h

theorem parenthesizedExpression_sound
    (h : parenthesizedExpression tokens = .ok (inner, rest)) :
    ∃ opening close, opening.text = "(" ∧ close.text = ")" ∧
      tokens = opening :: (inner ++ close :: rest) := by
  obtain ⟨left, hopen, hclosed⟩ := bind_eq_ok.mp h
  obtain ⟨opening, hopening, rfl⟩ := expect_sound hopen
  split at hclosed
  next parsed hparsed =>
    obtain rfl := Except.ok.inj hclosed
    obtain ⟨close, hclose, rfl⟩ := untilClosed_sound hparsed
    exact ⟨opening, close, hopening, hclose, rfl⟩
  next => cases hclosed

theorem statementTokens_sound {d : Depths} (h : statementTokens d tokens = .ok (inner, rest)) :
    ∃ semicolon, semicolon.text = ";" ∧ tokens = inner ++ semicolon :: rest := by
  induction tokens generalizing d inner with
  | nil => cases h
  | cons token tokens ih =>
    unfold statementTokens at h
    split at h
    next hend =>
      obtain ⟨rfl, rfl⟩ := Prod.mk.inj (Except.ok.inj h)
      exact ⟨token, hend.1, rfl⟩
    split at h
    · cases h
    obtain ⟨⟨inner', rest'⟩, hmore, hpair⟩ := bind_eq_ok.mp h
    obtain ⟨rfl, rfl⟩ := Prod.mk.inj (Except.ok.inj hpair)
    obtain ⟨semicolon, hsemicolon, rfl⟩ := ih hmore
    exact ⟨semicolon, hsemicolon, rfl⟩

theorem splitAssignment_sound {statement target value : List Token}
    (h : splitAssignment statement = .ok (target, value)) :
    ∃ equals, equals.text = "=" ∧ statement = target ++ equals :: value := by
  simp only [splitAssignment] at h
  split at h
  · cases h
  next hone =>
    have hcount : statement.countP isEquals = 1 := not_not.mp hone
    split_ifs at h
    obtain ⟨rfl, rfl⟩ := Prod.mk.inj (Except.ok.inj h)
    have hne : statement.dropWhile (!isEquals ·) ≠ [] := by
      intro hnil
      have hall := List.dropWhile_eq_nil_iff.mp hnil
      have hzero : statement.countP isEquals = 0 := List.countP_eq_zero.mpr (by simpa using hall)
      omega
    obtain ⟨equals, after, hdrop⟩ := List.exists_cons_of_ne_nil hne
    have hequals : isEquals equals := by
      simpa [hdrop] using List.head_dropWhile_not (!isEquals ·) hne
    refine ⟨equals, of_decide_eq_true hequals, ?_⟩
    rw [hdrop, List.tail_cons, ← hdrop, List.takeWhile_append_dropWhile]

variable (classes : CharClasses) (source : String)

/-- `target = value ;` -/
inductive IsAssignment : (target value : String) → List Token → Prop where
  | intro {target value : List Token} {equals semicolon : Token} {text : String}
      (hequals : equals.text = "=") (hsemicolon : semicolon.text = ";")
      (hvalue : expressionText classes source value = .ok text) :
      IsAssignment (joinTexts target) text (target ++ equals :: value ++ [semicolon])

/-- The tokens of an assignment or of an `if` with an `else`. -/
inductive Reads {α : Type} (text : α → String) : Stmt α → List Token → Prop where
  | assign {target : String} {value : α} {tokens : List Token}
      (h : IsAssignment classes source target (text value) tokens) :
      Reads text (.assign target value) tokens
  | ite {condition : α} {yes no : Stmt α} {tokens yesTokens noTokens : List Token}
      {if_ opening close else_ : Token}
      (hif : if_.text = "if") (hopening : opening.text = "(") (hclose : close.text = ")")
      (helse : else_.text = "else")
      (hcondition : expressionText classes source tokens = .ok (text condition))
      (hyes : Reads text yes yesTokens) (hno : Reads text no noTokens) :
      Reads text (.ite (.source condition) yes no)
        (if_ :: opening :: (tokens ++ close :: (yesTokens ++ else_ :: noTokens)))

/-- Arms are pairs of a condition and a value. -/
def chainOf {α : Type} (target : String) (default : α) : List (α × α) → Stmt α
  | [] => .assign target default
  | (condition, value) :: arms =>
    .ite (.source condition) (.assign target value) (chainOf target default arms)

def PriorityBranch.arm (branch : PriorityBranch) : String × String :=
  (branch.condition, branch.value)

variable {classes source}

theorem assignment_sound {target value : String}
    (h : assignment classes source tokens = .ok ((target, value), rest)) :
    ∃ assigns, IsAssignment classes source target value assigns ∧ tokens = assigns ++ rest := by
  simp only [assignment, bind_eq_ok, Except.ok.injEq, Prod.mk.injEq] at h
  obtain ⟨⟨statement, left⟩, hstatement, ⟨targetTokens, valueTokens⟩, hsplit, text, htext,
    ⟨rfl, rfl⟩, rfl⟩ := h
  obtain ⟨semicolon, hsemicolon, rfl⟩ := statementTokens_sound hstatement
  obtain ⟨equals, hequals, rfl⟩ := splitAssignment_sound hsplit
  exact ⟨_, .intro hequals hsemicolon htext, by simp⟩

theorem make_eq_ok {condition value : String} {branch : PriorityBranch}
    (h : PriorityBranch.make condition value = .ok branch) :
    branch.condition = condition ∧ branch.value = value := by
  unfold PriorityBranch.make at h
  split at h
  · obtain rfl := Except.ok.inj h
    exact ⟨rfl, rfl⟩
  · cases h

/-- The texts of a statement's expressions are all that its tokens depend on. -/
theorem reads_chainOf {α : Type} {text : α → String} {target : String} {default : α}
    {arms : List (α × α)}
    (h : Reads classes source id
      (chainOf target (text default) (arms.map (Prod.map text text))) tokens) :
    Reads classes source text (chainOf target default arms) tokens := by
  induction arms generalizing tokens with
  | nil =>
    cases h with
    | assign h => exact .assign h
  | cons arm arms ih =>
    cases h with
    | ite hif hopening hclose helse hcondition hyes hno =>
      refine .ite hif hopening hclose helse hcondition ?_ (ih hno)
      cases hyes with
      | assign hvalue => exact .assign hvalue

/-- From an `if` on, the loop reads a chain that assigns to the target of the earlier arms. -/
theorem parseFrom_sound {fuel : ℕ} {previous : Option String} {branches all : List PriorityBranch}
    {target default : String}
    (h : parseFrom classes source fuel previous branches tokens = .ok (target, all, default)) :
    (∀ earlier ∈ previous, earlier = target) ∧ ∃ more, all = branches ++ more ∧
      Reads classes source id (chainOf target default (more.map PriorityBranch.arm)) tokens := by
  induction fuel generalizing previous branches tokens with
  | zero => cases h
  | succ fuel ih =>
    simp only [parseFrom, bind_eq_ok, require_eq_ok] at h
    obtain ⟨left, hif, ⟨condition, left⟩, hparen, text, htext, ⟨⟨armTarget, value⟩, left⟩, hassign,
      ⟨⟩, hsame, branch, hbranch, left, helse, hrest⟩ := h
    obtain ⟨if_, hif_, rfl⟩ := expect_sound hif
    obtain ⟨opening, close, hopening, hclose, rfl⟩ := parenthesizedExpression_sound hparen
    obtain ⟨assigns, hassigns, rfl⟩ := assignment_sound hassign
    obtain ⟨rfl, rfl⟩ := make_eq_ok hbranch
    obtain ⟨else_, helse_, rfl⟩ := afterElse_sound helse
    -- the first arm, before any statement for `else`
    have harm {no : Stmt String} (hno : Reads classes source id no left) :
        Reads classes source id
          (.ite (.source branch.condition) (.assign armTarget branch.value) no)
          (if_ :: opening :: (condition ++ close :: (assigns ++ else_ :: left))) :=
      .ite hif_ hopening hclose helse_ htext (.assign hassigns) hno
    split at hrest
    next =>
      obtain ⟨htarget, more, rfl, hchain⟩ := ih hrest
      obtain rfl : armTarget = target := htarget armTarget rfl
      exact ⟨hsame, branch :: more, by simp, harm hchain⟩
    next =>
      simp only [bind_eq_ok, require_eq_ok, Except.ok.injEq, Prod.mk.injEq] at hrest
      obtain ⟨⟨⟨defaultTarget, defaultValue⟩, rest⟩, hdefault, ⟨⟩, rfl, ⟨⟩, rfl, ⟨⟩, -,
        rfl, rfl, rfl⟩ := hrest
      obtain ⟨defaultTokens, hdefaultTokens, rfl⟩ := assignment_sound hdefault
      refine ⟨hsame, [branch], rfl, ?_⟩
      rw [List.append_nil] at harm ⊢
      exact harm (.assign hdefaultTokens)

/-- An accepted source is a chain. -/
theorem parse_sound {target default : String} {branches : List PriorityBranch}
    (h : parse classes source = .ok (target, branches, default)) :
    ∃ tokens, lex classes source = .ok tokens ∧
      Reads classes source id (chainOf target default (branches.map PriorityBranch.arm)) tokens := by
  obtain ⟨tokens, hlex, hparse⟩ := bind_eq_ok.mp h
  obtain ⟨-, more, rfl, hchain⟩ := parseFrom_sound hparse
  exact ⟨tokens, hlex, hchain⟩

/-! ## The bound on the loop -/

theorem expect_ne : expect text printed tokens ≠ .error outOfFuel := by
  unfold expect
  split <;> simp

theorem afterElse_ne : afterElse tokens ≠ .error outOfFuel := by
  unfold afterElse
  split <;> simp

theorem make_ne {condition value : String} :
    PriorityBranch.make condition value ≠ .error outOfFuel := by
  unfold PriorityBranch.make
  split <;> simp

theorem expressionText_ne : expressionText classes source tokens ≠ .error outOfFuel := by
  unfold expressionText
  split
  · simp
  · simp only [sideEffectFree]
    split_ifs <;> simp

theorem parenthesizedExpression_ne : parenthesizedExpression tokens ≠ .error outOfFuel := by
  refine bind_ne_error expect_ne fun left _ => ?_
  split <;> simp

theorem statementTokens_ne {d : Depths} : statementTokens d tokens ≠ .error outOfFuel := by
  induction tokens generalizing d with
  | nil => simp [statementTokens, simpleAssignments]
  | cons token tokens ih =>
    unfold statementTokens
    split_ifs
    · simp
    split
    · simp
    · exact bind_ne_error ih fun _ _ => by simp

theorem splitAssignment_ne : splitAssignment tokens ≠ .error outOfFuel := by
  simp only [splitAssignment, simpleAssignments]
  split_ifs <;> simp

theorem assignment_ne : assignment classes source tokens ≠ .error outOfFuel :=
  bind_ne_error statementTokens_ne fun _ _ => bind_ne_error splitAssignment_ne fun _ _ =>
    bind_ne_error expressionText_ne fun _ _ => by simp

theorem parseFrom_ne {fuel : ℕ} {previous : Option String} {branches : List PriorityBranch}
    (hfuel : tokens.length < fuel) :
    parseFrom classes source fuel previous branches tokens ≠ .error outOfFuel := by
  induction fuel generalizing previous branches tokens with
  | zero => omega
  | succ fuel ih =>
    refine bind_ne_error expect_ne fun left hif => ?_
    refine bind_ne_error parenthesizedExpression_ne fun ⟨condition, left'⟩ hparen => ?_
    refine bind_ne_error expressionText_ne fun _ _ => ?_
    refine bind_ne_error assignment_ne fun ⟨⟨target, value⟩, left''⟩ hassign => ?_
    refine bind_ne_error (require_ne (by simp [sameTarget])) fun _ _ => ?_
    refine bind_ne_error make_ne fun _ _ => ?_
    refine bind_ne_error afterElse_ne fun more helse => ?_
    split
    · -- an arm has tokens of its own
      obtain ⟨if_, -, rfl⟩ := expect_sound hif
      obtain ⟨opening, close, -, -, rfl⟩ := parenthesizedExpression_sound hparen
      obtain ⟨assigns, -, rfl⟩ := assignment_sound hassign
      obtain ⟨else_, -, rfl⟩ := afterElse_sound helse
      refine ih ?_
      simp only [List.length_cons, List.length_append] at hfuel
      omega
    · refine bind_ne_error assignment_ne fun _ _ => ?_
      refine bind_ne_error (require_ne (by simp [sameTarget])) fun _ _ => ?_
      refine bind_ne_error (require_ne (by simp)) fun _ _ => ?_
      exact bind_ne_error (require_ne (by simp)) fun _ _ => by simp

theorem scan_ne {c : Char} {chars : List Char} :
    scan classes c chars ≠ .error outOfFuel := by
  unfold scan
  repeat' split
  all_goals simp

theorem lexFrom_ne {skip index : ℕ} {chars : List Char} :
    lexFrom classes skip index chars ≠ .error outOfFuel := by
  induction chars generalizing skip index with
  | nil => simp [lexFrom]
  | cons c rest ih =>
    unfold lexFrom
    split
    · exact ih
    · refine bind_ne_error scan_ne fun scanned _ => ?_
      split
      · exact ih
      · exact bind_ne_error ih fun _ _ => by simp [pure, Except.pure]

/-- The tokens bound the loop. -/
theorem parse_ne_outOfFuel : parse classes source ≠ .error outOfFuel :=
  bind_ne_error lexFrom_ne fun _ _ => parseFrom_ne (Nat.lt_succ_self _)

end NovaRtl.PriorityMux
