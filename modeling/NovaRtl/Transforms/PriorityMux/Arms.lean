import NovaRtl.Transforms.PriorityMux.Slices
import NovaRtl.Transforms.PriorityMux.Grammar

/-!
# The arms of a chain as parts of its tokens

`IsChain` divides the tokens of a source into arms. `parse_arms` says that the texts of the parser
are those of the arms, and `expressionText_eq_ok` what an accepted expression is.
-/

namespace NovaRtl.PriorityMux

open Text PriorityMuxError

variable {classes : CharClasses} {source text : String} {tokens rest part : List Token}
variable {first last : Token}

/-- The tokens of `target = value`. -/
structure Assign where
  target : List Token
  value : List Token

structure Arm extends Assign where
  condition : List Token

/-- The tokens of a target, which the parser prints one after the other. -/
structure IsTarget (target : List Token) : Prop where
  ne_nil : target ≠ []
  allowed : ∀ t ∈ target, allowedTarget t
  plain : ∀ t ∈ target, t.text ∉ sideEffectOperators

def IsAssign (assign : Assign) (tokens : List Token) : Prop :=
  IsTarget assign.target ∧ ∃ equals semicolon : Token, equals.text = "=" ∧ semicolon.text = ";" ∧
    tokens = assign.target ++ equals :: (assign.value ++ [semicolon])

/-- The tokens of a chain: its arms and its final assignment. -/
inductive IsChain : List Arm → Assign → List Token → Prop where
  | last {assign : Assign} {tokens : List Token} (h : IsAssign assign tokens) :
      IsChain [] assign tokens
  | arm {arm : Arm} {arms : List Arm} {last : Assign} {assign rest : List Token}
      {if_ opening close else_ : Token} (hif : if_.text = "if") (hopening : opening.text = "(")
      (hclose : close.text = ")") (helse : else_.text = "else")
      (hassign : IsAssign arm.toAssign assign) (hrest : IsChain arms last rest) :
      IsChain (arm :: arms) last
        (if_ :: opening :: (arm.condition ++ close :: (assign ++ else_ :: rest)))

variable (classes source) in
/-- The text and the printed target of an assignment. -/
def AssignText (assign : Assign) (target value : String) : Prop :=
  joinTexts assign.target = target ∧ expressionText classes source assign.value = .ok value

variable (classes source) in
def ArmText (target : String) (arm : Arm) (branch : PriorityBranch) : Prop :=
  expressionText classes source arm.condition = .ok branch.condition ∧
    AssignText classes source arm.toAssign target branch.value

theorem expressionText_eq_ok (h : expressionText classes source part = .ok text) :
    ∃ first last, part.head? = some first ∧ part.getLast? = some last ∧
      text = sliceText classes source first last ∧
      (∀ t ∈ part, t.text ∉ sideEffectOperators) ∧
      (∀ pair ∈ part.zip part.tail, isCall pair.1 pair.2 = false) ∧
      ∀ t ∈ part, isAmbiguous t = false := by
  unfold expressionText at h
  split at h
  · cases h
  next first rest =>
    split_ifs at h with heffect hcall hambiguous
    obtain rfl := Except.ok.inj h
    refine ⟨first, _, rfl, List.getLast?_eq_some_getLast _, rfl, ?_, ?_, ?_⟩
    · simpa using heffect
    · simpa using hcall
    · simpa using hambiguous

theorem splitAssignment_target {statement target value : List Token}
    (h : splitAssignment statement = .ok (target, value)) : IsTarget target := by
  simp only [splitAssignment] at h
  split_ifs at h with hone hempty heffect htarget
  obtain ⟨rfl, rfl⟩ := Prod.mk.inj (Except.ok.inj h)
  have hsub {t : Token} (ht : t ∈ statement.takeWhile (!isEquals ·)) : t ∈ statement :=
    (List.takeWhile_sublist _).mem ht
  refine ⟨fun hnil => hempty (.inl hnil), ?_, fun t ht heffects => heffect ?_⟩
  · simpa using htarget
  · exact List.any_eq_true.mpr ⟨t, hsub ht, by simpa using heffects⟩

theorem assignment_arms {target value : String}
    (h : assignment classes source tokens = .ok ((target, value), rest)) :
    ∃ assign assigns, IsAssign assign assigns ∧ AssignText classes source assign target value ∧
      tokens = assigns ++ rest := by
  simp only [assignment, bind_eq_ok, Except.ok.injEq, Prod.mk.injEq] at h
  obtain ⟨⟨statement, left⟩, hstatement, ⟨targetTokens, valueTokens⟩, hsplit, text, htext,
    ⟨rfl, rfl⟩, rfl⟩ := h
  have htarget := splitAssignment_target hsplit
  obtain ⟨semicolon, hsemicolon, rfl⟩ := statementTokens_sound hstatement
  obtain ⟨equals, hequals, rfl⟩ := splitAssignment_sound hsplit
  exact ⟨⟨targetTokens, valueTokens⟩, _, ⟨htarget, equals, semicolon, hequals, hsemicolon, rfl⟩,
    ⟨rfl, htext⟩, by simp⟩

theorem parseFrom_arms {fuel : ℕ} {previous : Option String} {branches all : List PriorityBranch}
    {target default : String}
    (h : parseFrom classes source fuel previous branches tokens = .ok (target, all, default)) :
    (∀ earlier ∈ previous, earlier = target) ∧ ∃ more arms last, all = branches ++ more ∧
      IsChain arms last tokens ∧ AssignText classes source last target default ∧
      List.Forall₂ (ArmText classes source target) arms more := by
  induction fuel generalizing previous branches tokens with
  | zero => cases h
  | succ fuel ih =>
    simp only [parseFrom, bind_eq_ok, require_eq_ok] at h
    obtain ⟨left, hif, ⟨condition, left⟩, hparen, text, htext, ⟨⟨armTarget, value⟩, left⟩, hassign,
      ⟨⟩, hsame, branch, hbranch, left, helse, hrest⟩ := h
    obtain ⟨if_, hif_, rfl⟩ := expect_sound hif
    obtain ⟨opening, close, hopening, hclose, rfl⟩ := parenthesizedExpression_sound hparen
    obtain ⟨assign, assigns, hassigns, harm, rfl⟩ := assignment_arms hassign
    obtain ⟨rfl, rfl⟩ := make_eq_ok hbranch
    obtain ⟨else_, helse_, rfl⟩ := afterElse_sound helse
    split at hrest
    next =>
      obtain ⟨htarget, more, arms, last, rfl, hchain, hlast, harms⟩ := ih hrest
      obtain rfl : armTarget = target := htarget armTarget rfl
      exact ⟨hsame, branch :: more, ⟨assign, condition⟩ :: arms, last, by simp,
        .arm hif_ hopening hclose helse_ hassigns hchain, hlast, .cons ⟨htext, harm⟩ harms⟩
    next =>
      simp only [bind_eq_ok, require_eq_ok, Except.ok.injEq, Prod.mk.injEq] at hrest
      obtain ⟨⟨⟨defaultTarget, defaultValue⟩, rest⟩, hdefault, ⟨⟩, rfl, ⟨⟩, rfl, ⟨⟩, -,
        rfl, rfl, rfl⟩ := hrest
      obtain ⟨last, lastTokens, hlast, hlastText, rfl⟩ := assignment_arms hdefault
      rw [List.append_nil]
      exact ⟨hsame, [branch], [⟨assign, condition⟩], last, rfl,
        .arm hif_ hopening hclose helse_ hassigns (.last hlast), hlastText,
        .cons ⟨htext, harm⟩ .nil⟩

/-- An accepted source is a chain, and its texts are those of the parser's result. -/
theorem parse_arms {target default : String} {branches : List PriorityBranch}
    (h : parse classes source = .ok (target, branches, default)) :
    ∃ tokens arms last, lex classes source = .ok tokens ∧ IsChain arms last tokens ∧
      AssignText classes source last target default ∧
      List.Forall₂ (ArmText classes source target) arms branches := by
  obtain ⟨tokens, hlex, hparse⟩ := bind_eq_ok.mp h
  obtain ⟨-, more, arms, last, rfl, hchain, hlast, harms⟩ := parseFrom_arms hparse
  exact ⟨tokens, arms, last, hlex, hchain, hlast, harms⟩

/-- The parts of a chain are parts of its tokens. -/
theorem IsAssign.parts {assign : Assign} (h : IsAssign assign tokens) :
    assign.target <:+: tokens ∧ assign.value <:+: tokens := by
  obtain ⟨-, equals, semicolon, -, -, rfl⟩ := h
  exact ⟨⟨[], _, rfl⟩, ⟨assign.target ++ [equals], [semicolon], by simp⟩⟩

theorem IsChain.parts {arms : List Arm} {last : Assign} (h : IsChain arms last tokens) :
    (last.target <:+: tokens ∧ last.value <:+: tokens) ∧ ∀ arm ∈ arms,
      arm.condition <:+: tokens ∧ arm.target <:+: tokens ∧ arm.value <:+: tokens := by
  induction h with
  | last h => exact ⟨h.parts, nofun⟩
  | @arm arm arms last assign rest if_ opening close else_ _ _ _ _ hassign _ ih =>
    have hrest {part : List Token} (hpart : part <:+: rest) :
        part <:+: if_ :: opening :: (arm.condition ++ close :: (assign ++ else_ :: rest)) :=
      hpart.trans ⟨if_ :: opening :: (arm.condition ++ close :: (assign ++ [else_])), [], by simp⟩
    have hpart {part : List Token} (hpart : part <:+: assign) :
        part <:+: if_ :: opening :: (arm.condition ++ close :: (assign ++ else_ :: rest)) :=
      hpart.trans ⟨if_ :: opening :: (arm.condition ++ [close]), else_ :: rest, by simp⟩
    refine ⟨ih.1.imp hrest hrest, List.forall_mem_cons.mpr ⟨⟨?_, ?_, ?_⟩, fun arm harm => ?_⟩⟩
    · exact ⟨[if_, opening], close :: (assign ++ else_ :: rest), by simp⟩
    · exact hpart hassign.parts.1
    · exact hpart hassign.parts.2
    · obtain ⟨hcondition, htarget, hvalue⟩ := ih.2 arm harm
      exact ⟨hrest hcondition, hrest htarget, hrest hvalue⟩

end NovaRtl.PriorityMux
