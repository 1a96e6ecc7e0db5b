import NovaRtl.Transforms.BooleanTree.Rewrite

/-!
# What balancing preserves

The source of a match is a chain, which associates to the left, and the edit replaces it by the
balanced tree of the same operands. As the operators are associative on four-state vectors, the
two expressions have one value.
-/

namespace NovaRtl.BooleanTree

open Text Pattern FourState

section Expressions

/-- The operands in a tree, which is built from the first operand and the others. -/
def treeOf (tree : String → List String → Reduction String) (operator : Operator) :
    List String → Expression String
  | [] => .operand ""
  | operand :: rest => (tree operand rest).eval .operand (.binary operator)

variable {classes : CharClasses} {operandText : String → Prop} {operator : Operator}
variable {level : ℕ}

/-- `_balanced` brackets every node of a tree. -/
theorem written_bracketed {t : Reduction String} (h : ∀ a ∈ t.leaves, operandText a)
    (hspace : classes.isSpace ' ') :
    Written classes operandText level (t.eval .operand (.binary operator))
      (t.eval id fun left right => s!"({left} {operator.symbol} {right})").toList := by
  have hblank : Blank classes [' '] := by simpa [Blank] using hspace
  induction t generalizing level with
  | leaf a => exact .operand (h a (List.mem_singleton_self a))
  | node left right ihleft ihright =>
    have hl : Written classes operandText operator.level _ _ :=
      ihleft fun a ha => h a (List.mem_append_left _ ha)
    have hr : Written classes operandText (operator.level + 1) _ _ :=
      ihright fun a ha => h a (List.mem_append_right _ ha)
    have hnode : Written classes operandText level _ _ := .bracketed
      (.binary (Nat.zero_le _) (.spaced blank_nil hblank hl) (.spaced hblank blank_nil hr))
    simpa [Reduction.eval, toString] using hnode

theorem written_balancedText {operands : List String} (hne : operands ≠ [])
    (h : ∀ a ∈ operands, operandText a) (hspace : classes.isSpace ' ') :
    Written classes operandText level (treeOf Reduction.balanced operator operands)
      (balancedText operator operands).toList := by
  obtain ⟨a, rest, rfl⟩ := List.exists_cons_of_ne_nil hne
  rw [balancedText, balance_eq_eval]
  apply written_bracketed _ hspace
  intro b hb
  apply h b
  rwa [← Reduction.leaves_balanced a rest]

end Expressions

/-! ## Matches -/

variable {hashes : Hashes} {m : BooleanTreeMatch hashes} {classes : CharClasses}
variable {context : BooleanTreeContext} {parameters : BooleanTreeParameters} {edit : SourceEdit}

namespace BooleanTreeMatch

/-- The expression of the source. -/
def chain (m : BooleanTreeMatch hashes) : Expression String :=
  treeOf Reduction.serial m.operator m.operands

/-- The expression of the edit. -/
def balanced (m : BooleanTreeMatch hashes) : Expression String :=
  treeOf Reduction.balanced m.operator m.operands

theorem operands_cons (m : BooleanTreeMatch hashes) :
    ∃ operand rest, m.operands = operand :: rest := by
  apply List.exists_cons_of_ne_nil
  intro hnil
  have := m.four_le
  simp [hnil] at this

end BooleanTreeMatch

open BooleanTreeMatch

/-- What the checks of `match` establish. -/
theorem match_sound (h : match_ classes context = .ok m) :
    m.context = context ∧ ∃ matched,
      (assignmentPattern classes).fullmatch context.sourceText.toList = some matched ∧
      m.assignmentTarget = String.ofList (matched.group "target") ∧
      present (matched.group "expression") = [m.operator] ∧
      splitStrip classes m.operator.symbol (matched.group "expression") =
        m.operands.map String.toList ∧
      ∀ operand ∈ m.operands, isOperand classes operand.toList := by
  simp only [match_, bind_eq_ok, require_eq_ok] at h
  obtain ⟨⟨⟩, -, ⟨⟩, -, ⟨⟩, -, ⟨⟩, -, ⟨⟩, -, ⟨⟩, -, h⟩ := h
  split at h
  · cases h
  next matched hmatched =>
    obtain ⟨⟨⟩, -, h⟩ := bind_eq_ok.mp h
    split at h
    next operator hpresent =>
      simp only [bind_eq_ok, require_eq_ok] at h
      obtain ⟨⟨⟩, ⟨-, hall⟩, hmake⟩ := h
      unfold BooleanTreeMatch.make at hmake
      split at hmake
      · obtain rfl := Except.ok.inj hmake
        refine ⟨rfl, matched, hmatched, rfl, hpresent, ?_, ?_⟩
        · simp
        · simpa using hall
      · cases hmake
    · cases h

theorem source_assigns (h : match_ classes context = .ok m) :
    Assigns classes (fun a => isOperand classes a.toList) m.assignmentTarget m.chain
      context.sourceText := by
  obtain ⟨-, matched, hmatched, htarget, -, hsplit, hoperands⟩ := match_sound h
  obtain ⟨operand, rest, hcons⟩ := m.operands_cons
  rw [htarget]
  apply assigns_of_fullmatch hmatched
  rw [chain, hcons]
  rw [hcons] at hsplit hoperands
  apply (written_splitStrip _).mono (Nat.zero_le _)
  rw [hsplit, List.forall₂_map_right_iff, List.forall₂_same]
  intro a ha
  exact .operand (hoperands a ha)

/-- No operand contains an operator. -/
theorem symbol_notMem_operand (h : match_ classes context = .ok m) {operand : String}
    (hoperand : operand ∈ m.operands) (op : Operator) : op.symbol ∉ operand.toList := by
  obtain ⟨-, matched, -, -, hpresent, hsplit, -⟩ := match_sound h
  intro hsymbol
  have hpart : operand.toList ∈
      splitStrip classes m.operator.symbol (matched.group "expression") := by
    rw [hsplit]
    exact List.mem_map_of_mem hoperand
  obtain ⟨hmem, hne⟩ := of_mem_splitStrip hpart hsymbol
  have hop : op ∈ present (matched.group "expression") := by
    refine List.mem_filter.mpr ⟨?_, by simpa using hmem⟩
    cases op <;> decide
  rw [hpresent, List.mem_singleton] at hop
  exact hne (congrArg Operator.symbol hop)

/-- The edit assigns the balanced tree. -/
theorem edit_assigns (hspace : classes.isSpace ' ') (hmatch : match_ classes context = .ok m)
    (h : m.rewrite parameters = .ok edit) :
    edit.toSourceRange = context.toSourceRange ∧ edit.relativePath = context.relativePath ∧
      Assigns classes (fun a => isOperand classes a.toList) m.assignmentTarget m.balanced
        edit.replacement := by
  obtain ⟨hcontext, -, -, -, -, -, hoperands⟩ := match_sound hmatch
  obtain ⟨operand, rest, hcons⟩ := m.operands_cons
  simp only [BooleanTreeMatch.rewrite, bind_eq_ok] at h
  obtain ⟨⟨⟩, -, h⟩ := h
  obtain ⟨hrange, hpath, -, hreplacement⟩ := RewriteContext.edit_eq_ok h
  rw [hcontext] at hrange hpath
  refine ⟨hrange, hpath, assigns_printed hspace ?_ hreplacement⟩
  exact written_balancedText (by simp [hcons]) hoperands hspace

/-! ## Values -/

theorem balanced_eval (ρ : String → Vec) : m.balanced.eval ρ = m.chain.eval ρ := by
  obtain ⟨operand, rest, hcons⟩ := m.operands_cons
  simp only [balanced, chain, hcons, treeOf, Expression.eval_tree]
  apply Reduction.eval_eq_of_leaves
  rw [Reduction.leaves_balanced, Reduction.leaves_serial]

theorem operands_chain : m.chain.operands = m.operands := by
  obtain ⟨operand, rest, hcons⟩ := m.operands_cons
  simp only [chain, hcons, treeOf, Expression.operands_tree_operand, Reduction.leaves_serial]

theorem operands_balanced : m.balanced.operands = m.operands := by
  obtain ⟨operand, rest, hcons⟩ := m.operands_cons
  simp only [balanced, hcons, treeOf, Expression.operands_tree_operand, Reduction.leaves_balanced]

theorem depth_balanced : m.balanced.depth = Nat.clog 2 m.operands.length := by
  obtain ⟨operand, rest, hcons⟩ := m.operands_cons
  simp only [balanced, hcons, treeOf, Expression.depth_tree, Reduction.depth_balanced,
    List.length_cons]

theorem fourStateBinary_eq (operator : Operator) : fourStateBinary operator = operator.onBits := by
  funext left right
  cases operator <;> cases left <;> cases right <;> rfl

theorem onBits_seen (operator : Operator) (left right : Logic) :
    operator.onBits (seen left) right = operator.onBits left right ∧
      operator.onBits left (seen right) = operator.onBits left right := by
  cases operator <;> cases left <;> cases right <;> exact ⟨rfl, rfl⟩

/-- The two evaluations of `transforms/boolean_tree.py` agree. On one floating bit they differ. -/
theorem evaluateBalanced_eq (operator : Operator) {values : List Logic}
    (h : 2 ≤ values.length) :
    evaluateBalanced operator values = evaluateSerial operator values := by
  obtain ⟨a, b, rest, rfl⟩ : ∃ a b rest, values = a :: b :: rest := by
    match values, h with
    | a :: b :: rest, _ => exact ⟨a, b, rest, rfl⟩
  have hright : (fun left right => operator.onBits left (seen right)) = operator.onBits := by
    funext left right
    exact (onBits_seen operator left right).2
  have hleaves := Reduction.leaves_balanced a (b :: rest)
  rw [evaluateBalanced, evaluateSerial, balance_eq_eval, fourStateBinary_eq]
  rw [Reduction.balanced] at hleaves
  rw [Reduction.eval_of_leaves hleaves, List.foldl_map, hright, List.foldl_cons, List.foldl_cons,
    (onBits_seen operator a b).1]

/-- `evaluate_serial` computes the chain bit by bit. -/
theorem evaluateSerial_digit (ρ : String → Vec) (i : ℕ) :
    evaluateSerial m.operator (m.operands.map fun operand => (ρ operand).digit i) =
      some ((m.chain.eval ρ).digit i) := by
  obtain ⟨operand, rest, hcons⟩ := m.operands_cons
  simp only [chain, hcons, treeOf, Expression.eval_tree, Expression.digit_eval_tree,
    Expression.eval]
  rw [Reduction.eval_serial, List.map_cons, evaluateSerial, fourStateBinary_eq]

/-- Source and edit of a match assign to one target: the source a chain, the edit the balanced tree
of its operands, which has the value of the chain and logarithmic depth. -/
theorem balanced_equivalent (hspace : classes.isSpace ' ')
    (hmatch : match_ classes context = .ok m) (hrewrite : m.rewrite parameters = .ok edit) :
    edit.toSourceRange = context.toSourceRange ∧ edit.relativePath = context.relativePath ∧
      Assigns classes (fun a => isOperand classes a.toList) m.assignmentTarget m.chain
        context.sourceText ∧
      Assigns classes (fun a => isOperand classes a.toList) m.assignmentTarget m.balanced
        edit.replacement ∧
      (∀ operand ∈ m.operands, ∀ op : Operator, op.symbol ∉ operand.toList) ∧
      m.chain.operands = m.operands ∧ m.balanced.operands = m.operands ∧
      (∀ ρ : String → Vec, m.balanced.eval ρ = m.chain.eval ρ) ∧
      (∀ values : List Logic, values.length = m.operands.length →
        evaluateBalanced m.operator values = evaluateSerial m.operator values) ∧
      m.balanced.depth = Nat.clog 2 m.operands.length := by
  obtain ⟨hrange, hpath, hedit⟩ := edit_assigns hspace hmatch hrewrite
  refine ⟨hrange, hpath, source_assigns hmatch, hedit,
    fun operand hoperand op => symbol_notMem_operand hmatch hoperand op,
    operands_chain, operands_balanced, balanced_eval, fun values hvalues => ?_, depth_balanced⟩
  have hfour := m.four_le
  exact evaluateBalanced_eq m.operator (by omega)

section Sample

/-- The hashes of the sample. -/
def sampleHashes : Hashes where
  canonical _ _ _ _ := "sha256:ce1975e82f121eeb4f9abc8dabf24ecc0b7e2e33a8d2863385f58d9bbe50f801"
  ofText _ := "sha256:a6f527532998912d5b4c203c043583571af06ae57cbb73abdaa4af13d2a74794"

def sampleText : String :=
  "y = a ^ b ^ c ^ d ^ e[1];"

theorem sampleRange_ok : 1 ≤ 3 ∧ 1 ≤ 5 ∧ 5 < 30 := by decide

theorem sampleText_ok : "rtl/tree.sv" ≠ "" ∧ sampleText ≠ "" ∧ "top.u_tree" ≠ "" ∧
    isEntityId "clk_core" := by
  decide +kernel

theorem sampleOperandWidth_pos : 0 < 8 := by decide

theorem sampleTarget_ne : "y" ≠ "" := by decide

def sampleContext : BooleanTreeContext where
  toRewriteContext := .ofSlice 3 5 30 "rtl/tree.sv" sampleText "top.u_tree" "clk_core"
    sampleRange_ok sampleText_ok
  operandWidth := 8
  equalWidthsVerified := true
  unsignedVerified := true
  fourStateAssociative := true
  operandWidth_pos := sampleOperandWidth_pos

def sampleMatch : BooleanTreeMatch sampleHashes where
  context := sampleContext
  assignmentTarget := "y"
  operator := .xor
  operands := ["a", "b", "c", "d", "e[1]"]
  matchHash := "sha256:ce1975e82f121eeb4f9abc8dabf24ecc0b7e2e33a8d2863385f58d9bbe50f801"
  assignmentTarget_ne := sampleTarget_ne
  operands_ne := by decide
  four_le := by decide
  le_sixtyfour := by decide
  matchHash_eq := rfl

def sampleEdit : SourceEdit where
  toSourceRange := sampleContext.toSourceRange
  relativePath := "rtl/tree.sv"
  expectedTextHash := "sha256:a6f527532998912d5b4c203c043583571af06ae57cbb73abdaa4af13d2a74794"
  replacement := "y = ((a ^ b) ^ (c ^ (d ^ e[1])));"
  astNodeKind := "ExpressionStatement"
  path_normalized := by decide +kernel
  hash_ref := by decide +kernel
  astNodeKind_ne := expressionStatement_ne

theorem sampleMatch_eq : match_ .ascii sampleContext = .ok sampleMatch := by decide +kernel

theorem sampleEdit_eq : sampleMatch.rewrite { operator := .xor } = .ok sampleEdit := by
  decide +kernel

theorem balanced_equivalent_sample :
    (∀ ρ : String → Vec, sampleMatch.balanced.eval ρ = sampleMatch.chain.eval ρ) ∧
      sampleMatch.balanced.depth = Nat.clog 2 sampleMatch.operands.length := by
  obtain ⟨-, -, -, -, -, -, -, hvalue, -, hdepth⟩ :=
    balanced_equivalent rfl sampleMatch_eq sampleEdit_eq
  exact ⟨hvalue, hdepth⟩

end Sample

end NovaRtl.BooleanTree
