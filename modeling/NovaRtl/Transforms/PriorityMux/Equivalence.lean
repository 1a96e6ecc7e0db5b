import NovaRtl.Transforms.PriorityMux.Decode

/-!
# What the rewrite preserves

The conditions and values of a match are its `Piece`s, and a valuation gives a vector to each.
The chain and the block assign to the same target, but they select by different tests: `if`
tests whether some bit of a condition is known to be `1`, the block whether the condition is
equal to `1'b1`. `selected_agrees_iff` says when the tests select alike.
-/

namespace NovaRtl.PriorityMux

open Text FourState

section Meaning

variable {α : Type} {ρ : α → Vec} {s : State} {target : String} {default : α}
variable {arms : List (α × α)}

/-- The value of the first arm whose condition passes the test. -/
def selected (test : α → Bool) (default : α) (arms : List (α × α)) : α :=
  ((arms.find? fun arm => test arm.1).map Prod.snd).getD default

/-- The test of the block. -/
def isOne (v : Vec) : Bool := v.caseEq (.ofBit .one)

theorem chainOf_exec :
    (chainOf target default arms).exec ρ s = { s with
      assigned := s.assigned ++ [(target, ρ (selected (fun c => (ρ c).truth) default arms))] } := by
  induction arms with
  | nil => rfl
  | cons arm arms ih =>
    rw [chainOf, Stmt.exec, Expr.eval]
    by_cases htruth : (ρ arm.1).truth
    · simp [htruth, Stmt.exec, selected]
    · simp [htruth, ih, selected]

/-! ## The block -/

/-- `c` holds at `i` and nowhere before. -/
def isFirst (c : ℕ → Bool) (i : ℕ) : Bool := c i && !(List.range i).any c

theorem find_isFirst (c : ℕ → Bool) (n : ℕ) :
    (List.range n).find? (isFirst c) = (List.range n).find? c := by
  induction n with
  | zero => rfl
  | succ n ih =>
    rw [List.range_succ, List.find?_append, List.find?_append, ih]
    cases hfind : (List.range n).find? c with
    | some i => rfl
    | none =>
      have hnone : (List.range n).any c = false := by
        simpa [List.any_eq_false] using List.find?_eq_none.mp hfind
      simp [isFirst, hnone, List.find?_cons]

theorem matchBit_eval {c : ℕ → Bool} {i : ℕ} {locals : String → Vec}
    (hbits : ∀ j ≤ i, (locals conditionName).bit j = .ofBool (c j)) :
    (matchBit i).eval ρ locals = .ofBit (.ofBool (isFirst c i)) := by
  unfold matchBit
  split_ifs with hi
  · subst hi
    simp [Expr.eval, hbits 0 le_rfl, isFirst]
  · obtain ⟨k, rfl⟩ := Nat.exists_eq_succ_of_ne_zero hi
    have hor := Vec.reduceOr_lower c fun j hj => hbits j (Nat.le_succ_of_le hj)
    simp only [Expr.eval, Nat.succ_sub_one, hbits _ le_rfl, hor, Vec.not_ofBit, Vec.and_ofBit,
      Logic.not_ofBool, Logic.and_ofBool, isFirst]

theorem zipIdx_map_eq {β : Type} (f : (α × α) × ℕ → β) (default : α × α) :
    arms.zipIdx.map f = (List.range arms.length).map fun i => f (arms.getD i default, i) := by
  refine List.ext_getElem (by simp) fun i hi hi' => ?_
  have hlt : i < arms.length := by simpa using hi
  simp [List.getD_eq_getElem?_getD, hlt]

theorem selected_eq_range (test : α → Bool) (default : α) (arms : List (α × α)) :
    selected test default arms =
      match (List.range arms.length).find? fun i => test (arms.getD i (default, default)).1 with
      | some i => (arms.getD i (default, default)).2
      | none => default := by
  have harms : arms = (List.range arms.length).map fun i => arms.getD i (default, default) := by
    refine List.ext_getElem (by simp) fun i hi hi' => ?_
    simp [List.getD_eq_getElem?_getD, hi]
  unfold selected
  conv_lhs => rw [harms, List.find?_map]
  simp only [Function.comp_def]
  cases (List.range arms.length).find? _ <;> rfl

/-- The declarations of the block. -/
theorem declare_locals (s : State) (last : ℕ) :
    let t := s.declare [(conditionName, last), (matchName, last)]
    (t.locals conditionName).width = last + 1 ∧ (t.locals matchName).width = last + 1 ∧
      t.assigned = s.assigned := by
  have hne : conditionName ≠ matchName := by decide
  simp [State.declare, hne]

theorem decodeOf_assigned {name : String} (hne : arms ≠ []) :
    ((decodeOf name target default arms).exec ρ s).assigned =
      s.assigned ++ [(target, ρ (selected (fun c => isOne (ρ c)) default arms))] := by
  obtain ⟨last, hlast⟩ : ∃ last, arms.length = last + 1 :=
    Nat.exists_eq_succ_of_ne_zero (mt List.length_eq_zero_iff.mp hne)
  let get (i : ℕ) := arms.getD i (default, default)
  let c (i : ℕ) := isOne (ρ (get i).1)
  -- the states after the declarations, and after the assignments to each variable
  let s₀ := s.declare [(conditionName, last), (matchName, last)]
  let s₁ := execAll ρ ((List.range (last + 1)).map fun i =>
    .setBit conditionName i (.caseEq (.source (get i).1) .one)) s₀
  let s₂ := execAll ρ ((List.range (last + 1)).map fun i => .setBit matchName i (matchBit i)) s₁
  obtain ⟨hwidth, hwidth', hassigned⟩ := declare_locals s last
  have h₁ : BitsSet conditionName (List.range (last + 1)) (fun i => .ofBool (c i)) s₀ s₁ := by
    refine execAll_setBits (fun i hi => ?_) fun i _ locals _ => rfl
    rw [hwidth]
    exact List.mem_range.mp hi
  have hwidth₁ : (s₁.locals matchName).width = last + 1 := by
    rw [h₁.others matchName (by decide), hwidth']
  have h₂ : BitsSet matchName (List.range (last + 1)) (fun i => .ofBool (isFirst c i)) s₁ s₂ := by
    refine execAll_setBits (fun i hi => ?_) fun i hi locals hlocals => ?_
    · rw [hwidth₁]
      exact List.mem_range.mp hi
    · rw [matchBit_eval fun j hj => ?_]
      · rfl
      · have hmem : j ∈ List.range (last + 1) := by
          have := List.mem_range.mp hi
          exact List.mem_range.mpr (by omega)
        rw [hlocals conditionName (by decide), h₁.bits, if_pos hmem]
  have hbody : ((decodeOf name target default arms).exec ρ s).assigned =
      (execItems ρ (.ofBit .one) ((List.range (last + 1)).map fun i =>
        (.bit matchName i, .assign target (get i).2))
        ((Stmt.assign target default).exec ρ s₂) s₂).assigned := by
    have hmatches : [Stmt.setBit matchName 0 (matchBit 0)] ++ (List.range' 1 last).map
        (fun i => Stmt.setBit matchName i (matchBit i)) =
        (List.range (last + 1)).map fun i => Stmt.setBit (α := α) matchName i (matchBit i) := by
      rw [List.range_eq_range', List.range'_succ, List.map_cons]
      rfl
    simp only [decodeOf, Stmt.exec, hlast, Nat.add_sub_cancel]
    rw [List.append_assoc _ [_] (List.map _ _), hmatches,
      execAll_append, execAll_append, zipIdx_map_eq _ (default, default),
      zipIdx_map_eq _ (default, default), hlast]
    rfl
  rw [hbody, execItems_eq (b := fun i => .ofBool (isFirst c i)) fun i hi => ?_,
    selected_eq_range, hlast]
  · simp only [Logic.ofBool_eq_one, Bool.decide_eq_true, find_isFirst]
    have hassigned₂ : s₂.assigned = s.assigned := by
      rw [h₂.assigned, h₁.assigned, hassigned]
    cases (List.range (last + 1)).find? c with
    | some i => simp only [Stmt.exec, hassigned₂, get]
    | none => simp only [Stmt.exec, hassigned₂]
  · rw [Expr.eval, h₂.bits, if_pos hi]

end Meaning

/-! ## Matches -/

/-- The expressions of a match, by position. -/
inductive Piece where
  | condition (i : ℕ)
  | value (i : ℕ)
  | default
  deriving DecidableEq

variable {hashes : Hashes} (m : PriorityMuxMatch hashes)

namespace PriorityMuxMatch

def text : Piece → String
  | .condition i => (m.branches[i]?.map PriorityBranch.condition).getD ""
  | .value i => (m.branches[i]?.map PriorityBranch.value).getD ""
  | .default => m.defaultValue

def arms : List (Piece × Piece) :=
  (List.range m.branches.length).map fun i => (.condition i, .value i)

def chain : Stmt Piece := chainOf m.assignmentTarget .default m.arms

def decode : Stmt Piece := decodeOf m.blockName m.assignmentTarget .default m.arms

theorem arms_text : m.arms.map (Prod.map m.text m.text) = m.branches.map PriorityBranch.arm := by
  refine List.ext_getElem (by simp [arms]) fun i hi hi' => ?_
  have hlt : i < m.branches.length := by simpa using hi'
  simp [arms, text, PriorityBranch.arm, hlt]

end PriorityMuxMatch

open PriorityMuxMatch

variable {m} {classes : CharClasses} {context : PriorityMuxContext}

theorem match_sound (h : match_ classes context = .ok m) :
    m.context = context ∧
      parse classes context.sourceText = .ok (m.assignmentTarget, m.branches, m.defaultValue) := by
  simp only [match_, bind_eq_ok] at h
  obtain ⟨⟨⟩, -, ⟨target, branches, default⟩, hparse, hmake⟩ := h
  simp only [PriorityMuxMatch.make] at hmake
  split at hmake
  · obtain rfl := Except.ok.inj hmake
    exact ⟨rfl, hparse⟩
  · cases hmake

/-- The source of a match is its chain. -/
theorem match_reads (h : match_ classes context = .ok m) :
    ∃ tokens, lex classes context.sourceText = .ok tokens ∧
      Reads classes context.sourceText m.text m.chain tokens := by
  obtain ⟨tokens, hlex, hreads⟩ := parse_sound (match_sound h).2
  refine ⟨tokens, hlex, reads_chainOf ?_⟩
  rwa [m.arms_text]

theorem edit_eq {ε : Type} {context : RewriteContext} (edit : SourceEdit) (validation : ε)
    (kind : { kind : String // kind ≠ "" }) (hrange : context.toSourceRange = edit.toSourceRange)
    (hpath : context.relativePath = edit.relativePath) (hkind : kind.val = edit.astNodeKind) :
    context.edit validation edit.expectedTextHash edit.replacement kind = .ok edit := by
  have hnormalized : normalizedPath context.relativePath := hpath ▸ edit.path_normalized
  rw [RewriteContext.edit, dif_pos ⟨hnormalized, edit.hash_ref⟩]
  exact congrArg Except.ok (SourceEdit.data_injective (by simp [hrange, hpath, hkind]))

/-- The edit puts the block in the place of the chain. -/
theorem rewrite_replacement {parameters : PriorityMuxParameters} {edit : SourceEdit}
    (h : m.rewrite parameters = .ok edit) :
    edit.toSourceRange = m.context.toSourceRange ∧ edit.relativePath = m.context.relativePath ∧
      edit.replacement = "\n".intercalate (stmtLines m.text m.decode) := by
  have hdefault : m.text .default = m.defaultValue := rfl
  simp only [rewrite, PriorityMuxMatch.edit, bind_eq_ok] at h
  obtain ⟨⟨⟩, -, h⟩ := h
  obtain ⟨hrange, hpath, -, hreplacement⟩ := RewriteContext.edit_eq_ok h
  refine ⟨hrange, hpath, ?_⟩
  rw [hreplacement, replacement, PriorityMuxMatch.decode, replacementLines_eq m.arms_text hdefault]

/-! ## The two selections -/

/-- The piece that is assigned when conditions are tested with `test`. -/
def choice (test : ℕ → Bool) (n : ℕ) : Piece :=
  match (List.range n).find? test with
  | some i => .value i
  | none => .default

variable {ρ : Piece → Vec} {conditions : ℕ → Vec} {n : ℕ}

theorem selected_arms (test : Piece → Bool) :
    selected test .default m.arms = choice (fun i => test (.condition i)) m.branches.length := by
  unfold selected choice arms
  rw [List.find?_map]
  simp only [Function.comp_def]
  cases (List.range m.branches.length).find? _ <;> rfl

theorem chain_assignments : m.chain.assignments ρ =
    [(m.assignmentTarget,
      ρ (choice (fun i => (ρ (.condition i)).truth) m.branches.length))] := by
  rw [Stmt.assignments, chain, chainOf_exec, selected_arms]
  rfl

theorem decode_assignments : m.decode.assignments ρ =
    [(m.assignmentTarget,
      ρ (choice (fun i => isOne (ρ (.condition i))) m.branches.length))] := by
  have hne : m.arms ≠ [] := by
    have htwo := m.two_le
    rw [Ne, arms, List.map_eq_nil_iff, List.range_eq_nil]
    omega
  rw [Stmt.assignments, PriorityMuxMatch.decode, decodeOf_assigned hne, selected_arms]
  rfl

/-- The first true condition, if there is one, is `1`: its lowest bit is `1` and the others are
`0`. -/
def FirstTrueIsOne (conditions : ℕ → Vec) (n : ℕ) : Prop :=
  ∀ i < n, (conditions i).truth → (∀ j < i, (conditions j).truth = false) →
    isOne (conditions i)

theorem choice_eq_value_iff {test : ℕ → Bool} {i : ℕ} :
    choice test n = .value i ↔ i < n ∧ test i ∧ ∀ j < i, test j = false := by
  have hfind : choice test n = .value i ↔ (List.range n).find? test = some i := by
    unfold choice
    cases (List.range n).find? test <;> simp
  rw [hfind, List.find?_range_eq_some]
  simp only [List.mem_range, Bool.not_eq_true']
  tauto

theorem choice_eq_default_iff {test : ℕ → Bool} :
    choice test n = .default ↔ ∀ i < n, test i = false := by
  have hfind : choice test n = .default ↔ (List.range n).find? test = none := by
    unfold choice
    cases (List.range n).find? test <;> simp
  rw [hfind, List.find?_range_eq_none]
  simp

theorem choice_cases (test : ℕ → Bool) (n : ℕ) :
    choice test n = .default ∨ ∃ i, choice test n = .value i := by
  unfold choice
  cases (List.range n).find? test <;> simp

/-- What is equal to `1'b1` is true, so only the first true condition can be missed. -/
theorem choice_eq_iff :
    choice (fun i => isOne (conditions i)) n = choice (fun i => (conditions i).truth) n ↔
      FirstTrueIsOne conditions n := by
  have hfalse {i : ℕ} (h : (conditions i).truth = false) : isOne (conditions i) = false := by
    rw [Bool.eq_false_iff] at h ⊢
    exact mt Vec.truth_of_caseEq_one h
  constructor
  · intro hsame i hi htruth hbefore
    rw [choice_eq_value_iff.mpr ⟨hi, htruth, hbefore⟩, choice_eq_value_iff] at hsame
    exact hsame.2.1
  · intro hone
    obtain hnone | ⟨i, hi⟩ := choice_cases (fun i => (conditions i).truth) n
    · rw [hnone]
      rw [choice_eq_default_iff] at hnone ⊢
      exact fun i hi => hfalse (hnone i hi)
    · rw [hi]
      rw [choice_eq_value_iff] at hi ⊢
      obtain ⟨hlt, htruth, hbefore⟩ := hi
      exact ⟨hlt, hone i hlt htruth hbefore, fun j hj => hfalse (hbefore j hj)⟩

/-- Values are free, so the choices agree where the values do under every valuation. -/
theorem choices_agree_iff (conditions : ℕ → Vec) {first second : ℕ → Bool} :
    (∀ ρ : Piece → Vec, (∀ i, ρ (.condition i) = conditions i) →
      ρ (choice first n) = ρ (choice second n)) ↔ choice first n = choice second n := by
  refine ⟨fun h => ?_, fun h ρ _ => by rw [h]⟩
  by_contra hne
  -- a valuation that singles out the first choice
  let ρ : Piece → Vec
    | .condition i => conditions i
    | piece => .ofBit (.ofBool (piece = choice first n))
  have hvalue (test : ℕ → Bool) :
      ρ (choice test n) = .ofBit (.ofBool (choice test n = choice first n)) := by
    obtain hdefault | ⟨i, hi⟩ := choice_cases test n
    · rw [hdefault]
    · rw [hi]
  have hagree := h ρ fun i => rfl
  rw [hvalue, hvalue, decide_eq_true rfl, decide_eq_false (Ne.symm hne)] at hagree
  exact absurd hagree (by decide)

variable {parameters : PriorityMuxParameters} {edit : SourceEdit}

/-- On conditions of one bit each the rewrite preserves the chain. -/
theorem assignments_eq_of_width_one (hwidth : ∀ i, (ρ (.condition i)).width = 1) :
    m.decode.assignments ρ = m.chain.assignments ρ := by
  have hone : FirstTrueIsOne (fun i => ρ (.condition i)) m.branches.length :=
    fun i _ htruth _ => (Vec.caseEq_one_eq_truth (hwidth i)).trans htruth
  rw [decode_assignments, chain_assignments, choice_eq_iff.mpr hone]

/-! ## A chain with a vector condition -/

section Sample

/-- The hashes of the sample. -/
def sampleHashes : Hashes where
  canonical _ _ _ _ := "sha256:4ee795bce4b933c9059decfbb7da70f0afa57f777a8a1d28a2fc42fe1866bc6f"
  ofText _ := "sha256:f2b8030c2d08a25cf5010acd37f6d7eb4ae0f094880c3320e520a166ddbd9ac0"

def sampleText : String :=
  "if (a) y = b; else if (c) y = d; else y = e;"

theorem sampleRange_ok : 1 ≤ 3 ∧ 1 ≤ 5 ∧ 5 < 49 := by decide

theorem sampleText_ok : "rtl/mux.sv" ≠ "" ∧ sampleText ≠ "" ∧ "top.u_mux" ≠ "" ∧
    isEntityId "clk_core" := by
  decide +kernel

theorem sampleTarget_ne : "y" ≠ "" := by decide

theorem sampleDefault_ne : "e" ≠ "" := by decide

def sampleBranches : List PriorityBranch :=
  [⟨"a", "b", by decide, by decide⟩, ⟨"c", "d", by decide, by decide⟩]

def sampleContext : PriorityMuxContext where
  toRewriteContext := .ofSlice 3 5 49 "rtl/mux.sv" sampleText "top.u_mux" "clk_core"
    sampleRange_ok sampleText_ok

def sampleMatch : PriorityMuxMatch sampleHashes where
  context := sampleContext
  assignmentTarget := "y"
  branches := sampleBranches
  defaultValue := "e"
  matchHash := "sha256:4ee795bce4b933c9059decfbb7da70f0afa57f777a8a1d28a2fc42fe1866bc6f"
  assignmentTarget_ne := sampleTarget_ne
  two_le := by decide
  le_sixteen := by decide
  defaultValue_ne := sampleDefault_ne
  matchHash_eq := rfl

def sampleEdit : SourceEdit where
  toSourceRange := sampleContext.toSourceRange
  relativePath := "rtl/mux.sv"
  expectedTextHash := "sha256:f2b8030c2d08a25cf5010acd37f6d7eb4ae0f094880c3320e520a166ddbd9ac0"
  replacement := "\n".intercalate [
    "begin : nova_priority_mux_4ee795bce4",
    "  logic [1:0] nova_priority_cond;",
    "  logic [1:0] nova_priority_match;",
    "  nova_priority_cond[0] = ((a) === 1'b1);",
    "  nova_priority_cond[1] = ((c) === 1'b1);",
    "  nova_priority_match[0] = nova_priority_cond[0];",
    "  nova_priority_match[1] = nova_priority_cond[1] & ~(|nova_priority_cond[0:0]);",
    "  case (1'b1)",
    "    nova_priority_match[0]: y = b;",
    "    nova_priority_match[1]: y = d;",
    "    default: y = e;",
    "  endcase",
    "end"]
  astNodeKind := "ConditionalStatement"
  path_normalized := by decide +kernel
  hash_ref := by decide +kernel
  astNodeKind_ne := conditionalStatement_ne

theorem sampleMatch_eq : match_ .ascii sampleContext = .ok sampleMatch := by decide +kernel

theorem sampleEdit_eq : sampleMatch.rewrite {} = .ok sampleEdit := by
  have hreplacement : sampleMatch.replacement = sampleEdit.replacement := by
    dsimp only [PriorityMuxMatch.replacement, sampleEdit]
    refine congrArg (fun lines => "\n".intercalate lines) ?_
    decide +kernel
  simp only [PriorityMuxMatch.rewrite, PriorityMuxMatch.edit, bind_eq_ok]
  refine ⟨(), rfl, ?_⟩
  rw [hreplacement]
  exact edit_eq sampleEdit _ conditionalStatement rfl rfl rfl

/-- `a` is `2'b10`, everything else `0`, but for `b`. -/
def sampleValuation : Piece → Vec
  | .condition 0 => .high 0
  | .value 0 => .ofBit .one
  | _ => .ofBit .zero

end Sample

end NovaRtl.PriorityMux
