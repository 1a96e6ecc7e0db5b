import NovaRtl.Transforms.Predicate.Rewrite

/-!
# What factoring preserves

The source of a match is the disjunction of the products of the predicate with the values. The
edit keeps the predicate once and the values in their order. As conjunction distributes over
disjunction on four-state vectors, the two expressions have one value.
-/

namespace NovaRtl.Predicate

open Text Pattern FourState

section Expressions

/-- The disjunction of values, each of which stands in an expression. -/
def disjunction (term : String → Expression String) : List String → Expression String
  | [] => .operand ""
  | value :: rest => (Reduction.serial value rest).eval term (.binary .or)

variable {classes : CharClasses} {operandText : String → Prop}

/-- `" | ".join(values)` -/
theorem written_joined {value : String} {rest : List String} (hspace : classes.isSpace ' ')
    (h : ∀ a ∈ value :: rest, operandText a) :
    Written classes operandText 0 (disjunction .operand (value :: rest))
      (" | ".intercalate (value :: rest)).toList := by
  have hblank : Blank classes [' '] := by simpa [Blank] using hspace
  have hfold (t : Reduction String) (text : String)
      (ht : Written classes operandText 0 (t.eval .operand (.binary .or)) text.toList) :
      Written classes operandText 0
        ((rest.foldl (fun tree b => .node tree (.leaf b)) t).eval .operand (.binary .or))
        (" | ".intercalate (text :: rest)).toList := by
    obtain ⟨-, hrest⟩ := List.forall_mem_cons.mp h
    clear h
    induction rest generalizing t text with
    | nil => simpa using ht
    | cons b rest ih =>
      obtain ⟨hb, hrest⟩ := List.forall_mem_cons.mp hrest
      have hmerge : " | ".intercalate (text :: b :: rest) =
          " | ".intercalate ((text ++ " | " ++ b) :: rest) := by
        cases rest <;> simp [String.append_assoc]
      rw [hmerge]
      refine ih (.node t (.leaf b)) _ ?_ hrest
      have hnode : Written classes operandText 0 _ _ := .binary (le_refl Operator.or.level)
        (.spaced blank_nil hblank ht) (.spaced hblank blank_nil (.operand hb))
      simpa [Reduction.eval, Operator.symbol] using hnode
  exact hfold (.leaf value) value (.operand (h value List.mem_cons_self))

end Expressions

/-! ## Matches -/

def isName (a : String) : Prop := (namePattern.fullmatch a.toList).isSome

variable {hashes : Hashes} {m : PredicateMatch hashes} {classes : CharClasses}
variable {context : PredicateContext} {parameters : PredicateParameters} {edit : SourceEdit}

/-- A value, multiplied by the predicate. -/
def product (predicate value : String) : Expression String :=
  .binary .and (.operand predicate) (.operand value)

namespace PredicateMatch

/-- The expression of the source. -/
def products (m : PredicateMatch hashes) : Expression String :=
  disjunction (product m.predicate) m.values

/-- The expression of the edit. -/
def factored (m : PredicateMatch hashes) : Expression String :=
  .binary .and (.operand m.predicate) (disjunction .operand m.values)

theorem values_cons (m : PredicateMatch hashes) : ∃ value rest, m.values = value :: rest := by
  apply List.exists_cons_of_ne_nil
  intro hnil
  have := m.three_le
  simp [hnil] at this

end PredicateMatch

open PredicateMatch

/-- The parts of a term. -/
theorem written_term {text : List Char} {hit : Hit} {predicate value : String}
    (h : (termPattern classes).fullmatch text = some hit)
    (hpredicate : String.ofList (hit.group "predicate") = predicate)
    (hvalue : String.ofList (hit.group "value") = value) :
    isName predicate ∧ isName value ∧
      ∀ level, Written classes isName level (product predicate value) text := by
  obtain ⟨hmem, hrest⟩ := mem_of_fullmatch h
  have htext := taken_append_rest hmem
  rw [hrest, List.append_nil] at htext
  simp only [termPattern, inOrder, mem_seq] at hmem
  obtain ⟨opening, hopening, _, ⟨a, ha, _, ⟨_, hgroup, _, ⟨b, hb, _, ⟨symbol, hsymbol, _,
    ⟨c, hc, _, ⟨_, hgroup', _, ⟨d, hd, _, ⟨closing, hclosing, finish, hfinish, rfl⟩, rfl⟩, rfl⟩,
    rfl⟩, rfl⟩, rfl⟩, rfl⟩, rfl⟩, rfl⟩ := hmem
  obtain ⟨first, hfirst, rfl⟩ := mem_group.mp hgroup
  obtain ⟨second, hsecond, rfl⟩ := mem_group.mp hgroup'
  obtain ⟨hopening, hopening'⟩ := taken_of_mem_char hopening
  obtain ⟨hsymbol, hsymbol'⟩ := taken_of_mem_char hsymbol
  obtain ⟨hclosing, -⟩ := taken_of_mem_char hclosing
  obtain ⟨hfinish, -⟩ := of_mem_atEnd hfinish
  obtain ⟨ha, ha'⟩ := blank_of_mem_spaces ha
  obtain ⟨hb, hb'⟩ := blank_of_mem_spaces hb
  obtain ⟨hc, hc'⟩ := blank_of_mem_spaces hc
  obtain ⟨hd, -⟩ := blank_of_mem_spaces hd
  have hgroups : first.groups = [] := groups_eq_nil rfl hfirst
  simp only [Hit.group, Hit.append, Hit.named, ha', hb', hc', hopening', hsymbol', hgroups,
    hopening, hsymbol, hclosing, hfinish] at htext hpredicate hvalue
  obtain rfl : String.ofList first.taken = predicate := hpredicate
  obtain rfl : String.ofList second.taken = value := hvalue
  have hname : isName (String.ofList first.taken) := by
    rw [isName, String.toList_ofList]
    exact fullmatch_of_endless rfl hfirst
  have hname' : isName (String.ofList second.taken) := by
    rw [isName, String.toList_ofList]
    exact fullmatch_of_endless rfl hsecond
  refine ⟨hname, hname', fun level => ?_⟩
  have hproduct : Written classes isName level (.binary .and (.operand _) (.operand _)) _ :=
    .bracketed (.binary (Nat.zero_le _) (.spaced ha hb (.operand hname))
      (.spaced hc hd (.operand hname')))
  rw [← htext]
  simpa [product, Operator.symbol] using hproduct

/-- A list without `none`, position by position. -/
theorem forall₂_reduceOption {α β : Type} {f : α → Option β} {as : List α}
    (h : none ∉ as.map f) : List.Forall₂ (fun b a => f a = some b) (as.map f).reduceOption as := by
  induction as with
  | nil => exact .nil
  | cons a as ih =>
    rw [List.map_cons, List.mem_cons, not_or] at h
    obtain ⟨b, hb⟩ := Option.ne_none_iff_exists'.mp (Ne.symm h.1)
    rw [List.map_cons, hb, List.reduceOption_cons_of_some]
    exact .cons hb (ih h.2)

theorem eq_headD_of_dedup {α : Type} [DecidableEq α] {l : List α} {a : α} (default : α)
    (h : l.dedup.length = 1) (ha : a ∈ l) : a = l.headD default := by
  obtain ⟨x, hx⟩ := List.length_eq_one_iff.mp h
  have hall (b : α) (hb : b ∈ l) : b = x := by
    have hmem := List.mem_dedup.mpr hb
    rwa [hx, List.mem_singleton] at hmem
  obtain ⟨b, rest, rfl⟩ := List.exists_cons_of_ne_nil (List.ne_nil_of_mem ha)
  rw [List.headD_cons, hall a ha, hall b List.mem_cons_self]

/-- What the checks of `match` establish. -/
theorem match_sound (h : match_ classes context = .ok m) :
    m.context = context ∧ ∃ assignment,
      (assignmentPattern classes).fullmatch context.sourceText.toList = some assignment ∧
      m.assignmentTarget = String.ofList (assignment.group "target") ∧
      List.Forall₂ (fun value term => ∃ item, (termPattern classes).fullmatch term = some item ∧
          String.ofList (item.group "predicate") = m.predicate ∧
          String.ofList (item.group "value") = value)
        m.values (splitStrip classes '|' (assignment.group "expression")) := by
  simp only [match_, bind_eq_ok, require_eq_ok] at h
  obtain ⟨⟨⟩, -, ⟨⟩, -, ⟨⟩, -, ⟨⟩, -, ⟨⟩, -, ⟨⟩, -, ⟨⟩, -, h⟩ := h
  split at h
  · cases h
  next assignment hassignment =>
    simp only [bind_eq_ok, require_eq_ok] at h
    obtain ⟨⟨⟩, ⟨-, hnone⟩, ⟨⟩, hone, hmake⟩ := h
    have hitems := (List.forall₂_and_left _ _).mpr
      ⟨fun item hitem => eq_headD_of_dedup [] hone (List.mem_map_of_mem hitem),
        forall₂_reduceOption hnone⟩
    unfold PredicateMatch.make at hmake
    split at hmake
    · obtain rfl := Except.ok.inj hmake
      refine ⟨rfl, assignment, hassignment, rfl, List.forall₂_map_left_iff.mpr ?_⟩
      exact hitems.imp fun item term h => ⟨item, h.2, congrArg String.ofList h.1, rfl⟩
    · cases hmake

theorem source_assigns (h : match_ classes context = .ok m) :
    Assigns classes isName m.assignmentTarget m.products context.sourceText := by
  obtain ⟨-, assignment, hassignment, htarget, hterms⟩ := match_sound h
  obtain ⟨value, rest, hcons⟩ := m.values_cons
  rw [htarget]
  apply assigns_of_fullmatch hassignment
  rw [products, hcons]
  rw [hcons] at hterms
  have hchain : Written classes isName Operator.or.level
      ((Reduction.serial value rest).eval (product m.predicate) (.binary .or))
      (assignment.group "expression") := by
    apply written_splitStrip
    refine hterms.imp fun value term hterm => ?_
    obtain ⟨item, hitem, hpredicate, hvalue⟩ := hterm
    exact (written_term hitem hpredicate hvalue).2.2 _
  exact hchain

theorem names_of_match (h : match_ classes context = .ok m) :
    isName m.predicate ∧ ∀ value ∈ m.values, isName value := by
  obtain ⟨-, assignment, -, -, hterms⟩ := match_sound h
  obtain ⟨value, rest, hcons⟩ := m.values_cons
  have hnames (value : String) (term : List Char)
      (hterm : ∃ item, (termPattern classes).fullmatch term = some item ∧
        String.ofList (item.group "predicate") = m.predicate ∧
        String.ofList (item.group "value") = value) :
      (isName m.predicate ∧ isName value) ∧ True := by
    obtain ⟨item, hitem, hpredicate, hvalue⟩ := hterm
    obtain ⟨hname, hname', -⟩ := written_term hitem hpredicate hvalue
    exact ⟨⟨hname, hname'⟩, trivial⟩
  obtain ⟨hall, -⟩ := (List.forall₂_and_left _ _).mp (hterms.imp hnames)
  exact ⟨(hall value (hcons ▸ List.mem_cons_self)).1, fun value hvalue => (hall value hvalue).2⟩

/-- The edit assigns the factored expression. -/
theorem edit_assigns (hspace : classes.isSpace ' ') (hmatch : match_ classes context = .ok m)
    (h : m.rewrite parameters = .ok edit) :
    edit.toSourceRange = context.toSourceRange ∧ edit.relativePath = context.relativePath ∧
      Assigns classes isName m.assignmentTarget m.factored edit.replacement := by
  obtain ⟨hcontext, assignment, hassignment, htarget, hterms⟩ := match_sound hmatch
  obtain ⟨value, rest, hcons⟩ := m.values_cons
  have hblank : Blank classes [' '] := by simpa [Blank] using hspace
  simp only [PredicateMatch.rewrite, bind_eq_ok] at h
  obtain ⟨⟨⟩, -, h⟩ := h
  obtain ⟨hrange, hpath, -, hreplacement⟩ := RewriteContext.edit_eq_ok h
  rw [hcontext] at hrange hpath
  obtain ⟨hpredicate, hnames⟩ := names_of_match hmatch
  obtain ⟨values, hvalues⟩ : ∃ values, values = " | ".intercalate m.values := ⟨_, rfl⟩
  have hbody : Written classes isName 0 m.factored (s!"{m.predicate} & ({values})").toList := by
    have hjoined := written_joined hspace (hcons ▸ hnames)
    rw [← hcons, ← hvalues] at hjoined
    have hfactored : Written classes isName 0 (.binary .and _ _) _ := .binary (Nat.zero_le _)
      (.spaced blank_nil hblank (.operand hpredicate)) (.spaced hblank blank_nil (.bracketed hjoined))
    simpa [factored, Operator.symbol, toString] using hfactored
  refine ⟨hrange, hpath, assigns_printed hspace hbody ?_⟩
  rw [hreplacement, PredicateMatch.replacement, ← hvalues, ← String.toList_inj]
  simp [toString]

/-! ## Values -/

theorem factored_eval (ρ : String → Vec) : m.factored.eval ρ = m.products.eval ρ := by
  obtain ⟨value, rest, hcons⟩ := m.values_cons
  have hdistrib : (ρ m.predicate).and ((Reduction.serial value rest).eval ρ Vec.or) =
      (Reduction.serial value rest).eval (fun a => (ρ m.predicate).and (ρ a)) Vec.or :=
    Reduction.eval_hom (Vec.and_or_distrib (ρ m.predicate)) _
  simp only [factored, products, hcons, disjunction, Expression.eval, Expression.eval_tree]
  exact hdistrib

theorem operands_products :
    m.products.operands = m.values.flatMap fun value => [m.predicate, value] := by
  obtain ⟨value, rest, hcons⟩ := m.values_cons
  simp only [products, hcons, disjunction, Expression.operands_tree, Reduction.leaves_serial]
  rfl

theorem operands_factored : m.factored.operands = m.predicate :: m.values := by
  obtain ⟨value, rest, hcons⟩ := m.values_cons
  simp only [factored, hcons, disjunction, Expression.operands, Expression.operands_tree_operand,
    Reduction.leaves_serial, List.singleton_append]

theorem fourStateBinary_and : fourStateBinary .and = Logic.and := by
  funext left right
  cases left <;> cases right <;> rfl

theorem fourStateBinary_or : fourStateBinary .or = Logic.or := by
  funext left right
  cases left <;> cases right <;> rfl

/-- The two evaluations of `transforms/predicate.py` agree. -/
theorem evaluateFactored_eq (predicate : Logic) (values : List Logic) :
    evaluateFactored predicate values = evaluateSerial predicate values := by
  cases values with
  | nil => rfl
  | cons value rest =>
    have hdistrib : (rest.map predicate.and).foldl Logic.or (predicate.and value) =
        predicate.and (rest.foldl Logic.or value) := by
      rw [List.foldl_map]
      exact List.foldl_hom predicate.and fun a b => (Logic.and_or_distrib predicate a b).symm
    rw [evaluateFactored, evaluateSerial, List.map_cons, fold, fold, Option.map_some,
      fourStateBinary_and, fourStateBinary_or, hdistrib]

/-- `evaluate_serial` computes the products bit by bit. -/
theorem evaluateSerial_digit (ρ : String → Vec) (i : ℕ) :
    evaluateSerial ((ρ m.predicate).digit i) (m.values.map fun value => (ρ value).digit i) =
      some ((m.products.eval ρ).digit i) := by
  obtain ⟨value, rest, hcons⟩ := m.values_cons
  have hproduct (value : String) : ((product m.predicate value).eval ρ).digit i =
      ((ρ m.predicate).digit i).and ((ρ value).digit i) :=
    Operator.digit_onVecs .and (ρ m.predicate) (ρ value) i
  simp only [products, hcons, disjunction, Expression.eval_tree, Expression.digit_eval_tree,
    hproduct]
  rw [Reduction.eval_serial, evaluateSerial, List.map_cons, List.map_cons, fold, List.map_map,
    fourStateBinary_and, fourStateBinary_or]
  rfl

/-- Source and edit of a match assign to one target: the source the disjunction of the products,
the edit the factored expression, which has the same value. -/
theorem factored_equivalent (hspace : classes.isSpace ' ')
    (hmatch : match_ classes context = .ok m) (hrewrite : m.rewrite parameters = .ok edit) :
    edit.toSourceRange = context.toSourceRange ∧ edit.relativePath = context.relativePath ∧
      Assigns classes isName m.assignmentTarget m.products context.sourceText ∧
      Assigns classes isName m.assignmentTarget m.factored edit.replacement ∧
      m.products.operands = m.values.flatMap (fun value => [m.predicate, value]) ∧
      m.factored.operands = m.predicate :: m.values ∧
      (∀ ρ : String → Vec, m.factored.eval ρ = m.products.eval ρ) ∧
      ∀ (predicate : Logic) (values : List Logic),
        evaluateFactored predicate values = evaluateSerial predicate values := by
  obtain ⟨hrange, hpath, hedit⟩ := edit_assigns hspace hmatch hrewrite
  exact ⟨hrange, hpath, source_assigns hmatch, hedit, operands_products, operands_factored,
    factored_eval, evaluateFactored_eq⟩

section Sample

/-- The hashes of the sample. -/
def sampleHashes : Hashes where
  canonical _ _ _ _ := "sha256:b8b2aabcb0ab44266560314bc9d742519e4575782bde09822b9a8dfc80648775"
  ofText _ := "sha256:9067b71bfcbb454b397a755ce37a04aea90be101d60fa68792283dfb3884d3c2"

def sampleText : String :=
  "y = (p & a) | (p & b) | (p & c);"

theorem sampleRange_ok : 1 ≤ 3 ∧ 1 ≤ 5 ∧ 5 < 37 := by decide

theorem sampleText_ok : "rtl/select.sv" ≠ "" ∧ sampleText ≠ "" ∧ "top.u_select" ≠ "" ∧
    isEntityId "clk_core" := by
  decide +kernel

theorem sampleEstimatedFanoutAfter_pos : 1 ≤ 1 := le_rfl

theorem sampleTarget_ne : "y" ≠ "" := by decide

theorem samplePredicate_ne : "p" ≠ "" := by decide

def sampleContext : PredicateContext where
  toRewriteContext := .ofSlice 3 5 37 "rtl/select.sv" sampleText "top.u_select" "clk_core"
    sampleRange_ok sampleText_ok
  equalWidthsVerified := true
  unsignedVerified := true
  predicatePure := true
  fourStateDistributive := true
  estimatedFanoutAfter := 1
  estimatedFanoutAfter_pos := sampleEstimatedFanoutAfter_pos

def sampleMatch : PredicateMatch sampleHashes where
  context := sampleContext
  assignmentTarget := "y"
  predicate := "p"
  values := ["a", "b", "c"]
  matchHash := "sha256:b8b2aabcb0ab44266560314bc9d742519e4575782bde09822b9a8dfc80648775"
  assignmentTarget_ne := sampleTarget_ne
  predicate_ne := samplePredicate_ne
  values_ne := by decide
  three_le := by decide
  le_sixtyfour := by decide
  matchHash_eq := rfl

def sampleEdit : SourceEdit where
  toSourceRange := sampleContext.toSourceRange
  relativePath := "rtl/select.sv"
  expectedTextHash := "sha256:9067b71bfcbb454b397a755ce37a04aea90be101d60fa68792283dfb3884d3c2"
  replacement := "y = p & (a | b | c);"
  astNodeKind := "ExpressionStatement"
  path_normalized := by decide +kernel
  hash_ref := by decide +kernel
  astNodeKind_ne := expressionStatement_ne

theorem sampleMatch_eq : match_ .ascii sampleContext = .ok sampleMatch := by decide +kernel

theorem sampleEdit_eq : sampleMatch.rewrite {} = .ok sampleEdit := by decide +kernel

theorem factored_equivalent_sample :
    (∀ ρ : String → Vec, sampleMatch.factored.eval ρ = sampleMatch.products.eval ρ) ∧
      sampleMatch.factored.operands = ["p", "a", "b", "c"] := by
  obtain ⟨-, -, -, -, -, hoperands, hvalue, -⟩ :=
    factored_equivalent rfl sampleMatch_eq sampleEdit_eq
  exact ⟨hvalue, hoperands⟩

end Sample

end NovaRtl.Predicate
