import NovaRtl.Transforms.FsmDecode.Statements

/-!
# What the FSM decode rewrite preserves

The source of a match consists of its branches and its default, as text. Bodies are the texts that
the patterns cut out, which need not be the bodies of blocks: `complete` are the texts that are
complete lists of statements.
-/

namespace NovaRtl.FsmDecode

open Text Pattern FourState

section Reading

variable (classes : CharClasses)

/-- `begin body end` -/
def BlockText (body : String) (text : List Char) : Prop :=
  ∃ before after, Blank classes before ∧ Blank classes after ∧
    text = "begin".toList ++ before ++ body.toList ++ after ++ "end".toList

/-- `signal == label` -/
def ComparisonText (signal label : String) (text : List Char) : Prop :=
  ∃ before after, Blank classes before ∧ Blank classes after ∧
    text = signal.toList ++ before ++ "==".toList ++ after ++ label.toList

/-- `if (signal == label)` -/
def ConditionText (signal label : String) (text : List Char) : Prop :=
  ∃ a b comparison c, Blank classes a ∧ Blank classes b ∧ Blank classes c ∧
    ComparisonText classes signal label comparison ∧
    text = "if".toList ++ a ++ "(".toList ++ b ++ comparison ++ c ++ ")".toList

/-- `else` before an `if`, or nothing. -/
def ElseText (introduced : Bool) (text : List Char) : Prop :=
  if introduced then ∃ gap, Blank classes gap ∧ gap ≠ [] ∧ text = "else".toList ++ gap
  else text = []

def BranchText (signal : String) (branch : Bool × FsmDecodeBranch) (text : List Char) : Prop :=
  ∃ a e condition b block, Blank classes a ∧ Blank classes b ∧ ElseText classes branch.1 e ∧
    ConditionText classes signal branch.2.stateLabel condition ∧
    BlockText classes branch.2.body block ∧ text = a ++ e ++ condition ++ b ++ block

/-- The final `else begin body end`. -/
def DefaultText (body : String) (text : List Char) : Prop :=
  ∃ a gap block b, Blank classes a ∧ Blank classes gap ∧ gap ≠ [] ∧ Blank classes b ∧
    BlockText classes body block ∧ text = a ++ "else".toList ++ gap ++ block ++ b

/-- Branches and a default, one after the other. -/
def SourceText (signal : String) (branches : List (Bool × FsmDecodeBranch)) (default : String)
    (text : List Char) : Prop :=
  ∃ texts last, List.Forall₂ (BranchText classes signal) branches texts ∧
    DefaultText classes default last ∧ text = texts.flatten ++ last

variable {classes} {text : List Char} {hit : Hit}

theorem blockText_of_mem (h : hit ∈ (blockPattern classes).hits text) :
    ∃ body, hit.groups = [("body", body)] ∧
      BlockText classes (String.ofList (strip classes body)) hit.taken := by
  obtain ⟨parts, hparts, htaken, hgroups⟩ := of_mem_inOrder h
  simp only [List.forall₂_cons_left_iff, List.forall₂_nil_left_iff] at hparts
  obtain ⟨begin_, _, ⟨_, hbegin⟩, ⟨a, _, ⟨_, ha⟩, ⟨_, _, ⟨_, hgroup⟩, ⟨b, _, ⟨_, hb⟩,
    ⟨end_, _, ⟨_, hend⟩, rfl, rfl⟩, rfl⟩, rfl⟩, rfl⟩, rfl⟩ := hparts
  obtain ⟨body, hbody, rfl⟩ := mem_group.mp hgroup
  obtain ⟨hbegin, hbegin'⟩ := of_mem_literal hbegin
  obtain ⟨hend, hend'⟩ := of_mem_literal hend
  obtain ⟨ha, ha'⟩ := blank_of_mem_spaces ha
  obtain ⟨hb, hb'⟩ := blank_of_mem_spaces hb
  obtain ⟨before, after, hbefore, hafter, hstrip⟩ := strip_spec classes body.taken
  refine ⟨body.taken, ?_, a.taken ++ before, after ++ b.taken, ha.append hbefore,
    hafter.append hb, ?_⟩
  · rw [hgroups]
    simp [Hit.named, hbegin', ha', hb', hend', (of_mem_manyLazy hbody).1]
  · have hsplit (rest : List Char) : body.taken ++ rest =
        before ++ (strip classes body.taken ++ (after ++ rest)) := by
      have happend := congrArg (· ++ rest) hstrip
      simp only [List.append_assoc] at happend
      exact happend
    rw [htaken]
    simp [Hit.named, hbegin, hend, hsplit (b.taken ++ _)]

theorem comparisonText_of_mem (h : hit ∈ (comparisonPattern classes).hits text) :
    ∃ signal label, hit.groups = [("signal", signal), ("label", label)] ∧
      ComparisonText classes (String.ofList signal) (String.ofList label) hit.taken := by
  obtain ⟨parts, hparts, htaken, hgroups⟩ := of_mem_inOrder h
  simp only [List.forall₂_cons_left_iff, List.forall₂_nil_left_iff] at hparts
  obtain ⟨_, _, ⟨_, hgroup⟩, ⟨a, _, ⟨_, ha⟩, ⟨equals, _, ⟨_, hequals⟩, ⟨b, _, ⟨_, hb⟩,
    ⟨_, _, ⟨_, hgroup'⟩, rfl, rfl⟩, rfl⟩, rfl⟩, rfl⟩, rfl⟩ := hparts
  obtain ⟨signal, hsignal, rfl⟩ := mem_group.mp hgroup
  obtain ⟨label, hlabel, rfl⟩ := mem_group.mp hgroup'
  obtain ⟨hequals, hequals'⟩ := of_mem_literal hequals
  obtain ⟨ha, ha'⟩ := blank_of_mem_spaces ha
  obtain ⟨hb, hb'⟩ := blank_of_mem_spaces hb
  have hsignal' : signal.groups = [] := groups_eq_nil rfl hsignal
  have hlabel' : label.groups = [] := groups_eq_nil rfl hlabel
  refine ⟨signal.taken, label.taken, ?_, a.taken, b.taken, ha, hb, ?_⟩
  · rw [hgroups]
    simp [Hit.named, ha', hb', hequals', hsignal', hlabel']
  · rw [htaken]
    simp [Hit.named, hequals]

theorem conditionText_of_mem (h : hit ∈ (conditionPattern classes).hits text) :
    ∃ signal label, hit.groups = [("signal", signal), ("label", label)] ∧
      ConditionText classes (String.ofList signal) (String.ofList label) hit.taken := by
  obtain ⟨parts, hparts, htaken, hgroups⟩ := of_mem_inOrder h
  simp only [List.forall₂_cons_left_iff, List.forall₂_nil_left_iff] at hparts
  obtain ⟨if_, _, ⟨_, hif⟩, ⟨a, _, ⟨_, ha⟩, ⟨opening, _, ⟨_, hopening⟩, ⟨b, _, ⟨_, hb⟩,
    ⟨comparison, _, ⟨_, hcomparison⟩, ⟨c, _, ⟨_, hc⟩, ⟨closing, _, ⟨_, hclosing⟩, rfl, rfl⟩,
    rfl⟩, rfl⟩, rfl⟩, rfl⟩, rfl⟩, rfl⟩ := hparts
  obtain ⟨hif, hif'⟩ := of_mem_literal hif
  obtain ⟨hopening, hopening'⟩ := of_mem_literal hopening
  obtain ⟨hclosing, hclosing'⟩ := of_mem_literal hclosing
  obtain ⟨ha, ha'⟩ := blank_of_mem_spaces ha
  obtain ⟨hb, hb'⟩ := blank_of_mem_spaces hb
  obtain ⟨hc, hc'⟩ := blank_of_mem_spaces hc
  obtain ⟨signal, label, hnames, hcomparison⟩ := comparisonText_of_mem hcomparison
  refine ⟨signal, label, ?_, a.taken, b.taken, comparison.taken, c.taken, ha, hb, hc,
    hcomparison, ?_⟩
  · rw [hgroups]
    simp [hif', ha', hopening', hb', hnames, hc', hclosing']
  · rw [htaken]
    simp [hif, hopening, hclosing]

theorem elseText_of_mem
    (h : hit ∈ (optional (seq (literal "else") (many1 classes.isSpace))).hits text) :
    ElseText classes (hit.taken ≠ []) hit.taken ∧ hit.groups = [] := by
  rcases mem_alt.mp h with h | h
  · obtain ⟨a, ha, b, hb, rfl⟩ := mem_seq.mp h
    obtain ⟨htaken, hgroups⟩ := of_mem_literal ha
    obtain ⟨hgroups', hblank, hne⟩ := of_mem_many1 hb
    have hsome : (a.append b).taken ≠ [] := by simp [Hit.append, hne]
    refine ⟨?_, by simp [Hit.append, hgroups, hgroups']⟩
    rw [ElseText, decide_eq_true hsome, if_pos rfl]
    exact ⟨b.taken, hblank, hne, by rw [Hit.append, htaken]⟩
  · rw [of_mem_empty h]
    exact ⟨rfl, rfl⟩

theorem branchText_of_mem {branch : FsmDecodeBranch} (h : hit ∈ (branchPattern classes).hits text)
    (hlabel : String.ofList (hit.group "label") = branch.stateLabel)
    (hbody : String.ofList (strip classes (hit.group "body")) = branch.body) :
    BranchText classes (String.ofList (hit.group "signal")) (hit.group "else" ≠ [], branch)
      hit.taken := by
  obtain ⟨parts, hparts, htaken, hgroups⟩ := of_mem_inOrder h
  simp only [List.forall₂_cons_left_iff, List.forall₂_nil_left_iff] at hparts
  obtain ⟨a, _, ⟨_, ha⟩, ⟨_, _, ⟨_, hgroup⟩, ⟨condition, _, ⟨_, hcondition⟩, ⟨b, _, ⟨_, hb⟩,
    ⟨block, _, ⟨_, hblock⟩, rfl, rfl⟩, rfl⟩, rfl⟩, rfl⟩, rfl⟩ := hparts
  obtain ⟨e, he, rfl⟩ := mem_group.mp hgroup
  obtain ⟨ha, ha'⟩ := blank_of_mem_spaces ha
  obtain ⟨hb, hb'⟩ := blank_of_mem_spaces hb
  obtain ⟨helse, he'⟩ := elseText_of_mem he
  obtain ⟨signal, label, hnames, hcondition⟩ := conditionText_of_mem hcondition
  obtain ⟨body, hname, hblock⟩ := blockText_of_mem hblock
  have hall : hit.groups =
      [("else", e.taken), ("signal", signal), ("label", label), ("body", body)] := by
    rw [hgroups]
    simp [Hit.named, ha', he', hnames, hb', hname]
  have hgroupElse : hit.group "else" = e.taken := by rw [Hit.group, hall]; rfl
  have hgroupSignal : hit.group "signal" = signal := by rw [Hit.group, hall]; rfl
  have hgroupLabel : hit.group "label" = label := by rw [Hit.group, hall]; rfl
  have hgroupBody : hit.group "body" = body := by rw [Hit.group, hall]; rfl
  rw [hgroupLabel] at hlabel
  rw [hgroupBody] at hbody
  rw [hlabel] at hcondition
  rw [hbody] at hblock
  rw [hgroupElse, hgroupSignal]
  refine ⟨a.taken, e.taken, condition.taken, b.taken, block.taken, ha, hb, helse, hcondition,
    hblock, ?_⟩
  rw [htaken]
  simp [Hit.named]

theorem taken_ne_nil_of_mem (h : hit ∈ (branchPattern classes).hits text) : hit.taken ≠ [] := by
  obtain ⟨parts, hparts, htaken, -⟩ := of_mem_inOrder h
  simp only [List.forall₂_cons_left_iff, List.forall₂_nil_left_iff] at hparts
  obtain ⟨a, _, ha, ⟨e, _, he, ⟨condition, _, ⟨_, hcondition⟩, ⟨b, _, hb, hblock, rfl⟩, rfl⟩,
    rfl⟩, rfl⟩ := hparts
  obtain ⟨signal, label, -, b, c, comparison, d, -, -, -, -, htext⟩ :=
    conditionText_of_mem hcondition
  rw [htaken]
  simp [htext]

theorem defaultText_of_fullmatch (h : (defaultPattern classes).fullmatch text = some hit) :
    DefaultText classes (String.ofList (strip classes (hit.group "body"))) text := by
  obtain ⟨hmem, hrest⟩ := mem_of_fullmatch h
  have hsplit := taken_append_rest hmem
  rw [hrest, List.append_nil] at hsplit
  obtain ⟨parts, hparts, htaken, hgroups⟩ := of_mem_inOrder hmem
  simp only [List.forall₂_cons_left_iff, List.forall₂_nil_left_iff] at hparts
  obtain ⟨a, _, ⟨_, ha⟩, ⟨else_, _, ⟨_, helse⟩, ⟨gap, _, ⟨_, hgap⟩, ⟨block, _, ⟨_, hblock⟩,
    ⟨b, _, ⟨_, hb⟩, ⟨finish, _, ⟨_, hfinish⟩, rfl, rfl⟩, rfl⟩, rfl⟩, rfl⟩, rfl⟩, rfl⟩ := hparts
  obtain ⟨ha, ha'⟩ := blank_of_mem_spaces ha
  obtain ⟨hb, hb'⟩ := blank_of_mem_spaces hb
  obtain ⟨helse, helse'⟩ := of_mem_literal helse
  obtain ⟨hgap', hblank, hne⟩ := of_mem_many1 hgap
  obtain ⟨hfinish, -⟩ := of_mem_atEnd hfinish
  obtain ⟨body, hname, hblock⟩ := blockText_of_mem hblock
  have hbody : hit.group "body" = body := by
    rw [Hit.group, hgroups]
    simp [ha', helse', hgap', hname, hb', hfinish]
  rw [hbody]
  refine ⟨a.taken, gap.taken, block.taken, b.taken, ha, hblank, hne, hb, hblock, ?_⟩
  rw [← hsplit, htaken]
  simp [helse, hfinish]

variable {signal : String} {fuel : ℕ} {branches : List (Bool × FsmDecodeBranch)}
variable {rest : List Char}

theorem make_eq_ok {label body : String} {branch : FsmDecodeBranch}
    (h : FsmDecodeBranch.make label body = .ok branch) :
    label = branch.stateLabel ∧ body = branch.body := by
  unfold FsmDecodeBranch.make at h
  split at h
  · split at h
    · obtain rfl := Except.ok.inj h
      exact ⟨rfl, rfl⟩
    · cases h
  · cases h

/-- What a step of the loop reads. -/
theorem readBranches_step {matched : Hit}
    (hmatched : (branchPattern classes).match_ text = some matched)
    (h : readBranches classes signal (fuel + 1) text = .ok (branches, rest)) :
    ∃ branch more, branches = branch :: more ∧ BranchText classes signal branch matched.taken ∧
      readBranches classes signal fuel matched.rest = .ok (more, rest) := by
  simp only [readBranches, hmatched, bind_eq_ok, require_eq_ok] at h
  obtain ⟨⟨⟩, hsignal, ⟨⟩, -, branch, hbranch, ⟨more, rest'⟩, hmore, heq⟩ := h
  obtain ⟨rfl, rfl⟩ := Prod.mk.inj (Except.ok.inj heq)
  obtain ⟨hlabel, hbody⟩ := make_eq_ok hbranch
  refine ⟨_, more, rfl, ?_, hmore⟩
  rw [← hsignal]
  exact branchText_of_mem (mem_of_match hmatched) hlabel hbody

/-- The loop reads texts of branches. -/
theorem readBranches_sound (h : readBranches classes signal fuel text = .ok (branches, rest)) :
    ∃ texts, List.Forall₂ (BranchText classes signal) branches texts ∧
      text = texts.flatten ++ rest := by
  induction fuel generalizing text branches with
  | zero =>
    obtain ⟨rfl, rfl⟩ := Prod.mk.inj (Except.ok.inj h)
    exact ⟨[], .nil, rfl⟩
  | succ fuel ih =>
    cases hmatched : (branchPattern classes).match_ text with
    | none =>
      rw [readBranches, hmatched] at h
      obtain ⟨rfl, rfl⟩ := Prod.mk.inj (Except.ok.inj h)
      exact ⟨[], .nil, rfl⟩
    | some matched =>
      obtain ⟨branch, more, rfl, hbranch, hmore⟩ := readBranches_step hmatched h
      obtain ⟨texts, htexts, hrest⟩ := ih hmore
      refine ⟨matched.taken :: texts, .cons hbranch htexts, ?_⟩
      rw [List.flatten_cons, List.append_assoc, ← hrest]
      exact (taken_append_rest (mem_of_match hmatched)).symm

/-- With enough fuel the loop ends where no branch begins. -/
theorem readBranches_stops (hfuel : text.length ≤ fuel)
    (h : readBranches classes signal fuel text = .ok (branches, rest)) :
    (branchPattern classes).match_ rest = none := by
  induction fuel generalizing text branches with
  | zero =>
    obtain ⟨rfl, rfl⟩ := Prod.mk.inj (Except.ok.inj h)
    obtain rfl := List.length_eq_zero_iff.mp (Nat.le_zero.mp hfuel)
    cases hmatched : (branchPattern classes).match_ [] with
    | none => rfl
    | some matched =>
      have hsplit := taken_append_rest (mem_of_match hmatched)
      exact absurd (List.append_eq_nil_iff.mp hsplit).1 (taken_ne_nil_of_mem (mem_of_match hmatched))
  | succ fuel ih =>
    cases hmatched : (branchPattern classes).match_ text with
    | none =>
      rw [readBranches, hmatched] at h
      obtain ⟨rfl, rfl⟩ := Prod.mk.inj (Except.ok.inj h)
      exact hmatched
    | some matched =>
      obtain ⟨branch, more, -, -, hmore⟩ := readBranches_step hmatched h
      have hsplit := congrArg List.length (taken_append_rest (mem_of_match hmatched))
      have hpos := List.length_pos_of_ne_nil (taken_ne_nil_of_mem (mem_of_match hmatched))
      rw [List.length_append] at hsplit
      exact ih (by omega) hmore

end Reading

/-! ## Matches -/

variable {hashes : Hashes} {m : FsmDecodeMatch hashes} {classes : CharClasses}
variable {context : FsmDecodeContext} {parameters : FsmDecodeParameters} {edit : SourceEdit}

namespace FsmDecodeMatch

variable (m : FsmDecodeMatch hashes)

def bodies : List String := m.branches.map FsmDecodeBranch.body ++ [m.defaultBody]

/-- The statement of the edit. -/
def caseStatement : Case := ⟨m.branches, m.defaultBody⟩

/-- The `case` statement executes the body that the statements of the source execute, where these
are the branches of the match. -/
structure Preserves (complete : String → Prop) (branches : List (Bool × FsmDecodeBranch))
    (ρ : String → Vec) : Prop where
  complete_bodies : ∀ body ∈ m.bodies, complete body
  executed : executeAll (ρ m.stateSignal) ρ (statements m.defaultBody branches) =
    [m.caseStatement.execute (ρ m.stateSignal) ρ]

/-- All values have one width, and literals are known. -/
def Admissible (ρ : String → Vec) : Prop :=
  ∃ width, (ρ m.stateSignal).width = width ∧ ∀ branch ∈ m.branches,
    (ρ branch.stateLabel).width = width ∧
      ('\'' ∈ branch.stateLabel.toList → (ρ branch.stateLabel).isKnown)

end FsmDecodeMatch

open FsmDecodeMatch

/-- What the checks of `match` establish. -/
theorem match_sound (h : match_ classes context = .ok m) :
    m.context = context ∧ m.branches = (sourceBranches classes context).map Prod.snd ∧
      SourceText classes m.stateSignal (sourceBranches classes context) m.defaultBody
        context.sourceText.toList := by
  simp only [match_, bind_eq_ok] at h
  obtain ⟨⟨⟩, -, ⟨⟩, -, ⟨⟩, -, ⟨⟩, -, ⟨⟩, -, ⟨⟩, -, ⟨⟩, -, ⟨⟩, -, ⟨branches, rest⟩, hread, h⟩ := h
  have hbranches : sourceBranches classes context = branches := by
    simp only [sourceBranches, hread]
  split at h
  · cases h
  next final hfinal =>
    obtain ⟨⟨⟩, -, hmake⟩ := bind_eq_ok.mp h
    unfold FsmDecodeMatch.make at hmake
    split at hmake
    · obtain rfl := Except.ok.inj hmake
      obtain ⟨texts, htexts, htext⟩ := readBranches_sound hread
      rw [hbranches]
      exact ⟨rfl, rfl, texts, rest, htexts, defaultText_of_fullmatch hfinal, htext⟩
    · cases hmake

theorem sourceBranches_ne_nil (h : match_ classes context = .ok m) :
    sourceBranches classes context ≠ [] := by
  obtain ⟨-, hbranches, -⟩ := match_sound h
  intro hnil
  have htwo := m.two_le
  simp [hbranches, hnil] at htwo

/-- The edit is the `case` statement. -/
theorem edit_replacement (hmatch : match_ classes context = .ok m)
    (h : m.rewrite parameters = .ok edit) :
    edit.toSourceRange = context.toSourceRange ∧ edit.relativePath = context.relativePath ∧
      edit.replacement = "\n".intercalate (m.caseStatement.lines m.stateSignal) := by
  obtain ⟨hcontext, -, -⟩ := match_sound hmatch
  simp only [FsmDecodeMatch.rewrite, bind_eq_ok] at h
  obtain ⟨⟨⟩, -, h⟩ := h
  obtain ⟨hrange, hpath, -, hreplacement⟩ := RewriteContext.edit_eq_ok h
  rw [hcontext] at hrange hpath
  exact ⟨hrange, hpath, hreplacement⟩

theorem preserves_iff (hmatch : match_ classes context = .ok m) (complete : String → Prop)
    (ρ : String → Vec) :
    m.Preserves complete (sourceBranches classes context) ρ ↔
      (∀ body ∈ m.bodies, complete body) ∧
        SelectsAlike (ρ m.stateSignal) ρ m.defaultBody (sourceBranches classes context) := by
  obtain ⟨-, hbranches, -⟩ := match_sound hmatch
  have hexecuted : executeAll (ρ m.stateSignal) ρ
        (statements m.defaultBody (sourceBranches classes context)) =
      [Case.execute (ρ m.stateSignal) ρ
        ⟨(sourceBranches classes context).map Prod.snd, m.defaultBody⟩] ↔
      SelectsAlike (ρ m.stateSignal) ρ m.defaultBody (sourceBranches classes context) :=
    executeAll_eq_case_iff (sourceBranches_ne_nil hmatch)
  rw [← hbranches] at hexecuted
  constructor
  · intro h
    exact ⟨h.complete_bodies, hexecuted.mp h.executed⟩
  · rintro ⟨hcomplete, halike⟩
    exact ⟨hcomplete, hexecuted.mpr halike⟩

/-- The two selections of `transforms/fsm_decode.py`. -/
theorem selectIfBranch_eq_iff (state : String) (labels : List (String × String)) :
    selectIfBranch state labels = selectCaseBranch state labels ↔
      hasUnknown state = false ∨ ∀ label ∈ firstLabel state labels, label = "DEFAULT" := by
  unfold selectIfBranch selectCaseBranch
  cases hunknown : hasUnknown state with
  | false => simp
  | true => cases hfirst : firstLabel state labels <;> simp [eq_comm]

section Sample

/-- The hashes of the sample. -/
def sampleHashes : Hashes where
  canonical _ _ _ _ := "sha256:24348afdec39bfc47bf8a0754862821d6e5d9e2a8eefb08ecd3a95f69c17f1db"
  ofText _ := "sha256:054fded1d745e300f0e471e7bf98345721f2e029b862f7f6903555d666ac3c99"

def sampleText : String :=
  "if (s == A) begin y = a; end else if (s == B) begin y = b; end else begin y = c; end"

theorem sampleRange_ok : 1 ≤ 3 ∧ 1 ≤ 5 ∧ 5 < 89 := by decide

theorem sampleText_ok : "rtl/fsm.sv" ≠ "" ∧ sampleText ≠ "" ∧ "top.u_fsm" ≠ "" ∧
    isEntityId "clk_core" := by
  decide +kernel

theorem sampleStateSignal_ne : "s" ≠ "" := by decide

theorem sampleDefault_ne : "y = c;" ≠ "" := by decide

def sampleContext : FsmDecodeContext where
  toRewriteContext := .ofSlice 3 5 89 "rtl/fsm.sv" sampleText "top.u_fsm" "clk_core"
    sampleRange_ok sampleText_ok
  stateSignal := "s"
  stateWidthVerified := true
  stateRegisterProtected := true
  resetSemanticsVerified := true
  enableSemanticsVerified := true
  completeOutputAssignments := true
  stateSignal_ne := sampleStateSignal_ne

def sampleBranches : List FsmDecodeBranch :=
  [⟨"A", "y = a;", by decide, by decide⟩, ⟨"B", "y = b;", by decide, by decide⟩]

def sampleMatch : FsmDecodeMatch sampleHashes where
  context := sampleContext
  stateSignal := "s"
  branches := sampleBranches
  defaultBody := "y = c;"
  matchHash := "sha256:24348afdec39bfc47bf8a0754862821d6e5d9e2a8eefb08ecd3a95f69c17f1db"
  stateSignal_ne := sampleStateSignal_ne
  two_le := by decide
  le_sixtyfour := by decide
  defaultBody_ne := sampleDefault_ne
  labels_nodup := by decide
  matchHash_eq := rfl

def sampleEdit : SourceEdit where
  toSourceRange := sampleContext.toSourceRange
  relativePath := "rtl/fsm.sv"
  expectedTextHash := "sha256:054fded1d745e300f0e471e7bf98345721f2e029b862f7f6903555d666ac3c99"
  replacement := "\n".intercalate ["case (s)", "  A: begin y = a; end", "  B: begin y = b; end",
    "  default: begin y = c; end", "endcase"]
  astNodeKind := "ConditionalStatement"
  path_normalized := by decide +kernel
  hash_ref := by decide +kernel
  astNodeKind_ne := conditionalStatement_ne

theorem sampleMatch_eq : match_ .ascii sampleContext = .ok sampleMatch := by decide +kernel

theorem sampleEdit_eq : sampleMatch.rewrite {} = .ok sampleEdit := by decide +kernel

theorem sampleSource_eq : sourceBranches .ascii sampleContext =
    [(false, sampleBranches[0]), (true, sampleBranches[1])] := by decide +kernel

/-- State and label `A` are `2'b0x`, label `B` is `2'b01`. -/
def sampleValuation (name : String) : Vec :=
  if name = "B" then ⟨[.one, .zero], by decide⟩ else ⟨[.x, .zero], by decide⟩

end Sample

end NovaRtl.FsmDecode
