import NovaRtl.Transforms.Patterns
import NovaRtl.Transforms.RewriteContext

/-!
# The FSM decode rewrite

`RestructureFsmDecode` of `transforms/fsm_decode.py`: `match` reads branches that compare the state
signal with labels and a final `else`, `rewrite` replaces them by a `case` statement. The hashes
are parameters.

The code does not record which branches are introduced by `else`. The model keeps this next to
each branch that it reads, and `match` drops it.
-/

namespace NovaRtl.FsmDecode

open Text Pattern RewriteError

structure FsmDecodeParameters where
  maxStates : ℕ := 16
  two_le : 2 ≤ maxStates := by decide
  le_sixtyfour : maxStates ≤ 64 := by decide

theorem FsmDecodeParameters.data_injective :
    Function.Injective fun parameters : FsmDecodeParameters =>
    parameters.maxStates := by
  rintro ⟨⟩ ⟨⟩ h
  simp_all

instance : DecidableEq FsmDecodeParameters := FsmDecodeParameters.data_injective.decidableEq

structure FsmDecodeContext extends RewriteContext where
  stateSignal : String
  stateWidthVerified : Bool
  stateRegisterProtected : Bool
  resetSemanticsVerified : Bool
  enableSemanticsVerified : Bool
  completeOutputAssignments : Bool
  stateSignal_ne : stateSignal ≠ ""

theorem FsmDecodeContext.data_injective : Function.Injective fun context : FsmDecodeContext =>
    ((context.toRewriteContext, context.stateSignal, context.stateWidthVerified),
      context.stateRegisterProtected, context.resetSemanticsVerified,
      context.enableSemanticsVerified, context.completeOutputAssignments) := by
  rintro ⟨⟩ ⟨⟩ h
  simp_all

instance : DecidableEq FsmDecodeContext := FsmDecodeContext.data_injective.decidableEq

structure FsmDecodeBranch where
  stateLabel : String
  body : String
  stateLabel_ne : stateLabel ≠ ""
  body_ne : body ≠ ""

theorem FsmDecodeBranch.data_injective : Function.Injective fun branch : FsmDecodeBranch =>
    (branch.stateLabel, branch.body) := by
  rintro ⟨⟩ ⟨⟩ h
  simp_all

instance : DecidableEq FsmDecodeBranch := FsmDecodeBranch.data_injective.decidableEq

def FsmDecodeBranch.make (label body : String) : Except RewriteError FsmDecodeBranch :=
  if hlabel : label ≠ "" then
    if hbody : body ≠ "" then .ok ⟨label, body, hlabel, hbody⟩ else .error validation
  else .error validation

structure Hashes where
  /-- `canonical_sha256` of a match without its hash. -/
  canonical : FsmDecodeContext → String → List FsmDecodeBranch → String → String
  /-- `"sha256:" + sha256(text.encode("utf-8")).hexdigest()` -/
  ofText : String → String

variable (hashes : Hashes)

structure FsmDecodeMatch where
  context : FsmDecodeContext
  stateSignal : String
  branches : List FsmDecodeBranch
  defaultBody : String
  matchHash : String
  stateSignal_ne : stateSignal ≠ ""
  two_le : 2 ≤ branches.length
  le_sixtyfour : branches.length ≤ 64
  defaultBody_ne : defaultBody ≠ ""
  labels_nodup : (branches.map FsmDecodeBranch.stateLabel).Nodup
  matchHash_eq : matchHash = hashes.canonical context stateSignal branches defaultBody

variable {hashes}

theorem FsmDecodeMatch.data_injective : Function.Injective fun m : FsmDecodeMatch hashes =>
    (m.context, m.stateSignal, m.branches, m.defaultBody) := by
  rintro ⟨⟩ ⟨⟩ h
  simp_all

instance : DecidableEq (FsmDecodeMatch hashes) := FsmDecodeMatch.data_injective.decidableEq

def FsmDecodeMatch.make (context : FsmDecodeContext) (branches : List FsmDecodeBranch)
    (default : String) : Except RewriteError (FsmDecodeMatch hashes) :=
  if h : 2 ≤ branches.length ∧ branches.length ≤ 64 ∧ default ≠ "" ∧
      (branches.map FsmDecodeBranch.stateLabel).Nodup then
    .ok ⟨context, context.stateSignal, branches, default,
      hashes.canonical context context.stateSignal branches default,
      context.stateSignal_ne, h.1, h.2.1, h.2.2.1, h.2.2.2, rfl⟩
  else .error validation

variable (classes : CharClasses)

/-- `[A-Za-z_][A-Za-z0-9_$]*` -/
def wordPattern : Pattern := seq (char wordStart) (many wordRest)

/-- `_LABEL` -/
def labelPattern : Pattern :=
  alt wordPattern (seq (many1 classes.isDecimal) (inOrder (basePatterns ++ [many1 hexRest])))

/-- `(?P<signal>[A-Za-z_][A-Za-z0-9_$]*)\s*==\s*(?P<label>…)` -/
def comparisonPattern : Pattern :=
  inOrder [group "signal" wordPattern, spaces classes, literal "==", spaces classes,
    group "label" (labelPattern classes)]

/-- `if\s*\(\s*…\s*\)` -/
def conditionPattern : Pattern :=
  inOrder [literal "if", spaces classes, literal "(", spaces classes, comparisonPattern classes,
    spaces classes, literal ")"]

/-- `begin\s*(?P<body>.*?)\s*end` -/
def blockPattern : Pattern :=
  inOrder [literal "begin", spaces classes, group "body" (manyLazy any), spaces classes,
    literal "end"]

/-- `_BRANCH`, with a name for the group `(?:else\s+)?`. -/
def branchPattern : Pattern :=
  inOrder [spaces classes, group "else" (optional (seq (literal "else") (many1 classes.isSpace))),
    conditionPattern classes, spaces classes, blockPattern classes]

/-- `_DEFAULT` -/
def defaultPattern : Pattern :=
  inOrder [spaces classes, literal "else", many1 classes.isSpace, blockPattern classes,
    spaces classes, atEnd]

/-- `==\s*\d+'[sS]?[bBoOdDhH][0-9a-fA-F_xXzZ?]*[xXzZ?]` -/
def unknownLabel : Pattern :=
  inOrder ([literal "==", spaces classes, many1 classes.isDecimal] ++ basePatterns ++
    [many fun c => hexRest c || unknownDigit c, char unknownDigit])

/-- The branches at the beginning of the text, with what follows them. A branch is preceded by
`true` if it is introduced by `else`. The fuel is at least the length of the text. -/
def readBranches (stateSignal : String) :
    (fuel : ℕ) → List Char → Except RewriteError (List (Bool × FsmDecodeBranch) × List Char)
  | 0, text => .ok ([], text)
  | fuel + 1, text =>
    match (branchPattern classes).match_ text with
    | none => .ok ([], text)
    | some matched => do
      let body := strip classes (matched.group "body")
      require (String.ofList (matched.group "signal") = stateSignal)
        (message "FSM branches do not use the declared state signal")
      require (body ≠ []) (message "FSM branch body cannot be empty")
      let branch ← FsmDecodeBranch.make (String.ofList (matched.group "label")) (String.ofList body)
      let (branches, rest) ← readBranches stateSignal fuel matched.rest
      .ok ((matched.group "else" ≠ [], branch) :: branches, rest)

/-- The branches of the source. -/
def sourceBranches (context : FsmDecodeContext) : List (Bool × FsmDecodeBranch) :=
  let text := context.sourceText.toList
  match readBranches classes context.stateSignal text.length text with
  | .ok (branches, _) => branches
  | .error _ => []

/-- `RestructureFsmDecode.match` -/
def match_ (context : FsmDecodeContext) : Except RewriteError (FsmDecodeMatch hashes) := do
  context.checkOwnership message "FSM decode has a protected neighbor"
    "FSM decode must belong to exactly one clock domain"
  require context.stateWidthVerified (message "state width is not verified")
  require context.stateRegisterProtected (message "state register must remain protected")
  require context.resetSemanticsVerified (message "reset semantics are not verified")
  require context.enableSemanticsVerified (message "enable semantics are not verified")
  require context.completeOutputAssignments (message "output assignment coverage is incomplete")
  require (¬ (contains "===" context.sourceText ∨ contains "!==" context.sourceText))
    (message "case equality is unsupported for FSM restructuring")
  require (¬ (unknownLabel classes).found context.sourceText.toList)
    (message "X/Z state label is unsupported")
  let text := context.sourceText.toList
  let (branches, rest) ← readBranches classes context.stateSignal text.length text
  let incomplete := message "FSM if/else chain requires a complete final else"
  match (defaultPattern classes).fullmatch rest with
  | none => .error incomplete
  | some final =>
    let body := strip classes (final.group "body")
    require (2 ≤ branches.length ∧ body ≠ []) incomplete
    FsmDecodeMatch.make context (branches.map Prod.snd) (String.ofList body)

namespace FsmDecodeMatch

variable (m : FsmDecodeMatch hashes)

/-- `RestructureFsmDecode.preflight` -/
def preflight (parameters : FsmDecodeParameters) : Except RewriteError Unit :=
  require (m.branches.length ≤ parameters.maxStates)
    (message "FSM state count exceeds configured bound")

/-- The `lines` of `rewrite`. -/
def replacementLines : List String :=
  [s!"case ({m.stateSignal})"] ++
  m.branches.map (fun branch => s!"  {branch.stateLabel}: begin {branch.body} end") ++
  [s!"  default: begin {m.defaultBody} end", "endcase"]

def replacement : String := "\n".intercalate m.replacementLines

/-- `RestructureFsmDecode.rewrite` -/
def rewrite (parameters : FsmDecodeParameters) : Except RewriteError SourceEdit := do
  m.preflight parameters
  m.context.edit validation (hashes.ofText m.context.sourceText) m.replacement conditionalStatement

end FsmDecodeMatch

/-! ## Selection by label -/

/-- The first label that has the value of the state. -/
def firstLabel (state : String) (labels : List (String × String)) : Option String :=
  (labels.find? fun label => state = label.2).map Prod.fst

/-- Some character of the state is an `x` or a `z`, in either case. -/
def hasUnknown (state : String) : Bool := state.toList.any fun c => c.toLower ∈ ['x', 'z']

/-- `select_if_branch` -/
def selectIfBranch (state : String) (labels : List (String × String)) : String :=
  if hasUnknown state then "DEFAULT" else (firstLabel state labels).getD "DEFAULT"

/-- `select_case_branch` -/
def selectCaseBranch (state : String) (labels : List (String × String)) : String :=
  (firstLabel state labels).getD "DEFAULT"

end NovaRtl.FsmDecode
