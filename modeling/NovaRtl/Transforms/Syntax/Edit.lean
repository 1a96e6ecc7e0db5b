import NovaRtl.Text.Files
import NovaRtl.Text.Lines
import NovaRtl.Transforms.RewriteContext

/-!
# Authorized edits

`transforms/syntax.py` from the parsed ranges to `apply_authorized_edit`. An edit is half-open:
its end position is the first one it keeps. The text of a source span includes the character at
its end position.
-/

namespace NovaRtl

open Text

/-- A range whose end may be its start. -/
structure SpanRange where
  startLine : ℕ
  startColumn : ℕ
  endLine : ℕ
  endColumn : ℕ
  startLine_pos : 1 ≤ startLine
  startColumn_pos : 1 ≤ startColumn
  endLine_pos : 1 ≤ endLine
  endColumn_pos : 1 ≤ endColumn
  ordered : startLine < endLine ∨ startLine = endLine ∧ startColumn ≤ endColumn

theorem SpanRange.data_injective : Function.Injective fun range : SpanRange =>
    ((range.startLine, range.startColumn), range.endLine, range.endColumn) := by
  rintro ⟨⟩ ⟨⟩ h
  simp_all

instance : DecidableEq SpanRange := SpanRange.data_injective.decidableEq

def SpanRange.start (range : SpanRange) : Position := ⟨range.startLine, range.startColumn⟩

def SpanRange.stop (range : SpanRange) : Position := ⟨range.endLine, range.endColumn⟩

def SourceRange.start (range : SourceRange) : Position := ⟨range.startLine, range.startColumn⟩

def SourceRange.stop (range : SourceRange) : Position := ⟨range.endLine, range.endColumn⟩

def SourceRange.toSpanRange (range : SourceRange) : SpanRange where
  startLine := range.startLine
  startColumn := range.startColumn
  endLine := range.endLine
  endColumn := range.endColumn
  startLine_pos := range.startLine_pos
  startColumn_pos := range.startColumn_pos
  endLine_pos := range.endLine_pos
  endColumn_pos := range.endColumn_pos
  ordered := range.ordered.imp_right (And.imp_right le_of_lt)

/-- `SourceSpanRecord` of `evidence/models.py`. -/
structure SourceSpanRecord extends SpanRange where
  sourceSpanId : EntityId
  relativePath : String
  sourceTextHash : String
  isProtected : Bool

structure SyntaxNodeRange extends SpanRange where
  kind : String
  relativePath : String
  kind_ne : kind ≠ ""
  path_normalized : normalizedPath relativePath

theorem SyntaxNodeRange.data_injective : Function.Injective fun node : SyntaxNodeRange =>
    (node.toSpanRange, node.kind, node.relativePath) := by
  rintro ⟨⟩ ⟨⟩ h
  simp_all

instance : DecidableEq SyntaxNodeRange := SyntaxNodeRange.data_injective.decidableEq

structure ParsedSlangAst where
  nodes : List SyntaxNodeRange
  astHash : String

/-- `AppliedSourceEdit` without its own hash. -/
structure AppliedPayload where
  relativePath : String
  changedSpanIds : List EntityId
  beforeHash : String
  afterHash : String
  replacementHash : String
  astHash : String
  astNodeKind : String
  sourceRange : ℕ × ℕ × ℕ × ℕ
  deriving DecidableEq

structure AppliedSourceEdit extends AppliedPayload where
  editHash : String
  deriving DecidableEq

inductive SyntaxBackendError where
  | message (text : String)
  /-- `cannot read authorized UTF-8 source: {error}` -/
  | unreadable
  deriving DecidableEq, Repr

namespace Syntax

structure Hashes where
  /-- `_hash_text` -/
  ofText : String → String
  /-- `canonical_sha256` of a payload -/
  canonical : AppliedPayload → String

/-- `text.removesuffix(c)` for one character. -/
def removeSuffix (c : Char) (text : List Char) : List Char :=
  if text.getLast? = some c then text.dropLast else text

def positionToOffset (source : List Char) (line column : ℕ) : Except SyntaxBackendError ℕ := do
  let lines := splitLines source
  require (line ≤ lines.length) (.message "source coordinate line exceeds file length")
  let lineText := (lines.map Line.text).getD (line - 1) []
  let content := removeSuffix '\r' (removeSuffix '\n' lineText)
  require (column ≤ content.length + 1) (.message "source coordinate column exceeds line length")
  return lineStart lines line + (column - 1)

/-- The first and the last of the selected lines lose what is outside the span. -/
def trimSelected (span : SpanRange) (selected : List (List Char)) : List (List Char) :=
  let selected := selected.modifyHead (List.drop (span.startColumn - 1))
  if selected.length = 1 then
    selected.modifyHead (List.take (span.endColumn + 1 - span.startColumn))
  else selected.modify (selected.length - 1) (List.take span.endColumn)

@[simp] theorem length_trimSelected (span : SpanRange) (selected : List (List Char)) :
    (trimSelected span selected).length = selected.length := by
  unfold trimSelected
  dsimp only
  split <;> simp

def sourceSpanText (source : List Char) (span : SpanRange) :
    Except SyntaxBackendError (List Char) := do
  let lines := (splitLines source).map Line.content
  require (span.endLine ≤ lines.length)
    (.message "authorized source span exceeds file length")
  let selected := (lines.take span.endLine).drop (span.startLine - 1)
  require (selected ≠ []) (.message "authorized source span selects no RTL text")
  return ['\n'].intercalate (trimSelected span selected)

def rangesOverlap (first : SourceSpanRecord) (edit : SourceEdit) : Bool :=
  first.relativePath = edit.relativePath && first.start < edit.stop && edit.start < first.stop

/-- The AST node whose range an edit must replace. -/
def exactNode (edit : SourceEdit) : SyntaxNodeRange where
  toSpanRange := edit.toSpanRange
  kind := edit.astNodeKind
  relativePath := edit.relativePath
  kind_ne := edit.astNodeKind_ne
  path_normalized := edit.path_normalized

def readSource (root : Directory) (path : String) : Except SyntaxBackendError String :=
  match root path with
  | .escapes => .error (.message "source edit path escapes repository root")
  | .absent => .error .unreadable
  | .file bytes =>
    match readText bytes with
    | some source => .ok source
    | none => .error .unreadable

/-- The checks before the source is read. -/
def checkAuthority (parsedAst : ParsedSlangAst) (authorizedSpan : SourceSpanRecord)
    (protectedSpans : List SourceSpanRecord) (edit : SourceEdit)
    (allowedAstNodeKinds : List String) : Except SyntaxBackendError Unit := do
  require (edit.relativePath = authorizedSpan.relativePath)
    (.message "source edit targets a file outside authorized span")
  require (authorizedSpan.isProtected = false) (.message "authorized source span is protected")
  require (¬ (edit.start < authorizedSpan.start ∨ authorizedSpan.stop < edit.stop))
    (.message "source edit is outside authorized span")
  require (¬ protectedSpans.any fun span => span.isProtected && rangesOverlap span edit)
    (.message "source edit overlaps a protected span")
  require (edit.astNodeKind ∈ allowedAstNodeKinds)
    (.message "source edit AST node kind is not registered")
  require (exactNode edit ∈ parsedAst.nodes)
    (.message "source edit does not match an exact Slang AST node range")

/-- The text after the edit. -/
def rewriteSource (hashes : Hashes) (source : String) (authorizedSpan : SourceSpanRecord)
    (edit : SourceEdit) : Except SyntaxBackendError String := do
  let spanText ← sourceSpanText source.toList authorizedSpan.toSpanRange
  require (hashes.ofText (String.ofList spanText) = authorizedSpan.sourceTextHash)
    (.message "authorized source span hash no longer matches")
  let startOffset ← positionToOffset source.toList edit.startLine edit.startColumn
  let endOffset ← positionToOffset source.toList edit.endLine edit.endColumn
  let original := (source.toList.take endOffset).drop startOffset
  require (hashes.ofText (String.ofList original) = edit.expectedTextHash)
    (.message "source edit expected text hash no longer matches")
  return String.ofList
    (source.toList.take startOffset ++ edit.replacement.toList ++ source.toList.drop endOffset)

/-- The result of the edit and the directory with the rewritten source. -/
def applyAuthorizedEdit (hashes : Hashes) (root : Directory) (parsedAst : ParsedSlangAst)
    (authorizedSpan : SourceSpanRecord) (protectedSpans : List SourceSpanRecord)
    (edit : SourceEdit) (allowedAstNodeKinds : List String) :
    Except SyntaxBackendError (AppliedSourceEdit × Directory) := do
  checkAuthority parsedAst authorizedSpan protectedSpans edit allowedAstNodeKinds
  let source ← readSource root edit.relativePath
  let rewritten ← rewriteSource hashes source authorizedSpan edit
  let payload : AppliedPayload := {
    relativePath := edit.relativePath
    changedSpanIds := [authorizedSpan.sourceSpanId]
    beforeHash := hashes.ofText source
    afterHash := hashes.ofText rewritten
    replacementHash := hashes.ofText edit.replacement
    astHash := parsedAst.astHash
    astNodeKind := edit.astNodeKind
    sourceRange := (edit.startLine, edit.startColumn, edit.endLine, edit.endColumn) }
  return ({ payload with editHash := hashes.canonical payload },
    root.writeText edit.relativePath rewritten)

end Syntax

end NovaRtl
