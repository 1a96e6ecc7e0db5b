import Mathlib.Data.List.Basic
import NovaRtl.Contracts.Base

/-!
# Source edits

`SourceEdit` of `transforms/syntax.py`: the replacement of one range of a source file.
-/

namespace NovaRtl

/-- The parts of `PurePosixPath(value)` after its root. -/
def posixParts (value : List Char) : List (List Char) :=
  (value.splitOn '/').filter fun part => part ≠ [] ∧ part ≠ ['.']

/-- `as_posix` of a relative path. -/
def asPosix (value : List Char) : List Char :=
  match posixParts value with
  | [] => ['.']
  | parts => ['/'].intercalate parts

/-- `_normalized_path` accepts the path. That no part is `.` needs no test, as Python drops such
parts. -/
def normalizedPath (value : String) : Bool :=
  value ≠ "" && '\\' ∉ value.toList && value.toList.head? ≠ some '/' &&
    ['.', '.'] ∉ posixParts value.toList && value.toList = asPosix value.toList

/-- A nonempty half-open range. Lines and columns count from one. -/
structure SourceRange where
  startLine : ℕ
  startColumn : ℕ
  endLine : ℕ
  endColumn : ℕ
  startLine_pos : 1 ≤ startLine
  startColumn_pos : 1 ≤ startColumn
  endLine_pos : 1 ≤ endLine
  endColumn_pos : 1 ≤ endColumn
  ordered : startLine < endLine ∨ startLine = endLine ∧ startColumn < endColumn
  deriving DecidableEq

structure SourceEdit extends SourceRange where
  relativePath : String
  expectedTextHash : String
  replacement : String
  astNodeKind : String
  path_normalized : normalizedPath relativePath
  hash_ref : isHashRef expectedTextHash
  astNodeKind_ne : astNodeKind ≠ ""

theorem SourceEdit.data_injective : Function.Injective fun edit : SourceEdit =>
    (edit.toSourceRange, edit.relativePath, edit.expectedTextHash, edit.replacement,
      edit.astNodeKind) := by
  rintro ⟨⟩ ⟨⟩ h
  simp_all

instance : DecidableEq SourceEdit := SourceEdit.data_injective.decidableEq

end NovaRtl
