import NovaRtl.Contracts.Checks
import NovaRtl.Text.Chars
import NovaRtl.Transforms.SourceEdit

/-!
# What the registered rewrites share

The context of every registered rewrite owns one source slice and carries the same structural
facts about it. All of them check these facts before they look at the text, and all of them
return a `SourceEdit` of the slice's range.
-/

namespace NovaRtl

structure RewriteContext extends SourceRange where
  relativePath : String
  sourceText : String
  ownerHierarchy : String
  expectedOwnerHierarchy : String
  clockDomainIds : List EntityId
  protectedNeighborIds : List EntityId
  relativePath_ne : relativePath ≠ ""
  sourceText_ne : sourceText ≠ ""
  ownerHierarchy_ne : ownerHierarchy ≠ ""
  expectedOwnerHierarchy_ne : expectedOwnerHierarchy ≠ ""
  clockDomainIds_ids : clockDomainIds.all isEntityId
  protectedNeighborIds_ids : protectedNeighborIds.all isEntityId
  clockDomainIds_nodup : clockDomainIds.Nodup
  protectedNeighborIds_nodup : protectedNeighborIds.Nodup

theorem RewriteContext.data_injective : Function.Injective fun context : RewriteContext =>
    ((context.toSourceRange, context.relativePath, context.sourceText),
      (context.ownerHierarchy, context.expectedOwnerHierarchy),
      context.clockDomainIds, context.protectedNeighborIds) := by
  rintro ⟨⟩ ⟨⟩ h
  simp_all

instance : DecidableEq RewriteContext := RewriteContext.data_injective.decidableEq

/-- The context of a slice of one line, in one clock domain and without protected neighbors. -/
def RewriteContext.ofSlice (line start stop : ℕ) (path text owner clock : String)
    (hrange : 1 ≤ line ∧ 1 ≤ start ∧ start < stop)
    (htext : path ≠ "" ∧ text ≠ "" ∧ owner ≠ "" ∧ isEntityId clock) : RewriteContext where
  startLine := line
  startColumn := start
  endLine := line
  endColumn := stop
  startLine_pos := hrange.1
  startColumn_pos := hrange.2.1
  endLine_pos := hrange.1
  endColumn_pos := by omega
  ordered := .inr ⟨rfl, hrange.2.2⟩
  relativePath := path
  sourceText := text
  ownerHierarchy := owner
  expectedOwnerHierarchy := owner
  clockDomainIds := [clock]
  protectedNeighborIds := []
  relativePath_ne := htext.1
  sourceText_ne := htext.2.1
  ownerHierarchy_ne := htext.2.2.1
  expectedOwnerHierarchy_ne := htext.2.2.1
  clockDomainIds_ids := by simp [htext.2.2.2]
  protectedNeighborIds_ids := rfl
  clockDomainIds_nodup := by simp
  protectedNeighborIds_nodup := List.nodup_nil

/-- Why a rewrite refuses its source, other than by a lexical error. -/
inductive RewriteError where
  | message (text : String)
  /-- A contract of the result was violated. -/
  | validation
  deriving DecidableEq, Repr

section Checks

variable {ε : Type}

/-- The checks on the owner, the neighbors and the clock, with the rewrite's own texts. -/
def RewriteContext.checkOwnership (context : RewriteContext) (error : String → ε)
    (neighbor clock : String) : Except ε Unit := do
  require (context.ownerHierarchy = context.expectedOwnerHierarchy)
    (error "source owner does not match proposal owner hierarchy")
  require (context.protectedNeighborIds = []) (error neighbor)
  require (context.clockDomainIds.length = 1) (error clock)

theorem conditionalStatement_ne : "ConditionalStatement" ≠ "" := by decide

def conditionalStatement : { kind : String // kind ≠ "" } :=
  ⟨"ConditionalStatement", conditionalStatement_ne⟩

theorem expressionStatement_ne : "ExpressionStatement" ≠ "" := by decide

def expressionStatement : { kind : String // kind ≠ "" } :=
  ⟨"ExpressionStatement", expressionStatement_ne⟩

/-- `SourceEdit(...)` for the range of a context, whose text has the given hash. -/
def RewriteContext.edit (context : RewriteContext) (validation : ε)
    (expectedTextHash replacement : String) (astNodeKind : { kind : String // kind ≠ "" }) :
    Except ε SourceEdit :=
  if h : normalizedPath context.relativePath ∧ isHashRef expectedTextHash then
    .ok { context.toSourceRange with
      relativePath := context.relativePath
      expectedTextHash := expectedTextHash
      replacement := replacement
      astNodeKind := astNodeKind
      path_normalized := h.1
      hash_ref := h.2
      astNodeKind_ne := astNodeKind.2 }
  else .error validation

end Checks

theorem RewriteContext.edit_eq_ok {ε : Type} {context : RewriteContext} {validation : ε}
    {hash replacement : String} {kind : { kind : String // kind ≠ "" }} {edit : SourceEdit}
    (h : context.edit validation hash replacement kind = .ok edit) :
    edit.toSourceRange = context.toSourceRange ∧ edit.relativePath = context.relativePath ∧
      edit.expectedTextHash = hash ∧ edit.replacement = replacement := by
  unfold RewriteContext.edit at h
  split at h
  · obtain rfl := Except.ok.inj h
    exact ⟨rfl, rfl, rfl, rfl⟩
  · cases h

end NovaRtl
