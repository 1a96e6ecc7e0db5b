import NovaRtl.Transforms.Syntax.Edit

/-!
# What an accepted edit can touch

The text of a span ends with the character at its end position, and the overlap test compares
the two ranges as if the span were half-open. `protected_untouched_iff` says which accepted edits
still leave every protected character alone.
-/

namespace NovaRtl

open Text

/-- The columns of line `n` that belong to the span. -/
def SpanRange.columns (span : SpanRange) (n : ℕ) (content : List Char) : List Char :=
  ((content.zipIdx 1).filter fun c =>
    span.start ≤ ⟨n, c.2⟩ ∧ (⟨n, c.2⟩ : Position) ≤ span.stop).map Prod.fst

/-- The lines of the span, counted from one. -/
def SpanRange.lines (span : SpanRange) (source : List Char) : List (Line × ℕ) :=
  ((splitLines source).zipIdx 1).filter fun line =>
    span.startLine ≤ line.2 ∧ line.2 ≤ span.endLine

/-- The text of the span includes the character at `offset`: the character is in a column of the
span, or it belongs to the boundary after a line of the span that is not its last. -/
def SpanRange.HasChar (span : SpanRange) (source : List Char) (offset : ℕ) : Prop :=
  ∃ p line, CharAt (splitLines source) p offset ∧ (splitLines source)[p.line - 1]? = some line ∧
    (p.column ≤ line.content.length ∧ span.start ≤ p ∧ p ≤ span.stop ∨
      line.content.length < p.column ∧ span.startLine ≤ p.line ∧ p.line < span.endLine)

namespace Syntax

section SpanText

variable {α : Type} {source text : List Char} {span : SpanRange}

theorem filter_zipIdx (l : List α) (a b k : ℕ) :
    ((l.zipIdx k).filter fun x => a ≤ x.2 ∧ x.2 ≤ b) =
      ((l.zipIdx k).take (b + 1 - k)).drop (a - k) := by
  induction l generalizing k with
  | nil => simp
  | cons x l ih =>
    have hnext := ih (k + 1)
    rw [List.zipIdx_cons]
    rcases Nat.lt_or_ge b k with hb | hb
    · rw [show b + 1 - (k + 1) = 0 by omega] at hnext
      rw [show b + 1 - k = 0 by omega, List.filter_cons_of_neg (by simp; omega), hnext]
      simp
    · rw [show b + 1 - k = b + 1 - (k + 1) + 1 by omega, List.take_succ_cons]
      rcases Nat.lt_or_ge k a with ha | ha
      · rw [show a - k = a - (k + 1) + 1 by omega, List.filter_cons_of_neg (by simp; omega),
          List.drop_succ_cons, hnext]
      · rw [show a - k = 0 by omega, List.filter_cons_of_pos (by simp; omega), hnext,
          show a - (k + 1) = 0 by omega]
        rfl

theorem columns_eq {content : List Char} {n : ℕ} (a b : ℕ)
    (h : ∀ c, 1 ≤ c → c ≤ content.length →
      (span.start ≤ ⟨n, c⟩ ∧ (⟨n, c⟩ : Position) ≤ span.stop ↔ a ≤ c ∧ c ≤ b)) :
    span.columns n content = (content.take b).drop (a - 1) := by
  have hfilter : ((content.zipIdx 1).filter fun c =>
      span.start ≤ ⟨n, c.2⟩ ∧ (⟨n, c.2⟩ : Position) ≤ span.stop) =
      (content.zipIdx 1).filter fun c => a ≤ c.2 ∧ c.2 ≤ b := by
    apply List.filter_congr
    intro c hc
    have hlower := List.le_snd_of_mem_zipIdx hc
    have hupper := List.snd_lt_of_mem_zipIdx hc
    simp [h c.2 hlower (by omega)]
  rw [SpanRange.columns, hfilter, filter_zipIdx, List.map_drop, List.map_take,
    List.zipIdx_map_fst, Nat.add_sub_cancel]

theorem getElem?_trimSelected {selected : List (List Char)} {i : ℕ}
    (hlength : selected.length = span.endLine + 1 - span.startLine) :
    (trimSelected span selected)[i]? =
      selected[i]?.map fun content => span.columns (span.startLine + i) content := by
  have hcolumn := span.startColumn_pos
  have hordered := span.ordered
  rcases Nat.lt_or_ge i selected.length with hi | hi
  swap
  · rw [List.getElem?_eq_none hi, List.getElem?_eq_none (by simpa using hi)]
    rfl
  have hcolumns (content : List Char) (a b : ℕ) (h : ∀ c, 1 ≤ c → c ≤ content.length →
      ((0 < i ∨ i = 0 ∧ span.startColumn ≤ c) ∧
        (span.startLine + i < span.endLine ∨
          span.startLine + i = span.endLine ∧ c ≤ span.endColumn) ↔ a ≤ c ∧ c ≤ b)) :
      span.columns (span.startLine + i) content = (content.take b).drop (a - 1) := by
    apply columns_eq
    intro c hone hc
    rw [← h c hone hc, Position.le_def, Position.le_def]
    simp only [SpanRange.start, SpanRange.stop]
    omega
  have hget : selected[i]? = some selected[i] := List.getElem?_eq_getElem hi
  simp only [trimSelected, List.length_modifyHead, hget, Option.map_some]
  split
  next hone =>
    obtain rfl : i = 0 := by omega
    simp only [List.getElem?_modifyHead_zero, hget, Option.map_some]
    rw [hcolumns _ span.startColumn span.endColumn (by omega), List.drop_take,
      show span.endColumn + 1 - span.startColumn = span.endColumn - (span.startColumn - 1) by omega]
  next hone =>
    simp only [List.getElem?_modify, List.getElem?_modifyHead, hget, Option.map_eq_map]
    by_cases hfirst : i = 0
    · -- the first of several lines is cut at its start only
      subst hfirst
      rw [hcolumns _ span.startColumn selected[0].length (by omega), List.take_length]
      simp [show selected.length - 1 ≠ 0 by omega]
    by_cases hlast : selected.length - 1 = i
    · rw [hcolumns _ 1 span.endColumn (by omega)]
      simp [hfirst, hlast]
    · rw [hcolumns _ 1 selected[i].length (by omega), List.take_length]
      simp [hfirst, hlast]

/-- The text of a span is made of its columns in each of its lines. -/
theorem sourceSpanText_eq (h : sourceSpanText source span = .ok text) :
    text = ['\n'].intercalate
      ((span.lines source).map fun line => span.columns line.2 line.1.content) := by
  simp only [sourceSpanText, bind_eq_ok, require_eq_ok, pure, Except.pure] at h
  obtain ⟨⟨⟩, hend, ⟨⟩, -, htext⟩ := h
  obtain rfl := Except.ok.inj htext
  have hstart := span.startLine_pos
  have hordered := span.ordered
  simp only [List.length_map] at hend
  congr 1
  apply List.ext_getElem?
  intro i
  rw [getElem?_trimSelected (by simp; omega), SpanRange.lines, filter_zipIdx, Nat.add_sub_cancel]
  simp only [List.getElem?_map, List.getElem?_drop, List.getElem?_take, List.getElem?_zipIdx]
  split
  · cases (splitLines source)[span.startLine - 1 + i]? with
    | none => rfl
    | some line =>
      simp only [Option.map_some]
      rw [show 1 + (span.startLine - 1 + i) = span.startLine + i by omega]
  · rfl

end SpanText

section Offsets

variable {text source : List Char} {line column offset startOffset endOffset : ℕ}

theorem length_removeSuffix_le (c : Char) (text : List Char) :
    (removeSuffix c text).length ≤ text.length := by
  unfold removeSuffix
  split <;> simp

/-- An accepted coordinate is a boundary of the text, and the offset counts the characters
before it. -/
theorem positionToOffset_eq_ok (hline : 1 ≤ line) (hcolumn : 1 ≤ column)
    (h : positionToOffset source line column = .ok offset) :
    BoundaryAt (splitLines source) ⟨line, column⟩ ∧
      offset = lineStart (splitLines source) line + (column - 1) := by
  simp only [positionToOffset, bind_eq_ok, require_eq_ok, pure, Except.pure, Except.ok.injEq] at h
  obtain ⟨⟨⟩, hlines, ⟨⟩, hlength, rfl⟩ := h
  have hindex : line - 1 < (splitLines source).length := by omega
  refine ⟨⟨(splitLines source)[line - 1], hline, List.getElem?_eq_getElem hindex, hcolumn, ?_⟩,
    rfl⟩
  have hcr := length_removeSuffix_le '\r' (removeSuffix '\n' (splitLines source)[line - 1].text)
  have hlf := length_removeSuffix_le '\n' (splitLines source)[line - 1].text
  simp only [List.getD_eq_getElem?_getD, List.getElem?_map, List.getElem?_eq_getElem hindex,
    Option.map_some, Option.getD_some] at hlength
  dsimp only
  omega

variable {edit : SourceEdit}

/-- A character is replaced if its position is from the start of the edit to before its end. -/
theorem replaced_iff {p : Position} (hp : CharAt (splitLines source) p offset)
    (hstart : positionToOffset source edit.startLine edit.startColumn = .ok startOffset)
    (hend : positionToOffset source edit.endLine edit.endColumn = .ok endOffset) :
    startOffset ≤ offset ∧ offset < endOffset ↔ edit.start ≤ p ∧ p < edit.stop := by
  obtain ⟨hfirst, rfl⟩ := positionToOffset_eq_ok edit.startLine_pos edit.startColumn_pos hstart
  obtain ⟨hlast, rfl⟩ := positionToOffset_eq_ok edit.endLine_pos edit.endColumn_pos hend
  exact and_congr (lineStart_add_le_iff hp hfirst) (lt_lineStart_add_iff hp hlast)

end Offsets

section Protection

/-- The number of characters of a line before its boundary. -/
def lineLength (source : List Char) (line : ℕ) : ℕ :=
  (((splitLines source).map fun l => l.content.length)[line - 1]?).getD 0

/-- The span does not end on the character where the edit starts, and where a longer span starts
on the last line of the edit, the edit keeps the boundary of that line. -/
def ClearOf (source : List Char) (span : SpanRange) (edit : SourceEdit) : Prop :=
  (span.stop = edit.start → lineLength source edit.startLine < edit.startColumn) ∧
    (span.startLine < span.endLine → span.startLine = edit.endLine →
      edit.endColumn ≤ lineLength source edit.endLine + 1)

variable {source : List Char} {span : SpanRange} {edit : SourceEdit} {startOffset endOffset : ℕ}

theorem lineLength_eq {line : Line} {n : ℕ} (h : (splitLines source)[n - 1]? = some line) :
    lineLength source n = line.content.length := by
  simp [lineLength, h]

theorem start_lt_stop (edit : SourceEdit) : edit.start < edit.stop := edit.ordered

theorem start_le_stop (span : SpanRange) : span.start ≤ span.stop := span.ordered

section Replaced

variable (hstart : positionToOffset source edit.startLine edit.startColumn = .ok startOffset)
variable (hend : positionToOffset source edit.endLine edit.endColumn = .ok endOffset)

include hstart hend

/-- The edit replaces the last character of a span that ends where it starts. -/
theorem replaces_last (hmeet : span.stop = edit.start)
    (hcontent : edit.startColumn ≤ lineLength source edit.startLine) :
    ∃ offset, span.HasChar source offset ∧ startOffset ≤ offset ∧ offset < endOffset := by
  obtain ⟨line, hline, hget, hcolumn, -⟩ :=
    (positionToOffset_eq_ok edit.startLine_pos edit.startColumn_pos hstart).1
  dsimp only at hline hget hcolumn
  rw [lineLength_eq hget] at hcontent
  have hchar : CharAt (splitLines source) edit.start
      (lineStart (splitLines source) edit.startLine + (edit.startColumn - 1)) :=
    ⟨line, hline, hget, hcolumn, by simp [Line.text, SourceRange.start]; omega, rfl⟩
  refine ⟨_, ⟨edit.start, line, hchar, hget, .inl ⟨hcontent, ?_⟩⟩, ?_⟩
  · exact hmeet ▸ ⟨start_le_stop span, .inr ⟨rfl, le_rfl⟩⟩
  · exact (replaced_iff hchar hstart hend).mpr ⟨.inr ⟨rfl, le_rfl⟩, start_lt_stop edit⟩

/-- The edit replaces the boundary after the first line of a longer span. -/
theorem replaces_boundary (hlong : span.startLine < span.endLine)
    (hmeet : span.startLine = edit.endLine)
    (hpast : lineLength source edit.endLine + 1 < edit.endColumn) :
    ∃ offset, span.HasChar source offset ∧ startOffset ≤ offset ∧ offset < endOffset := by
  obtain ⟨line, hline, hget, hcolumn, hlength⟩ :=
    (positionToOffset_eq_ok edit.endLine_pos edit.endColumn_pos hend).1
  dsimp only at hline hget hcolumn hlength
  rw [lineLength_eq hget] at hpast
  have hordered := edit.ordered
  have hchar : CharAt (splitLines source) ⟨edit.endLine, edit.endColumn - 1⟩
      (lineStart (splitLines source) edit.endLine + (edit.endColumn - 1 - 1)) :=
    ⟨line, hline, hget, by simp only; omega, by simp only; omega, rfl⟩
  refine ⟨_, ⟨_, line, hchar, hget, .inr ?_⟩, (replaced_iff hchar hstart hend).mpr ?_⟩
  · simp only
    omega
  · simp only [Position.le_def, Position.lt_def, SourceRange.start, SourceRange.stop, true_and]
    omega

/-- An edit that is apart from a span and clear of it replaces none of its characters. -/
theorem not_replaced (hapart : ¬ (span.start < edit.stop ∧ edit.start < span.stop))
    (hclear : ClearOf source span edit) {offset : ℕ} (hchar : span.HasChar source offset) :
    ¬ (startOffset ≤ offset ∧ offset < endOffset) := by
  obtain ⟨p, line, hat, hget, hin⟩ := hchar
  obtain ⟨hmeet, hlong⟩ := hclear
  rw [replaced_iff hat hstart hend]
  simp only [Position.lt_def, Position.le_def, SpanRange.start, SpanRange.stop,
    SourceRange.start, SourceRange.stop, Position.mk.injEq] at hapart hin hmeet ⊢
  intro hreplaced
  rcases hin with ⟨hcontent, hlower, hupper⟩ | ⟨hending, hlower, hupper⟩
  · -- the span ends where the edit starts, and the character is there
    have hsame : p.line = edit.startLine := by omega
    rw [← hsame, lineLength_eq hget] at hmeet
    omega
  · -- the span starts behind the boundary that the edit replaces
    have hsame : p.line = edit.endLine := by omega
    rw [← hsame, lineLength_eq hget] at hlong
    omega

/-- What an edit that passes the overlap test replaces of a span. -/
theorem untouched_iff (hapart : ¬ (span.start < edit.stop ∧ edit.start < span.stop)) :
    (∀ offset, span.HasChar source offset → ¬ (startOffset ≤ offset ∧ offset < endOffset)) ↔
      ClearOf source span edit := by
  constructor
  · intro hsafe
    constructor
    · intro hmeet
      by_contra hcontent
      obtain ⟨offset, hchar, hreplaced⟩ := replaces_last hstart hend hmeet (by omega)
      exact hsafe offset hchar hreplaced
    · intro hlong hmeet
      by_contra hpast
      obtain ⟨offset, hchar, hreplaced⟩ := replaces_boundary hstart hend hlong hmeet (by omega)
      exact hsafe offset hchar hreplaced
  · intro hclear offset hchar
    exact not_replaced hstart hend hapart hclear hchar

end Replaced

end Protection

section Accepted

variable {hashes : Hashes} {root root' : Directory} {parsedAst : ParsedSlangAst}
variable {authorizedSpan : SourceSpanRecord} {protectedSpans : List SourceSpanRecord}
variable {edit : SourceEdit} {kinds : List String} {applied : AppliedSourceEdit}

/-- What `applyAuthorizedEdit` replaces in the text of its source. -/
structure Replaces (edit : SourceEdit) (source rewritten : String)
    (startOffset endOffset : ℕ) : Prop where
  start_ok : positionToOffset source.toList edit.startLine edit.startColumn = .ok startOffset
  end_ok : positionToOffset source.toList edit.endLine edit.endColumn = .ok endOffset
  rewritten_eq : rewritten = String.ofList
    (source.toList.take startOffset ++ edit.replacement.toList ++ source.toList.drop endOffset)

theorem readSource_eq_ok {path source : String} :
    readSource root path = .ok source ↔
      ∃ bytes, root path = .file bytes ∧ readText bytes = some source := by
  unfold readSource
  cases root path with
  | absent => simp
  | escapes => simp
  | file bytes => cases hread : readText bytes <;> simp [hread]

theorem rewriteSource_eq_ok {source rewritten : String}
    (h : rewriteSource hashes source authorizedSpan edit = .ok rewritten) :
    ∃ startOffset endOffset, Replaces edit source rewritten startOffset endOffset := by
  simp only [rewriteSource, bind_eq_ok, require_eq_ok, pure, Except.pure, Except.ok.injEq] at h
  obtain ⟨-, -, -, -, startOffset, hstart, endOffset, hend, -, -, rfl⟩ := h
  exact ⟨startOffset, endOffset, hstart, hend, rfl⟩

theorem applyAuthorizedEdit_eq_ok
    (h : applyAuthorizedEdit hashes root parsedAst authorizedSpan protectedSpans edit kinds =
      .ok (applied, root')) :
    checkAuthority parsedAst authorizedSpan protectedSpans edit kinds = .ok () ∧
      ∃ source rewritten, readSource root edit.relativePath = .ok source ∧
        rewriteSource hashes source authorizedSpan edit = .ok rewritten ∧
        root' = root.writeText edit.relativePath rewritten := by
  simp only [applyAuthorizedEdit, bind_eq_ok, pure, Except.pure, Except.ok.injEq,
    Prod.mk.injEq] at h
  obtain ⟨⟨⟩, hauthority, source, hsource, rewritten, hrewritten, -, rfl⟩ := h
  exact ⟨hauthority, source, rewritten, hsource, hrewritten, rfl⟩

/-- No character of a protected span of the edited file is replaced. -/
def ProtectedUntouched (protectedSpans : List SourceSpanRecord) (edit : SourceEdit)
    (source : String) (startOffset endOffset : ℕ) : Prop :=
  ∀ span ∈ protectedSpans, span.isProtected → span.relativePath = edit.relativePath →
    ∀ offset, span.HasChar source.toList offset → ¬ (startOffset ≤ offset ∧ offset < endOffset)

/-- An accepted edit leaves the characters of the protected spans alone exactly if it is clear of
every protected span of its file. -/
theorem protected_untouched_iff
    (h : applyAuthorizedEdit hashes root parsedAst authorizedSpan protectedSpans edit kinds =
      .ok (applied, root')) :
    ∃ source rewritten startOffset endOffset,
      readSource root edit.relativePath = .ok source ∧
        Replaces edit source rewritten startOffset endOffset ∧
        root' = root.writeText edit.relativePath rewritten ∧
        (ProtectedUntouched protectedSpans edit source startOffset endOffset ↔
          ∀ span ∈ protectedSpans, span.isProtected → span.relativePath = edit.relativePath →
            ClearOf source.toList span.toSpanRange edit) := by
  obtain ⟨hauthority, source, rewritten, hsource, hrewritten, hroot⟩ := applyAuthorizedEdit_eq_ok h
  obtain ⟨startOffset, endOffset, hreplaces⟩ := rewriteSource_eq_ok hrewritten
  refine ⟨source, rewritten, startOffset, endOffset, hsource, hreplaces, hroot, ?_⟩
  simp only [checkAuthority, bind_eq_ok, require_eq_ok] at hauthority
  obtain ⟨-, -, -, -, -, -, -, hoverlap, -⟩ := hauthority
  have hapart (span) (hmem : span ∈ protectedSpans) (hprotected : span.isProtected)
      (hpath : span.relativePath = edit.relativePath) :
      ¬ (span.start < edit.stop ∧ edit.start < span.stop) := by
    intro hmeet
    apply hoverlap
    rw [List.any_eq_true]
    exact ⟨span, hmem, by simp [rangesOverlap, hprotected, hpath, hmeet]⟩
  refine forall_congr' fun span => forall_congr' fun hmem => forall_congr' fun hprotected =>
    forall_congr' fun hpath => ?_
  exact untouched_iff hreplaces.start_ok hreplaces.end_ok (hapart span hmem hprotected hpath)

end Accepted

section Sample

/-- The hashes of the texts of the sample. -/
def sampleHashes : Hashes where
  ofText
    | "c = a ^ b;" => "sha256:f15466eacb00473af26c3aad08bd865fd4e7e0b7657d1215a276c163ba09ba1f"
    | "c = a ^ b" => "sha256:cf0423d443c1436d0d0d230a404da297e7c1387e74d07475f831c3f5b7491129"
    | "c = a ^ b;\n" => "sha256:23a4ebb5cbfbb6eb27466935cddbaaa8aa08f750aa69a30c79939c5fa2270123"
    | "c = b ^ a;\n" => "sha256:62ec3ef86ba286cccc52616f516a9d13649afcb8120ec884a84fdd11bc32c3aa"
    | _ => "sha256:c0befc0a773762b7ab18f2995585786b05402e625889cd24ad3067590da98dd5"
  canonical _ := "sha256:b50c45b0f93ce25d9ab08854ddaf30bdd3a8ff9be97fcb51f61d34aced97c4db"

def sampleSource : String := "c = a ^ b;\n"

def sampleRewritten : String := "c = b ^ a;\n"

def sampleRoot : Directory :=
  Function.update (fun _ => .absent) "rtl/a.sv" (.file (encode sampleSource))

def sampleAuthorized : SourceSpanRecord where
  toSpanRange := ⟨1, 1, 1, 10, by decide, by decide, by decide, by decide, by decide⟩
  sourceSpanId := "span_assign"
  relativePath := "rtl/a.sv"
  sourceTextHash := "sha256:f15466eacb00473af26c3aad08bd865fd4e7e0b7657d1215a276c163ba09ba1f"
  isProtected := false

/-- The clock enable `c`. -/
def sampleProtected : SourceSpanRecord where
  toSpanRange := ⟨1, 1, 1, 1, by decide, by decide, by decide, by decide, by decide⟩
  sourceSpanId := "span_enable"
  relativePath := "rtl/a.sv"
  sourceTextHash := "sha256:2e7d2c03a9507ae265ecf5b5356885a53393a2029d241394997265a1a25aefc6"
  isProtected := true

def sampleEdit : SourceEdit where
  toSourceRange := ⟨1, 1, 1, 10, by decide, by decide, by decide, by decide, by decide⟩
  relativePath := "rtl/a.sv"
  expectedTextHash := "sha256:cf0423d443c1436d0d0d230a404da297e7c1387e74d07475f831c3f5b7491129"
  replacement := "c = b ^ a"
  astNodeKind := "ExpressionStatement"
  path_normalized := by decide +kernel
  hash_ref := by decide +kernel
  astNodeKind_ne := expressionStatement_ne

def sampleAst : ParsedSlangAst where
  nodes := [exactNode sampleEdit]
  astHash := "sha256:44136fa355b3678a1146ad16f7e8649e94fb4fc21fe77e8310c060f61caaff8a"

def sampleApplied : AppliedSourceEdit where
  relativePath := "rtl/a.sv"
  changedSpanIds := ["span_assign"]
  beforeHash := "sha256:23a4ebb5cbfbb6eb27466935cddbaaa8aa08f750aa69a30c79939c5fa2270123"
  afterHash := "sha256:62ec3ef86ba286cccc52616f516a9d13649afcb8120ec884a84fdd11bc32c3aa"
  replacementHash := "sha256:c0befc0a773762b7ab18f2995585786b05402e625889cd24ad3067590da98dd5"
  astHash := "sha256:44136fa355b3678a1146ad16f7e8649e94fb4fc21fe77e8310c060f61caaff8a"
  astNodeKind := "ExpressionStatement"
  sourceRange := (1, 1, 1, 10)
  editHash := "sha256:b50c45b0f93ce25d9ab08854ddaf30bdd3a8ff9be97fcb51f61d34aced97c4db"

theorem sampleAuthority_ok : checkAuthority sampleAst sampleAuthorized [sampleProtected] sampleEdit
    ["ExpressionStatement"] = .ok () := by
  decide +kernel

theorem sampleSource_read : readSource sampleRoot "rtl/a.sv" = .ok sampleSource := by
  have htext : String.ofList (universalNewlines sampleSource.toList) = sampleSource := by
    decide +kernel
  rw [readSource_eq_ok]
  exact ⟨encode sampleSource, Function.update_self .., (readText_encode _).trans (by rw [htext])⟩

theorem sampleApplied_ok :
    applyAuthorizedEdit sampleHashes sampleRoot sampleAst sampleAuthorized [sampleProtected]
        sampleEdit ["ExpressionStatement"] =
      .ok (sampleApplied, sampleRoot.writeText "rtl/a.sv" sampleRewritten) := by
  have hsource : readSource sampleRoot sampleEdit.relativePath = .ok sampleSource :=
    sampleSource_read
  simp only [applyAuthorizedEdit, sampleAuthority_ok, hsource]
  rfl

theorem sampleRange_ok :
    positionToOffset sampleSource.toList 1 1 = .ok 0 ∧
      positionToOffset sampleSource.toList 1 10 = .ok 9 := by
  decide +kernel

theorem sampleProtected_not_clear :
    ¬ ClearOf sampleSource.toList sampleProtected.toSpanRange sampleEdit := by
  intro hclear
  exact absurd (hclear.1 rfl) (by decide +kernel)

theorem protected_untouched_iff_sample :
    ∃ rewritten startOffset endOffset,
      Replaces sampleEdit sampleSource rewritten startOffset endOffset ∧
        ¬ ProtectedUntouched [sampleProtected] sampleEdit sampleSource startOffset endOffset := by
  obtain ⟨source, rewritten, startOffset, endOffset, hsource, hreplaces, -, hiff⟩ :=
    protected_untouched_iff sampleApplied_ok
  obtain rfl := Except.ok.inj (hsource.symm.trans sampleSource_read)
  refine ⟨rewritten, startOffset, endOffset, hreplaces, fun hsafe => ?_⟩
  exact sampleProtected_not_clear (hiff.mp hsafe sampleProtected (by simp) rfl rfl)

/-- The first character that the edit of the sample replaces is protected. -/
theorem protected_character_replaced :
    ¬ ∀ (hashes : Hashes) (root root' : Directory) (parsedAst : ParsedSlangAst)
      (authorizedSpan : SourceSpanRecord) (protectedSpans : List SourceSpanRecord)
      (edit : SourceEdit) (kinds : List String) (applied : AppliedSourceEdit) (source : String)
      (startOffset endOffset : ℕ),
      applyAuthorizedEdit hashes root parsedAst authorizedSpan protectedSpans edit kinds =
          .ok (applied, root') →
        readSource root edit.relativePath = .ok source →
        positionToOffset source.toList edit.startLine edit.startColumn = .ok startOffset →
        positionToOffset source.toList edit.endLine edit.endColumn = .ok endOffset →
        ProtectedUntouched protectedSpans edit source startOffset endOffset := by
  intro h
  have hsafe := h _ _ _ _ _ _ _ _ _ _ _ _ sampleApplied_ok sampleSource_read
    sampleRange_ok.1 sampleRange_ok.2
  have hapart : ¬ (sampleProtected.start < sampleEdit.stop ∧
      sampleEdit.start < sampleProtected.stop) := by
    decide
  have hiff := untouched_iff sampleRange_ok.1 sampleRange_ok.2 hapart
  exact sampleProtected_not_clear (hiff.mp (hsafe sampleProtected (by simp) rfl rfl))

end Sample

end Syntax

end NovaRtl
