import Mathlib.Data.List.Forall2
import NovaRtl.FourState.Expression
import NovaRtl.Transforms.Patterns
import NovaRtl.Transforms.RewriteContext

/-!
# Assignments of bitwise expressions

What `transforms/boolean_tree.py` and `transforms/predicate.py` share: the patterns of operands, of
literals with unknown bits and of one assignment, and the division of an expression at an
operator.
-/

namespace NovaRtl

open Text Pattern FourState

/-- `(?:\[[^\]\r\n]+\])?` -/
def indexPattern : Pattern :=
  optional (inOrder [char (· = '['), many1 fun c => c ≠ ']' && c ≠ '\r' && c ≠ '\n',
    char (· = ']')])

/-- `[A-Za-z_][A-Za-z0-9_$]*(?:\[[^\]\r\n]+\])?` -/
def targetPattern : Pattern := inOrder [char wordStart, many wordRest, indexPattern]

/-- `[A-Za-z_][A-Za-z0-9_$.]*(?:\[[^\]\r\n]+\])?` -/
def namePattern : Pattern :=
  inOrder [char wordStart, many fun c => wordRest c || c = '.', indexPattern]

variable (classes : CharClasses)

/-- `'[sS]?[bBoOdDhH][^\s;]*[xXzZ?]` -/
def unknownLiteral : Pattern :=
  inOrder (basePatterns ++ [many fun c => !classes.isSpace c && c ≠ ';', char unknownDigit])

/-- `_ASSIGNMENT` -/
def assignmentPattern : Pattern :=
  inOrder [spaces classes, group "target" targetPattern, spaces classes, char (· = '='),
    spaces classes, group "expression" (many1 (· ≠ ';')), spaces classes, char (· = ';'),
    spaces classes, atEnd]

/-- `tuple(item.strip() for item in expression.split(separator))` -/
def splitStrip (separator : Char) (expression : List Char) : List (List Char) :=
  (expression.splitOn separator).map (strip classes)

/-- The text is an assignment of the expression to the target. -/
def Assigns (operandText : String → Prop) (target : String) (e : Expression String)
    (text : String) : Prop :=
  ∃ before between body after, Blank classes before ∧ Blank classes between ∧
    Written classes operandText 0 e body ∧ Blank classes after ∧
    text.toList = before ++ target.toList ++ between ++ '=' :: body ++ ';' :: after

variable {classes} {operandText : String → Prop}

/-! ## What the patterns match -/

/-- The parts of an assignment. -/
theorem assignment_parts {text : List Char} {hit : Hit}
    (h : (assignmentPattern classes).fullmatch text = some hit) :
    ∃ before between left right after, Blank classes before ∧ Blank classes between ∧
      Blank classes left ∧ Blank classes right ∧ Blank classes after ∧
      text = before ++ hit.group "target" ++ between ++
        '=' :: (left ++ hit.group "expression" ++ right) ++ ';' :: after := by
  obtain ⟨hmem, hrest⟩ := mem_of_fullmatch h
  have htext := taken_append_rest hmem
  rw [hrest, List.append_nil] at htext
  simp only [assignmentPattern, inOrder, mem_seq] at hmem
  obtain ⟨a, ha, _, ⟨_, hgroup, _, ⟨b, hb, _, ⟨equals, hequals, _, ⟨c, hc, _, ⟨_, hgroup', _,
    ⟨d, hd, _, ⟨semicolon, hsemicolon, _, ⟨e, he, finish, hfinish, rfl⟩, rfl⟩, rfl⟩, rfl⟩, rfl⟩,
    rfl⟩, rfl⟩, rfl⟩, rfl⟩ := hmem
  obtain ⟨target, htarget, rfl⟩ := mem_group.mp hgroup
  obtain ⟨expression, -, rfl⟩ := mem_group.mp hgroup'
  obtain ⟨hequals, hequals'⟩ := taken_of_mem_char hequals
  obtain ⟨hsemicolon, -⟩ := taken_of_mem_char hsemicolon
  obtain ⟨hfinish, -⟩ := of_mem_atEnd hfinish
  have hgroups : target.groups = [] := groups_eq_nil rfl htarget
  refine ⟨a.taken, b.taken, c.taken, d.taken, e.taken, (blank_of_mem_spaces ha).1,
    (blank_of_mem_spaces hb).1, (blank_of_mem_spaces hc).1, (blank_of_mem_spaces hd).1,
    (blank_of_mem_spaces he).1, ?_⟩
  simp only [Hit.group, Hit.append, Hit.named, (blank_of_mem_spaces ha).2,
    (blank_of_mem_spaces hb).2, (blank_of_mem_spaces hc).2, hequals', hgroups, hequals,
    hsemicolon, hfinish] at htext ⊢
  rw [← htext]
  simp [List.lookup_cons]

theorem assigns_of_fullmatch {text : String} {hit : Hit} {e : Expression String}
    (h : (assignmentPattern classes).fullmatch text.toList = some hit)
    (he : Written classes operandText 0 e (hit.group "expression")) :
    Assigns classes operandText (String.ofList (hit.group "target")) e text := by
  obtain ⟨before, between, left, right, after, hbefore, hbetween, hleft, hright, hafter, htext⟩ :=
    assignment_parts h
  refine ⟨before, between, _, after, hbefore, hbetween, .spaced hleft hright he, hafter, ?_⟩
  rw [String.toList_ofList, htext]

/-- How the rewrites print an assignment. -/
theorem assigns_printed {target body text : String} {e : Expression String}
    (hspace : classes.isSpace ' ') (he : Written classes operandText 0 e body.toList)
    (htext : text = s!"{target} = {body};") :
    Assigns classes operandText target e text := by
  have hblank : Blank classes [' '] := by simpa [Blank] using hspace
  refine ⟨[], [' '], _, [], blank_nil, hblank, .spaced hblank blank_nil he, blank_nil, ?_⟩
  simp [htext, toString]

/-! ## Split expressions -/

theorem of_mem_splitOn {c separator : Char} {text part : List Char}
    (hpart : part ∈ text.splitOn separator) (hc : c ∈ part) : c ∈ text ∧ c ≠ separator := by
  induction text generalizing part with
  | nil => simp_all
  | cons d text ih =>
    rw [List.splitOn_cons_eq_if_modifyHead] at hpart
    split at hpart
    next =>
      rcases List.mem_cons.mp hpart with rfl | hpart
      · cases hc
      · obtain ⟨hmem, hne⟩ := ih hpart hc
        exact ⟨List.mem_cons_of_mem d hmem, hne⟩
    next hd =>
      obtain ⟨first, rest, hsplit⟩ :=
        List.exists_cons_of_ne_nil (List.splitOn_ne_nil separator text)
      rw [hsplit] at hpart ih
      rcases List.mem_cons.mp hpart with rfl | hpart
      · rcases List.mem_cons.mp hc with rfl | hc
        · exact ⟨List.mem_cons_self, by simpa using hd⟩
        · obtain ⟨hmem, hne⟩ := ih List.mem_cons_self hc
          exact ⟨List.mem_cons_of_mem d hmem, hne⟩
      · obtain ⟨hmem, hne⟩ := ih (List.mem_cons_of_mem first hpart) hc
        exact ⟨List.mem_cons_of_mem d hmem, hne⟩

theorem mem_of_mem_strip {c : Char} {text : List Char} (h : c ∈ strip classes text) : c ∈ text := by
  obtain ⟨before, after, -, -, htext⟩ := strip_spec classes text
  rw [htext]
  simp [h]

theorem of_mem_splitStrip {c separator : Char} {text part : List Char}
    (hpart : part ∈ splitStrip classes separator text) (hc : c ∈ part) :
    c ∈ text ∧ c ≠ separator := by
  obtain ⟨unstripped, hmem, rfl⟩ := List.mem_map.mp hpart
  exact of_mem_splitOn hmem (mem_of_mem_strip hc)

/-- Parts between the symbols of an operator are a chain. -/
theorem written_splitStrip {β : Type} {op : Operator} {leaf : β → Expression String}
    {b : β} {rest : List β} {text : List Char}
    (h : List.Forall₂ (fun b' part => Written classes operandText (op.level + 1) (leaf b') part)
      (b :: rest) (splitStrip classes op.symbol text)) :
    Written classes operandText op.level ((Reduction.serial b rest).eval leaf (.binary op)) text := by
  rw [splitStrip, List.forall₂_map_right_iff] at h
  obtain ⟨first, others, hfirst, hothers, hparts⟩ := List.forall₂_cons_left_iff.mp h
  have hstrip (b' : β) (part : List Char)
      (h : Written classes operandText (op.level + 1) (leaf b') (strip classes part)) :
      Written classes operandText (op.level + 1) (leaf b') part := by
    obtain ⟨before, after, hbefore, hafter, hpart⟩ := strip_spec classes part
    rw [hpart]
    exact .spaced hbefore hafter h
  have hlist := Written.serial (hstrip b first hfirst) (hothers.imp hstrip)
  rwa [← hparts, List.intercalate_splitOn] at hlist

/-! ## Evaluation of one bit -/

/-- The operators see a floating bit as unknown. -/
def seen : Logic → Logic
  | .z => .x
  | bit => bit

end NovaRtl
