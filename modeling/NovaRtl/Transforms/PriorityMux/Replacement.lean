import NovaRtl.Transforms.PriorityMux.SideEffects
import NovaRtl.Verilog.Templates
import Mathlib.Data.List.Zip

/-!
# The tokens of the replacement

`rewrite` puts the conditions and values of a chain into fixed text as they stand in the source,
and its target as the tokens of `_lex` without the white space between them. `template` is this
text with its places, and `replacement_faithful_iff` says when the tokens at each place are those of
the source: an escaped name must not end a condition or a value, and no token of a target may reach
into the next one.
-/

namespace NovaRtl.PriorityMux

open Text
open Verilog (Quiet Segment Separator textOf textOf_cons textOf_append EndsEscaped Separate Sound
  WellFormed AllKept Kept Faithful atoms tokenTexts)

variable {classes : CharClasses} {c d : Char} {rest chars : List Char}
variable {index length : ℕ} {kind : TokenKind} {t : Token} {tokens part : List Token}

/-! ## Printed targets -/

theorem toList_joinTexts (tokens : List Token) : (joinTexts tokens).toList = textsOf tokens := by
  induction tokens with
  | nil => rfl
  | cons t tokens ih =>
    rw [textsOf, List.flatMap_cons, ← textsOf, ← ih]
    simp [joinTexts]

variable (classes) in
/-- The characters of names and numbers of the lexer. -/
def runChar (c : Char) : Prop := classes.isAlnum c ∨ c ∈ ['_', '$', '\'', '?']

variable (classes) in
/-- Text without white space that is quiet or one escaped name. -/
def TargetText (text : List Char) : Prop :=
  (∀ c ∈ text, classes.isSpace c = false) ∧ (Quiet text ∨ text.head? = some '\\')

theorem quiet_of_runChar (hlawful : classes.Lawful) (hc : runChar classes c) :
    classes.isSpace c = false ∧ c ∉ ['"', '/', '\\'] := by
  rcases hc with hc | hc
  · refine ⟨hlawful.not_isSpace_of_isAlnum c hc, fun hmem => ?_⟩
    have hall : ['"', '/', '\\'].Forall fun c =>
        c.toNat < 128 ∧ CharClasses.ascii.isAlnum c = false := by decide
    obtain ⟨hlt, hascii⟩ := List.forall_iff_forall_mem.mp hall c hmem
    rw [hlawful.isAlnum_of_lt c hlt, hascii] at hc
    cases hc
  · have hall : ['_', '$', '\'', '?'].Forall fun c =>
        c.toNat < 128 ∧ CharClasses.ascii.isSpace c = false ∧ c ∉ ['"', '/', '\\'] := by decide
    obtain ⟨hlt, hspace, hquiet⟩ := List.forall_iff_forall_mem.mp hall c hc
    exact ⟨(hlawful.isSpace_of_lt c hlt).trans hspace, hquiet⟩

theorem targetText_of_run (hlawful : classes.Lawful) {p : Char → Bool} (hc : runChar classes c)
    (hp : ∀ d, p d → runChar classes d) : TargetText classes (c :: rest.takeWhile p) := by
  have hall : ∀ d ∈ c :: rest.takeWhile p, runChar classes d :=
    List.forall_mem_cons.mpr ⟨hc, fun d hd => hp d (List.mem_takeWhile_imp hd)⟩
  exact ⟨fun d hd => (quiet_of_runChar hlawful (hall d hd)).1,
    .inl fun d hd => (quiet_of_runChar hlawful (hall d hd)).2⟩

/-- The text of a token of a target. -/
theorem targetText_of_allowed (hlawful : classes.Lawful)
    (hscanned : Scanned classes c rest length t.kind)
    (htext : t.text = String.ofList ((c :: rest).take length)) (hallowed : allowedTarget t) :
    TargetText classes t.text.toList := by
  have hsymbol (h : t.text ∈ ["[", "]", ":", "."]) : TargetText classes t.text.toList := by
    have hall : ["[", "]", ":", "."].Forall fun text => text.toList.Forall fun c =>
        c.toNat < 128 ∧ CharClasses.ascii.isSpace c = false ∧ c ∉ ['"', '/', '\\'] := by decide
    have hchars := List.forall_iff_forall_mem.mp (List.forall_iff_forall_mem.mp hall _ h)
    exact ⟨fun c hc => (hlawful.isSpace_of_lt c (hchars c hc).1).trans (hchars c hc).2.1,
      .inl fun c hc => (hchars c hc).2.2⟩
  simp only [allowedTarget, Bool.or_eq_true, decide_eq_true_eq] at hallowed
  rcases hallowed with hallowed | hallowed
  · rw [htext, String.toList_ofList]
    generalize t.kind = kind at hscanned hallowed
    cases hscanned with
    | string | operator | symbol => simp at hallowed
    | escaped hc =>
      subst hc
      have hspace : classes.isSpace '\\' = false := hlawful.isSpace_of_lt '\\' (by decide)
      rw [take_runLength]
      exact ⟨List.forall_mem_cons.mpr ⟨hspace, fun d hd => by simpa using List.mem_takeWhile_imp hd⟩,
        .inr rfl⟩
    | name _ _ hc =>
      rw [take_runLength]
      refine targetText_of_run hlawful ?_ fun d hd => ?_
      · rcases hc with rfl | hc | rfl
        · exact .inr (by simp)
        · exact .inl (hlawful.isAlnum_of_isAlpha c hc)
        · exact .inr (by simp)
      · simp only [Bool.or_eq_true, decide_eq_true_eq] at hd
        rcases hd with (hd | rfl) | rfl
        · exact .inl hd
        all_goals exact .inr (by simp)
    | number _ _ _ hc =>
      rw [take_runLength]
      refine targetText_of_run hlawful ?_ fun d hd => ?_
      · rcases hc with hc | rfl
        · exact .inl (hlawful.isAlnum_of_isDigit c hc)
        · exact .inr (by simp)
      · simp only [Bool.or_eq_true, decide_eq_true_eq] at hd
        rcases hd with ((hd | rfl) | rfl) | rfl
        · exact .inl hd
        all_goals exact .inr (by simp)
  · exact hsymbol hallowed

/-- Texts of targets put together are sound: after the first backslash one escaped name reaches to
the end. -/
theorem sound_of_targetTexts (hlawful : classes.Lawful) {texts : List (List Char)}
    (h : ∀ text ∈ texts, TargetText classes text) : Sound classes 0 texts.flatten := by
  have hsplit : ∃ u v, texts.flatten = u ++ v ∧ Quiet u ∧ (v = [] ∨ v.head? = some '\\') ∧
      ∀ c ∈ v, classes.isSpace c = false := by
    induction texts with
    | nil => exact ⟨[], [], rfl, nofun, .inl rfl, nofun⟩
    | cons text texts ih =>
      obtain ⟨⟨hspace, htext⟩, hrest⟩ := List.forall_mem_cons.mp h
      obtain ⟨u, v, hflat, hu, hv, hvspace⟩ := ih hrest
      rw [List.flatten_cons]
      rcases htext with hquiet | hbackslash
      · refine ⟨text ++ u, v, by rw [hflat, List.append_assoc], ?_, hv, hvspace⟩
        exact fun c hc => (List.mem_append.mp hc).elim (hquiet c) (hu c)
      · refine ⟨[], text ++ texts.flatten, rfl, nofun, .inr ?_, fun c hc => ?_⟩
        · obtain ⟨name, rfl⟩ := List.head?_eq_some_iff.mp hbackslash
          rfl
        rcases List.mem_append.mp hc with hc | hc
        · exact hspace c hc
        · obtain ⟨text, htext, hmem⟩ := List.mem_flatten.mp hc
          exact (hrest text htext).1 c hmem
  obtain ⟨u, v, hflat, hu, hv, hvspace⟩ := hsplit
  rw [hflat]
  refine hu.sound hlawful (Nat.zero_le _) hv ?_
  rcases hv with rfl | hv
  · trivial
  · obtain ⟨name, rfl⟩ := List.head?_eq_some_iff.mp hv
    exact Verilog.sound_escaped hlawful (List.forall_mem_cons.mp hvspace).2

/-! ## The template -/

/-- The part of the source that consecutive tokens cover. -/
def sliceOf (source : String) (part : List Token) : List Char :=
  match part.head?, part.getLast? with
  | some first, some last => slice source first last
  | _, _ => []

def linesText (lines : List String) : List Char := lines.flatMap fun line => line.toList ++ ['\n']

def conditionSegments (source : String) (index : ℕ) (branch : PriorityBranch) (arm : Arm) :
    List Segment :=
  [.fixed s!"  nova_priority_cond[{index}] = ((".toList,
    .place branch.condition.toList (sliceOf source arm.condition),
    .fixed (linesText [") === 1'b1);"])]

def assignSegments (source target value : String) (assign : Assign)
    (after : List Char) : List Segment :=
  [.place target.toList (sliceOf source assign.target), .fixed " = ".toList,
    .place value.toList (sliceOf source assign.value), .fixed after]

def itemSegments (source target : String) (index : ℕ) (branch : PriorityBranch) (arm : Arm) :
    List Segment :=
  .fixed s!"    nova_priority_match[{index}]: ".toList ::
    assignSegments source target branch.value arm.toAssign (linesText [";"])

variable {hashes : Hashes}

namespace PriorityMuxMatch

variable (m : PriorityMuxMatch hashes)

/-- The lines before those of the conditions. -/
def declarationLines : List String :=
  let high := m.branches.length - 1
  ["begin : " ++ m.blockName, s!"  logic [{high}:0] nova_priority_cond;",
    s!"  logic [{high}:0] nova_priority_match;"]

/-- The lines between those of the conditions and those of the values. -/
def decodeLines : List String :=
  ["  nova_priority_match[0] = nova_priority_cond[0];"] ++
    (List.range' 1 (m.branches.length - 1)).map matchLine ++ ["  case (1'b1)"]

def defaultSegments (source : String) (last : Assign) : List Segment :=
  .fixed "    default: ".toList :: assignSegments source m.assignmentTarget m.defaultValue last
    (linesText [";", "  endcase"] ++ "end".toList)

/-- The replacement as fixed text and places, for the arms of the source. -/
def template (source : String) (arms : List Arm) (last : Assign) : List Segment :=
  let pairs := (m.branches.zip arms).zipIdx
  .fixed (linesText m.declarationLines) ::
    (pairs.flatMap (fun (pair, i) => conditionSegments source i pair.1 pair.2) ++
  .fixed (linesText m.decodeLines) ::
    (pairs.flatMap (fun (pair, i) => itemSegments source m.assignmentTarget i pair.1 pair.2) ++
  m.defaultSegments source last))

end PriorityMuxMatch

theorem toList_intercalate_newline (init : List String) (last : String) :
    ("\n".intercalate (init ++ [last])).toList = linesText init ++ last.toList := by
  induction init with
  | nil => simp [linesText]
  | cons line init ih =>
    rw [List.cons_append, String.intercalate_cons_of_ne_nil (by simp), String.toList_append,
      String.toList_append, ih, linesText, linesText, List.flatMap_cons, List.append_assoc _ _ last.toList]
    rfl

theorem linesText_append (before after : List String) :
    linesText (before ++ after) = linesText before ++ linesText after := List.flatMap_append

/-- The places of the arms, one line each. -/
theorem textOf_pairs {α β : Type} {as : List α} {bs : List β}
    (segments : α → β → ℕ → List Segment) {line : α → ℕ → String} (hlength : bs.length = as.length)
    (hline : ∀ a b i, textOf (segments a b i) = (line a i).toList ++ ['\n']) :
    textOf ((as.zip bs).zipIdx.flatMap fun (pair, i) => segments pair.1 pair.2 i) =
      linesText (as.zipIdx.map fun (a, i) => line a i) := by
  have hfst : as.zipIdx = (as.zip bs).zipIdx.map fun pair => (pair.1.1, pair.2) := by
    rw [← @List.map_fst_zip _ _ as bs hlength.ge, List.zipIdx_map,
      List.map_fst_zip hlength.ge]
    rfl
  rw [hfst, List.map_map, textOf, List.flatMap_assoc, linesText, List.flatMap_map]
  exact List.flatMap_congr fun pair _ => hline _ _ _

theorem linesText_singleton (line : String) : linesText [line] = line.toList ++ ['\n'] :=
  List.flatMap_singleton _ _

theorem textOf_nil : textOf [] = [] := rfl

variable {source target : String} {branch : PriorityBranch} {arm : Arm} {i : ℕ}
variable {m : PriorityMuxMatch hashes} {arms : List Arm} {last : Assign}

theorem textOf_conditionSegments : textOf (conditionSegments source i branch arm) =
    (conditionLine i branch.condition).toList ++ ['\n'] := by
  unfold conditionSegments conditionLine
  simp only [textOf_cons, textOf_nil, Segment.text, linesText_singleton, String.toList_append,
    List.append_assoc, List.append_nil]
  rfl

theorem textOf_itemSegments : textOf (itemSegments source target i branch arm) =
    (itemLine target i branch.value).toList ++ ['\n'] := by
  unfold itemSegments assignSegments itemLine
  simp only [textOf_cons, textOf_nil, Segment.text, linesText_singleton, String.toList_append,
    List.append_assoc, List.append_nil]
  rfl

theorem PriorityMuxMatch.replacementLines_eq (m : PriorityMuxMatch hashes) :
    m.replacementLines = m.declarationLines ++
      m.branches.zipIdx.map (fun (branch, i) => conditionLine i branch.condition) ++
      m.decodeLines ++
      m.branches.zipIdx.map (fun (branch, i) => itemLine m.assignmentTarget i branch.value) ++
      ["    default: " ++ m.assignmentTarget ++ " = " ++ m.defaultValue ++ ";", "  endcase"] ++
      ["end"] := by
  unfold replacementLines declarationLines decodeLines
  simp only [List.append_assoc, List.cons_append, List.nil_append]

theorem textOf_template (hlength : arms.length = m.branches.length) :
    textOf (m.template source arms last) = m.replacement.toList := by
  have hconditions := textOf_pairs (fun branch arm i => conditionSegments source i branch arm)
    hlength fun _ _ _ => textOf_conditionSegments
  have hitems := textOf_pairs (fun branch arm i =>
    itemSegments source m.assignmentTarget i branch arm) hlength fun _ _ _ => textOf_itemSegments
  have hdefault : textOf (m.defaultSegments source last) =
      linesText ["    default: " ++ m.assignmentTarget ++ " = " ++ m.defaultValue ++ ";",
        "  endcase"] ++ "end".toList := by
    unfold PriorityMuxMatch.defaultSegments assignSegments
    simp only [textOf_cons, textOf_nil, Segment.text, linesText, List.flatMap_cons,
      List.flatMap_nil, String.toList_append, List.append_assoc, List.append_nil]
  unfold PriorityMuxMatch.template PriorityMuxMatch.replacement
  rw [m.replacementLines_eq, toList_intercalate_newline]
  simp only [linesText_append, textOf_append, textOf_cons, Segment.text, hconditions, hitems,
    hdefault, List.append_assoc]

/-! ## The fixed text -/

theorem quiet_literal {text : String}
    (h : text.toList.all fun c => c ∉ ['"', '/', '\\']) : Quiet text.toList := by
  simpa [Quiet] using h

theorem quiet_toString (n : ℕ) : Quiet (toString n).toList := by
  intro c hc
  have hdigit : c.isDigit := by
    rw [Nat.toString_eq_repr, Nat.toList_repr] at hc
    exact Nat.isDigit_of_mem_toDigits (by decide) (by decide) hc
  rintro hmem
  have hall : ['"', '/', '\\'].Forall fun c => c.isDigit = false := by decide
  rw [List.forall_iff_forall_mem.mp hall c hmem] at hdigit
  cases hdigit

theorem quiet_blockName (h : isHashRef m.matchHash) : Quiet m.blockName.toList := by
  simp only [isHashRef, Bool.and_eq_true, decide_eq_true_eq, List.all_eq_true] at h
  obtain ⟨⟨hbegins, -⟩, hdigits⟩ := h
  have hchars : (hashDigits m.matchHash).toList = m.matchHash.toList.drop hashPrefix.length := by
    rw [hashDigits, if_pos hbegins, String.toList_ofList]
  unfold PriorityMuxMatch.blockName
  rw [String.toList_append, hchars]
  refine Quiet.append (quiet_literal (by decide)) fun c hc hmem => ?_
  rw [String.toList_ofList] at hc
  have hhex := hdigits c (List.mem_of_mem_take hc)
  have hall : ['"', '/', '\\'].Forall fun c =>
      (c.isDigit || ('a' ≤ c && c ≤ 'f') : Bool) = false := by decide
  rw [List.forall_iff_forall_mem.mp hall c hmem] at hhex
  cases hhex

theorem separator_of_mem (hlawful : classes.Lawful) (hc : c ∈ [' ', '\n', '(', ')', ';']) :
    Separator classes c := by
  have hall : [' ', '\n', '(', ')', ';'].Forall fun c => c.toNat < 128 ∧
      (Verilog.charKind .ascii c = .space ∨ Verilog.charKind .ascii c = .delimiter) := by decide
  obtain ⟨hlt, hkind⟩ := List.forall_iff_forall_mem.mp hall c hc
  rwa [← Verilog.charKind_of_lt hlawful hlt] at hkind

theorem quiet_linesText {lines : List String} (h : ∀ line ∈ lines, Quiet line.toList) :
    Quiet (linesText lines) := by
  intro c hc
  obtain ⟨line, hline, hc⟩ := List.mem_flatMap.mp hc
  rcases List.mem_append.mp hc with hc | hc
  · exact h line hline c hc
  · obtain rfl := List.mem_singleton.mp hc
    decide

theorem getLast_linesText {lines : List String} (hne : lines ≠ []) :
    (linesText lines).getLast? = some '\n' := by
  obtain ⟨init, last, rfl⟩ := lines.eq_nil_or_concat'.resolve_left hne
  rw [linesText_append, linesText_singleton, ← List.append_assoc]
  exact List.getLast?_concat

theorem quiet_declarationLines (h : isHashRef m.matchHash) :
    ∀ line ∈ m.declarationLines, Quiet line.toList := by
  unfold PriorityMuxMatch.declarationLines
  simp only [List.forall_mem_cons, List.not_mem_nil, false_implies, implies_true, and_true,
    String.toList_append]
  exact ⟨(quiet_literal (by decide)).append (quiet_blockName h),
    ((quiet_literal (by decide)).append (quiet_toString _)).append (quiet_literal (by decide)),
    ((quiet_literal (by decide)).append (quiet_toString _)).append (quiet_literal (by decide))⟩

theorem quiet_matchLine (i : ℕ) : Quiet (matchLine i).toList := by
  unfold matchLine
  simp only [String.toList_append]
  have hliteral {text : String} := @quiet_literal text
  exact (((hliteral (by decide)).append (quiet_toString _)).append (hliteral (by decide))).append
    (quiet_toString _) |>.append (hliteral (by decide)) |>.append
      (((hliteral (by decide)).append (quiet_toString _)).append (hliteral (by decide)))

theorem quiet_decodeLines : ∀ line ∈ m.decodeLines, Quiet line.toList := by
  intro line hline
  unfold PriorityMuxMatch.decodeLines at hline
  simp only [List.mem_append, List.mem_singleton, List.mem_map] at hline
  rcases hline with (rfl | ⟨i, -, rfl⟩) | rfl
  · exact quiet_literal (by decide)
  · exact quiet_matchLine i
  · exact quiet_literal (by decide)

/-! ## The places -/

variable (classes source) in
/-- What is printed of an assignment of the source. -/
structure AssignPrinted (assign : Assign) (target value : String) : Prop where
  target_sound : Sound classes 0 target.toList
  target_eq : target.toList = (tokenTexts classes (sliceOf source assign.target)).flatten
  value_sound : Sound classes 0 value.toList
  value_eq : value.toList = sliceOf source assign.value

variable (classes source) in
structure ArmPrinted (target : String) (arm : Arm) (branch : PriorityBranch) : Prop extends
    AssignPrinted classes source arm.toAssign target branch.value where
  condition_sound : Sound classes 0 branch.condition.toList
  condition_eq : branch.condition.toList = sliceOf source arm.condition

variable (classes source) in
/-- No token of the target reaches into the next one, and no escaped name ends the value. -/
def AssignKept (assign : Assign) : Prop :=
  Separate classes (tokenTexts classes (sliceOf source assign.target)) ∧
    ¬ EndsEscaped (atoms classes 0 0 (sliceOf source assign.value))

variable (classes source) in
def ArmKept (arm : Arm) : Prop :=
  ¬ EndsEscaped (atoms classes 0 0 (sliceOf source arm.condition)) ∧
    AssignKept classes source arm.toAssign

variable {assign : Assign} {value : String} {text after : List Char} {segments : List Segment}

theorem head_textOf_fixed (h : text.head? = some c) :
    (textOf (.fixed text :: segments)).head? = some c := by
  obtain ⟨rest, rfl⟩ := List.head?_eq_some_iff.mp h
  rfl

theorem wellFormed_fixed (hlawful : classes.Lawful) (hquiet : Quiet text)
    (hlast : text.getLast? = some c) (hc : c ∈ [' ', '\n', '(', ')', ';'])
    (hrest : WellFormed classes segments) : WellFormed classes (.fixed text :: segments) :=
  ⟨hquiet, .inr ⟨c, hlast, separator_of_mem hlawful hc⟩, hrest⟩

/-- A place before a delimiter. -/
theorem wellFormed_place (hlawful : classes.Lawful) (hsound : Sound classes 0 text)
    (hhead : (textOf segments).head? = some c) (hc : c ∈ [' ', '\n', '(', ')', ';'])
    (hrest : WellFormed classes segments) : WellFormed classes (.place text text :: segments) :=
  ⟨hsound, ⟨c, hhead, separator_of_mem hlawful hc, .inr rfl⟩, hrest⟩

theorem isSpace_blank (hlawful : classes.Lawful) : classes.isSpace ' ' = true :=
  hlawful.isSpace_of_lt ' ' (by decide)

theorem wellFormed_assign (hlawful : classes.Lawful)
    (h : AssignPrinted classes source assign target value) (hquiet : Quiet after)
    (hhead : after.head? = some ';')
    (hlast : segments = [] ∨ after.getLast? = some '\n') (hrest : WellFormed classes segments) :
    WellFormed classes (assignSegments source target value assign after ++ segments) := by
  refine ⟨h.target_sound, ⟨' ', rfl, separator_of_mem hlawful (by decide),
    .inl (isSpace_blank hlawful)⟩, ?_⟩
  refine wellFormed_fixed (c := ' ') hlawful (quiet_literal (by decide)) rfl (by decide) ?_
  rw [← h.value_eq]
  refine wellFormed_place hlawful h.value_sound (head_textOf_fixed hhead) (by decide) ?_
  exact ⟨hquiet, hlast.imp_right fun hlast => ⟨'\n', hlast, separator_of_mem hlawful (by decide)⟩,
    hrest⟩

theorem kept_of_not_isSpace (hc : classes.isSpace c = false) :
    Kept classes text after (some c) ↔ ¬ EndsEscaped (atoms classes 0 0 text) := by
  rw [Kept, Option.any_some, if_neg (by simp [hc])]

theorem allKept_assign (hlawful : classes.Lawful)
    (h : AssignPrinted classes source assign target value) (hhead : after.head? = some ';') :
    AllKept classes (assignSegments source target value assign after ++ segments) ↔
      AssignKept classes source assign ∧ AllKept classes segments := by
  have hspace : classes.isSpace ';' = false := hlawful.isSpace_of_lt ';' (by decide)
  have htarget : Kept classes target.toList (sliceOf source assign.target) (some ' ') ↔
      Separate classes (tokenTexts classes (sliceOf source assign.target)) := by
    rw [Kept, Option.any_some, if_pos (isSpace_blank hlawful), h.target_eq]
    exact Verilog.tokenTexts_flatten_iff
  have hvalue := @kept_of_not_isSpace _ _ value.toList (sliceOf source assign.value)
    hspace
  rw [← @head_textOf_fixed _ _ segments hhead] at hvalue
  rw [h.value_eq] at hvalue
  rw [AssignKept, and_assoc, ← htarget, ← hvalue, assignSegments, h.value_eq]
  exact Iff.rfl

theorem wellFormed_condition (hlawful : classes.Lawful)
    (h : ArmPrinted classes source target arm branch) (hrest : WellFormed classes segments) :
    WellFormed classes (conditionSegments source i branch arm ++ segments) := by
  rw [conditionSegments, ← h.condition_eq]
  refine wellFormed_fixed (c := '(') hlawful ?_ ?_ (by decide) ?_
  · simp only [String.toList_append]
    exact ((quiet_literal (by decide)).append (quiet_toString i)).append (quiet_literal (by decide))
  · rw [String.toList_append]
    exact List.getLast?_append_of_ne_nil _ (by decide)
  refine wellFormed_place (c := ')') hlawful h.condition_sound rfl (by decide) ?_
  exact wellFormed_fixed (c := '\n') hlawful (quiet_linesText (by
    simp only [List.mem_singleton, forall_eq]
    exact quiet_literal (by decide))) (getLast_linesText (by simp)) (by decide) hrest

theorem allKept_condition (hlawful : classes.Lawful)
    (h : ArmPrinted classes source target arm branch) :
    AllKept classes (conditionSegments source i branch arm ++ segments) ↔
      ¬ EndsEscaped (atoms classes 0 0 (sliceOf source arm.condition)) ∧
        AllKept classes segments := by
  have hspace : classes.isSpace ')' = false := hlawful.isSpace_of_lt ')' (by decide)
  rw [← @kept_of_not_isSpace _ _ _ (sliceOf source arm.condition) hspace, conditionSegments,
    h.condition_eq]
  exact Iff.rfl

theorem wellFormed_item (hlawful : classes.Lawful)
    (h : ArmPrinted classes source target arm branch) (hrest : WellFormed classes segments) :
    WellFormed classes (itemSegments source target i branch arm ++ segments) := by
  refine wellFormed_fixed (c := ' ') hlawful ?_ ?_ (by decide) ?_
  · simp only [String.toList_append]
    exact ((quiet_literal (by decide)).append (quiet_toString i)).append (quiet_literal (by decide))
  · rw [String.toList_append]
    exact List.getLast?_append_of_ne_nil _ (by decide)
  refine wellFormed_assign hlawful h.toAssignPrinted (quiet_linesText ?_) rfl
    (.inr (getLast_linesText (by simp))) hrest
  simp only [List.mem_singleton, forall_eq]
  exact quiet_literal (by decide)

theorem allKept_item (hlawful : classes.Lawful)
    (h : ArmPrinted classes source target arm branch) :
    AllKept classes (itemSegments source target i branch arm ++ segments) ↔
      AssignKept classes source arm.toAssign ∧ AllKept classes segments :=
  allKept_assign hlawful h.toAssignPrinted rfl

theorem wellFormed_default (hlawful : classes.Lawful)
    (h : AssignPrinted classes source last m.assignmentTarget m.defaultValue) :
    WellFormed classes (m.defaultSegments source last) := by
  refine wellFormed_fixed (c := ' ') hlawful (quiet_literal (by decide)) rfl (by decide) ?_
  rw [← List.append_nil (assignSegments ..)]
  refine wellFormed_assign hlawful h (Quiet.append (quiet_linesText ?_) (quiet_literal (by decide)))
    rfl (.inl rfl) trivial
  simp only [List.forall_mem_cons, List.not_mem_nil, false_implies, implies_true, and_true]
  exact ⟨quiet_literal (by decide), quiet_literal (by decide)⟩

/-- Arms and branches in pairs. -/
theorem of_mem_pairs {pair : (PriorityBranch × Arm) × ℕ} {p : Arm → PriorityBranch → Prop}
    (h : List.Forall₂ p arms m.branches) (hpair : pair ∈ (m.branches.zip arms).zipIdx) :
    p pair.1.2 pair.1.1 := by
  have hmem := List.fst_mem_of_mem_zipIdx hpair
  exact List.forall₂_zip h.flip hmem

theorem template_wellFormed (hlawful : classes.Lawful) (hhash : isHashRef m.matchHash)
    (harms : List.Forall₂ (ArmPrinted classes source m.assignmentTarget) arms m.branches)
    (hlast : AssignPrinted classes source last m.assignmentTarget m.defaultValue) :
    WellFormed classes (m.template source arms last) := by
  refine wellFormed_fixed (c := '\n') hlawful (quiet_linesText (quiet_declarationLines hhash))
    (getLast_linesText (by simp [PriorityMuxMatch.declarationLines])) (by decide) ?_
  refine Verilog.wellFormed_flatMap
    (fun pair hpair _ => wellFormed_condition hlawful (of_mem_pairs harms hpair)) ?_
  refine wellFormed_fixed (c := '\n') hlawful (quiet_linesText quiet_decodeLines)
    (getLast_linesText (by simp [PriorityMuxMatch.decodeLines])) (by decide) ?_
  exact Verilog.wellFormed_flatMap
    (fun pair hpair _ => wellFormed_item hlawful (of_mem_pairs harms hpair))
    (wellFormed_default hlawful hlast)

theorem template_allKept (hlawful : classes.Lawful)
    (harms : List.Forall₂ (ArmPrinted classes source m.assignmentTarget) arms m.branches)
    (hlast : AssignPrinted classes source last m.assignmentTarget m.defaultValue) :
    AllKept classes (m.template source arms last) ↔
      (∀ arm ∈ arms, ArmKept classes source arm) ∧ AssignKept classes source last := by
  have hpairs {p : Arm → Prop} :
      (∀ pair ∈ (m.branches.zip arms).zipIdx, p pair.1.2) ↔ ∀ arm ∈ arms, p arm := by
    have hsnd : arms = ((m.branches.zip arms).zipIdx.map Prod.fst).map Prod.snd := by
      rw [List.zipIdx_map_fst, List.map_snd_zip harms.length_eq.le]
    conv_rhs => rw [hsnd]
    simp only [List.forall_mem_map]
  have hdefault : AllKept classes (m.defaultSegments source last) ↔
      AssignKept classes source last := by
    have hkept := @allKept_assign _ _ _ _ _ (linesText [";", "  endcase"] ++
      "end".toList) [] hlawful hlast rfl
    rw [List.append_nil] at hkept
    rw [PriorityMuxMatch.defaultSegments, AllKept, hkept]
    exact and_iff_left trivial
  rw [PriorityMuxMatch.template, AllKept, Verilog.allKept_flatMap fun pair hpair _ =>
    allKept_condition hlawful (of_mem_pairs harms hpair), AllKept,
    Verilog.allKept_flatMap fun pair hpair _ => allKept_item hlawful (of_mem_pairs harms hpair),
    hpairs (p := fun arm => ¬ EndsEscaped (atoms classes 0 0 (sliceOf source arm.condition))),
    hpairs (p := fun arm => AssignKept classes source arm.toAssign), hdefault, ← and_assoc,
    ← forall₂_and]
  rfl

/-! ## Readings of the source -/

variable (classes) in
/-- The arms of the source, with the texts of a match. -/
structure IsReading (m : PriorityMuxMatch hashes) (source : String) (tokens : List Token)
    (arms : List Arm) (last : Assign) : Prop where
  lex_eq : lex classes source = .ok tokens
  chain : IsChain arms last tokens
  last_text : AssignText classes source last m.assignmentTarget m.defaultValue
  arm_texts : List.Forall₂ (ArmText classes source m.assignmentTarget) arms m.branches

theorem IsChain.isAssign (h : IsChain arms last tokens) :
    IsTarget last.target ∧ ∀ arm ∈ arms, IsTarget arm.target := by
  induction h with
  | last h => exact ⟨h.1, nofun⟩
  | arm _ _ _ _ hassign _ ih => exact ⟨ih.1, List.forall_mem_cons.mpr ⟨hassign.1, ih.2⟩⟩

/-- A part of the tokens as a part of the source. -/
theorem lexFrom_sliceOf (hlex : lex classes source = .ok tokens) (hpart : part <:+: tokens)
    (hne : part ≠ []) : ∃ index, lexFrom classes 0 index (sliceOf source part) = .ok part := by
  obtain ⟨before, after, rfl⟩ := hpart
  obtain ⟨first, hfirst⟩ := Option.isSome_iff_exists.mp (List.isSome_head?.mpr hne)
  obtain ⟨last, hlast⟩ := Option.isSome_iff_exists.mp (List.getLast?_isSome.mpr hne)
  have hslice := (lexFrom_slice hlex hfirst hlast).1
  rw [sliceOf, hfirst, hlast]
  exact ⟨_, hslice⟩

theorem expression_printed (hlawful : classes.Lawful) (hlex : lex classes source = .ok tokens)
    (hpart : part <:+: tokens) {expression : String}
    (h : expressionText classes source part = .ok expression) :
    Sound classes 0 expression.toList ∧ expression.toList = sliceOf source part := by
  obtain ⟨first, last, hfirst, hlast, rfl, -⟩ := expressionText_eq_ok h
  have hne : part ≠ [] := by
    rintro rfl
    cases hfirst
  obtain ⟨index, hslice⟩ := lexFrom_sliceOf hlex hpart hne
  have heq : (sliceText classes source first last).toList = sliceOf source part := by
    obtain ⟨before, after, rfl⟩ := hpart
    rw [sliceText_eq hlawful hlex hfirst hlast, sliceOf, hfirst, hlast]
  rw [heq]
  exact ⟨(aligned_of_lexFrom hlawful hslice (.same 0 _)).1, rfl⟩

theorem target_printed (hlawful : classes.Lawful) (hlex : lex classes source = .ok tokens)
    (hpart : part <:+: tokens) (h : IsTarget part) :
    Sound classes 0 (joinTexts part).toList ∧
      (joinTexts part).toList = (tokenTexts classes (sliceOf source part)).flatten := by
  obtain ⟨index, hslice⟩ := lexFrom_sliceOf hlex hpart h.ne_nil
  rw [toList_joinTexts, ← textsOf_eq hlawful hslice]
  refine ⟨?_, rfl⟩
  rw [textsOf, List.flatMap_def]
  refine sound_of_targetTexts hlawful (List.forall_mem_map.mpr fun t ht => ?_)
  obtain ⟨c, rest, -, hscanned, htext⟩ := scanned_of_mem hslice ht
  exact targetText_of_allowed hlawful hscanned htext (h.allowed t ht)

theorem assign_printed (hlawful : classes.Lawful) (hlex : lex classes source = .ok tokens)
    (htarget : assign.target <:+: tokens) (hvalue : assign.value <:+: tokens)
    (hallowed : IsTarget assign.target) (htext : AssignText classes source assign target value) :
    AssignPrinted classes source assign target value := by
  obtain ⟨rfl, htext⟩ := htext
  obtain ⟨htargetSound, htargetEq⟩ := target_printed hlawful hlex htarget hallowed
  obtain ⟨hvalueSound, hvalueEq⟩ := expression_printed hlawful hlex hvalue htext
  exact ⟨htargetSound, htargetEq, hvalueSound, hvalueEq⟩

theorem IsReading.printed (hlawful : classes.Lawful)
    (h : IsReading classes m source tokens arms last) :
    List.Forall₂ (ArmPrinted classes source m.assignmentTarget) arms m.branches ∧
      AssignPrinted classes source last m.assignmentTarget m.defaultValue := by
  obtain ⟨⟨hlastTarget, hlastValue⟩, hparts⟩ := h.chain.parts
  obtain ⟨hlastAllowed, hallowed⟩ := h.chain.isAssign
  refine ⟨?_, assign_printed hlawful h.lex_eq hlastTarget hlastValue hlastAllowed h.last_text⟩
  have harms := (List.forall₂_and_left arms m.branches).mpr ⟨fun _ harm => harm, h.arm_texts⟩
  refine harms.imp fun arm branch ⟨harm, hcondition, hassign⟩ => ?_
  obtain ⟨hconditionPart, htargetPart, hvaluePart⟩ := hparts arm harm
  obtain ⟨hconditionSound, hconditionEq⟩ :=
    expression_printed hlawful h.lex_eq hconditionPart hcondition
  exact ⟨assign_printed hlawful h.lex_eq htargetPart hvaluePart (hallowed arm harm) hassign,
    hconditionSound, hconditionEq⟩

theorem template_faithful_iff (hlawful : classes.Lawful) (hhash : isHashRef m.matchHash)
    (h : IsReading classes m source tokens arms last) :
    Faithful classes (m.template source arms last) ↔
      (∀ arm ∈ arms, ArmKept classes source arm) ∧ AssignKept classes source last := by
  obtain ⟨harms, hlast⟩ := h.printed hlawful
  rw [Verilog.faithful_iff hlawful (template_wellFormed hlawful hhash harms hlast),
    template_allKept hlawful harms hlast]

variable {context : PriorityMuxContext}

theorem match_reading (h : match_ classes context = .ok m) :
    ∃ tokens arms last, IsReading classes m context.sourceText tokens arms last := by
  obtain ⟨tokens, arms, last, hlex, hchain, hlast, harms⟩ := parse_arms (match_sound h).2
  exact ⟨tokens, arms, last, hlex, hchain, hlast, harms⟩

theorem rewrite_eq_replacement {parameters : PriorityMuxParameters} {edit : SourceEdit}
    (h : m.rewrite parameters = .ok edit) : edit.replacement = m.replacement := by
  have hdefault : m.text .default = m.defaultValue := rfl
  rw [(rewrite_replacement h).2.2, PriorityMuxMatch.replacement, PriorityMuxMatch.decode,
    replacementLines_eq m.arms_text hdefault]

/-- The replacement has the tokens of the source at its places exactly if no escaped name ends a
condition or value and no token of a target reaches into the next one. -/
theorem replacement_faithful_iff {parameters : PriorityMuxParameters} {edit : SourceEdit}
    (hlawful : classes.Lawful)
    (hhash : ∀ context target branches default,
      isHashRef (hashes.canonical context target branches default))
    (hmatch : match_ classes context = .ok m) (hrewrite : m.rewrite parameters = .ok edit) :
    (∃ tokens arms last, IsReading classes m context.sourceText tokens arms last) ∧
    ∀ tokens arms last, IsReading classes m context.sourceText tokens arms last →
      edit.replacement.toList = textOf (m.template context.sourceText arms last) ∧
      (Faithful classes (m.template context.sourceText arms last) ↔
        (∀ arm ∈ arms, ArmKept classes context.sourceText arm) ∧
          AssignKept classes context.sourceText last) := by
  refine ⟨match_reading hmatch, fun tokens arms last hreading => ⟨?_, ?_⟩⟩
  · rw [rewrite_eq_replacement hrewrite, textOf_template hreading.arm_texts.length_eq]
  · exact template_faithful_iff hlawful (m.matchHash_eq ▸ hhash _ _ _ _) hreading

theorem sampleHashes_canonical (context : PriorityMuxContext) (target : String)
    (branches : List PriorityBranch) (default : String) :
    isHashRef (sampleHashes.canonical context target branches default) := by
  change isHashRef "sha256:4ee795bce4b933c9059decfbb7da70f0afa57f777a8a1d28a2fc42fe1866bc6f"
  decide +kernel

theorem replacement_faithful_iff_sample :
    ∃ tokens arms last, IsReading .ascii sampleMatch sampleText tokens arms last :=
  (replacement_faithful_iff CharClasses.lawful_ascii sampleHashes_canonical sampleMatch_eq
    sampleEdit_eq).1

/-- An escaped name ends a condition. -/
def escapedText : String := "if (\\a ) y = b; else if (c) y = d; else y = e;"

theorem escapedRange_ok : 1 ≤ 3 ∧ 1 ≤ 5 ∧ 5 < 51 := by decide

theorem escapedText_ok : "rtl/mux.sv" ≠ "" ∧ escapedText ≠ "" ∧ "top.u_mux" ≠ "" ∧
    isEntityId "clk_core" := by
  decide +kernel

def escapedContext : PriorityMuxContext where
  toRewriteContext := .ofSlice 3 5 51 "rtl/mux.sv" escapedText "top.u_mux" "clk_core"
    escapedRange_ok escapedText_ok

theorem escaped_conditions :
    ((match_ .ascii escapedContext : Except _ (PriorityMuxMatch sampleHashes)).bind fun m =>
      (m.rewrite {}).map fun _ => m.branches.map PriorityBranch.condition) = .ok ["\\a", "c"] := by
  decide +kernel

/-- In `((\a) === 1'b1);` the name reaches to the next white space. -/
theorem escaped_condition_swallows :
    ¬ ∀ (hashes : Hashes) (classes : CharClasses) (context : PriorityMuxContext)
      (m : PriorityMuxMatch hashes) (parameters : PriorityMuxParameters) (edit : SourceEdit),
      classes.Lawful →
      (∀ context target branches default,
        isHashRef (hashes.canonical context target branches default)) →
      match_ classes context = .ok m → m.rewrite parameters = .ok edit →
      ∀ tokens arms last, IsReading classes m context.sourceText tokens arms last →
        Faithful classes (m.template context.sourceText arms last) := by
  intro h
  obtain ⟨m, hmatch, hmap⟩ := bind_eq_ok.mp escaped_conditions
  obtain ⟨edit, hrewrite, hconditions⟩ := map_eq_ok.mp hmap
  obtain ⟨tokens, arms, last, hreading⟩ := match_reading hmatch
  have hfaithful := h _ .ascii _ m {} edit CharClasses.lawful_ascii sampleHashes_canonical hmatch
    hrewrite tokens arms last hreading
  have hhash : isHashRef m.matchHash := m.matchHash_eq ▸ sampleHashes_canonical _ _ _ _
  rw [template_faithful_iff CharClasses.lawful_ascii hhash hreading] at hfaithful
  -- the first arm
  obtain ⟨branch, branches, hbranches, hbranch, -⟩ := List.map_eq_cons_iff.mp hconditions
  have harms := (hreading.printed CharClasses.lawful_ascii).1
  rw [hbranches] at harms
  obtain ⟨arm, rest, hprinted, -, rfl⟩ := List.forall₂_cons_right_iff.mp harms
  have hkept := (hfaithful.1 arm List.mem_cons_self).1
  rw [← hprinted.condition_eq, hbranch] at hkept
  exact hkept (by unfold EndsEscaped; decide +kernel)

end NovaRtl.PriorityMux
