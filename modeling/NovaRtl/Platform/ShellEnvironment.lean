import NovaRtl.Platform.Activation

/-!
# The script and the environment agree

A shell that runs the script line by line gives each variable what direct execution gives it, as
long as no value has a quote or a NUL and what the script reads of inherited values is not taken
apart.
-/

namespace NovaRtl.Activation

open Shell

variable {canonicalEnvironment : Dict (List String)} {operations : Dict Operation}
  {literalEnvironment : Dict String} {declares : Bool} {name : String}

/-! ## Words -/

def QuoteFree (value : String) : Prop := ∀ c ∈ value.toList, c ≠ '\'' ∧ c ≠ '\x00'

theorem toList_quote {value : String} (h : QuoteFree value) :
    (quote value).toList = '\'' :: (value.toList ++ ['\'']) := by
  have hsame : value.toList.flatMap (fun c =>
      if c = '\'' then ['\'', '\\', '\x22', '\'', '\\', '\x22', '\''] else [c]) = value.toList := by
    generalize hchars : value.toList = chars
    have hfree : ∀ c ∈ chars, c ≠ '\'' := fun c hc => (h c (hchars ▸ hc)).1
    clear hchars
    induction chars with
    | nil => rfl
    | cons c rest ih =>
      obtain ⟨hc, hrest⟩ := List.forall_mem_cons.mp hfree
      rw [List.flatMap_cons, if_neg hc, ih hrest]
      rfl
  rw [quote, hsame, String.toList_ofList]

/-- Quoted values with colons between them give the values with colons between them. -/
theorem run_quoted_values {values : List String} (hne : values ≠ [])
    (hfree : ∀ value ∈ values, QuoteFree value) {s : State} (hmode : s.mode = .plain) :
    s.run declares (":".intercalate (values.map quote)).toList =
      some (s.append (":".intercalate values).toList) := by
  induction values generalizing s with
  | nil => exact absurd rfl hne
  | cons value rest ih =>
    obtain ⟨hvalue, hrest⟩ := List.forall_mem_cons.mp hfree
    have hquoted : s.run declares (quote value).toList = some (s.append value.toList) := by
      rw [toList_quote hvalue]
      exact State.run_quoted hmode hvalue
    by_cases hend : rest = []
    · subst hend
      simpa [String.intercalate_singleton] using hquoted
    · have hquotes : rest.map quote ≠ [] := by simpa using hend
      rw [List.map_cons, String.intercalate_cons_of_ne_nil hquotes,
        String.intercalate_cons_of_ne_nil hend]
      simp only [String.toList_append]
      have hcolon : ":".toList = [':'] := rfl
      have hmode' : (s.append value.toList).mode = .plain := by simpa using hmode
      rw [hcolon, List.append_assoc, State.run_append, hquoted, Option.bind_some,
        List.singleton_append, State.run_cons, State.step_ordinary hmode' (by decide),
        Option.bind_some, ih hend hrest (by simpa using hmode), State.append_append,
        State.append_append]
      simp

theorem isAlpha_eq (c : Char) : c.isAlpha = (c.isUpper || c.isLower) := rfl

theorem isName_of_isVariableName (h : isVariableName name) : isName name.toList := by
  unfold isVariableName at h
  split at h
  · cases h
  next c rest hchars =>
    simp only [Bool.and_eq_true, Bool.or_eq_true, List.all_eq_true, decide_eq_true_eq] at h
    obtain ⟨⟨hc, hrest⟩, -⟩ := h
    rw [hchars]
    simp only [isName, isNameStart, isNameChar, Char.isAlphanum, isAlpha_eq, Bool.and_eq_true,
      Bool.or_eq_true, List.all_eq_true, decide_eq_true_eq]
    refine ⟨hc.imp_left .inl, fun d hd => ?_⟩
    have := hrest d hd
    tauto

/-! ## Lines -/

theorem values_ne_nil {entry : CanonicalEnvironmentEntry} (h : entry.validate = .ok ()) :
    entry.values ≠ [] := by
  simp only [CanonicalEnvironmentEntry.validate, bind_eq_ok,
    CanonicalEnvironmentEntry.operationValueIsUnambiguous] at h
  obtain ⟨-, -, -, -, hvalue⟩ := h
  unfold CanonicalEnvironmentEntry.values
  split at hvalue
  next hliteral =>
    simp only [bind_eq_ok, require_eq_ok, exists_const] at hvalue
    rw [if_pos hliteral]
    intro hnone
    rw [Option.toList_eq_nil_iff] at hnone
    simp [hnone] at hvalue
  next hpath =>
    simp only [bind_eq_ok, require_eq_ok, exists_const] at hvalue
    rw [if_neg hpath]
    exact hvalue.1

/-- What direct execution assigns. -/
theorem assigned_eq {environment : Environment} {operation : Operation}
    (h : (entryOf canonicalEnvironment literalEnvironment name operation).validate = .ok ()) :
    let joined := ":".intercalate
      (entryOf canonicalEnvironment literalEnvironment name operation).values
    assigned canonicalEnvironment literalEnvironment environment name operation =
      .ok (if operation = .prependPath ∧ (environment name).getD "" ≠ "" then
        joined ++ ":" ++ (environment name).getD "" else joined) := by
  have hvalues := values_ne_nil h
  cases operation with
  | setLiteral =>
    simp only [CanonicalEnvironmentEntry.values, entryOf, if_true] at hvalues ⊢
    cases hliteral : literalEnvironment.lookup name with
    | none => simp [hliteral] at hvalues
    | some value => simp [assigned, getItem, hliteral]
  | set =>
    simp only [CanonicalEnvironmentEntry.values, entryOf, reduceCtorEq, if_false] at hvalues ⊢
    cases hpaths : canonicalEnvironment.lookup name with
    | none => simp [hpaths] at hvalues
    | some paths => simp [assigned, getItem, hpaths, bind, Except.bind, pure, Except.pure]
  | prependPath =>
    simp only [CanonicalEnvironmentEntry.values, entryOf, reduceCtorEq, if_false] at hvalues ⊢
    cases hpaths : canonicalEnvironment.lookup name with
    | none => simp [hpaths] at hvalues
    | some paths => simp [assigned, getItem, hpaths, bind, Except.bind, pure, Except.pure]

/-- The word after the name in a line. -/
def renderedWord (name : String) (entry : CanonicalEnvironmentEntry) : List Char :=
  (":".intercalate (entry.values.map quote)).toList ++
    if entry.operation = .prependPath then
      '$' :: '\x7b' :: (name.toList ++ ':' :: '+' :: ':' :: '$' :: (name.toList ++ ['\x7d']))
    else []

theorem toList_renderLine (entry : CanonicalEnvironmentEntry) :
    (renderLine name entry).toList ++ ['\n'] =
      "export ".toList ++ (name.toList ++ '=' :: (renderedWord name entry ++ ['\n'])) := by
  unfold renderLine renderedWord
  cases entry.operation <;> simp

/-- The value that the word has. -/
def lineValue (environment : Environment) (name : String) (entry : CanonicalEnvironmentEntry) :
    String :=
  let joined := ":".intercalate entry.values
  if entry.operation = .prependPath ∧ (environment name).getD "" ≠ "" then
    joined ++ ":" ++ (environment name).getD ""
  else joined

theorem run_renderedWord {t : State} {entry : CanonicalEnvironmentEntry}
    (hmode : t.mode = .plain) (hframes : t.frames = []) (hname : isName name.toList)
    (hvalues : entry.values ≠ []) (hfree : ∀ value ∈ entry.values, QuoteFree value)
    (hintact : entry.operation = .prependPath → declares ∨ t.intact (t.value name.toList)) :
    t.run declares (renderedWord name entry) =
      some (t.append (lineValue t.environment name entry).toList) := by
  rw [renderedWord, State.run_append, run_quoted_values hvalues hfree hmode, Option.bind_some]
  by_cases hprepend : entry.operation = .prependPath
  · let u := t.append (":".intercalate entry.values).toList
    have hvalue : u.value name.toList = t.value name.toList := by
      simp only [u, State.value, State.append_environment]
    have hintact' : declares ∨ u.intact (u.value name.toList) := by
      rw [hvalue]
      simpa only [u, State.intact, State.append_ifs] using hintact hprepend
    have hread : t.value name.toList = ((t.environment name).getD "").toList := by
      rw [State.value, String.ofList_toList]
    rw [if_pos hprepend, State.run_alternative (by simpa [u] using hmode)
      (by simpa [u] using hframes) hname hintact', hvalue, hread]
    simp only [u, lineValue, hprepend, true_and]
    by_cases hempty : (t.environment name).getD "" = ""
    · rw [if_pos (by simp [hempty]), if_neg (by simp [hempty])]
    · have hchars : ((t.environment name).getD "").toList ≠ [] := by simpa using hempty
      rw [if_neg hchars, if_pos hempty, State.append_append]
      simp
  · rw [if_neg hprepend, lineValue, if_neg (by simp [hprepend])]
    rfl

/-- One line of the script has the effect of the assignment. -/
theorem run_line {s : State} {operation : Operation} (hready : s.Ready)
    (hname : isVariableName name)
    (hvalid : (entryOf canonicalEnvironment literalEnvironment name operation).validate = .ok ())
    (hfree : ∀ value ∈ (entryOf canonicalEnvironment literalEnvironment name operation).values,
      QuoteFree value)
    (hintact : operation = .prependPath → declares ∨ s.intact (s.value name.toList)) :
    ∃ value, assigned canonicalEnvironment literalEnvironment s.environment name operation =
        .ok value ∧
      s.run declares ((renderLine name
        (entryOf canonicalEnvironment literalEnvironment name operation)).toList ++ ['\n']) =
        some {s with
          environment := Function.update s.environment name (some value)
          ifs := if name = "IFS" then value.toList else s.ifs} := by
  refine ⟨_, assigned_eq hvalid, ?_⟩
  have hname' := isName_of_isVariableName hname
  let entry := entryOf canonicalEnvironment literalEnvironment name operation
  have hword (t : State) (hmode : t.mode = .plain) (hframes : t.frames = [])
      (henvironment : t.environment = s.environment) (hifs : t.ifs = s.ifs) :
      t.run declares (renderedWord name entry) =
        some (t.append (lineValue s.environment name entry).toList) := by
    rw [← henvironment]
    refine run_renderedWord hmode hframes hname' (values_ne_nil hvalid) hfree fun hprepend => ?_
    simpa only [State.intact, State.value, henvironment, hifs] using hintact hprepend
  rw [toList_renderLine, State.run_export hready hname' hword]
  have hifs : name.toList = ['I', 'F', 'S'] ↔ name = "IFS" := by
    rw [← String.toList_inj]
    rfl
  simp only [hifs, String.ofList_toList]
  rfl

/-! ## Scripts -/

/-- What the contracts admit: the values of each variable make an entry. -/
structure Admitted (canonicalEnvironment : Dict (List String)) (operations : Dict Operation)
    (literalEnvironment : Dict String) : Prop where
  matching : Matching canonicalEnvironment operations literalEnvironment
  nodup : (keys operations).Nodup
  names : ∀ item ∈ operations, isVariableName item.1
  entries : ∀ item ∈ operations,
    (entryOf canonicalEnvironment literalEnvironment item.1 item.2).validate = .ok ()

/-- No character is a separator or part of a pattern. -/
def Unbroken (value : String) : Prop :=
  ∀ c ∈ value.toList, c ∉ [' ', '\t', '\n'] ∧ c ∉ ['*', '?', '[']

/-- The shell knows `export` as a declaration utility, or what the lines read of the inherited
values stays one word. -/
def Unsplit (declares : Bool) (operations : Dict Operation) (inherited : Environment) : Prop :=
  declares ∨ "IFS" ∉ keys operations ∧ ∀ item ∈ operations, item.2 = .prependPath →
    Unbroken ((inherited item.1).getD "")

def scriptOf (canonicalEnvironment : Dict (List String)) (literalEnvironment : Dict String)
    (operations : Dict Operation) : List Char :=
  operations.flatMap fun item => (renderLine item.1
    (entryOf canonicalEnvironment literalEnvironment item.1 item.2)).toList ++ ['\n']

/-- The step of the loop of direct execution. -/
def assignItem (canonicalEnvironment : Dict (List String)) (literalEnvironment : Dict String)
    (environment : Environment) (item : String × Operation) : Except Failure Environment := do
  let value ← assigned canonicalEnvironment literalEnvironment environment item.1 item.2
  return Function.update environment item.1 (some value)

theorem run_lines {items : Dict Operation} {s : State} (hready : s.Ready)
    (hnodup : (keys items).Nodup) (hnames : ∀ item ∈ items, isVariableName item.1)
    (hentries : ∀ item ∈ items,
      (entryOf canonicalEnvironment literalEnvironment item.1 item.2).validate = .ok ())
    (hfree : ∀ item ∈ items, ∀ value ∈
      (entryOf canonicalEnvironment literalEnvironment item.1 item.2).values, QuoteFree value)
    (hifs : s.ifs = [' ', '\t', '\n'] ∨ declares)
    (hunsplit : Unsplit declares items s.environment) :
    ∃ t : State, t.Ready ∧
      items.foldlM (assignItem canonicalEnvironment literalEnvironment) s.environment =
        .ok t.environment ∧
      s.run declares (scriptOf canonicalEnvironment literalEnvironment items) = some t := by
  induction items generalizing s with
  | nil => exact ⟨s, hready, rfl, rfl⟩
  | cons item rest ih =>
    obtain ⟨name, operation⟩ := item
    simp only [List.forall_mem_cons] at hnames hentries hfree
    obtain ⟨hname, hnodup⟩ := List.nodup_cons.mp hnodup
    have hintact (hprepend : operation = .prependPath) :
        declares ∨ s.intact (s.value name.toList) := by
      obtain hdeclares | ⟨-, hunbroken⟩ := hunsplit
      · exact .inl hdeclares
      obtain hdefault | hdeclares := hifs
      · have hvalue := hunbroken _ List.mem_cons_self hprepend
        refine .inr ?_
        rw [State.intact, List.all_eq_true, State.value, String.ofList_toList, hdefault]
        exact fun c hc => decide_eq_true (hvalue c hc)
      · exact .inl hdeclares
    obtain ⟨value, hassigned, hline⟩ := run_line hready hnames.1 hentries.1 hfree.1 hintact
    let u : State := {s with
      environment := Function.update s.environment name (some value)
      ifs := if name = "IFS" then value.toList else s.ifs}
    have hother {item : String × Operation} (hitem : item ∈ rest) :
        u.environment item.1 = s.environment item.1 := by
      refine Function.update_of_ne (fun hsame => hname ?_) ..
      rw [← hsame]
      exact List.mem_map.mpr ⟨item, hitem, rfl⟩
    have hlater : (u.ifs = [' ', '\t', '\n'] ∨ declares) ∧ Unsplit declares rest u.environment := by
      obtain hdeclares | ⟨hIFS, hunbroken⟩ := hunsplit
      · exact ⟨.inr hdeclares, .inl hdeclares⟩
      have hne : name ≠ "IFS" := fun h => hIFS (h ▸ List.mem_cons_self)
      refine ⟨by simpa only [u, if_neg hne] using hifs,
        .inr ⟨fun hmem => hIFS (List.mem_cons_of_mem _ hmem), fun item hitem hprepend => ?_⟩⟩
      rw [hother hitem]
      exact hunbroken item (List.mem_cons_of_mem _ hitem) hprepend
    obtain ⟨t, ht, hloop, hrun⟩ := ih (s := u) ⟨hready.fields, hready.field, hready.frames,
      hready.mode⟩ hnodup hnames.2 hentries.2 hfree.2 hlater.1 hlater.2
    refine ⟨t, ht, ?_, ?_⟩
    · simp only [List.foldlM_cons, assignItem, hassigned]
      exact hloop
    · rw [scriptOf, List.flatMap_cons, State.run_append, hline]
      exact hrun

theorem toList_joined_lines (lines : List String) :
    ("\n".intercalate lines ++ if lines = [] then "" else "\n").toList =
      lines.flatMap fun line => line.toList ++ ['\n'] := by
  induction lines with
  | nil => rfl
  | cons line rest ih =>
    by_cases hrest : rest = []
    · subst hrest
      simp [String.intercalate_singleton]
    · rw [if_neg hrest] at ih
      rw [String.intercalate_cons_of_ne_nil hrest, List.flatMap_cons, ← ih,
        if_neg (List.cons_ne_nil _ _)]
      simp

/-- The lines of the script, each with its end. -/
theorem renderShellEnvironment_eq
    (h : Admitted canonicalEnvironment operations literalEnvironment) :
    renderShellEnvironment canonicalEnvironment operations literalEnvironment =
      .ok (String.ofList (scriptOf canonicalEnvironment literalEnvironment operations)) := by
  let line (item : String × Operation) := renderLine item.1
    (entryOf canonicalEnvironment literalEnvironment item.1 item.2)
  simp only [renderShellEnvironment, bind_eq_ok, require_eq_ok, exists_const]
  refine ⟨h.matching, operations.map line, mapM_eq_ok.mpr ?_, ?_⟩
  · rw [List.forall₂_map_right_iff, List.forall₂_same]
    intro item hitem
    simp only [bind_eq_ok, require_eq_ok, exists_const, h.entries item hitem]
    exact ⟨h.names item hitem, rfl⟩
  · refine congrArg Except.ok (String.toList_inj.mp ?_)
    rw [toList_joined_lines, String.toList_ofList, scriptOf, List.flatMap_map]

end NovaRtl.Activation
