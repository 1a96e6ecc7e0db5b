import Mathlib.Data.List.Basic
import Mathlib.Logic.Function.Basic

/-!
# Export commands of a POSIX shell

Scripts of `export NAME=word` commands, read one character at a time: words are put together from
plain characters, single quotes, backslashes and the expansions `$NAME`, `${NAME}` and
`${NAME:+word}`. In a shell that knows `export` as a declaration utility the results of expansions
stay as they are; in another one they are taken apart at the characters of `IFS` and as patterns of
paths. Whatever is outside this fragment, and a script that ends inside a quote or an expansion, is
not evaluated. All variables are ordinary ones.
-/

namespace Shell

abbrev Environment := String → Option String

/-- What the next character belongs to. -/
inductive Mode where
  | plain
  | quoted
  | escaped
  | dollar
  | name (read : List Char)
  | braced (read : List Char)
  | colon (name : List Char)
  deriving DecidableEq

structure State where
  environment : Environment
  ifs : List Char := [' ', '\t', '\n']
  /-- The words of the command so far. -/
  fields : List (List Char) := []
  field : Option (List Char) := none
  /-- For each open `${NAME:+`, whether its word counts. -/
  frames : List Bool := []
  mode : Mode := .plain

def isNameStart (c : Char) : Bool := c.isAlpha || c = '_'

def isNameChar (c : Char) : Bool := c.isAlphanum || c = '_'

def isName : List Char → Bool
  | [] => false
  | c :: rest => isNameStart c && rest.all isNameChar

/-- Characters that are outside the fragment when they are not quoted. -/
def special : List Char :=
  ['\x22', '\x60', ';', '&', '|', '<', '>', '(', ')', '*', '?', '[', '#', '~', '\x00']

namespace State

def active (s : State) : Bool := s.frames.all id

def append (s : State) (text : List Char) : State :=
  if s.active then {s with field := some (s.field.getD [] ++ text)} else s

def endField (s : State) : State :=
  match s.field with
  | none => s
  | some field => {s with fields := s.fields ++ [field], field := none}

def value (s : State) (name : List Char) : List Char :=
  ((s.environment (String.ofList name)).getD "").toList

/-- No character of the value is taken as a separator or as part of a pattern. -/
def intact (s : State) (value : List Char) : Bool :=
  value.all fun c => c ∉ s.ifs ∧ c ∉ ['*', '?', '[']

/-- Assign what an operand of `export` says. -/
def assign (s : State) (field : List Char) : Option State :=
  let name := field.takeWhile (· ≠ '=')
  match field.dropWhile (· ≠ '=') with
  | _ :: value =>
    if isName name then
      some {s with
        environment := Function.update s.environment (String.ofList name)
          (some (String.ofList value))
        ifs := if name = ['I', 'F', 'S'] then value else s.ifs}
    else none
  | [] => none

def execute (s : State) : Option State :=
  match s.endField.fields with
  | [] => some s.endField
  | command :: operands =>
    if command = ['e', 'x', 'p', 'o', 'r', 't'] then
      operands.foldlM assign {s.endField with fields := []}
    else none

variable (declares : Bool)

def expand (s : State) (name : List Char) : Option State :=
  if ¬ s.active ∨ s.value name = [] then some s
  else if declares ∨ s.intact (s.value name) then some (s.append (s.value name))
  else none

def plainStep (s : State) (c : Char) : Option State :=
  if c = '\'' then some {s.append [] with mode := .quoted}
  else if c = '\\' then some {s with mode := .escaped}
  else if c = '$' then some {s with mode := .dollar}
  else if c = '\x7d' ∧ s.frames ≠ [] then some {s with frames := s.frames.tail}
  else if c = '\n' then if s.frames = [] then s.execute else none
  else if c = ' ' ∨ c = '\t' then if s.frames = [] then some s.endField else none
  else if c ∈ special then none
  else some (s.append [c])

def step (s : State) (c : Char) : Option State :=
  match s.mode with
  | .plain => s.plainStep c
  | .quoted =>
    if c = '\'' then some {s with mode := .plain}
    else if c = '\x00' then none
    else some (s.append [c])
  | .escaped =>
    if c = '\n' then some {s with mode := .plain}
    else if c = '\x00' then none
    else some {s.append [c] with mode := .plain}
  | .dollar =>
    if c = '\x7b' then some {s with mode := .braced []}
    else if isNameStart c then some {s with mode := .name [c]}
    else none
  | .name read =>
    if isNameChar c then some {s with mode := .name (read ++ [c])}
    else (s.expand declares read).bind fun s => {s with mode := .plain}.plainStep c
  | .braced read =>
    if isNameChar c then some {s with mode := .braced (read ++ [c])}
    else if c = '\x7d' ∧ isName read then
      (s.expand declares read).map fun s => {s with mode := .plain}
    else if c = ':' ∧ isName read then some {s with mode := .colon read}
    else none
  | .colon name =>
    if c = '+' then
      some {s with frames := (s.value name ≠ []) :: s.frames, mode := .plain}
    else none

def run (s : State) (text : List Char) : Option State := text.foldlM (step declares) s

/-- The last command may end without a newline. -/
def finish (s : State) : Option State :=
  if s.frames = [] then
    match s.mode with
    | .plain => s.execute
    | .name read => (s.expand declares read).bind execute
    | _ => none
  else none

end State

/-- The environment that the script leaves. -/
def evaluate (declares : Bool) (environment : Environment) (script : String) :
    Option Environment :=
  (({environment} : State).run declares script.toList).bind fun s =>
    (s.finish declares).map State.environment

/-! ## Reading words -/

namespace State

variable {declares : Bool} {s t : State} {text name : List Char}

theorem run_append (a b : List Char) :
    s.run declares (a ++ b) = (s.run declares a).bind fun t => t.run declares b :=
  List.foldlM_append

theorem run_cons (c : Char) (text : List Char) :
    s.run declares (c :: text) = (s.step declares c).bind fun t => t.run declares text :=
  List.foldlM_cons

theorem append_append (a b : List Char) : (s.append a).append b = s.append (a ++ b) := by
  unfold append
  by_cases hactive : s.active
  · have hstill : ({s with field := some (s.field.getD [] ++ a)} : State).active = true := hactive
    simp [hactive, hstill]
  · simp [hactive]

@[simp] theorem append_mode (text : List Char) : (s.append text).mode = s.mode := by
  unfold append
  split <;> rfl

@[simp] theorem append_frames (text : List Char) : (s.append text).frames = s.frames := by
  unfold append
  split <;> rfl

@[simp] theorem append_environment (text : List Char) :
    (s.append text).environment = s.environment := by
  unfold append
  split <;> rfl

@[simp] theorem append_ifs (text : List Char) : (s.append text).ifs = s.ifs := by
  unfold append
  split <;> rfl

theorem append_with_mode (text : List Char) (mode : Mode) :
    ({s with mode := mode} : State).append text = {s.append text with mode := mode} := by
  unfold append active
  split <;> rfl

/-- What stands between single quotes is taken as it is. -/
theorem run_in_quotes (hmode : s.mode = .quoted) (htext : ∀ c ∈ text, c ≠ '\'' ∧ c ≠ '\x00')
    (hfield : s.append [] = s) : s.run declares text = some (s.append text) := by
  induction text generalizing s with
  | nil => exact congrArg some hfield.symm
  | cons c text ih =>
    obtain ⟨⟨hquote, hnul⟩, hrest⟩ := List.forall_mem_cons.mp htext
    have hstep : s.step declares c = some (s.append [c]) := by simp [step, hmode, hquote, hnul]
    have hnext := ih (s := s.append [c]) (by simpa using hmode) hrest (append_append ..)
    rw [run_cons, hstep, Option.bind_some, hnext, append_append]
    rfl

theorem eq_with_mode (h : s.mode = .plain) : ({s with mode := .plain} : State) = s := by
  rw [← h]

theorem run_quoted (hmode : s.mode = .plain) (htext : ∀ c ∈ text, c ≠ '\'' ∧ c ≠ '\x00') :
    s.run declares ('\'' :: (text ++ ['\''])) = some (s.append text) := by
  have hopen : s.step declares '\'' = some {s.append [] with mode := .quoted} := by
    simp [step, hmode, plainStep]
  have hinside : ({s.append [] with mode := .quoted} : State).run declares text =
      some {s.append text with mode := .quoted} := by
    rw [run_in_quotes rfl htext, append_with_mode, append_append, List.nil_append]
    rw [append_with_mode, append_append]
    rfl
  have hclose : ({s.append text with mode := .quoted} : State).step declares '\'' =
      some (s.append text) := by
    have hplain : (s.append text).mode = .plain := by simpa using hmode
    exact congrArg some (eq_with_mode hplain)
  rw [run_cons, hopen, Option.bind_some, run_append, hinside, Option.bind_some, run_cons, hclose]
  rfl

/-- Characters that stand for themselves. -/
def ordinary (c : Char) : Bool :=
  c ∉ ['\'', '\\', '$', '\x7d', '\n', ' ', '\t'] ++ special

theorem step_ordinary {c : Char} (hmode : s.mode = .plain) (hc : ordinary c) :
    s.step declares c = some (s.append [c]) := by
  simp only [ordinary, List.mem_append, List.mem_cons, List.not_mem_nil, or_false, not_or,
    decide_eq_true_eq] at hc
  simp [step, hmode, plainStep, hc]

theorem run_ordinary (hmode : s.mode = .plain) (htext : ∀ c ∈ text, ordinary c) (hne : text ≠ []) :
    s.run declares text = some (s.append text) := by
  induction text generalizing s with
  | nil => exact absurd rfl hne
  | cons c rest ih =>
    obtain ⟨hc, hrest⟩ := List.forall_mem_cons.mp htext
    rw [run_cons, step_ordinary hmode hc, Option.bind_some]
    by_cases hend : rest = []
    · subst hend
      rfl
    · rw [ih (by simpa using hmode) hrest hend, append_append]
      rfl

theorem ordinary_of_isNameChar {c : Char} (h : isNameChar c) : ordinary c := by
  have hother : ∀ d ∈ ['\'', '\\', '$', '\x7d', '\n', ' ', '\t'] ++ special,
      isNameChar d = false :=
    List.forall_iff_forall_mem.mp (by decide)
  refine decide_eq_true fun hmem => ?_
  rw [hother c hmem] at h
  cases h

theorem isNameChar_of_isNameStart {c : Char} (h : isNameStart c) : isNameChar c := by
  simp only [isNameStart, isNameChar, Char.isAlphanum, Bool.or_eq_true, decide_eq_true_eq] at *
  tauto

theorem isNameChar_of_isName (h : isName name) : ∀ c ∈ name, isNameChar c := by
  cases name with
  | nil => simp
  | cons c rest =>
    simp only [isName, Bool.and_eq_true, List.all_eq_true] at h
    exact List.forall_mem_cons.mpr ⟨isNameChar_of_isNameStart h.1, h.2⟩

/-! ### Expansions -/

theorem run_in_braces {read : List Char} (hmode : s.mode = .braced read)
    (htext : ∀ c ∈ text, isNameChar c) :
    s.run declares text = some {s with mode := .braced (read ++ text)} := by
  induction text generalizing s read with
  | nil =>
    rw [List.append_nil, ← hmode]
    rfl
  | cons c rest ih =>
    obtain ⟨hc, hrest⟩ := List.forall_mem_cons.mp htext
    have hstep : s.step declares c = some {s with mode := .braced (read ++ [c])} := by
      simp [step, hmode, hc]
    rw [run_cons, hstep, Option.bind_some, ih rfl hrest]
    simp

theorem run_in_name {read : List Char} (hmode : s.mode = .name read)
    (htext : ∀ c ∈ text, isNameChar c) :
    s.run declares text = some {s with mode := .name (read ++ text)} := by
  induction text generalizing s read with
  | nil =>
    rw [List.append_nil, ← hmode]
    rfl
  | cons c rest ih =>
    obtain ⟨hc, hrest⟩ := List.forall_mem_cons.mp htext
    have hstep : s.step declares c = some {s with mode := .name (read ++ [c])} := by
      simp [step, hmode, hc]
    rw [run_cons, hstep, Option.bind_some, ih rfl hrest]
    simp

theorem run_dollar_name (hmode : s.mode = .dollar) (hname : isName name) :
    s.run declares name = some {s with mode := .name name} := by
  cases name with
  | nil => cases hname
  | cons c rest =>
    have hchars := isNameChar_of_isName hname
    have hstart : isNameStart c := by
      simp only [isName, Bool.and_eq_true] at hname
      exact hname.1
    have hbrace : c ≠ '\x7b' := by
      rintro rfl
      exact absurd hstart (by decide)
    have hstep : s.step declares c = some {s with mode := .name [c]} := by
      simp [step, hmode, hbrace, hstart]
    rw [run_cons, hstep, Option.bind_some,
      run_in_name rfl (List.forall_mem_cons.mp hchars).2]
    rfl

/-- A name ends at the brace that closes the word it is in. -/
theorem step_name_close {frames : List Bool} {counts : Bool}
    (hframes : s.frames = counts :: frames) (hmode : s.mode = .name name)
    (hintact : declares ∨ s.intact (s.value name)) :
    s.step declares '\x7d' = some {(if s.active ∧ s.value name ≠ [] then s.append (s.value name)
      else s) with frames := frames, mode := .plain} := by
  have hexpand : s.expand declares name =
      some (if s.active ∧ s.value name ≠ [] then s.append (s.value name) else s) := by
    unfold expand
    by_cases hcounts : s.active ∧ s.value name ≠ []
    · rw [if_neg (by simpa using hcounts), if_pos (by simpa using hintact), if_pos hcounts]
    · rw [if_pos (by simpa [imp_iff_not_or] using hcounts), if_neg hcounts]
  have hend : isNameChar '\x7d' = false := by decide
  simp only [step, hmode, hend, hexpand, Bool.false_eq_true, if_false, Option.bind_some]
  split <;> simp [plainStep, hframes]

/-- `${NAME:+:$NAME}` adds the value after a colon where there is one. -/
theorem run_alternative (hmode : s.mode = .plain) (hframes : s.frames = []) (hname : isName name)
    (hintact : declares ∨ s.intact (s.value name)) :
    s.run declares ('$' :: '\x7b' :: (name ++ ':' :: '+' :: ':' :: '$' :: (name ++ ['\x7d']))) =
      some (if s.value name = [] then s else s.append (':' :: s.value name)) := by
  have hchars := isNameChar_of_isName hname
  let inside : State := {s with frames := [s.value name ≠ []], mode := .plain}
  have hdollar : s.step declares '$' = some {s with mode := .dollar} := by
    simp [step, hmode, plainStep]
  have hbrace : ({s with mode := .dollar} : State).step declares '\x7b' =
      some {s with mode := .braced []} := rfl
  have hcolon : ({s with mode := .braced name} : State).step declares ':' =
      some {s with mode := .colon name} := by
    simp [step, hname, isNameChar]
  have hplus : ({s with mode := .colon name} : State).step declares '+' = some inside := by
    simp [step, hframes, inside, value]
  have htext : inside.step declares ':' = some (inside.append [':']) :=
    step_ordinary rfl (by decide)
  have hagain : (inside.append [':']).step declares '$' =
      some {inside.append [':'] with mode := .dollar} := by
    simp [step, plainStep, inside]
  rw [run_cons, hdollar, Option.bind_some, run_cons, hbrace, Option.bind_some, run_append,
    run_in_braces rfl hchars, Option.bind_some, List.nil_append, run_cons, hcolon,
    Option.bind_some, run_cons, hplus, Option.bind_some, run_cons, htext, Option.bind_some,
    run_cons, hagain, Option.bind_some, run_append, run_dollar_name rfl hname, Option.bind_some,
    run_cons]
  let last : State := {inside.append [':'] with mode := .name name}
  have hvalue : last.value name = s.value name := by
    simp [last, inside, State.value]
  have hifs : last.intact = s.intact := by
    unfold intact last append
    split <;> rfl
  have hclose := step_name_close (s := last) (append_frames _) rfl
    (by rwa [hvalue, hifs] : declares ∨ last.intact (last.value name))
  rw [hclose, Option.bind_some, hvalue]
  refine congrArg some ?_
  obtain ⟨environment, ifs, fields, field, frames, mode⟩ := s
  obtain rfl : frames = [] := hframes
  obtain rfl : mode = .plain := hmode
  by_cases hempty : State.value ⟨environment, ifs, fields, field, [], .plain⟩ name = []
  · simp [last, inside, append, active, hempty]
  · simp [last, inside, append, active, hempty]

/-! ### Commands -/

/-- Between two commands. -/
structure Ready (s : State) : Prop where
  fields : s.fields = []
  field : s.field = none
  frames : s.frames = []
  mode : s.mode = .plain

theorem Ready.finish (hready : s.Ready) : s.finish declares = some s := by
  obtain ⟨environment, ifs, fields, field, frames, mode⟩ := s
  obtain ⟨rfl, rfl, rfl, rfl⟩ := hready
  rfl

theorem assign_eq {result : List Char} (hname : isName name) :
    s.assign (name ++ '=' :: result) = some {s with
      environment := Function.update s.environment (String.ofList name)
        (some (String.ofList result))
      ifs := if name = ['I', 'F', 'S'] then result else s.ifs} := by
  have hequals : ∀ c ∈ name, c ≠ '=' := by
    rintro c hc rfl
    exact absurd (isNameChar_of_isName hname _ hc) (by decide)
  have htake : (name ++ '=' :: result).takeWhile (· ≠ '=') = name := by
    rw [List.takeWhile_append_of_pos (by simpa using hequals)]
    simp
  have hdrop : (name ++ '=' :: result).dropWhile (· ≠ '=') = '=' :: result := by
    rw [List.dropWhile_append_of_pos (by simpa using hequals)]
    simp
  simp only [assign, htake, hdrop, hname, if_true]

/-- `export` assigns what a word gives to the name before it. -/
theorem run_export {word result : List Char} (hready : s.Ready) (hname : isName name)
    (hword : ∀ t : State, t.mode = .plain → t.frames = [] → t.environment = s.environment →
      t.ifs = s.ifs → t.run declares word = some (t.append result)) :
    s.run declares ("export ".toList ++ (name ++ '=' :: (word ++ ['\n']))) = some {s with
      environment := Function.update s.environment (String.ofList name)
        (some (String.ofList result))
      ifs := if name = ['I', 'F', 'S'] then result else s.ifs} := by
  obtain ⟨environment, ifs, fields, field, frames, mode⟩ := s
  obtain ⟨rfl, rfl, rfl, rfl⟩ := hready
  let operands : State := {environment, ifs, fields := ["export".toList]}
  have hcommand : run declares ({environment, ifs} : State) "export ".toList = some operands := rfl
  have hnonempty : name ≠ [] := by
    rintro rfl
    cases hname
  have hassigned : (operands.append (name ++ '=' :: result)).step declares '\n' = some {operands with
      fields := []
      environment := Function.update environment (String.ofList name)
        (some (String.ofList result))
      ifs := if name = ['I', 'F', 'S'] then result else ifs} := by
    have hfield : operands.append (name ++ '=' :: result) =
        {operands with field := some (name ++ '=' :: result)} := rfl
    rw [hfield]
    have hexecute : ({operands with field := some (name ++ '=' :: result)} : State).execute =
        [name ++ '=' :: result].foldlM assign {operands with fields := []} := rfl
    have hstep : ({operands with field := some (name ++ '=' :: result)} : State).step declares
        '\n' = ({operands with field := some (name ++ '=' :: result)} : State).execute := rfl
    rw [hstep, hexecute, List.foldlM_cons, assign_eq hname]
    rfl
  rw [run_append, hcommand, Option.bind_some, run_append,
    run_ordinary rfl (fun c hc => ordinary_of_isNameChar (isNameChar_of_isName hname c hc))
      hnonempty, Option.bind_some, run_cons, step_ordinary (by simp [operands]) (by decide),
    Option.bind_some, run_append, hword _ (by simp [operands]) (by simp [operands])
      (by simp [operands]) (by simp [operands]), Option.bind_some, append_append, append_append,
    run_cons]
  rw [List.singleton_append, hassigned]
  rfl

end State

end Shell
