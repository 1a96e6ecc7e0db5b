import NovaRtl.Text.Words

/-!
# Commands of a value change dump

The token grammar of a four-state value change dump in IEEE 1800: a dump is a sequence of commands,
each a list of words. A scan reads the words one by one, and tells which are part of a `$date`
command.
-/

namespace NovaRtl.Vcd

open Text

abbrev Word := List Char

def dateWord : Word := "$date".toList

def endWord : Word := "$end".toList

/-- The keywords of the other commands whose text ends at `$end`. -/
def textKeywords : List Word :=
  ["$comment".toList, "$enddefinitions".toList, "$scope".toList, "$timescale".toList,
    "$upscope".toList, "$var".toList, "$version".toList]

/-- The keywords of the commands that hold value changes. -/
def dumpKeywords : List Word :=
  ["$dumpall".toList, "$dumpoff".toList, "$dumpon".toList, "$dumpvars".toList]

def logicValues : List Char := ['0', '1', 'x', 'X', 'z', 'Z']

/-- A value of one bit and the identifier code of its variable. -/
def isScalarChange : Word → Bool
  | value :: code => logicValues.contains value && code ≠ []
  | [] => false

/-- A vector or real value; the identifier code is the next word. -/
def isVectorValue : Word → Bool
  | base :: value => value ≠ [] &&
      (['b', 'B'].contains base && value.all logicValues.contains || ['r', 'R'].contains base)
  | [] => false

def isTime : Word → Bool
  | '#' :: digits => digits ≠ [] && digits.all Char.isDigit
  | _ => false

inductive Change : List Word → Prop where
  | scalar {word : Word} (h : isScalarChange word) : Change [word]
  | vector {value : Word} (h : isVectorValue value) (code : Word) : Change [value, code]

/-- The commands besides `$date`. -/
inductive Command : List Word → Prop where
  | text {keyword : Word} {body : List Word} (hkeyword : keyword ∈ textKeywords)
      (hbody : endWord ∉ body) : Command (keyword :: (body ++ [endWord]))
  | dump {keyword : Word} {changes : List (List Word)} (hkeyword : keyword ∈ dumpKeywords)
      (hchanges : ∀ change ∈ changes, Change change) :
      Command (keyword :: (changes.flatten ++ [endWord]))
  | change {change : List Word} (h : Change change) : Command change
  | time {word : Word} (h : isTime word) : Command [word]

def Commands (words : List Word) : Prop :=
  ∃ commands : List (List Word), (∀ command ∈ commands, Command command) ∧ words = commands.flatten

/-! ## Scanning words -/

/-- What the next word of a dump is part of. -/
inductive Scan where
  | command
  | date
  | text
  /-- The identifier code after a vector value. -/
  | code
  | dump
  | dumpCode
  deriving DecidableEq

namespace Scan

def next : Scan → Word → Scan
  | command, word =>
    if word = dateWord then date
    else if textKeywords.contains word then text
    else if dumpKeywords.contains word then dump
    else if isVectorValue word then code else command
  | date, word => if word = endWord then command else date
  | text, word => if word = endWord then command else text
  | code, _ => command
  | dump, word =>
    if word = endWord then command else if isVectorValue word then dumpCode else dump
  | dumpCode, _ => dump

/-- The word is outside the `$date` sections. -/
def shows : Scan → Word → Bool
  | command, word => word ≠ dateWord
  | date, _ => false
  | _, _ => true

/-- The words that the grammar admits. -/
def Admits : Scan → Word → Prop
  | command, word => word = dateWord ∨ textKeywords.contains word ∨ dumpKeywords.contains word ∨
      isVectorValue word ∨ isScalarChange word ∨ isTime word
  | dump, word => word = endWord ∨ isVectorValue word ∨ isScalarChange word
  | _, _ => True

def run (scan : Scan) (ws : List Word) : Scan := ws.foldl next scan

/-- The words outside the `$date` sections, in their order. -/
def shown : Scan → List Word → List Word
  | _, [] => []
  | scan, word :: ws =>
    if scan.shows word then word :: shown (scan.next word) ws else shown (scan.next word) ws

def AdmitsAll : Scan → List Word → Prop
  | _, [] => True
  | scan, word :: ws => scan.Admits word ∧ AdmitsAll (scan.next word) ws

variable {scan : Scan} {word : Word} {ws ws' : List Word}

@[simp] theorem run_nil : scan.run [] = scan := rfl

@[simp] theorem run_cons : scan.run (word :: ws) = (scan.next word).run ws := rfl

@[simp] theorem run_append : scan.run (ws ++ ws') = (scan.run ws).run ws' := List.foldl_append

@[simp] theorem shown_append :
    scan.shown (ws ++ ws') = scan.shown ws ++ (scan.run ws).shown ws' := by
  induction ws generalizing scan with
  | nil => rfl
  | cons word ws ih =>
    rw [List.cons_append, shown, shown, ih, run_cons]
    split <;> rfl

@[simp] theorem admitsAll_append :
    scan.AdmitsAll (ws ++ ws') ↔ scan.AdmitsAll ws ∧ (scan.run ws).AdmitsAll ws' := by
  induction ws generalizing scan with
  | nil => exact ⟨fun h => ⟨trivial, h⟩, And.right⟩
  | cons word ws ih => rw [List.cons_append, AdmitsAll, AdmitsAll, ih, run_cons, and_assoc]

end Scan

/-! ## Commands are scanned -/

section Scanned

open Scan

variable {word value : Word} {ws : List Word}

theorem head_keyword : ∀ keyword ∈ dateWord :: endWord :: (textKeywords ++ dumpKeywords),
    keyword.head? = some '$' := by decide

/-- A word that does not start with a dollar sign is no keyword. -/
theorem not_keyword (h : word.head? ≠ some '$') :
    word ≠ dateWord ∧ word ≠ endWord ∧ word ∉ textKeywords ∧ word ∉ dumpKeywords := by
  have hnot : word ∉ dateWord :: endWord :: (textKeywords ++ dumpKeywords) := fun hmem =>
    h (head_keyword word hmem)
  simpa [not_or] using hnot

theorem isScalarChange_head (h : isScalarChange word) : word.head? ≠ some '$' := by
  cases word with
  | nil => cases h
  | cons value code =>
    rintro heq
    obtain rfl : value = '$' := Option.some.inj heq
    simp [isScalarChange, logicValues] at h

theorem isVectorValue_head (h : isVectorValue word) : word.head? ≠ some '$' := by
  cases word with
  | nil => cases h
  | cons base value =>
    rintro heq
    obtain rfl : base = '$' := Option.some.inj heq
    simp [isVectorValue] at h

theorem isTime_head (h : isTime word) : word.head? = some '#' := by
  unfold isTime at h
  split at h
  · rfl
  · cases h

theorem not_isVectorValue_of_isScalarChange (h : isScalarChange word) :
    isVectorValue word = false := by
  cases word with
  | nil => cases h
  | cons value code =>
    simp only [isScalarChange, logicValues, Bool.and_eq_true, List.contains_eq_mem,
      decide_eq_true_eq, List.mem_cons, List.not_mem_nil, or_false] at h
    obtain ⟨rfl | rfl | rfl | rfl | rfl | rfl, -⟩ := h <;> simp [isVectorValue]

theorem not_isVectorValue_of_isTime (h : isTime word) : isVectorValue word = false := by
  unfold isTime at h
  split at h
  · simp [isVectorValue]
  · cases h

/-- A word that starts no command of several words. -/
theorem next_command (hhead : word.head? ≠ some '$') (hvector : isVectorValue word = false) :
    Scan.command.next word = .command := by
  obtain ⟨hdate, -, htext, hdump⟩ := not_keyword hhead
  simp [next, hdate, htext, hdump, hvector]

/-- Between commands and in a dump a value change is scanned to its end. -/
theorem Change.scanned {change : List Word} (h : Change change) {scan : Scan}
    (hscan : scan = .command ∨ scan = .dump) :
    scan.AdmitsAll change ∧ scan.run change = scan ∧ scan.shown change = change := by
  cases h with
  | scalar h =>
    have hhead := isScalarChange_head h
    have hvector := not_isVectorValue_of_isScalarChange h
    obtain ⟨hdate, hend, -, -⟩ := not_keyword hhead
    rcases hscan with rfl | rfl
    · simp [AdmitsAll, Admits, h, shown, shows, hdate, next_command hhead hvector]
    · simp [AdmitsAll, Admits, h, shown, shows, next, hend, hvector]
  | vector h code =>
    obtain ⟨hdate, hend, htext, hdump⟩ := not_keyword (isVectorValue_head h)
    rcases hscan with rfl | rfl
    · simp [AdmitsAll, Admits, h, shown, shows, next, hdate, htext, hdump]
    · simp [AdmitsAll, Admits, h, shown, shows, next, hend]

theorem scanned_flatten {scan : Scan} {parts : List (List Word)}
    (h : ∀ part ∈ parts, scan.AdmitsAll part ∧ scan.run part = scan ∧ scan.shown part = part) :
    scan.AdmitsAll parts.flatten ∧ scan.run parts.flatten = scan ∧
      scan.shown parts.flatten = parts.flatten := by
  induction parts with
  | nil => exact ⟨trivial, rfl, rfl⟩
  | cons part parts ih =>
    obtain ⟨⟨hadmits, hrun, hshown⟩, hparts⟩ := List.forall_mem_cons.mp h
    obtain ⟨hadmits', hrun', hshown'⟩ := ih hparts
    rw [List.flatten_cons, admitsAll_append, run_append, shown_append, hrun, hshown, hshown']
    exact ⟨⟨hadmits, hadmits'⟩, hrun', rfl⟩

theorem scanned_body {body : List Word} (h : endWord ∉ body) :
    Scan.text.AdmitsAll body ∧ Scan.text.run body = .text ∧ Scan.text.shown body = body := by
  induction body with
  | nil => exact ⟨trivial, rfl, rfl⟩
  | cons word body ih =>
    obtain ⟨hword, hbody⟩ := not_or.mp (mt List.mem_cons.mpr h)
    obtain ⟨hadmits, hrun, hshown⟩ := ih hbody
    have hnext : Scan.text.next word = .text := if_neg (Ne.symm hword)
    rw [AdmitsAll, run_cons, shown, hnext]
    exact ⟨⟨trivial, hadmits⟩, hrun, by simp [shows, hshown]⟩

/-- The commands are scanned to their end, and all their words are shown. -/
theorem Command.scanned {command : List Word} (h : Command command) :
    Scan.command.AdmitsAll command ∧ Scan.command.run command = .command ∧
      Scan.command.shown command = command := by
  cases h with
  | @text keyword body hkeyword hbody =>
    obtain ⟨hadmits, hrun, hshown⟩ := scanned_body hbody
    have hdate : keyword ≠ dateWord := by
      rintro rfl
      revert hkeyword
      decide
    simp [AdmitsAll, Admits, hkeyword, hadmits, hrun, hshown, shown, shows, hdate, next]
  | @dump keyword changes hkeyword hchanges =>
    have hall : ∀ change ∈ changes, Scan.dump.AdmitsAll change ∧ Scan.dump.run change = .dump ∧
        Scan.dump.shown change = change := fun change hchange =>
      (hchanges change hchange).scanned (.inr rfl)
    obtain ⟨hadmits, hrun, hshown⟩ := scanned_flatten hall
    have hdate : keyword ≠ dateWord ∧ keyword ∉ textKeywords := by
      revert keyword
      decide
    simp [AdmitsAll, Admits, hkeyword, hadmits, hrun, hshown, shown, shows, hdate, next]
  | change h => exact h.scanned (.inl rfl)
  | time h =>
    have hhead : _ ≠ some '$' := fun heq => absurd ((isTime_head h).symm.trans heq) (by decide)
    have hnext := next_command hhead (not_isVectorValue_of_isTime h)
    obtain ⟨hdate, -⟩ := not_keyword hhead
    simp [AdmitsAll, Admits, h, shown, shows, hdate, hnext]

theorem Commands.scanned (h : Commands ws) :
    Scan.command.AdmitsAll ws ∧ Scan.command.run ws = .command ∧ Scan.command.shown ws = ws := by
  obtain ⟨commands, hcommands, rfl⟩ := h
  exact scanned_flatten fun command hcommand => (hcommands command hcommand).scanned

theorem scanned_date {inside : List Word} (h : endWord ∉ inside) :
    Scan.date.AdmitsAll inside ∧ Scan.date.run inside = .date ∧ Scan.date.shown inside = [] := by
  induction inside with
  | nil => exact ⟨trivial, rfl, rfl⟩
  | cons word inside ih =>
    obtain ⟨hword, hinside⟩ := not_or.mp (mt List.mem_cons.mpr h)
    obtain ⟨hadmits, hrun, hshown⟩ := ih hinside
    have hnext : Scan.date.next word = .date := if_neg (Ne.symm hword)
    rw [AdmitsAll, run_cons, shown, hnext]
    exact ⟨⟨trivial, hadmits⟩, hrun, by simp [shows, hshown]⟩

end Scanned

end NovaRtl.Vcd
