import Mathlib.Data.List.Basic
import Mathlib.Data.List.Forall2

/-!
# Patterns with backtracking

The part of Python's `re` in which only character classes are repeated. `hits` lists the ways
in which a pattern matches at the beginning of a text, in the order in which a backtracking
matcher tries them: `match_` takes the first one, `fullmatch` the first one that reaches the
end. A group records the text it matched.

There is a lemma on the hits of each constructor, and `taken_append_rest` says that a hit
divides the text.
-/

namespace Text

inductive Pattern where
  | empty
  | char (p : Char → Bool)
  | seq (first second : Pattern)
  /-- Tries `first` first. -/
  | alt (first second : Pattern)
  /-- As many characters as possible. -/
  | many (p : Char → Bool)
  /-- As few characters as possible. -/
  | manyLazy (p : Char → Bool)
  | group (name : String) (inner : Pattern)
  /-- `$`: the end of the text, or of its last line. -/
  | atEnd

structure Hit where
  taken : List Char
  rest : List Char
  groups : List (String × List Char)
  deriving DecidableEq

namespace Hit

def append (first second : Hit) : Hit :=
  ⟨first.taken ++ second.taken, second.rest, first.groups ++ second.groups⟩

def named (name : String) (hit : Hit) : Hit :=
  { hit with groups := (name, hit.taken) :: hit.groups }

def cons (c : Char) (hit : Hit) : Hit := { hit with taken := c :: hit.taken }

/-- `matched.group(name)` -/
def group (hit : Hit) (name : String) : List Char := (hit.groups.lookup name).getD []

end Hit

namespace Pattern

def manyHits (p : Char → Bool) : List Char → List Hit
  | [] => [⟨[], [], []⟩]
  | c :: rest =>
    if p c then (manyHits p rest).map (Hit.cons c) ++ [⟨[], c :: rest, []⟩]
    else [⟨[], c :: rest, []⟩]

def manyLazyHits (p : Char → Bool) : List Char → List Hit
  | [] => [⟨[], [], []⟩]
  | c :: rest =>
    ⟨[], c :: rest, []⟩ :: if p c then (manyLazyHits p rest).map (Hit.cons c) else []

def hits : Pattern → List Char → List Hit
  | empty, text => [⟨[], text, []⟩]
  | char p, c :: rest => if p c then [⟨[c], rest, []⟩] else []
  | char _, [] => []
  | seq first second, text =>
    (first.hits text).flatMap fun hit => (second.hits hit.rest).map hit.append
  | alt first second, text => first.hits text ++ second.hits text
  | many p, text => manyHits p text
  | manyLazy p, text => manyLazyHits p text
  | group name inner, text => (inner.hits text).map (Hit.named name)
  | atEnd, text => if text = [] ∨ text = ['\n'] then [⟨[], text, []⟩] else []

def match_ (pattern : Pattern) (text : List Char) : Option Hit := (pattern.hits text).head?

def fullmatch (pattern : Pattern) (text : List Char) : Option Hit :=
  (pattern.hits text).find? (·.rest = [])

/-- `re.search` finds a match. -/
def found (pattern : Pattern) (text : List Char) : Bool :=
  text.tails.any fun tail => pattern.hits tail ≠ []

/-! ## Derived patterns -/

def any : Char → Bool := fun _ => true

/-- One pattern after the other. -/
def inOrder : List Pattern → Pattern
  | [] => empty
  | [pattern] => pattern
  | pattern :: rest => seq pattern (inOrder rest)

def literal (text : String) : Pattern := inOrder (text.toList.map fun c => char (· = c))

/-- `[…]+` -/
def many1 (p : Char → Bool) : Pattern := seq (char p) (many p)

/-- `(?:…)?` -/
def optional (inner : Pattern) : Pattern := alt inner empty

/-! ## Hits -/

variable {p : Char → Bool} {text : List Char} {hit : Hit} {name : String}
variable {pattern first second inner : Pattern} {patterns : List Pattern}

theorem manyHits_cons (c : Char) (rest : List Char) :
    manyHits p (c :: rest) =
      if p c then (manyHits p rest).map (Hit.cons c) ++ [⟨[], c :: rest, []⟩]
      else [⟨[], c :: rest, []⟩] := rfl

theorem manyLazyHits_cons (c : Char) (rest : List Char) :
    manyLazyHits p (c :: rest) =
      ⟨[], c :: rest, []⟩ :: if p c then (manyLazyHits p rest).map (Hit.cons c) else [] := rfl

theorem hits_char (c : Char) (rest : List Char) :
    (char p).hits (c :: rest) = if p c then [⟨[c], rest, []⟩] else [] := rfl

theorem hits_seq : (seq first second).hits text =
    (first.hits text).flatMap fun hit => (second.hits hit.rest).map hit.append := rfl

theorem hits_alt : (alt first second).hits text = first.hits text ++ second.hits text := rfl

theorem hits_many : (many p).hits text = manyHits p text := rfl

theorem hits_manyLazy : (manyLazy p).hits text = manyLazyHits p text := rfl

theorem hits_group : (group name inner).hits text = (inner.hits text).map (Hit.named name) := rfl

theorem hits_atEnd :
    atEnd.hits text = if text = [] ∨ text = ['\n'] then [⟨[], text, []⟩] else [] := rfl

theorem of_mem_many (h : hit ∈ (many p).hits text) :
    hit.groups = [] ∧ (∀ c ∈ hit.taken, p c) ∧ hit.taken ++ hit.rest = text := by
  rw [hits_many] at h
  induction text generalizing hit with
  | nil =>
    obtain rfl := List.mem_singleton.mp h
    simp
  | cons c text ih =>
    rw [manyHits_cons] at h
    split at h
    next hc =>
      rcases List.mem_append.mp h with hmore | hstop
      · obtain ⟨hit, hmem, rfl⟩ := List.mem_map.mp hmore
        obtain ⟨hgroups, htaken, happend⟩ := ih hmem
        exact ⟨hgroups, List.forall_mem_cons.mpr ⟨hc, htaken⟩, congrArg (c :: ·) happend⟩
      · obtain rfl := List.mem_singleton.mp hstop
        simp
    next =>
      obtain rfl := List.mem_singleton.mp h
      simp

theorem of_mem_manyLazy (h : hit ∈ (manyLazy p).hits text) :
    hit.groups = [] ∧ (∀ c ∈ hit.taken, p c) ∧ hit.taken ++ hit.rest = text := by
  rw [hits_manyLazy] at h
  induction text generalizing hit with
  | nil =>
    obtain rfl := List.mem_singleton.mp h
    simp
  | cons c text ih =>
    rw [manyLazyHits_cons] at h
    rcases List.mem_cons.mp h with rfl | hmore
    · simp
    · split at hmore
      next hc =>
        obtain ⟨hit, hmem, rfl⟩ := List.mem_map.mp hmore
        obtain ⟨hgroups, htaken, happend⟩ := ih hmem
        exact ⟨hgroups, List.forall_mem_cons.mpr ⟨hc, htaken⟩, congrArg (c :: ·) happend⟩
      next => exact absurd hmore List.not_mem_nil

theorem of_mem_char (h : hit ∈ (char p).hits text) :
    ∃ c, p c ∧ hit = ⟨[c], hit.rest, []⟩ ∧ text = c :: hit.rest := by
  cases text with
  | nil => cases h
  | cons c text =>
    rw [hits_char] at h
    split at h
    next hc =>
      obtain rfl := List.mem_singleton.mp h
      exact ⟨c, hc, rfl, rfl⟩
    next => exact absurd h List.not_mem_nil

theorem taken_of_mem_char {c : Char} (h : hit ∈ (char (· = c)).hits text) :
    hit.taken = [c] ∧ hit.groups = [] := by
  obtain ⟨d, hd, hhit, -⟩ := of_mem_char h
  obtain rfl := of_decide_eq_true hd
  rw [hhit]
  exact ⟨rfl, rfl⟩

theorem mem_seq :
    hit ∈ (seq first second).hits text ↔
      ∃ a ∈ first.hits text, ∃ b ∈ second.hits a.rest, hit = a.append b := by
  simp only [hits_seq, List.mem_flatMap, List.mem_map, eq_comm]

theorem mem_alt :
    hit ∈ (alt first second).hits text ↔ hit ∈ first.hits text ∨ hit ∈ second.hits text := by
  rw [hits_alt, List.mem_append]

theorem mem_group :
    hit ∈ (group name inner).hits text ↔ ∃ a ∈ inner.hits text, hit = a.named name := by
  simp only [hits_group, List.mem_map, eq_comm]

theorem of_mem_empty (h : hit ∈ empty.hits text) : hit = ⟨[], text, []⟩ := List.mem_singleton.mp h

theorem of_mem_atEnd (h : hit ∈ atEnd.hits text) :
    hit = ⟨[], text, []⟩ ∧ (text = [] ∨ text = ['\n']) := by
  rw [hits_atEnd] at h
  split at h
  next hend => exact ⟨List.mem_singleton.mp h, hend⟩
  next => exact absurd h List.not_mem_nil

/-- A hit divides the text. -/
theorem taken_append_rest (h : hit ∈ pattern.hits text) : hit.taken ++ hit.rest = text := by
  induction pattern generalizing text hit with
  | empty => rw [of_mem_empty h, List.nil_append]
  | char p =>
    obtain ⟨c, -, hhit, htext⟩ := of_mem_char h
    rw [hhit, htext, List.singleton_append]
  | seq first second ihfirst ihsecond =>
    obtain ⟨a, ha, b, hb, rfl⟩ := mem_seq.mp h
    rw [← ihfirst ha, ← ihsecond hb]
    exact List.append_assoc ..
  | alt first second ihfirst ihsecond =>
    rcases mem_alt.mp h with h | h
    · exact ihfirst h
    · exact ihsecond h
  | many p => exact (of_mem_many h).2.2
  | manyLazy p => exact (of_mem_manyLazy h).2.2
  | group name inner ih =>
    obtain ⟨a, ha, rfl⟩ := mem_group.mp h
    have hsplit : a.taken ++ a.rest = text := ih ha
    exact hsplit
  | atEnd => rw [(of_mem_atEnd h).1, List.nil_append]

/-- A pattern without groups. -/
def ungrouped : Pattern → Bool
  | empty | char _ | many _ | manyLazy _ | atEnd => true
  | seq first second | alt first second => first.ungrouped && second.ungrouped
  | group _ _ => false

theorem groups_eq_nil (hpattern : pattern.ungrouped) (h : hit ∈ pattern.hits text) :
    hit.groups = [] := by
  induction pattern generalizing text hit with
  | empty => rw [of_mem_empty h]
  | char p =>
    obtain ⟨c, -, hhit, -⟩ := of_mem_char h
    rw [hhit]
  | seq first second ihfirst ihsecond =>
    obtain ⟨hfirst, hsecond⟩ := Bool.and_eq_true_iff.mp hpattern
    obtain ⟨a, ha, b, hb, rfl⟩ := mem_seq.mp h
    exact List.append_eq_nil_iff.mpr ⟨ihfirst hfirst ha, ihsecond hsecond hb⟩
  | alt first second ihfirst ihsecond =>
    obtain ⟨hfirst, hsecond⟩ := Bool.and_eq_true_iff.mp hpattern
    rcases mem_alt.mp h with h | h
    · exact ihfirst hfirst h
    · exact ihsecond hsecond h
  | many p => exact (of_mem_many h).1
  | manyLazy p => exact (of_mem_manyLazy h).1
  | group name inner ih => cases hpattern
  | atEnd => rw [(of_mem_atEnd h).1]

/-- A pattern without `$`. -/
def endless : Pattern → Bool
  | empty | char _ | many _ | manyLazy _ => true
  | seq first second | alt first second => first.endless && second.endless
  | group _ inner => inner.endless
  | atEnd => false

theorem mem_many {taken : List Char} (h : ∀ c ∈ taken, p c) (rest : List Char) :
    ⟨taken, rest, []⟩ ∈ (many p).hits (taken ++ rest) := by
  rw [hits_many]
  induction taken with
  | nil =>
    cases rest with
    | nil => exact List.mem_singleton_self _
    | cons c rest =>
      rw [List.nil_append, manyHits_cons]
      split <;> simp
  | cons c taken ih =>
    obtain ⟨hc, htaken⟩ := List.forall_mem_cons.mp h
    rw [List.cons_append, manyHits_cons, if_pos hc]
    exact List.mem_append_left _ (List.mem_map.mpr ⟨_, ih htaken, rfl⟩)

theorem mem_manyLazy {taken : List Char} (h : ∀ c ∈ taken, p c) (rest : List Char) :
    ⟨taken, rest, []⟩ ∈ (manyLazy p).hits (taken ++ rest) := by
  rw [hits_manyLazy]
  induction taken with
  | nil =>
    cases rest with
    | nil => exact List.mem_singleton_self _
    | cons c rest => exact List.mem_cons_self
  | cons c taken ih =>
    obtain ⟨hc, htaken⟩ := List.forall_mem_cons.mp h
    rw [List.cons_append, manyLazyHits_cons, if_pos hc]
    exact List.mem_cons_of_mem _ (List.mem_map.mpr ⟨_, ih htaken, rfl⟩)

/-- A pattern without `$` matches what it took, whatever follows. -/
theorem mem_hits_of_endless (hpattern : pattern.endless) (h : hit ∈ pattern.hits text)
    (rest : List Char) : { hit with rest := rest } ∈ pattern.hits (hit.taken ++ rest) := by
  induction pattern generalizing text hit rest with
  | empty =>
    rw [of_mem_empty h]
    exact List.mem_singleton_self _
  | char p =>
    obtain ⟨c, hc, hhit, -⟩ := of_mem_char h
    rw [hhit]
    rw [List.cons_append, List.nil_append, hits_char, if_pos hc]
    exact List.mem_singleton_self _
  | seq first second ihfirst ihsecond =>
    obtain ⟨hfirst, hsecond⟩ := Bool.and_eq_true_iff.mp hpattern
    obtain ⟨a, ha, b, hb, rfl⟩ := mem_seq.mp h
    have ha' := ihfirst hfirst ha (b.taken ++ rest)
    rw [← List.append_assoc] at ha'
    exact mem_seq.mpr ⟨_, ha', _, ihsecond hsecond hb rest, rfl⟩
  | alt first second ihfirst ihsecond =>
    obtain ⟨hfirst, hsecond⟩ := Bool.and_eq_true_iff.mp hpattern
    rcases mem_alt.mp h with h | h
    · exact mem_alt.mpr (.inl (ihfirst hfirst h rest))
    · exact mem_alt.mpr (.inr (ihsecond hsecond h rest))
  | many p =>
    obtain ⟨hgroups, htaken, -⟩ := of_mem_many h
    rw [hgroups]
    exact mem_many htaken rest
  | manyLazy p =>
    obtain ⟨hgroups, htaken, -⟩ := of_mem_manyLazy h
    rw [hgroups]
    exact mem_manyLazy htaken rest
  | group name inner ih =>
    obtain ⟨a, ha, rfl⟩ := mem_group.mp h
    exact mem_group.mpr ⟨_, ih hpattern ha rest, rfl⟩
  | atEnd => cases hpattern

theorem fullmatch_of_endless (hpattern : pattern.endless) (h : hit ∈ pattern.hits text) :
    (pattern.fullmatch hit.taken).isSome := by
  have hmem := mem_hits_of_endless hpattern h []
  rw [List.append_nil] at hmem
  rw [fullmatch, List.find?_isSome]
  exact ⟨_, hmem, by simp⟩

theorem mem_inOrder_cons (hne : patterns ≠ []) :
    hit ∈ (inOrder (pattern :: patterns)).hits text ↔
      ∃ a ∈ pattern.hits text, ∃ b ∈ (inOrder patterns).hits a.rest, hit = a.append b := by
  obtain ⟨second, rest, rfl⟩ := List.exists_cons_of_ne_nil hne
  rw [inOrder, mem_seq]
  simp

/-- A hit of patterns in order is put together from hits of its patterns. -/
theorem of_mem_inOrder (h : hit ∈ (inOrder patterns).hits text) :
    ∃ parts, List.Forall₂ (fun pattern part => ∃ t, part ∈ pattern.hits t) patterns parts ∧
      hit.taken = parts.flatMap Hit.taken ∧ hit.groups = parts.flatMap Hit.groups := by
  induction patterns generalizing text hit with
  | nil =>
    obtain rfl := of_mem_empty h
    exact ⟨[], .nil, rfl, rfl⟩
  | cons pattern patterns ih =>
    rcases eq_or_ne patterns [] with rfl | hne
    · exact ⟨[hit], .cons ⟨text, h⟩ .nil, by simp, by simp⟩
    · obtain ⟨a, ha, b, hb, rfl⟩ := (mem_inOrder_cons hne).mp h
      obtain ⟨parts, hparts, htaken, hgroups⟩ := ih hb
      refine ⟨a :: parts, .cons ⟨text, ha⟩ hparts, ?_, ?_⟩
      · rw [List.flatMap_cons, ← htaken]
        rfl
      · rw [List.flatMap_cons, ← hgroups]
        rfl

theorem of_mem_literal {literalText : String} (h : hit ∈ (literal literalText).hits text) :
    hit.taken = literalText.toList ∧ hit.groups = [] := by
  unfold literal at h
  generalize literalText.toList = chars at h ⊢
  induction chars generalizing text hit with
  | nil =>
    obtain rfl := of_mem_empty h
    exact ⟨rfl, rfl⟩
  | cons c chars ih =>
    cases chars with
    | nil =>
      obtain ⟨d, hd, hhit, -⟩ := of_mem_char h
      obtain rfl := of_decide_eq_true hd
      rw [hhit]
      exact ⟨rfl, rfl⟩
    | cons d chars =>
      rw [List.map_cons, mem_inOrder_cons (by simp)] at h
      obtain ⟨a, ha, b, hb, rfl⟩ := h
      obtain ⟨e, he, hhit, -⟩ := of_mem_char ha
      obtain rfl := of_decide_eq_true he
      obtain ⟨htaken, hgroups⟩ := ih hb
      rw [hhit]
      exact ⟨congrArg (e :: ·) htaken, hgroups⟩

theorem of_mem_many1 (h : hit ∈ (many1 p).hits text) :
    hit.groups = [] ∧ (∀ c ∈ hit.taken, p c) ∧ hit.taken ≠ [] := by
  obtain ⟨a, ha, b, hb, rfl⟩ := mem_seq.mp h
  obtain ⟨c, hc, hhit, -⟩ := of_mem_char ha
  obtain ⟨hgroups, htaken, -⟩ := of_mem_many hb
  rw [hhit]
  exact ⟨hgroups, List.forall_mem_cons.mpr ⟨hc, htaken⟩, List.cons_ne_nil _ _⟩

theorem mem_of_match (h : pattern.match_ text = some hit) : hit ∈ pattern.hits text :=
  List.mem_of_head? h

theorem mem_of_fullmatch (h : pattern.fullmatch text = some hit) :
    hit ∈ pattern.hits text ∧ hit.rest = [] :=
  ⟨List.mem_of_find?_eq_some h, by simpa using List.find?_some h⟩

end Pattern

end Text
