import NovaRtl.Transforms.PriorityMux.Alignment
import NovaRtl.Transforms.PriorityMux.Arms
import NovaRtl.Transforms.PriorityMux.Equivalence
import NovaRtl.Verilog.Effects

/-!
# Side effects of accepted expressions

`_expression_text` refuses operators and calls by the tokens of `_lex`. `covers_of_lexFrom` says
which atoms of the language such a token consists of: names and opening parentheses are tokens of
both, so no call with an argument list is accepted. `=` is not among the refused operators, and
`_lex` divides the shift assignments, so these are accepted.
-/

namespace NovaRtl.PriorityMux

open Text
open Verilog (atoms Kind charKind wordChar digitChar literalChar wordStart Closed solid)

variable {classes : CharClasses} {c d : Char} {rest chars : List Char}
variable {skip atomSkip index length : ℕ} {kind : TokenKind} {tokens : List Token}

/-- A token of an accepted expression. -/
def Plain (t : Token) : Prop :=
  t.text ∉ sideEffectOperators ∧ (t.kind = .number → '?' ∉ t.text.toList)

def innerSymbols : List Char := "=<>&|".toList

/-- An atom inside a plain token, not at its beginning. -/
def Inner (a : Verilog.Token) : Prop :=
  a.kind = .literal ∨ a.kind = .symbol ∧ ∃ c ∈ innerSymbols, a.text = [c]

/-- The atoms of a token. -/
def Covers (t : Token) (part : List Verilog.Token) : Prop :=
  ∃ first more, part = first :: more ∧ first.start = t.start ∧ (∀ a ∈ more, Inner a) ∧
    (first.isName → t.kind = .identifier ∧ t.text.toList = first.text)

variable (classes) in
/-- How far the lexer and the atoms reach in the text of plain tokens. -/
inductive Divides : ℕ → ℕ → List Char → Prop where
  | same (skip : ℕ) (chars : List Char) : Divides skip skip chars
  | number {skip atomSkip : ℕ} {chars : List Char}
      (hskip : skip = (chars.takeWhile (numberChar classes)).length) (hle : atomSkip ≤ skip)
      (hplain : '?' ∉ chars.take skip) (hquote : atomSkip < skip → chars[atomSkip]? = some '\'') :
      Divides skip atomSkip chars
  | operator {skip : ℕ} {chars : List Char} (hrest : ∀ d ∈ chars.take skip, d ∈ innerSymbols) :
      Divides skip 0 chars

theorem Divides.tail (h : Divides classes (skip + 1) (atomSkip + 1) (c :: rest)) :
    Divides classes skip atomSkip rest := by
  cases h with
  | same => exact .same _ _
  | number hskip hle hplain hquote =>
    exact .number (length_takeWhile_cons hskip).2 (Nat.le_of_succ_le_succ hle)
      (fun h => hplain (List.mem_cons_of_mem _ h)) fun hlt => hquote (Nat.succ_lt_succ hlt)

theorem Divides.le (h : Divides classes skip atomSkip chars) : atomSkip ≤ skip := by
  cases h with
  | same => exact le_rfl
  | number _ hle => exact hle
  | operator => exact Nat.zero_le _

/-- A literal reaches to the next apostrophe. -/
theorem Divides.of_literal (hplain : '?' ∉ rest.take (rest.takeWhile (numberChar classes)).length) :
    Divides classes (rest.takeWhile (numberChar classes)).length
      (Kind.literal.more classes rest) rest := by
  refine .number rfl (length_takeWhile_mono (fun _ => numberChar_of_literalChar) rest) hplain ?_
  intro hlt
  obtain ⟨d, hd, hnumber⟩ := of_lt_length_takeWhile hlt
  have hliteral := getElem_length_takeWhile hd
  rw [hd, Option.some.injEq]
  grind [literalChar, numberChar]

/-- A run of digits reaches to the next apostrophe. -/
theorem Divides.of_digits (hplain : '?' ∉ rest.take (rest.takeWhile (numberChar classes)).length) :
    Divides classes (rest.takeWhile (numberChar classes)).length
      (Kind.number.more classes rest) rest := by
  refine .number rfl (length_takeWhile_mono (fun _ => numberChar_of_digitChar) rest) hplain ?_
  intro hlt
  obtain ⟨d, hd, hnumber⟩ := of_lt_length_takeWhile hlt
  have hdigit := getElem_length_takeWhile hd
  have hd' : d ∈ rest.take (rest.takeWhile (numberChar classes)).length := by
    rw [List.mem_take_iff_getElem]
    obtain ⟨hi, hget⟩ := List.getElem?_eq_some_iff.mp hd
    exact ⟨_, by omega, hget⟩
  have hne : d ≠ '?' := fun h => hplain (h ▸ hd')
  rw [hd, Option.some.injEq]
  grind [digitChar, numberChar]

theorem inner_of_mem_innerSymbols (hlawful : classes.Lawful) (hc : c ∈ innerSymbols) :
    c ≠ '/' ∧ c ≠ '"' ∧ charKind classes c = .symbol :=
  symbol_of_mem_operatorRest hlawful (by
    have hall : innerSymbols.Forall (· ∈ operatorRest) := by decide
    exact List.forall_iff_forall_mem.mp hall c hc)

/-- An atom that begins inside a token. -/
theorem Divides.inside (hlawful : classes.Lawful)
    (h : Divides classes (skip + 1) 0 (c :: rest)) :
    Closed c rest ∧ Divides classes skip ((charKind classes c).more classes rest) rest ∧
      (charKind classes c = .literal ∨ charKind classes c = .symbol ∧ c ∈ innerSymbols) := by
  cases h with
  | number hskip _ hplain hquote =>
    obtain ⟨hc, rfl⟩ := length_takeWhile_cons hskip
    obtain rfl : c = '\'' := Option.some.inj (hquote (Nat.zero_lt_succ _))
    have hkind : charKind classes '\'' = .literal := charKind_of_lt hlawful (by decide) rfl
    rw [hkind]
    exact ⟨closed_of_ne (by decide) (by decide),
      .of_literal fun h => hplain (List.mem_cons_of_mem _ h), .inl rfl⟩
  | operator hrest =>
    rw [List.take_succ_cons] at hrest
    obtain ⟨hc, hrest⟩ := List.forall_mem_cons.mp hrest
    obtain ⟨hslash, hquote, hkind⟩ := inner_of_mem_innerSymbols hlawful hc
    rw [hkind]
    exact ⟨closed_of_ne hslash hquote, .operator hrest, .inr ⟨rfl, hc⟩⟩

theorem mem_innerSymbols {item : String} (hitem : item ∈ doubleOperators)
    (heffect : item ∉ sideEffectOperators) (hbegins : item.toList.isPrefixOf (c :: rest)) :
    ∀ d ∈ rest.take (item.length - 1), d ∈ innerSymbols := by
  have hall : doubleOperators.Forall fun item => item ∈ sideEffectOperators ∨
      item.toList.tail.Forall fun d => d ∈ innerSymbols := by decide
  have htail := List.forall_iff_forall_mem.mp
    ((List.forall_iff_forall_mem.mp hall item hitem).resolve_left heffect)
  have htake := List.prefix_iff_eq_take.mp (List.isPrefixOf_iff_prefix.mp hbegins)
  obtain ⟨n, hn⟩ := Nat.exists_eq_add_of_le' (one_le_of_mem_doubleOperators hitem)
  rw [htake, String.length_toList, hn, List.take_succ_cons, List.tail_cons] at htail
  rw [hn]
  exact htail

/-- The text of an operator. -/
theorem take_of_isPrefixOf {item : String} (hbegins : item.toList.isPrefixOf (c :: rest)) :
    String.ofList ((c :: rest).take item.length) = item := by
  have htake := List.prefix_iff_eq_take.mp (List.isPrefixOf_iff_prefix.mp hbegins)
  rw [String.length_toList] at htake
  rw [← htake, String.ofList_toList]

/-- An atom that begins where a plain token begins; if it is a name, it is the token. -/
theorem Divides.start (hspace : classes.isSpace c = false) (hcomment : NoComment c rest)
    (hscanned : Scanned classes c rest length kind)
    (hplain : Plain ⟨String.ofList ((c :: rest).take length), index, index + length, kind⟩) :
    Closed c rest ∧ Divides classes (length - 1) ((charKind classes c).more classes rest) rest ∧
      (charKind classes c = .word ∨ charKind classes c = .escaped → kind = .identifier ∧
        (c :: rest).take length = c :: rest.take ((charKind classes c).more classes rest)) := by
  obtain ⟨hclosed, -⟩ := Follows.start hspace hcomment hscanned
  have hrun {p : Char → Bool} : runLength p rest - 1 = (rest.takeWhile p).length := by
    rw [runLength, Nat.add_sub_cancel_left]
  have htake {p : Char → Bool} : (c :: rest).take (runLength p rest) =
      c :: rest.take (rest.takeWhile p).length := by
    rw [runLength, Nat.add_comm, List.take_succ_cons]
  refine ⟨hclosed, ?_⟩
  cases hscanned with
  | string hc hrest =>
    have hkind : charKind classes c = .string := by
      subst hc
      simp [charKind, hspace]
    rw [hkind, Nat.add_sub_cancel_left, ← (stringCloses_of_stringRest hrest).2]
    exact ⟨.same _ _, by simp⟩
  | escaped hc =>
    have hkind : charKind classes c = .escaped := by
      subst hc
      simp [charKind, hspace]
    rw [hkind, hrun]
    exact ⟨.same _ _, fun _ => ⟨rfl, htake⟩⟩
  | name hquote hbackslash hc =>
    have hkind : charKind classes c = .word := by
      unfold charKind
      grind [Verilog.wordStart]
    rw [hkind, hrun]
    exact ⟨.same _ _, fun _ => ⟨rfl, htake⟩⟩
  | number hquote hbackslash hname hc =>
    have hmark := hplain.2 rfl
    simp only [String.toList_ofList, htake, List.mem_cons, not_or] at hmark
    rw [hrun]
    by_cases hdigit : classes.isDigit c
    · have hkind : charKind classes c = .number := by
        unfold charKind
        grind [Verilog.wordStart]
      rw [hkind]
      exact ⟨.of_digits hmark.2, by simp⟩
    · have hkind : charKind classes c = .literal := by
        unfold charKind
        grind [Verilog.wordStart]
      rw [hkind]
      exact ⟨.of_literal hmark.2, by simp⟩
  | operator hquote hbackslash hname hnumber hitem =>
    have hkind := charKind_of_special hquote hbackslash hspace hname hnumber
    have hmore : (charKind classes c).more classes rest = 0 := by
      rcases hkind with h | h <;> rw [h] <;> rfl
    have hbegins := List.find?_some hitem
    have heffect := hplain.1
    simp only [take_of_isPrefixOf hbegins] at heffect
    rw [hmore]
    refine ⟨.operator (mem_innerSymbols (List.mem_of_find?_eq_some hitem) heffect hbegins), ?_⟩
    rcases hkind with h | h <;> simp [h]
  | symbol hquote hbackslash hname hnumber =>
    have hkind := charKind_of_special hquote hbackslash hspace hname hnumber
    have hmore : (charKind classes c).more classes rest = 0 := by
      rcases hkind with h | h <;> rw [h] <;> rfl
    rw [hmore]
    refine ⟨.same _ _, ?_⟩
    rcases hkind with h | h <;> simp [h]

/-- The atoms of plain tokens: a name is a token, and other atoms begin a token unless they
continue a number or an operator. -/
theorem covers_of_lexFrom (hlawful : classes.Lawful)
    (h : lexFrom classes skip index chars = .ok tokens) (hplain : ∀ t ∈ tokens, Plain t)
    (hdivides : Divides classes skip atomSkip chars) :
    ∃ inner parts, solid (atoms classes atomSkip index chars) = inner ++ parts.flatten ∧
      List.Forall₂ Covers tokens parts ∧ (∀ a ∈ inner, Inner a) ∧
      (skip ≤ atomSkip → inner = []) := by
  induction chars generalizing skip atomSkip index tokens with
  | nil =>
    obtain rfl := Except.ok.inj h
    exact ⟨[], [], rfl, .nil, nofun, fun _ => rfl⟩
  | cons c rest ih =>
    cases skip with
    | succ skip =>
      cases atomSkip with
      | succ atomSkip =>
        obtain ⟨inner, parts, hatoms, hcovers, hinner, hnil⟩ := @ih skip _ _ _ h hplain
          hdivides.tail
        exact ⟨inner, parts, hatoms, hcovers, hinner, fun hle => hnil (Nat.le_of_succ_le_succ hle)⟩
      | zero =>
        obtain ⟨hclosed, hnext, hkind⟩ := hdivides.inside hlawful
        obtain ⟨inner, parts, hatoms, hcovers, hinner, -⟩ := @ih skip _ _ _ h hplain hnext
        have hspace : classes.isSpace c = false := by
          by_contra hspace
          have : charKind classes c = .space := by simp [charKind, hspace]
          simp [this] at hkind
        rw [Verilog.solid_of_closed hclosed hspace, hatoms]
        refine ⟨_ :: inner, parts, rfl, hcovers, List.forall_mem_cons.mpr ⟨?_, hinner⟩,
          fun hle => absurd hle (Nat.not_succ_le_zero _)⟩
        refine hkind.imp_right fun h => ⟨h.1, c, h.2, ?_⟩
        simp only [h.1, Kind.more, List.take_zero]
    | zero =>
      obtain rfl := Nat.le_zero.mp hdivides.le
      rcases lexFrom_cons h with
        ⟨hspace, hrest⟩ | ⟨length, kind, more, hspace, hcomment, hscanned, hrest, rfl⟩
      · have hne {d : Char} := Verilog.ne_of_isSpace (d := d) hlawful hspace
        have hkind : charKind classes c = .space := by simp [charKind, hspace]
        obtain ⟨inner, parts, hatoms, hcovers, hinner, hnil⟩ := ih hrest hplain (.same 0 rest)
        refine ⟨inner, parts, ?_, hcovers, hinner, hnil⟩
        rw [Verilog.atoms_of_closed (closed_of_ne (hne (by decide) (by decide))
          (hne (by decide) (by decide))), Verilog.solid_cons, hkind]
        exact hatoms
      · obtain ⟨hhead, hmore⟩ := List.forall_mem_cons.mp hplain
        obtain ⟨hclosed, hnext, hname⟩ := Divides.start hspace hcomment hscanned hhead
        obtain ⟨inner, parts, hatoms, hcovers, hinner, -⟩ := ih hrest hmore hnext
        rw [Verilog.solid_of_closed hclosed hspace, hatoms]
        refine ⟨[], (_ :: inner) :: parts, rfl, .cons ⟨_, inner, rfl, rfl, hinner, ?_⟩ hcovers, nofun,
          fun _ => rfl⟩
        intro hisName
        obtain ⟨hkind, htext⟩ := hname (by simpa [Verilog.Token.isName] using hisName)
        exact ⟨hkind, by simpa using htext⟩

/-! ## Tokens at atoms -/

variable {t : Token} {a b : Verilog.Token} {parts : List (List Verilog.Token)}
variable {before after : List Verilog.Token} {part : List Token}

/-- What the lexer found at a token. -/
theorem scanned_of_mem (h : lexFrom classes skip index chars = .ok tokens) (ht : t ∈ tokens) :
    ∃ c rest, chars.drop (t.start - index) = c :: rest ∧
      Scanned classes c rest (t.end_ - t.start) t.kind ∧
      t.text = String.ofList ((c :: rest).take (t.end_ - t.start)) := by
  obtain ⟨before, after, rfl⟩ := List.append_of_mem ht
  have hdrop := lexFrom_drop h
  cases hchars : chars.drop (t.start - index) with
  | nil =>
    rw [hchars] at hdrop
    simp [lexFrom] at hdrop
  | cons c rest =>
    rw [hchars] at hdrop
    rcases lexFrom_cons hdrop with ⟨-, hrest⟩ | ⟨length, kind, more, -, -, hscanned, -, htokens⟩
    · have := (lexFrom_ordered hrest).2 t List.mem_cons_self
      omega
    · obtain ⟨ht, -⟩ := List.cons.inj htokens
      have hlength : t.end_ - t.start = length := by
        rw [ht]
        simp
      rw [hlength]
      exact ⟨c, rest, rfl, by rw [ht]; exact hscanned, by rw [ht]⟩

/-- An atom that is not inside a token begins one. -/
theorem start_of_covers (h : List.Forall₂ Covers tokens parts) (ha : a ∈ parts.flatten)
    (hinner : ¬ Inner a) : ∃ t ∈ tokens, t.start = a.start := by
  obtain ⟨atoms, hatoms, hmem⟩ := List.mem_flatten.mp ha
  obtain ⟨i, hi, rfl⟩ := List.getElem_of_mem hatoms
  have hi' : i < tokens.length := h.length_eq ▸ hi
  obtain ⟨first, more, hpart, hstart, hmore, -⟩ := h.get hi' hi
  refine ⟨tokens[i], List.getElem_mem hi', ?_⟩
  have hpart : parts[i] = first :: more := hpart
  rw [hpart] at hmem
  rcases List.mem_cons.mp hmem with rfl | hmem
  · exact hstart.symm
  · exact absurd (hmore a hmem) hinner

/-- Neighboring atoms that are not inside tokens begin neighboring tokens. -/
theorem neighbors_of_covers (h : List.Forall₂ Covers tokens parts)
    (hatoms : parts.flatten = before ++ a :: b :: after) (ha : ¬ Inner a) (hb : ¬ Inner b) :
    ∃ pair ∈ tokens.zip tokens.tail, pair.2.start = b.start ∧
      (a.isName → pair.1.kind = .identifier ∧ pair.1.text.toList = a.text) := by
  induction h generalizing before with
  | nil => simp at hatoms
  | @cons t part tokens parts hcovers hrest ih =>
    obtain ⟨first, more, rfl, -, hmore, hname⟩ := hcovers
    rw [List.flatten_cons, List.cons_append] at hatoms
    cases before with
    | nil =>
      obtain ⟨rfl, hmoreAtoms⟩ := List.cons.inj hatoms
      cases more with
      | cons next more =>
        obtain ⟨hnext, -⟩ := List.cons.inj hmoreAtoms
        exact absurd (hnext ▸ hmore next List.mem_cons_self) hb
      | nil =>
        cases hrest with
        | nil => cases hmoreAtoms
        | cons hcovers _ =>
          obtain ⟨first', more', rfl, hstart, -⟩ := hcovers
          obtain ⟨hfirst, -⟩ := List.cons.inj hmoreAtoms
          exact ⟨_, List.mem_cons_self, hstart.symm.trans (congrArg _ hfirst), hname⟩
    | cons first' before =>
      obtain ⟨-, hmoreAtoms⟩ := List.cons.inj hatoms
      -- `a` lies behind the first token
      have hbehind : ∃ before', parts.flatten = before' ++ a :: b :: after := by
        rcases List.append_eq_append_iff.mp hmoreAtoms with
          ⟨before', -, hflat⟩ | ⟨inner, hinner, hflat⟩
        · exact ⟨before', hflat⟩
        · cases inner with
          | nil => exact ⟨[], by simpa using hflat.symm⟩
          | cons a' inner =>
            obtain ⟨rfl, -⟩ := List.cons.inj hflat
            exact absurd (hmore a (by simp [hinner])) ha
      obtain ⟨before', hflat⟩ := hbehind
      obtain ⟨pair, hpair, hfound⟩ := ih hflat
      refine ⟨pair, ?_, hfound⟩
      cases tokens with
      | nil => cases hpair
      | cons next tokens => exact List.mem_cons_of_mem _ hpair

theorem not_inner_of_isName (ha : a.isName) : ¬ Inner a := by
  rintro (hkind | ⟨hkind, -⟩) <;> simp [Verilog.Token.isName, hkind] at ha

/-! ## Calls with an argument list -/

/-- The lexer's token at an opening parenthesis. -/
theorem text_of_opening (hlawful : classes.Lawful)
    (hscanned : Scanned classes '(' rest length kind) :
    String.ofList (('(' :: rest).take length) = "(" := by
  cases hscanned with
  | string hc => exact absurd hc (by decide)
  | escaped hc => exact absurd hc (by decide)
  | name _ _ hc =>
    rw [hlawful.isAlpha_of_lt _ (by decide)] at hc
    exact absurd hc (by decide)
  | number _ _ _ hc =>
    rw [hlawful.isDigit_of_lt _ (by decide)] at hc
    exact absurd hc (by decide)
  | operator _ _ _ _ hitem =>
    have hnone : doubleOperators.find? (fun item => item.toList.isPrefixOf ('(' :: rest)) = none :=
      rfl
    rw [hnone] at hitem
    cases hitem
  | symbol => rfl

theorem hasListCall_eq_false (hlawful : classes.Lawful)
    (hlex : lexFrom classes 0 index chars = .ok part) (hplain : ∀ t ∈ part, Plain t)
    (hcall : ∀ pair ∈ part.zip part.tail, isCall pair.1 pair.2 = false) :
    Verilog.hasListCall (Verilog.tokensAt classes index chars) = false := by
  obtain ⟨inner, parts, hatoms, hcovers, -, hnil⟩ :=
    covers_of_lexFrom hlawful hlex hplain (.same 0 chars)
  obtain rfl := hnil le_rfl
  by_contra h
  obtain ⟨before, t, next, after, htokens, hname, hcast, hnext⟩ :=
    Verilog.exists_of_hasListCall (by simpa using h)
  have htokens' : Verilog.tokensAt classes index chars = before ++ t :: next :: after := htokens
  have hjoins : t.kind.joins = false := by
    simp only [Verilog.Token.isName, Bool.or_eq_true, decide_eq_true_eq] at hname
    rcases hname with h | h <;> rw [h] <;> rfl
  obtain ⟨before', first, rest, hsolid, -, hfirstStart, hbegins⟩ :=
    Verilog.solid_of_group htokens hjoins
  -- the next atom is the opening parenthesis
  obtain ⟨c, more, htext, hkind⟩ :=
    Verilog.kind_of_mem_solid (t := first) (by rw [hsolid]; simp)
  rw [hnext, htext] at hbegins
  obtain ⟨rfl, hmore⟩ := List.cons_prefix_cons.mp hbegins
  obtain rfl := List.prefix_nil.mp hmore
  have hdelimiter : first.kind = .delimiter :=
    hkind.trans (charKind_of_lt hlawful (by decide) rfl)
  have hfirst : ¬ Inner first := by
    rintro (h | ⟨h, -⟩) <;> simp [hdelimiter] at h
  rw [List.nil_append] at hatoms
  obtain ⟨pair, hpair, hstart, hidentifier⟩ := neighbors_of_covers hcovers (hatoms.symm.trans hsolid)
    (not_inner_of_isName hname) hfirst
  obtain ⟨hkind, hpairText⟩ := hidentifier hname
  -- so the lexer has it, too
  obtain ⟨-, -, ⟨left, hdrop⟩, -⟩ := Verilog.of_mem_tokensAt (t := next) (by rw [htokens']; simp)
  have hmem : pair.2 ∈ part := List.mem_of_mem_tail (List.of_mem_zip hpair).2
  obtain ⟨c, rest, hchars, hscanned, hopening⟩ := scanned_of_mem hlex hmem
  rw [hstart, hfirstStart, hdrop, hnext] at hchars
  obtain ⟨rfl, -⟩ := List.cons.inj hchars
  rw [text_of_opening hlawful hscanned] at hopening
  have hallowed : pair.1.text ∉ allowedSystemCasts := by
    intro hmem
    refine hcast ?_
    rw [← hpairText]
    exact List.mem_map_of_mem hmem
  have hcall := hcall pair hpair
  simp [isCall, hkind, hopening, hallowed] at hcall

/-! ## Assignments -/

/-- The operators that are refused wherever they stand. -/
def refusedOperators : List String := ["+=", "-=", "*=", "/=", "%=", "^=", "++", "--"]

/-- The operators that `_lex` does not find. -/
def missedOperators : List String := ["=", "<<=", ">>=", "<<<=", ">>>=", "&=", "|="]

theorem head_of_refused {operator : String} (hoperator : operator ∈ refusedOperators)
    {more : List Char} (hchars : operator.toList = c :: more) : c ∈ "+-*/%^".toList := by
  have hall : refusedOperators.Forall fun operator => operator.toList.head? ∈
      "+-*/%^".toList.map some := by decide
  have hhead := List.forall_iff_forall_mem.mp hall operator hoperator
  rw [hchars, List.head?_cons] at hhead
  obtain ⟨d, hd, heq⟩ := List.mem_map.mp hhead
  rwa [← Option.some.inj heq]

/-- The lexer's token at a refused operator. -/
theorem text_of_refused (hlawful : classes.Lawful) {operator : String}
    (hoperator : operator ∈ refusedOperators) {more : List Char}
    (hchars : c :: rest = operator.toList ++ more)
    (hscanned : Scanned classes c rest length kind) :
    String.ofList ((c :: rest).take length) = operator ∧ operator ∈ sideEffectOperators := by
  have hfind : doubleOperators.find? (fun item => item.toList.isPrefixOf (c :: rest)) =
      some operator ∧ operator ∈ sideEffectOperators := by
    rw [hchars]
    simp only [refusedOperators, List.mem_cons, List.not_mem_nil, or_false] at hoperator
    rcases hoperator with rfl | rfl | rfl | rfl | rfl | rfl | rfl | rfl <;>
      exact ⟨rfl, by decide⟩
  refine ⟨?_, hfind.2⟩
  have hfirst : c ∈ "+-*/%^".toList := by
    cases h : operator.toList with
    | nil =>
      have hall : refusedOperators.Forall fun operator => operator.toList ≠ [] := by decide
      exact absurd h (List.forall_iff_forall_mem.mp hall operator hoperator)
    | cons d more' =>
      rw [h] at hchars
      rw [(List.cons.inj hchars).1]
      exact head_of_refused hoperator h
  have hplain : c ≠ '"' ∧ c ≠ '\\' ∧ ¬ (c = '$' ∨ classes.isAlpha c ∨ c = '_') ∧
      ¬ (classes.isDigit c ∨ c = '\'') := by
    have hall : "+-*/%^".toList.Forall fun c => c.toNat < 128 ∧ c ≠ '"' ∧ c ≠ '\\' ∧
        ¬ (c = '$' ∨ CharClasses.ascii.isAlpha c ∨ c = '_') ∧
        ¬ (CharClasses.ascii.isDigit c ∨ c = '\'') := by decide
    obtain ⟨hlt, hrest⟩ := List.forall_iff_forall_mem.mp hall c hfirst
    rwa [hlawful.isAlpha_of_lt c hlt, hlawful.isDigit_of_lt c hlt]
  obtain ⟨hquote, hbackslash, hname, hnumber⟩ := hplain
  cases hscanned with
  | string hc => exact absurd hc hquote
  | escaped hc => exact absurd hc hbackslash
  | name _ _ hc => exact absurd hc hname
  | number _ _ _ hc => exact absurd hc hnumber
  | operator _ _ _ _ hitem =>
    obtain rfl := Option.some.inj (hitem.symm.trans hfind.1)
    have hbegins := List.find?_some hitem
    exact take_of_isPrefixOf hbegins
  | symbol _ _ _ _ hitem =>
    rw [hfind.1] at hitem
    cases hitem

theorem not_inner_of_refused (hlawful : classes.Lawful) {operator : String}
    (hoperator : operator ∈ refusedOperators) {a : Verilog.Token} {more : List Char}
    (hkind : a.kind = charKind classes c) (htext : a.text = c :: more)
    (hbegins : a.text <+: operator.toList) : ¬ Inner a := by
  have hall : "+-*/%^".toList.Forall fun c =>
      c.toNat < 128 ∧ charKind .ascii c = .symbol ∧ c ∉ innerSymbols := by decide
  rw [htext] at hbegins
  obtain ⟨rest, hrest⟩ := hbegins
  have hc := List.forall_iff_forall_mem.mp hall c (head_of_refused hoperator hrest.symm)
  rintro (h | ⟨-, d, hd, hd'⟩)
  · rw [hkind, charKind_of_lt hlawful hc.1 hc.2.1] at h
    cases h
  · rw [htext] at hd'
    obtain ⟨rfl, -⟩ := List.cons.inj hd'
    exact hc.2.2 hd

theorem not_refused (hlawful : classes.Lawful) (hlex : lexFrom classes 0 index chars = .ok part)
    (hplain : ∀ t ∈ part, Plain t) {operator : String} (hoperator : operator ∈ refusedOperators)
    {t : Verilog.Token} (ht : t ∈ Verilog.tokensAt classes index chars) :
    t.text ≠ operator.toList := by
  intro htext
  obtain ⟨inner, parts, hatoms, hcovers, -, hnil⟩ :=
    covers_of_lexFrom hlawful hlex hplain (.same 0 chars)
  obtain rfl := hnil le_rfl
  rw [List.nil_append] at hatoms
  obtain ⟨-, -, ⟨left, hdrop⟩, first, hfirst, -, hstart, hbegins⟩ := Verilog.of_mem_tokensAt ht
  obtain ⟨c, more, hmore, hkind⟩ := Verilog.kind_of_mem_solid hfirst
  rw [htext] at hbegins hdrop
  have hinner := not_inner_of_refused hlawful hoperator hkind hmore hbegins
  obtain ⟨x, hx, hxstart⟩ := start_of_covers hcovers (hatoms ▸ hfirst) hinner
  obtain ⟨d, rest, hchars, hscanned, hxtext⟩ := scanned_of_mem hlex hx
  rw [hxstart, hstart, hdrop] at hchars
  obtain ⟨hsame, heffect⟩ := text_of_refused hlawful hoperator hchars.symm hscanned
  exact (hplain x hx).1 (by rw [hxtext, hsame]; exact heffect)

/-! ## Accepted expressions -/

variable {hashes : Hashes} {m : PriorityMuxMatch hashes} {context : PriorityMuxContext}
variable {source text : String}

/-- The conditions and the selected values of a chain. -/
def PriorityMuxMatch.expressions (m : PriorityMuxMatch hashes) : List String :=
  m.branches.flatMap (fun branch => [branch.condition, branch.value]) ++ [m.defaultValue]

/-- The expressions of a match are slices of the source. -/
theorem expression_slice (h : match_ classes context = .ok m) (htext : text ∈ m.expressions) :
    ∃ before part after,
      lex classes context.sourceText = .ok (before ++ part ++ after) ∧
        expressionText classes context.sourceText part = .ok text := by
  obtain ⟨tokens, arms, last, hlex, hchain, hlast, harms⟩ := parse_arms (match_sound h).2
  obtain ⟨⟨-, hlastValue⟩, hparts⟩ := hchain.parts
  have hpart {part : List Token} (hpart : part <:+: tokens)
      (htext : expressionText classes context.sourceText part = .ok text) :
      ∃ before part after,
        lex classes context.sourceText = .ok (before ++ part ++ after) ∧
          expressionText classes context.sourceText part = .ok text := by
    obtain ⟨before, after, rfl⟩ := hpart
    exact ⟨before, part, after, hlex, htext⟩
  rcases List.mem_append.mp htext with htext | htext
  · obtain ⟨branch, hbranch, htext⟩ := List.mem_flatMap.mp htext
    obtain ⟨i, hi, rfl⟩ := List.getElem_of_mem hbranch
    have hi' : i < arms.length := harms.length_eq ▸ hi
    obtain ⟨hcondition, -, hvalue⟩ := harms.get hi' hi
    obtain ⟨hconditionPart, -, hvaluePart⟩ := hparts _ (List.getElem_mem hi')
    rcases List.mem_cons.mp htext with rfl | htext
    · exact hpart hconditionPart hcondition
    · obtain rfl := List.mem_singleton.mp htext
      exact hpart hvaluePart hvalue
  · obtain rfl := List.mem_singleton.mp htext
    exact hpart hlastValue hlast.2

/-- What the checks on an expression mean for its text. -/
theorem checks_of_expression (hlawful : classes.Lawful) (h : match_ classes context = .ok m)
    (htext : text ∈ m.expressions) :
    ∃ index part, lexFrom classes 0 index text.toList = .ok part ∧ (∀ t ∈ part, Plain t) ∧
      ∀ pair ∈ part.zip part.tail, isCall pair.1 pair.2 = false := by
  obtain ⟨before, part, after, hlex, hexpression⟩ := expression_slice h htext
  obtain ⟨first, last, hfirst, hlast, rfl, heffect, hcall, hambiguous⟩ :=
    expressionText_eq_ok hexpression
  have hslice := (lexFrom_slice hlex hfirst hlast).1
  rw [← sliceText_eq hlawful hlex hfirst hlast] at hslice
  refine ⟨_, part, hslice, fun t ht => ⟨heffect t ht, fun hkind hmark => ?_⟩, hcall⟩
  have hno := hambiguous t ht
  simp only [isAmbiguous, hkind, decide_true, Bool.true_and, List.any_eq_false] at hno
  exact absurd (hno '?' hmark) (by decide)

/-- An assignment by an operator that `_lex` does not find, or a call without an argument list. -/
def MissedEffect (callee : Verilog.Callee) (ts : List Verilog.Token) : Prop :=
  (∃ t ∈ ts, t.text ∈ missedOperators.map String.toList) ∨ Verilog.hasBareCall callee [] ts

theorem sideEffectFree_iff (hlawful : classes.Lawful)
    (hlex : lexFrom classes 0 index chars = .ok part) (hplain : ∀ t ∈ part, Plain t)
    (hcall : ∀ pair ∈ part.zip part.tail, isCall pair.1 pair.2 = false)
    (callee : Verilog.Callee) :
    Verilog.SideEffectFree callee (Verilog.tokens classes chars) ↔
      ¬ MissedEffect callee (Verilog.tokens classes chars) := by
  have hlist := hasListCall_eq_false hlawful hlex hplain hcall
  rw [Verilog.tokensAt_eq, Verilog.hasListCall_shift] at hlist
  have hoperators : Verilog.assignmentOperators.Forall fun operator =>
      operator ∈ missedOperators.map String.toList ∨
        operator ∈ refusedOperators.map String.toList := by decide
  have hmissed : missedOperators.Forall fun operator =>
      operator.toList ∈ Verilog.assignmentOperators := by decide
  constructor
  · rintro ⟨hassign, hnoCall⟩ (⟨t, ht, hmem⟩ | hbare)
    · obtain ⟨operator, hoperator, htext⟩ := List.mem_map.mp hmem
      refine hassign t ht ?_
      rw [← htext]
      exact List.forall_iff_forall_mem.mp hmissed operator hoperator
    · rw [Verilog.hasCall_eq, hbare, Bool.or_true] at hnoCall
      cases hnoCall
  · intro hno
    obtain ⟨hno, hbare⟩ := not_or.mp hno
    refine ⟨fun t ht hmem => ?_, ?_⟩
    · rcases List.forall_iff_forall_mem.mp hoperators _ hmem with h | h
      · exact hno ⟨t, ht, h⟩
      · obtain ⟨operator, hoperator, htext⟩ := List.mem_map.mp h
        have ht' : t.shift index ∈ Verilog.tokensAt classes index chars := by
          rw [Verilog.tokensAt_eq]
          exact List.mem_map_of_mem ht
        exact not_refused hlawful hlex hplain hoperator ht' htext.symm
    · rw [Verilog.hasCall_eq, hlist, Bool.false_or]
      simpa using hbare

/-- The expressions of an accepted chain have no side effects exactly if none assigns by an operator
that `_lex` does not find and none calls without an argument list. -/
theorem expressions_sideEffectFree_iff (hlawful : classes.Lawful)
    (h : match_ classes context = .ok m) (callee : Verilog.Callee) :
    (∀ text ∈ m.expressions,
      Verilog.SideEffectFree callee (Verilog.tokens classes text.toList)) ↔
    ∀ text ∈ m.expressions, ¬ MissedEffect callee (Verilog.tokens classes text.toList) := by
  refine forall₂_congr fun text htext => ?_
  obtain ⟨index, part, hlex, hplain, hcall⟩ := checks_of_expression hlawful h htext
  exact sideEffectFree_iff hlawful hlex hplain hcall callee

theorem expressions_sideEffectFree_iff_sample :
    (∀ text ∈ sampleMatch.expressions,
      Verilog.SideEffectFree (fun _ _ => false) (Verilog.tokens .ascii text.toList)) ↔
    ∀ text ∈ sampleMatch.expressions,
      ¬ MissedEffect (fun _ _ => false) (Verilog.tokens .ascii text.toList) :=
  expressions_sideEffectFree_iff CharClasses.lawful_ascii sampleMatch_eq fun _ _ => false

/-- A condition that assigns, a value that calls a system function and one that calls a method. -/
def effectText : String :=
  "if ((a = b)) y = $random; else if (d) y = q.pop_front; else y = f;"

theorem effectRange_ok : 1 ≤ 3 ∧ 1 ≤ 5 ∧ 5 < 71 := by decide

theorem effectText_ok : "rtl/mux.sv" ≠ "" ∧ effectText ≠ "" ∧ "top.u_mux" ≠ "" ∧
    isEntityId "clk_core" := by
  decide +kernel

def effectContext : PriorityMuxContext where
  toRewriteContext := .ofSlice 3 5 71 "rtl/mux.sv" effectText "top.u_mux" "clk_core"
    effectRange_ok effectText_ok

theorem effect_expressions :
    (match_ .ascii effectContext : Except _ (PriorityMuxMatch sampleHashes)).toOption.map
      PriorityMuxMatch.expressions = some ["(a = b)", "$random", "d", "q.pop_front", "f"] := by
  decide +kernel

/-- The condition `(a = b)` is accepted. -/
theorem assignment_in_condition_accepted :
    ¬ ∀ (hashes : Hashes) (classes : CharClasses) (context : PriorityMuxContext)
      (m : PriorityMuxMatch hashes), classes.Lawful → match_ classes context = .ok m →
        ∀ callee, ∀ text ∈ m.expressions,
          Verilog.SideEffectFree callee (Verilog.tokens classes text.toList) := by
  intro h
  obtain ⟨m, hsome, hexpressions⟩ := Option.map_eq_some_iff.mp effect_expressions
  have hmatch : match_ .ascii effectContext = .ok m := by
    cases hresult : (match_ .ascii effectContext : Except _ (PriorityMuxMatch sampleHashes)) with
    | error => rw [hresult] at hsome; cases hsome
    | ok m' => rw [hresult] at hsome; exact congrArg _ (Option.some.inj hsome)
  have hfree := h sampleHashes .ascii effectContext m CharClasses.lawful_ascii hmatch
    (fun _ _ => false) "(a = b)" (by rw [hexpressions]; decide)
  exact hfree.assign ⟨.symbol, ['='], 3⟩ (by decide +kernel) (by decide)

end NovaRtl.PriorityMux
