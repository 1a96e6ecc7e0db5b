import NovaRtl.Transforms.PriorityMux.Slices
import NovaRtl.Verilog.Joins

/-!
# The lexer of the parser and the tokens of the language

`_lex` divides a number at a point and joins the literals of one run of characters, and knows fewer
operators than the language. `Follows` relates how far it has read to how far the atoms of the
language reach, so accepted text has no comments and no open strings (`aligned_of_lexFrom`).
-/

namespace NovaRtl.PriorityMux

open Text
open Verilog (atoms solid Kind charKind atomKind wordChar digitChar literalChar wordStart Closed Sound)

variable {classes : CharClasses} {c d : Char} {rest chars : List Char}
variable {skip atomSkip index length : ℕ} {kind : TokenKind} {tokens : List Token}

variable (classes) in
/-- The characters that continue a number. -/
def numberChar (c : Char) : Bool := classes.isAlnum c || c = '_' || c = '\'' || c = '?'

/-- The characters of operators after the first one. -/
def operatorRest : List Char := "=<>&|+-".toList

variable (classes) in
/-- How far the lexer and the atoms reach into the same text. -/
inductive Follows : ℕ → ℕ → List Char → Prop where
  | same (skip : ℕ) (chars : List Char) : Follows skip skip chars
  /-- Atoms divide a number. -/
  | number {skip atomSkip : ℕ} {chars : List Char}
      (hskip : skip = (chars.takeWhile (numberChar classes)).length) (hle : atomSkip ≤ skip) :
      Follows skip atomSkip chars
  /-- The characters of an operator are atoms. -/
  | operator {skip : ℕ} {chars : List Char} (hrest : ∀ d ∈ chars.take skip, d ∈ operatorRest) :
      Follows skip 0 chars
  /-- A name after a question mark in a number. -/
  | name {skip atomSkip : ℕ} {chars : List Char}
      (hskip : atomSkip = (chars.takeWhile (wordChar classes)).length) (hle : skip ≤ atomSkip)
      (hdollar : skip < atomSkip → chars[skip]? = some '$') :
      Follows skip atomSkip chars

theorem length_takeWhile_cons {p : Char → Bool} {n : ℕ}
    (h : n + 1 = ((c :: rest).takeWhile p).length) : p c ∧ n = (rest.takeWhile p).length := by
  rw [List.takeWhile_cons] at h
  split_ifs at h with hc
  exact ⟨hc, Nat.succ.inj h⟩

/-- Both go on inside a token. -/
theorem Follows.tail (h : Follows classes (skip + 1) (atomSkip + 1) (c :: rest)) :
    Follows classes skip atomSkip rest := by
  cases h with
  | same => exact .same _ _
  | number hskip hle =>
    exact .number (length_takeWhile_cons hskip).2 (Nat.le_of_succ_le_succ hle)
  | name hskip hle hdollar =>
    exact .name (length_takeWhile_cons hskip).2 (Nat.le_of_succ_le_succ hle) fun hlt =>
      hdollar (Nat.succ_lt_succ hlt)

theorem length_takeWhile_mono {p q : Char → Bool} (hpq : ∀ c, p c → q c) (chars : List Char) :
    (chars.takeWhile p).length ≤ (chars.takeWhile q).length := by
  induction chars with
  | nil => rfl
  | cons c rest ih =>
    rw [List.takeWhile_cons, List.takeWhile_cons]
    split_ifs with hp hq
    · exact Nat.succ_le_succ ih
    · exact absurd (hpq c hp) hq
    · exact Nat.zero_le _
    · exact Nat.zero_le _

theorem numberChar_of_digitChar (h : digitChar classes c) : numberChar classes c := by
  grind [digitChar, numberChar]

theorem numberChar_of_literalChar (h : literalChar classes c) : numberChar classes c := by
  grind [literalChar, numberChar]

theorem charKind_of_lt (hlawful : classes.Lawful) {kind : Kind} (hc : c.toNat < 128)
    (h : charKind .ascii c = kind) : charKind classes c = kind :=
  (Verilog.charKind_of_lt hlawful hc).trans h

theorem getElem_length_takeWhile {p : Char → Bool}
    (hd : chars[(chars.takeWhile p).length]? = some d) : p d = false := by
  induction chars with
  | nil => cases hd
  | cons c rest ih =>
    rw [List.takeWhile_cons] at hd
    split_ifs at hd with hc
    · exact ih hd
    · obtain rfl := Option.some.inj hd
      simpa using hc

theorem of_lt_length_takeWhile {p : Char → Bool} {n : ℕ} (hn : n < (chars.takeWhile p).length) :
    ∃ d, chars[n]? = some d ∧ p d := by
  have hle := (List.takeWhile_sublist p (l := chars)).length_le
  refine ⟨chars[n], List.getElem?_eq_getElem (by omega), ?_⟩
  have hget := (List.takeWhile_prefix p (l := chars)).getElem hn
  rw [← hget]
  exact List.mem_takeWhile_imp (List.getElem_mem hn)

/-- The atom of a kind, in a number. -/
theorem Follows.of_number {kind : Kind} (hstring : kind ≠ .string) (hescaped : kind ≠ .escaped)
    (hline : kind ≠ .lineComment) (hblock : kind ≠ .blockComment) :
    Follows classes (rest.takeWhile (numberChar classes)).length (kind.more classes rest) rest := by
  cases kind with
  | word =>
    rcases le_or_gt (rest.takeWhile (wordChar classes)).length
      (rest.takeWhile (numberChar classes)).length with hle | hlt
    · exact .number rfl hle
    · refine .name rfl hlt.le fun hlt => ?_
      obtain ⟨d, hd, hword⟩ := of_lt_length_takeWhile hlt
      have hnumber := getElem_length_takeWhile hd
      rw [hd, Option.some.injEq]
      grind [wordChar, numberChar]
  | number => exact .number rfl (length_takeWhile_mono (fun _ => numberChar_of_digitChar) rest)
  | literal => exact .number rfl (length_takeWhile_mono (fun _ => numberChar_of_literalChar) rest)
  | space | delimiter | symbol => exact .number rfl (Nat.zero_le _)
  | string => exact absurd rfl hstring
  | escaped => exact absurd rfl hescaped
  | lineComment => exact absurd rfl hline
  | blockComment => exact absurd rfl hblock

theorem closed_of_ne (hslash : c ≠ '/') (hquote : c ≠ '"') : Closed c rest :=
  ⟨fun h => hslash h.1, fun h => absurd h hquote⟩

theorem ne_of_numberChar (hlawful : classes.Lawful) (hc : numberChar classes c)
    (hd : d.toNat < 128) (hnumber : numberChar .ascii d = false) : c ≠ d := by
  rintro rfl
  rw [numberChar, hlawful.isAlnum_of_lt c hd] at hc
  exact Bool.false_ne_true (hnumber.symm.trans hc)

theorem symbol_of_mem_operatorRest (hlawful : classes.Lawful) (hc : c ∈ operatorRest) :
    c ≠ '/' ∧ c ≠ '"' ∧ charKind classes c = .symbol := by
  have hall : operatorRest.Forall fun c =>
      c.toNat < 128 ∧ c ≠ '/' ∧ c ≠ '"' ∧ charKind .ascii c = .symbol := by decide
  obtain ⟨hlt, hslash, hquote, hkind⟩ := List.forall_iff_forall_mem.mp hall c hc
  exact ⟨hslash, hquote, charKind_of_lt hlawful hlt hkind⟩

/-- An atom that begins inside a token. -/
theorem Follows.inside (hlawful : classes.Lawful)
    (h : Follows classes (skip + 1) 0 (c :: rest)) :
    Closed c rest ∧ Follows classes skip ((charKind classes c).more classes rest) rest := by
  cases h with
  | number hskip =>
    obtain ⟨hc, rfl⟩ := length_takeWhile_cons hskip
    have hne {d : Char} := ne_of_numberChar (d := d) hlawful hc
    refine ⟨closed_of_ne (hne (by decide) (by decide)) (hne (by decide) (by decide)),
      .of_number (fun hkind => ?_) (fun hkind => ?_) Verilog.charKind_ne_comment.1
        Verilog.charKind_ne_comment.2⟩
    · exact hne (by decide) (by decide) (Verilog.charKind_eq_string hkind)
    · exact hne (by decide) (by decide) (Verilog.charKind_eq_escaped hkind)
  | operator hrest =>
    rw [List.take_succ_cons] at hrest
    obtain ⟨hc, hrest⟩ := List.forall_mem_cons.mp hrest
    obtain ⟨hslash, hquote, hkind⟩ := symbol_of_mem_operatorRest hlawful hc
    rw [hkind]
    exact ⟨closed_of_ne hslash hquote, .operator hrest⟩
  | name _ hle => exact absurd hle (Nat.not_succ_le_zero _)

/-- The kind of a token of the lexer, except for numbers. -/
theorem charKind_of_special (hquote : c ≠ '"') (hbackslash : c ≠ '\\')
    (hspace : classes.isSpace c = false)
    (hname : ¬ (c = '$' ∨ classes.isAlpha c ∨ c = '_'))
    (hnumber : ¬ (classes.isDigit c ∨ c = '\'')) :
    charKind classes c = .delimiter ∨ charKind classes c = .symbol := by
  unfold charKind
  grind [Verilog.wordStart]

theorem stringCloses_of_stringRest {n : ℕ} (h : stringRest rest = some n) :
    Verilog.stringCloses false rest ∧ Verilog.stringTail false rest = n := by
  induction rest using stringRest.induct generalizing n with
  | case1 => cases h
  | case2 rest =>
    obtain rfl := Option.some.inj h
    exact ⟨rfl, rfl⟩
  | case3 => cases h
  | case4 d rest ih =>
    obtain ⟨m, hm, rfl⟩ := Option.map_eq_some_iff.mp h
    obtain ⟨hcloses, htail⟩ := ih hm
    simp [Verilog.stringCloses, Verilog.stringTail, hcloses, htail]
  | case5 d rest hquote hsingle hmore ih =>
    have hbackslash : d ≠ '\\' := by
      rintro rfl
      cases rest with
      | nil => exact hsingle rfl rfl
      | cons e rest => exact hmore e rest rfl rfl
    rw [stringRest_cons hquote hbackslash] at h
    obtain ⟨m, hm, rfl⟩ := Option.map_eq_some_iff.mp h
    obtain ⟨hcloses, htail⟩ := ih hm
    have hquote : d ≠ '"' := hquote
    simp [Verilog.stringCloses, Verilog.stringTail, hquote, hbackslash, hcloses, htail]

theorem mem_operatorRest {item : String} (hitem : item ∈ doubleOperators)
    (hbegins : item.toList.isPrefixOf (c :: rest)) :
    ∀ d ∈ rest.take (item.length - 1), d ∈ operatorRest := by
  have hall : doubleOperators.Forall fun item =>
      item.toList.tail.Forall fun d => d ∈ operatorRest := by decide
  have htail := List.forall_iff_forall_mem.mp (List.forall_iff_forall_mem.mp hall item hitem)
  have htake := List.prefix_iff_eq_take.mp (List.isPrefixOf_iff_prefix.mp hbegins)
  obtain ⟨n, hn⟩ := Nat.exists_eq_add_of_le' (one_le_of_mem_doubleOperators hitem)
  rw [htake, String.length_toList, hn, List.take_succ_cons, List.tail_cons] at htail
  rw [hn]
  exact htail

/-- An atom that begins where a token begins. -/
theorem Follows.start (hspace : classes.isSpace c = false) (hcomment : NoComment c rest)
    (hscanned : Scanned classes c rest length kind) :
    Closed c rest ∧ Follows classes (length - 1) ((charKind classes c).more classes rest) rest := by
  have hrun {p : Char → Bool} : runLength p rest - 1 = (rest.takeWhile p).length := by
    rw [runLength, Nat.add_sub_cancel_left]
  cases hscanned with
  | string hc hrest =>
    obtain ⟨hcloses, htail⟩ := stringCloses_of_stringRest hrest
    have hkind : charKind classes c = .string := by
      subst hc
      simp [charKind, hspace]
    rw [hkind, Nat.add_sub_cancel_left, ← htail]
    exact ⟨⟨hcomment, fun _ => hcloses⟩, .same _ _⟩
  | escaped hc =>
    have hkind : charKind classes c = .escaped := by
      subst hc
      simp [charKind, hspace]
    rw [hkind, hrun]
    exact ⟨⟨hcomment, fun h => by simp [hc] at h⟩, .same _ _⟩
  | name hquote hbackslash hc =>
    have hkind : charKind classes c = .word := by
      unfold charKind
      grind [Verilog.wordStart]
    rw [hkind, hrun]
    exact ⟨⟨hcomment, fun h => absurd h hquote⟩, .same _ _⟩
  | number hquote hbackslash =>
    rw [hrun]
    exact ⟨⟨hcomment, fun h => absurd h hquote⟩,
      .of_number (fun h => hquote (Verilog.charKind_eq_string h))
        (fun h => hbackslash (Verilog.charKind_eq_escaped h)) Verilog.charKind_ne_comment.1
        Verilog.charKind_ne_comment.2⟩
  | operator hquote hbackslash hname hnumber hitem =>
    have hmore : (charKind classes c).more classes rest = 0 := by
      rcases charKind_of_special hquote hbackslash hspace hname hnumber with h | h <;> rw [h] <;> rfl
    have hbegins := List.find?_some hitem
    rw [hmore]
    exact ⟨⟨hcomment, fun h => absurd h hquote⟩,
      .operator (mem_operatorRest (List.mem_of_find?_eq_some hitem) hbegins)⟩
  | symbol hquote hbackslash hname hnumber =>
    have hmore : (charKind classes c).more classes rest = 0 := by
      rcases charKind_of_special hquote hbackslash hspace hname hnumber with h | h <;> rw [h] <;> rfl
    rw [hmore]
    exact ⟨⟨hcomment, fun h => absurd h hquote⟩, .same _ _⟩

theorem isSpace_of_charKind_ne (h : charKind classes c ≠ .space) : classes.isSpace c = false := by
  by_contra hspace
  exact h (by simp [charKind, hspace])

theorem Follows.isSpace_inside (hlawful : classes.Lawful)
    (h : Follows classes (skip + 1) 0 (c :: rest)) : classes.isSpace c = false := by
  cases h with
  | number hskip =>
    have hc := (length_takeWhile_cons hskip).1
    by_contra hspace
    have halnum := hlawful.not_isSpace_of_isAlnum c
    have hne {d : Char} := Verilog.ne_of_isSpace (d := d) hlawful (by simpa using hspace)
    have hunder : c ≠ '_' := hne (by decide) (by decide)
    have hquote : c ≠ '\'' := hne (by decide) (by decide)
    have hmark : c ≠ '?' := hne (by decide) (by decide)
    grind [numberChar]
  | operator hrest =>
    rw [List.take_succ_cons] at hrest
    obtain ⟨-, -, hkind⟩ := symbol_of_mem_operatorRest hlawful (List.forall_mem_cons.mp hrest).1
    exact isSpace_of_charKind_ne (by rw [hkind]; decide)
  | name _ hle => exact absurd hle (Nat.not_succ_le_zero _)

/-- The characters of tokens. -/
def textsOf (tokens : List Token) : List Char := tokens.flatMap (·.text.toList)

/-- Text that the lexer reads has no comments and no open strings, and its tokens consist of the
same characters as the atoms of the language. -/
theorem aligned_of_lexFrom (hlawful : classes.Lawful)
    (h : lexFrom classes skip index chars = .ok tokens)
    (hfollows : Follows classes skip atomSkip chars) :
    Sound classes atomSkip chars ∧ chars.take skip ++ textsOf tokens =
      chars.take atomSkip ++
        (solid (atoms classes atomSkip index chars)).flatMap Verilog.Token.text := by
  induction chars generalizing skip atomSkip index tokens with
  | nil =>
    obtain rfl := Except.ok.inj h
    exact ⟨trivial, by simp [textsOf, atoms, solid]⟩
  | cons c rest ih =>
    -- an atom begins at `c`, and both go on behind it
    have hatom {skip : ℕ} {tokens : List Token}
        (h : lexFrom classes skip (index + 1) rest = .ok tokens) (hclosed : Closed c rest)
        (hfollows : Follows classes skip ((charKind classes c).more classes rest) rest) :
        Sound classes 0 (c :: rest) := by
      refine ⟨hclosed, ?_⟩
      rw [Verilog.atomKind_of_closed hclosed]
      exact (ih h hfollows).1
    have hsolid {skip : ℕ} {tokens : List Token}
        (h : lexFrom classes skip (index + 1) rest = .ok tokens) (hclosed : Closed c rest)
        (hspace : classes.isSpace c = false)
        (hfollows : Follows classes skip ((charKind classes c).more classes rest) rest) :
        c :: (rest.take skip ++ textsOf tokens) =
          (solid (atoms classes 0 index (c :: rest))).flatMap Verilog.Token.text := by
      rw [(ih h hfollows).2, Verilog.solid_of_closed hclosed hspace, List.flatMap_cons,
        List.cons_append]
    -- the characters of a token that begins at `c`
    have htoken {length : ℕ} {kind : TokenKind} {more : List Token}
        (hscanned : Scanned classes c rest length kind) :
        textsOf (⟨String.ofList ((c :: rest).take length), index, index + length, kind⟩ :: more) =
          c :: (rest.take (length - 1) ++ textsOf more) := by
      obtain ⟨n, rfl⟩ := Nat.exists_eq_add_of_le' hscanned.one_le
      simp [textsOf]
    cases skip with
    | succ skip =>
      cases atomSkip with
      | succ atomSkip =>
        obtain ⟨hsound, htexts⟩ := @ih skip _ _ _ h hfollows.tail
        refine ⟨hsound, ?_⟩
        rw [List.take_succ_cons, List.take_succ_cons, List.cons_append, List.cons_append, htexts]
        rfl
      | zero =>
        obtain ⟨hclosed, hrest⟩ := hfollows.inside hlawful
        have hspace := hfollows.isSpace_inside hlawful
        exact ⟨@hatom skip _ h hclosed hrest, @hsolid skip _ h hclosed hspace hrest⟩
    | zero =>
      cases atomSkip with
      | zero =>
        rcases lexFrom_cons h with
          ⟨hspace, hrest⟩ | ⟨length, kind, more, hspace, hcomment, hscanned, hrest, rfl⟩
        · have hne {d : Char} := Verilog.ne_of_isSpace (d := d) hlawful hspace
          have hkind : charKind classes c = .space := by simp [charKind, hspace]
          have hclosed : Closed c rest :=
            closed_of_ne (hne (by decide) (by decide)) (hne (by decide) (by decide))
          refine ⟨hatom hrest hclosed ?_, ?_⟩
          · rw [hkind]
            exact .same _ _
          · rw [Verilog.atoms_of_closed hclosed, Verilog.solid_cons, hkind]
            exact (ih hrest (.same 0 rest)).2
        · obtain ⟨hclosed, hnext⟩ := Follows.start hspace hcomment hscanned
          exact ⟨hatom hrest hclosed hnext,
            (htoken hscanned).trans (hsolid hrest hclosed hspace hnext)⟩
      | succ atomSkip =>
        -- the atoms are inside a name, at the dollar where the lexer begins one
        cases hfollows with
        | number _ hle => exact absurd hle (Nat.not_succ_le_zero _)
        | name hskip hle hdollar =>
          obtain ⟨-, rfl⟩ := length_takeWhile_cons hskip
          obtain rfl : c = '$' := Option.some.inj (hdollar (Nat.zero_lt_succ _))
          rcases lexFrom_cons h with
            ⟨hspace, -⟩ | ⟨length, kind, more, hspace, hcomment, hscanned, hrest, rfl⟩
          · rw [hlawful.isSpace_of_lt _ (by decide)] at hspace
            cases hspace
          · have hkind : charKind classes '$' = .word := charKind_of_lt hlawful (by decide) rfl
            obtain ⟨-, hnext⟩ := Follows.start hspace hcomment hscanned
            rw [hkind] at hnext
            obtain ⟨hsound, htexts⟩ := ih hrest hnext
            refine ⟨hsound, (htoken hscanned).trans ?_⟩
            rw [htexts]
            rfl

/-- The atoms and the tokens of text that the lexer reads consist of the same characters. -/
theorem textsOf_eq (hlawful : classes.Lawful) (h : lexFrom classes 0 index chars = .ok tokens) :
    textsOf tokens = (Verilog.tokenTexts classes chars).flatten := by
  have htexts := (aligned_of_lexFrom hlawful h (.same 0 chars)).2
  rw [List.take_zero, List.nil_append, List.nil_append] at htexts
  rw [htexts, ← @Verilog.tokensAt_texts _ _ index, ← List.flatMap_def, Verilog.tokensAt,
    Verilog.group_texts, List.drop_zero]

end NovaRtl.PriorityMux
