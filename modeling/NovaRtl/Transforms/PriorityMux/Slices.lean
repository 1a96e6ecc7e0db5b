import Mathlib.Order.Nat
import NovaRtl.Transforms.PriorityMux.Parser

/-!
# Slices of the source

The expressions of a chain are slices of its source, from the first to the last token of a part of
the token list. `lexFrom_slice` says that such a slice has the tokens of that part, and
`sliceText_eq` that `strip` removes nothing from it.
-/

namespace NovaRtl.PriorityMux

open Text

variable {classes : CharClasses} {c : Char} {rest u v chars : List Char}
variable {skip index length : ℕ} {kind : TokenKind} {tokens before after : List Token} {t : Token}

variable (classes) in
/-- What `scan` finds at a character that begins a token. -/
inductive Scanned (c : Char) (rest : List Char) : ℕ → TokenKind → Prop where
  | string {n : ℕ} (hc : c = '"') (hrest : stringRest rest = some n) :
      Scanned c rest (1 + n) .string
  | escaped (hc : c = '\\') :
      Scanned c rest (runLength (fun c => !classes.isSpace c) rest) .identifier
  | name (hquote : c ≠ '"') (hbackslash : c ≠ '\\') (hc : c = '$' ∨ classes.isAlpha c ∨ c = '_') :
      Scanned c rest (runLength (fun c => classes.isAlnum c || c = '_' || c = '$') rest) .identifier
  | number (hquote : c ≠ '"') (hbackslash : c ≠ '\\')
      (hname : ¬ (c = '$' ∨ classes.isAlpha c ∨ c = '_')) (hc : classes.isDigit c ∨ c = '\'') :
      Scanned c rest
        (runLength (fun c => classes.isAlnum c || c = '_' || c = '\'' || c = '?') rest) .number
  | operator {item : String} (hquote : c ≠ '"') (hbackslash : c ≠ '\\')
      (hname : ¬ (c = '$' ∨ classes.isAlpha c ∨ c = '_'))
      (hnumber : ¬ (classes.isDigit c ∨ c = '\''))
      (hitem : doubleOperators.find? (fun item => item.toList.isPrefixOf (c :: rest)) = some item) :
      Scanned c rest item.length .operator
  | symbol (hquote : c ≠ '"') (hbackslash : c ≠ '\\')
      (hname : ¬ (c = '$' ∨ classes.isAlpha c ∨ c = '_'))
      (hnumber : ¬ (classes.isDigit c ∨ c = '\''))
      (hitem : doubleOperators.find? (fun item => item.toList.isPrefixOf (c :: rest)) = none)
      (hc : c ∈ symbols) :
      Scanned c rest 1 .symbol

/-- No comment begins at the character. -/
def NoComment (c : Char) (rest : List Char) : Prop :=
  ¬ (c = '/' ∧ (rest.head? = some '/' ∨ rest.head? = some '*'))

theorem scan_eq_none (h : scan classes c rest = .ok none) : classes.isSpace c := by
  unfold scan at h
  repeat' split at h
  all_goals first
    | assumption
    | cases h

theorem scan_eq_some :
    scan classes c rest = .ok (some (length, kind)) ↔
      classes.isSpace c = false ∧ NoComment c rest ∧ Scanned classes c rest length kind := by
  constructor
  · intro h
    unfold scan at h
    split at h
    · cases h
    next hspace =>
    split at h
    · cases h
    next hcomment =>
    refine ⟨by simpa using hspace, hcomment, ?_⟩
    split at h
    next hquote =>
      split at h
      next n hrest =>
        cases h
        exact .string hquote hrest
      · cases h
    next hquote =>
    split at h
    next hbackslash =>
      cases h
      exact .escaped hbackslash
    next hbackslash =>
    split at h
    next hname =>
      cases h
      exact .name hquote hbackslash hname
    next hname =>
    split at h
    next hnumber =>
      cases h
      exact .number hquote hbackslash hname hnumber
    next hnumber =>
    split at h
    next item hitem =>
      cases h
      exact .operator hquote hbackslash hname hnumber hitem
    next hitem =>
      split at h
      next hsymbol =>
        cases h
        exact .symbol hquote hbackslash hname hnumber hitem hsymbol
      · cases h
  · rintro ⟨hspace, hcomment, hscanned⟩
    unfold scan
    rw [if_neg (by simp [hspace]), if_neg hcomment]
    cases hscanned with
    | string hc hrest => rw [if_pos hc, hrest]
    | escaped hc => rw [if_neg (by rw [hc]; decide), if_pos hc]
    | name hquote hbackslash hc => rw [if_neg hquote, if_neg hbackslash, if_pos hc]
    | number hquote hbackslash hname hc =>
      rw [if_neg hquote, if_neg hbackslash, if_neg hname, if_pos hc]
    | operator hquote hbackslash hname hnumber hitem =>
      rw [if_neg hquote, if_neg hbackslash, if_neg hname, if_neg hnumber, hitem]
    | symbol hquote hbackslash hname hnumber hitem hc =>
      rw [if_neg hquote, if_neg hbackslash, if_neg hname, if_neg hnumber, hitem]
      exact if_pos hc

theorem one_le_of_mem_doubleOperators {item : String} (h : item ∈ doubleOperators) :
    1 ≤ item.length := by
  have hall : doubleOperators.Forall fun item => 1 ≤ item.length := by decide
  exact List.forall_iff_forall_mem.mp hall item h

theorem Scanned.one_le (h : Scanned classes c rest length kind) : 1 ≤ length := by
  cases h with
  | string | escaped | name | number => exact Nat.le_add_right _ _
  | operator _ _ _ _ hitem => exact one_le_of_mem_doubleOperators (List.mem_of_find?_eq_some hitem)
  | symbol => exact le_rfl

/-- What the lexer does at a character that no earlier token covers. -/
theorem lexFrom_cons (h : lexFrom classes 0 index (c :: rest) = .ok tokens) :
    (classes.isSpace c ∧ lexFrom classes 0 (index + 1) rest = .ok tokens) ∨
    ∃ length kind more, classes.isSpace c = false ∧ NoComment c rest ∧
      Scanned classes c rest length kind ∧
      lexFrom classes (length - 1) (index + 1) rest = .ok more ∧
      tokens = ⟨String.ofList ((c :: rest).take length), index, index + length, kind⟩ :: more := by
  obtain ⟨scanned, hscan, h⟩ := bind_eq_ok.mp h
  cases scanned with
  | none => exact .inl ⟨scan_eq_none hscan, h⟩
  | some scanned =>
    obtain ⟨hspace, hcomment, hscanned⟩ := scan_eq_some.mp hscan
    obtain ⟨more, hmore, htokens⟩ := bind_eq_ok.mp h
    exact .inr ⟨_, _, more, hspace, hcomment, hscanned, hmore, (Except.ok.inj htokens).symm⟩

/-! ## Lengths -/

theorem stringRest_le {n : ℕ} (h : stringRest rest = some n) : n ≤ rest.length := by
  induction rest using stringRest.induct generalizing n with
  | case1 => cases h
  | case2 rest =>
    obtain rfl := Option.some.inj h
    exact Nat.succ_le_succ (Nat.zero_le _)
  | case3 => cases h
  | case4 d rest ih =>
    obtain ⟨m, hm, rfl⟩ := Option.map_eq_some_iff.mp h
    exact Nat.succ_le_succ (Nat.succ_le_succ (ih hm))
  | case5 d rest hquote hsingle hmore ih =>
    rw [stringRest.eq_5 d rest hquote hsingle hmore] at h
    obtain ⟨m, hm, rfl⟩ := Option.map_eq_some_iff.mp h
    exact Nat.succ_le_succ (ih hm)

theorem runLength_le {p : Char → Bool} : runLength p rest ≤ rest.length + 1 := by
  have hle := (List.takeWhile_sublist p (l := rest)).length_le
  rw [runLength]
  omega

theorem Scanned.le (h : Scanned classes c rest length kind) : length ≤ rest.length + 1 := by
  cases h with
  | string _ hrest =>
    have := stringRest_le hrest
    omega
  | escaped | name | number => exact runLength_le
  | operator _ _ _ _ hitem =>
    have hprefix := List.find?_some hitem
    exact (List.isPrefixOf_iff_prefix.mp hprefix).length_le
  | symbol => exact Nat.succ_le_succ (Nat.zero_le _)

/-- The tokens of a text are in order and inside it. -/
theorem lexFrom_ordered (h : lexFrom classes skip index chars = .ok tokens) :
    tokens.Pairwise (fun a b => a.end_ ≤ b.start) ∧ ∀ t ∈ tokens,
      index + skip ≤ t.start ∧ t.start < t.end_ ∧ t.end_ ≤ index + chars.length := by
  induction chars generalizing skip index tokens with
  | nil =>
    obtain rfl := Except.ok.inj h
    exact ⟨.nil, nofun⟩
  | cons c rest ih =>
    rw [List.length_cons]
    cases skip with
    | succ skip =>
      obtain ⟨hpairwise, hbounds⟩ := @ih skip (index + 1) _ h
      refine ⟨hpairwise, fun t ht => ?_⟩
      have := hbounds t ht
      omega
    | zero =>
      rcases lexFrom_cons h with ⟨-, hrest⟩ | ⟨length, kind, more, -, -, hscanned, hrest, rfl⟩
      · obtain ⟨hpairwise, hbounds⟩ := ih hrest
        refine ⟨hpairwise, fun t ht => ?_⟩
        have := hbounds t ht
        omega
      · obtain ⟨hpairwise, hbounds⟩ := ih hrest
        have hone := hscanned.one_le
        have hle := hscanned.le
        refine ⟨.cons (fun t ht => ?_) hpairwise, fun t ht => ?_⟩
        · have := hbounds t ht
          simp only
          omega
        · rcases List.mem_cons.mp ht with rfl | ht
          · simp only
            omega
          · have := hbounds t ht
            omega

/-- The lexer may start at a token. -/
theorem lexFrom_drop (h : lexFrom classes skip index chars = .ok (before ++ t :: after)) :
    lexFrom classes 0 t.start (chars.drop (t.start - index)) = .ok (t :: after) := by
  induction chars generalizing skip index before with
  | nil => simp [lexFrom] at h
  | cons c rest ih =>
    have hlater (hlt : index + 1 ≤ t.start)
        (hrest : lexFrom classes 0 t.start (rest.drop (t.start - (index + 1))) = .ok (t :: after)) :
        lexFrom classes 0 t.start ((c :: rest).drop (t.start - index)) = .ok (t :: after) := by
      obtain ⟨n, hn⟩ := Nat.exists_eq_add_of_le hlt
      rw [show t.start - (index + 1) = n by omega] at hrest
      rw [show t.start - index = n + 1 by omega]
      exact hrest
    have hbound {skip : ℕ} {before : List Token}
        (h : lexFrom classes skip (index + 1) rest = .ok (before ++ t :: after)) :
        index + 1 ≤ t.start := by
      have := (lexFrom_ordered h).2 t (by simp)
      omega
    cases skip with
    | succ skip => exact hlater (@hbound skip _ h) (@ih skip _ _ h)
    | zero =>
      rcases lexFrom_cons h with ⟨-, hrest⟩ | ⟨length, kind, more, -, -, -, hrest, htokens⟩
      · exact hlater (hbound hrest) (ih hrest)
      · cases before with
        | nil =>
          obtain ⟨rfl, rfl⟩ := List.cons.inj htokens
          simpa using h
        | cons first before =>
          obtain ⟨-, rfl⟩ := List.cons.inj htokens
          exact hlater (hbound hrest) (ih hrest)

/-! ## Slices -/

theorem stringRest_cons (hquote : c ≠ '"') (hbackslash : c ≠ '\\') :
    stringRest (c :: rest) = (stringRest rest).map (· + 1) :=
  stringRest.eq_5 c rest (fun h => hquote h) (fun h _ => hbackslash h) fun _ _ h _ => hbackslash h

theorem stringRest_pos {n : ℕ} (h : stringRest rest = some n) : 1 ≤ n := by
  unfold stringRest at h
  split at h
  · cases h
  · obtain rfl := Option.some.inj h
    exact le_rfl
  · cases h
  all_goals
    obtain ⟨m, -, rfl⟩ := Option.map_eq_some_iff.mp h
    omega

theorem stringRest_append {n : ℕ} (h : stringRest (u ++ v) = some n) (hle : n ≤ u.length) :
    stringRest u = some n := by
  induction u using stringRest.induct generalizing n with
  | case1 =>
    have hpos := stringRest_pos h
    exact absurd (hpos.trans hle) (by simp)
  | case2 rest => exact h
  | case3 =>
    cases v with
    | nil => exact h
    | cons d v =>
      obtain ⟨m, -, rfl⟩ := Option.map_eq_some_iff.mp h
      simp at hle
  | case4 d rest ih =>
    obtain ⟨m, hm, rfl⟩ := Option.map_eq_some_iff.mp h
    rw [stringRest, ih hm (Nat.le_of_succ_le_succ (Nat.le_of_succ_le_succ hle))]
    rfl
  | case5 d rest hquote hsingle hmore ih =>
    have hbackslash : d ≠ '\\' := by
      rintro rfl
      cases rest with
      | nil => exact hsingle rfl rfl
      | cons e rest => exact hmore e rest rfl rfl
    rw [List.cons_append, stringRest_cons hquote hbackslash] at h
    obtain ⟨m, hm, rfl⟩ := Option.map_eq_some_iff.mp h
    rw [stringRest_cons hquote hbackslash, ih hm (Nat.le_of_succ_le_succ hle)]
    rfl

theorem runLength_append {p : Char → Bool} (hle : runLength p (u ++ v) ≤ u.length + 1) :
    runLength p (u ++ v) = runLength p u := by
  unfold runLength at hle ⊢
  rw [List.takeWhile_append] at hle ⊢
  split_ifs with hall
  · rw [if_pos hall, List.length_append] at hle
    rw [List.length_append]
    omega
  · rfl

theorem isPrefixOf_of_append {item : List Char} (h : item.isPrefixOf (c :: u)) :
    item.isPrefixOf (c :: (u ++ v)) := by
  rw [List.isPrefixOf_iff_prefix] at h ⊢
  exact h.trans (List.prefix_append (c :: u) v)

theorem find_isPrefixOf_append {item : String}
    (h : doubleOperators.find? (fun item => item.toList.isPrefixOf (c :: (u ++ v))) = some item)
    (hle : item.length ≤ u.length + 1) :
    doubleOperators.find? (fun item => item.toList.isPrefixOf (c :: u)) = some item := by
  rw [List.find?_eq_some_iff_append] at h ⊢
  obtain ⟨hitem, earlier, later, hlist, hearlier⟩ := h
  refine ⟨?_, earlier, later, hlist, fun other hother => ?_⟩
  · rw [List.isPrefixOf_iff_prefix] at hitem ⊢
    exact List.prefix_of_prefix_length_le hitem (List.prefix_append (c :: u) v) hle
  · have hnot := hearlier other hother
    rw [Bool.not_eq_true'] at hnot ⊢
    exact Bool.eq_false_iff.mpr fun hprefix =>
      Bool.eq_false_iff.mp hnot (isPrefixOf_of_append hprefix)

/-- A token that ends before a place does not depend on what follows the place. -/
theorem Scanned.of_append (h : Scanned classes c (u ++ v) length kind)
    (hle : length ≤ u.length + 1) : Scanned classes c u length kind := by
  cases h with
  | string hc hrest => exact .string hc (stringRest_append hrest (by omega))
  | escaped hc =>
    rw [runLength_append hle]
    exact .escaped hc
  | name hquote hbackslash hc =>
    rw [runLength_append hle]
    exact .name hquote hbackslash hc
  | number hquote hbackslash hname hc =>
    rw [runLength_append hle]
    exact .number hquote hbackslash hname hc
  | operator hquote hbackslash hname hnumber hitem =>
    exact .operator hquote hbackslash hname hnumber (find_isPrefixOf_append hitem hle)
  | symbol hquote hbackslash hname hnumber hitem hc =>
    refine .symbol hquote hbackslash hname hnumber ?_ hc
    rw [List.find?_eq_none] at hitem ⊢
    exact fun item hmem hprefix => hitem item hmem (isPrefixOf_of_append hprefix)

theorem NoComment.of_append (h : NoComment c (u ++ v)) : NoComment c u := by
  cases u with
  | nil => simp [NoComment]
  | cons d u => exact h

theorem lexFrom_of_scanned (hspace : classes.isSpace c = false) (hcomment : NoComment c rest)
    (hscanned : Scanned classes c rest length kind)
    (hrest : lexFrom classes (length - 1) (index + 1) rest = .ok tokens) :
    lexFrom classes 0 index (c :: rest) =
      .ok (⟨String.ofList ((c :: rest).take length), index, index + length, kind⟩ :: tokens) := by
  rw [lexFrom, scan_eq_some.mpr ⟨hspace, hcomment, hscanned⟩]
  simp only [hrest, bind, Except.bind, pure, Except.pure]

theorem lexFrom_of_isSpace (hspace : classes.isSpace c) :
    lexFrom classes 0 index (c :: rest) = lexFrom classes 0 (index + 1) rest := by
  rw [lexFrom, scan, if_pos hspace]
  rfl

/-- The tokens that end before a place are those of the text before it. -/
theorem lexFrom_append (h : lexFrom classes skip index (u ++ v) = .ok (before ++ after))
    (hskip : skip ≤ u.length) (hbefore : ∀ t ∈ before, t.end_ ≤ index + u.length)
    (hafter : ∀ t ∈ after, index + u.length ≤ t.start) :
    lexFrom classes skip index u = .ok before := by
  induction u generalizing skip index before with
  | nil =>
    obtain rfl := Nat.le_zero.mp hskip
    cases before with
    | nil => rfl
    | cons t before =>
      have hbounds := (lexFrom_ordered h).2 t (by simp)
      have := hbefore t (by simp)
      rw [List.length_nil] at this
      omega
  | cons c u ih =>
    rw [List.length_cons] at hskip
    have hindex : index + 1 + u.length = index + (c :: u).length := by
      rw [List.length_cons]
      omega
    rw [← hindex] at hbefore hafter
    cases skip with
    | succ skip => exact @ih skip _ _ h (Nat.le_of_succ_le_succ hskip) hbefore hafter
    | zero =>
      rw [List.cons_append] at h
      rcases lexFrom_cons h with
        ⟨hspace, hrest⟩ | ⟨length, kind, more, hspace, hcomment, hscanned, hrest, htokens⟩
      · rw [lexFrom_of_isSpace hspace]
        exact ih hrest (Nat.zero_le _) hbefore hafter
      · cases before with
        | nil =>
          have := hafter _ (htokens ▸ List.mem_cons_self)
          simp only at this
          omega
        | cons t before =>
          obtain ⟨rfl, rfl⟩ := List.cons.inj htokens
          have hend := hbefore _ List.mem_cons_self
          simp only at hend
          have hle : length ≤ u.length + 1 := by omega
          have hmore := ih hrest (by omega) (fun t ht => hbefore t (List.mem_cons_of_mem _ ht))
            hafter
          rw [lexFrom_of_scanned hspace hcomment.of_append (hscanned.of_append hle) hmore,
            ← List.cons_append, List.take_append_of_le_length (by simpa using hle)]

variable {source : String} {part : List Token} {first last : Token}

/-- The text from the first token to the last one. -/
def slice (source : String) (first last : Token) : List Char :=
  (source.toList.drop first.start).take (last.end_ - first.start)

/-- The slice of consecutive tokens has these tokens. -/
theorem lexFrom_slice (hlex : lex classes source = .ok (before ++ part ++ after))
    (hfirst : part.head? = some first) (hlast : part.getLast? = some last) :
    lexFrom classes 0 first.start (slice source first last) = .ok part ∧
      first.start + (slice source first last).length = last.end_ := by
  obtain ⟨inner, rfl⟩ := List.getLast?_eq_some_iff.mp hlast
  obtain ⟨more, hmore⟩ := List.head?_eq_some_iff.mp hfirst
  rw [hmore] at hlex ⊢
  have hdrop : lexFrom classes 0 first.start (source.toList.drop first.start) =
      .ok ((first :: more) ++ after) := by
    rw [List.append_assoc] at hlex
    exact lexFrom_drop hlex
  obtain ⟨hpairwise, hbounds⟩ := lexFrom_ordered hdrop
  rw [← hmore] at hpairwise hbounds
  have hlastBounds := hbounds last (by simp)
  -- the last token ends inside the source and no other token reaches beyond it
  have hlength : (slice source first last).length = last.end_ - first.start := by
    rw [slice, List.length_take]
    omega
  have hend : first.start + (slice source first last).length = last.end_ := by
    rw [hlength]
    omega
  refine ⟨?_, hend⟩
  have hsplit : slice source first last ++
      (source.toList.drop first.start).drop (last.end_ - first.start) =
        source.toList.drop first.start := List.take_append_drop _ _
  rw [← hsplit] at hdrop
  refine lexFrom_append hdrop (Nat.zero_le _) (fun t ht => ?_) fun t ht => ?_
  · rw [hend]
    rw [← hmore, List.mem_append, List.mem_singleton] at ht
    rcases ht with ht | rfl
    · have hbefore := (List.pairwise_append.mp (List.pairwise_append.mp hpairwise).1).2.2 t ht last
        (List.mem_singleton_self _)
      omega
    · exact le_rfl
  · rw [hend]
    exact (List.pairwise_append.mp hpairwise).2.2 last (by simp) t ht

/-! ## White space around a slice -/

theorem strip_eq_self {text : List Char} (hhead : ∀ c ∈ text.head?, classes.isSpace c = false)
    (hlast : ∀ c ∈ text.getLast?, classes.isSpace c = false) : strip classes text = text := by
  have hkeep {text : List Char} (hhead : ∀ c ∈ text.head?, classes.isSpace c = false) :
      text.dropWhile classes.isSpace = text := by
    cases text with
    | nil => rfl
    | cons c rest => exact List.dropWhile_cons_of_neg (by simp [hhead c rfl])
  rw [strip, hkeep hhead, hkeep (by simpa using hlast), List.reverse_reverse]

theorem getLast_stringRest {n : ℕ} (h : stringRest rest = some n) :
    (rest.take n).getLast? = some '"' := by
  -- a nonempty rest decides on the last character
  have hcons {d : Char} {m : ℕ} {rest : List Char} (h : (rest.take m).getLast? = some '"') :
      ((d :: rest).take (m + 1)).getLast? = some '"' := by
    obtain ⟨init, hinit⟩ := List.getLast?_eq_some_iff.mp h
    rw [List.take_succ_cons, hinit]
    exact List.getLast?_eq_some_iff.mpr ⟨d :: init, rfl⟩
  induction rest using stringRest.induct generalizing n with
  | case1 => cases h
  | case2 rest =>
    obtain rfl := Option.some.inj h
    rfl
  | case3 => cases h
  | case4 d rest ih =>
    obtain ⟨m, hm, rfl⟩ := Option.map_eq_some_iff.mp h
    exact hcons (hcons (ih hm))
  | case5 d rest hquote hsingle hmore ih =>
    rw [stringRest.eq_5 d rest hquote hsingle hmore] at h
    obtain ⟨m, hm, rfl⟩ := Option.map_eq_some_iff.mp h
    exact hcons (ih hm)

theorem take_runLength {p : Char → Bool} :
    (c :: rest).take (runLength p rest) = c :: rest.takeWhile p := by
  rw [runLength, Nat.add_comm, List.take_succ_cons,
    ← List.prefix_iff_eq_take.mp (List.takeWhile_prefix p)]

theorem isSpace_of_mem_doubleOperators (hlawful : classes.Lawful) {item : String} {d : Char}
    (hitem : item ∈ doubleOperators) (hd : d ∈ item.toList) : classes.isSpace d = false := by
  have hall : doubleOperators.Forall fun item =>
      item.toList.Forall fun d => d.toNat < 128 ∧ CharClasses.ascii.isSpace d = false := by decide
  have hascii := List.forall_iff_forall_mem.mp (List.forall_iff_forall_mem.mp hall item hitem) d hd
  exact (hlawful.isSpace_of_lt d hascii.1).trans hascii.2

theorem isSpace_of_run (hlawful : classes.Lawful) {d e : Char} (he : e.toNat < 128)
    (hspace : CharClasses.ascii.isSpace e = false) (hd : d = e) : classes.isSpace d = false := by
  rw [hd, hlawful.isSpace_of_lt e he, hspace]

/-- A token does not end in white space. -/
theorem Scanned.getLast (hlawful : classes.Lawful) (hspace : classes.isSpace c = false)
    (h : Scanned classes c rest length kind) :
    ∀ d ∈ ((c :: rest).take length).getLast?, classes.isSpace d = false := by
  have hrun {p : Char → Bool} (hp : ∀ d, p d → classes.isSpace d = false) :
      ∀ d ∈ ((c :: rest).take (runLength p rest)).getLast?, classes.isSpace d = false := by
    rw [take_runLength]
    intro d hd
    rcases List.mem_cons.mp (List.mem_of_getLast? hd) with rfl | hd
    · exact hspace
    · exact hp d (List.mem_takeWhile_imp hd)
  cases h with
  | string hc hrest =>
    intro d hd
    have hlast := getLast_stringRest hrest
    obtain ⟨init, hinit⟩ := List.getLast?_eq_some_iff.mp hlast
    rw [Nat.add_comm, List.take_succ_cons, hinit, ← List.cons_append,
      List.getLast?_concat] at hd
    exact isSpace_of_run hlawful (by decide) (by decide) (Option.some.inj hd).symm
  | escaped => exact hrun fun d hd => by simpa using hd
  | name =>
    refine hrun fun d hd => ?_
    simp only [Bool.or_eq_true, decide_eq_true_eq] at hd
    rcases hd with (hd | hd) | hd
    · exact hlawful.not_isSpace_of_isAlnum d hd
    all_goals exact isSpace_of_run hlawful (by decide) (by decide) hd
  | number =>
    refine hrun fun d hd => ?_
    simp only [Bool.or_eq_true, decide_eq_true_eq] at hd
    rcases hd with ((hd | hd) | hd) | hd
    · exact hlawful.not_isSpace_of_isAlnum d hd
    all_goals exact isSpace_of_run hlawful (by decide) (by decide) hd
  | operator _ _ _ _ hitem =>
    intro d hd
    have hprefix := List.find?_some hitem
    have htake := List.prefix_iff_eq_take.mp (List.isPrefixOf_iff_prefix.mp hprefix)
    rw [String.length_toList] at htake
    rw [← htake] at hd
    exact isSpace_of_mem_doubleOperators hlawful (List.mem_of_find?_eq_some hitem)
      (List.mem_of_getLast? hd)
  | symbol =>
    intro d hd
    obtain rfl : c = d := by simpa using hd
    exact hspace

theorem getLast_of_lexFrom (hlawful : classes.Lawful)
    (h : lexFrom classes 0 index chars = .ok (before ++ [t])) (hend : index + chars.length = t.end_) :
    ∀ d ∈ chars.getLast?, classes.isSpace d = false := by
  have hbounds := (lexFrom_ordered h).2 t (by simp)
  have hdrop := lexFrom_drop h
  have hlast : (chars.drop (t.start - index)).getLast? = chars.getLast? := by
    rw [List.getLast?_drop, if_neg (by omega)]
  rw [← hlast]
  have hlength : (chars.drop (t.start - index)).length = t.end_ - t.start := by
    rw [List.length_drop]
    omega
  generalize chars.drop (t.start - index) = chars at hdrop hlength ⊢
  cases chars with
  | nil => nofun
  | cons c rest =>
    rcases lexFrom_cons hdrop with ⟨-, hrest⟩ | ⟨length, kind, more, hspace, -, hscanned, -, ht⟩
    · have := (lexFrom_ordered hrest).2 t (by simp)
      omega
    · obtain ⟨ht, -⟩ := List.cons.inj ht
      have hall : (c :: rest).length = length := by
        rw [hlength, ht]
        simp
      have hlast := hscanned.getLast hlawful hspace
      rw [← hall, List.take_length] at hlast
      exact hlast

theorem sliceText_eq (hlawful : classes.Lawful)
    (hlex : lex classes source = .ok (before ++ part ++ after))
    (hfirst : part.head? = some first) (hlast : part.getLast? = some last) :
    (sliceText classes source first last).toList = slice source first last := by
  obtain ⟨hslice, hend⟩ := lexFrom_slice hlex hfirst hlast
  rw [sliceText, String.toList_ofList]
  refine strip_eq_self (fun c hc => ?_) ?_
  · obtain ⟨rest, hrest⟩ := List.head?_eq_some_iff.mp hc
    obtain ⟨more, rfl⟩ := List.head?_eq_some_iff.mp hfirst
    rw [slice] at hslice
    rw [hrest] at hslice
    rcases lexFrom_cons hslice with ⟨-, hrest⟩ | ⟨_, _, _, hspace, -⟩
    · have := (lexFrom_ordered hrest).2 first List.mem_cons_self
      omega
    · exact hspace
  · obtain ⟨inner, rfl⟩ := List.getLast?_eq_some_iff.mp hlast
    exact getLast_of_lexFrom hlawful hslice hend

end NovaRtl.PriorityMux
