import NovaRtl.Verilog.Boundaries

/-!
# Tokens at boundaries

If what follows a boundary begins with an atom that is never joined to another one, the tokens of a
text are those of its two parts (`tokensAt_append`). A separator is such an atom
(`Separator.tokensAt_eq`).
-/

namespace Verilog

open Text

variable {classes : CharClasses} {c h : Char} {rest u v w : List Char} {skip index : ℕ}
variable {kind : Kind}

/-! ## Tokens of several atoms -/

/-- An atom of the kind may be joined to an earlier one. -/
def Kind.joins (kind : Kind) : Bool := kind ∈ [.symbol, .number]

/-- The first atom is never joined to an earlier one. -/
def Apart (ts : List Token) : Prop := ∀ t ∈ ts.head?, t.kind.joins = false

variable {t : Token} {ts more before after : List Token}

theorem apart_cons : Apart (t :: ts) ↔ t.kind.joins = false := by
  simp [Apart]

theorem operatorTail_append (hmore : Apart more) :
    operatorTail t (ts ++ more) = operatorTail t ts := by
  have hrun : (ts ++ more).takeWhile (·.kind = .symbol) = ts.takeWhile (·.kind = .symbol) := by
    cases more with
    | nil => rw [List.append_nil]
    | cons next more =>
      have hkind : next.kind ≠ .symbol := by
        intro hsymbol
        have := apart_cons.mp hmore
        rw [hsymbol] at this
        cases this
      rw [List.takeWhile_append, List.takeWhile_cons_of_neg (by simpa using hkind), List.append_nil]
      split_ifs with hall
      · exact ((List.takeWhile_sublist _).eq_of_length hall).symm
      · rfl
  rw [operatorTail, operatorTail, hrun]

theorem pointTail_append (hmore : Apart more) : pointTail (ts ++ more) = pointTail ts := by
  cases ts with
  | nil =>
    cases more with
    | nil => rfl
    | cons point more =>
      have hkind := apart_cons.mp hmore
      cases more <;> grind [pointTail, Kind.joins]
  | cons point ts =>
    cases ts with
    | cons digits ts => rfl
    | nil =>
      cases more with
      | nil => rfl
      | cons digits more =>
        have hkind := apart_cons.mp hmore
        grind [pointTail, Kind.joins]

theorem signTail_append {last : Token} (hmore : Apart more) :
    signTail last (ts ++ more) = signTail last ts := by
  cases ts with
  | nil =>
    cases more with
    | nil => rfl
    | cons sign more =>
      have hkind := apart_cons.mp hmore
      cases more <;> grind [signTail, Kind.joins]
  | cons sign ts =>
    cases ts with
    | cons digits ts => rfl
    | nil =>
      cases more with
      | nil => rfl
      | cons digits more =>
        have hkind := apart_cons.mp hmore
        grind [signTail, Kind.joins]

theorem pointTail_le : pointTail ts ≤ ts.length := by
  unfold pointTail
  split
  · split_ifs <;> simp
  · exact Nat.zero_le _

theorem signTail_le {last : Token} : signTail last ts ≤ ts.length := by
  unfold signTail
  split
  · split_ifs <;> simp
  · exact Nat.zero_le _

theorem numberTail_append (hmore : Apart more) :
    numberTail t (ts ++ more) = numberTail t ts := by
  have hle := @pointTail_le ts
  have hlast : (t :: (ts ++ more)).getD (pointTail ts) t = (t :: ts).getD (pointTail ts) t := by
    rw [← List.cons_append, List.getD_eq_getElem?_getD, List.getD_eq_getElem?_getD,
      List.getElem?_append_left (by simpa using Nat.lt_succ_of_le hle)]
  rw [numberTail, numberTail, pointTail_append hmore]
  simp only [hlast, List.drop_append_of_le_length hle, signTail_append hmore]

theorem tail_append (hmore : Apart more) : tail t (ts ++ more) = tail t ts := by
  unfold tail
  split
  · exact operatorTail_append hmore
  · exact numberTail_append hmore
  · rfl

theorem operatorTail_le : operatorTail t ts ≤ ts.length := by
  simp only [operatorTail]
  split
  next operator hfind =>
    have hprefix := List.find?_some hfind
    have hle := (List.isPrefixOf_iff_prefix.mp hprefix).length_le
    have hrun := (List.takeWhile_sublist (·.kind = .symbol) (l := ts)).length_le
    simp only [List.length_map, List.length_cons] at hle
    omega
  next => exact Nat.zero_le _

theorem numberTail_le : numberTail t ts ≤ ts.length := by
  have hpoint := @pointTail_le ts
  have hsign := @signTail_le (ts.drop (pointTail ts)) ((t :: ts).getD (pointTail ts) t)
  rw [List.length_drop] at hsign
  simp only [numberTail]
  omega

theorem tail_le : tail t ts ≤ ts.length := by
  unfold tail
  split
  · exact operatorTail_le
  · exact numberTail_le
  · exact Nat.zero_le _

theorem group_append (hskip : skip ≤ before.length) (hafter : Apart after) :
    group skip (before ++ after) = group skip before ++ group 0 after := by
  induction before generalizing skip with
  | nil =>
    obtain rfl := Nat.le_zero.mp hskip
    rfl
  | cons t before ih =>
    cases skip with
    | succ skip => exact ih (Nat.le_of_succ_le_succ hskip)
    | zero =>
      rw [List.cons_append, group, group]
      split_ifs with hseparates
      · exact ih (Nat.zero_le _)
      · simp only [tail_append hafter, List.take_append_of_le_length tail_le, ih tail_le,
          List.cons_append]

theorem tail_of_not_joins (hkind : t.kind.joins = false) : tail t ts = 0 := by
  unfold tail
  split
  next hsymbol => simp [Kind.joins, hsymbol] at hkind
  next hnumber => simp [Kind.joins, hnumber] at hkind
  next => rfl

theorem group_of_apart (hkind : t.kind.joins = false) :
    group 0 (t :: ts) = group 0 [t] ++ group 0 ts := by
  simp only [group, tail_of_not_joins hkind, List.take_zero, List.flatMap_nil, List.append_nil]
  split_ifs <;> rfl

theorem group_singleton (hsolid : t.kind.separates = false) : group 0 [t] = [t] := by
  have htail : tail t [] = 0 := Nat.le_zero.mp tail_le
  simp [group, hsolid, htail]

/-! ## Positions -/

def Token.shift (n : ℕ) (t : Token) : Token := { t with start := t.start + n }

@[simp] theorem Token.shift_kind (n : ℕ) (t : Token) : (t.shift n).kind = t.kind := rfl

@[simp] theorem Token.shift_text (n : ℕ) (t : Token) : (t.shift n).text = t.text := rfl

theorem atoms_shift (n : ℕ) :
    atoms classes skip (index + n) u = (atoms classes skip index u).map (Token.shift n) := by
  induction u generalizing skip index with
  | nil => rfl
  | cons c u ih =>
    have hindex : index + n + 1 = index + 1 + n := by omega
    cases skip with
    | succ skip =>
      rw [atoms, atoms, hindex]
      exact ih
    | zero =>
      rw [atoms, atoms, hindex]
      exact congrArg _ ih

theorem tail_shift (n : ℕ) : tail (t.shift n) (ts.map (Token.shift n)) = tail t ts := by
  have hpoint (ts : List Token) : pointTail (ts.map (Token.shift n)) = pointTail ts := by
    match ts with
    | [] | [_] | _ :: _ :: _ => rfl
  have hsign (last : Token) (ts : List Token) :
      signTail (last.shift n) (ts.map (Token.shift n)) = signTail last ts := by
    match ts with
    | [] | [_] | _ :: _ :: _ => rfl
  have hnumber : numberTail (t.shift n) (ts.map (Token.shift n)) = numberTail t ts := by
    rw [numberTail, numberTail, hpoint]
    simp only [← List.map_cons, ← List.map_drop]
    rw [List.getD_eq_getElem?_getD, List.getElem?_map, Option.getD_map,
      ← List.getD_eq_getElem?_getD, hsign]
  have hoperator : operatorTail (t.shift n) (ts.map (Token.shift n)) = operatorTail t ts := by
    have hrun : (ts.map (Token.shift n)).takeWhile (·.kind = .symbol) =
        (ts.takeWhile (·.kind = .symbol)).map (Token.shift n) := by
      rw [List.takeWhile_map]
      rfl
    have htexts (ts : List Token) :
        (ts.map (Token.shift n)).map Token.text = ts.map Token.text := by
      rw [List.map_map]
      rfl
    rw [operatorTail, operatorTail, hrun, ← List.map_cons, htexts]
  simp only [tail, Token.shift_kind, hnumber, hoperator]

theorem group_shift (n : ℕ) :
    group skip (ts.map (Token.shift n)) = (group skip ts).map (Token.shift n) := by
  have htexts (ts : List Token) :
      (ts.map (Token.shift n)).flatMap Token.text = ts.flatMap Token.text := by
    rw [List.flatMap_map]
    rfl
  induction ts generalizing skip with
  | nil => rfl
  | cons t ts ih =>
    cases skip with
    | succ skip => exact ih
    | zero =>
      rw [List.map_cons, group, group, Token.shift_kind]
      split_ifs with hseparates
      · exact ih
      · simp only [tail_shift, ← List.map_take, htexts, ih]
        rfl

variable (classes) in
/-- The tokens of a text that begins at `index`. -/
def tokensAt (index : ℕ) (text : List Char) : List Token := group 0 (atoms classes 0 index text)

theorem tokensAt_zero : tokensAt classes 0 u = tokens classes u := rfl

theorem tokensAt_eq : tokensAt classes index u = (tokens classes u).map (Token.shift index) := by
  have hatoms := @atoms_shift classes u 0 0 index
  rw [Nat.zero_add] at hatoms
  rw [tokensAt, hatoms, group_shift]
  rfl

theorem tokensAt_texts : (tokensAt classes index u).map Token.text = tokenTexts classes u := by
  rw [tokensAt_eq, List.map_map]
  rfl

theorem tokensAt_append (h : Boundary classes 0 u v)
    (hv : Apart (atoms classes 0 (index + u.length) v)) :
    tokensAt classes index (u ++ v) =
      tokensAt classes index u ++ tokensAt classes (index + u.length) v := by
  rw [tokensAt, atoms_append h, group_append (Nat.zero_le _) hv]
  rfl

/-- Atoms cover their text. -/
theorem atoms_texts : (atoms classes skip index u).flatMap Token.text = u.drop skip := by
  induction u generalizing skip index with
  | nil => rw [List.drop_nil]; rfl
  | cons c u ih =>
    cases skip with
    | succ skip => exact ih
    | zero =>
      rw [atoms, List.flatMap_cons, ih, List.drop_zero, List.cons_append,
        List.take_append_drop]

/-- An atom begins where the earlier ones end. -/
theorem start_of_atoms (h : atoms classes skip index u = before ++ t :: after) :
    t.start = index + skip + (before.flatMap Token.text).length := by
  induction u generalizing skip index before with
  | nil => simp [atoms] at h
  | cons c u ih =>
    cases skip with
    | succ skip =>
      have hrest := @ih skip (index + 1) _ h
      omega
    | zero =>
      cases before with
      | nil =>
        obtain ⟨rfl, -⟩ := List.cons.inj h
        rfl
      | cons first before =>
        obtain ⟨rfl, hmore⟩ := List.cons.inj h
        have hrest := ih hmore
        have hle := @more_le classes (atomKind classes c u.head?) u
        simp only [List.flatMap_cons, List.length_append, List.length_cons, List.length_take]
        omega

/-- A token is an atom with what is joined to it. -/
theorem of_mem_group (h : t ∈ group skip ts) :
    ∃ before first after more, ts = before ++ first :: after ∧ first.kind.separates = false ∧
      t = { first with text := first.text ++ (after.take more).flatMap Token.text } := by
  induction ts generalizing skip with
  | nil => cases h
  | cons first ts ih =>
    have hcons {skip : ℕ} (h : t ∈ group skip ts) :
        ∃ before first' after more, first :: ts = before ++ first' :: after ∧
          first'.kind.separates = false ∧
          t = { first' with text := first'.text ++ (after.take more).flatMap Token.text } := by
      obtain ⟨before, first', after, more, rfl, hrest⟩ := ih h
      exact ⟨first :: before, first', after, more, rfl, hrest⟩
    cases skip with
    | succ skip => exact hcons h
    | zero =>
      rw [group] at h
      split_ifs at h with hseparates
      · exact hcons h
      · rcases List.mem_cons.mp h with rfl | h
        · exact ⟨[], first, ts, _, rfl, by simpa using hseparates, rfl⟩
        · exact hcons h

/-- The atoms that belong to tokens. -/
def solid (ts : List Token) : List Token := ts.filter (!·.kind.separates)

theorem solid_cons (t : Token) (ts : List Token) :
    solid (t :: ts) = if t.kind.separates then solid ts else t :: solid ts := by
  rw [solid, List.filter_cons]
  cases t.kind.separates <;> rfl

theorem solid_of_closed (hclosed : Closed c rest) (hspace : classes.isSpace c = false) :
    solid (atoms classes 0 index (c :: rest)) =
      ⟨charKind classes c, c :: rest.take ((charKind classes c).more classes rest), index⟩ ::
        solid (atoms classes ((charKind classes c).more classes rest) (index + 1) rest) := by
  have hkind : (charKind classes c).separates = false := by
    obtain ⟨hline, hblock⟩ := @charKind_ne_comment classes c
    cases h : charKind classes c with
    | space =>
      unfold charKind at h
      simp only [hspace, Bool.false_eq_true, if_false] at h
      split_ifs at h
    | lineComment => exact absurd h hline
    | blockComment => exact absurd h hblock
    | word | escaped | number | literal | string | delimiter | symbol => rfl
  rw [atoms_of_closed hclosed, solid_cons, if_neg (by simp [hkind])]

theorem kind_of_mem_solid (h : t ∈ solid (atoms classes skip index u)) :
    ∃ c more, t.text = c :: more ∧ t.kind = charKind classes c := by
  obtain ⟨hmem, hsolid⟩ := List.mem_filter.mp h
  obtain ⟨c, next, more, htext, hkind⟩ := kind_of_mem_atoms hmem
  rw [hkind] at hsolid
  exact ⟨c, more, htext, hkind.trans (atomKind_of_separates (by simpa using hsolid))⟩

/-- The first token begins with the first solid atom. -/
theorem head_of_group (h : group 0 ts = t :: after) :
    ∃ first rest, solid ts = first :: rest ∧ first.kind = t.kind ∧ first.start = t.start ∧
      first.text <+: t.text := by
  induction ts with
  | nil => cases h
  | cons first ts ih =>
    rw [group] at h
    rw [solid_cons]
    split_ifs at h ⊢ with hseparates
    · exact ih h
    · obtain ⟨rfl, -⟩ := List.cons.inj h
      exact ⟨first, _, rfl, rfl, rfl, List.prefix_append _ _⟩

/-- The solid atom after a token of one atom begins the next token. -/
theorem solid_of_group {next : Token} (h : group skip ts = before ++ t :: next :: after)
    (hkind : t.kind.joins = false) :
    ∃ before' first rest, solid ts = before' ++ t :: first :: rest ∧ first.kind = next.kind ∧
      first.start = next.start ∧ first.text <+: next.text := by
  induction ts generalizing skip before with
  | nil => simp [group] at h
  | cons a ts ih =>
    have hcons {skip : ℕ} {before : List Token}
        (h : group skip ts = before ++ t :: next :: after) :
        ∃ before' first rest, solid (a :: ts) = before' ++ t :: first :: rest ∧
          first.kind = next.kind ∧ first.start = next.start ∧ first.text <+: next.text := by
      obtain ⟨before', first, rest, hsolid, hfirst⟩ := ih h
      rw [solid_cons]
      split_ifs
      · exact ⟨before', first, rest, hsolid, hfirst⟩
      · exact ⟨a :: before', first, rest, congrArg _ hsolid, hfirst⟩
    cases skip with
    | succ skip => exact @hcons skip _ h
    | zero =>
      rw [group] at h
      split_ifs at h with hseparates
      · exact hcons h
      · cases before with
        | cons b before => exact hcons (List.cons.inj h).2
        | nil =>
          obtain ⟨htoken, hrest⟩ := List.cons.inj h
          have hkind' : a.kind.joins = false := by rw [← hkind, ← htoken]
          rw [tail_of_not_joins hkind'] at htoken hrest
          obtain rfl : a = t := by simpa using htoken
          obtain ⟨first, rest, hsolid, hfirst⟩ := head_of_group hrest
          rw [solid_cons, if_neg hseparates, hsolid]
          exact ⟨[], first, rest, rfl, hfirst⟩

/-- A token is what the text has at its place, and it begins with an atom of its kind. -/
theorem of_mem_tokensAt (h : t ∈ tokensAt classes index u) :
    index ≤ t.start ∧ t.start < index + u.length ∧
      (∃ rest, u.drop (t.start - index) = t.text ++ rest) ∧
      ∃ first ∈ solid (atoms classes 0 index u), first.kind = t.kind ∧ first.start = t.start ∧
        first.text <+: t.text := by
  obtain ⟨before, first, after, more, hatoms, hseparates, rfl⟩ := of_mem_group h
  have hmem : first ∈ atoms classes 0 index u := by simp [hatoms]
  have hbounds := of_mem_atoms hmem
  have hstart := start_of_atoms hatoms
  have htexts := @atoms_texts classes u 0 index
  rw [hatoms] at htexts
  refine ⟨by simpa using hbounds.1, hbounds.2.1, ⟨(after.drop more).flatMap Token.text, ?_⟩,
    first, List.mem_filter.mpr ⟨hmem, by simp [hseparates]⟩, rfl, rfl, List.prefix_append _ _⟩
  have hdrop : first.start - index = (before.flatMap Token.text).length := by omega
  simp only [hdrop]
  rw [List.drop_zero] at htexts
  rw [← htexts, List.flatMap_append, List.drop_left, List.flatMap_cons, List.append_assoc,
    ← List.flatMap_append, List.take_append_drop]

/-- What follows some atoms of a text are the atoms of the rest of the text. -/
theorem atoms_of_append (hskip : skip ≤ u.length)
    (h : atoms classes skip index u = before ++ after) :
    after = atoms classes 0 (index + skip + (before.flatMap Token.text).length)
      (u.drop (skip + (before.flatMap Token.text).length)) := by
  induction u generalizing skip index before with
  | nil =>
    obtain ⟨rfl, rfl⟩ := List.append_eq_nil_iff.mp h.symm
    rw [List.drop_nil]
    rfl
  | cons c u ih =>
    cases skip with
    | succ skip =>
      have hrest := @ih skip (index + 1) _ (Nat.le_of_succ_le_succ hskip) h
      rw [show index + (skip + 1) = index + 1 + skip by omega,
        show skip + 1 + (before.flatMap Token.text).length =
          skip + (before.flatMap Token.text).length + 1 by omega, List.drop_succ_cons]
      exact hrest
    | zero =>
      cases before with
      | nil => exact h.symm
      | cons first before =>
        obtain ⟨rfl, hmore⟩ := List.cons.inj h
        have hle := @more_le classes (atomKind classes c u.head?) u
        have hrest := ih hle hmore
        generalize (atomKind classes c u.head?).more classes u = more at hle hrest
        have hlength : ((⟨atomKind classes c u.head?, c :: u.take more, index⟩ :: before :
            List Token).flatMap Token.text).length =
            more + (before.flatMap Token.text).length + 1 := by
          simp only [List.flatMap_cons, List.length_append, List.length_cons, List.length_take]
          omega
        rw [hlength, Nat.zero_add, List.drop_succ_cons,
          show index + 0 + (more + (before.flatMap Token.text).length + 1) =
            index + 1 + more + (before.flatMap Token.text).length by omega]
        exact hrest

theorem group_eq_drop : group skip ts = group 0 (ts.drop skip) := by
  induction ts generalizing skip with
  | nil => rw [List.drop_nil]; rfl
  | cons t ts ih =>
    cases skip with
    | succ skip => exact ih
    | zero => rfl

theorem text_ne_nil_of_mem_atoms (h : t ∈ atoms classes skip index u) : t.text ≠ [] := by
  obtain ⟨c, next, more, htext, -⟩ := kind_of_mem_atoms h
  rw [htext]
  exact List.cons_ne_nil _ _

/-- After a token that begins a text come the tokens of what follows it. -/
theorem tokensAt_of_head (h : tokensAt classes index u = t :: after) (hstart : t.start = index) :
    after = tokensAt classes (index + t.text.length) (u.drop t.text.length) := by
  cases hatoms : atoms classes 0 index u with
  | nil =>
    rw [tokensAt, hatoms] at h
    cases h
  | cons first ts =>
    rw [tokensAt, hatoms, group] at h
    split_ifs at h with hseparates
    · -- a token after a separator begins later
      obtain ⟨before, first', more, n, rfl, -, ht⟩ := of_mem_group (h ▸ List.mem_cons_self)
      have hlater := @start_of_atoms _ _ _ _ _ (first :: before) _ hatoms
      have hne := text_ne_nil_of_mem_atoms (t := first) (hatoms ▸ List.mem_cons_self)
      have hpos := List.length_pos_iff.mpr hne
      rw [ht] at hstart
      simp only [List.flatMap_cons, List.length_append] at hlater hstart
      omega
    · obtain ⟨rfl, rfl⟩ := List.cons.inj h
      have hsplit : atoms classes 0 index u =
          (first :: ts.take (tail first ts)) ++ ts.drop (tail first ts) := by
        rw [hatoms, List.cons_append, List.take_append_drop]
      have hrest := atoms_of_append (Nat.zero_le _) hsplit
      rw [group_eq_drop, hrest, Nat.add_zero, Nat.zero_add]
      rfl

theorem joins_of_mem_pointTail : ∀ a ∈ ts.take (pointTail ts), a.kind.joins := by
  unfold pointTail
  split
  next point digits rest =>
    split_ifs with hpoint
    · simp [Kind.joins, hpoint.1, hpoint.2.2]
    · nofun
  next => nofun

theorem joins_of_mem_signTail {last : Token} : ∀ a ∈ ts.take (signTail last ts), a.kind.joins := by
  unfold signTail
  split
  next sign digits rest =>
    split_ifs with hsign
    · simp [Kind.joins, hsign.2.1, hsign.2.2.2]
    · nofun
  next => nofun

/-- Only symbols and numbers are joined. -/
theorem joins_of_mem_tail : ∀ a ∈ ts.take (tail t ts), a.kind.joins := by
  unfold tail
  split
  · intro a ha
    have hle : operatorTail t ts ≤ (ts.takeWhile (·.kind = .symbol)).length := by
      simp only [operatorTail]
      split
      next operator hfind =>
        have hprefix := List.find?_some hfind
        have hle := (List.isPrefixOf_iff_prefix.mp hprefix).length_le
        simp only [List.length_map, List.length_cons] at hle
        omega
      next => exact Nat.zero_le _
    have hprefix := List.takeWhile_prefix (·.kind = .symbol) (l := ts)
    have ha := (List.take_prefix_take_left (l := ts) hle).subset ha
    rw [← List.prefix_iff_eq_take.mp hprefix] at ha
    have hsymbol := List.mem_takeWhile_imp ha
    simp [Kind.joins, of_decide_eq_true hsymbol]
  · intro a ha
    simp only [numberTail, List.take_add, List.mem_append] at ha
    rcases ha with ha | ha
    · exact joins_of_mem_pointTail a ha
    · exact joins_of_mem_signTail a ha
  · nofun

theorem solid_append (before after : List Token) :
    solid (before ++ after) = solid before ++ solid after := List.filter_append _ _

theorem solid_take_tail : solid (ts.take (tail t ts)) = ts.take (tail t ts) := by
  refine List.filter_eq_self.mpr fun a ha => ?_
  have hjoins := joins_of_mem_tail a ha
  revert hjoins
  cases a.kind <;> decide

/-- Tokens consist of the solid atoms. -/
theorem group_texts :
    (group skip ts).flatMap Token.text = (solid (ts.drop skip)).flatMap Token.text := by
  induction ts generalizing skip with
  | nil => rw [List.drop_nil]; rfl
  | cons t ts ih =>
    cases skip with
    | succ skip => exact ih
    | zero =>
      rw [group, List.drop_zero, solid_cons]
      split_ifs with hseparates
      · exact ih
      · have hsplit : solid (ts.take (tail t ts) ++ ts.drop (tail t ts)) =
            ts.take (tail t ts) ++ solid (ts.drop (tail t ts)) := by
          rw [solid_append, solid_take_tail]
        rw [List.take_append_drop] at hsplit
        rw [List.flatMap_cons, ih, List.flatMap_cons, hsplit, List.flatMap_append,
          List.append_assoc]

/-! ## Separators -/

variable (classes) in
/-- White space, or a character that is part of no operator. -/
def Separator (h : Char) : Prop := charKind classes h = .space ∨ charKind classes h = .delimiter

theorem mem_delimiters_of_charKind (h : charKind classes c = .delimiter) : c ∈ delimiters := by
  unfold charKind at h
  split_ifs at h
  assumption

theorem isSpace_of_charKind (h : charKind classes c = .space) : classes.isSpace c := by
  unfold charKind at h
  split_ifs at h
  assumption

theorem charKind_of_lt (hlawful : classes.Lawful) (hc : c.toNat < 128) :
    charKind classes c = charKind .ascii c := by
  simp only [charKind, wordStart, hlawful.isSpace_of_lt c hc, hlawful.isAlpha_of_lt c hc,
    hlawful.isDigit_of_lt c hc]
  rfl

theorem wordChar_of_lt (hlawful : classes.Lawful) (hc : c.toNat < 128) :
    wordChar classes c = wordChar .ascii c := by
  simp only [wordChar, hlawful.isAlnum_of_lt c hc]

theorem stops_of_mem_delimiters (hlawful : classes.Lawful) (h : c ∈ delimiters) :
    Stops classes c := by
  have hall : delimiters.Forall fun c =>
      c.toNat < 128 ∧ wordChar .ascii c = false ∧ c ∉ ['?', '/', '*'] := by decide
  have hascii := List.forall_iff_forall_mem.mp hall c h
  exact ⟨(wordChar_of_lt hlawful hascii.1).trans hascii.2.1, hascii.2.2⟩

theorem ne_of_isSpace (hlawful : classes.Lawful) (hc : classes.isSpace c) {d : Char}
    (hd : d.toNat < 128) (hspace : CharClasses.ascii.isSpace d = false) : c ≠ d := by
  rintro rfl
  rw [hlawful.isSpace_of_lt c hd, hspace] at hc
  cases hc

theorem stops_of_isSpace (hlawful : classes.Lawful) (h : classes.isSpace c) :
    Stops classes c := by
  have hne {d : Char} := ne_of_isSpace (d := d) hlawful h
  have halnum : classes.isAlnum c = false := by
    by_contra halnum
    rw [hlawful.not_isSpace_of_isAlnum c (by simpa using halnum)] at h
    cases h
  refine ⟨?_, ?_⟩
  · simp [wordChar, halnum, hne (by decide : '_'.toNat < 128) (by decide),
      hne (by decide : '$'.toNat < 128) (by decide)]
  · simp [hne (by decide : '?'.toNat < 128) (by decide),
      hne (by decide : '/'.toNat < 128) (by decide), hne (by decide : '*'.toNat < 128) (by decide)]

theorem Separator.stops (hlawful : classes.Lawful) (h : Separator classes c) :
    Stops classes c :=
  h.elim (fun h => stops_of_isSpace hlawful (isSpace_of_charKind h))
    fun h => stops_of_mem_delimiters hlawful (mem_delimiters_of_charKind h)

/-- A separator is an atom of its own. -/
theorem Separator.atoms_eq (hlawful : classes.Lawful) (h : Separator classes c) :
    atoms classes 0 index (c :: w) =
      ⟨charKind classes c, [c], index⟩ :: atoms classes 0 (index + 1) w := by
  have hclosed : Closed c w := by
    refine ⟨fun hcomment => (h.stops hlawful).2 (by simp [hcomment.1]), ?_⟩
    rintro rfl
    rw [Separator, charKind_of_lt hlawful (by decide)] at h
    exact absurd h (by decide)
  have hmore : (charKind classes c).more classes w = 0 := by
    rcases h with h | h <;> rw [h] <;> rfl
  rw [atoms_of_closed hclosed, hmore, List.take_zero]

theorem Separator.joins (h : Separator classes c) : (charKind classes c).joins = false := by
  rcases h with h | h <;> rw [h] <;> rfl

/-- There is a boundary before a separator, and it joins no earlier token. -/
theorem Separator.tokensAt_before (hlawful : classes.Lawful) (h : Separator classes c)
    (hsound : Sound classes 0 u)
    (hends : classes.isSpace c ∨ ¬ EndsEscaped (atoms classes 0 index u)) :
    tokensAt classes index (u ++ c :: w) =
      tokensAt classes index u ++ tokensAt classes (index + u.length) (c :: w) := by
  have hboundary := boundary_of_sound (w := w) hsound (Nat.zero_le _) (h.stops hlawful) hends
  refine tokensAt_append hboundary ?_
  rw [h.atoms_eq hlawful]
  exact apart_cons.mpr h.joins

theorem Separator.tokensAt_cons (hlawful : classes.Lawful) (h : Separator classes c) :
    tokensAt classes index (c :: w) =
      tokensAt classes index [c] ++ tokensAt classes (index + 1) w := by
  rw [tokensAt, h.atoms_eq hlawful, group_of_apart h.joins, tokensAt, h.atoms_eq hlawful]
  rfl

end Verilog
