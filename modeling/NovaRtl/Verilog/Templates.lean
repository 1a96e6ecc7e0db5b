import NovaRtl.Verilog.Joins

/-!
# Text put into fixed text

A template is fixed text with places where other text is printed. `faithful_iff` says when the
tokens that begin at each place are those of the text that is meant: at a place, only an escaped name
at the end of the printed text or a difference between the two texts can be in the way.

`tokenTexts_flatten_iff` compares a text with the tokens it is put together from.
-/

namespace Verilog

open Text

variable {classes : CharClasses} {c h : Char} {rest u v w printed source : List Char}
variable {skip index : ℕ} {t : Token} {ts : List Token}

/-! ## Texts without comments and strings -/

/-- No character opens a comment, a string or an escaped name. -/
def Quiet (text : List Char) : Prop := ∀ c ∈ text, c ∉ ['"', '/', '\\']

theorem closed_of_ne (hslash : c ≠ '/') (hquote : c ≠ '"') : Closed c rest :=
  ⟨fun h => hslash h.1, fun h => absurd h hquote⟩

/-- Quiet text is sound, also before an escaped name. -/
theorem Quiet.sound (hlawful : classes.Lawful) (hu : Quiet u) (hskip : skip ≤ u.length)
    (hv : v = [] ∨ v.head? = some '\\') (hsound : Sound classes 0 v) :
    Sound classes skip (u ++ v) := by
  have hstops : Stops classes '\\' :=
    ⟨(wordChar_of_lt hlawful (by decide)).trans (by decide), by decide⟩
  induction u generalizing skip with
  | nil =>
    obtain rfl := Nat.le_zero.mp hskip
    exact hsound
  | cons c u ih =>
    obtain ⟨hc, hu⟩ := List.forall_mem_cons.mp hu
    simp only [List.mem_cons, List.not_mem_nil, or_false, not_or] at hc
    cases skip with
    | succ skip => exact ih hu (Nat.le_of_succ_le_succ hskip)
    | zero =>
      have hclosed : Closed c (u ++ v) := closed_of_ne hc.2.1 hc.1
      rw [List.cons_append]
      refine ⟨hclosed, ih hu ?_⟩
      rw [atomKind_of_closed hclosed]
      rcases hv with rfl | hv
      · rw [List.append_nil]
        exact more_le _ _
      · obtain ⟨w, rfl⟩ := List.head?_eq_some_iff.mp hv
        rw [hstops.more_append]
        · exact more_le _ _
        · exact fun hkind => absurd (charKind_eq_string hkind) hc.1
        · exact charKind_ne_comment.1
        · exact charKind_ne_comment.2
        · exact fun hkind => absurd (charKind_eq_escaped hkind) hc.2.2

theorem sound_of_le (hle : u.length ≤ skip) : Sound classes skip u := by
  induction u generalizing skip with
  | nil => trivial
  | cons c u ih =>
    obtain ⟨skip, rfl⟩ := Nat.exists_eq_add_of_le' ((Nat.succ_le_succ (Nat.zero_le _)).trans hle)
    exact ih (Nat.le_of_succ_le_succ hle)

/-- An escaped name that white space does not interrupt. -/
theorem sound_escaped (hlawful : classes.Lawful) (hspace : ∀ c ∈ u, classes.isSpace c = false) :
    Sound classes 0 ('\\' :: u) := by
  have hkind : charKind classes '\\' = .escaped := (charKind_of_lt hlawful (by decide)).trans rfl
  have hclosed : Closed '\\' u := closed_of_ne (by decide) (by decide)
  refine ⟨hclosed, sound_of_le ?_⟩
  rw [atomKind_of_closed hclosed, hkind, Kind.more, List.takeWhile_eq_self_iff.mpr]
  simpa using hspace

/-! ## Texts put together from tokens -/

variable (classes) in
/-- The text begins with the token. -/
def BeginsWith (token text : List Char) : Prop :=
  ∃ t ∈ (tokens classes text).head?, t.start = 0 ∧ t.text = token

variable (classes) in
/-- No token becomes longer when those behind it follow directly. -/
def Separate : List (List Char) → Prop
  | [] => True
  | token :: rest => BeginsWith classes token (token ++ rest.flatten) ∧ Separate rest

theorem length_solid_le (ts : List Token) :
    ((solid ts).flatMap Token.text).length ≤ (ts.flatMap Token.text).length := by
  induction ts with
  | nil => rfl
  | cons t ts ih =>
    rw [solid_cons, List.flatMap_cons, List.length_append]
    split_ifs
    · omega
    · rw [List.flatMap_cons, List.length_append]
      omega

/-- Tokens that cover a text begin where it begins. -/
theorem start_of_texts (h : (tokens classes u).flatMap Token.text = u)
    (ht : (tokens classes u).head? = some t) : t.start = 0 := by
  obtain ⟨after, htokens⟩ := List.head?_eq_some_iff.mp ht
  obtain ⟨first, rest, hsolid, -, hstart, -⟩ := head_of_group htokens
  have hcover := @atoms_texts classes u 0 0
  rw [tokens, group_texts, List.drop_zero] at h
  cases hatoms : atoms classes 0 0 u with
  | nil =>
    rw [hatoms] at hsolid
    cases hsolid
  | cons a ts =>
    rw [hatoms] at hsolid h hcover
    have hlength := length_solid_le ts
    have hne := List.length_pos_iff.mpr
      (text_ne_nil_of_mem_atoms (t := a) (hatoms ▸ List.mem_cons_self))
    rw [solid_cons] at hsolid h
    split_ifs at hsolid h with hseparates
    · have hall := congrArg List.length (h.trans hcover.symm)
      rw [List.flatMap_cons, List.length_append] at hall
      omega
    · obtain ⟨rfl, -⟩ := List.cons.inj hsolid
      exact hstart.symm.trans (@start_of_atoms _ _ _ _ _ [] _ hatoms)

/-- Texts are the tokens of the text they are put together to, exactly if they are separate. -/
theorem tokenTexts_flatten_iff {parts : List (List Char)} :
    tokenTexts classes parts.flatten = parts ↔ Separate classes parts := by
  induction parts with
  | nil => exact iff_of_true rfl trivial
  | cons part parts ih =>
    -- the tokens behind the first one
    have hrest {t : Token} (ht : (tokens classes (part ++ parts.flatten)).head? = some t)
        (hstart : t.start = 0) (htext : t.text = part) :
        tokenTexts classes (part ++ parts.flatten) = part :: tokenTexts classes parts.flatten := by
      obtain ⟨after, htokens⟩ := List.head?_eq_some_iff.mp ht
      have hafter := tokensAt_of_head htokens hstart
      rw [htext, List.drop_left] at hafter
      rw [tokenTexts, htokens, List.map_cons, htext, hafter, tokensAt_texts]
    rw [List.flatten_cons, Separate, ← ih]
    constructor
    · intro h
      obtain ⟨t, after, htokens, htext, -⟩ := List.map_eq_cons_iff.mp h
      have hhead : (tokens classes (part ++ parts.flatten)).head? = some t := by rw [htokens]; rfl
      have hcover : (tokens classes (part ++ parts.flatten)).flatMap Token.text =
          part ++ parts.flatten := by
        rw [List.flatMap_def]
        exact congrArg List.flatten h
      have hstart := start_of_texts hcover hhead
      rw [hrest hhead hstart htext] at h
      exact ⟨⟨t, hhead, hstart, htext⟩, (List.cons.inj h).2⟩
    · rintro ⟨⟨t, hhead, hstart, htext⟩, hparts⟩
      rw [hrest hhead hstart htext, hparts]

/-! ## Templates -/

inductive Segment where
  | fixed (text : List Char)
  /-- What is printed at a place, and the text that is meant. -/
  | place (printed source : List Char)

def Segment.text : Segment → List Char
  | fixed text => text
  | place printed _ => printed

def textOf (segments : List Segment) : List Char := segments.flatMap Segment.text

/-- The texts of the tokens that begin in a part of a text. -/
def textsIn (start length : ℕ) (ts : List Token) : List (List Char) :=
  (ts.filter fun t => start ≤ t.start ∧ t.start < start + length).map Token.text

variable (classes) in
/-- At each place of a template that begins at `index`, the tokens that begin there are those of
the text that is meant. -/
def FaithfulAt (index : ℕ) (ts : List Token) (segments : List Segment) : Prop :=
  ∀ before printed source after, segments = before ++ .place printed source :: after →
    textsIn (index + (textOf before).length) printed.length ts = tokenTexts classes source

variable (classes) in
def Faithful (segments : List Segment) : Prop :=
  FaithfulAt classes 0 (tokens classes (textOf segments)) segments

variable (classes) in
/-- Fixed text is quiet and ends in a separator, unless nothing follows, and a separator follows a
place. Before a character that is not white space, the printed text is the one that is meant. -/
def WellFormed : List Segment → Prop
  | [] => True
  | .fixed text :: rest =>
    Quiet text ∧ (rest = [] ∨ ∃ h ∈ text.getLast?, Separator classes h) ∧ WellFormed rest
  | .place printed source :: rest =>
    Sound classes 0 printed ∧
      (∃ h ∈ (textOf rest).head?, Separator classes h ∧
        (classes.isSpace h ∨ printed = source)) ∧ WellFormed rest

variable (classes) in
/-- Before white space, the printed text has the tokens of the text that is meant; before another
character, it does not end in an escaped name. -/
def Kept (printed source : List Char) (next : Option Char) : Prop :=
  if next.any classes.isSpace then tokenTexts classes printed = tokenTexts classes source
  else ¬ EndsEscaped (atoms classes 0 0 printed)

variable (classes) in
def AllKept : List Segment → Prop
  | [] => True
  | .fixed _ :: rest => AllKept rest
  | .place printed source :: rest => Kept classes printed source (textOf rest).head? ∧ AllKept rest

section Faithful

variable {segments : List Segment} {start length : ℕ} {more : List Token}

theorem textOf_cons (segment : Segment) (segments : List Segment) :
    textOf (segment :: segments) = segment.text ++ textOf segments := List.flatMap_cons

theorem textsIn_append : textsIn start length (ts ++ more) =
    textsIn start length ts ++ textsIn start length more := by
  simp [textsIn]

theorem textsIn_all (h : ∀ t ∈ ts, start ≤ t.start ∧ t.start < start + length) :
    textsIn start length ts = ts.map Token.text := by
  rw [textsIn, List.filter_eq_self.mpr]
  simpa using h

theorem textsIn_none (h : ∀ t ∈ ts, t.start < start ∨ start + length ≤ t.start) :
    textsIn start length ts = [] := by
  rw [textsIn, List.filter_eq_nil_iff.mpr]
  · rfl
  · intro t ht
    have := h t ht
    simp only [decide_eq_true_eq, not_and, not_lt]
    omega

theorem faithfulAt_fixed {text : List Char} :
    FaithfulAt classes index ts (.fixed text :: segments) ↔
      FaithfulAt classes (index + text.length) ts segments := by
  constructor
  · intro h before printed source after hsegments
    have hat := h (.fixed text :: before) printed source after (congrArg _ hsegments)
    rwa [textOf_cons, Segment.text, List.length_append, ← Nat.add_assoc] at hat
  · intro h before printed source after hsegments
    cases before with
    | nil => simp at hsegments
    | cons first before =>
      obtain ⟨rfl, hrest⟩ := List.cons.inj hsegments
      rw [textOf_cons, Segment.text, List.length_append, ← Nat.add_assoc]
      exact h before printed source after hrest

theorem faithfulAt_place :
    FaithfulAt classes index ts (.place printed source :: segments) ↔
      textsIn index printed.length ts = tokenTexts classes source ∧
        FaithfulAt classes (index + printed.length) ts segments := by
  constructor
  · intro h
    refine ⟨h [] printed source segments rfl, fun before printed' source' after hsegments => ?_⟩
    have hat := h (.place printed source :: before) printed' source' after (congrArg _ hsegments)
    rwa [textOf_cons, Segment.text, List.length_append, ← Nat.add_assoc] at hat
  · rintro ⟨hfirst, h⟩ before printed' source' after hsegments
    cases before with
    | nil =>
      obtain ⟨hplace, -⟩ := List.cons.inj hsegments
      cases hplace
      exact hfirst
    | cons first before =>
      obtain ⟨rfl, hrest⟩ := List.cons.inj hsegments
      rw [textOf_cons, Segment.text, List.length_append, ← Nat.add_assoc]
      exact h before printed' source' after hrest

/-- Tokens before the template do not matter. -/
theorem faithfulAt_append (h : ∀ t ∈ ts, t.start < index) :
    FaithfulAt classes index (ts ++ more) segments ↔ FaithfulAt classes index more segments := by
  refine forall₄_congr fun before printed source after => imp_congr_right fun _ => ?_
  rw [textsIn_append, textsIn_none fun t ht => .inl (Nat.lt_add_right _ (h t ht)), List.nil_append]

theorem endsEscaped_shift :
    EndsEscaped (atoms classes skip index u) ↔ EndsEscaped (atoms classes skip 0 u) := by
  have hatoms := @atoms_shift classes u skip 0 index
  rw [Nat.zero_add] at hatoms
  rw [hatoms, EndsEscaped, EndsEscaped, List.getLast?_map, Option.map_map]
  rfl

theorem Quiet.not_endsEscaped (h : Quiet u) : ¬ EndsEscaped (atoms classes 0 index u) := by
  intro hends
  obtain ⟨t, ht, hkind⟩ := Option.map_eq_some_iff.mp hends
  have hmem := List.mem_of_getLast? ht
  obtain ⟨c, next, more, htext, hatom⟩ := kind_of_mem_atoms hmem
  rw [hatom] at hkind
  have hc : c = '\\' := by
    unfold atomKind at hkind
    split_ifs at hkind
    exact charKind_eq_escaped hkind
  have hcover := @atoms_texts classes u 0 index
  have hchar : c ∈ u := by
    rw [← List.drop_zero (l := u), ← hcover]
    exact List.mem_flatMap.mpr ⟨t, hmem, by simp [htext]⟩
  exact h c hchar (by simp [hc])

theorem tokensAt_fixed (hlawful : classes.Lawful) (hu : Quiet u)
    (hlast : ∃ h ∈ u.getLast?, Separator classes h) :
    tokensAt classes index (u ++ w) =
      tokensAt classes index u ++ tokensAt classes (index + u.length) w := by
  obtain ⟨h, hh, hseparator⟩ := hlast
  obtain ⟨init, rfl⟩ := List.getLast?_eq_some_iff.mp hh
  have hinit : Quiet init := fun c hc => hu c (List.mem_append_left _ hc)
  have hsound : Sound classes 0 init := by
    have := hinit.sound (v := []) hlawful (Nat.zero_le _) (.inl rfl) trivial
    rwa [List.append_nil] at this
  have hbefore (w : List Char) := @Separator.tokensAt_before _ _ _ w index hlawful hseparator hsound
    (.inr hinit.not_endsEscaped)
  rw [List.append_assoc, List.singleton_append, hbefore, hbefore, hseparator.tokensAt_cons hlawful,
    List.append_assoc, List.length_append]
  rfl

theorem textsIn_tokensAt : textsIn index u.length (tokensAt classes index u) = tokenTexts classes u := by
  rw [textsIn_all, tokensAt_texts]
  intro t ht
  obtain ⟨hle, hlt, -⟩ := of_mem_tokensAt ht
  exact ⟨hle, hlt⟩

theorem textsIn_tokensAt_later :
    textsIn index u.length (tokensAt classes (index + u.length) w) = [] := by
  refine textsIn_none fun t ht => .inr ?_
  exact (of_mem_tokensAt ht).1

theorem charKind_backslash (hlawful : classes.Lawful) : charKind classes '\\' = .escaped :=
  (charKind_of_lt hlawful (by decide)).trans rfl

/-- An escaped name reaches to white space. -/
theorem tokensAt_escaped (hlawful : classes.Lawful) :
    ∃ later, tokensAt classes index ('\\' :: u) =
        ⟨.escaped, '\\' :: u.takeWhile (!classes.isSpace ·), index⟩ :: later ∧
      ∀ t ∈ later, index + (u.takeWhile (!classes.isSpace ·)).length + 1 ≤ t.start := by
  have hclosed : Closed '\\' u := closed_of_ne (by decide) (by decide)
  have htake : u.take (u.takeWhile (!classes.isSpace ·)).length =
      u.takeWhile (!classes.isSpace ·) :=
    (List.prefix_iff_eq_take.mp (List.takeWhile_prefix _)).symm
  refine ⟨group 0 (atoms classes (u.takeWhile (!classes.isSpace ·)).length (index + 1) u), ?_, ?_⟩
  · rw [tokensAt, atoms_of_closed hclosed, charKind_backslash hlawful, group_of_apart rfl,
      group_singleton rfl, Kind.more, htake, List.singleton_append]
  · intro t ht
    obtain ⟨before, first, after, more, hatoms, -, rfl⟩ := of_mem_group ht
    have hstart := (of_mem_atoms (t := first) (by rw [hatoms]; simp)).1
    simp only
    omega

/-- Text that ends in an escaped name, at the beginning of the name. -/
theorem split_of_endsEscaped (hlawful : classes.Lawful)
    (hends : EndsEscaped (atoms classes 0 index u)) :
    ∃ before name, u = before ++ '\\' :: name ∧ Boundary classes 0 before ('\\' :: name) ∧
      ∀ c ∈ name, classes.isSpace c = false := by
  obtain ⟨t, ht, hkind⟩ := Option.map_eq_some_iff.mp hends
  obtain ⟨earlier, hatoms⟩ := List.getLast?_eq_some_iff.mp ht
  have hmem : t ∈ atoms classes 0 index u := List.mem_of_getLast? ht
  obtain ⟨c, next, name, htext, hatom⟩ := kind_of_mem_atoms hmem
  rw [hatom] at hkind
  obtain rfl : c = '\\' := by
    unfold atomKind at hkind
    split_ifs at hkind
    exact charKind_eq_escaped hkind
  have hcover := @atoms_texts classes u 0 index
  rw [hatoms, List.flatMap_append, List.flatMap_singleton, htext, List.drop_zero] at hcover
  refine ⟨earlier.flatMap Token.text, name, hcover.symm, ?_, ?_⟩
  · refine @boundary_of_mem _ _ _ _ index t (by rw [hcover]; exact hmem) ?_
    rw [start_of_atoms hatoms, Nat.add_zero]
  · -- the name is one atom
    have hlast := atoms_of_append (Nat.zero_le _) hatoms
    rw [Nat.zero_add, ← hcover, List.drop_left, atoms_of_closed (closed_of_ne (by decide) (by decide)),
      charKind_backslash hlawful] at hlast
    have hname := congrArg Token.text (List.cons.inj hlast).1
    rw [htext] at hname
    have hall := congrArg List.length (List.cons.inj hname).2
    rw [Kind.more, List.length_take] at hall
    have hprefix := (List.takeWhile_prefix (!classes.isSpace ·) (l := name)).eq_of_length (by
      have := (List.takeWhile_sublist (!classes.isSpace ·) (l := name)).length_le
      omega)
    intro c hc
    rw [← hprefix] at hc
    simpa using List.mem_takeWhile_imp hc

/-- An escaped name at the end takes what follows it. -/
theorem textsIn_of_endsEscaped (hlawful : classes.Lawful)
    (hends : EndsEscaped (atoms classes 0 index u)) (hspace : classes.isSpace h = false) :
    textsIn index u.length (tokensAt classes index (u ++ h :: w)) ≠ tokenTexts classes u := by
  obtain ⟨before, name, rfl, hboundary, hname⟩ := split_of_endsEscaped hlawful hends
  have hapart {index : ℕ} {u : List Char} : Apart (atoms classes 0 index ('\\' :: u)) := by
    rw [atoms_of_closed (closed_of_ne (by decide) (by decide)), charKind_backslash hlawful]
    exact apart_cons.mpr rfl
  have htaken : (name ++ h :: w).takeWhile (!classes.isSpace ·) =
      name ++ h :: w.takeWhile (!classes.isSpace ·) := by
    rw [List.takeWhile_append_of_pos (by simpa using hname),
      List.takeWhile_cons_of_pos (by simp [hspace])]
  obtain ⟨later, htokens, hlater⟩ := @tokensAt_escaped _ (name ++ h :: w)
    (index + before.length) hlawful
  obtain ⟨later', htokens', hlater'⟩ := @tokensAt_escaped _ name
    (index + before.length) hlawful
  have hboundary' : Boundary classes 0 before ('\\' :: (name ++ h :: w)) := hboundary.head
  rw [htaken] at htokens hlater
  -- what begins in the text
  have hlong : textsIn index (before ++ '\\' :: name).length
      (tokensAt classes index (before ++ '\\' :: name ++ h :: w)) =
      tokenTexts classes before ++
        ['\\' :: (name ++ h :: w.takeWhile (!classes.isSpace ·))] := by
    rw [List.append_assoc, List.cons_append, tokensAt_append hboundary' hapart, htokens,
      textsIn_append, textsIn_all, tokensAt_texts, ← List.singleton_append (l := later),
      textsIn_append, @textsIn_none later, textsIn_all, List.append_nil]
    · rfl
    · simp
    · intro t ht
      have := hlater t ht
      simp only [List.length_append, List.length_cons] at this ⊢
      omega
    · intro t ht
      obtain ⟨hle, hlt, -⟩ := of_mem_tokensAt ht
      simp only [List.length_append, List.length_cons]
      omega
  have hshort : tokenTexts classes (before ++ '\\' :: name) =
      tokenTexts classes before ++ ('\\' :: name) :: later'.map Token.text := by
    rw [List.takeWhile_eq_self_iff.mpr (by simpa using hname)] at htokens'
    rw [← @tokensAt_texts _ _ index, tokensAt_append hboundary hapart, htokens',
      List.map_append, tokensAt_texts, List.map_cons]
  rw [hlong, hshort]
  intro hsame
  have hname := (List.cons.inj (List.cons.inj (List.append_cancel_left hsame)).1).2
  have hlength := congrArg List.length hname
  simp at hlength

theorem faithfulAt_iff (hlawful : classes.Lawful) (h : WellFormed classes segments) :
    FaithfulAt classes index (tokensAt classes index (textOf segments)) segments ↔
      AllKept classes segments := by
  induction segments generalizing index with
  | nil =>
    refine iff_of_true (fun before _ _ _ hsegments => ?_) trivial
    simp at hsegments
  | cons segment rest ih =>
    cases segment with
    | fixed text =>
      obtain ⟨hquiet, hlast, hrest⟩ := h
      rw [AllKept, ← @ih (index + text.length) hrest, faithfulAt_fixed, textOf_cons]
      rcases hlast with rfl | hlast
      · refine iff_of_true ?_ ?_ <;>
        · intro before _ _ _ hsegments
          simp at hsegments
      · rw [Segment.text, tokensAt_fixed hlawful hquiet hlast, faithfulAt_append]
        exact fun t ht => (of_mem_tokensAt ht).2.1
    | place printed source =>
      obtain ⟨hsound, ⟨next, hnext, hseparator, hsame⟩, hrest⟩ := h
      obtain ⟨following, hfollowing⟩ := List.head?_eq_some_iff.mp hnext
      rw [AllKept, ← @ih (index + printed.length) hrest, faithfulAt_place, textOf_cons,
        Segment.text, hnext, hfollowing]
      -- a boundary behind the place
      have hsplit (hends : classes.isSpace next ∨ ¬ EndsEscaped (atoms classes 0 index printed)) :
          textsIn index printed.length (tokensAt classes index (printed ++ next :: following)) =
            tokenTexts classes printed ∧
          (FaithfulAt classes (index + printed.length)
              (tokensAt classes index (printed ++ next :: following)) rest ↔
            FaithfulAt classes (index + printed.length)
              (tokensAt classes (index + printed.length) (next :: following)) rest) := by
        rw [hseparator.tokensAt_before hlawful hsound hends, textsIn_append, textsIn_tokensAt,
          textsIn_tokensAt_later, List.append_nil]
        exact ⟨rfl, faithfulAt_append fun t ht => (of_mem_tokensAt ht).2.1⟩
      by_cases hspace : classes.isSpace next
      · obtain ⟨htexts, hlater⟩ := hsplit (.inl hspace)
        simp only [Kept, Option.any_some, hspace, if_true, htexts, hlater]
      · obtain rfl := hsame.resolve_left hspace
        simp only [Kept, Option.any_some, hspace, Bool.false_eq_true, if_false]
        by_cases hends : EndsEscaped (atoms classes 0 index printed)
        · have hne := textsIn_of_endsEscaped (w := following) hlawful hends
            (by simpa using hspace)
          rw [endsEscaped_shift] at hends
          simp [hne, hends]
        · obtain ⟨htexts, hlater⟩ := hsplit (.inr hends)
          rw [endsEscaped_shift] at hends
          simp [htexts, hlater, hends]

/-! ## Templates in parts -/

variable {α : Type*} {as : List α} {part : α → List Segment}

theorem textOf_append (before after : List Segment) :
    textOf (before ++ after) = textOf before ++ textOf after := List.flatMap_append

theorem Quiet.append (hu : Quiet u) (hv : Quiet v) : Quiet (u ++ v) := fun c hc =>
  (List.mem_append.mp hc).elim (hu c) (hv c)

theorem wellFormed_flatMap
    (h : ∀ a ∈ as, ∀ rest, WellFormed classes rest → WellFormed classes (part a ++ rest))
    (hrest : WellFormed classes segments) :
    WellFormed classes (as.flatMap part ++ segments) := by
  induction as with
  | nil => exact hrest
  | cons a as ih =>
    obtain ⟨ha, has⟩ := List.forall_mem_cons.mp h
    rw [List.flatMap_cons, List.append_assoc]
    exact ha _ (ih has)

theorem allKept_flatMap {p : α → Prop}
    (h : ∀ a ∈ as, ∀ rest, AllKept classes (part a ++ rest) ↔ p a ∧ AllKept classes rest) :
    AllKept classes (as.flatMap part ++ segments) ↔
      (∀ a ∈ as, p a) ∧ AllKept classes segments := by
  induction as with
  | nil => simp
  | cons a as ih =>
    obtain ⟨ha, has⟩ := List.forall_mem_cons.mp h
    rw [List.flatMap_cons, List.append_assoc, ha, ih has, List.forall_mem_cons, and_assoc]

theorem faithful_iff (hlawful : classes.Lawful) (h : WellFormed classes segments) :
    Faithful classes segments ↔ AllKept classes segments :=
  faithfulAt_iff hlawful h

end Faithful

end Verilog
