import NovaRtl.Difflib.Matching

/-!
# Opcodes and their groups

`get_opcodes` says how one sequence becomes the other; `get_grouped_opcodes` keeps the changes with
`n` elements around them. A chain of opcodes covers both sequences without gaps, and between two
groups, before the first one and after the last one the sequences are equal.
-/

namespace Difflib

variable {α : Type}

inductive Tag where
  | replace | delete | insert | equal
  deriving DecidableEq, Repr

/-- `(tag, i1, i2, j1, j2)` -/
structure Opcode where
  tag : Tag
  i1 : ℕ
  i2 : ℕ
  j1 : ℕ
  j2 : ℕ
  deriving DecidableEq, Repr

/-- What is between a block and the end of the one before. -/
def change (i ai j bj : ℕ) : List Opcode :=
  if i < ai ∧ j < bj then [⟨.replace, i, ai, j, bj⟩]
  else if i < ai then [⟨.delete, i, ai, j, bj⟩]
  else if j < bj then [⟨.insert, i, ai, j, bj⟩]
  else []

/-- The loop of `get_opcodes`. -/
def opcodesFrom (i j : ℕ) : List Match → List Opcode
  | [] => []
  | m :: rest =>
    change i m.i j m.j ++
      (if m.size = 0 then [] else [⟨.equal, m.i, m.i + m.size, m.j, m.j + m.size⟩]) ++
      opcodesFrom (m.i + m.size) (m.j + m.size) rest

/-- `get_opcodes` -/
def opcodes [DecidableEq α] (a b : List α) : List Opcode := opcodesFrom 0 0 (matchingBlocks a b)

namespace Opcode

variable (n : ℕ) (c : Opcode)

/-- `max(i1, i2 - n), i2, max(j1, j2 - n), j2` -/
def keepLast : Opcode := { c with i1 := max c.i1 (c.i2 - n), j1 := max c.j1 (c.j2 - n) }

/-- `i1, min(i2, i1 + n), j1, min(j2, j1 + n)` -/
def keepFirst : Opcode := { c with i2 := min c.i2 (c.i1 + n), j2 := min c.j2 (c.j1 + n) }

end Opcode

/-- The leading equal part keeps its last elements. -/
def trimFirst (n : ℕ) : List Opcode → List Opcode
  | [] => []
  | c :: rest => (if c.tag = .equal then c.keepLast n else c) :: rest

/-- The trailing equal part keeps its first elements. -/
def trimLast (n : ℕ) : List Opcode → List Opcode
  | [] => []
  | [c] => [if c.tag = .equal then c.keepFirst n else c]
  | c :: next :: rest => c :: trimLast n (next :: rest)

/-- `not (len(group) == 1 and group[0][0] == "equal")` -/
def showsChange : List Opcode → Bool
  | [] => false
  | [c] => c.tag ≠ .equal
  | _ => true

/-- The loop of `get_grouped_opcodes`: a long equal part ends a group. -/
def groupFrom (n : ℕ) (group : List Opcode) : List Opcode → List (List Opcode)
  | [] => if showsChange group then [group] else []
  | c :: rest =>
    if c.tag = .equal ∧ n + n < c.i2 - c.i1 then
      (group ++ [c.keepFirst n]) :: groupFrom n [c.keepLast n] rest
    else groupFrom n (group ++ [c]) rest

/-- `get_grouped_opcodes(n)` -/
def groupedOpcodes [DecidableEq α] (n : ℕ) (a b : List α) : List (List Opcode) :=
  let codes := if opcodes a b = [] then [⟨.equal, 0, 1, 0, 1⟩] else opcodes a b
  groupFrom n [] (trimLast n (trimFirst n codes))

/-! ## Slices -/

/-- `xs[i:j]` -/
def slice (xs : List α) (i j : ℕ) : List α := (xs.take j).drop i

section Slices

variable {xs a b : List α} {i j k : ℕ}

theorem slice_append (hij : i ≤ j) (hjk : j ≤ k) :
    slice xs i j ++ slice xs j k = slice xs i k := by
  simp only [slice, List.drop_take]
  have hlength : k - i = (j - i) + (k - j) := by omega
  have hdrop : xs.drop j = (xs.drop i).drop (j - i) := by
    rw [List.drop_drop, Nat.add_sub_cancel' hij]
  rw [hlength, List.take_add, hdrop]

theorem slice_append_drop (hij : i ≤ j) : slice xs i j ++ xs.drop j = xs.drop i := by
  have hdrop : xs.drop j = (xs.drop i).drop (j - i) := by
    rw [List.drop_drop, Nat.add_sub_cancel' hij]
  rw [slice, List.drop_take, hdrop, List.take_append_drop]

@[simp] theorem slice_self : slice xs i i = [] := by
  simp [slice]

@[simp] theorem slice_zero : slice xs 0 j = xs.take j := rfl

theorem length_slice (hj : j ≤ xs.length) : (slice xs i j).length = j - i := by
  simp [slice, List.length_drop, List.length_take, Nat.min_eq_left hj]

theorem getElem?_slice (d : ℕ) :
    (slice xs i j)[d]? = if i + d < j then xs[i + d]? else none := by
  rw [slice, List.getElem?_drop, List.getElem?_take]

/-- Equal elements make equal slices. -/
theorem slice_eq_of_same {i j i' j' : ℕ} (h : ∀ d < j - i, a[i + d]? = b[i' + d]?)
    (hlength : j - i = j' - i') (hij : i ≤ j) (hij' : i' ≤ j') : slice a i j = slice b i' j' := by
  refine List.ext_getElem? fun d => ?_
  rw [getElem?_slice, getElem?_slice]
  by_cases hd : d < j - i
  · rw [if_pos (by omega), if_pos (by omega), h d hd]
  · rw [if_neg (by omega), if_neg (by omega)]

end Slices

/-! ## Chains of opcodes -/

section Chains

variable {a b : List α} {i j i' j' i'' j'' n : ℕ} {c : Opcode} {codes more : List Opcode}

/-- What an opcode says about the sequences. -/
structure Opcode.Valid (a b : List α) (c : Opcode) : Prop where
  i_le : c.i1 ≤ c.i2
  j_le : c.j1 ≤ c.j2
  deletes : c.tag = .delete → c.j1 = c.j2
  inserts : c.tag = .insert → c.i1 = c.i2
  length_eq : c.tag = .equal → c.i2 - c.i1 = c.j2 - c.j1
  same : c.tag = .equal → ∀ d < c.i2 - c.i1, a[c.i1 + d]? = b[c.j1 + d]?

/-- Valid opcodes that cover both sequences between two pairs of indices. -/
def Chain (a b : List α) : ℕ → ℕ → List Opcode → ℕ → ℕ → Prop
  | i, j, [], i', j' => i = i' ∧ j = j'
  | i, j, c :: rest, i', j' => c.i1 = i ∧ c.j1 = j ∧ c.Valid a b ∧ Chain a b c.i2 c.j2 rest i' j'

theorem Chain.append (h : Chain a b i j codes i' j') (hmore : Chain a b i' j' more i'' j'') :
    Chain a b i j (codes ++ more) i'' j'' := by
  induction codes generalizing i j with
  | nil =>
    obtain ⟨rfl, rfl⟩ := h
    exact hmore
  | cons c rest ih => exact ⟨h.1, h.2.1, h.2.2.1, ih h.2.2.2⟩

theorem Chain.le (h : Chain a b i j codes i' j') : i ≤ i' ∧ j ≤ j' := by
  induction codes generalizing i j with
  | nil => exact ⟨h.1.le, h.2.le⟩
  | cons c rest ih =>
    obtain ⟨rfl, rfl, hvalid, hrest⟩ := h
    exact ⟨hvalid.i_le.trans (ih hrest).1, hvalid.j_le.trans (ih hrest).2⟩

theorem change_chain (hi : i ≤ i') (hj : j ≤ j') : Chain a b i j (change i i' j j') i' j' := by
  unfold change
  split_ifs with hboth hdelete hinsert
  · exact ⟨rfl, rfl, ⟨hi, hj, nofun, nofun, nofun, nofun⟩, rfl, rfl⟩
  · exact ⟨rfl, rfl, ⟨hi, hj, fun _ => by dsimp only; omega, nofun, nofun, nofun⟩, rfl, rfl⟩
  · exact ⟨rfl, rfl, ⟨hi, hj, nofun, fun _ => by dsimp only; omega, nofun, nofun⟩, rfl, rfl⟩
  · exact ⟨by omega, by omega⟩

theorem opcodesFrom_chain {blocks : List Match} (h : BlocksFrom a b i j blocks i' j') :
    Chain a b i j (opcodesFrom i j (blocks ++ [⟨i', j', 0⟩])) i' j' := by
  induction blocks generalizing i j with
  | nil =>
    have hchange : Chain a b i j (change i i' j j') i' j' := change_chain h.1 h.2
    simpa [opcodesFrom] using hchange
  | cons m rest ih =>
    obtain ⟨hi, hj, hsame, hrest⟩ := h
    rw [List.cons_append, opcodesFrom]
    refine ((change_chain hi hj).append ?_).append (ih hrest)
    split_ifs with hsize
    · exact ⟨by omega, by omega⟩
    · refine ⟨rfl, rfl, ⟨Nat.le_add_right _ _, Nat.le_add_right _ _, nofun, nofun, fun _ => ?_,
        fun _ => ?_⟩, rfl, rfl⟩
      · simp
      · simpa using hsame

/-- The opcodes cover both sequences. -/
theorem opcodes_chain [DecidableEq α] (a b : List α) :
    Chain a b 0 0 (opcodes a b) a.length b.length :=
  opcodesFrom_chain (commonBlocks_valid a b)

theorem Opcode.Valid.keepLast (h : c.Valid a b) (htag : c.tag = .equal) :
    (c.keepLast n).Valid a b := by
  have hlength := h.length_eq htag
  have hi := h.i_le
  have hj := h.j_le
  refine ⟨?_, ?_, fun hdelete => ?_, fun hinsert => ?_, fun _ => ?_, fun _ d hd => ?_⟩
  · simp only [Opcode.keepLast]
    omega
  · simp only [Opcode.keepLast]
    omega
  · cases htag.symm.trans hdelete
  · cases htag.symm.trans hinsert
  · simp only [Opcode.keepLast]
    omega
  · simp only [Opcode.keepLast] at hd ⊢
    have hsame := h.same htag (max c.i1 (c.i2 - n) - c.i1 + d) (by omega)
    have hleft : c.i1 + (max c.i1 (c.i2 - n) - c.i1 + d) = max c.i1 (c.i2 - n) + d := by omega
    have hright : c.j1 + (max c.i1 (c.i2 - n) - c.i1 + d) = max c.j1 (c.j2 - n) + d := by omega
    rwa [hleft, hright] at hsame

theorem Opcode.Valid.keepFirst (h : c.Valid a b) (htag : c.tag = .equal) :
    (c.keepFirst n).Valid a b := by
  have hlength := h.length_eq htag
  have hi := h.i_le
  have hj := h.j_le
  refine ⟨?_, ?_, fun hdelete => ?_, fun hinsert => ?_, fun _ => ?_, fun _ d hd => ?_⟩
  · simp only [Opcode.keepFirst]
    omega
  · simp only [Opcode.keepFirst]
    omega
  · cases htag.symm.trans hdelete
  · cases htag.symm.trans hinsert
  · simp only [Opcode.keepFirst]
    omega
  · simp only [Opcode.keepFirst] at hd ⊢
    exact h.same htag d (by omega)

/-- Parts of one equal part are equal. -/
theorem Opcode.Valid.slice_eq (h : c.Valid a b) (htag : c.tag = .equal) {x y : ℕ} (hxy : x ≤ y)
    (hy : y ≤ c.i2 - c.i1) :
    slice a (c.i1 + x) (c.i1 + y) = slice b (c.j1 + x) (c.j1 + y) := by
  refine slice_eq_of_same (fun d hd => ?_) (by omega) (by omega) (by omega)
  have hsame := h.same htag (x + d) (by omega)
  rwa [← Nat.add_assoc, ← Nat.add_assoc] at hsame

/-! ## Groups -/

/-- The indices at which a nonempty chain of opcodes begins and ends. -/
structure Span where
  i1 : ℕ
  i2 : ℕ
  j1 : ℕ
  j2 : ℕ
  deriving DecidableEq, Repr

/-- `group[0]` and `group[-1]`. No group is empty. -/
def spanOf : List Opcode → Span
  | [] => ⟨0, 0, 0, 0⟩
  | first :: rest =>
    let last := (first :: rest).getLast (List.cons_ne_nil _ _)
    ⟨first.i1, last.i2, first.j1, last.j2⟩

/-- The groups cover what differs: from `i` and `j` on, the sequences are equal up to the first
group, between the groups and after the last one. -/
def Covers (a b : List α) (i j : ℕ) : List (List Opcode) → Prop
  | [] => a.drop i = b.drop j
  | group :: groups =>
    group ≠ [] ∧ ∃ i1 j1 i2 j2, i ≤ i1 ∧ j ≤ j1 ∧ slice a i i1 = slice b j j1 ∧
      Chain a b i1 j1 group i2 j2 ∧ i2 ≤ a.length ∧ j2 ≤ b.length ∧ Covers a b i2 j2 groups

theorem Chain.spanOf_eq (h : Chain a b i j codes i' j') (hne : codes ≠ []) :
    spanOf codes = ⟨i, i', j, j'⟩ := by
  induction codes generalizing i j with
  | nil => exact absurd rfl hne
  | cons c rest ih =>
    obtain ⟨rfl, rfl, -, hrest⟩ := h
    cases rest with
    | nil =>
      obtain ⟨rfl, rfl⟩ := hrest
      rfl
    | cons next rest =>
      have hnext := ih hrest (List.cons_ne_nil _ _)
      simp only [spanOf, Span.mk.injEq] at hnext ⊢
      rw [List.getLast_cons (List.cons_ne_nil _ _)]
      exact ⟨trivial, hnext.2.1, trivial, hnext.2.2.2⟩

theorem keepFirst_eq (h : c.Valid a b) (htag : c.tag = .equal) :
    (c.keepFirst n).i2 = c.i1 + min n (c.i2 - c.i1) ∧
      (c.keepFirst n).j2 = c.j1 + min n (c.i2 - c.i1) := by
  have hlength := h.length_eq htag
  have hi := h.i_le
  have hj := h.j_le
  simp only [Opcode.keepFirst]
  omega

theorem keepLast_eq (h : c.Valid a b) (htag : c.tag = .equal) :
    (c.keepLast n).i1 = c.i1 + (c.i2 - c.i1 - n) ∧
      (c.keepLast n).j1 = c.j1 + (c.i2 - c.i1 - n) := by
  have hlength := h.length_eq htag
  have hi := h.i_le
  have hj := h.j_le
  simp only [Opcode.keepLast]
  omega

theorem trimFirst_chain (h : Chain a b i j codes i' j') :
    ∃ i0 j0, i ≤ i0 ∧ j ≤ j0 ∧ slice a i i0 = slice b j j0 ∧
      Chain a b i0 j0 (trimFirst n codes) i' j' := by
  cases codes with
  | nil => exact ⟨i, j, Nat.le_refl i, Nat.le_refl j, by simp, h⟩
  | cons c rest =>
    obtain ⟨rfl, rfl, hvalid, hrest⟩ := h
    rw [trimFirst]
    split_ifs with htag
    · obtain ⟨hi, hj⟩ := keepLast_eq (n := n) hvalid htag
      refine ⟨_, _, by omega, by omega, ?_, rfl, rfl, hvalid.keepLast htag, hrest⟩
      rw [hi, hj]
      exact hvalid.slice_eq htag (Nat.zero_le _) (Nat.sub_le _ _)
    · exact ⟨_, _, Nat.le_refl _, Nat.le_refl _, by simp, rfl, rfl, hvalid, hrest⟩

/-- What follows equal parts is equal, if the ends are. -/
theorem drop_eq_of_slice_eq (hi : i ≤ i') (hj : j ≤ j') (h : slice a i i' = slice b j j')
    (hdrop : a.drop i' = b.drop j') : a.drop i = b.drop j := by
  rw [← slice_append_drop hi, ← slice_append_drop hj, h, hdrop]

theorem slice_eq_trans (hi : i ≤ i') (hi' : i' ≤ i'') (hj : j ≤ j') (hj' : j' ≤ j'')
    (h : slice a i i' = slice b j j') (h' : slice a i' i'' = slice b j' j'') :
    slice a i i'' = slice b j j'' := by
  rw [← slice_append hi hi', ← slice_append hj hj', h, h']

theorem trimLast_chain (h : Chain a b i j codes i' j') (hdrop : a.drop i' = b.drop j') :
    ∃ i0 j0, i0 ≤ i' ∧ j0 ≤ j' ∧ Chain a b i j (trimLast n codes) i0 j0 ∧
      a.drop i0 = b.drop j0 := by
  fun_induction trimLast n codes generalizing i j with
  | case1 => exact ⟨i', j', Nat.le_refl i', Nat.le_refl j', h, hdrop⟩
  | case2 c =>
    obtain ⟨rfl, rfl, hvalid, rfl, rfl⟩ := h
    split_ifs with htag
    · obtain ⟨hi, hj⟩ := keepFirst_eq (n := n) hvalid htag
      have hlength := hvalid.length_eq htag
      have hile := hvalid.i_le
      have hjle := hvalid.j_le
      refine ⟨_, _, by omega, by omega, ⟨rfl, rfl, hvalid.keepFirst htag, rfl, rfl⟩, ?_⟩
      refine drop_eq_of_slice_eq (by omega) (by omega) ?_ hdrop
      have hslice := hvalid.slice_eq htag (Nat.min_le_right n _) (Nat.le_refl _)
      rwa [← hi, ← hj, Nat.add_sub_cancel' hile, hlength, Nat.add_sub_cancel' hjle] at hslice
    · exact ⟨_, _, Nat.le_refl _, Nat.le_refl _, ⟨rfl, rfl, hvalid, rfl, rfl⟩, hdrop⟩
  | case3 c next rest ih =>
    obtain ⟨rfl, rfl, hvalid, hrest⟩ := h
    obtain ⟨i0, j0, hi, hj, hchain, hend⟩ := ih hrest
    exact ⟨i0, j0, hi, hj, ⟨rfl, rfl, hvalid, hchain⟩, hend⟩

theorem covers_of_not_showsChange {group : List Opcode} (h : Chain a b i j group i' j')
    (hshows : showsChange group = false) : slice a i i' = slice b j j' := by
  cases group with
  | nil =>
    obtain ⟨rfl, rfl⟩ := h
    simp
  | cons c rest =>
    cases rest with
    | nil =>
      obtain ⟨rfl, rfl, hvalid, rfl, rfl⟩ := h
      have htag : c.tag = .equal := by simpa [showsChange] using hshows
      have hlength := hvalid.length_eq htag
      have hslice := hvalid.slice_eq htag (Nat.zero_le _) (Nat.le_refl _)
      rwa [Nat.add_zero, Nat.add_zero, Nat.add_sub_cancel' hvalid.i_le, hlength,
        Nat.add_sub_cancel' hvalid.j_le] at hslice
    | cons next rest => cases hshows

/-- The loop over the opcodes: the group so far follows equal parts, and the rest follows it. -/
theorem groupFrom_covers {group : List Opcode} {i0 j0 i1 j1 : ℕ} (hi : i0 ≤ i1) (hj : j0 ≤ j1)
    (hslice : slice a i0 i1 = slice b j0 j1) (hgroup : Chain a b i1 j1 group i j)
    (h : Chain a b i j codes i' j') (ha : i' ≤ a.length) (hb : j' ≤ b.length)
    (hdrop : a.drop i' = b.drop j') : Covers a b i0 j0 (groupFrom n group codes) := by
  induction codes generalizing group i j i0 j0 i1 j1 with
  | nil =>
    obtain ⟨rfl, rfl⟩ := h
    rw [groupFrom]
    split_ifs with hshows
    · refine ⟨fun hnil => ?_, i1, j1, i, j, hi, hj, hslice, hgroup, ha, hb, hdrop⟩
      rw [hnil] at hshows
      cases hshows
    · have hle := hgroup.le
      refine drop_eq_of_slice_eq (hi.trans hle.1) (hj.trans hle.2) ?_ hdrop
      exact slice_eq_trans hi hle.1 hj hle.2 hslice
        (covers_of_not_showsChange hgroup (by simpa using hshows))
  | cons c rest ih =>
    obtain ⟨rfl, rfl, hvalid, hrest⟩ := h
    rw [groupFrom]
    split_ifs with hlong
    · obtain ⟨htag, hlength⟩ := hlong
      obtain ⟨hfirst, hfirst'⟩ := keepFirst_eq (n := n) hvalid htag
      obtain ⟨hlast, hlast'⟩ := keepLast_eq (n := n) hvalid htag
      have hle := hrest.le
      have hlength' := hvalid.length_eq htag
      have hjle := hvalid.j_le
      refine ⟨by simp, i1, j1, _, _, hi, hj, hslice,
        hgroup.append ⟨rfl, rfl, hvalid.keepFirst htag, rfl, rfl⟩, by omega, by omega, ?_⟩
      refine ih (by omega) (by omega) ?_ ⟨rfl, rfl, hvalid.keepLast htag, rfl, rfl⟩ hrest
      rw [hfirst, hfirst', hlast, hlast']
      exact hvalid.slice_eq htag (by omega) (Nat.sub_le _ _)
    · exact ih hi hj hslice (hgroup.append ⟨rfl, rfl, hvalid, rfl, rfl⟩) hrest

/-- One equal part alone makes no group. -/
theorem groupFrom_equal (length : ℕ) :
    groupFrom n [] (trimLast n (trimFirst n [⟨.equal, 0, length, 0, length⟩])) = [] := by
  have hshort : ¬ n + n < min length (max 0 (length - n) + n) - max 0 (length - n) := by omega
  simp only [trimFirst, trimLast, if_true, Opcode.keepLast, Opcode.keepFirst, groupFrom]
  rw [if_neg (fun h => hshort h.2)]
  rfl

/-- Outside the groups the sequences are equal. -/
theorem groupedOpcodes_covers [DecidableEq α] (n : ℕ) (a b : List α) :
    Covers a b 0 0 (groupedOpcodes n a b) := by
  have hchain := opcodes_chain a b
  rw [groupedOpcodes]
  split_ifs with hnil
  · rw [hnil] at hchain
    have ha : a = [] := List.eq_nil_of_length_eq_zero hchain.1.symm
    have hb : b = [] := List.eq_nil_of_length_eq_zero hchain.2.symm
    rw [groupFrom_equal, ha, hb]
    rfl
  · obtain ⟨i0, j0, hi, hj, hslice, hfirst⟩ := trimFirst_chain (n := n) hchain
    obtain ⟨i1, j1, ha, hb, hlast, hdrop⟩ := trimLast_chain (n := n) hfirst (by simp)
    have hempty : Chain a b i0 j0 [] i0 j0 := ⟨rfl, rfl⟩
    exact groupFrom_covers hi hj hslice hempty hlast ha hb hdrop

theorem opcodes_self [DecidableEq α] (s : List α) :
    opcodes s s = if s.length = 0 then [] else [⟨.equal, 0, s.length, 0, s.length⟩] := by
  rw [opcodes, matchingBlocks, commonBlocks_self]
  by_cases hzero : s.length = 0
  · rw [if_pos hzero, hzero]
    rfl
  · have hblock : remembered ⟨0, 0, s.length⟩ = [⟨0, 0, s.length⟩] := if_neg hzero
    rw [if_neg hzero, hblock]
    simp only [List.singleton_append, opcodesFrom, change, if_neg hzero]
    simp

/-- A sequence and itself have no groups. -/
theorem groupedOpcodes_self [DecidableEq α] (n : ℕ) (s : List α) :
    groupedOpcodes n s s = [] := by
  rw [groupedOpcodes, opcodes_self]
  by_cases hzero : s.length = 0
  · rw [if_pos hzero, if_pos rfl]
    exact groupFrom_equal 1
  · rw [if_neg hzero, if_neg (List.cons_ne_nil _ _)]
    exact groupFrom_equal _

end Chains

end Difflib
