import Mathlib.Data.List.Count
import Mathlib.Data.Nat.Notation
import Mathlib.Logic.Function.Basic
import Mathlib.Order.Nat

/-!
# Matching blocks of two sequences

`SequenceMatcher(None, a, b)` of Python's `difflib`. A longest match of two regions is found row by
row: a run that ends at two indices is one longer than the run that ends before both. What is left
and right of the match is searched in the same way.

## Main results

* `findLongestMatch_valid`, `commonBlocks_valid` — the blocks are equal parts, in order.
* `commonBlocks_self` — a sequence has one block in common with itself.
-/

namespace Difflib

variable {α : Type} [DecidableEq α]

/-- `a[i : i + size]` is equal to `b[j : j + size]`. -/
structure Match where
  i : ℕ
  j : ℕ
  size : ℕ
  deriving DecidableEq, Repr

/-- `a[alo : ahi]` and `b[blo : bhi]` -/
structure Region where
  alo : ℕ
  ahi : ℕ
  blo : ℕ
  bhi : ℕ

section Search

variable (a b : List α)

/-- `autojunk`: in a long sequence an element with many occurrences is no place to start. -/
def popular (x : α) : Bool := 200 ≤ b.length && b.length / 100 + 1 < b.count x

/-- `b2j`: where an element is that is not popular. -/
def b2j (x : α) : List ℕ :=
  if popular b x then [] else (List.range b.length).filter fun j => b[j]? = some x

/-- The indices `j` of row `i`. They ascend, so that `break` drops what the bound drops. -/
def candidates (r : Region) (i : ℕ) : List ℕ :=
  match a[i]? with
  | some x => (b2j b x).filter fun j => r.blo ≤ j ∧ j < r.bhi
  | none => []

/-- `j2lenget(j - 1, 0) + 1` -/
def runLength (lengths : ℕ → ℕ) : ℕ → ℕ
  | 0 => 1
  | j + 1 => lengths j + 1

/-- The body of the inner loop. -/
def visit (lengths : ℕ → ℕ) (i : ℕ) (state : Match × (ℕ → ℕ)) (j : ℕ) : Match × (ℕ → ℕ) :=
  let k := runLength lengths j
  (if state.1.size < k then ⟨i + 1 - k, j + 1 - k, k⟩ else state.1, Function.update state.2 j k)

/-- The body of the outer loop: the best match so far and the lengths of row `i`. -/
def scanRow (r : Region) (i : ℕ) (best : Match) (lengths : ℕ → ℕ) : Match × (ℕ → ℕ) :=
  (candidates a b r i).foldl (visit lengths i) (best, fun _ => 0)

/-- The outer loop, with the number of rows that are left. -/
def scanRows (r : Region) : ℕ → ℕ → Match → (ℕ → ℕ) → Match
  | 0, _, best, _ => best
  | rows + 1, i, best, lengths =>
    let (best, lengths) := scanRow a b r i best lengths
    scanRows r rows (i + 1) best lengths

/-- The first loop after the search. -/
def extendLeft (r : Region) : ℕ → ℕ → ℕ → Match
  | i + 1, j + 1, size =>
    if r.alo < i + 1 ∧ r.blo < j + 1 ∧ a[i]? = b[j]? then extendLeft r i j (size + 1)
    else ⟨i + 1, j + 1, size⟩
  | i, j, size => ⟨i, j, size⟩

/-- The second loop after the search, with a bound on its steps. -/
def extendRight (r : Region) : ℕ → Match → Match
  | 0, m => m
  | steps + 1, m =>
    if m.i + m.size < r.ahi ∧ m.j + m.size < r.bhi ∧ a[m.i + m.size]? = b[m.j + m.size]? then
      extendRight r steps { m with size := m.size + 1 }
    else m

/-- `find_longest_match`. There is no junk, so that its last two loops do nothing. -/
def findLongestMatch (r : Region) : Match :=
  let best := scanRows a b r (r.ahi - r.alo) r.alo ⟨r.alo, r.blo, 0⟩ fun _ => 0
  extendRight a b r r.ahi (extendLeft a b r best.i best.j best.size)

/-- The loop of `get_matching_blocks`, in the order of the sorted result. Each match takes an
element of the first sequence, which bounds the depth. -/
def blocksWithin : ℕ → Region → List Match
  | 0, _ => []
  | depth + 1, r =>
    let m := findLongestMatch a b r
    if m.size = 0 then []
    else
      (if r.alo < m.i ∧ r.blo < m.j then blocksWithin depth ⟨r.alo, m.i, r.blo, m.j⟩ else []) ++
        m ::
        if m.i + m.size < r.ahi ∧ m.j + m.size < r.bhi then
          blocksWithin depth ⟨m.i + m.size, r.ahi, m.j + m.size, r.bhi⟩
        else []

/-- `[(i1, j1, k1)]`, if this is no dummy. -/
def remembered (m : Match) : List Match := if m.size = 0 then [] else [m]

/-- `non_adjacent` -/
def collapse (current : Match) : List Match → List Match
  | [] => remembered current
  | m :: rest =>
    if current.i + current.size = m.i ∧ current.j + current.size = m.j then
      collapse { current with size := current.size + m.size } rest
    else remembered current ++ collapse m rest

/-- The blocks of `get_matching_blocks` before the sentinel. -/
def commonBlocks : List Match :=
  collapse ⟨0, 0, 0⟩ (blocksWithin a b (a.length + 1) ⟨0, a.length, 0, b.length⟩)

/-- `get_matching_blocks` -/
def matchingBlocks : List Match := commonBlocks a b ++ [⟨a.length, b.length, 0⟩]

end Search

/-! ## Valid matches -/

section Valid

variable {a b : List α} {r : Region} {m best : Match} {i j k : ℕ} {lengths : ℕ → ℕ}

/-- A match inside a region. -/
structure IsMatch (a b : List α) (r : Region) (m : Match) : Prop where
  alo_le : r.alo ≤ m.i
  le_ahi : m.i + m.size ≤ r.ahi
  blo_le : r.blo ≤ m.j
  le_bhi : m.j + m.size ≤ r.bhi
  same : ∀ d < m.size, a[m.i + d]? = b[m.j + d]?

/-- A match of `k` elements that ends before `i` and `j`. -/
def RunTo (a b : List α) (r : Region) (i j k : ℕ) : Prop :=
  ∃ i' j', i' + k = i ∧ j' + k = j ∧ IsMatch a b r ⟨i', j', k⟩

/-- The lengths of the runs that end before `i`. -/
def RowOf (a b : List α) (r : Region) (i : ℕ) (lengths : ℕ → ℕ) : Prop :=
  ∀ j, 0 < lengths j → RunTo a b r i (j + 1) (lengths j)

theorem mem_candidates (h : j ∈ candidates a b r i) :
    r.blo ≤ j ∧ j < r.bhi ∧ ∃ x, a[i]? = some x ∧ b[j]? = some x ∧ popular b x = false := by
  unfold candidates at h
  split at h
  next x hx =>
    obtain ⟨hmem, hbounds⟩ := List.mem_filter.mp h
    simp only [decide_eq_true_eq] at hbounds
    unfold b2j at hmem
    split at hmem
    · cases hmem
    next hpopular =>
      obtain ⟨-, hj⟩ := List.mem_filter.mp hmem
      exact ⟨hbounds.1, hbounds.2, x, hx, by simpa using hj, by simpa using hpopular⟩
  · cases h

/-- A run goes on at two equal elements. -/
theorem runTo_succ (hrow : RowOf a b r i lengths) (hlo : r.alo ≤ i) (hhi : i < r.ahi)
    (hj : j ∈ candidates a b r i) : RunTo a b r (i + 1) (j + 1) (runLength lengths j) := by
  obtain ⟨hblo, hbhi, x, ha, hb, -⟩ := mem_candidates hj
  have hsingle : RunTo a b r (i + 1) (j + 1) 1 := by
    refine ⟨i, j, rfl, rfl, hlo, hhi, hblo, hbhi, fun d hd => ?_⟩
    obtain rfl := Nat.lt_one_iff.mp hd
    exact ha.trans hb.symm
  cases j with
  | zero => exact hsingle
  | succ j =>
    rw [runLength]
    rcases Nat.eq_zero_or_pos (lengths j) with hzero | hpos
    · rw [hzero]
      exact hsingle
    · obtain ⟨i', j', hi, hj, hrun⟩ := hrow j hpos
      refine ⟨i', j', by omega, by omega, hrun.alo_le, ?_, hrun.blo_le, ?_, fun d hd => ?_⟩
      · dsimp only
        omega
      · dsimp only
        omega
      · rcases Nat.lt_or_eq_of_le (Nat.le_of_lt_succ hd) with hd | rfl
        · exact hrun.same d hd
        · dsimp only
          rw [hi, hj, ha, hb]

theorem visit_valid (hrow : RowOf a b r i lengths) (hlo : r.alo ≤ i) (hhi : i < r.ahi)
    (hj : j ∈ candidates a b r i) {state : Match × (ℕ → ℕ)} (hbest : IsMatch a b r state.1)
    (hnext : RowOf a b r (i + 1) state.2) :
    IsMatch a b r (visit lengths i state j).1 ∧
      RowOf a b r (i + 1) (visit lengths i state j).2 := by
  have hrun := runTo_succ hrow hlo hhi hj
  constructor
  · unfold visit
    dsimp only
    split_ifs
    · obtain ⟨i', j', hi', hj', hmatch⟩ := hrun
      rw [← hi', ← hj', Nat.add_sub_cancel, Nat.add_sub_cancel]
      exact hmatch
    · exact hbest
  · intro other hother
    unfold visit at hother ⊢
    dsimp only at hother ⊢
    by_cases heq : other = j
    · subst heq
      rw [Function.update_self]
      exact hrun
    · rw [Function.update_of_ne heq] at hother ⊢
      exact hnext other hother

theorem scanRow_valid (hrow : RowOf a b r i lengths) (hlo : r.alo ≤ i) (hhi : i < r.ahi)
    (hbest : IsMatch a b r best) :
    IsMatch a b r (scanRow a b r i best lengths).1 ∧
      RowOf a b r (i + 1) (scanRow a b r i best lengths).2 := by
  refine List.foldlRecOn (motive := fun state : Match × (ℕ → ℕ) =>
    IsMatch a b r state.1 ∧ RowOf a b r (i + 1) state.2) _ _ ⟨hbest, fun _ h => nomatch h⟩ ?_
  rintro state ⟨hmatch, hnext⟩ j hj
  exact visit_valid hrow hlo hhi hj hmatch hnext

theorem scanRows_valid {rows : ℕ} (hrow : RowOf a b r i lengths) (hlo : r.alo ≤ i)
    (hhi : i + rows ≤ r.ahi) (hbest : IsMatch a b r best) :
    IsMatch a b r (scanRows a b r rows i best lengths) := by
  induction rows generalizing i best lengths with
  | zero => exact hbest
  | succ rows ih =>
    obtain ⟨hmatch, hnext⟩ := scanRow_valid hrow hlo (by omega) hbest
    exact ih hnext (by omega) (by omega) hmatch

theorem extendLeft_valid (h : IsMatch a b r ⟨i, j, k⟩) :
    IsMatch a b r (extendLeft a b r i j k) := by
  fun_induction extendLeft a b r i j k with
  | case1 i j size hstep ih =>
    obtain ⟨hi, hj, hsame⟩ := hstep
    obtain ⟨-, hahi, -, hbhi, hrest⟩ := h
    dsimp only at hahi hbhi hrest
    refine ih ⟨Nat.le_of_lt_succ hi, ?_, Nat.le_of_lt_succ hj, ?_, fun d hd => ?_⟩
    · dsimp only
      omega
    · dsimp only
      omega
    · cases d with
      | zero => exact hsame
      | succ d =>
        have hprevious := hrest d (Nat.lt_of_succ_lt_succ hd)
        grind
  | case2 => exact h
  | case3 => exact h

theorem extendRight_valid {steps : ℕ} (h : IsMatch a b r m) :
    IsMatch a b r (extendRight a b r steps m) := by
  fun_induction extendRight a b r steps m with
  | case1 => exact h
  | case2 steps m hstep ih =>
    obtain ⟨hi, hj, hsame⟩ := hstep
    refine ih ⟨h.alo_le, hi, h.blo_le, hj, fun d hd => ?_⟩
    rcases Nat.lt_or_eq_of_le (Nat.le_of_lt_succ hd) with hd | rfl
    · exact h.same d hd
    · exact hsame
  | case3 => exact h

/-- What is found is a match of the region. -/
theorem findLongestMatch_valid (ha : r.alo ≤ r.ahi) (hb : r.blo ≤ r.bhi) :
    IsMatch a b r (findLongestMatch a b r) := by
  refine extendRight_valid (extendLeft_valid (scanRows_valid ?_ (Nat.le_refl _) ?_ ?_))
  · exact fun _ h => nomatch h
  · omega
  · exact ⟨Nat.le_refl _, ha, Nat.le_refl _, hb, nofun⟩

/-- Matches one after the other, between two pairs of indices. -/
def BlocksFrom (a b : List α) : ℕ → ℕ → List Match → ℕ → ℕ → Prop
  | i, j, [], i', j' => i ≤ i' ∧ j ≤ j'
  | i, j, m :: rest, i', j' =>
    i ≤ m.i ∧ j ≤ m.j ∧ (∀ d < m.size, a[m.i + d]? = b[m.j + d]?) ∧
      BlocksFrom a b (m.i + m.size) (m.j + m.size) rest i' j'

variable {blocks more : List Match} {i' j' i'' j'' : ℕ}

omit [DecidableEq α] in
theorem BlocksFrom.mono (h : BlocksFrom a b i j blocks i' j') (hi : i'' ≤ i) (hj : j'' ≤ j) :
    BlocksFrom a b i'' j'' blocks i' j' := by
  cases blocks with
  | nil => exact ⟨Nat.le_trans hi h.1, Nat.le_trans hj h.2⟩
  | cons m rest => exact ⟨Nat.le_trans hi h.1, Nat.le_trans hj h.2.1, h.2.2⟩

omit [DecidableEq α] in
theorem BlocksFrom.append (h : BlocksFrom a b i j blocks i' j')
    (hmore : BlocksFrom a b i' j' more i'' j'') : BlocksFrom a b i j (blocks ++ more) i'' j'' := by
  induction blocks generalizing i j with
  | nil => exact hmore.mono h.1 h.2
  | cons m rest ih => exact ⟨h.1, h.2.1, h.2.2.1, ih h.2.2.2⟩

theorem blocksWithin_valid {depth : ℕ} (ha : r.alo ≤ r.ahi) (hb : r.blo ≤ r.bhi) :
    BlocksFrom a b r.alo r.blo (blocksWithin a b depth r) r.ahi r.bhi := by
  induction depth generalizing r with
  | zero => exact ⟨ha, hb⟩
  | succ depth ih =>
    have hmatch : IsMatch a b r (findLongestMatch a b r) := findLongestMatch_valid ha hb
    obtain ⟨m, hm⟩ : ∃ m, findLongestMatch a b r = m := ⟨_, rfl⟩
    rw [hm] at hmatch
    have hbefore := ih (r := ⟨r.alo, m.i, r.blo, m.j⟩) hmatch.alo_le hmatch.blo_le
    have hafter := ih (r := ⟨m.i + m.size, r.ahi, m.j + m.size, r.bhi⟩) hmatch.le_ahi hmatch.le_bhi
    rw [blocksWithin, hm]
    dsimp only at hbefore hafter ⊢
    split_ifs with hsize hleft hright hright
    · exact ⟨ha, hb⟩
    · exact hbefore.append ⟨Nat.le_refl _, Nat.le_refl _, hmatch.same, hafter⟩
    · exact hbefore.append ⟨Nat.le_refl _, Nat.le_refl _, hmatch.same, hmatch.le_ahi, hmatch.le_bhi⟩
    · exact ⟨hmatch.alo_le, hmatch.blo_le, hmatch.same, hafter⟩
    · exact ⟨hmatch.alo_le, hmatch.blo_le, hmatch.same, hmatch.le_ahi, hmatch.le_bhi⟩

omit [DecidableEq α] in
theorem BlocksFrom.remembered (h : BlocksFrom a b i j (m :: blocks) i' j')
    (hmore : BlocksFrom a b (m.i + m.size) (m.j + m.size) more i' j') :
    BlocksFrom a b i j (Difflib.remembered m ++ more) i' j' := by
  unfold Difflib.remembered
  split_ifs with hsize
  · rw [hsize] at hmore
    exact hmore.mono h.1 h.2.1
  · exact ⟨h.1, h.2.1, h.2.2.1, hmore⟩

omit [DecidableEq α] in
theorem collapse_valid (h : BlocksFrom a b i j (m :: blocks) i' j') :
    BlocksFrom a b i j (collapse m blocks) i' j' := by
  induction blocks generalizing m i j with
  | nil =>
    rw [collapse, ← List.append_nil (Difflib.remembered m)]
    exact h.remembered h.2.2.2
  | cons next rest ih =>
    rw [collapse]
    obtain ⟨hi, hj, hsame, hnext⟩ := h
    split_ifs with hadjacent
    · refine ih ⟨hi, hj, fun d hd => ?_, ?_⟩
      · dsimp only at hd ⊢
        rcases Nat.lt_or_ge d m.size with hlt | hge
        · exact hsame d hlt
        · have hrest := hnext.2.2.1 (d - m.size) (by omega)
          rwa [← hadjacent.1, ← hadjacent.2, Nat.add_assoc, Nat.add_assoc,
            Nat.add_sub_cancel' hge] at hrest
      · have hrest := hnext.2.2.2
        rwa [← hadjacent.1, ← hadjacent.2, Nat.add_assoc, Nat.add_assoc] at hrest
    · exact BlocksFrom.remembered ⟨hi, hj, hsame, hnext⟩ (ih hnext)

/-- The blocks are equal parts of both sequences, one after the other. -/
theorem commonBlocks_valid (a b : List α) :
    BlocksFrom a b 0 0 (commonBlocks a b) a.length b.length := by
  have hblocks : BlocksFrom a b 0 0 (blocksWithin a b (a.length + 1) ⟨0, a.length, 0, b.length⟩)
      a.length b.length :=
    blocksWithin_valid (r := ⟨0, a.length, 0, b.length⟩) (Nat.zero_le _) (Nat.zero_le _)
  exact collapse_valid ⟨Nat.le_refl 0, Nat.le_refl 0, fun d hd => absurd hd d.not_lt_zero, hblocks⟩

/-- The bound on the depth is never reached. -/
theorem blocksWithin_succ {depth : ℕ} (ha : r.alo ≤ r.ahi) (hb : r.blo ≤ r.bhi)
    (hdepth : r.ahi - r.alo < depth) :
    blocksWithin a b (depth + 1) r = blocksWithin a b depth r := by
  induction depth generalizing r with
  | zero => omega
  | succ depth ih =>
    obtain ⟨m, hm⟩ : ∃ m, findLongestMatch a b r = m := ⟨_, rfl⟩
    have hmatch : IsMatch a b r m := hm ▸ findLongestMatch_valid ha hb
    obtain ⟨halo, hahi, hblo, hbhi, -⟩ := hmatch
    conv_lhs => rw [blocksWithin, hm]
    conv_rhs => rw [blocksWithin, hm]
    by_cases hsize : m.size = 0
    · rw [if_pos hsize, if_pos hsize]
    · have hbefore : r.alo < m.i ∧ r.blo < m.j →
          blocksWithin a b (depth + 1) ⟨r.alo, m.i, r.blo, m.j⟩ =
            blocksWithin a b depth ⟨r.alo, m.i, r.blo, m.j⟩ :=
        fun _ => ih (r := ⟨r.alo, m.i, r.blo, m.j⟩) halo hblo (by dsimp only; omega)
      have hafter : m.i + m.size < r.ahi ∧ m.j + m.size < r.bhi →
          blocksWithin a b (depth + 1) ⟨m.i + m.size, r.ahi, m.j + m.size, r.bhi⟩ =
            blocksWithin a b depth ⟨m.i + m.size, r.ahi, m.j + m.size, r.bhi⟩ :=
        fun _ => ih (r := ⟨m.i + m.size, r.ahi, m.j + m.size, r.bhi⟩) hahi hbhi
          (by dsimp only; omega)
      rw [if_neg hsize, if_neg hsize, if_ctx_congr Iff.rfl hbefore fun _ => rfl,
        if_ctx_congr Iff.rfl hafter fun _ => rfl]

end Valid

/-! ## A sequence and itself -/

section Self

variable {s : List α} {i j : ℕ}

/-- The length of the run of elements that are not popular and end before an index. -/
def diagonal (s : List α) : ℕ → ℕ
  | 0 => 0
  | i + 1 =>
    match s[i]? with
    | some x => if popular s x then 0 else diagonal s i + 1
    | none => 0

/-- What the search has found before row `i`: the best match is on the diagonal, no run is longer
than those on the diagonal, and that on the diagonal is in the row before. -/
structure OnDiagonal (s : List α) (i : ℕ) (best : Match) (lengths : ℕ → ℕ) : Prop where
  best_eq : best.i = best.j
  longest : ∀ i' ≤ i, diagonal s i' ≤ best.size
  lengths_le : ∀ j, lengths j ≤ diagonal s i ∧ lengths j ≤ diagonal s (j + 1)
  lengths_eq : ∀ i', i = i' + 1 → lengths i' = diagonal s i

/-- The region of a whole sequence and itself. -/
def whole (s : List α) : Region := ⟨0, s.length, 0, s.length⟩

theorem mem_candidates_whole :
    j ∈ candidates s s (whole s) i ↔
      ∃ x, s[i]? = some x ∧ s[j]? = some x ∧ popular s x = false := by
  constructor
  · exact fun h => (mem_candidates h).2.2
  · rintro ⟨x, hi, hj, hpopular⟩
    have hlt : j < s.length := (List.getElem?_eq_some_iff.mp hj).1
    have hmem : j ∈ b2j s x := by
      rw [b2j, hpopular]
      exact List.mem_filter.mpr ⟨List.mem_range.mpr hlt, decide_eq_true hj⟩
    rw [candidates, hi]
    exact List.mem_filter.mpr ⟨hmem, decide_eq_true ⟨Nat.zero_le j, hlt⟩⟩

theorem candidates_sorted : (candidates s s (whole s) i).Pairwise (· < ·) := by
  unfold candidates b2j
  split
  · split
    · exact List.Pairwise.nil
    · exact (List.pairwise_lt_range.filter _).filter _
  · exact List.Pairwise.nil

/-- What a row keeps of its runs. -/
theorem foldl_visit_lengths {lengths : ℕ → ℕ} (js : List ℕ) (state : Match × (ℕ → ℕ)) (j : ℕ) :
    (js.foldl (visit lengths i) state).2 j =
      if j ∈ js then runLength lengths j else state.2 j := by
  induction js generalizing state with
  | nil => rfl
  | cons other js ih =>
    rw [List.foldl_cons, ih]
    by_cases hmem : j ∈ js
    · simp [hmem]
    · by_cases heq : j = other
      · subst heq
        simp [visit]
      · simp [hmem, heq, visit]

/-- Runs that are not longer change nothing. -/
theorem foldl_visit_best {lengths : ℕ → ℕ} {js : List ℕ} {state : Match × (ℕ → ℕ)}
    (h : ∀ j ∈ js, runLength lengths j ≤ state.1.size) :
    (js.foldl (visit lengths i) state).1 = state.1 := by
  induction js generalizing state with
  | nil => rfl
  | cons j js ih =>
    obtain ⟨hj, hjs⟩ := List.forall_mem_cons.mp h
    have hsame : (visit lengths i state j).1 = state.1 := if_neg (by omega)
    rw [List.foldl_cons, ih (by rwa [hsame]), hsame]

theorem runLength_le {best : Match} {lengths : ℕ → ℕ} (h : OnDiagonal s i best lengths)
    (hj : j ∈ candidates s s (whole s) i) :
    runLength lengths j ≤ diagonal s (i + 1) ∧ runLength lengths j ≤ diagonal s (j + 1) := by
  obtain ⟨x, hi, hj, hpopular⟩ := mem_candidates_whole.mp hj
  simp only [diagonal, hi, hj, hpopular, Bool.false_eq_true, if_false]
  cases j with
  | zero => exact ⟨Nat.le_add_left _ _, Nat.le_add_left _ _⟩
  | succ j => exact ⟨Nat.succ_le_succ (h.lengths_le j).1, Nat.succ_le_succ (h.lengths_le j).2⟩

theorem runLength_self {best : Match} {lengths : ℕ → ℕ} (h : OnDiagonal s i best lengths)
    (hi : i ∈ candidates s s (whole s) i) : runLength lengths i = diagonal s (i + 1) := by
  obtain ⟨x, hx, -, hpopular⟩ := mem_candidates_whole.mp hi
  simp only [diagonal, hx, hpopular, Bool.false_eq_true, if_false]
  cases i with
  | zero => rfl
  | succ i => rw [runLength, h.lengths_eq i rfl]

theorem diagonal_eq_zero (h : i ∉ candidates s s (whole s) i) : diagonal s (i + 1) = 0 := by
  rw [mem_candidates_whole] at h
  rw [diagonal]
  split
  next x hx =>
    rw [if_pos]
    by_contra hpopular
    exact h ⟨x, hx, hx, by simpa using hpopular⟩
  · rfl

/-- The best match of a row: runs below the diagonal were found before from the other side, and
those above it are not longer than the one on it. -/
theorem scanRow_best {best : Match} {lengths : ℕ → ℕ} (h : OnDiagonal s i best lengths) :
    (scanRow s s (whole s) i best lengths).1.i = (scanRow s s (whole s) i best lengths).1.j ∧
      best.size ≤ (scanRow s s (whole s) i best lengths).1.size ∧
      diagonal s (i + 1) ≤ (scanRow s s (whole s) i best lengths).1.size := by
  by_cases hmem : i ∈ candidates s s (whole s) i
  · obtain ⟨below, above, hsplit⟩ := List.append_of_mem hmem
    have hsorted := candidates_sorted (s := s) (i := i)
    rw [hsplit, List.pairwise_append] at hsorted
    obtain ⟨-, -, hbelow⟩ := hsorted
    have hfirst : (below.foldl (visit lengths i) (best, fun _ => 0)).1 = best := by
      refine foldl_visit_best fun j hj => ?_
      have hle := (runLength_le h (hsplit ▸ List.mem_append_left _ hj)).2
      exact hle.trans (h.longest _ (hbelow j hj i List.mem_cons_self))
    obtain ⟨start, hstart⟩ : ∃ start, start = below.foldl (visit lengths i) (best, fun _ => 0) :=
      ⟨_, rfl⟩
    have hself := runLength_self h hmem
    -- the run on the diagonal
    have hvisit : (visit lengths i start i).1.i = (visit lengths i start i).1.j ∧
        best.size ≤ (visit lengths i start i).1.size ∧
        diagonal s (i + 1) ≤ (visit lengths i start i).1.size := by
      rw [← hstart] at hfirst
      unfold visit
      dsimp only
      rw [hfirst, hself]
      split_ifs with hless
      · exact ⟨rfl, Nat.le_of_lt hless, Nat.le_refl _⟩
      · exact ⟨h.best_eq, Nat.le_refl _, Nat.le_of_not_lt hless⟩
    have hrest : (scanRow s s (whole s) i best lengths).1 = (visit lengths i start i).1 := by
      rw [scanRow, hsplit, List.foldl_append, List.foldl_cons, ← hstart]
      refine foldl_visit_best fun j hj => ?_
      have hle := (runLength_le h (hsplit ▸
        List.mem_append_right _ (List.mem_cons_of_mem i hj))).1
      exact hle.trans hvisit.2.2
    rw [hrest]
    exact hvisit
  · have hnone : candidates s s (whole s) i = [] := by
      refine List.eq_nil_iff_forall_not_mem.mpr fun j hj => hmem ?_
      obtain ⟨x, hx, -, hpopular⟩ := mem_candidates_whole.mp hj
      exact mem_candidates_whole.mpr ⟨x, hx, hx, hpopular⟩
    rw [scanRow, hnone, diagonal_eq_zero hmem]
    exact ⟨h.best_eq, Nat.le_refl _, Nat.zero_le _⟩

theorem OnDiagonal.step {best : Match} {lengths : ℕ → ℕ} (h : OnDiagonal s i best lengths) :
    OnDiagonal s (i + 1) (scanRow s s (whole s) i best lengths).1
      (scanRow s s (whole s) i best lengths).2 := by
  obtain ⟨heq, hbest, hdiagonal⟩ := scanRow_best h
  have hlengths : ∀ j, (scanRow s s (whole s) i best lengths).2 j =
      if j ∈ candidates s s (whole s) i then runLength lengths j else 0 :=
    fun j => foldl_visit_lengths _ _ j
  refine ⟨heq, fun i' hi' => ?_, fun j => ?_, fun i' hi' => ?_⟩
  · rcases Nat.lt_or_eq_of_le hi' with hlt | rfl
    · exact (h.longest i' (Nat.le_of_lt_succ hlt)).trans hbest
    · exact hdiagonal
  · rw [hlengths]
    split_ifs with hmem
    · exact runLength_le h hmem
    · exact ⟨Nat.zero_le _, Nat.zero_le _⟩
  · obtain rfl := Nat.succ.inj hi'
    rw [hlengths]
    split_ifs with hmem
    · exact runLength_self h hmem
    · exact (diagonal_eq_zero hmem).symm

theorem scanRows_diagonal {rows : ℕ} {best : Match} {lengths : ℕ → ℕ}
    (h : OnDiagonal s i best lengths) :
    (scanRows s s (whole s) rows i best lengths).i =
      (scanRows s s (whole s) rows i best lengths).j := by
  induction rows generalizing i best lengths with
  | zero => exact h.best_eq
  | succ rows ih => exact ih h.step

theorem extendLeft_diagonal (k : ℕ) :
    extendLeft s s (whole s) i i k = ⟨0, 0, k + i⟩ := by
  induction i generalizing k with
  | zero => rfl
  | succ i ih =>
    rw [extendLeft, if_pos ⟨Nat.succ_pos i, Nat.succ_pos i, rfl⟩, ih]
    congr 1
    omega

theorem extendRight_diagonal {steps k : ℕ} (hle : k ≤ s.length) (hsteps : s.length ≤ k + steps) :
    extendRight s s (whole s) steps ⟨0, 0, k⟩ = ⟨0, 0, s.length⟩ := by
  induction steps generalizing k with
  | zero =>
    obtain rfl : k = s.length := by omega
    rfl
  | succ steps ih =>
    rw [extendRight]
    rcases Nat.lt_or_ge k s.length with hlt | hge
    · have hstep : 0 + k < (whole s).ahi ∧ 0 + k < (whole s).bhi ∧ s[0 + k]? = s[0 + k]? := by
        simpa [whole] using hlt
      rw [if_pos hstep]
      exact ih (k := k + 1) hlt (by omega)
    · have hstep : ¬ (0 + k < (whole s).ahi ∧ 0 + k < (whole s).bhi ∧ s[0 + k]? = s[0 + k]?) := by
        simpa [whole] using hge
      rw [if_neg hstep]
      obtain rfl : k = s.length := by omega
      rfl

theorem findLongestMatch_self (s : List α) :
    findLongestMatch s s (whole s) = ⟨0, 0, s.length⟩ := by
  have hstart : OnDiagonal s 0 ⟨0, 0, 0⟩ fun _ => 0 := by
    refine ⟨rfl, fun i' hi' => ?_, fun _ => ⟨Nat.zero_le _, Nat.zero_le _⟩, fun _ h => nomatch h⟩
    obtain rfl := Nat.le_zero.mp hi'
    exact Nat.le_refl 0
  have hvalid : IsMatch s s (whole s) (scanRows s s (whole s) s.length 0 ⟨0, 0, 0⟩ fun _ => 0) :=
    scanRows_valid (fun _ h => nomatch h) (Nat.le_refl _) (Nat.zero_add _).le
      ⟨Nat.le_refl _, Nat.zero_le _, Nat.le_refl _, Nat.zero_le _,
        fun d hd => absurd hd d.not_lt_zero⟩
  have hdiagonal : (scanRows s s (whole s) s.length 0 ⟨0, 0, 0⟩ fun _ => 0).i =
      (scanRows s s (whole s) s.length 0 ⟨0, 0, 0⟩ fun _ => 0).j := scanRows_diagonal hstart
  rw [findLongestMatch]
  simp only [whole, Nat.sub_zero] at hvalid hdiagonal ⊢
  rw [← hdiagonal]
  have hle : _ ≤ s.length := hvalid.le_ahi
  have hextend := extendLeft_diagonal (s := s)
    (i := (scanRows s s (whole s) s.length 0 ⟨0, 0, 0⟩ fun _ => 0).i)
  rw [whole] at hextend
  rw [hextend]
  exact extendRight_diagonal (by omega) (by omega)

/-- A sequence and itself have one block in common. -/
theorem commonBlocks_self (s : List α) : commonBlocks s s = remembered ⟨0, 0, s.length⟩ := by
  have hfind := findLongestMatch_self s
  rw [whole] at hfind
  rw [commonBlocks, blocksWithin, hfind]
  by_cases hsize : s.length = 0
  · rw [if_pos hsize, collapse, hsize]
  · rw [if_neg hsize, if_neg (fun h => absurd h.1 (Nat.lt_irrefl 0)), if_neg (by simp)]
    simp [collapse]

end Self

end Difflib
