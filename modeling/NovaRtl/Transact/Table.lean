import Mathlib.Algebra.Ring.Nat
import Mathlib.Data.List.Nodup
import Mathlib.Data.List.Induction
import Mathlib.Algebra.Order.BigOperators.Group.List

/-!
# Keyed tables

A table is a list of rows in insertion order whose key column has no repetition. This
module has what an update of one row does to membership, lookup and column sums, and the
assignment of an insertion-ordered dictionary.
-/

namespace Table

variable {α κ : Type*} [DecidableEq κ] {key : α → κ}

/-- Apply `f` to the rows with key `k`. -/
def updateAt (key : α → κ) (k : κ) (f : α → α) (rows : List α) : List α :=
  rows.map fun a => if key a = k then f a else a

theorem map_updateAt {β : Type*} (g : α → β) (k : κ) (f : α → α) (hf : ∀ a, g (f a) = g a)
    (rows : List α) : (updateAt key k f rows).map g = rows.map g := by
  simp only [updateAt, List.map_map]
  refine List.map_congr_left fun a _ => ?_
  simp only [Function.comp_apply]
  split <;> simp [hf]

omit [DecidableEq κ] in
/-- Rows with one key are one row. -/
theorem eq_of_key {rows : List α} (hrows : (rows.map key).Nodup) {a b : α}
    (ha : a ∈ rows) (hb : b ∈ rows) (h : key a = key b) : a = b :=
  List.inj_on_of_nodup_map hrows ha hb h

theorem mem_updateAt {rows : List α} (hrows : (rows.map key).Nodup) {a : α} (ha : a ∈ rows)
    {f : α → α} {b : α} :
    b ∈ updateAt key (key a) f rows ↔ b = f a ∨ (b ∈ rows ∧ key b ≠ key a) := by
  simp only [updateAt, List.mem_map]
  constructor
  · rintro ⟨c, hc, rfl⟩
    by_cases h : key c = key a
    · exact .inl (by rw [if_pos h, eq_of_key hrows hc ha h])
    · exact .inr (by rw [if_neg h]; exact ⟨hc, h⟩)
  · rintro (rfl | ⟨hb, hne⟩)
    · exact ⟨a, ha, if_pos rfl⟩
    · exact ⟨b, hb, if_neg hne⟩

/-- Without a row of that key nothing changes. -/
theorem updateAt_of_forall_ne {rows : List α} {k : κ} {f : α → α} (h : ∀ a ∈ rows, key a ≠ k) :
    updateAt key k f rows = rows := by
  unfold updateAt
  conv_rhs => rw [← List.map_id rows]
  exact List.map_congr_left fun a ha => if_neg (h a ha)

theorem updateAt_updateAt {rows : List α} {k : κ} {f g : α → α} (hf : ∀ a, key (f a) = key a) :
    updateAt key k g (updateAt key k f rows) = updateAt key k (g ∘ f) rows := by
  simp only [updateAt, List.map_map]
  refine List.map_congr_left fun a _ => ?_
  by_cases h : key a = k
  · simp [h, hf]
  · simp [h]

/-- Updating one row exchanges its weight for the new one in every column sum; the weights of
the other rows stay. -/
theorem sum_updateAt {rows : List α} (hrows : (rows.map key).Nodup) {a : α} (ha : a ∈ rows)
    (f : α → α) (weight weight' : α → ℕ)
    (hother : ∀ b ∈ rows, key b ≠ key a → weight' b = weight b) :
    ((updateAt key (key a) f rows).map weight').sum + weight a =
      (rows.map weight).sum + weight' (f a) := by
  induction rows with
  | nil => simp at ha
  | cons b rest ih =>
    simp only [List.map_cons, List.nodup_cons] at hrows
    rcases List.mem_cons.mp ha with rfl | ha
    · have hne : ∀ c ∈ rest, key c ≠ key a := fun c hc h =>
        hrows.1 (List.mem_map.mpr ⟨c, hc, h⟩)
      have hrest : updateAt key (key a) f rest = rest := updateAt_of_forall_ne hne
      have hsame : rest.map weight' = rest.map weight :=
        List.map_congr_left fun c hc => hother c (List.mem_cons_of_mem _ hc) (hne c hc)
      simp only [updateAt] at hrest
      simp only [updateAt, List.map_cons, hrest, if_true, List.sum_cons, hsame]
      omega
    · have hne : key b ≠ key a := fun h => hrows.1 (List.mem_map.mpr ⟨a, ha, h.symm⟩)
      have hrest := ih hrows.2 ha fun c hc => hother c (List.mem_cons_of_mem _ hc)
      have hb := hother b List.mem_cons_self hne
      simp only [updateAt] at hrest
      simp only [updateAt, List.map_cons, if_neg hne, List.sum_cons]
      omega

/-- Counting the rows of an updated table. -/
theorem countP_updateAt {rows : List α} (hrows : (rows.map key).Nodup) {a : α} (ha : a ∈ rows)
    (f : α → α) (p : α → Bool) :
    (updateAt key (key a) f rows).countP p + (if p a then 1 else 0) =
      rows.countP p + (if p (f a) then 1 else 0) := by
  have h := sum_updateAt hrows ha f (fun b => if p b then 1 else 0)
    (fun b => if p b then 1 else 0) fun _ _ _ => rfl
  have hsum : ∀ l : List α, (l.map fun b => if p b then 1 else 0).sum = l.countP p := by
    intro l
    induction l with
    | nil => rfl
    | cons b l ih => by_cases hb : p b <;> simp [ih, hb, Nat.add_comm]
  rwa [hsum, hsum] at h

omit [DecidableEq κ] in
theorem sum_filter (p : α → Bool) (weight : α → ℕ) (rows : List α) :
    ((rows.filter p).map weight).sum = (rows.map fun a => if p a then weight a else 0).sum := by
  induction rows with
  | nil => rfl
  | cons a rest ih =>
    rw [List.filter_cons, List.map_cons, List.sum_cons, ← ih]
    split <;> simp

/-! ## Lookup -/

def lookup (key : α → κ) (rows : List α) (k : κ) : Option α := rows.find? fun a => key a = k

theorem lookup_eq_some {rows : List α} (hrows : (rows.map key).Nodup) {k : κ} {a : α} :
    lookup key rows k = some a ↔ a ∈ rows ∧ key a = k := by
  unfold lookup
  constructor
  · intro h
    exact ⟨List.mem_of_find?_eq_some h, by simpa using List.find?_some h⟩
  · rintro ⟨ha, rfl⟩
    cases h : rows.find? fun b => key b = key a with
    | none => exact absurd (List.find?_eq_none.mp h a ha) (by simp)
    | some b =>
      have hb : key b = key a := by simpa using List.find?_some h
      rw [eq_of_key hrows (List.mem_of_find?_eq_some h) ha hb]

theorem lookup_eq_none {rows : List α} {k : κ} :
    lookup key rows k = none ↔ ∀ a ∈ rows, key a ≠ k := by
  simp [lookup]

/-! ## Dictionary assignment -/

/-- Assign the entry `a` under its key: in place when the key is there, else at the end. -/
def assign (key : α → κ) (rows : List α) (a : α) : List α :=
  if rows.any (fun b => key b = key a) then updateAt key (key a) (fun _ => a) rows
  else rows ++ [a]

theorem keys_assign (rows : List α) (a : α) :
    (assign key rows a).map key =
      if key a ∈ rows.map key then rows.map key else rows.map key ++ [key a] := by
  unfold assign
  have hany : rows.any (fun b => key b = key a) = true ↔ key a ∈ rows.map key := by
    simp only [List.any_eq_true, decide_eq_true_eq, List.mem_map]
  by_cases h : key a ∈ rows.map key
  · rw [if_pos (hany.mpr h), if_pos h]
    simp only [updateAt, List.map_map]
    refine List.map_congr_left fun b _ => ?_
    simp only [Function.comp_apply]
    split <;> simp_all
  · rw [if_neg (mt hany.mp h), if_neg h]
    simp

theorem nodup_assign {rows : List α} (hrows : (rows.map key).Nodup) (a : α) :
    ((assign key rows a).map key).Nodup := by
  rw [keys_assign]
  split
  · exact hrows
  · next h => exact List.Nodup.append hrows (List.nodup_singleton _) (by simpa using h)

theorem mem_assign {rows : List α} {a b : α} :
    b ∈ assign key rows a ↔ b = a ∨ (b ∈ rows ∧ key b ≠ key a) := by
  unfold assign updateAt
  split
  · next h =>
    obtain ⟨c, hc, hca⟩ : ∃ c ∈ rows, key c = key a := by simpa using h
    simp only [List.mem_map]
    constructor
    · rintro ⟨d, hd, rfl⟩
      by_cases hda : key d = key a
      · exact .inl (if_pos hda)
      · exact .inr (by rw [if_neg hda]; exact ⟨hd, hda⟩)
    · rintro (rfl | ⟨hb, hne⟩)
      · exact ⟨c, hc, if_pos hca⟩
      · exact ⟨b, hb, if_neg hne⟩
  · next h =>
    have hnone : ∀ c ∈ rows, key c ≠ key a := by simpa using h
    simp only [List.mem_append, List.mem_singleton]
    constructor
    · rintro (hb | rfl)
      · exact .inr ⟨hb, hnone b hb⟩
      · exact .inl rfl
    · rintro (rfl | ⟨hb, _⟩)
      · exact .inr rfl
      · exact .inl hb

theorem assign_of_mem {rows : List α} {a : α} (h : key a ∈ rows.map key) :
    assign key rows a = updateAt key (key a) (fun _ => a) rows := by
  obtain ⟨other, hmem, hkey⟩ := List.mem_map.mp h
  exact if_pos (List.any_eq_true.mpr ⟨other, hmem, by simpa using hkey⟩)

theorem assign_of_notMem {rows : List α} {a : α} (h : key a ∉ rows.map key) :
    assign key rows a = rows ++ [a] := by
  refine if_neg fun hany => h ?_
  obtain ⟨other, hmem, hkey⟩ := List.any_eq_true.mp hany
  exact List.mem_map.mpr ⟨other, hmem, by simpa using hkey⟩

theorem lookup_updateAt {rows : List α} {k : κ} {a : α} (hkey : key a = k) (k' : κ) :
    lookup key (updateAt key k (fun _ => a) rows) k' =
      if k = k' then (lookup key rows k').map fun _ => a else lookup key rows k' := by
  unfold lookup updateAt
  induction rows with
  | nil => simp
  | cons other rest ih =>
    rw [List.map_cons, List.find?_cons, List.find?_cons, ih]
    by_cases hother : key other = k
    · by_cases hk : k = k' <;> simp [hother, hkey, hk]
    · by_cases hk : k = k'
      · subst hk
        simp [hother]
      · cases hk' : decide (key other = k') <;> simp [hother, hk, hk']

/-- An assigned row is found under its key, and the others as before. -/
theorem lookup_assign {rows : List α} {a : α} {k : κ} :
    lookup key (assign key rows a) k = if key a = k then some a else lookup key rows k := by
  by_cases hmem : key a ∈ rows.map key
  · rw [assign_of_mem hmem, lookup_updateAt rfl]
    split
    next hk =>
      subst hk
      obtain ⟨other, hother, hfield⟩ := List.mem_map.mp hmem
      have hfound : (lookup key rows (key a)).isSome :=
        List.find?_isSome.mpr ⟨other, hother, by simpa using hfield⟩
      obtain ⟨found, hfound⟩ := Option.isSome_iff_exists.mp hfound
      rw [hfound, Option.map_some]
    next => rfl
  · rw [assign_of_notMem hmem, lookup, List.find?_append]
    split
    next hk =>
      subst hk
      have hnone : rows.find? (fun b => key b = key a) = none :=
        lookup_eq_none.mpr fun other hother hfield =>
          hmem (List.mem_map.mpr ⟨other, hother, hfield⟩)
      simp [hnone]
    next hk => simp [hk, lookup]

/-- The dictionary of a list of entries; a later entry replaces an earlier one of its key. -/
def dict (key : α → κ) (entries : List α) : List α := entries.foldl (assign key) []

theorem nodup_foldl_assign {rows : List α} (hrows : (rows.map key).Nodup) (entries : List α) :
    ((entries.foldl (assign key) rows).map key).Nodup := by
  induction entries generalizing rows with
  | nil => exact hrows
  | cons a rest ih => exact ih (nodup_assign hrows a)

theorem nodup_dict (entries : List α) : ((dict key entries).map key).Nodup :=
  nodup_foldl_assign (show (([] : List α).map key).Nodup from List.nodup_nil) entries

/-- No two different entries share a key. -/
def Consistent (key : α → κ) (rows : List α) : Prop :=
  ∀ a ∈ rows, ∀ b ∈ rows, key a = key b → a = b

omit [DecidableEq κ] in
theorem consistent_of_nodup {rows : List α} (hrows : (rows.map key).Nodup) :
    Consistent key rows := fun _ ha _ hb h => eq_of_key hrows ha hb h

theorem mem_assign_of_consistent {rows : List α} {a b : α} (h : ∀ c ∈ rows, key c = key a → c = a) :
    b ∈ assign key rows a ↔ b = a ∨ b ∈ rows := by
  rw [mem_assign]
  constructor
  · exact Or.imp_right And.left
  · rintro (rfl | hb)
    · exact .inl rfl
    · rcases eq_or_ne b a with rfl | hne
      · exact .inl rfl
      · exact .inr ⟨hb, fun hk => hne (h b hb hk)⟩

/-- Consistent entries are all kept. -/
theorem mem_foldl_assign {rows entries : List α} (h : Consistent key (rows ++ entries)) {a : α} :
    a ∈ entries.foldl (assign key) rows ↔ a ∈ rows ∨ a ∈ entries := by
  induction entries generalizing rows with
  | nil => simp
  | cons b rest ih =>
    have hmem : ∀ c, c ∈ assign key rows b ↔ c = b ∨ c ∈ rows := fun c =>
      mem_assign_of_consistent fun d hd hk => h d (by simp [hd]) b (by simp) hk
    rw [List.foldl_cons, ih, hmem, List.mem_cons]
    · tauto
    · intro c hc d hd
      have hin : ∀ e, e ∈ assign key rows b ++ rest → e ∈ rows ++ b :: rest := by
        intro e he
        simp only [List.mem_append, hmem, List.mem_cons] at he ⊢
        tauto
      exact h c (hin c hc) d (hin d hd)

theorem mem_dict {entries : List α} (h : Consistent key entries) {a : α} :
    a ∈ dict key entries ↔ a ∈ entries := by
  have hnil : Consistent key ([] ++ entries) := by simpa using h
  simpa [dict] using mem_foldl_assign hnil (a := a)

theorem subset_of_foldl_assign {rows entries : List α} {a : α}
    (h : a ∈ entries.foldl (assign key) rows) : a ∈ rows ∨ a ∈ entries := by
  induction entries generalizing rows with
  | nil => exact .inl h
  | cons b rest ih =>
    rcases ih h with hrows | hrest
    · rcases mem_assign.mp hrows with rfl | ⟨hrows, -⟩
      · exact .inr List.mem_cons_self
      · exact .inl hrows
    · exact .inr (List.mem_cons_of_mem b hrest)

theorem subset_of_dict {entries : List α} : dict key entries ⊆ entries := fun _ ha =>
  (subset_of_foldl_assign ha).resolve_left List.not_mem_nil

theorem lookup_foldl_assign_of_ne {rows entries : List α} {k : κ}
    (h : ∀ a ∈ entries, key a ≠ k) :
    lookup key (entries.foldl (assign key) rows) k = lookup key rows k := by
  induction entries generalizing rows with
  | nil => rfl
  | cons a rest ih =>
    obtain ⟨ha, hrest⟩ := List.forall_mem_cons.mp h
    rw [List.foldl_cons, ih hrest, lookup_assign, if_neg ha]

/-- An entry whose key no other has is found under it. -/
theorem lookup_foldl_assign {rows entries : List α} (hentries : (entries.map key).Nodup) {a : α}
    (ha : a ∈ entries) : lookup key (entries.foldl (assign key) rows) (key a) = some a := by
  induction entries generalizing rows with
  | nil => cases ha
  | cons b rest ih =>
    obtain ⟨hb, hrest⟩ := List.nodup_cons.mp hentries
    rcases List.mem_cons.mp ha with rfl | ha
    · rw [List.foldl_cons, lookup_foldl_assign_of_ne, lookup_assign, if_pos rfl]
      intro c hc heq
      exact hb (List.mem_map.mpr ⟨c, hc, heq⟩)
    · exact ih hrest ha

end Table
