import Mathlib.Data.Finset.Card
import NovaRtl.Graph.Groups

/-!
# Shared values

The keys that share a value form a group. Two assignments of values to the same keys have the same
groups of at least two keys exactly if they make the same keys equal.
-/

namespace Groups

variable {γ ι α β : Type} [DecidableEq ι] [DecidableEq α] [DecidableEq β]

/-- The items' keys, grouped by their values. -/
def collect (items : List γ) (key : γ → ι) (value : γ → α) : Groups α ι :=
  items.foldl (fun groups item => groups.insert (value item) (key item)) []

/-- The groups of at least two keys, each as a set. -/
def shared (items : List γ) (key : γ → ι) (value : γ → α) : Finset (Finset ι) :=
  ((((collect items key value).map Prod.snd).filter fun members => 1 < members.length).map
    List.toFinset).toFinset

variable {items : List γ} {key : γ → ι} {value : γ → α} {value' : γ → β}

omit [DecidableEq ι] in
theorem collects_collect (items : List γ) (key : γ → ι) (value : γ → α) :
    Collects (collect items key value) value key items := by
  have hfold (rest done : List γ) (groups : Groups α ι) (h : Collects groups value key done) :
      Collects (rest.foldl (fun groups item => groups.insert (value item) (key item)) groups)
        value key (done ++ rest) := by
    induction rest generalizing done groups with
    | nil => rwa [List.append_nil]
    | cons item rest ih =>
      rw [List.append_cons]
      exact ih _ _ (h.insert item)
  exact hfold items [] [] collects_nil

/-- A shared group has the keys of the items with one value. -/
theorem mem_shared {group : Finset ι} : group ∈ shared items key value ↔
    ∃ item ∈ items, 1 < (items.filter fun other => value other = value item).length ∧
      ((items.filter fun other => value other = value item).map key).toFinset = group := by
  have hcollects := collects_collect items key value
  simp only [shared, List.mem_toFinset, List.mem_map, List.mem_filter, decide_eq_true_eq]
  constructor
  · rintro ⟨members, ⟨⟨⟨k, members'⟩, hmem, rfl⟩, hlength⟩, rfl⟩
    obtain ⟨item, hitem, rfl⟩ := (hcollects.mem_keys k).mp (mem_keys.mpr ⟨_, hmem⟩)
    have hmembers := hcollects.members_eq _ _ hmem
    rw [hmembers, List.length_map] at hlength
    exact ⟨item, hitem, hlength, by rw [hmembers]⟩
  · rintro ⟨item, hitem, hlength, rfl⟩
    obtain ⟨members, hmem⟩ := mem_keys.mp ((hcollects.mem_keys _).mpr ⟨item, hitem, rfl⟩)
    have hmembers := hcollects.members_eq _ _ hmem
    refine ⟨members, ⟨⟨_, hmem, rfl⟩, ?_⟩, by rw [hmembers]⟩
    rw [hmembers, List.length_map]
    exact hlength

theorem mem_toFinset_map_filter {k : ι} {a : α} :
    k ∈ ((items.filter fun other => value other = a).map key).toFinset ↔
      ∃ other ∈ items, value other = a ∧ key other = k := by
  simp [and_assoc]

/-- Two keys of one value are in a shared group. -/
theorem exists_shared {c d : γ} (hc : c ∈ items) (hd : d ∈ items) (hkey : key c ≠ key d)
    (hvalue : value c = value d) :
    ∃ group ∈ shared items key value, key c ∈ group ∧ key d ∈ group := by
  refine ⟨_, mem_shared.mpr ⟨d, hd, ?_, rfl⟩, mem_toFinset_map_filter.mpr ⟨c, hc, hvalue, rfl⟩,
    mem_toFinset_map_filter.mpr ⟨d, hd, rfl, rfl⟩⟩
  have hmemc : c ∈ items.filter fun other => value other = value d := by
    simp [hc, hvalue]
  have hmemd : d ∈ items.filter fun other => value other = value d := by
    simp [hd]
  by_contra hshort
  obtain ⟨single, hsingle⟩ := List.length_eq_one_iff.mp
    (le_antisymm (Nat.le_of_not_lt hshort) (List.length_pos_of_mem hmemc))
  rw [hsingle, List.mem_singleton] at hmemc hmemd
  exact hkey (by rw [hmemc, hmemd])

theorem value_eq_of_shared {group : Finset ι} {c d : γ} (hkeys : (items.map key).Nodup)
    (hgroup : group ∈ shared items key value) (hc : c ∈ items) (hd : d ∈ items)
    (hmemc : key c ∈ group) (hmemd : key d ∈ group) : value c = value d := by
  obtain ⟨item, -, -, rfl⟩ := mem_shared.mp hgroup
  have hinj := List.inj_on_of_nodup_map hkeys
  obtain ⟨c', hc', hvaluec, hkeyc⟩ := mem_toFinset_map_filter.mp hmemc
  obtain ⟨d', hd', hvalued, hkeyd⟩ := mem_toFinset_map_filter.mp hmemd
  rw [← hinj hc' hc hkeyc, ← hinj hd' hd hkeyd, hvaluec, hvalued]

/-- The groups say which keys share their values. -/
theorem shared_eq_iff (hkeys : (items.map key).Nodup) :
    shared items key value = shared items key value' ↔
      ∀ c ∈ items, ∀ d ∈ items, value c = value d ↔ value' c = value' d := by
  constructor
  · intro h c hc d hd
    rcases eq_or_ne (key c) (key d) with hkey | hkey
    · obtain rfl := List.inj_on_of_nodup_map hkeys hc hd hkey
      exact iff_of_true rfl rfl
    · constructor
      · intro hvalue
        obtain ⟨group, hgroup, hmemc, hmemd⟩ := exists_shared hc hd hkey hvalue
        exact value_eq_of_shared hkeys (h ▸ hgroup) hc hd hmemc hmemd
      · intro hvalue
        obtain ⟨group, hgroup, hmemc, hmemd⟩ := exists_shared hc hd hkey hvalue
        exact value_eq_of_shared hkeys (h ▸ hgroup) hc hd hmemc hmemd
  · intro h
    ext group
    rw [mem_shared, mem_shared]
    refine exists_congr fun item => and_congr_right fun hitem => ?_
    rw [List.filter_congr fun other hother => decide_eq_decide.mpr (h other hother item hitem)]

end Groups
