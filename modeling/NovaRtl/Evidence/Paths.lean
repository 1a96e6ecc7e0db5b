import Mathlib.Data.Multiset.Basic
import NovaRtl.Evidence.Contracts
import NovaRtl.Graph.Forest
import NovaRtl.Graph.Groups

/-!
# Shared cones

`_partition` of `evidence/paths.py`: critical paths of one clock domain that share a part of their
cones, an endpoint or a source span fall into one group.
-/

namespace NovaRtl.Evidence

open Relation

variable {φ : Type}

/-- `_shared_cone`: `sequence[1:-1] or sequence` -/
def sharedCone (path : CriticalPathRecord φ) : List String :=
  let inner := path.objectSequence.tail.dropLast
  if inner = [] then path.objectSequence else inner

/-- `_connected` -/
def connected (first second : CriticalPathRecord φ) : Bool :=
  (sharedCone first).any (· ∈ sharedCone second) || first.endpoint = second.endpoint ||
    first.sourceSpanRefs.any (· ∈ second.sourceSpanRefs)

section Partition

variable (domainByPath : Identifier → String) (paths : List (CriticalPathRecord φ))

/-- The condition under which `_partition` joins two paths. -/
def sharesCone (first second : CriticalPathRecord φ) : Bool :=
  domainByPath first.pathId = domainByPath second.pathId && connected first second

/-- The unions of `_partition`, over all pairs of different paths. -/
def joinPaths : ParentForest paths.length :=
  (List.finRange paths.length).foldl (fun forest first =>
    ((List.finRange paths.length).filter (first < ·)).foldl (fun forest second =>
      if sharesCone domainByPath paths[first] paths[second] then forest.union first second
      else forest) forest) (.singletons paths.length)

/-- `groups.setdefault(root(index), []).append(path)`. Finding a root rewrites the forest. -/
def groupPath (state : ParentForest paths.length × Groups (Fin paths.length) (CriticalPathRecord φ))
    (index : Fin paths.length) :
    ParentForest paths.length × Groups (Fin paths.length) (CriticalPathRecord φ) :=
  let (forest, root) := state.1.find index
  (forest, state.2.insert root paths[index])

/-- `_partition` -/
def partition : List (List (CriticalPathRecord φ)) :=
  let forest := joinPaths domainByPath paths
  let groups := ((List.finRange paths.length).foldl (groupPath paths) (forest, [])).2
  (groups.mergeSort (·.1 ≤ ·.1)).map fun group =>
    group.2.mergeSort (·.pathId.val ≤ ·.pathId.val)

/-- Two paths that a chain of paths with shared cones connects. -/
def SameComponent (domainByPath : Identifier → String) (paths : List (CriticalPathRecord φ)) :
    CriticalPathRecord φ → CriticalPathRecord φ → Prop :=
  EqvGen fun first second => first ∈ paths ∧ second ∈ paths ∧ sharesCone domainByPath first second

end Partition

variable {domainByPath : Identifier → String} {paths : List (CriticalPathRecord φ)}
  {first second : CriticalPathRecord φ}

theorem sharesCone_self (path : CriticalPathRecord φ) : sharesCone domainByPath path path := by
  simp [sharesCone, connected]

theorem sharesCone_symm (h : sharesCone domainByPath first second) :
    sharesCone domainByPath second first := by
  have hany {β : Type} [BEq β] [LawfulBEq β] {xs ys : List β} (h : xs.any (· ∈ ys)) :
      ys.any (· ∈ xs) := by
    obtain ⟨a, hxs, hys⟩ := List.any_eq_true.mp h
    exact List.any_eq_true.mpr ⟨a, of_decide_eq_true hys, decide_eq_true hxs⟩
  simp only [sharesCone, connected, Bool.and_eq_true, Bool.or_eq_true, decide_eq_true_eq] at h ⊢
  refine ⟨h.1.symm, ?_⟩
  rcases h.2 with (hcone | hendpoint) | hspan
  · exact .inl (.inl (hany hcone))
  · exact .inl (.inr hendpoint.symm)
  · exact .inr (hany hspan)

/-! ## Unions -/

/-- The pairs that `_partition` joins, in order. -/
def joinedPairs (domainByPath : Identifier → String) (paths : List (CriticalPathRecord φ)) :
    List (Fin paths.length × Fin paths.length) :=
  (List.finRange paths.length).flatMap fun first =>
    ((List.finRange paths.length).filter fun second =>
      first < second && sharesCone domainByPath paths[first] paths[second]).map (first, ·)

theorem joinPaths_eq : joinPaths domainByPath paths = (joinedPairs domainByPath paths).foldl
    (fun forest pair => forest.union pair.1 pair.2) (.singletons paths.length) := by
  simp only [joinPaths, joinedPairs, List.foldl_flatMap, List.foldl_map, List.foldl_filter]
  congr! 5
  grind

theorem mem_joinedPairs {i j : Fin paths.length} : (i, j) ∈ joinedPairs domainByPath paths ↔
    i < j ∧ sharesCone domainByPath paths[i] paths[j] := by
  simp [joinedPairs]

theorem joined_joinPaths {i j : Fin paths.length} : (joinPaths domainByPath paths).Joined i j ↔
    EqvGen (fun i j => i < j ∧ sharesCone domainByPath paths[i] paths[j]) i j := by
  rw [joinPaths_eq, ParentForest.joined_foldl_union, ParentForest.joinedBy_singletons]
  simp only [mem_joinedPairs]

/-- Paths that share a cone are joined, in whichever order they come. -/
theorem joined_of_sharesCone {i j : Fin paths.length}
    (h : sharesCone domainByPath paths[i] paths[j]) :
    (joinPaths domainByPath paths).Joined i j := by
  rw [joined_joinPaths]
  rcases lt_trichotomy i j with hlt | rfl | hlt
  · exact .rel _ _ ⟨hlt, h⟩
  · exact .refl _
  · exact .symm _ _ (.rel _ _ ⟨hlt, sharesCone_symm h⟩)

theorem joined_of_eq {i j : Fin paths.length} (h : paths[i] = paths[j]) :
    (joinPaths domainByPath paths).Joined i j :=
  joined_of_sharesCone (h ▸ sharesCone_self paths[i])

/-- The paths of a chain have joined indices, except for a chain of one path. -/
theorem SameComponent.exists_joined (h : SameComponent domainByPath paths first second) :
    first = second ∨ ∃ i j : Fin paths.length, paths[i] = first ∧ paths[j] = second ∧
      (joinPaths domainByPath paths).Joined i j := by
  induction h with
  | rel first second h =>
    obtain ⟨hfirst, hsecond, hshares⟩ := h
    obtain ⟨i, rfl⟩ := List.get_of_mem hfirst
    obtain ⟨j, rfl⟩ := List.get_of_mem hsecond
    exact .inr ⟨i, j, rfl, rfl, joined_of_sharesCone hshares⟩
  | refl first => exact .inl rfl
  | symm first second _ ih =>
    rcases ih with rfl | ⟨i, j, hi, hj, hjoined⟩
    · exact .inl rfl
    · exact .inr ⟨j, i, hj, hi, hjoined.symm⟩
  | trans first second third _ _ ih ih' =>
    rcases ih with rfl | ⟨i, j, hi, hj, hjoined⟩
    · exact ih'
    rcases ih' with rfl | ⟨j', k, hj', hk, hjoined'⟩
    · exact .inr ⟨i, j, hi, hj, hjoined⟩
    · exact .inr ⟨i, k, hi, hk, (hjoined.trans (joined_of_eq (hj.trans hj'.symm))).trans hjoined'⟩

/-- The sets of the forest are the components. -/
theorem joined_iff {i j : Fin paths.length} : (joinPaths domainByPath paths).Joined i j ↔
    SameComponent domainByPath paths paths[i] paths[j] := by
  constructor
  · intro h
    rw [joined_joinPaths] at h
    induction h with
    | rel i j h => exact .rel _ _ ⟨List.getElem_mem _, List.getElem_mem _, h.2⟩
    | refl i => exact .refl _
    | symm i j _ ih => exact ih.symm
    | trans i j k _ _ ih ih' => exact ih.trans _ _ _ ih'
  · intro h
    rcases h.exists_joined with heq | ⟨i', j', hi, hj, hjoined⟩
    · exact joined_of_eq heq
    · exact ((joined_of_eq hi.symm).trans hjoined).trans (joined_of_eq hj)

/-! ## Groups -/

/-- Grouping the paths collects them under their roots; finding a root changes none. -/
theorem collects_groupPath {forest : ParentForest paths.length}
    (items done : List (Fin paths.length))
    {state : ParentForest paths.length × Groups (Fin paths.length) (CriticalPathRecord φ)}
    (hroots : ∀ i, state.1.root i = forest.root i)
    (hdone : Groups.Collects state.2 forest.root (fun index => paths[index]) done) :
    Groups.Collects (items.foldl (groupPath paths) state).2 forest.root
      (fun index => paths[index]) (done ++ items) := by
  induction items generalizing state done with
  | nil => rwa [List.append_nil]
  | cons index items ih =>
    obtain ⟨hroot, hfind⟩ := state.1.find_spec index
    rw [List.foldl_cons, List.append_cons]
    refine ih (done ++ [index]) (fun i => (hfind i).trans (hroots i)) ?_
    simp only [groupPath, hroot, hroots]
    exact hdone.insert index

/-- The groups of `_partition` before they are sorted. -/
theorem exists_groups (domainByPath : Identifier → String) (paths : List (CriticalPathRecord φ)) :
    ∃ groups : Groups (Fin paths.length) (CriticalPathRecord φ),
      Groups.Collects groups (joinPaths domainByPath paths).root (fun index => paths[index])
        (List.finRange paths.length) ∧
      partition domainByPath paths = (groups.mergeSort (·.1 ≤ ·.1)).map fun group =>
        group.2.mergeSort (·.pathId.val ≤ ·.pathId.val) := by
  have hcollects : Groups.Collects ((List.finRange paths.length).foldl (groupPath paths)
      (joinPaths domainByPath paths, [])).2 (joinPaths domainByPath paths).root
      (fun index => paths[index]) ([] ++ List.finRange paths.length) :=
    collects_groupPath _ _ (fun _ => rfl) Groups.collects_nil
  exact ⟨_, hcollects, rfl⟩

theorem map_finRange_getElem (paths : List (CriticalPathRecord φ)) :
    (List.finRange paths.length).map (fun index => paths[index]) = paths := by
  apply List.ext_getElem <;> simp

theorem filter_eq_map_finRange (paths : List (CriticalPathRecord φ))
    (p : CriticalPathRecord φ → Bool) : paths.filter p =
      ((List.finRange paths.length).filter fun index => p paths[index]).map
        fun index => paths[index] := by
  have hmap := List.filter_map (p := p) (f := fun index : Fin paths.length => paths[index])
    (l := List.finRange paths.length)
  rwa [map_finRange_getElem] at hmap

/-! ## Components -/

open Classical in
/-- The paths under a root are those of one component. -/
theorem members_eq_filter {groups : Groups (Fin paths.length) (CriticalPathRecord φ)}
    (hcollects : Groups.Collects groups (joinPaths domainByPath paths).root
      (fun index => paths[index]) (List.finRange paths.length))
    {group : Fin paths.length × List (CriticalPathRecord φ)} (hgroup : group ∈ groups)
    (hfirst : first ∈ group.2) :
    group.2 = paths.filter fun path => SameComponent domainByPath paths first path := by
  have hmembers := hcollects.members_eq _ _ hgroup
  rw [hmembers] at hfirst
  obtain ⟨i, hi, rfl⟩ := List.mem_map.mp hfirst
  have hroot := of_decide_eq_true (List.mem_filter.mp hi).2
  rw [hmembers, filter_eq_map_finRange]
  congr 1
  refine List.filter_congr fun j _ => ?_
  rw [decide_eq_decide, ← joined_iff, ← hroot]
  exact eq_comm

open Classical in
/-- A group has the paths of one component. -/
theorem perm_filter_of_mem_partition {group : List (CriticalPathRecord φ)}
    (hgroup : group ∈ partition domainByPath paths) (hfirst : first ∈ group) :
    group.Perm (paths.filter fun path => SameComponent domainByPath paths first path) := by
  obtain ⟨groups, hcollects, heq⟩ := exists_groups domainByPath paths
  rw [heq] at hgroup
  obtain ⟨entry, hentry, rfl⟩ := List.mem_map.mp hgroup
  rw [List.mem_mergeSort] at hentry hfirst
  rw [← members_eq_filter hcollects hentry hfirst]
  exact List.mergeSort_perm _ _

theorem ne_nil_of_mem_partition {group : List (CriticalPathRecord φ)}
    (hgroup : group ∈ partition domainByPath paths) : group ≠ [] := by
  obtain ⟨groups, hcollects, heq⟩ := exists_groups domainByPath paths
  rw [heq] at hgroup
  obtain ⟨entry, hentry, rfl⟩ := List.mem_map.mp hgroup
  rw [List.mem_mergeSort] at hentry
  obtain ⟨i, hi, hroot⟩ := (hcollects.mem_keys entry.1).mp (Groups.mem_keys.mpr ⟨_, hentry⟩)
  have hmem : paths[i] ∈ entry.2 := by
    rw [hcollects.members_eq _ _ hentry]
    exact List.mem_map.mpr ⟨i, List.mem_filter.mpr ⟨hi, decide_eq_true hroot⟩, rfl⟩
  exact List.ne_nil_of_mem (List.mem_mergeSort.mpr hmem)

/-- Every path is in the groups as often as in the list. -/
theorem partition_flatten (domainByPath : Identifier → String)
    (paths : List (CriticalPathRecord φ)) : (partition domainByPath paths).flatten.Perm paths := by
  obtain ⟨groups, hcollects, heq⟩ := exists_groups domainByPath paths
  rw [heq, ← List.flatMap_def]
  have hsorted := List.Perm.flatMap_right Prod.snd (List.mergeSort_perm groups (·.1 ≤ ·.1))
  have hvalues := hcollects.values
  rw [map_finRange_getElem] at hvalues
  exact (List.Perm.flatMap_left _ fun _ _ => List.mergeSort_perm _ _).trans (hsorted.trans hvalues)

/-- A path is in one group only. -/
theorem partition_pairwise (domainByPath : Identifier → String)
    (paths : List (CriticalPathRecord φ)) :
    (partition domainByPath paths).Pairwise List.Disjoint := by
  obtain ⟨groups, hcollects, heq⟩ := exists_groups domainByPath paths
  have hkeys : ((groups.mergeSort (·.1 ≤ ·.1)).map Prod.fst).Nodup :=
    ((List.mergeSort_perm _ _).map _).nodup_iff.mpr hcollects.nodup
  rw [heq, List.pairwise_map]
  refine (List.pairwise_map.mp hkeys).imp_of_mem ?_
  intro entry other hentry hother hne path hpath hpath'
  rw [List.mem_mergeSort] at hentry hother hpath hpath'
  rw [hcollects.members_eq _ _ hentry] at hpath
  rw [hcollects.members_eq _ _ hother] at hpath'
  obtain ⟨i, hi, rfl⟩ := List.mem_map.mp hpath
  obtain ⟨j, hj, hpaths⟩ := List.mem_map.mp hpath'
  have hroot := of_decide_eq_true (List.mem_filter.mp hi).2
  have hroot' := of_decide_eq_true (List.mem_filter.mp hj).2
  exact hne (hroot.symm.trans ((joined_of_eq hpaths).symm.trans hroot'))

theorem SameComponent.congr {reordered : List (CriticalPathRecord φ)}
    (h : reordered.Perm paths) : SameComponent domainByPath reordered =
      SameComponent domainByPath paths := by
  unfold SameComponent
  simp only [h.mem_iff]

open Classical in
/-- The groups without their order. -/
theorem mem_map_partition {members : Multiset (CriticalPathRecord φ)} :
    members ∈ (partition domainByPath paths).map Multiset.ofList ↔ ∃ first ∈ paths,
      members = (paths.filter fun path => SameComponent domainByPath paths first path) := by
  rw [List.mem_map]
  constructor
  · rintro ⟨group, hgroup, rfl⟩
    obtain ⟨first, hfirst⟩ := List.exists_mem_of_ne_nil _ (ne_nil_of_mem_partition hgroup)
    have hperm := perm_filter_of_mem_partition hgroup hfirst
    exact ⟨first, (List.mem_filter.mp (hperm.mem_iff.mp hfirst)).1, Multiset.coe_eq_coe.mpr hperm⟩
  · rintro ⟨first, hfirst, rfl⟩
    rw [← (partition_flatten domainByPath paths).mem_iff] at hfirst
    obtain ⟨group, hgroup, hfirst⟩ := List.mem_flatten.mp hfirst
    exact ⟨group, hgroup, Multiset.coe_eq_coe.mpr (perm_filter_of_mem_partition hgroup hfirst)⟩

theorem nodup_map_partition : ((partition domainByPath paths).map Multiset.ofList).Nodup := by
  refine List.pairwise_map.mpr ((partition_pairwise domainByPath paths).imp_of_mem ?_)
  intro group other hgroup _ hdisjoint heq
  obtain ⟨first, hfirst⟩ := List.exists_mem_of_ne_nil _ (ne_nil_of_mem_partition hgroup)
  exact hdisjoint hfirst ((Multiset.coe_eq_coe.mp heq).mem_iff.mp hfirst)

/-- The groups are the components of the paths, whichever order the paths have. -/
theorem partition_components (domainByPath : Identifier → String)
    (paths : List (CriticalPathRecord φ)) :
    (partition domainByPath paths).flatten.Perm paths ∧
      (partition domainByPath paths).Pairwise List.Disjoint ∧
      (∀ group ∈ partition domainByPath paths, group ≠ [] ∧ ∀ first ∈ group, ∀ second,
        second ∈ group ↔ second ∈ paths ∧ SameComponent domainByPath paths first second) ∧
      ∀ reordered : List (CriticalPathRecord φ), reordered.Perm paths →
        ((partition domainByPath reordered).map Multiset.ofList).Perm
          ((partition domainByPath paths).map Multiset.ofList) := by
  classical
  refine ⟨partition_flatten _ _, partition_pairwise _ _, fun group hgroup => ?_,
    fun reordered hperm => ?_⟩
  · refine ⟨ne_nil_of_mem_partition hgroup, fun first hfirst second => ?_⟩
    rw [(perm_filter_of_mem_partition hgroup hfirst).mem_iff, List.mem_filter, decide_eq_true_iff]
  · rw [List.perm_ext_iff_of_nodup nodup_map_partition nodup_map_partition]
    intro members
    rw [mem_map_partition, mem_map_partition, SameComponent.congr hperm]
    simp only [hperm.mem_iff]
    have hfilter (p : CriticalPathRecord φ → Bool) : Multiset.ofList (reordered.filter p) =
        Multiset.ofList (paths.filter p) := Multiset.coe_eq_coe.mpr (hperm.filter p)
    simp only [hfilter]

end NovaRtl.Evidence
