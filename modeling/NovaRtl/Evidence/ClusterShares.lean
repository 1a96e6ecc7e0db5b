import Mathlib.Algebra.BigOperators.Group.List.Basic
import Mathlib.Algebra.BigOperators.Ring.List
import Mathlib.Algebra.Order.BigOperators.Group.List
import Mathlib.Algebra.Order.Field.Rat
import Mathlib.Tactic.Linarith
import NovaRtl.Contracts.Checks
import NovaRtl.Evidence.Endpoints
import NovaRtl.Evidence.Paths
import NovaRtl.Order.Iteration

/-!
# Shares of the total negative slack

`cluster_paths` of `evidence/paths.py`: which paths and measured totals it accepts, and the share of
the total negative slack that each cluster gets. Slacks and totals are rationals. The other features
of a cluster and its root causes are left out.
-/

namespace NovaRtl.Evidence

inductive PathClusteringError where
  /-- `PathClusteringError(text)` -/
  | clustering (text : String)
  /-- A `ValidationError` of `PathCluster`. -/
  | validation

open PathClusteringError

/-! ## Negative slack -/

/-- `max(-path.slack_ns, 0.0)` -/
def negativeSlack (path : CriticalPathRecord ℚ) : ℚ := max (-path.slackNs) 0

section Totals

variable (paths : List (CriticalPathRecord ℚ))

def pathsOfView (view : Identifier) : List (CriticalPathRecord ℚ) :=
  paths.filter fun path => path.analysisViewId = view

/-- `negative_by_view[view_id]` -/
def negativeByView (view : Identifier) : ℚ := ((pathsOfView paths view).map negativeSlack).sum

/-- `worst_negative` -/
def worstNegative (view : Identifier) : ℚ :=
  ((pathsOfView paths view).map negativeSlack).max?.getD 0

/-- `abs(min(measured_tns, 0.0))` -/
def measuredNegative (measuredTns : ℚ) : ℚ := |min measuredTns 0|

def checkMeasuredTns (view : Identifier) (measuredTns : ℚ) : Except PathClusteringError Unit := do
  require (measuredTns ≤ 1 / 10 ^ 6)
    (clustering s!"invalid measured TNS for analysis view: {view.val}")
  require (1 / 10 ^ 6 < negativeByView paths view ↔ 1 / 10 ^ 6 < measuredNegative measuredTns)
    (clustering s!"measured TNS disagrees with critical paths for analysis view: {view.val}")
  require (worstNegative paths view ≤ measuredNegative measuredTns + 1 / 10 ^ 4)
    (clustering s!"measured TNS is smaller than WNS for analysis view: {view.val}")

def checkMeasuredWns (view : Identifier) (measuredWns : ℚ) : Except PathClusteringError Unit :=
  let parsedWns := ((pathsOfView paths view).map CriticalPathRecord.slackNs).min?.getD 0
  require (|measuredWns - parsedWns| ≤ 1 / 10 ^ 4)
    (clustering s!"measured WNS disagrees with critical paths for analysis view: {view.val}")

/-- `sorted(set(negative_by_view) - set(measured))[0]` is reported if there is such a view. -/
def checkMissing (kind : String) (views : List Identifier) (measured : Identifier → Option ℚ) :
    Except PathClusteringError Unit :=
  match sorted ((views.filter fun view => (measured view).isNone).map Subtype.val) with
  | [] => .ok ()
  | missing :: _ =>
    .error (clustering s!"missing measured {kind} for analysis view: {missing}")

def checkMeasured (kind : String) (check : Identifier → ℚ → Except PathClusteringError Unit)
    (views : List Identifier) (measured : Option (Identifier → Option ℚ)) :
    Except PathClusteringError Unit :=
  match measured with
  | none => .ok ()
  | some measured => do
    checkMissing kind views measured
    forM views fun view => check view ((measured view).getD 0)

/-- `measured_tns_by_view[view_id]` -/
def measuredTnsByView (tns : Option (Identifier → Option ℚ)) (view : Identifier) : ℚ :=
  match tns with
  | none => negativeByView paths view
  | some tns => measuredNegative ((tns view).getD 0)

end Totals

/-! ## Clusters -/

/-- The fields of `PathCluster` that the share concerns. -/
structure ClusterShare where
  pathIds : List Identifier
  analysisViewIds : List String
  worstSlackNs : ℚ
  tnsSharePercent : ℚ

section Clusters

variable (paths : List (CriticalPathRecord ℚ)) (tns wns : Option (Identifier → Option ℚ))

/-- The part of a path in the measured total of its view. -/
def attributedTns (path : CriticalPathRecord ℚ) : ℚ :=
  if negativeByView paths path.analysisViewId ≠ 0 then
    measuredTnsByView paths tns path.analysisViewId * negativeSlack path /
      negativeByView paths path.analysisViewId
  else 0

/-- `tns_share` -/
def tnsShare (negativeTotal : ℚ) (group : List (CriticalPathRecord ℚ)) : ℚ :=
  if negativeTotal ≠ 0 then 100 * (group.map (attributedTns paths tns)).sum / negativeTotal else 0

def buildCluster (negativeTotal : ℚ) (group : List (CriticalPathRecord ℚ)) :
    Except PathClusteringError ClusterShare := do
  let pathIds := group.map CriticalPathRecord.pathId
  require pathIds.Nodup validation
  return {
    pathIds
    analysisViewIds := sortedSet (group.map fun path => path.analysisViewId.val)
    worstSlackNs := (group.map CriticalPathRecord.slackNs).min?.getD 0
    tnsSharePercent := min (tnsShare paths tns negativeTotal group) 100 }

variable (sourceMap : SourceMapPayload ℚ) (clockDomainById : Identifier → Option String)

def checkPath (path : CriticalPathRecord ℚ) : Except PathClusteringError Unit := do
  require (clockDomainById path.captureClockId).isSome
    (clustering s!"path {path.pathId.val} capture clock has no domain mapping")
  match sorted (path.objectSequence.filter fun name =>
      name ∉ sourceMap.mappedObjects.map MappedObjectRecord.semanticName) with
  | [] => .ok ()
  | missing :: _ =>
    .error (clustering s!"path {path.pathId.val} contains unmapped object: {missing}")
  require (path.sourceSpanRefs ⊆ sourceMap.sourceSpans.map SourceSpanRecord.sourceSpanId)
    (clustering s!"path {path.pathId.val} contains unknown source span")

/-- `domain_by_path`: a later path of the same id replaces an earlier one. -/
def domainByPath (pathId : Identifier) : String :=
  ((paths.reverse.find? (·.pathId = pathId)).bind fun path =>
    clockDomainById path.captureClockId).getD ""

def checkCrossing (crossing : CdcCrossing) : Except PathClusteringError Unit := do
  require (objectsForEndpoint sourceMap.mappedObjects crossing.sourceObject ≠ [])
    (clustering s!"CDC crossing {crossing.crossingId.val} has unresolved source endpoint")
  require (objectsForEndpoint sourceMap.mappedObjects crossing.destinationObject ≠ [])
    (clustering s!"CDC crossing {crossing.crossingId.val} has unresolved destination endpoint")

/-- `cluster_paths`. The views are a set, which `order` iterates. -/
def clusterPaths (order : SetOrder Identifier) (cdcInventory : Option CdcInventoryPayload) :
    Except PathClusteringError (List ClusterShare) := do
  let orderedPaths := paths.mergeSort (·.pathId.val ≤ ·.pathId.val)
  require (orderedPaths ≠ []) (clustering "at least one critical path is required")
  require (orderedPaths.all (·.candidateId = sourceMap.candidateId))
    (clustering "critical path candidate differs from source map")
  forM orderedPaths (checkPath sourceMap clockDomainById)
  forM ((cdcInventory.map CdcInventoryPayload.crossings).getD []) (checkCrossing sourceMap)
  let views := order.iterate (orderedPaths.map CriticalPathRecord.analysisViewId)
  checkMeasured "TNS" (checkMeasuredTns orderedPaths) views tns
  checkMeasured "WNS" (checkMeasuredWns orderedPaths) views wns
  let negativeTotal := (views.map (measuredTnsByView orderedPaths tns)).sum
  (partition (domainByPath orderedPaths clockDomainById) orderedPaths).mapM
    (buildCluster orderedPaths tns negativeTotal)

end Clusters

/-! ## Totals -/

variable {paths : List (CriticalPathRecord ℚ)} {tns wns : Option (Identifier → Option ℚ)}
  {views : List Identifier} {view : Identifier} {path : CriticalPathRecord ℚ}

theorem negativeSlack_nonneg (path : CriticalPathRecord ℚ) : 0 ≤ negativeSlack path :=
  le_max_right _ _

theorem negativeByView_nonneg : 0 ≤ negativeByView paths view := by
  refine List.sum_nonneg fun slack hslack => ?_
  obtain ⟨path, -, rfl⟩ := List.mem_map.mp hslack
  exact negativeSlack_nonneg path

theorem measuredTnsByView_nonneg : 0 ≤ measuredTnsByView paths tns view := by
  unfold measuredTnsByView
  split
  · exact negativeByView_nonneg
  · exact abs_nonneg _

theorem attributedTns_nonneg : 0 ≤ attributedTns paths tns path := by
  unfold attributedTns
  split
  · exact div_nonneg (mul_nonneg measuredTnsByView_nonneg (negativeSlack_nonneg path))
      negativeByView_nonneg
  · exact le_rfl

/-- A view with a negative path has a total of its paths. -/
theorem negativeByView_ne_zero (hpath : path ∈ paths) (hslack : path.slackNs < 0) :
    negativeByView paths path.analysisViewId ≠ 0 := by
  have hmem : negativeSlack path ∈ (pathsOfView paths path.analysisViewId).map negativeSlack :=
    List.mem_map_of_mem (List.mem_filter.mpr ⟨hpath, decide_eq_true rfl⟩)
  have hle : negativeSlack path ≤ negativeByView paths path.analysisViewId := by
    refine List.single_le_sum (fun slack hslack => ?_) _ hmem
    obtain ⟨other, -, rfl⟩ := List.mem_map.mp hslack
    exact negativeSlack_nonneg other
  have hpos : 0 < negativeSlack path := lt_max_of_lt_left (by linarith)
  exact (hpos.trans_le hle).ne'

/-- The measured total of a view is attributed to its paths. -/
theorem sum_attributedTns_pathsOfView :
    ((pathsOfView paths view).map (attributedTns paths tns)).sum =
      if negativeByView paths view ≠ 0 then measuredTnsByView paths tns view else 0 := by
  have hmap : (pathsOfView paths view).map (attributedTns paths tns) =
      (pathsOfView paths view).map fun path => (if negativeByView paths view ≠ 0 then
        measuredTnsByView paths tns view / negativeByView paths view else 0) *
          negativeSlack path := by
    refine List.map_congr_left fun path hpath => ?_
    obtain rfl := of_decide_eq_true (List.mem_filter.mp hpath).2
    unfold attributedTns
    split
    · exact mul_div_right_comm _ _ _
    · rw [zero_mul]
  rw [hmap, List.sum_map_mul_left, ← negativeByView]
  split
  · next hne => exact div_mul_cancel₀ _ hne
  · rw [zero_mul]

/-- A sum over paths, view by view. -/
theorem sum_map_pathsOfView (hnodup : views.Nodup) (f : CriticalPathRecord ℚ → ℚ)
    (hviews : ∀ path ∈ paths, path.analysisViewId ∈ views) :
    (paths.map f).sum = (views.map fun view => ((pathsOfView paths view).map f).sum).sum := by
  induction paths with
  | nil => simp [pathsOfView]
  | cons path paths ih =>
    obtain ⟨hpath, hpaths⟩ := List.forall_mem_cons.mp hviews
    have hcons (view : Identifier) : ((pathsOfView (path :: paths) view).map f).sum =
        (if path.analysisViewId = view then f path else 0) +
          ((pathsOfView paths view).map f).sum := by
      by_cases hview : path.analysisViewId = view
      · simp [pathsOfView, hview]
      · simp [pathsOfView, hview]
    have hsingle : (views.map fun view => if path.analysisViewId = view then f path else 0).sum =
        f path := by
      have hcount := @List.count_eq_one_of_mem _ instBEqOfDecidableEq _ _ _ hnodup hpath
      rw [List.sum_map_eq_nsmul_single path.analysisViewId _ fun view hne _ => if_neg hne.symm,
        hcount, if_pos rfl, one_nsmul]
    simp only [hcons, List.sum_map_add, ← ih hpaths, hsingle, List.map_cons, List.sum_cons]

/-- No more than the measured totals is attributed, and all of them if each view with a total has
a path with negative slack. -/
theorem sum_attributedTns_le (hnodup : views.Nodup)
    (hviews : ∀ path ∈ paths, path.analysisViewId ∈ views) :
    (paths.map (attributedTns paths tns)).sum ≤ (views.map (measuredTnsByView paths tns)).sum := by
  rw [sum_map_pathsOfView hnodup _ hviews]
  refine List.sum_le_sum fun view _ => ?_
  rw [sum_attributedTns_pathsOfView]
  split
  · exact le_rfl
  · exact measuredTnsByView_nonneg

theorem sum_attributedTns_eq (hnodup : views.Nodup)
    (hviews : ∀ path ∈ paths, path.analysisViewId ∈ views)
    (htotals : ∀ view ∈ views, measuredTnsByView paths tns view ≠ 0 →
      negativeByView paths view ≠ 0) :
    (paths.map (attributedTns paths tns)).sum = (views.map (measuredTnsByView paths tns)).sum := by
  rw [sum_map_pathsOfView hnodup _ hviews]
  congr 1
  refine List.map_congr_left fun view hview => ?_
  rw [sum_attributedTns_pathsOfView]
  split
  · rfl
  · next hzero =>
    by_contra hne
    exact hzero (htotals view hview (Ne.symm hne))

/-! ## Shares -/

variable {groups : List (List (CriticalPathRecord ℚ))} {group : List (CriticalPathRecord ℚ)}
  {negativeTotal : ℚ}

theorem tnsShare_nonneg (htotal : 0 ≤ negativeTotal) :
    0 ≤ tnsShare paths tns negativeTotal group := by
  unfold tnsShare
  split
  · refine div_nonneg (mul_nonneg (by norm_num) (List.sum_nonneg fun part hpart => ?_)) htotal
    obtain ⟨path, -, rfl⟩ := List.mem_map.mp hpart
    exact attributedTns_nonneg
  · exact le_rfl

/-- The shares of groups with the same paths. -/
theorem sum_tnsShare (hflatten : groups.flatten.Perm paths) :
    (groups.map (tnsShare paths tns negativeTotal)).sum = if negativeTotal ≠ 0 then
      100 * (paths.map (attributedTns paths tns)).sum / negativeTotal else 0 := by
  unfold tnsShare
  split
  · next hne =>
    have hmap : (groups.map fun group =>
        100 * (group.map (attributedTns paths tns)).sum / negativeTotal) =
        groups.map fun group => 100 / negativeTotal * (group.map (attributedTns paths tns)).sum :=
      List.map_congr_left fun group _ => mul_div_right_comm _ _ _
    have hsum : (groups.map fun group => (group.map (attributedTns paths tns)).sum).sum =
        (paths.map (attributedTns paths tns)).sum := by
      rw [← (hflatten.map _).sum_eq, List.map_flatten, List.sum_flatten, List.map_map]
      rfl
    rw [hmap, List.sum_map_mul_left, hsum, mul_div_right_comm]
  · simp

theorem sum_tnsShare_le (hflatten : groups.flatten.Perm paths) (htotal : 0 ≤ negativeTotal)
    (hle : (paths.map (attributedTns paths tns)).sum ≤ negativeTotal) :
    (groups.map (tnsShare paths tns negativeTotal)).sum ≤ 100 := by
  rw [sum_tnsShare hflatten]
  split
  · next hne =>
    rw [div_le_iff₀ (lt_of_le_of_ne htotal (Ne.symm hne))]
    linarith
  · norm_num

theorem sum_tnsShare_eq (hflatten : groups.flatten.Perm paths) (hne : negativeTotal ≠ 0)
    (heq : (paths.map (attributedTns paths tns)).sum = negativeTotal) :
    (groups.map (tnsShare paths tns negativeTotal)).sum = 100 := by
  rw [sum_tnsShare hflatten, if_pos hne, heq, mul_div_cancel_right₀ _ hne]

/-- The shares are complete if some view has a total and those with one have a negative path. -/
theorem sum_tnsShare_eq_hundred (hflatten : groups.flatten.Perm paths) (hnodup : views.Nodup)
    (hviews : ∀ path ∈ paths, path.analysisViewId ∈ views)
    (hsome : ∃ view ∈ views, measuredTnsByView paths tns view ≠ 0)
    (htotals : ∀ view ∈ views, measuredTnsByView paths tns view ≠ 0 →
      negativeByView paths view ≠ 0) :
    (groups.map (tnsShare paths tns (views.map (measuredTnsByView paths tns)).sum)).sum = 100 := by
  refine sum_tnsShare_eq hflatten ?_ (sum_attributedTns_eq hnodup hviews htotals)
  obtain ⟨view, hview, hne⟩ := hsome
  have hle : measuredTnsByView paths tns view ≤ (views.map (measuredTnsByView paths tns)).sum := by
    refine List.single_le_sum (fun total htotal => ?_) _ (List.mem_map_of_mem hview)
    obtain ⟨other, -, rfl⟩ := List.mem_map.mp htotal
    exact measuredTnsByView_nonneg
  exact ((lt_of_le_of_ne measuredTnsByView_nonneg hne.symm).trans_le hle).ne'

theorem measuredNegative_eq_zero {total : ℚ} : measuredNegative total = 0 ↔ 0 ≤ total := by
  rw [measuredNegative, abs_eq_zero, min_eq_right_iff]

/-- The clamp of a share never acts. -/
theorem min_tnsShare (hflatten : groups.flatten.Perm paths) (htotal : 0 ≤ negativeTotal)
    (hle : (paths.map (attributedTns paths tns)).sum ≤ negativeTotal) (hgroup : group ∈ groups) :
    min (tnsShare paths tns negativeTotal group) 100 = tnsShare paths tns negativeTotal group := by
  refine min_eq_left (le_trans ?_ (sum_tnsShare_le hflatten htotal hle))
  refine List.single_le_sum (fun share hshare => ?_) _ (List.mem_map_of_mem hgroup)
  obtain ⟨other, -, rfl⟩ := List.mem_map.mp hshare
  exact tnsShare_nonneg htotal

/-- The clusters of groups whose shares are not clamped. -/
theorem map_share_eq {clusters : List ClusterShare} (hclusters : List.Forall₂ (fun group cluster =>
      buildCluster paths tns negativeTotal group = .ok cluster) groups clusters)
    (hmin : ∀ group ∈ groups, min (tnsShare paths tns negativeTotal group) 100 =
      tnsShare paths tns negativeTotal group) :
    clusters.map ClusterShare.tnsSharePercent = groups.map (tnsShare paths tns negativeTotal) := by
  induction hclusters with
  | nil => rfl
  | cons hcluster _ ih =>
    obtain ⟨hgroup, hgroups⟩ := List.forall_mem_cons.mp hmin
    rw [List.map_cons, List.map_cons, ih hgroups]
    simp only [buildCluster, bind_eq_ok, pure, Except.pure, Except.ok.injEq] at hcluster
    obtain ⟨-, -, rfl⟩ := hcluster
    rw [hgroup]

variable {sourceMap : SourceMapPayload ℚ} {clockDomainById : Identifier → Option String}
  {order : SetOrder Identifier} {cdcInventory : Option CdcInventoryPayload}
  {clusters : List ClusterShare}

/-- The shares of an accepted call. -/
theorem clusterPaths_shares
    (h : clusterPaths paths tns wns sourceMap clockDomainById order cdcInventory = .ok clusters) :
    ∃ (orderedPaths : List (CriticalPathRecord ℚ)) (views : List Identifier)
      (groups : List (List (CriticalPathRecord ℚ))),
      orderedPaths.Perm paths ∧ views.Nodup ∧
      (∀ view, view ∈ views ↔ view ∈ orderedPaths.map CriticalPathRecord.analysisViewId) ∧
      groups.flatten.Perm orderedPaths ∧
      clusters.map ClusterShare.tnsSharePercent = groups.map (tnsShare orderedPaths tns
        (views.map (measuredTnsByView orderedPaths tns)).sum) := by
  simp only [clusterPaths, bind_eq_ok] at h
  obtain ⟨-, -, -, -, -, -, -, -, -, -, -, -, hclusters⟩ := h
  rw [mapM_eq_ok] at hclusters
  have hperm : (paths.mergeSort (·.pathId.val ≤ ·.pathId.val)).Perm paths :=
    List.mergeSort_perm _ _
  generalize paths.mergeSort (·.pathId.val ≤ ·.pathId.val) = orderedPaths at hclusters hperm
  have hiterate := order.iterate_perm (orderedPaths.map CriticalPathRecord.analysisViewId)
  have hnodup : (order.iterate (orderedPaths.map CriticalPathRecord.analysisViewId)).Nodup :=
    hiterate.nodup_iff.mpr (List.nodup_dedup _)
  have hviews (path : CriticalPathRecord ℚ) (hpath : path ∈ orderedPaths) :
      path.analysisViewId ∈ order.iterate (orderedPaths.map CriticalPathRecord.analysisViewId) :=
    order.mem_iterate.mpr (List.mem_map_of_mem hpath)
  have hflatten := partition_flatten (domainByPath orderedPaths clockDomainById) orderedPaths
  refine ⟨orderedPaths, _, _, hperm, hnodup, fun view => order.mem_iterate, hflatten, ?_⟩
  have htotal : 0 ≤ ((order.iterate (orderedPaths.map CriticalPathRecord.analysisViewId)).map
      (measuredTnsByView orderedPaths tns)).sum := by
    refine List.sum_nonneg fun total htotal => ?_
    obtain ⟨view, -, rfl⟩ := List.mem_map.mp htotal
    exact measuredTnsByView_nonneg
  have hle : (orderedPaths.map (attributedTns orderedPaths tns)).sum ≤ _ :=
    sum_attributedTns_le hnodup hviews
  exact map_share_eq hclusters fun group hgroup => min_tnsShare hflatten htotal hle hgroup

/-- The shares of accepted paths lie between 0 and 100 and sum to at most 100, and to 100 if a total
is negative and each view with a negative total has a path with negative slack. Without totals the
slacks of the paths are the totals. -/
theorem clusterPaths_tnsShare (paths : List (CriticalPathRecord ℚ))
    (tns wns : Option (Identifier → Option ℚ)) (sourceMap : SourceMapPayload ℚ)
    (clockDomainById : Identifier → Option String) (order : SetOrder Identifier)
    (cdcInventory : Option CdcInventoryPayload) (clusters : List ClusterShare)
    (h : clusterPaths paths tns wns sourceMap clockDomainById order cdcInventory = .ok clusters) :
    (∀ cluster ∈ clusters, 0 ≤ cluster.tnsSharePercent ∧ cluster.tnsSharePercent ≤ 100) ∧
      (clusters.map ClusterShare.tnsSharePercent).sum ≤ 100 ∧
      (∀ totals, tns = some totals → (∃ view total, totals view = some total ∧ total < 0) →
        (∀ view total, totals view = some total → total < 0 →
          ∃ path ∈ paths, path.analysisViewId = view ∧ path.slackNs < 0) →
        (clusters.map ClusterShare.tnsSharePercent).sum = 100) ∧
      (tns = none → (∃ path ∈ paths, path.slackNs < 0) →
        (clusters.map ClusterShare.tnsSharePercent).sum = 100) := by
  obtain ⟨orderedPaths, views, groups, hperm, hnodup, hviews, hflatten, hclusters⟩ :=
    clusterPaths_shares h
  have hcovers (path : CriticalPathRecord ℚ) (hpath : path ∈ orderedPaths) :
      path.analysisViewId ∈ views := (hviews _).mpr (List.mem_map_of_mem hpath)
  have hnonneg (total : ℚ) (htotal : total ∈ views.map (measuredTnsByView orderedPaths tns)) :
      0 ≤ total := by
    obtain ⟨view, -, rfl⟩ := List.mem_map.mp htotal
    exact measuredTnsByView_nonneg
  have hshare (share : ℚ) (hmem : share ∈ clusters.map ClusterShare.tnsSharePercent) :
      0 ≤ share := by
    rw [hclusters] at hmem
    obtain ⟨group, -, rfl⟩ := List.mem_map.mp hmem
    exact tnsShare_nonneg (List.sum_nonneg hnonneg)
  have hsum : (clusters.map ClusterShare.tnsSharePercent).sum ≤ 100 := by
    rw [hclusters]
    exact sum_tnsShare_le hflatten (List.sum_nonneg hnonneg) (sum_attributedTns_le hnodup hcovers)
  refine ⟨fun cluster hcluster => ?_, hsum, fun totals htns hsome hall => ?_, fun htns hsome => ?_⟩
  · have hmem := List.mem_map_of_mem (f := ClusterShare.tnsSharePercent) hcluster
    exact ⟨hshare _ hmem, (List.single_le_sum hshare _ hmem).trans hsum⟩
  · subst htns
    have hnegative (view : Identifier) (hne : measuredTnsByView orderedPaths totals view ≠ 0) :
        ∃ path ∈ orderedPaths, path.analysisViewId = view ∧ path.slackNs < 0 := by
      rw [measuredTnsByView, ne_eq, measuredNegative_eq_zero, not_le] at hne
      cases htotal : totals view with
      | none => simp [htotal] at hne
      | some total =>
        rw [htotal, Option.getD_some] at hne
        obtain ⟨path, hpath, heq⟩ := hall view total htotal hne
        exact ⟨path, hperm.mem_iff.mpr hpath, heq⟩
    rw [hclusters]
    refine sum_tnsShare_eq_hundred hflatten hnodup hcovers ?_ ?_
    · obtain ⟨view, total, htotal, hlt⟩ := hsome
      have hne : measuredTnsByView orderedPaths totals view ≠ 0 := by
        rw [measuredTnsByView, htotal, Option.getD_some, ne_eq, measuredNegative_eq_zero, not_le]
        exact hlt
      obtain ⟨path, hpath, rfl, -⟩ := hnegative view hne
      exact ⟨_, hcovers path hpath, hne⟩
    · intro view _ hne
      obtain ⟨path, hpath, rfl, hslack⟩ := hnegative view hne
      exact negativeByView_ne_zero hpath hslack
  · subst htns
    obtain ⟨path, hpath, hslack⟩ := hsome
    have hmem := hperm.mem_iff.mpr hpath
    rw [hclusters]
    exact sum_tnsShare_eq_hundred hflatten hnodup hcovers
      ⟨_, hcovers path hmem, negativeByView_ne_zero hmem hslack⟩ fun _ _ hne => hne

/-! ## A path -/

def sampleHash : HashRef := ⟨"sha256:" ++ String.ofList (List.replicate 64 '0'), by decide⟩

def sampleView : Identifier := ⟨"view_a", by decide⟩

/-- One path through one cell. -/
def samplePath (slackNs : ℚ) : CriticalPathRecord ℚ where
  pathId := ⟨"path_a", by decide⟩
  candidateId := ⟨"candidate_a", by decide⟩
  analysisViewId := sampleView
  pathType := .max
  pathGroup := "core"
  launchClockId := ⟨"clock_a", by decide⟩
  captureClockId := ⟨"clock_a", by decide⟩
  startpoint := "cell:u1"
  endpoint := "cell:u1"
  arrivalNs := 1 - slackNs
  requiredNs := 1
  slackNs := slackNs
  cellDelayNs := 1
  netDelayNs := 0
  logicDepth := 1
  maxFanout := 1
  objectSequence := ["cell:u1"]
  sourceSpanRefs := []
  rawReportArtifactId := ⟨"report_a", by decide⟩
  sequence_ne := by decide
  refs_nodup := List.nodup_nil

def sampleMap : SourceMapPayload ℚ where
  candidateId := ⟨"candidate_a", by decide⟩
  rtlSnapshotHash := sampleHash
  synthesisStructureHash := sampleHash
  mappedObjects := [⟨⟨"object_a", by decide⟩, "cell:u1", .cell, "top", "top", some "BUF", none,
    [⟨"span_a", by decide⟩], 1, false, [], [], rfl⟩]
  connectivityEdges := []
  sourceSpans := [⟨⟨"span_a", by decide⟩, sampleHash, "rtl/top.sv", 1, 1, 1, 2, "top", sampleHash,
    1, false, [], rfl⟩]

def sampleOrder : SetOrder Identifier := ⟨List.dedup, fun _ => .refl _⟩

theorem partition_singleton (domainByPath : Identifier → String) (path : CriticalPathRecord ℚ) :
    partition domainByPath [path] = [[path]] := by
  have hflatten := List.perm_singleton.mp (partition_flatten domainByPath [path])
  have hne : ∀ group ∈ partition domainByPath [path], group ≠ [] :=
    fun group hgroup => ne_nil_of_mem_partition hgroup
  generalize partition domainByPath [path] = groups at hflatten hne
  cases groups with
  | nil => cases hflatten
  | cons group groups =>
    obtain ⟨hgroup, hgroups⟩ := List.forall_mem_cons.mp hne
    rw [List.flatten_cons, List.append_eq_singleton_iff] at hflatten
    rcases hflatten with ⟨hnil, -⟩ | ⟨rfl, hnil⟩
    · exact absurd hnil hgroup
    · cases groups with
      | nil => rfl
      | cons other groups =>
        rw [List.flatten_cons, List.append_eq_nil_iff] at hnil
        exact absurd hnil.1 (List.forall_mem_cons.mp hgroups).1

def sampleTotals (total : ℚ) (view : Identifier) : Option ℚ :=
  if view = sampleView then some total else none

theorem eq_sampleView {total measured : ℚ} {view : Identifier}
    (h : sampleTotals total view = some measured) : view = sampleView := by
  by_contra hne
  simp [sampleTotals, hne] at h

variable {slackNs total : ℚ}

theorem negativeByView_samplePath :
    negativeByView [samplePath slackNs] sampleView = negativeSlack (samplePath slackNs) :=
  List.sum_singleton

theorem worstNegative_samplePath :
    worstNegative [samplePath slackNs] sampleView = negativeSlack (samplePath slackNs) := rfl

/-- The cluster of one path with a measured total. -/
theorem clusterPaths_samplePath (hle : total ≤ 1 / 10 ^ 6)
    (hagrees : 1 / 10 ^ 6 < negativeSlack (samplePath slackNs) ↔
      1 / 10 ^ 6 < measuredNegative total)
    (hworst : negativeSlack (samplePath slackNs) ≤ measuredNegative total + 1 / 10 ^ 4) :
    clusterPaths [samplePath slackNs] (some (sampleTotals total)) none sampleMap
      (fun _ => some "domain_a") sampleOrder none =
        .ok [⟨[⟨"path_a", by decide⟩], ["view_a"], slackNs, min (tnsShare [samplePath slackNs]
          (some (sampleTotals total)) (measuredNegative total) [samplePath slackNs]) 100⟩] := by
  have hpath : checkPath sampleMap (fun _ => some "domain_a") (samplePath slackNs) = .ok () := rfl
  have hviews : sampleOrder.iterate ([samplePath slackNs].map
      CriticalPathRecord.analysisViewId) = [sampleView] := rfl
  have hview : (sampleTotals total sampleView).getD 0 = total := by simp [sampleTotals]
  have hcheck : checkMeasuredTns [samplePath slackNs] sampleView total = .ok () := by
    simp only [checkMeasuredTns, bind_eq_ok, require_eq_ok, negativeByView_samplePath,
      worstNegative_samplePath]
    exact ⟨(), hle, (), hagrees, require_eq_ok.mpr hworst⟩
  have htotals : checkMeasured "TNS" (checkMeasuredTns [samplePath slackNs]) [sampleView]
      (some (sampleTotals total)) = .ok () := by
    simp only [checkMeasured, bind_eq_ok]
    refine ⟨(), ?_, forM_eq_ok.mpr ?_⟩
    · simp [checkMissing, sampleTotals, sorted]
    · simpa [hview] using hcheck
  have hsum : ([sampleView].map (measuredTnsByView [samplePath slackNs]
      (some (sampleTotals total)))).sum = measuredNegative total := by
    simp [measuredTnsByView, hview]
  unfold clusterPaths
  simp only [List.mergeSort_singleton, hviews, htotals, hsum, partition_singleton, bind_eq_ok]
  refine ⟨(), rfl, (), rfl, (), forM_eq_ok.mpr (by simpa using hpath), (), rfl, (), trivial, (),
    rfl, ?_⟩
  rfl

/-- A positive total within the tolerance is not zero, but no cluster has a share of it. -/
theorem tolerated_total_unshared : ∃ clusters,
    clusterPaths [samplePath (-1 / 2000000)] (some (sampleTotals (1 / 2000000))) none sampleMap
      (fun _ => some "domain_a") sampleOrder none = .ok clusters ∧
      (∃ view total, sampleTotals (1 / 2000000) view = some total ∧ total ≠ 0) ∧
      (∀ view total, sampleTotals (1 / 2000000) view = some total → total ≠ 0 →
        ∃ path ∈ [samplePath (-1 / 2000000)], path.analysisViewId = view ∧ path.slackNs < 0) ∧
      (clusters.map ClusterShare.tnsSharePercent).sum ≠ 100 := by
  have hslack : negativeSlack (samplePath (-1 / 2000000)) = 1 / 2000000 := by
    norm_num [negativeSlack, samplePath]
  have hmeasured : measuredNegative (1 / 2000000) = 0 := by norm_num [measuredNegative]
  refine ⟨_, clusterPaths_samplePath (by norm_num) ?_ ?_, ⟨sampleView, _, rfl, by norm_num⟩, ?_, ?_⟩
  · rw [hslack, hmeasured]
    norm_num
  · rw [hslack, hmeasured]
    norm_num
  · intro view total htotal _
    exact ⟨_, List.mem_singleton_self _, (eq_sampleView htotal).symm, by norm_num [samplePath]⟩
  · rw [hmeasured]
    norm_num [tnsShare]

theorem clusterPaths_tnsShare_sample : ∃ clusters,
    clusterPaths [samplePath (-1)] (some (sampleTotals (-2))) none sampleMap
      (fun _ => some "domain_a") sampleOrder none = .ok clusters ∧
      (clusters.map ClusterShare.tnsSharePercent).sum = 100 := by
  have hslack : negativeSlack (samplePath (-1)) = 1 := by norm_num [negativeSlack, samplePath]
  have hmeasured : measuredNegative (-2) = 2 := by norm_num [measuredNegative]
  have hclusters := @clusterPaths_samplePath (-1) (-2) (by norm_num)
    (by rw [hslack, hmeasured]; norm_num) (by rw [hslack, hmeasured]; norm_num)
  refine ⟨_, hclusters, (clusterPaths_tnsShare _ _ _ _ _ _ _ _ hclusters).2.2.1 _ rfl
    ⟨sampleView, -2, rfl, by norm_num⟩ fun view total htotal _ => ?_⟩
  exact ⟨_, List.mem_singleton_self _, (eq_sampleView htotal).symm, by norm_num [samplePath]⟩

end NovaRtl.Evidence
