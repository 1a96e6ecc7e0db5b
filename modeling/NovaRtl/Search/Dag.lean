import Mathlib.Logic.Relation
import NovaRtl.Contracts.Base
import NovaRtl.Contracts.Checks

/-!
# The candidate DAG

`CandidateDag` of `search/dag.py`. A candidate is added below the root or below a candidate that is
already there, one level deeper than its parent. Nothing keeps a candidate from carrying the root's
own identity: `lineage_iff` says what this does to the lineage.
-/

namespace NovaRtl.Search

/-- The fields of `CandidateRecord` that a search reads. -/
structure CandidateRecord where
  candidateId : EntityId
  parentCandidateId : EntityId
  lineageDepth : ℕ
  proposalId : EntityId
  sourceHash : String
  patchHash : String
  lineageDepth_pos : 0 < lineageDepth
  parent_ne : parentCandidateId ≠ candidateId

theorem CandidateRecord.data_injective : Function.Injective fun candidate : CandidateRecord =>
    ((candidate.candidateId, candidate.parentCandidateId, candidate.lineageDepth),
      candidate.proposalId, candidate.sourceHash, candidate.patchHash) := by
  rintro ⟨⟩ ⟨⟩ h
  simp_all

instance : DecidableEq CandidateRecord := CandidateRecord.data_injective.decidableEq

inductive CandidateDagError where
  | message (text : String)
  deriving DecidableEq, Repr

/-- The candidates in the order in which they were added. -/
structure CandidateDag where
  rootCandidateId : EntityId
  candidates : List CandidateRecord
  deriving DecidableEq

namespace CandidateDag

def new (root : EntityId) : CandidateDag := ⟨root, []⟩

def get? (dag : CandidateDag) (id : EntityId) : Option CandidateRecord :=
  dag.candidates.find? fun candidate => candidate.candidateId = id

/-- The depth that follows the parent, or none if the parent is unknown. -/
def expectedDepth (dag : CandidateDag) (parent : EntityId) : Option ℕ :=
  if parent = dag.rootCandidateId then some 1
  else (dag.get? parent).map fun candidate => candidate.lineageDepth + 1

def add (dag : CandidateDag) (candidate : CandidateRecord) :
    Except CandidateDagError CandidateDag := do
  require (dag.get? candidate.candidateId = none)
    (.message ("candidate already exists: " ++ candidate.candidateId))
  match dag.expectedDepth candidate.parentCandidateId with
  | none => throw (.message ("candidate has unknown parent: " ++ candidate.parentCandidateId))
  | some depth =>
    require (candidate.lineageDepth = depth)
      (.message ("candidate lineage depth " ++ toString candidate.lineageDepth ++
        " does not follow parent"))
    return { dag with candidates := dag.candidates ++ [candidate] }

/-- A sequence of adds. One that raises leaves the DAG as it is. -/
def addAll (dag : CandidateDag) (candidates : List CandidateRecord) : CandidateDag :=
  candidates.foldl (fun dag candidate => (dag.add candidate).toOption.getD dag) dag

/-- The recorded parent relation. -/
def Parent (dag : CandidateDag) (id parent : EntityId) : Prop :=
  ∃ candidate ∈ dag.candidates,
    candidate.candidateId = id ∧ candidate.parentCandidateId = parent

/-- The identity that `steps` parents lead to. -/
def ancestor (dag : CandidateDag) : ℕ → EntityId → Option EntityId
  | 0, id => some id
  | steps + 1, id =>
    (dag.get? id).bind fun candidate => dag.ancestor steps candidate.parentCandidateId

def Acyclic (dag : CandidateDag) : Prop := ∀ id, ¬ Relation.TransGen dag.Parent id id

/-- The lineage of a candidate reaches the root at its depth and not before. -/
def ReachesRoot (dag : CandidateDag) (candidate : CandidateRecord) : Prop :=
  dag.ancestor candidate.lineageDepth candidate.candidateId = some dag.rootCandidateId ∧
    ∀ steps < candidate.lineageDepth,
      dag.ancestor steps candidate.candidateId ≠ some dag.rootCandidateId

/-- Every candidate is below the root, or below another candidate and one level deeper. -/
structure WellFounded (dag : CandidateDag) : Prop where
  ids_nodup : (dag.candidates.map CandidateRecord.candidateId).Nodup
  below : ∀ candidate ∈ dag.candidates,
    candidate.parentCandidateId = dag.rootCandidateId ∧ candidate.lineageDepth = 1 ∨
      ∃ parent ∈ dag.candidates, parent.candidateId = candidate.parentCandidateId ∧
        candidate.lineageDepth = parent.lineageDepth + 1
  /-- The lineage leads to the root, which may be on it before its end. -/
  leads : ∀ candidate ∈ dag.candidates,
    Relation.TransGen dag.Parent candidate.candidateId dag.rootCandidateId

variable {dag dag' : CandidateDag} {candidate : CandidateRecord}

theorem get?_eq_some {id : EntityId} (h : dag.get? id = some candidate) :
    candidate ∈ dag.candidates ∧ candidate.candidateId = id :=
  ⟨List.mem_of_find?_eq_some h, by simpa using List.find?_some h⟩

theorem get?_eq_none {id : EntityId} :
    dag.get? id = none ↔ ∀ candidate ∈ dag.candidates, candidate.candidateId ≠ id := by
  simp [get?]

/-- What an accepted add does. -/
theorem add_eq_ok (h : dag.add candidate = .ok dag') :
    dag' = { dag with candidates := dag.candidates ++ [candidate] } ∧
      (∀ other ∈ dag.candidates, other.candidateId ≠ candidate.candidateId) ∧
      (candidate.parentCandidateId = dag.rootCandidateId ∧ candidate.lineageDepth = 1 ∨
        ∃ parent ∈ dag.candidates, parent.candidateId = candidate.parentCandidateId ∧
          candidate.lineageDepth = parent.lineageDepth + 1) := by
  simp only [add, bind_eq_ok, require_eq_ok] at h
  obtain ⟨-, hnew, h⟩ := h
  split at h
  · cases h
  next depth hdepth =>
    simp only [bind_eq_ok, require_eq_ok, pure, Except.pure, Except.ok.injEq] at h
    obtain ⟨-, hlineage, rfl⟩ := h
    refine ⟨rfl, get?_eq_none.mp hnew, ?_⟩
    unfold expectedDepth at hdepth
    split at hdepth
    next hroot =>
      obtain rfl := Option.some.inj hdepth
      exact .inl ⟨hroot, hlineage⟩
    next =>
      obtain ⟨parent, hparent, rfl⟩ := Option.map_eq_some_iff.mp hdepth
      obtain ⟨hmem, hid⟩ := get?_eq_some hparent
      exact .inr ⟨parent, hmem, hid, hlineage⟩

theorem parent_le_append (dag : CandidateDag) (candidate : CandidateRecord) :
    dag.Parent ≤ Parent { dag with candidates := dag.candidates ++ [candidate] } := by
  rintro id parent ⟨other, hother, hids⟩
  exact ⟨other, List.mem_append_left _ hother, hids⟩

theorem wellFounded_new (root : EntityId) : (new root).WellFounded where
  ids_nodup := .nil
  below := nofun
  leads := nofun

theorem WellFounded.add (hdag : dag.WellFounded) (h : dag.add candidate = .ok dag') :
    dag'.WellFounded := by
  obtain ⟨rfl, hnew, hbelow⟩ := add_eq_ok h
  have hleads : ∀ other ∈ dag.candidates,
      Relation.TransGen (Parent { dag with candidates := dag.candidates ++ [candidate] })
        other.candidateId dag.rootCandidateId :=
    fun other hother =>
      Relation.TransGen.mono (parent_le_append dag candidate) _ _ (hdag.leads other hother)
  have hself : Parent { dag with candidates := dag.candidates ++ [candidate] }
      candidate.candidateId candidate.parentCandidateId :=
    ⟨candidate, by simp, rfl, rfl⟩
  constructor
  · simp only [List.map_append, List.map_cons, List.map_nil]
    refine List.Nodup.append hdag.ids_nodup (List.nodup_singleton _) ?_
    simpa [List.disjoint_singleton] using hnew
  · intro other hother
    rcases List.mem_append.mp hother with hother | hother
    · rcases hdag.below other hother with hroot | ⟨parent, hparent, hrest⟩
      · exact .inl hroot
      · exact .inr ⟨parent, List.mem_append_left _ hparent, hrest⟩
    · obtain rfl := List.mem_singleton.mp hother
      rcases hbelow with hroot | ⟨parent, hparent, hrest⟩
      · exact .inl hroot
      · exact .inr ⟨parent, List.mem_append_left _ hparent, hrest⟩
  · intro other hother
    rcases List.mem_append.mp hother with hother | hother
    · exact hleads other hother
    · obtain rfl := List.mem_singleton.mp hother
      rcases hbelow with ⟨hroot, -⟩ | ⟨parent, hparent, hid, -⟩
      · exact .single (hroot ▸ hself)
      · exact .head (hid ▸ hself) (hleads parent hparent)

theorem WellFounded.addAll (hdag : dag.WellFounded) (candidates : List CandidateRecord) :
    (dag.addAll candidates).WellFounded := by
  induction candidates generalizing dag with
  | nil => exact hdag
  | cons candidate candidates ih =>
    rw [CandidateDag.addAll, List.foldl_cons]
    apply ih
    cases h : dag.add candidate with
    | error e => exact hdag
    | ok dag' => exact hdag.add h

section Lineage

variable (hdag : dag.WellFounded)

include hdag

theorem WellFounded.get? (hmem : candidate ∈ dag.candidates) :
    dag.get? candidate.candidateId = some candidate := by
  cases hfind : dag.get? candidate.candidateId with
  | none => exact absurd rfl (get?_eq_none.mp hfind candidate hmem)
  | some other =>
    obtain ⟨hother, hid⟩ := get?_eq_some hfind
    rw [List.inj_on_of_nodup_map hdag.ids_nodup hother hmem hid]

variable (hroot : ∀ candidate ∈ dag.candidates, candidate.candidateId ≠ dag.rootCandidateId)

include hroot

/-- The depth of a candidate, and zero for the root. -/
theorem WellFounded.depth_lt {id parent : EntityId} (h : dag.Parent id parent) :
    ((dag.get? parent).map CandidateRecord.lineageDepth).getD 0 <
      ((dag.get? id).map CandidateRecord.lineageDepth).getD 0 := by
  obtain ⟨candidate, hmem, rfl, rfl⟩ := h
  rw [hdag.get? hmem]
  rcases hdag.below candidate hmem with ⟨hparent, hdepth⟩ | ⟨parent, hparent, hid, hdepth⟩
  · rw [hparent, get?_eq_none.mpr hroot]
    simp [hdepth]
  · rw [← hid, hdag.get? hparent]
    simp [hdepth]

theorem WellFounded.acyclic : dag.Acyclic := by
  intro id hcycle
  have hlt : ∀ {a b}, Relation.TransGen dag.Parent a b →
      ((dag.get? b).map CandidateRecord.lineageDepth).getD 0 <
        ((dag.get? a).map CandidateRecord.lineageDepth).getD 0 := by
    intro a b hab
    induction hab with
    | single h => exact hdag.depth_lt hroot h
    | tail _ h ih => exact (hdag.depth_lt hroot h).trans ih
  exact lt_irrefl _ (hlt hcycle)

theorem WellFounded.reachesRoot (hmem : candidate ∈ dag.candidates) :
    dag.ReachesRoot candidate := by
  obtain ⟨depth, hdepth⟩ : ∃ depth, candidate.lineageDepth = depth := ⟨_, rfl⟩
  induction depth generalizing candidate with
  | zero => exact absurd hdepth candidate.lineageDepth_pos.ne'
  | succ depth ih =>
    have hstep (steps : ℕ) : dag.ancestor (steps + 1) candidate.candidateId =
        dag.ancestor steps candidate.parentCandidateId := by
      simp [ancestor, hdag.get? hmem]
    rcases hdag.below candidate hmem with ⟨hparent, hone⟩ | ⟨parent, hparent, hid, hlevel⟩
    · refine ⟨by rw [hone, hstep, hparent]; rfl, fun steps hsteps => ?_⟩
      obtain rfl : steps = 0 := by omega
      simpa [ancestor] using hroot candidate hmem
    · obtain ⟨hreach, hfirst⟩ := ih hparent (by omega)
      refine ⟨by rw [hlevel, hstep, ← hid, hreach], fun steps hsteps => ?_⟩
      cases steps with
      | zero => simpa [ancestor] using hroot candidate hmem
      | succ steps =>
        rw [hstep, ← hid]
        exact hfirst steps (by omega)

end Lineage

/-- The lineage is a tree below the root exactly if no candidate carries the root's identity. -/
theorem lineage_iff (root : EntityId) (candidates : List CandidateRecord) :
    ((new root).addAll candidates).Acyclic ∧
        (∀ candidate ∈ ((new root).addAll candidates).candidates,
          ((new root).addAll candidates).ReachesRoot candidate) ↔
      ∀ candidate ∈ ((new root).addAll candidates).candidates,
        candidate.candidateId ≠ ((new root).addAll candidates).rootCandidateId := by
  have hdag := (wellFounded_new root).addAll candidates
  constructor
  · rintro ⟨hacyclic, -⟩ candidate hmem hself
    exact hacyclic _ (hself ▸ hdag.leads candidate hmem)
  · intro hroot
    exact ⟨hdag.acyclic hroot, fun candidate hmem => hdag.reachesRoot hroot hmem⟩

section Sample

def sampleHash : String := "sha256:ca978112ca1bbdcafac231b39a23dc4da786eff8147c4e72b9807785afee48bb"

theorem sampleParents_ne : "cand_root" ≠ "cand_one" ∧ "cand_one" ≠ "cand_root" := by decide

/-- A candidate below the root, and one below it that carries the root's identity. -/
def sampleCandidates : List CandidateRecord :=
  [⟨"cand_one", "cand_root", 1, "prop_one", sampleHash, sampleHash, Nat.one_pos,
      sampleParents_ne.1⟩,
    ⟨"cand_root", "cand_one", 2, "prop_two", sampleHash, sampleHash, Nat.two_pos,
      sampleParents_ne.2⟩]

theorem root_candidate_cyclic :
    ¬ ∀ (root : EntityId) (candidates : List CandidateRecord),
      ((new root).addAll candidates).Acyclic ∧
        ∀ candidate ∈ ((new root).addAll candidates).candidates,
          ((new root).addAll candidates).ReachesRoot candidate := by
  intro h
  have hdag : (new "cand_root").addAll sampleCandidates = ⟨"cand_root", sampleCandidates⟩ := by
    decide +kernel
  obtain ⟨hacyclic, -⟩ := h "cand_root" sampleCandidates
  rw [hdag] at hacyclic
  have hup : Parent ⟨"cand_root", sampleCandidates⟩ "cand_one" "cand_root" :=
    ⟨_, List.mem_cons_self, rfl, rfl⟩
  have hdown : Parent ⟨"cand_root", sampleCandidates⟩ "cand_root" "cand_one" :=
    ⟨_, List.mem_cons_of_mem _ List.mem_cons_self, rfl, rfl⟩
  exact hacyclic "cand_root" (.tail (.single hdown) hup)

end Sample

end CandidateDag

end NovaRtl.Search
