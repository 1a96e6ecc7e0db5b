import NovaRtl.Orchestrator.Consistency

/-!
# Recovery lineage

`RECOVERY_ELIGIBLE` has no way out and no operation rewrites a candidate's recovery parent, so what
`create_candidate` checks of a parent goes on holding, and lineages lead back through earlier
candidates of the run.
-/

namespace NovaRtl.Orchestrator

open Table Transact

variable {Record : Type} {h h' : History Record} {event : RunEvent}

/-- The event that creates a candidate. -/
def Creates (event : RunEvent) (candidateId : EntityId) : Prop :=
  event.entityType = "CANDIDATE" ∧ event.entityId = candidateId ∧ event.priorState = none ∧
    event.newState = some "PROPOSED"

theorem creates_of_view {record : CandidateStateRecord} (hview : event.view? = some record.view)
    (hstate : record.state = .proposed) (hprior : event.priorState = none) :
    Creates event record.candidateId := by
  obtain ⟨text, hnew, hview⟩ := RunEvent.view?_eq_some.mp hview
  simp only [CandidateStateRecord.view, StateView.mk.injEq] at hview
  obtain ⟨htype, -, hentity, htext, -⟩ := hview
  refine ⟨htype.symm, hentity.symm, hprior, hnew.trans ?_⟩
  rw [← htext, hstate]
  rfl

/-- A later row of a candidate: it keeps the run and the recovery parent, and a candidate that is
eligible for recovery stays it. -/
structure Kept (child child' : CandidateStateRecord) : Prop where
  runId : child'.runId = child.runId
  parent : child'.recoveryParentCandidateId = child.recoveryParentCandidateId
  eligible : child.state = .recoveryEligible → child'.state = .recoveryEligible

theorem Kept.refl (child : CandidateStateRecord) : Kept child child := ⟨rfl, rfl, id⟩

theorem Kept.trans {first second third : CandidateStateRecord} (h₁ : Kept first second)
    (h₂ : Kept second third) : Kept first third :=
  ⟨h₂.runId.trans h₁.runId, h₂.parent.trans h₁.parent, h₂.eligible ∘ h₁.eligible⟩

namespace Step

variable (hstep : Step h event h')
include hstep

theorem eventsOf_append (runId : EntityId) :
    ∃ after, h'.eventsOf runId = h.eventsOf runId ++ after := by
  by_cases hrun : event.runId = runId
  · subst hrun
    exact ⟨_, hstep.eventsOf_self⟩
  · exact ⟨[], by rw [hstep.eventsOf_of_ne hrun, List.append_nil]⟩

theorem candidate_kept {candidateId : EntityId} {child : CandidateStateRecord}
    (hchild : h.candidate? candidateId = some child) :
    ∃ child', h'.candidate? candidateId = some child' ∧ Kept child child' := by
  cases hstep.change with
  | run | recorded => exact ⟨child, hchild, .refl child⟩
  | @created run record run_eq policyHash absent =>
    have hid : record.candidateId ≠ candidateId := by
      rintro rfl
      simp [absent] at hchild
    exact ⟨child, (History.candidate?_putCandidate ..).trans ((if_neg hid).trans hchild), .refl _⟩
  | @moved run current record run_eq policyHash current_eq runId legal parent =>
    by_cases hid : record.candidateId = candidateId
    · subst hid
      obtain rfl : current = child := Option.some.inj (current_eq.symm.trans hchild)
      refine ⟨record, (History.candidate?_putCandidate ..).trans (if_pos rfl),
        ⟨runId.symm, parent, fun heligible => ?_⟩⟩
      -- an eligible candidate has no next state
      rw [heligible] at legal
      cases legal
    · exact ⟨child, (History.candidate?_putCandidate ..).trans ((if_neg hid).trans hchild), .refl _⟩

/-- A candidate's row is a later row of the candidate, or the step created it. -/
theorem candidate_origin {candidateId : EntityId} {child' : CandidateStateRecord}
    (hchild' : h'.candidate? candidateId = some child') :
    (∃ child, h.candidate? candidateId = some child ∧ Kept child child') ∨
      (h.candidate? candidateId = none ∧ event.runId = child'.runId ∧ Creates event candidateId ∧
        h'.candidates.map (·.candidateId) = h.candidates.map (·.candidateId) ++ [candidateId] ∧
        ∀ parentId ∈ child'.recoveryParentCandidateId, ∃ parent,
          h.candidate? parentId = some parent ∧ parent.runId = child'.runId ∧
            parent.state = .recoveryEligible) := by
  cases hold : h.candidate? candidateId with
  | some child =>
    obtain ⟨later, hlater, hkept⟩ := hstep.candidate_kept hold
    obtain rfl : later = child' := Option.some.inj (hlater.symm.trans hchild')
    exact .inl ⟨child, rfl, hkept⟩
  | none =>
    refine .inr ⟨rfl, ?_⟩
    cases hstep.change with
    | run | recorded => exact absurd (hold.symm.trans hchild') (by simp)
    | @created run record run_eq policyHash absent state parent view priorState =>
      rw [History.candidate?_putCandidate] at hchild'
      split at hchild'
      next hid =>
        subst hid
        obtain rfl := Option.some.inj hchild'
        refine ⟨(RunEvent.sequence_of_view view).1, creates_of_view view state priorState, ?_,
          parent⟩
        refine (keys_assign ..).trans (if_neg fun hmem => ?_)
        obtain ⟨other, hother, hid⟩ := List.mem_map.mp hmem
        exact lookup_eq_none.mp absent other hother hid
      next => exact absurd (hold.symm.trans hchild') (by simp)
    | @moved run current record run_eq policyHash current_eq =>
      rw [History.candidate?_putCandidate] at hchild'
      split at hchild'
      next hid =>
        subst hid
        simp [hold] at current_eq
      next => exact absurd (hold.symm.trans hchild') (by simp)

end Step

theorem Steps.candidate_kept (hsteps : Steps h h') {candidateId : EntityId}
    {child : CandidateStateRecord} (hchild : h.candidate? candidateId = some child) :
    ∃ child', h'.candidate? candidateId = some child' ∧ Kept child child' := by
  refine hsteps.induction (P := fun later => ∃ child', later.candidate? candidateId = some child' ∧
    Kept child child') ⟨child, hchild, .refl child⟩ ?_
  rintro later event next ⟨child', hchild', hkept⟩ hstep
  obtain ⟨child'', hchild'', hkept'⟩ := hstep.candidate_kept hchild'
  exact ⟨child'', hchild'', hkept.trans hkept'⟩

/-- How a candidate came to be: its creation among the run's events, after that of its recovery
parent, which the events before left eligible for recovery. -/
def Descends (events : List RunEvent) (candidateId : EntityId) (parent : Option EntityId) : Prop :=
  ∃ before event after, events = before ++ event :: after ∧ Creates event candidateId ∧
    ∀ parentId ∈ parent, (∃ created ∈ before, Creates created parentId) ∧
      (stateAfter "CANDIDATE" parentId before).map (·.state) = some "RECOVERY_ELIGIBLE"

theorem Descends.append {events : List RunEvent} {candidateId : EntityId}
    {parent : Option EntityId} (hdescends : Descends events candidateId parent)
    (later : List RunEvent) : Descends (events ++ later) candidateId parent := by
  obtain ⟨before, event, after, rfl, hcreates, hparent⟩ := hdescends
  exact ⟨before, event, after ++ later, by simp, hcreates, hparent⟩

def History.candidateIds (h : History Record) : List EntityId := h.candidates.map (·.candidateId)

theorem History.mem_candidateIds {candidateId : EntityId} {child : CandidateStateRecord}
    (hchild : h.candidate? candidateId = some child) : candidateId ∈ h.candidateIds :=
  List.mem_map.mpr ⟨child, List.mem_of_find?_eq_some hchild, by simpa using List.find?_some hchild⟩

theorem Step.candidateIds_append (hstep : Step h event h') :
    ∃ created, h'.candidateIds = h.candidateIds ++ created := by
  cases hstep.change with
  | run | recorded => exact ⟨[], (List.append_nil _).symm⟩
  | @created _ record | @moved _ _ record =>
    have hids : ((h.putCandidate record).candidates.map (·.candidateId)) = _ := keys_assign ..
    split at hids
    · exact ⟨[], hids.trans (List.append_nil _).symm⟩
    · exact ⟨_, hids⟩

structure Lineage (h : History Record) : Prop where
  parent : ∀ {candidateId child}, h.candidate? candidateId = some child →
    ∀ parentId ∈ child.recoveryParentCandidateId, ∃ parent, h.candidate? parentId = some parent ∧
      parent.runId = child.runId ∧ parent.state = .recoveryEligible
  descends : ∀ {candidateId child}, h.candidate? candidateId = some child →
    Descends (h.eventsOf child.runId) candidateId child.recoveryParentCandidateId
  earlier : ∀ {candidateId child}, h.candidate? candidateId = some child →
    ∀ parentId ∈ child.recoveryParentCandidateId,
      h.candidateIds.idxOf parentId < h.candidateIds.idxOf candidateId

namespace Lineage

theorem empty : Lineage (History.empty : History Record) := by
  constructor
  all_goals
    intro candidateId child hchild
    cases hchild

variable (hh : Lineage h) (hstep : Step h event h')
include hh hstep

theorem parent_step {candidateId : EntityId} {child : CandidateStateRecord}
    (hchild : h'.candidate? candidateId = some child) (parentId : EntityId)
    (hparent : parentId ∈ child.recoveryParentCandidateId) :
    ∃ parent, h'.candidate? parentId = some parent ∧ parent.runId = child.runId ∧
      parent.state = .recoveryEligible := by
  obtain ⟨parent, hfound, hrun, hstate⟩ : ∃ parent, h.candidate? parentId = some parent ∧
      parent.runId = child.runId ∧ parent.state = .recoveryEligible := by
    rcases hstep.candidate_origin hchild with ⟨old, hold, hkept⟩ | ⟨-, -, -, -, hcheck⟩
    · rw [hkept.parent] at hparent
      rw [hkept.runId]
      exact hh.parent hold parentId hparent
    · exact hcheck parentId hparent
  obtain ⟨parent', hfound', hkept⟩ := hstep.candidate_kept hfound
  exact ⟨parent', hfound', hkept.runId.trans hrun, hkept.eligible hstate⟩

theorem descends_step (hconsistent : Consistent h) {candidateId : EntityId}
    {child : CandidateStateRecord} (hchild : h'.candidate? candidateId = some child) :
    Descends (h'.eventsOf child.runId) candidateId child.recoveryParentCandidateId := by
  rcases hstep.candidate_origin hchild with ⟨old, hold, hkept⟩ | ⟨-, hrun, hcreates, -, hcheck⟩
  · obtain ⟨after, hafter⟩ := hstep.eventsOf_append child.runId
    rw [hafter, hkept.runId, hkept.parent]
    exact (hh.descends hold).append after
  · rw [← hrun, hstep.eventsOf_self]
    refine ⟨h.eventsOf event.runId, event, [], rfl, hcreates, fun parentId hparent => ?_⟩
    obtain ⟨parent, hfound, hparentRun, hstate⟩ := hcheck parentId hparent
    rw [hrun]
    constructor
    · obtain ⟨before, created, after, heq, hcreated, -⟩ := hh.descends hfound
      rw [hparentRun] at heq
      exact ⟨created, by simp [heq], hcreated⟩
    · rw [← hconsistent.candidate, hfound, Option.filter_some]
      simp [hparentRun, CandidateStateRecord.view, hstate, CandidateState.text]

theorem earlier_step {candidateId : EntityId} {child : CandidateStateRecord}
    (hchild : h'.candidate? candidateId = some child) (parentId : EntityId)
    (hparent : parentId ∈ child.recoveryParentCandidateId) :
    h'.candidateIds.idxOf parentId < h'.candidateIds.idxOf candidateId := by
  rcases hstep.candidate_origin hchild with ⟨old, hold, hkept⟩ | ⟨hnone, -, -, hids, hcheck⟩
  · obtain ⟨created, hids⟩ := hstep.candidateIds_append
    rw [hkept.parent] at hparent
    obtain ⟨parent, hfound, -⟩ := hh.parent hold parentId hparent
    rw [hids, List.idxOf_append_of_mem (History.mem_candidateIds hfound),
      List.idxOf_append_of_mem (History.mem_candidateIds hold)]
    exact hh.earlier hold parentId hparent
  · -- the new candidate comes after all others
    obtain ⟨parent, hfound, -⟩ := hcheck parentId hparent
    have hmem := History.mem_candidateIds hfound
    have hnot : candidateId ∉ h.candidateIds := by
      intro hin
      obtain ⟨other, hother, hid⟩ := List.mem_map.mp hin
      exact lookup_eq_none.mp hnone other hother hid
    change (h'.candidates.map (·.candidateId)).idxOf parentId <
      (h'.candidates.map (·.candidateId)).idxOf candidateId
    rw [hids]
    change (h.candidateIds ++ [candidateId]).idxOf parentId <
      (h.candidateIds ++ [candidateId]).idxOf candidateId
    rw [List.idxOf_append_of_mem hmem, List.idxOf_append_of_notMem hnot]
    have := List.idxOf_lt_length_of_mem hmem
    omega

theorem step (hconsistent : Consistent h) : Lineage h' :=
  ⟨hh.parent_step hstep, hh.descends_step hstep hconsistent, hh.earlier_step hstep⟩

end Lineage

variable (E : Encoding Record)

/-- One candidate is the recovery parent of the other. -/
def RecoveryParent (db : Database) (parentId candidateId : EntityId) : Prop :=
  ∃ child, E.readCandidate db candidateId = .ok (some child) ∧
    child.recoveryParentCandidateId = some parentId

variable {E}

theorem Represents.recoveryParent_lt {db : Database} (hdb : Represents E db h) (hh : Lineage h)
    {parentId candidateId : EntityId} (hparent : RecoveryParent E db parentId candidateId) :
    h.candidateIds.idxOf parentId < h.candidateIds.idxOf candidateId := by
  obtain ⟨child, hread, hparent⟩ := hparent
  rw [hdb.readCandidate_eq, Except.ok.injEq] at hread
  exact hh.earlier hread parentId hparent

theorem Represents.chain_length {db : Database} (hdb : Represents E db h) (hh : Lineage h)
    {candidateId : EntityId} {ancestors : List EntityId}
    (hchain : (candidateId :: ancestors).IsChain fun child parent =>
      RecoveryParent E db parent child) :
    ancestors.length ≤ h.candidateIds.idxOf candidateId := by
  induction ancestors generalizing candidateId with
  | nil => exact Nat.zero_le _
  | cons parent rest ih =>
    obtain ⟨hparent, hrest⟩ := List.isChain_cons_cons.mp hchain
    have hlt := hdb.recoveryParent_lt hh hparent
    have hle := ih hrest
    rw [List.length_cons]
    omega

/-- In every reachable database a recovery parent is an earlier candidate of the run that was
eligible for recovery when its child was created; whatever is called later, it stays eligible and
its child keeps it. So no lineage has a cycle, and none is longer than there are candidates. -/
theorem recovery_lineage (E : Encoding Record) (calls : List Call) :
    (∀ candidateId child,
      E.readCandidate (performAll E calls .empty) candidateId = .ok (some child) →
      (∃ events, E.iterEvents (performAll E calls .empty) child.runId = .ok events ∧
        Descends events candidateId child.recoveryParentCandidateId) ∧
      (∀ parentId ∈ child.recoveryParentCandidateId, ∃ parent,
        E.readCandidate (performAll E calls .empty) parentId = .ok (some parent) ∧
          parent.runId = child.runId ∧ parent.state = .recoveryEligible) ∧
      ∀ later, ∃ child',
        E.readCandidate (performAll E later (performAll E calls .empty)) candidateId =
          .ok (some child') ∧ Kept child child') ∧
      WellFounded (RecoveryParent E (performAll E calls .empty)) ∧
      ∀ candidateId ancestors,
        ((candidateId :: ancestors).IsChain fun child parent =>
          RecoveryParent E (performAll E calls .empty) parent child) →
        ancestors.length ≤ (performAll E calls .empty).candidateStates.length := by
  obtain ⟨h, hdb, hsteps⟩ := represents_empty.performAll (E := E) calls
  obtain ⟨hconsistent, hlineage⟩ : Consistent h ∧ Lineage h :=
    hsteps.induction (P := fun h => Consistent h ∧ Lineage h) ⟨.empty, .empty⟩
      fun hh hstep => ⟨hh.1.step hstep, hh.2.step hstep hh.1⟩
  refine ⟨fun candidateId child hread => ?_, ?_, fun candidateId ancestors hchain => ?_⟩
  · rw [hdb.readCandidate_eq, Except.ok.injEq] at hread
    refine ⟨⟨_, hdb.iterEvents_eq (hconsistent.pairwise _), hlineage.descends hread⟩,
      fun parentId hparent => ?_, fun later => ?_⟩
    · obtain ⟨parent, hfound, hrun, hstate⟩ := hlineage.parent hread parentId hparent
      exact ⟨parent, by rw [hdb.readCandidate_eq, hfound], hrun, hstate⟩
    · obtain ⟨h', hdb', hsteps'⟩ := hdb.performAll later
      obtain ⟨child', hfound, hkept⟩ := hsteps'.candidate_kept hread
      exact ⟨child', by rw [hdb'.readCandidate_eq, hfound], hkept⟩
  · exact Subrelation.wf (hdb.recoveryParent_lt hlineage)
      (InvImage.wf (h.candidateIds.idxOf ·) Nat.lt_wfRel.wf)
  · have hlength : (performAll E calls .empty).candidateStates.length = h.candidateIds.length := by
      rw [History.candidateIds, List.length_map, hdb.candidates.length_eq]
    rw [hlength]
    exact (hdb.chain_length hlineage hchain).trans List.idxOf_le_length

end NovaRtl.Orchestrator
