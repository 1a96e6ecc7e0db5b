import Mathlib.Data.List.Chain
import NovaRtl.Scheduler.Session

/-!
# The lifecycle of a job

The events of a job are a path of the lifecycle that begins with `QUEUED` and ends in the
stored status. Every step of the lifecycle but the repetition of `CANCELLING` and
`QUARANTINED` goes up in `JobStatus.rank`, so a job runs and ends at most once.
-/

namespace NovaRtl.Scheduler

open Transact

/-! ## Paths -/

/-- `l` is a path of the lifecycle from the queue to `s`. -/
structure LifePath (l : List JobStatus) (s : JobStatus) : Prop where
  head : l.head? = some .queued
  steps : l.IsChain fun a b => a.canBecome b
  last : l.getLast? = some s

theorem LifePath.queued : LifePath [.queued] .queued := ⟨rfl, List.isChain_singleton _, rfl⟩

theorem LifePath.snoc {l : List JobStatus} {s t : JobStatus} (h : LifePath l s)
    (hst : s.canBecome t) : LifePath (l ++ [t]) t := by
  refine ⟨?_, ?_, by simp⟩
  · have hne : l ≠ [] := by rintro rfl; simpa using h.head
    rw [List.head?_append_of_ne_nil _ hne]
    exact h.head
  · refine List.isChain_append.mpr ⟨h.steps, List.isChain_singleton _, fun a ha b hb => ?_⟩
    rw [h.last] at ha
    obtain rfl : s = a := by simpa using ha
    obtain rfl : t = b := by simpa using hb
    exact hst

/-- How far a job has come. -/
def JobStatus.rank : JobStatus → Nat
  | .queued => 0
  | .dispatching => 1
  | .running => 2
  | .cancelling => 3
  | .quarantined => 4
  | .completed | .cancelled | .infrastructureError => 5

/-- `b` comes after `a` in a path of the lifecycle. -/
def JobStatus.Before (a b : JobStatus) : Prop :=
  a.rank < b.rank ∨ (a = b ∧ (a = .cancelling ∨ a = .quarantined))

instance : IsTrans JobStatus JobStatus.Before := by
  refine ⟨fun a b c => ?_⟩
  rintro (hab | ⟨rfl, hab⟩) (hbc | ⟨rfl, hbc⟩)
  · exact .inl (hab.trans hbc)
  · exact .inl hab
  · exact .inl hbc
  · exact .inr ⟨rfl, hab⟩

theorem JobStatus.before_of_canBecome {a b : JobStatus} (h : a.canBecome b) : a.Before b := by
  cases a <;> cases b <;> simp [JobStatus.canBecome] at h <;> simp [Before, rank]

theorem LifePath.pairwise {l : List JobStatus} {s : JobStatus} (h : LifePath l s) :
    l.Pairwise JobStatus.Before :=
  List.isChain_iff_pairwise.mp (h.steps.imp fun _ _ => JobStatus.before_of_canBecome)

/-- A path passes a set of statuses at most once if none of them comes before another. -/
theorem LifePath.countP_le_one {l : List JobStatus} {s : JobStatus} (h : LifePath l s)
    {p : JobStatus → Bool} (hp : ∀ a b, p a → p b → ¬ a.Before b) : l.countP p ≤ 1 := by
  rw [List.countP_eq_length_filter]
  have hpair := h.pairwise.filter p
  match hl : l.filter p with
  | [] => simp
  | [_] => simp
  | a :: b :: rest =>
    rw [hl] at hpair
    have hmem : ∀ x ∈ a :: b :: rest, p x := fun x hx => (List.mem_filter.mp (hl ▸ hx)).2
    have hab := (List.pairwise_cons.mp hpair).1 b (by simp)
    exact absurd hab (hp a b (hmem a (by simp)) (hmem b (by simp)))

/-- A job that entered the queue and was not reserved has no `DISPATCHING` event. -/
theorem LifePath.eq_singleton {l : List JobStatus} (h : LifePath l .queued) : l = [.queued] := by
  obtain ⟨hhead, hsteps, hlast⟩ := h
  cases l with
  | nil => simp at hhead
  | cons a rest =>
    obtain rfl : a = .queued := by simpa using hhead
    have hpair := (LifePath.mk hhead hsteps hlast).pairwise
    cases hrest : rest.getLast? with
    | none => rw [List.getLast?_eq_none_iff.mp hrest]
    | some b =>
      have hb : b ∈ rest := List.mem_of_getLast? hrest
      rw [List.getLast?_cons, hrest] at hlast
      obtain rfl : b = .queued := by simpa using hlast
      have := (List.pairwise_cons.mp hpair).1 _ hb
      simp [JobStatus.Before] at this

/-! ## The event log -/

/-- The statuses that the events of a job denote, in order. -/
def history (db : Database) (job : EntityId) : List JobStatus :=
  (eventsOf db job).map fun e => e.eventType.status

structure Lifecycle (db : Database) : Prop where
  owned : ∀ e ∈ db.events, ∃ r ∈ db.jobs, r.jobId = e.jobId
  path : ∀ r ∈ db.jobs, LifePath (history db r.jobId) r.status

variable {m : Regime} {policy : SchedulerPolicy} {db db' : Database} {r : JobRecord}
  {set : JobProgress → JobProgress} {e : SchedulerEventRecord}

theorem eventsOf_append (h : db'.events = db.events ++ [e]) (job : EntityId) :
    eventsOf db' job = if e.jobId = job then eventsOf db job ++ [e] else eventsOf db job := by
  simp only [eventsOf, h, List.filter_append, List.filter_singleton]
  split <;> simp_all

theorem Move.eventsOf_other (hm : Move m db db' r set e) {job : EntityId} (h : job ≠ r.jobId) :
    eventsOf db' job = eventsOf db job := by
  rw [eventsOf_append hm.events, hm.jobId, if_neg h.symm]

theorem Move.history_self (hm : Move m db db' r set e) :
    history db' r.jobId = history db r.jobId ++ [(set r.toJobProgress).status] := by
  simp only [history]
  rw [eventsOf_append hm.events, if_pos hm.jobId, List.map_append, List.map_singleton, hm.status]

theorem Lifecycle.moved (hdb : Lifecycle db) (hm : Move m db db' r set e) : Lifecycle db' := by
  have hself : r.withProgress set ∈ db'.jobs := hm.mem_iff.mpr (.inl rfl)
  refine ⟨fun e' he' => ?_, fun s hs => ?_⟩
  · rw [hm.events] at he'
    rcases List.mem_append.mp he' with he' | he'
    · obtain ⟨s, hs, hid⟩ := hdb.owned e' he'
      by_cases hsr : s.jobId = r.jobId
      · exact ⟨_, hself, hsr.symm.trans hid⟩
      · exact ⟨s, hm.mem_iff.mpr (.inr ⟨hs, hsr⟩), hid⟩
    · obtain rfl := List.mem_singleton.mp he'
      exact ⟨_, hself, hm.jobId.symm⟩
  · rcases hm.mem_iff.mp hs with rfl | ⟨hs, hne⟩
    · change LifePath (history db' r.jobId) (set r.toJobProgress).status
      rw [hm.history_self]
      exact (hdb.path r hm.mem).snoc hm.edge
    · rw [history, hm.eventsOf_other hne]
      exact hdb.path s hs

theorem Lifecycle.admitted (hdb : Lifecycle db) (spec : JobSpec)
    (fresh : ∀ r ∈ db.jobs, r.jobId ≠ spec.jobId) :
    Lifecycle ((db.insert spec fresh).appendEvent spec.jobId .queued spec.submittedAt [] none) := by
  have happend : ((db.insert spec fresh).appendEvent spec.jobId .queued spec.submittedAt []
      none).events = db.events ++ [⟨spec.jobId, .queued, spec.submittedAt, [], none⟩] := rfl
  have hevents := eventsOf_append happend
  refine ⟨fun e he => ?_, fun s hs => ?_⟩
  · rcases List.mem_append.mp he with he | he
    · obtain ⟨s, hs, hid⟩ := hdb.owned e he
      exact ⟨s, List.mem_append_left _ hs, hid⟩
    · obtain rfl := List.mem_singleton.mp he
      exact ⟨_, List.mem_append_right _ (List.mem_singleton.mpr rfl), rfl⟩
  · rcases List.mem_append.mp hs with hs | hs
    · rw [history, hevents, if_neg (fresh s hs).symm]
      exact hdb.path s hs
    · obtain rfl := List.mem_singleton.mp hs
      have hnone : eventsOf db spec.jobId = [] :=
        List.filter_eq_nil_iff.mpr fun e he => by
          obtain ⟨s, hs, hid⟩ := hdb.owned e he
          simpa [← hid] using fresh s hs
      rw [history, hevents, if_pos rfl, hnone]
      exact .queued

theorem Durable.lifecycle (h : Durable m policy db db') (hdb : Lifecycle db) : Lifecycle db' := by
  cases h with
  | same => exact hdb
  | admitted spec fresh _ _ => exact hdb.admitted spec fresh
  | moved hm => exact hdb.moved hm
  | @logged s _ merged hs hterm hmerge =>
    have hrow : ∀ t, t ∈ (db.setJob s.jobId fun p =>
        { p with partialLogArtifacts := merged }).jobs ↔ _ := fun t => Database.mem_setJob hs
    refine ⟨fun e he => ?_, fun t ht => ?_⟩
    · obtain ⟨t, ht, hid⟩ := hdb.owned e he
      by_cases hts : t.jobId = s.jobId
      · exact ⟨_, (hrow _).mpr (.inl rfl), hts.symm.trans hid⟩
      · exact ⟨t, (hrow t).mpr (.inr ⟨ht, hts⟩), hid⟩
    · rcases (hrow t).mp ht with rfl | ⟨ht, -⟩
      · exact hdb.path s hs
      · exact hdb.path t ht

theorem session_lifecycle {c : Config Unit World SchedulerError Answer}
    (hmay : ∀ spec, m.mayStart spec) (hc : Reached m policy c) : Lifecycle c.state.db :=
  session_invariant hmay (T := fun w => Lifecycle w.db)
    ⟨by simp [World.initial, Database.empty], by simp [World.initial, Database.empty]⟩
    (fun _ hG h => hG.durable.lifecycle h) id hc

/-- A terminal row and the events of its job are final. -/
def Absorbing (db db' : Database) : Prop :=
  ∀ r ∈ db.jobs, r.status.terminal → r ∈ db'.jobs ∧ eventsOf db' r.jobId = eventsOf db r.jobId

theorem Absorbing.trans {a b c : Database} (h : Absorbing a b) (h' : Absorbing b c) :
    Absorbing a c := fun r hr hterm =>
  ⟨(h' r (h r hr hterm).1 hterm).1, (h' r (h r hr hterm).1 hterm).2.trans (h r hr hterm).2⟩

theorem Durable.absorbing (h : Durable m policy db db') : Absorbing db db' := by
  intro r hr hterm
  cases h with
  | same => exact ⟨hr, rfl⟩
  | admitted spec fresh _ _ =>
    refine ⟨List.mem_append_left _ hr, ?_⟩
    rw [eventsOf_append rfl, if_neg (fresh r hr).symm]
    rfl
  | @moved _ s set e hm =>
    have hne : r.jobId ≠ s.jobId := fun hid => by
      obtain rfl := Database.eq_of_jobId hr hm.mem hid
      have hnonterm := JobStatus.nonterminal_of_canBecome hm.edge
      simp [hterm] at hnonterm
    exact ⟨hm.mem_iff.mpr (.inr ⟨hr, hne⟩), hm.eventsOf_other hne⟩
  | @logged s _ merged hs hnonterm hmerge =>
    have hne : r.jobId ≠ s.jobId := fun hid => by
      obtain rfl := Database.eq_of_jobId hr hs hid
      simp [hterm] at hnonterm
    exact ⟨(Database.mem_setJob hs).mpr (.inr ⟨hr, hne⟩), rfl⟩

theorem lifecycle_followed {c : Config Unit World SchedulerError Answer}
    (hc : Reached .free policy c) :
    (∀ e ∈ c.state.db.events, ∃ r ∈ c.state.db.jobs, r.jobId = e.jobId) ∧
    (∀ r ∈ c.state.db.jobs,
      LifePath (history c.state.db r.jobId) r.status ∧
      (eventsOf c.state.db r.jobId).countP (fun e => e.eventType.status.terminal) ≤ 1 ∧
      (eventsOf c.state.db r.jobId).countP (fun e => e.eventType = .running) ≤ 1) ∧
    ∀ d, (session .free policy).Run c d → Absorbing c.state.db d.state.db := by
  have hmay : ∀ spec, Regime.free.mayStart spec := fun _ => trivial
  have hlife := session_lifecycle hmay hc
  refine ⟨hlife.owned, fun r hr => ⟨hlife.path r hr, ?_, ?_⟩, fun d hd => ?_⟩
  · have hone := (hlife.path r hr).countP_le_one (p := fun s => s.terminal) fun a b ha hb => by
      cases a <;> simp [JobStatus.nonterminal, JobStatus.active] at ha <;>
        cases b <;> simp [JobStatus.nonterminal, JobStatus.active] at hb <;>
        simp [JobStatus.Before, JobStatus.rank]
    rwa [history, List.countP_map] at hone
  · have hone := (hlife.path r hr).countP_le_one (p := fun s => s = .running) fun a b ha hb => by
      simp_all [JobStatus.Before]
    rw [history, List.countP_map] at hone
    refine le_trans (List.countP_mono_left fun e _ he => ?_) hone
    obtain he : e.eventType = .running := by simpa using he
    simp [he, EventType.status]
  · exact session_history hmay (T := Absorbing) (fun _ r hr _ => ⟨hr, rfl⟩) Absorbing.trans
      Durable.absorbing hc hd

/-- A job that is submitted, started and cancelled. -/
theorem lifecycle_followed_cancelled :
    let c := sampleRun .free (steady .returned (.returned ⟨true, []⟩))
      [.submit (sampleRequest "job_001" (some ⟨0⟩)), .cancel "job_001" []]
    (c.state.db.jobs.map fun r => (r.status, history c.state.db r.jobId)) =
      [(.cancelled, [.queued, .dispatching, .running, .cancelling, .cancelled])] ∧
    ∀ r ∈ c.state.db.jobs, LifePath (history c.state.db r.jobId) r.status :=
  ⟨by decide +kernel, fun r hr => ((lifecycle_followed (sampleRun_free _ _)).2.1 r hr).1⟩

end NovaRtl.Scheduler
