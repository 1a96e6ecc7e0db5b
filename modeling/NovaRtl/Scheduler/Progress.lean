import NovaRtl.Scheduler.Session

/-!
# Order and progress of dispatch

The loop of `dispatch` takes one job off the queue in every pass, so it ends. A job is
reserved only at the head of its kind, and the loop ends only when no head can start.
-/

namespace NovaRtl.Scheduler

open Transact

variable {m : Regime} {policy : SchedulerPolicy} {w w' : World} {db db' : Database}
  {r : JobRecord} {set : JobProgress → JobProgress} {e : SchedulerEventRecord}

/-- A job that is reserved overtakes no job of its kind. -/
def Fifo (db db' : Database) : Prop :=
  ∀ r ∈ db.jobs, r.status = .queued →
    (∃ r' ∈ db'.jobs, r'.jobId = r.jobId ∧ r'.status = .dispatching) →
    ∀ s, Earlier db s r → s.kind = r.kind → s.status ≠ .queued

theorem Fifo.of_queued (h : ∀ r ∈ db.jobs, r.status = .queued →
    ∀ r' ∈ db'.jobs, r'.jobId = r.jobId → r'.status ≠ .dispatching) : Fifo db db' :=
  fun r hr hs ⟨r', hr', hid, hs'⟩ => absurd hs' (h r hr hs r' hr' hid)

theorem Fifo.refl (db : Database) : Fifo db db :=
  .of_queued fun r hr hs r' hr' hid => by rw [Database.eq_of_jobId hr' hr hid, hs]; simp

/-- Moves to another status than `DISPATCHING` reserve nothing. -/
theorem Move.fifo (hm : Move m db db' r set e) (hset : (set r.toJobProgress).status ≠ .dispatching) :
    Fifo db db' :=
  .of_queued fun s hs hq s' hs' hid => by
    rcases hm.mem_iff.mp hs' with rfl | ⟨hs', -⟩
    · exact hset
    · rw [Database.eq_of_jobId hs' hs hid, hq]
      simp

theorem Change.fifo (h : Change m policy w w') : Fifo w.db w'.db := by
  cases h with
  | unchanged | workers | online | ended | started => exact .refl _
  | @admitted spec fresh _ _ =>
    refine .of_queued fun s hs hq s' hs' hid => ?_
    rcases List.mem_append.mp hs' with hs' | hs'
    · rw [Database.eq_of_jobId hs' hs hid, hq]
      simp
    · obtain rfl := List.mem_singleton.mp hs'
      simp
  | @reserved r now hr hs hhead _ =>
    have hm := move_reserve (m := m) now hr hs
    intro s hs' hq ⟨s', hmem, hid, hst⟩ t ht hkind
    rcases hm.mem_iff.mp hmem with rfl | ⟨hmem, -⟩
    · obtain rfl := Database.eq_of_jobId hs' hr hid.symm
      exact hhead.first ht hkind
    · rw [Database.eq_of_jobId hmem hs' hid, hq] at hst
      cases hst
  | ran now hr hs => exact (move_startRunning (m := m) now hr hs).fifo (by simp)
  | requested now code hr hterm hq hmerge =>
    exact (move_requestCancel (m := m) now code hr hterm hq hmerge).fifo (by simp)
  | quarantined now code hr hs hlogs _ =>
    exact (move_enterQuarantine (m := m) now code hr hs hlogs).fifo (by simp)
  | finished now status code hr hs _ hlogs =>
    exact (move_finishJob (m := m) now status code hr hs hlogs).fifo
      (by cases status <;> simp [FinalStatus.status])
  | @logged r _ merged hr _ _ =>
    refine .of_queued fun s hs hq s' hs' hid => ?_
    rcases (Database.mem_setJob hr).mp hs' with rfl | ⟨hs', -⟩
    · obtain rfl := Database.eq_of_jobId hs hr hid.symm
      simp [hq]
    · rw [Database.eq_of_jobId hs' hs hid, hq]
      simp

/-- In the free regime an answer to every question is permitted. -/
theorem free_progress {α : Type} {p : Op α} (hp : ¬ p.Finished) (w : World) :
    ∃ q t, Transact.Step Regime.free.env (p, w) (q, t) :=
  ⟨_, _, advance_step Regime.free.env (o := steady .returned .raised) (fun _ _ _ => trivial) hp⟩

theorem dispatch_fair {c : Config Unit World SchedulerError Answer} (hc : Reached .free policy c) :
    Acc (fun d c => Transact.Step Regime.free.env c d) (dispatch policy, c.state) ∧
    ∀ q t, Steps Regime.free.env (dispatch policy, c.state) (q, t) →
      (q.Finished ∨ ∃ q' t', Transact.Step Regime.free.env (q, t) (q', t')) ∧
      (∀ q' t', Transact.Step Regime.free.env (q, t) (q', t') → Fifo t.db t'.db) ∧
      q ≠ .throw .outOfFuel ∧
      (q = .ret () → Conserving policy t) := by
  have hmay : ∀ spec, Regime.free.mayStart spec := fun _ => trivial
  have hinv := (session_sound hmay hc).1
  have hw : Rest .free policy c.state := ⟨hinv, fun h => h.1.elim, False.elim⟩
  have hsolo := dispatch_solo (.trivial hmay) hw trivial
  refine ⟨Transact.Step.acc _ _ _, fun q t hsteps => ?_⟩
  have hq := (Solo.steps hsolo hsteps).2
  refine ⟨?_, fun q' t' hstep => ?_, ?_, ?_⟩
  · by_cases hp : q.Finished
    · exact .inl hp
    · exact .inr (free_progress hp t)
  · obtain ⟨rfl, -⟩ | ⟨-, hchange, -⟩ := hq.step hstep
    · exact .refl _
    · exact hchange.fifo
  · rintro rfl
    exact ((solo_throw _).mp hq).fuel rfl
  · rintro rfl
    exact ((solo_ret _).mp hq).conserving rfl

/-- Dispatch from the middle of a submission, whose job has a worker and is still queued. -/
theorem dispatch_fair_submitted :
    let o := steady .returned .raised
    let c := drive .free samplePolicy o 3 (sampleRun .free o [])
      (.operation (.submit (sampleRequest "job_001" (some ⟨0⟩))))
    let d := (Transact.advance Regime.free.env o)^[40] (dispatch samplePolicy, c.state)
    c.state.db.jobs.map (fun r => r.status) = [.queued] ∧
    d.2.db.jobs.map (fun r => r.status) = [.running] ∧ Conserving samplePolicy d.2 := by
  intro o c d
  have hc : Reached .free samplePolicy c := (sampleRun_free o []).trans
    (drive_run (fun _ _ => trivial) 3 _ _ (fun _ _ _ => Regime.free_admits _) fun _ _ _ => trivial)
  have hd : Steps Regime.free.env (dispatch samplePolicy, c.state) (d.1, d.2) :=
    advance_steps Regime.free.env (fun _ _ => trivial) 40 _
  have hret : d.1 = .ret () := Prog.result_eq_ok (by decide +kernel)
  exact ⟨by decide +kernel, by decide +kernel, ((dispatch_fair hc).2 _ _ hd).2.2.2 hret⟩

end NovaRtl.Scheduler
