import NovaRtl.Scheduler.Lifecycle

/-!
# Recovery

Two properties of the database that a stopped process leaves behind, each with the runs in
which it holds. If every operation gets to its last commit, no job is left in a transient
status. If no process stops within the cancellation of a queued job, a job that was never
reserved holds no lease.
-/

namespace NovaRtl.Scheduler

open Transact

variable {m : Regime} {policy : SchedulerPolicy} {db : Database} {job : EntityId}

/-! ## Transient statuses -/

/-- No process stops within an operation. -/
def Regime.crashFree : Regime := { Regime.free with crashes := False }

/-- No process stops within an operation, and workers answer cleanly. -/
def Regime.cleanly : Regime where
  allows := CleanAnswer
  keeps _ _ := True
  mayStart _ := True
  resolves _ := True
  clean := True
  crashes := False
  calm := False
  keeps_startFailure _ _ _ _ _ _ := trivial
  clean_answers _ _ _ _ h := h

instance (w : World) : Decidable (Settled w) :=
  inferInstanceAs (Decidable (∀ r ∈ w.db.jobs, _))

/-- Between two operations no job is in a transient status, and a constructor on the database
raises only where SQLite cannot add the leases. -/
def Recoverable (m : Regime) (policy : SchedulerPolicy) (w : World) : Prop :=
  Settled w ∧ ∀ resolver e t,
    Steps m.env (construct policy resolver, w.stopped) (.throw e, t) →
    e = .operationalError "integer overflow"

theorem recoverable_if_clean {c : Config Unit World SchedulerError Answer}
    (hc : Reached .cleanly policy c) (hrest : c.AtRest) : Recoverable .cleanly policy c.state := by
  have hmay : ∀ spec, Regime.cleanly.mayStart spec := fun _ => trivial
  have hw := session_rest hmay hc hrest
  refine ⟨hw.settled ⟨trivial, id⟩, fun resolver e t hsteps => ?_⟩
  have hsolo := construct_solo hmay policy resolver hw.stopped rfl
  have hraised := ((solo_throw e).mp (Solo.steps hsolo hsteps).2).2 trivial e rfl
  exact hraised.resolve_left fun h => h rfl

theorem steady_clean (w : World) (r : Request) :
    CleanAnswer w r (steady .returned (.returned ⟨true, []⟩) w r) := by
  have hmergeable : ∀ job, Mergeable w job [] := fun job r _ _ => ⟨_, mergeArtifacts_nil _⟩
  rcases r with _ | _ | ⟨_ | _ | _ | _, _, _⟩
  · trivial
  · exact nofun
  · exact ⟨nofun, fun t ht _ => by cases ht; exact List.nodup_nil⟩
  · trivial
  · exact ⟨nofun, hmergeable _⟩
  · exact fun _ => ⟨nofun, hmergeable _⟩

/-- A running job, and one that waits for its worker. -/
theorem recoverable_if_clean_sample :
    let c := sampleRun .cleanly (steady .returned (.returned ⟨true, []⟩))
      [.submit (sampleRequest "job_001" (some ⟨0⟩)), .submit (sampleRequest "job_002" none)]
    c.state.db.jobs.map (fun r => r.status) = [.running, .queued] ∧
    Recoverable .cleanly samplePolicy c.state := by
  intro c
  have hc : Reached .cleanly samplePolicy c :=
    sampleRun_reached steady_clean (by simp [Regime.admits]) trivial
  have hrest : c.AtRest := atRest_of_isNone (by decide +kernel)
  exact ⟨by decide +kernel, recoverable_if_clean hc hrest⟩

/-- A worker that fails to start and ends with one log twice: the job stays in `DISPATCHING`. -/
theorem not_recoverable_after_repeated_log :
    ¬ ∀ (policy : SchedulerPolicy) (c : Config Unit World SchedulerError Answer),
      Reached .crashFree policy c → c.AtRest → Recoverable .crashFree policy c.state := by
  intro hrecoverable
  let log : ArtifactRef :=
    ⟨"artifact_a", "artifact://logs/a", "00", "text/plain", 10, 0, none, .internal⟩
  let o := steady .raised (.returned ⟨true, [log, log]⟩)
  let c := sampleRun .crashFree o [.submit (sampleRequest "job_001" (some ⟨0⟩))]
  have hc : Reached .crashFree samplePolicy c :=
    sampleRun_reached (fun _ _ => trivial) (by simp [Regime.admits]) trivial
  have hrest : c.AtRest := atRest_of_isNone (by decide +kernel)
  have hstuck : ¬ Settled c.state := by decide +kernel
  exact hstuck (hrecoverable samplePolicy c hc hrest).1

/-! ## Jobs that were never reserved -/

/-- No constructor is given a resolver. -/
def Regime.unresolved : Regime :=
  { Regime.free with resolves := fun resolver => resolver = fun _ => none }

/-- No process stops between the request and the end of the cancellation of a queued job. -/
def Regime.undisturbed : Regime := { Regime.free with calm := True }

/-- The job was cancelled out of the queue. -/
def CancelledInQueue (db : Database) (job : EntityId) : Prop :=
  [.queued, .cancelling] <+: history db job

instance (db : Database) (job : EntityId) : Decidable (CancelledInQueue db job) :=
  inferInstanceAs (Decidable (_ <+: _))

theorem Lifecycle.not_dispatched_of_cancelledInQueue (hdb : Lifecycle db) {r : JobRecord}
    (hr : r ∈ db.jobs) (hcancel : CancelledInQueue db r.jobId) : ¬ Dispatched db r.jobId := by
  rintro ⟨e, he, hid, htype⟩
  have hmem : JobStatus.dispatching ∈ history db r.jobId := by
    refine List.mem_map.mpr ⟨e, List.mem_filter.mpr ⟨he, by simpa using hid⟩, ?_⟩
    rw [htype]; rfl
  obtain ⟨rest, hrest⟩ := hcancel
  have hpair := (hdb.path r hr).pairwise
  rw [← hrest] at hpair hmem
  simp only [List.cons_append, List.nil_append, List.mem_cons, reduceCtorEq, false_or] at hmem
  have hbefore := (List.pairwise_cons.mp (List.pairwise_cons.mp hpair).2).1 _ hmem
  simp [JobStatus.Before, JobStatus.rank] at hbefore

theorem no_lease_if_undisturbed {c : Config Unit World SchedulerError Answer}
    (hc : Reached .undisturbed policy c) (hrest : c.AtRest) :
    ∀ r ∈ c.state.db.jobs, CancelledInQueue c.state.db r.jobId → ¬ r.status.active := by
  intro r hr hcancel hactive
  have hmay : ∀ spec, Regime.undisturbed.mayStart spec := fun _ => trivial
  have hw := session_rest hmay hc hrest
  refine (session_lifecycle hmay hc).not_dispatched_of_cancelledInQueue hr hcancel ?_
  cases hs : r.status with
  | dispatching => exact hw.inv.dispatched r hr (.inl hs)
  | running => exact hw.inv.dispatched r hr (.inr hs)
  | cancelling => exact hw.calm trivial r hr (.inl hs)
  | quarantined => exact hw.calm trivial r hr (.inr hs)
  | _ => simp [hs, JobStatus.active] at hactive

/-- A job that is cancelled out of the queue, and a process that stops afterwards. -/
theorem no_lease_if_undisturbed_sample :
    let o := steady .returned (.returned ⟨true, []⟩)
    let c := driveAll .undisturbed samplePolicy o 40
      (sampleRun .undisturbed o
        [.submit (sampleRequest "job_001" none), .cancel "job_001" []])
      [.stop, .construct samplePolicy fun _ => none]
    CancelledInQueue c.state.db "job_001" ∧ c.state.db.jobs ≠ [] ∧
    ∀ r ∈ c.state.db.jobs, CancelledInQueue c.state.db r.jobId → ¬ r.status.active := by
  intro o c
  have hc : Reached .undisturbed samplePolicy c :=
    (sampleRun_reached (fun _ _ => trivial) (by simp [Regime.admits]) trivial).trans
      (driveAll_run (fun _ _ => trivial) 40 _ (by simp) fun _ _ _ => trivial)
  have hrest : c.AtRest := atRest_of_isNone (by decide +kernel)
  exact ⟨by decide +kernel, by decide +kernel, no_lease_if_undisturbed hc hrest⟩

/-- The process stops after the request of the cancellation is committed: without a resolver
the next constructor quarantines a job that was never reserved. -/
theorem lease_leaked_by_crash :
    ¬ ∀ (policy : SchedulerPolicy) (c : Config Unit World SchedulerError Answer),
      Reached .unresolved policy c → c.AtRest → c.state.online →
      ∀ r ∈ c.state.db.jobs, CancelledInQueue c.state.db r.jobId → ¬ r.status.active := by
  intro hleak
  let o := steady .returned (.returned ⟨true, []⟩)
  -- two steps: the clock, and the transaction of the request
  let cut := drive .unresolved samplePolicy o 2
    (sampleRun .unresolved o [.submit (sampleRequest "job_001" none)])
    (.operation (.cancel "job_001" []))
  let c := drive .unresolved samplePolicy o 40
    (.resting Unit SchedulerError Answer cut.state.stopped)
    (.construct samplePolicy fun _ => none)
  have hcut : Reached .unresolved samplePolicy cut :=
    (sampleRun_reached (fun _ _ => trivial) (by simp [Regime.admits]) rfl).trans
      (drive_run (fun _ _ => trivial) 2 _ _ (by rintro op ⟨⟩ w; trivial)
        fun _ _ h => by cases h)
  have hc : Reached .unresolved samplePolicy c :=
    (hcut.tail (.halt (.inr ⟨trivial, False.elim⟩))).trans
      (drive_run (fun _ _ => trivial) 40 _ _ (fun _ h => by cases h) fun _ _ h => by cases h; rfl)
  have hrest : c.AtRest := atRest_of_isNone (by decide +kernel)
  have hleased : ∃ r ∈ c.state.db.jobs, CancelledInQueue c.state.db r.jobId ∧ r.status.active := by
    decide +kernel
  have honline : c.state.online = true := by decide +kernel
  obtain ⟨r, hr, hcancel, hactive⟩ := hleased
  exact hleak samplePolicy c hc hrest honline r hr hcancel hactive

end NovaRtl.Scheduler
