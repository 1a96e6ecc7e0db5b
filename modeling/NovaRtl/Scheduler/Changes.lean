import NovaRtl.Scheduler.Moves

/-!
# Everything one step can do

`Change` is the abstract scheduler: every change of the world that an operation may make,
with its guard. It forgets control flow; that the operations make no other change is
`Dispatch.lean` and `Operate.lean`, and the invariants of the later modules are read off `Change` alone.

A `Regime` collects what a group of results assumes of a run: which answers workers give
(`allows`), what a finishing write keeps of the stored logs (`keeps`), which jobs may be
started (`mayStart`), which resolvers a constructor is given (`resolves`), that answers
never make the scheduler raise half-way (`clean`), that the process may stop within an
operation (`crashes`), but not between the two halves of the cancellation of a queued job
(`calm`).
-/

namespace NovaRtl.Scheduler

/-- The lifecycle of a job. -/
def JobStatus.canBecome : JobStatus → JobStatus → Bool
  | .queued, .dispatching | .queued, .cancelling => true
  | .dispatching, .running | .dispatching, .cancelling | .dispatching, .quarantined
  | .dispatching, .infrastructureError => true
  | .running, .completed | .running, .cancelling | .running, .quarantined => true
  | .cancelling, .cancelling | .cancelling, .quarantined | .cancelling, .cancelled => true
  | .quarantined, .quarantined | .quarantined, .infrastructureError => true
  | _, _ => false

theorem JobStatus.nonterminal_of_canBecome {a b : JobStatus} (h : a.canBecome b) :
    a.nonterminal := by
  cases a <;> first | rfl | cases h

/-- No job returns to the queue. -/
theorem JobStatus.ne_queued_of_canBecome {a b : JobStatus} (h : a.canBecome b) : b ≠ .queued := by
  rintro rfl
  cases a <;> cases h

/-- The status a job has once the event is recorded. -/
def EventType.status : EventType → JobStatus
  | .queued => .queued
  | .dispatching => .dispatching
  | .running => .running
  | .cancellationRequested => .cancelling
  | .quarantined => .quarantined
  | .completed => .completed
  | .cancelled => .cancelled
  | .infrastructureError => .infrastructureError

@[simp] theorem FinalStatus.eventType_status (s : FinalStatus) : s.eventType.status = s.status := by
  cases s <;> rfl

/-- The job was reserved for a start at some time. -/
def Dispatched (db : Database) (job : EntityId) : Prop :=
  ∃ e ∈ db.events, e.jobId = job ∧ e.eventType = .dispatching

/-! ## Regimes -/

def TerminateOutcome.logs : TerminateOutcome → List ArtifactRef
  | .returned termination => termination.partialLogArtifacts
  | _ => []

/-- The logs do not conflict with each other or with the stored ones of the job. -/
def Mergeable (w : World) (job : EntityId) (logs : List ArtifactRef) : Prop :=
  ∀ r ∈ w.db.jobs, r.jobId = job → ∃ merged, mergeArtifacts r.partialLogArtifacts logs = .ok merged

/-- A confirmed end comes with logs of distinct identities. -/
def DistinctIfTerminated (outcome : TerminateOutcome) : Prop :=
  ∀ t, outcome = .returned t → t.terminated → (t.partialLogArtifacts.map byArtifactId).Nodup

/-- An answer after which the scheduler can always commit the final status. A public
reconciliation commits nothing before it asks, so only those of a constructor matter. -/
def CleanAnswer (w : World) : (r : Request) → Answer r → Prop
  | .now, _ => True
  | .start _ _, outcome => outcome ≠ .interrupted
  | .terminateAndWait .startFailure _ _, outcome =>
    outcome ≠ .interrupted ∧ DistinctIfTerminated outcome
  | .terminateAndWait .lostDispatch _ _, _ => True
  | .terminateAndWait .cancellation job _, outcome =>
    outcome ≠ .interrupted ∧ Mergeable w job outcome.logs
  | .terminateAndWait .reconciliation job _, outcome =>
    w.online = false → outcome ≠ .interrupted ∧ Mergeable w job outcome.logs

structure Regime where
  allows : World → (r : Request) → Answer r → Prop
  keeps : List ArtifactRef → List ArtifactRef → Prop
  mayStart : JobSpec → Prop
  resolves : WorkerResolver → Prop
  clean : Prop
  crashes : Prop
  calm : Prop
  /-- What a worker that failed to start returns from its termination. -/
  keeps_startFailure : ∀ {w job worker outcome}, outcome ≠ .interrupted →
    DistinctIfTerminated outcome →
    allows w (.terminateAndWait .startFailure job worker) outcome →
    ∀ r ∈ w.db.jobs, r.jobId = job → keeps r.partialLogArtifacts outcome.logs
  clean_answers : clean → ∀ {w r a}, allows w r a → CleanAnswer w r a

/-- Any answers, any stop. -/
def Regime.free : Regime where
  allows _ _ _ := True
  keeps _ _ := True
  mayStart _ := True
  resolves _ := True
  clean := False
  crashes := True
  calm := False
  keeps_startFailure _ _ _ _ _ _ := trivial
  clean_answers h := h.elim

/-- Every operation gets to its last commit. -/
def Regime.settles (m : Regime) : Prop := m.clean ∧ ¬ m.crashes

def Regime.env (m : Regime) : Transact.Env World Answer where
  allows := m.allows
  effect r a w := w.answered r a

/-! ## Changes -/

/-- Where the logs of a moved row come from: kept, merged with others, or replaced. -/
def Written (m : Regime) (stored new : List ArtifactRef) : Prop :=
  new = stored ∨ (∃ more, mergeArtifacts stored more = .ok new) ∨ m.keeps stored new

def FinishEdge : JobStatus → FinalStatus → Prop
  | .running, .completed | .cancelling, .cancelled => True
  | .dispatching, .infrastructureError | .quarantined, .infrastructureError => True
  | _, _ => False

inductive Change (m : Regime) (policy : SchedulerPolicy) : World → World → Prop where
  | unchanged (w : World) : Change m policy w w
  | workers (w : World) (workers : EntityId → Option WorkerControl) :
      Change m policy w (w.withWorkers workers)
  | online (w : World) : Change m policy w { w with online := true }
  | ended (w : World) (job : EntityId) : Change m policy w (w.ended job)
  | admitted {w : World} (spec : JobSpec) (fresh : ∀ r ∈ w.db.jobs, r.jobId ≠ spec.jobId) :
      runTotal w.db spec.runId JobSpec.candidateCost + spec.candidateCost ≤ policy.maxCandidates →
      runTotal w.db spec.runId JobSpec.tokenCost + spec.tokenCost ≤ policy.maxTokens →
      Change m policy w (w.admitRow spec fresh)
  | reserved {w : World} {r : JobRecord} (now : Instant) :
      r ∈ w.db.jobs → r.status = .queued → HeadOfKind (queuedRows w.db) r →
      Fits policy w.db r → Change m policy w (w.reserve r.jobId now)
  | started {w : World} {r : JobRecord} :
      r ∈ w.db.jobs → r.status = .dispatching → w.starts r.jobId = 0 →
      m.mayStart r.toJobSpec → Change m policy w (w.started r.jobId)
  | ran {w : World} {r : JobRecord} (now : Instant) :
      r ∈ w.db.jobs → r.status = .dispatching → Change m policy w (w.startRunning r.jobId now)
  | requested {w : World} {r : JobRecord} {logs merged : List ArtifactRef} (now : Instant)
      (errorCode : Option String) :
      r ∈ w.db.jobs → r.status.nonterminal → r.status ≠ .quarantined →
      mergeArtifacts r.partialLogArtifacts logs = .ok merged →
      Change m policy w (w.requestCancel r.jobId merged now errorCode)
  | quarantined {w : World} {r : JobRecord} {logs : List ArtifactRef} (now : Instant)
      (errorCode : String) :
      r ∈ w.db.jobs → r.status.active → Written m r.partialLogArtifacts logs →
      (m.calm → Dispatched w.db r.jobId) →
      Change m policy w (w.enterQuarantine r.jobId logs now errorCode)
  | finished {w : World} {r : JobRecord} {logs : List ArtifactRef} (now : Instant)
      (status : FinalStatus) (errorCode : Option String) :
      r ∈ w.db.jobs → FinishEdge r.status status →
      (status ≠ .completed → w.alive r.jobId = false) → Written m r.partialLogArtifacts logs →
      Change m policy w (w.finishJob r.jobId logs now status errorCode)
  | logged {w : World} {r : JobRecord} {artifacts merged : List ArtifactRef} :
      r ∈ w.db.jobs → r.status.nonterminal →
      mergeArtifacts r.partialLogArtifacts artifacts = .ok merged →
      Change m policy w (w.setLogs r.jobId merged)

/-! ## The durable part of a change -/

/-- A row moves along the lifecycle and the event of its new status is recorded. -/
structure Move (m : Regime) (db db' : Database) (r : JobRecord) (set : JobProgress → JobProgress)
    (e : SchedulerEventRecord) : Prop where
  mem : r ∈ db.jobs
  db_eq : db' = { db.setJob r.jobId set with events := db.events ++ [e] }
  jobId : e.jobId = r.jobId
  edge : r.status.canBecome (set r.toJobProgress).status
  status : e.eventType.status = (set r.toJobProgress).status
  logs : Written m r.partialLogArtifacts (set r.toJobProgress).partialLogArtifacts

/-- What a change does to the database. -/
inductive Durable (m : Regime) (policy : SchedulerPolicy) : Database → Database → Prop where
  | same (db : Database) : Durable m policy db db
  | admitted {db : Database} (spec : JobSpec) (fresh : ∀ r ∈ db.jobs, r.jobId ≠ spec.jobId) :
      runTotal db spec.runId JobSpec.candidateCost + spec.candidateCost ≤ policy.maxCandidates →
      runTotal db spec.runId JobSpec.tokenCost + spec.tokenCost ≤ policy.maxTokens →
      Durable m policy db
        ((db.insert spec fresh).appendEvent spec.jobId .queued spec.submittedAt [] none)
  | moved {db db' : Database} {r : JobRecord} {set : JobProgress → JobProgress}
      {e : SchedulerEventRecord} : Move m db db' r set e → Durable m policy db db'
  | logged {db : Database} {r : JobRecord} {artifacts merged : List ArtifactRef} :
      r ∈ db.jobs → r.status.nonterminal →
      mergeArtifacts r.partialLogArtifacts artifacts = .ok merged →
      Durable m policy db (db.setJob r.jobId fun p => { p with partialLogArtifacts := merged })

variable {m : Regime} {policy : SchedulerPolicy} {w w' : World}

theorem canBecome_dispatching {s : JobStatus} (h : s = .queued) : s.canBecome .dispatching := by
  subst h; rfl

theorem canBecome_cancelling {s : JobStatus} (h : s.nonterminal) (hq : s ≠ .quarantined) :
    s.canBecome .cancelling := by
  cases s <;> simp_all [JobStatus.canBecome, JobStatus.nonterminal, JobStatus.active]

theorem canBecome_quarantined {s : JobStatus} (h : s.active) : s.canBecome .quarantined := by
  cases s <;> simp_all [JobStatus.canBecome, JobStatus.active]

theorem FinishEdge.canBecome {s : JobStatus} {status : FinalStatus} (h : FinishEdge s status) :
    s.canBecome status.status := by
  cases s <;> cases status <;> first | rfl | exact h.elim

@[simp] theorem finishJob_db (w : World) (job : EntityId) (logs : List ArtifactRef) (now : Instant)
    (status : FinalStatus) (errorCode : Option String) :
    (w.finishJob job logs now status errorCode).db =
      (w.finishRow job logs now status errorCode).db := by
  unfold World.finishJob
  split <;> rfl

section Move

variable {r : JobRecord} {logs : List ArtifactRef} (now : Instant)

theorem move_reserve (hr : r ∈ w.db.jobs) (hs : r.status = .queued) :
    Move m w.db (w.reserve r.jobId now).db r (fun p => { p with status := .dispatching })
      ⟨r.jobId, .dispatching, now, [], none⟩ :=
  ⟨hr, rfl, rfl, by rw [hs]; rfl, rfl, .inl rfl⟩

theorem move_startRunning (hr : r ∈ w.db.jobs) (hs : r.status = .dispatching) :
    Move m w.db (w.startRunning r.jobId now).db r
      (fun p => { p with status := .running, startedAt := some now })
      ⟨r.jobId, .running, now, [], none⟩ :=
  ⟨hr, rfl, rfl, by rw [hs]; rfl, rfl, .inl rfl⟩

theorem move_requestCancel {merged : List ArtifactRef} (errorCode : Option String)
    (hr : r ∈ w.db.jobs) (hs : r.status.nonterminal) (hq : r.status ≠ .quarantined)
    (hmerge : mergeArtifacts r.partialLogArtifacts logs = .ok merged) :
    Move m w.db (w.requestCancel r.jobId merged now errorCode).db r
      (fun p => { p with status := .cancelling, partialLogArtifacts := merged, errorCode })
      ⟨r.jobId, .cancellationRequested, now, merged, errorCode⟩ :=
  ⟨hr, rfl, rfl, canBecome_cancelling hs hq, rfl, .inr (.inl ⟨_, hmerge⟩)⟩

theorem move_enterQuarantine (errorCode : String) (hr : r ∈ w.db.jobs) (hs : r.status.active)
    (hlogs : Written m r.partialLogArtifacts logs) :
    Move m w.db (w.enterQuarantine r.jobId logs now errorCode).db r
      (fun p => { p with
        status := .quarantined, partialLogArtifacts := logs, errorCode := some errorCode })
      ⟨r.jobId, .quarantined, now, logs, some errorCode⟩ :=
  ⟨hr, rfl, rfl, canBecome_quarantined hs, rfl, hlogs⟩

theorem move_finishJob (status : FinalStatus) (errorCode : Option String) (hr : r ∈ w.db.jobs)
    (hs : FinishEdge r.status status) (hlogs : Written m r.partialLogArtifacts logs) :
    Move m w.db (w.finishJob r.jobId logs now status errorCode).db r
      (fun p => { p with
        status := status.status, partialLogArtifacts := logs, endedAt := some now, errorCode })
      ⟨r.jobId, status.eventType, now, logs, errorCode⟩ := by
  rw [finishJob_db]
  exact ⟨hr, rfl, rfl, hs.canBecome, status.eventType_status, hlogs⟩

end Move

/-- Every change of the world makes one of the four changes of the database. -/
theorem Change.durable (h : Change m policy w w') : Durable m policy w.db w'.db := by
  cases h with
  | unchanged => exact .same _
  | workers ws => exact .same _
  | online => exact .same _
  | ended job => exact .same _
  | admitted spec fresh hc ht => exact .admitted spec fresh hc ht
  | reserved now hr hs _ _ => exact .moved (move_reserve now hr hs)
  | started hr hs _ _ => exact .same _
  | ran now hr hs => exact .moved (move_startRunning now hr hs)
  | requested now code hr hterm hq hmerge =>
    exact .moved (move_requestCancel now code hr hterm hq hmerge)
  | quarantined now code hr hs hw _ => exact .moved (move_enterQuarantine now code hr hs hw)
  | finished now status code hr hs _ hw => exact .moved (move_finishJob now status code hr hs hw)
  | logged hr hs hmerge => exact .logged hr hs hmerge

section Move

variable {db db' : Database} {r : JobRecord} {set : JobProgress → JobProgress}
  {e : SchedulerEventRecord}

theorem Move.mem_iff (h : Move m db db' r set e) {s : JobRecord} :
    s ∈ db'.jobs ↔ s = r.withProgress set ∨ (s ∈ db.jobs ∧ s.jobId ≠ r.jobId) := by
  rw [h.db_eq]
  exact Database.mem_setJob h.mem

theorem Move.events (h : Move m db db' r set e) : db'.events = db.events ++ [e] := by
  rw [h.db_eq]

theorem Move.specs (h : Move m db db' r set e) :
    db'.jobs.map JobRecord.toJobSpec = db.jobs.map JobRecord.toJobSpec := by
  rw [h.db_eq]
  exact Database.setJob_specs _ _

end Move

/-- No row is removed, and none changes its specification. -/
theorem Durable.mem_specs {db db' : Database} (h : Durable m policy db db') {r : JobRecord}
    (hr : r ∈ db.jobs) : ∃ s ∈ db'.jobs, s.toJobSpec = r.toJobSpec := by
  have hspec := List.mem_map_of_mem (f := JobRecord.toJobSpec) hr
  cases h with
  | same => exact ⟨r, hr, rfl⟩
  | admitted spec fresh hc ht => exact ⟨r, List.mem_append_left _ hr, rfl⟩
  | moved hm => exact List.mem_map.mp (hm.specs ▸ hspec)
  | logged hs hterm hmerge => exact List.mem_map.mp (by rwa [Database.setJob_specs])

/-- Events are only ever appended. -/
theorem Durable.events_prefix {db db' : Database} (h : Durable m policy db db') :
    db.events <+: db'.events := by
  cases h with
  | same => exact List.prefix_rfl
  | admitted spec fresh hc ht => exact List.prefix_append _ _
  | moved hm => rw [hm.events]; exact List.prefix_append _ _
  | logged hr hs hmerge => exact List.prefix_rfl

theorem Dispatched.mono {db db' : Database} {job : EntityId} (h : Dispatched db job)
    (hsub : db.events <+: db'.events) : Dispatched db' job := by
  obtain ⟨e, he, hid, htype⟩ := h
  exact ⟨e, hsub.subset he, hid, htype⟩

/-! ## What the operations rely on -/

/-- A job that is absent or still queued has no worker process. -/
def Untouched (w : World) : Prop :=
  ∀ job, (∀ r ∈ w.db.jobs, r.jobId = job → r.status = .queued) →
    w.starts job = 0 ∧ w.alive job = false

structure Inv (policy : SchedulerPolicy) (w : World) : Prop where
  policy_eq : w.db.policy = some policy
  untouched : Untouched w
  dispatched : ∀ r ∈ w.db.jobs, r.status = .dispatching ∨ r.status = .running →
    Dispatched w.db r.jobId

/-- Where no worker process appears and a moved row does not return to the queue. -/
theorem Untouched.frame (h : Untouched w)
    (hrows : ∀ r ∈ w.db.jobs, ∃ s ∈ w'.db.jobs, s.jobId = r.jobId ∧
      (s.status = .queued → r.status = .queued))
    (hstarts : w'.starts = w.starts) (halive : ∀ job, w.alive job = false → w'.alive job = false) :
    Untouched w' := by
  intro job hjob
  obtain ⟨hs, ha⟩ := h job fun r hr hid => by
    obtain ⟨s, hs, hsid, hstatus⟩ := hrows r hr
    exact hstatus (hjob s hs (hsid.trans hid))
  exact ⟨by rw [hstarts]; exact hs, halive _ ha⟩

theorem Durable.rows {db db' : Database} (h : Durable m policy db db') :
    ∀ r ∈ db.jobs, ∃ s ∈ db'.jobs, s.jobId = r.jobId ∧
      (s.status = .queued → r.status = .queued) := by
  intro r hr
  cases h with
  | same => exact ⟨r, hr, rfl, id⟩
  | admitted spec fresh hc ht => exact ⟨r, List.mem_append_left _ hr, rfl, id⟩
  | @moved _ s set e hm =>
    rcases eq_or_ne r.jobId s.jobId with hid | hid
    · refine ⟨s.withProgress set, hm.mem_iff.mpr (.inl rfl), hid.symm, fun hq => ?_⟩
      exact absurd hq (JobStatus.ne_queued_of_canBecome hm.edge)
    · exact ⟨r, hm.mem_iff.mpr (.inr ⟨hr, hid⟩), rfl, id⟩
  | @logged s _ merged hs hterm hmerge =>
    rcases eq_or_ne r.jobId s.jobId with hid | hid
    · obtain rfl := Database.eq_of_jobId hr hs hid
      exact ⟨_, (Database.mem_setJob hr).mpr (.inl rfl), rfl, id⟩
    · exact ⟨r, (Database.mem_setJob hs).mpr (.inr ⟨hr, hid⟩), rfl, id⟩

theorem finishJob_alive {job : EntityId} {logs : List ArtifactRef} {now : Instant}
    {status : FinalStatus} {errorCode : Option String} {other : EntityId}
    (h : w.alive other = false) :
    (w.finishJob job logs now status errorCode).alive other = false := by
  unfold World.finishJob
  split
  · simp only [World.ended, Function.update_apply]
    split
    · rfl
    · exact h
  · exact h

@[simp] theorem finishJob_starts (job : EntityId) (logs : List ArtifactRef) (now : Instant)
    (status : FinalStatus) (errorCode : Option String) :
    (w.finishJob job logs now status errorCode).starts = w.starts := by
  unfold World.finishJob
  split <;> rfl

theorem Change.untouched (h : Change m policy w w') (hw : Untouched w) : Untouched w' := by
  have hrows := h.durable.rows
  cases h with
  | ended job =>
    refine hw.frame hrows rfl fun other ho => ?_
    simp only [World.ended, Function.update_apply]
    split
    · rfl
    · exact ho
  | started hr hs hzero _ =>
    intro job hjob
    have hne : job ≠ _ := fun he => by
      have := hjob _ hr he.symm
      rw [hs] at this
      cases this
    simpa [World.started, hne] using hw job hjob
  | finished now status code hr hs ha hwr =>
    exact hw.frame hrows (finishJob_starts _ _ _ _ _) fun _ => finishJob_alive
  | _ => exact hw.frame hrows rfl fun _ ha => ha

theorem Durable.policy_eq {db db' : Database} (h : Durable m policy db db') :
    db'.policy = db.policy := by
  cases h with
  | moved hm => rw [hm.db_eq]; rfl
  | _ => rfl

theorem Durable.dispatched {db db' : Database} (h : Durable m policy db db')
    (hdb : ∀ r ∈ db.jobs, r.status = .dispatching ∨ r.status = .running → Dispatched db r.jobId) :
    ∀ r ∈ db'.jobs, r.status = .dispatching ∨ r.status = .running → Dispatched db' r.jobId := by
  have hgrow := h.events_prefix
  intro r hr hst
  cases h with
  | same => exact hdb r hr hst
  | admitted spec fresh hc ht =>
    rcases List.mem_append.mp hr with hr | hr
    · exact (hdb r hr hst).mono hgrow
    · obtain rfl := List.mem_singleton.mp hr
      simp at hst
  | @moved _ s set e hm =>
    rcases hm.mem_iff.mp hr with rfl | ⟨hr, -⟩
    · rcases hst with hst | hst
      · refine ⟨e, by simp [hm.events], hm.jobId, ?_⟩
        have hstatus := hm.status.trans hst
        cases he : e.eventType <;> simp [he, EventType.status] at hstatus ⊢
      · have hedge := hm.edge
        change (set s.toJobProgress).status = .running at hst
        rw [hst] at hedge
        refine (hdb s hm.mem (.inl ?_)).mono hgrow
        cases hs : s.status <;> simp [hs, JobStatus.canBecome] at hedge ⊢
    · exact (hdb r hr hst).mono hgrow
  | @logged s _ merged hs hterm hmerge =>
    rcases (Database.mem_setJob hs).mp hr with rfl | ⟨hr, -⟩
    · exact hdb s hs hst
    · exact hdb r hr hst

theorem Change.inv (h : Change m policy w w') (hw : Inv policy w) : Inv policy w' :=
  ⟨h.durable.policy_eq.trans hw.policy_eq, h.untouched hw.untouched,
    h.durable.dispatched hw.dispatched⟩

end NovaRtl.Scheduler
