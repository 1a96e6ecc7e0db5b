import NovaRtl.Scheduler.Operations

/-!
# What the transactions do

Every transaction that succeeds either leaves the world alone, admits a row, or moves one
row: `World.move` sets the progress of one job and records one event. The lemmas
`*_eq` and `*_cases` are the only places where the transactions are unfolded.
-/

namespace NovaRtl.Scheduler

open Transact

namespace Database

variable {db : Database}

theorem row?_eq_some {job : EntityId} {r : JobRecord} :
    db.row? job = some r ↔ r ∈ db.jobs ∧ r.jobId = job :=
  Table.lookup_eq_some db.unique

theorem row?_eq_none {job : EntityId} :
    db.row? job = none ↔ ∀ r ∈ db.jobs, r.jobId ≠ job := Table.lookup_eq_none

theorem row?_of_mem {r : JobRecord} (hr : r ∈ db.jobs) : db.row? r.jobId = some r :=
  row?_eq_some.mpr ⟨hr, rfl⟩

theorem eq_of_jobId {r s : JobRecord} (hr : r ∈ db.jobs) (hs : s ∈ db.jobs)
    (h : r.jobId = s.jobId) : r = s := Table.eq_of_key db.unique hr hs h

/-- Set the progress of one job. -/
def setJob (db : Database) (job : EntityId) (set : JobProgress → JobProgress) : Database :=
  { db with
    jobs := Table.updateAt byJobId job (·.withProgress set) db.jobs
    unique := by
      rw [Table.map_updateAt byJobId job (·.withProgress set) fun _ => rfl]
      exact db.unique }

@[simp] theorem setJob_policy (job : EntityId) (set : JobProgress → JobProgress) :
    (db.setJob job set).policy = db.policy := rfl

@[simp] theorem setJob_events (job : EntityId) (set : JobProgress → JobProgress) :
    (db.setJob job set).events = db.events := rfl

theorem mem_setJob {r s : JobRecord} (hr : r ∈ db.jobs) {set : JobProgress → JobProgress} :
    s ∈ (db.setJob r.jobId set).jobs ↔
      s = r.withProgress set ∨ (s ∈ db.jobs ∧ s.jobId ≠ r.jobId) :=
  Table.mem_updateAt db.unique hr

@[simp] theorem setJob_specs (job : EntityId) (set : JobProgress → JobProgress) :
    (db.setJob job set).jobs.map JobRecord.toJobSpec = db.jobs.map JobRecord.toJobSpec :=
  Table.map_updateAt JobRecord.toJobSpec job (·.withProgress set) (fun _ => rfl) db.jobs

/-- An `UPDATE` whose condition singles out one row. -/
theorem update_of_mem {r : JobRecord} (hr : r ∈ db.jobs) {where_ : JobRecord → Bool}
    (hwhere : ∀ s ∈ db.jobs, where_ s ↔ s.jobId = r.jobId) (set : JobProgress → JobProgress) :
    db.update where_ set = (1, db.setJob r.jobId set) := by
  have hcount : db.jobs.countP where_ = 1 := by
    have hcongr : db.jobs.countP where_ = db.jobs.countP fun s => s.jobId = r.jobId :=
      List.countP_congr fun s hs => by simpa using hwhere s hs
    have hone : (db.jobs.map byJobId).count r.jobId = 1 :=
      List.count_eq_one_of_mem db.unique (List.mem_map.mpr ⟨r, hr, rfl⟩)
    rw [hcongr, ← hone, List.count, List.countP_map]
    exact List.countP_congr fun s _ => by simp
  have hjobs : (db.jobs.map fun s => if where_ s then s.withProgress set else s) =
      Table.updateAt byJobId r.jobId (·.withProgress set) db.jobs :=
    List.map_congr_left fun s hs => by simp only [hwhere s hs]
  simp only [update, setJob, hcount, hjobs]

theorem update_status {r : JobRecord} (hr : r ∈ db.jobs) (set : JobProgress → JobProgress) :
    db.update (fun s => s.jobId = r.jobId ∧ s.status = r.status) set =
      (1, db.setJob r.jobId set) := by
  refine update_of_mem hr (fun s hs => ?_) set
  simp only [decide_eq_true_eq, and_iff_left_iff_imp]
  intro h
  rw [eq_of_jobId hs hr h]

theorem update_jobId {r : JobRecord} (hr : r ∈ db.jobs) (set : JobProgress → JobProgress) :
    db.update (fun s => s.jobId = r.jobId) set = (1, db.setJob r.jobId set) :=
  update_of_mem hr (fun s _ => by simp) set

theorem update_none (db : Database) (where_ : JobRecord → Bool)
    (h : ∀ s ∈ db.jobs, where_ s = false) (set : JobProgress → JobProgress) : (db.update where_ set).1 = 0 := by
  simpa [update, List.countP_eq_zero] using h

end Database

/-- Set the progress of one job and record the event. -/
def World.move (w : World) (job : EntityId) (set : JobProgress → JobProgress)
    (eventType : EventType) (now : Instant) (logs : List ArtifactRef)
    (errorCode : Option String) : World :=
  { w with db := (w.db.setJob job set).appendEvent job eventType now logs errorCode }

section Move

variable (w : World) (job : EntityId) (set : JobProgress → JobProgress) (eventType : EventType)
  (now : Instant) (logs : List ArtifactRef) (errorCode : Option String)

@[simp] theorem World.move_jobs :
    (w.move job set eventType now logs errorCode).db.jobs = (w.db.setJob job set).jobs := rfl

@[simp] theorem World.move_policy :
    (w.move job set eventType now logs errorCode).db.policy = w.db.policy := rfl

@[simp] theorem World.move_events :
    (w.move job set eventType now logs errorCode).db.events =
      w.db.events ++ [⟨job, eventType, now, logs, errorCode⟩] := rfl

@[simp] theorem World.move_workers :
    (w.move job set eventType now logs errorCode).workers = w.workers := rfl

@[simp] theorem World.move_starts :
    (w.move job set eventType now logs errorCode).starts = w.starts := rfl

@[simp] theorem World.move_alive :
    (w.move job set eventType now logs errorCode).alive = w.alive := rfl

@[simp] theorem World.move_online :
    (w.move job set eventType now logs errorCode).online = w.online := rfl

end Move

/-! ## The moves -/

namespace World

variable (w : World) (job : EntityId) (logs : List ArtifactRef) (now : Instant)

def reserve : World :=
  w.move job (fun p => { p with status := .dispatching }) .dispatching now [] none

def startRunning : World :=
  w.move job (fun p => { p with status := .running, startedAt := some now }) .running now [] none

def requestCancel (errorCode : Option String) : World :=
  w.move job (fun p => { p with status := .cancelling, partialLogArtifacts := logs, errorCode })
    .cancellationRequested now logs errorCode

def enterQuarantine (errorCode : String) : World :=
  w.move job (fun p => { p with
    status := .quarantined, partialLogArtifacts := logs, errorCode := some errorCode })
    .quarantined now logs (some errorCode)

def finishRow (status : FinalStatus) (errorCode : Option String) : World :=
  w.move job (fun p => { p with
    status := status.status, partialLogArtifacts := logs, endedAt := some now, errorCode })
    status.eventType now logs errorCode

def finishJob (status : FinalStatus) (errorCode : Option String) : World :=
  if status = .completed then (w.finishRow job logs now status errorCode).ended job
  else w.finishRow job logs now status errorCode

def setLogs : World :=
  { w with db := w.db.setJob job fun p => { p with partialLogArtifacts := logs } }

def withWorkers (workers : EntityId → Option WorkerControl) : World := { w with workers }

def started : World :=
  { w with
    starts := Function.update w.starts job (w.starts job + 1)
    alive := Function.update w.alive job true }

end World

/-! ## Admission -/

/-- The total of a cost over the admitted jobs of a run. -/
def runTotal (db : Database) (run : EntityId) (cost : JobSpec → Nat) : Nat :=
  ((db.jobs.filter fun r => r.runId = run).map fun r => cost r.toJobSpec).sum

def World.admitRow (w : World) (spec : JobSpec) (fresh : ∀ r ∈ w.db.jobs, r.jobId ≠ spec.jobId) :
    World :=
  { w with db := (w.db.insert spec fresh).appendEvent spec.jobId .queued spec.submittedAt [] none }

theorem consumedOn_ok {db : Database} {run : EntityId} {usage : BudgetUsage}
    (h : consumedOn db run = .ok usage) :
    usage = ⟨runTotal db run JobSpec.candidateCost, runTotal db run JobSpec.tokenCost⟩ := by
  unfold consumedOn sqliteSum at h
  simp only [bind, Except.bind, pure, Except.pure] at h
  split at h
  · cases h
  · next hcandidates =>
    split at hcandidates
    · split at h
      · cases h
      · next htokens =>
        split at htokens
        · cases hcandidates
          cases htokens
          exact (Except.ok.inj h).symm
        · cases htokens
    · cases hcandidates

/-- A submission is refused, or its row is new and within the budgets of its run. -/
theorem admit_cases (policy : SchedulerPolicy) (spec : JobSpec) (w : World) :
    (∃ e, admitJob policy spec w = .error e) ∨
    ∃ fresh : ∀ r ∈ w.db.jobs, r.jobId ≠ spec.jobId,
      runTotal w.db spec.runId JobSpec.candidateCost + spec.candidateCost ≤ policy.maxCandidates ∧
      runTotal w.db spec.runId JobSpec.tokenCost + spec.tokenCost ≤ policy.maxTokens ∧
      admitJob policy spec w = .ok ((), w.admitRow spec fresh) := by
  unfold admitJob
  split
  · next fresh =>
    cases husage : consumedOn w.db spec.runId with
    | error e => exact .inl ⟨e, rfl⟩
    | ok usage =>
      obtain rfl := consumedOn_ok husage
      simp only [bind, Except.bind, pure, Except.pure, requireBudget]
      by_cases hc : runTotal w.db spec.runId JobSpec.candidateCost + spec.candidateCost ≤
          policy.maxCandidates
      · by_cases ht : runTotal w.db spec.runId JobSpec.tokenCost + spec.tokenCost ≤ policy.maxTokens
        · simp only [if_pos hc, if_pos ht]
          split
          · exact .inr ⟨fresh, hc, ht, rfl⟩
          · exact .inl ⟨_, rfl⟩
        · simp only [if_pos hc, if_neg ht]
          exact .inl ⟨_, rfl⟩
      · simp only [if_neg hc]
        exact .inl ⟨_, rfl⟩
  · exact .inl ⟨_, rfl⟩

/-! ## Frames -/

/-- Only what belongs to `job` changed. -/
structure Only (job : EntityId) (w w' : World) : Prop where
  jobs : ∃ set, w'.db.jobs = (w.db.setJob job set).jobs
  workers : ∀ other, other ≠ job → w'.workers other = w.workers other
  online : w'.online = w.online

namespace Only

variable {w w' w'' : World} {job : EntityId}

theorem of_jobs_eq (hjobs : w'.db.jobs = w.db.jobs)
    (hworkers : ∀ other, other ≠ job → w'.workers other = w.workers other)
    (honline : w'.online = w.online) : Only job w w' := by
  refine ⟨⟨id, ?_⟩, hworkers, honline⟩
  rw [hjobs]
  simp [Database.setJob, Table.updateAt, JobRecord.withProgress]

theorem refl (job : EntityId) (w : World) : Only job w w := of_jobs_eq rfl (fun _ _ => rfl) rfl

theorem trans (h : Only job w w') (h' : Only job w' w'') : Only job w w'' := by
  obtain ⟨⟨set, hjobs⟩, hworkers, honline⟩ := h
  obtain ⟨⟨set', hjobs'⟩, hworkers', honline'⟩ := h'
  refine ⟨⟨set' ∘ set, ?_⟩, fun other ho => (hworkers' other ho).trans (hworkers other ho),
    honline'.trans honline⟩
  rw [hjobs']
  simp only [Database.setJob, hjobs]
  exact Table.updateAt_updateAt fun _ => rfl

theorem move (w : World) (job : EntityId) (set : JobProgress → JobProgress)
    (eventType : EventType) (now : Instant) (logs : List ArtifactRef)
    (errorCode : Option String) : Only job w (w.move job set eventType now logs errorCode) :=
  ⟨⟨set, rfl⟩, fun _ _ => rfl, rfl⟩

theorem setWorker (w : World) (job : EntityId) (worker : Option WorkerControl) :
    Only job w (w.withWorkers (Function.update w.workers job worker)) :=
  of_jobs_eq rfl (fun _ ho => Function.update_of_ne ho _ _) rfl

theorem specs (h : Only job w w') :
    w'.db.jobs.map JobRecord.toJobSpec = w.db.jobs.map JobRecord.toJobSpec := by
  obtain ⟨set, hjobs⟩ := h.jobs
  rw [hjobs, Database.setJob_specs]

/-- Rows of other jobs stay, in their order. -/
theorem sublist (h : Only job w w') {rows : List JobRecord} (hrows : rows.Sublist w.db.jobs)
    (hne : ∀ s ∈ rows, s.jobId ≠ job) : rows.Sublist w'.db.jobs := by
  obtain ⟨set, hjobs⟩ := h.jobs
  have hsame : Table.updateAt byJobId job (·.withProgress set) rows = rows :=
    Table.updateAt_of_forall_ne hne
  rw [hjobs, ← hsame]
  exact hrows.map _

theorem mem (h : Only job w w') {s : JobRecord} (hs : s ∈ w.db.jobs) (hne : s.jobId ≠ job) :
    s ∈ w'.db.jobs :=
  List.singleton_sublist.mp <| h.sublist (List.singleton_sublist.mpr hs) (by simpa using hne)

theorem mem_of_mem (h : Only job w w') {s : JobRecord} (hs : s ∈ w'.db.jobs)
    (hne : s.jobId ≠ job) : s ∈ w.db.jobs := by
  obtain ⟨set, hjobs⟩ := h.jobs
  rw [hjobs] at hs
  obtain ⟨r, hr, rfl⟩ := List.mem_map.mp hs
  split at hne
  · next hid => exact absurd hid hne
  · next hid => rw [if_neg hid]; exact hr

end Only

/-! ## The scan of the queue -/

/-- One more job fits next to these leases. -/
def FitsBeside (limits : JobKindLimits) (rows : List JobRecord) (r : JobRecord) : Prop :=
  rows.length < limits.maxConcurrency ∧
  (rows.map fun s => s.cpuCores).sum + r.cpuCores ≤ limits.cpuCores ∧
  (rows.map fun s => s.memoryBytes).sum + r.memoryBytes ≤ limits.memoryBytes

/-- The job fits next to the leases of its kind. -/
def Fits (policy : SchedulerPolicy) (db : Database) (r : JobRecord) : Prop :=
  FitsBeside (policy.kindLimits r.kind) (leases db r.kind) r

/-- A queued job that the scan does not pass over: attached, and fitting its kind. -/
def Eligible (policy : SchedulerPolicy) (w : World) (r : JobRecord) : Prop :=
  w.workers r.jobId ≠ none ∧ Fits policy w.db r

/-- `r` is the oldest row of its kind in `rows`. -/
def HeadOfKind (rows : List JobRecord) (r : JobRecord) : Prop :=
  ∃ before after, rows = before ++ r :: after ∧ ∀ s ∈ before, s.kind ≠ r.kind

/-- `r` can be taken off the queue. -/
def Dispatchable (policy : SchedulerPolicy) (w : World) (r : JobRecord) : Prop :=
  HeadOfKind (queuedRows w.db) r ∧ Eligible policy w r

theorem HeadOfKind.mem {rows : List JobRecord} {r : JobRecord} (h : HeadOfKind rows r) :
    r ∈ rows := by
  obtain ⟨before, after, rfl, -⟩ := h
  simp

/-- The totals of the leases of a kind exceed SQLite's integers. -/
def LeaseOverflow (db : Database) (kind : JobKind) : Prop :=
  2 ^ 63 ≤ ((leases db kind).map fun s => s.cpuCores).sum ∨
  2 ^ 63 ≤ ((leases db kind).map fun s => s.memoryBytes).sum

instance (db : Database) (kind : JobKind) : Decidable (LeaseOverflow db kind) :=
  inferInstanceAs (Decidable (_ ∨ _))

theorem mem_queuedRows {db : Database} {r : JobRecord} :
    r ∈ queuedRows db ↔ r ∈ db.jobs ∧ r.status = .queued := by simp [queuedRows]

/-- `s` was submitted before `r`. -/
def Earlier (db : Database) (s r : JobRecord) : Prop := [s, r].Sublist db.jobs

/-- No earlier row of the kind is in the queue. -/
theorem HeadOfKind.first {db : Database} {s r : JobRecord} (h : HeadOfKind (queuedRows db) r)
    (hearlier : Earlier db s r) (hkind : s.kind = r.kind) : s.status ≠ .queued := by
  intro hs
  obtain ⟨before, after, hsplit, hbefore⟩ := h
  have hnodup : (queuedRows db).Nodup := (List.Nodup.of_map _ db.unique).filter _
  have hr : r ∈ queuedRows db := by rw [hsplit]; simp
  have hpair : [s, r].Sublist (before ++ r :: after) := by
    rw [← hsplit]
    have hboth : [s, r].filter (fun t => t.status = .queued) = [s, r] := by
      simp [hs, (mem_queuedRows.mp hr).2]
    have := hearlier.filter fun t => t.status = .queued
    rwa [hboth] at this
  rw [hsplit] at hnodup
  obtain ⟨_, hafter, hdisjoint⟩ := List.nodup_append.mp hnodup
  have hrafter : r ∉ after := (List.nodup_cons.mp hafter).1
  obtain ⟨left, right, heq, hleft, hright⟩ := List.sublist_append_iff.mp hpair
  cases left with
  | nil =>
    rw [List.nil_append] at heq
    rw [← heq] at hright
    rcases List.sublist_cons_iff.mp hright with h | ⟨tail, htail, h⟩
    · exact hrafter (h.subset (by simp))
    · obtain ⟨-, rfl⟩ : s = r ∧ [r] = tail := by simpa using htail
      exact hrafter (List.singleton_sublist.mp h)
  | cons first rest =>
    obtain ⟨rfl, -⟩ : s = first ∧ [r] = rest ++ right := by simpa using heq
    exact hbefore s (hleft.subset (by simp)) hkind

theorem leaseTotals_cases (db : Database) (kind : JobKind) :
    (leaseTotals db kind = .error (.operationalError "integer overflow") ∧
      LeaseOverflow db kind) ∨
    leaseTotals db kind = .ok ((leases db kind).length,
      ((leases db kind).map fun s => s.cpuCores).sum,
      ((leases db kind).map fun s => s.memoryBytes).sum) := by
  unfold leaseTotals sqliteSum
  split <;> rename_i hcpu
  · split <;> rename_i hmemory
    · exact .inr rfl
    · exact .inl ⟨rfl, .inr (not_lt.mp hmemory)⟩
  · exact .inl ⟨rfl, .inl (not_lt.mp hcpu)⟩

theorem selectQueued_some {policy : SchedulerPolicy} {w : World} {rows : List JobRecord}
    {blocked : List JobKind} {r : JobRecord}
    (h : selectQueued policy w rows blocked = .ok (some r)) :
    r.kind ∉ blocked ∧ HeadOfKind rows r ∧ Eligible policy w r := by
  induction rows generalizing blocked with
  | nil => cases h
  | cons record rest ih =>
    have skip : ∀ {blocked'}, selectQueued policy w rest blocked' = .ok (some r) →
        record.kind ∈ blocked' → blocked ⊆ blocked' →
        r.kind ∉ blocked ∧ HeadOfKind (record :: rest) r ∧ Eligible policy w r := by
      intro blocked' hrest hin hsub
      obtain ⟨hkind, ⟨before, after, hsplit, hbefore⟩, helig⟩ := ih hrest
      refine ⟨fun hb => hkind (hsub hb), ⟨record :: before, after, by simp [hsplit], ?_⟩, helig⟩
      intro s hs
      rcases List.mem_cons.mp hs with rfl | hs
      · exact fun he => hkind (he ▸ hin)
      · exact hbefore s hs
    simp only [selectQueued] at h
    split at h
    · next hin => exact skip h hin fun _ hb => hb
    · next hkind =>
      split at h
      · exact skip h (by simp) fun _ hb => List.mem_cons_of_mem _ hb
      · next hworker =>
        rcases leaseTotals_cases w.db record.kind with ⟨htot, -⟩ | htot
        · rw [htot] at h; cases h
        · rw [htot] at h
          simp only [bind, Except.bind, pure, Except.pure] at h
          split at h
          · exact skip h (by simp) fun _ hb => List.mem_cons_of_mem _ hb
          · next hfit =>
            obtain rfl : record = r := by simpa using h
            refine ⟨hkind, ⟨[], rest, rfl, by simp⟩, hworker, ?_⟩
            simp only [not_or, not_le, not_lt] at hfit
            exact hfit

theorem selectQueued_none {policy : SchedulerPolicy} {w : World} {rows : List JobRecord}
    {blocked : List JobKind} (h : selectQueued policy w rows blocked = .ok none)
    {r : JobRecord} (hhead : HeadOfKind rows r) (hkind : r.kind ∉ blocked) :
    ¬ Eligible policy w r := by
  induction rows generalizing blocked with
  | nil => exact absurd hhead.mem (by simp)
  | cons record rest ih =>
    obtain ⟨before, after, hsplit, hbefore⟩ := hhead
    -- either `r` is the row under the scan, or the scan goes on towards it
    rcases before with - | ⟨first, before⟩
    · obtain ⟨rfl, rfl⟩ : record = r ∧ rest = after := by simpa using hsplit
      rintro ⟨hworker, hfit⟩
      simp only [selectQueued, if_neg hkind, if_neg hworker] at h
      rcases leaseTotals_cases w.db record.kind with ⟨htot, -⟩ | htot
      · rw [htot] at h; cases h
      · rw [htot] at h
        simp only [bind, Except.bind, pure, Except.pure] at h
        rw [if_neg (by simp only [not_or, not_le, not_lt]; exact hfit)] at h
        cases h
    · obtain ⟨rfl, rfl⟩ : record = first ∧ rest = before ++ r :: after := by simpa using hsplit
      have hne : r.kind ≠ record.kind := (hbefore record (by simp)).symm
      have hrest : HeadOfKind (before ++ r :: after) r :=
        ⟨before, after, rfl, fun s hs => hbefore s (by simp [hs])⟩
      have hkind' : r.kind ∉ record.kind :: blocked := by simp [hne, hkind]
      simp only [selectQueued] at h
      split at h
      · exact ih h hrest hkind
      · split at h
        · exact ih h hrest hkind'
        · rcases leaseTotals_cases w.db record.kind with ⟨htot, -⟩ | htot
          · rw [htot] at h; cases h
          · rw [htot] at h
            simp only [bind, Except.bind, pure, Except.pure] at h
            split at h
            · exact ih h hrest hkind'
            · simp at h

theorem selectQueued_error {policy : SchedulerPolicy} {w : World} {rows : List JobRecord}
    {blocked : List JobKind} {e : SchedulerError}
    (h : selectQueued policy w rows blocked = .error e) :
    e = .operationalError "integer overflow" ∧ ∃ kind, LeaseOverflow w.db kind := by
  induction rows generalizing blocked with
  | nil => cases h
  | cons record rest ih =>
    simp only [selectQueued] at h
    split at h
    · exact ih h
    · split at h
      · exact ih h
      · rcases leaseTotals_cases w.db record.kind with ⟨htot, hover⟩ | htot
        · rw [htot] at h
          exact ⟨(Except.error.inj h).symm, _, hover⟩
        · rw [htot] at h
          simp only [bind, Except.bind, pure, Except.pure] at h
          split at h
          · exact ih h
          · cases h

/-- The three outcomes of a reservation. -/
theorem reserveNextDispatch_cases (policy : SchedulerPolicy) (now : Instant) (w : World) :
    (reserveNextDispatch policy now w = .error (.operationalError "integer overflow") ∧
      ∃ kind, LeaseOverflow w.db kind) ∨
    (reserveNextDispatch policy now w = .ok (none, w) ∧ ∀ r, ¬ Dispatchable policy w r) ∨
    ∃ r, r ∈ w.db.jobs ∧ r.status = .queued ∧ Dispatchable policy w r ∧
      reserveNextDispatch policy now w =
        .ok (some (r.withProgress fun p => { p with status := .dispatching }),
          w.reserve r.jobId now) := by
  unfold reserveNextDispatch
  cases hsel : selectQueued policy w (queuedRows w.db) [] with
  | error e =>
    obtain ⟨rfl, hover⟩ := selectQueued_error hsel
    exact .inl ⟨rfl, hover⟩
  | ok selected =>
    cases selected with
    | none =>
      exact .inr (.inl ⟨rfl, fun r hr => selectQueued_none hsel hr.1 (by simp) hr.2⟩)
    | some r =>
      obtain ⟨-, hhead, helig⟩ := selectQueued_some hsel
      obtain ⟨hmem, hstatus⟩ := mem_queuedRows.mp hhead.mem
      refine .inr (.inr ⟨r, hmem, hstatus, ⟨hhead, helig⟩, ?_⟩)
      have hupdate := Database.update_status hmem fun p => { p with status := .dispatching }
      rw [hstatus] at hupdate
      simp only [bind, Except.bind, pure, Except.pure, hupdate]
      rfl

/-! ## Rows in a given status -/

variable {w : World} {r : JobRecord}

theorem commitRunning_eq (hr : r ∈ w.db.jobs) (hs : r.status = .dispatching) (now : Instant) :
    commitRunning r.jobId now w = .ok (true, w.startRunning r.jobId now) := by
  have hupdate := Database.update_status hr fun p =>
    { p with status := .running, startedAt := some now }
  rw [hs] at hupdate
  simp only [commitRunning, hupdate]
  rfl

theorem commitQuarantine_eq (hr : r ∈ w.db.jobs) {expected : JobStatus} (hs : r.status = expected)
    (logs : List ArtifactRef) (errorCode : String) (now : Instant) :
    commitQuarantine r.jobId logs errorCode expected now w =
      .ok ((), w.enterQuarantine r.jobId logs now errorCode) := by
  subst hs
  have hupdate := Database.update_status hr fun p =>
    { p with status := .quarantined, partialLogArtifacts := logs, errorCode := some errorCode }
  simp only [commitQuarantine, hupdate]
  rfl

theorem commitFinish_eq (hr : r ∈ w.db.jobs) {expected : JobStatus} (hs : r.status = expected)
    (status : FinalStatus) (logs : List ArtifactRef) (errorCode : Option String)
    (now : Instant) :
    commitFinish r.jobId status logs errorCode expected now w =
      .ok ((), w.finishJob r.jobId logs now status errorCode) := by
  subst hs
  have hupdate := Database.update_status hr fun p =>
    { p with
      status := status.status, partialLogArtifacts := logs, endedAt := some now, errorCode }
  simp only [commitFinish, hupdate]
  rfl

/-- Without a row in the expected status `_finish` raises. -/
theorem commitFinish_absent {job : EntityId} {expected : JobStatus}
    (h : ∀ s ∈ w.db.jobs, ¬ (s.jobId = job ∧ s.status = expected)) (status : FinalStatus)
    (logs : List ArtifactRef) (errorCode : Option String) (now : Instant) :
    commitFinish job status logs errorCode expected now w =
      .error (.jobState ("job is missing or has unexpected state: " ++ job)) := by
  have hzero := w.db.update_none (fun s => s.jobId = job ∧ s.status = expected)
    (fun s hs => by simpa using h s hs) fun p =>
      { p with
        status := status.status, partialLogArtifacts := logs, endedAt := some now, errorCode }
  simp only [commitFinish, hzero]
  rfl

theorem commitQuarantine_absent {job : EntityId} {expected : JobStatus}
    (h : ∀ s ∈ w.db.jobs, ¬ (s.jobId = job ∧ s.status = expected)) (logs : List ArtifactRef)
    (errorCode : String) (now : Instant) :
    commitQuarantine job logs errorCode expected now w =
      .error (.jobState ("job cannot enter quarantine: " ++ job)) := by
  have hzero := w.db.update_none (fun s => s.jobId = job ∧ s.status = expected)
    (fun s hs => by simpa using h s hs) fun p =>
      { p with status := .quarantined, partialLogArtifacts := logs, errorCode := some errorCode }
  simp only [commitQuarantine, hzero]
  rfl

theorem commitRunning_absent {job : EntityId}
    (h : ∀ s ∈ w.db.jobs, ¬ (s.jobId = job ∧ s.status = .dispatching)) (now : Instant) :
    commitRunning job now w = .ok (false, w) := by
  have hzero := w.db.update_none (fun s => s.jobId = job ∧ s.status = .dispatching)
    (fun s hs => by simpa using h s hs) fun p =>
      { p with status := .running, startedAt := some now }
  simp only [commitRunning, hzero]
  rfl

/-- A cancellation request is refused, skipped, or moves a queued or leased row. -/
theorem requestCancellation_cases (job : EntityId) (logs : List ArtifactRef)
    (errorCode : Option String) (skip : Bool) (now : Instant) (w : World) :
    (∃ e, requestCancellation job logs errorCode skip now w = .error e) ∨
    (requestCancellation job logs errorCode skip now w = .ok (none, w) ∧ skip = true ∧
      ∀ r ∈ w.db.jobs, r.jobId = job → r.status.terminal) ∨
    ∃ r merged, r ∈ w.db.jobs ∧ r.jobId = job ∧ r.status.nonterminal ∧ r.status ≠ .quarantined ∧
      mergeArtifacts r.partialLogArtifacts logs = .ok merged ∧
      requestCancellation job logs errorCode skip now w =
        .ok (some (r.status, merged), w.requestCancel job merged now errorCode) := by
  unfold requestCancellation
  cases hrow : w.db.row? job with
  | none =>
    simp only [requestCancellation.absent]
    split
    · next hskip =>
      exact .inr (.inl ⟨rfl, hskip, fun r hr hid => absurd hid (Database.row?_eq_none.mp hrow r hr)⟩)
    · exact .inl ⟨_, rfl⟩
  | some r =>
    obtain ⟨hr, rfl⟩ := Database.row?_eq_some.mp hrow
    simp only
    split
    · next hterm =>
      simp only [requestCancellation.absent]
      split
      · next hskip =>
        refine .inr (.inl ⟨rfl, hskip, fun s hs hid => ?_⟩)
        rw [Database.eq_of_jobId hs hr hid]
        simpa using hterm
      · exact .inl ⟨_, rfl⟩
    · next hterm =>
      split
      · exact .inl ⟨_, rfl⟩
      · next hquar =>
        cases hmerge : mergeArtifacts r.partialLogArtifacts logs with
        | error e => exact .inl ⟨e, rfl⟩
        | ok merged =>
          refine .inr (.inr ⟨r, merged, hr, rfl, by simpa using hterm, hquar, hmerge, ?_⟩)
          have hupdate := Database.update_jobId hr fun p =>
            { p with status := .cancelling, partialLogArtifacts := merged, errorCode }
          simp only [bind, Except.bind, pure, Except.pure, hupdate]
          rfl

/-- A row that holds a lease or waits for one can be cancelled. -/
theorem requestCancellation_eq (hr : r ∈ w.db.jobs) (hterm : r.status.nonterminal)
    (hq : r.status ≠ .quarantined) {logs merged : List ArtifactRef}
    (hmerge : mergeArtifacts r.partialLogArtifacts logs = .ok merged)
    (errorCode : Option String) (skip : Bool) (now : Instant) :
    requestCancellation r.jobId logs errorCode skip now w =
      .ok (some (r.status, merged), w.requestCancel r.jobId merged now errorCode) := by
  obtain ⟨e, herr⟩ | ⟨-, -, hterminal⟩ | ⟨s, merged', hs, hid, -, -, hmerge', hok⟩ :=
    requestCancellation_cases r.jobId logs errorCode skip now w
  · unfold requestCancellation at herr
    rw [Database.row?_of_mem hr] at herr
    simp [hterm, hq, hmerge, bind, Except.bind, pure, Except.pure] at herr
  · simp [hterminal r hr rfl] at hterm
  · obtain rfl := Database.eq_of_jobId hs hr hid
    obtain rfl : merged' = merged := Except.ok.inj (hmerge'.symm.trans hmerge)
    exact hok

theorem commitPartialLogs_cases (job : EntityId) (artifacts : List ArtifactRef) (w : World) :
    (∃ e, commitPartialLogs job artifacts w = .error e) ∨
    ∃ r merged, r ∈ w.db.jobs ∧ r.jobId = job ∧ r.status.nonterminal ∧
      mergeArtifacts r.partialLogArtifacts artifacts = .ok merged ∧
      commitPartialLogs job artifacts w = .ok ((), w.setLogs job merged) := by
  unfold commitPartialLogs
  cases hrow : w.db.row? job with
  | none => exact .inl ⟨_, rfl⟩
  | some r =>
    obtain ⟨hr, rfl⟩ := Database.row?_eq_some.mp hrow
    simp only
    split
    · exact .inl ⟨_, rfl⟩
    · next hterm =>
      cases hmerge : mergeArtifacts r.partialLogArtifacts artifacts with
      | error e => exact .inl ⟨e, rfl⟩
      | ok merged =>
        refine .inr ⟨r, merged, hr, rfl, by simpa using hterm, hmerge, ?_⟩
        have hupdate := Database.update_jobId hr fun p => { p with partialLogArtifacts := merged }
        simp only [bind, Except.bind, pure, Except.pure, hupdate]
        rfl

theorem initializeDatabase_cases (policy : SchedulerPolicy) {stored : SchedulerPolicy} {w : World}
    (h : w.db.policy = some stored) :
    (policy = stored ∧ initializeDatabase policy w = .ok ((), w)) ∨
    (policy ≠ stored ∧ initializeDatabase policy w =
      .error (.policyMismatch "resumed scheduler policy differs from persisted policy")) := by
  unfold initializeDatabase
  rw [h]
  by_cases hp : stored = policy
  · exact .inl ⟨hp.symm, by simp [hp]⟩
  · exact .inr ⟨Ne.symm hp, by simp [hp]⟩

end NovaRtl.Scheduler
