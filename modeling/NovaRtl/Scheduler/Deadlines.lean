import Mathlib.Algebra.Order.Group.Nat
import NovaRtl.Scheduler.Session

/-!
# Deadline enforcement

The sweep takes a snapshot and cancels its expired rows one by one. Each cancellation may
re-enter `dispatch`, which may start a queued job that is itself expired and whose turn has
not come. `SweepSafe` says that this cannot happen: every expired queued job has another
queued job, or its own size, in its way until its turn, or no earlier cancellation
re-enters `dispatch` at all. Then the sweep does what it should.
-/

namespace NovaRtl.Scheduler

open Transact

variable {policy : SchedulerPolicy} {w w' w₀ t : World} {now : Instant} {r q u : JobRecord}
  {rest : List JobRecord}

/-- The job has passed its deadline or its wall time. -/
def Expired (now : Instant) (r : JobRecord) : Prop :=
  r.deadline ≤ now ∨ ∃ started, r.startedAt = some started ∧ started + 1000 * r.wallTimeMs ≤ now

instance (now : Instant) (r : JobRecord) : Decidable (Expired now r) :=
  decidable_of_iff (r.deadline ≤ now ∨
    r.startedAt.any fun started => started + 1000 * r.wallTimeMs ≤ now) (by
      simp [Expired, Option.any_eq_true])

/-- The end of the job's wall time is a `datetime`. -/
def ClockSafe (r : JobRecord) : Prop :=
  ∀ started ∈ r.startedAt, started + 1000 * r.wallTimeMs ≤ maxInstant

instance (r : JobRecord) : Decidable (ClockSafe r) :=
  inferInstanceAs (Decidable (∀ started ∈ r.startedAt, _))

theorem rowExpired_eq (h : ClockSafe r) (now : Instant) :
    rowExpired r now = .ok (decide (Expired now r)) := by
  unfold rowExpired
  cases hs : r.startedAt with
  | none => simp [Expired, hs, bind, Except.bind, pure, Except.pure]
  | some started =>
    simp [Expired, hs, addMilliseconds, h started hs, bind, Except.bind, pure, Except.pure]

/-! ## What stands in the way of a job -/

/-- The sweep releases the lease of this row if its worker confirms its end. -/
def Ending (w : World) (now : Instant) (r : JobRecord) : Prop :=
  Expired now r ∧ (r.status = .dispatching ∨ r.status = .running) ∧ w.workers r.jobId ≠ none

open Classical in
/-- The leases of the kind of `q` that the sweep does not release before the turn of `q`. -/
noncomputable def fixedLeases (w : World) (now : Instant) (q : JobRecord) : List JobRecord :=
  (leases w.db q.kind).filter fun r => ¬ (Earlier w.db r q ∧ Ending w now r)

/-- As long as `u` is queued, `q` is not started; and `u` cannot be started before the turn
of `q`. -/
def Blocker (policy : SchedulerPolicy) (w : World) (now : Instant) (q u : JobRecord) : Prop :=
  u ∈ w.db.jobs ∧ u.status = .queued ∧ u.kind = q.kind ∧
  (u = q ∨ (Earlier w.db u q ∧ ¬ Expired now u)) ∧
  (w.workers u.jobId = none ∨
    ¬ FitsBeside (policy.kindLimits u.kind) (fixedLeases w now q) u)

/-- The cancellation of this row may end with a dispatch. -/
def Reenters (w : World) (e : JobRecord) : Prop := e.status = .queued ∨ w.workers e.jobId ≠ none

structure SweepSafe (policy : SchedulerPolicy) (w : World) (now : Instant) : Prop where
  blocked : ∀ q ∈ w.db.jobs, q.status = .queued → Expired now q →
    (∃ u, Blocker policy w now q u) ∨
    ∀ e ∈ sweepRows w.db, Earlier w.db e q → Expired now e → ¬ Reenters w e
  clock : ∀ r ∈ sweepRows w.db, ClockSafe r
  totals : ∀ kind, ¬ LeaseOverflow w.db kind
  limits : ∀ kind, (policy.kindLimits kind).cpuCores < 2 ^ 63 ∧
    (policy.kindLimits kind).memoryBytes < 2 ^ 63

/-! ## Totals of leases -/

/-- A change of one job exchanges what its row adds to the totals. -/
theorem Only.leases_sum (h : Only r.jobId w w') (hr : r ∈ w.db.jobs) :
    ∃ r' ∈ w'.db.jobs, r'.toJobSpec = r.toJobSpec ∧ ∀ kind (weight : JobSpec → Nat),
      ((leases w'.db kind).map fun s => weight s.toJobSpec).sum +
          (if r.kind = kind && r.status.active then weight r.toJobSpec else 0) =
        ((leases w.db kind).map fun s => weight s.toJobSpec).sum +
          (if r'.kind = kind && r'.status.active then weight r'.toJobSpec else 0) := by
  obtain ⟨set, hjobs⟩ := h.jobs
  refine ⟨r.withProgress set, ?_, rfl, fun kind weight => ?_⟩
  · rw [hjobs]
    exact (Database.mem_setJob hr).mpr (.inl rfl)
  · simp only [leases, hjobs, Table.sum_filter]
    exact Table.sum_updateAt w.db.unique hr (·.withProgress set)
      (fun s => if (s.kind = kind && s.status.active) = true then weight s.toJobSpec else 0)
      (fun s => if (s.kind = kind && s.status.active) = true then weight s.toJobSpec else 0)
      fun _ _ _ => rfl

/-- Room next to these rows is room next to the leases they are among. -/
theorem FitsBeside.of_subset {limits : JobKindLimits} {rows rows' : List JobRecord}
    (h : FitsBeside limits rows' r) (hrows : (rows.map JobRecord.toJobSpec).Nodup)
    (hsub : ∀ s ∈ rows, s.toJobSpec ∈ rows'.map JobRecord.toJobSpec) :
    FitsBeside limits rows r := by
  have hperm : (rows.map JobRecord.toJobSpec).Subperm (rows'.map JobRecord.toJobSpec) :=
    hrows.subperm fun s hs => by
      obtain ⟨r, hr, rfl⟩ := List.mem_map.mp hs
      exact hsub r hr
  have hsum : ∀ weight : JobSpec → Nat, (rows.map fun s => weight s.toJobSpec).sum ≤
      (rows'.map fun s => weight s.toJobSpec).sum := by
    intro weight
    obtain ⟨middle, hmiddle, hsublist⟩ := hperm
    have hle := (hsublist.map weight).sum_le_sum fun _ _ => Nat.zero_le _
    have heq := (hmiddle.map weight).sum_eq
    simp only [List.map_map] at hle heq
    exact heq ▸ hle
  have hlength : rows.length ≤ rows'.length := by
    simpa using hperm.length_le
  obtain ⟨hcount, hcpu, hmemory⟩ := h
  exact ⟨hlength.trans_lt hcount, (Nat.add_le_add_right (hsum JobSpec.cpuCores) _).trans hcpu,
    (Nat.add_le_add_right (hsum JobSpec.memoryBytes) _).trans hmemory⟩

/-! ## The state of a sweep -/

/-- The sweep of `w₀` has still to look at `rest`. -/
structure Sweeping (policy : SchedulerPolicy) (now : Instant) (w₀ : World)
    (rest : List JobRecord) (t : World) : Prop where
  queued : ∀ s ∈ t.db.jobs, s.status = .queued → s ∈ w₀.db.jobs
  pending : ∀ r ∈ rest, Expired now r →
    r ∈ t.db.jobs ∧ t.workers r.jobId = w₀.workers r.jobId
  settled : ∀ r ∈ w₀.db.jobs, Expired now r → r ∉ rest → ∀ s ∈ sweepRows t.db, s.jobId ≠ r.jobId
  held : ∀ r ∈ w₀.db.jobs, r.status.active → (Ending w₀ now r → r ∈ rest) →
    ∃ s ∈ t.db.jobs, s.toJobSpec = r.toJobSpec ∧ s.status.active
  blocking : ∀ q ∈ rest, q.status = .queued → Expired now q → ∀ u, Blocker policy w₀ now q u →
    u ∈ t.db.jobs ∧ t.workers u.jobId = w₀.workers u.jobId ∧ (u = q ∨ Earlier t.db u q)
  totals : ∀ kind, ¬ LeaseOverflow t.db kind

/-- The rows that are left are the end of the snapshot. -/
def Remaining (w₀ : World) (rest : List JobRecord) : Prop :=
  ∃ looked, sweepRows w₀.db = looked ++ rest

theorem mem_sweepRows {db : Database} : r ∈ sweepRows db ↔ r ∈ db.jobs ∧
    (r.status = .queued ∨ r.status = .dispatching ∨ r.status = .running) := by
  simp [sweepRows, or_assoc]

theorem Remaining.sublist (h : Remaining w₀ rest) : rest.Sublist w₀.db.jobs := by
  obtain ⟨looked, hlooked⟩ := h
  have hsnapshot : rest.Sublist (sweepRows w₀.db) :=
    hlooked ▸ List.sublist_append_right looked rest
  exact hsnapshot.trans List.filter_sublist

theorem Remaining.mem (h : Remaining w₀ rest) (hr : r ∈ rest) : r ∈ sweepRows w₀.db := by
  obtain ⟨looked, hlooked⟩ := h
  rw [hlooked]
  exact List.mem_append_right _ hr

/-- A lease that the sweep may still release is one of a row that it has to look at. -/
theorem Remaining.mem_of_ending (h : Remaining w₀ rest) (hq : q ∈ rest)
    (hr : r ∈ w₀.db.jobs) (hnot : ¬ (Earlier w₀.db r q ∧ Ending w₀ now r))
    (hending : Ending w₀ now r) : r ∈ rest := by
  obtain ⟨looked, hlooked⟩ := h
  have hrow : r ∈ sweepRows w₀.db := mem_sweepRows.mpr ⟨hr, .inr hending.2.1⟩
  rw [hlooked] at hrow
  rcases List.mem_append.mp hrow with hleft | hright
  · refine absurd ⟨?_, hending⟩ hnot
    have hpair : [r, q].Sublist (looked ++ rest) :=
      (List.singleton_sublist.mpr hleft).append (List.singleton_sublist.mpr hq)
    rw [← hlooked] at hpair
    exact hpair.trans List.filter_sublist
  · exact hright

/-- A blocker of a row that is left cannot be taken off the queue. -/
theorem Sweeping.blocker_stays (hs : Sweeping policy now w₀ rest t) (hrest : Remaining w₀ rest)
    (hq : q ∈ rest) (hqs : q.status = .queued) (hqe : Expired now q)
    (hu : Blocker policy w₀ now q u) : ¬ Dispatchable policy t u := by
  rintro ⟨-, hworker, hfits⟩
  obtain ⟨-, hworkers, -⟩ := hs.blocking q hq hqs hqe u hu
  obtain ⟨-, -, hkind, -, hnone | hfull⟩ := hu
  · exact hworker (hworkers.trans hnone)
  · refine hfull (FitsBeside.of_subset hfits ?_ fun s hs' => ?_)
    · have hspecs : (w₀.db.jobs.map JobRecord.toJobSpec).Nodup :=
        List.Nodup.of_map JobSpec.jobId (by rw [List.map_map]; exact w₀.db.unique)
      exact hspecs.sublist ((List.filter_sublist.trans List.filter_sublist).map _)
    · classical
      obtain ⟨hlease, hnot⟩ := List.mem_filter.mp hs'
      obtain ⟨hmem, hlease⟩ := List.mem_filter.mp hlease
      obtain ⟨hskind, hactive⟩ : s.kind = q.kind ∧ s.status.active := by simpa using hlease
      obtain ⟨s', hs'', hspec, hactive'⟩ := hs.held s hmem hactive fun hending =>
        hrest.mem_of_ending hq hmem (of_decide_eq_true hnot) hending
      have hkind' : s'.kind = u.kind := (congrArg JobSpec.kind hspec).trans (hskind.trans hkind.symm)
      rw [← hspec]
      exact List.mem_map_of_mem (List.mem_filter.mpr ⟨hs'', by simp [hkind', hactive']⟩)

/-- What dispatch takes off the queue in the middle of a safe sweep is no expired job. -/
theorem Sweeping.not_expired (hs : Sweeping policy now w₀ rest t) (hrest : Remaining w₀ rest)
    (hguard : ∀ q ∈ rest, q.status = .queued → Expired now q → ∃ u, Blocker policy w₀ now q u)
    (hd : Dispatchable policy t r) : ¬ Expired now r := by
  intro hexpired
  obtain ⟨hr, hrq⟩ := mem_queuedRows.mp hd.1.mem
  have hr₀ := hs.queued r hr hrq
  by_cases hleft : r ∈ rest
  · obtain ⟨u, hu⟩ := hguard r hleft hrq hexpired
    obtain ⟨hut, -, rfl | hearlier⟩ := hs.blocking r hleft hrq hexpired u hu
    · exact hs.blocker_stays hrest hleft hrq hexpired hu hd
    · exact hd.1.first hearlier hu.2.2.1 hu.2.1
  · exact hs.settled r hr₀ hexpired hleft r (mem_sweepRows.mpr ⟨hr, .inl hrq⟩) rfl

/-- The totals of the leases stay representable when one job changes. -/
theorem Only.totals (h : Only r.jobId w w') (hr : r ∈ w.db.jobs)
    (hw : ∀ kind, ¬ LeaseOverflow w.db kind)
    (hroom : r.status.active ∨
      (((leases w.db r.kind).map fun s => s.cpuCores).sum + r.cpuCores < 2 ^ 63 ∧
        ((leases w.db r.kind).map fun s => s.memoryBytes).sum + r.memoryBytes < 2 ^ 63) ∨
      ∀ s ∈ w'.db.jobs, s.jobId = r.jobId → ¬ s.status.active) (kind : JobKind) :
    ¬ LeaseOverflow w'.db kind := by
  obtain ⟨r', hr', hspec, hsum⟩ := h.leases_sum hr
  have hkeep : ∀ weight : JobSpec → Nat,
      ((leases w.db kind).map fun s => weight s.toJobSpec).sum < 2 ^ 63 →
      (r.kind = kind → r.status.active = false → r'.status.active →
        ((leases w.db kind).map fun s => weight s.toJobSpec).sum + weight r.toJobSpec < 2 ^ 63) →
      ((leases w'.db kind).map fun s => weight s.toJobSpec).sum < 2 ^ 63 := by
    intro weight hlt hnew
    have hthis := hsum kind weight
    have hkind' : r'.kind = r.kind := congrArg JobSpec.kind hspec
    have hweight : weight r'.toJobSpec = weight r.toJobSpec := congrArg weight hspec
    by_cases hk : r.kind = kind
    · cases ha : r.status.active <;> cases ha' : r'.status.active <;>
        simp [hk, hkind', ha, ha', hweight] at hthis hnew ⊢ <;> omega
    · simp [hk, hkind'] at hthis
      omega
  have hroom' : r.status.active = false → r'.status.active →
      ((leases w.db r.kind).map fun s => s.cpuCores).sum + r.cpuCores < 2 ^ 63 ∧
        ((leases w.db r.kind).map fun s => s.memoryBytes).sum + r.memoryBytes < 2 ^ 63 := by
    intro hidle hactive
    rcases hroom with h | h | h
    · simp [hidle] at h
    · exact h
    · exact absurd hactive (h r' hr' (congrArg JobSpec.jobId hspec))
  have hlt := hw kind
  simp only [LeaseOverflow, not_or, not_le] at hlt ⊢
  refine ⟨hkeep JobSpec.cpuCores hlt.1 ?_, hkeep JobSpec.memoryBytes hlt.2 ?_⟩
  · rintro rfl hidle hactive
    exact (hroom' hidle hactive).1
  · rintro rfl hidle hactive
    exact (hroom' hidle hactive).2

theorem Only.spec_eq (h : Only r.jobId w w') (hr : r ∈ w.db.jobs) {s : JobRecord}
    (hs : s ∈ w'.db.jobs) (hid : s.jobId = r.jobId) : s.toJobSpec = r.toJobSpec := by
  obtain ⟨r', hr', hspec, -⟩ := h.leases_sum hr
  rw [Database.eq_of_jobId hs hr' (hid.trans (congrArg JobSpec.jobId hspec).symm), hspec]

/-! ## The steps of a sweep -/

/-- Workers answer cleanly, and no job may be started whose deadline has passed. -/
def Regime.sweeping (now : Instant) : Regime where
  allows := CleanAnswer
  keeps _ _ := True
  mayStart spec := now < spec.deadline
  resolves _ := True
  clean := True
  crashes := True
  calm := False
  keeps_startFailure _ _ _ _ _ _ := trivial
  clean_answers _ _ _ _ h := h

theorem Sweeping.carried (hrest : Remaining w₀ rest)
    (hguard : ∀ q ∈ rest, q.status = .queued → Expired now q → ∃ u, Blocker policy w₀ now q u)
    (hlimits : ∀ kind, (policy.kindLimits kind).cpuCores < 2 ^ 63 ∧
      (policy.kindLimits kind).memoryBytes < 2 ^ 63) :
    Carried (.sweeping now) policy (Sweeping policy now w₀ rest) := by
  refine ⟨fun hs hd => not_le.mp fun h => hs.not_expired hrest hguard hd (.inl h), ?_⟩
  intro t t' r hs hd honly ⟨left, hleft, hid, hnq⟩
  obtain ⟨hr, hrq⟩ := mem_queuedRows.mp hd.1.mem
  have hunexpired := hs.not_expired hrest hguard hd
  have hother : ∀ s ∈ t.db.jobs, s ≠ r → s.jobId ≠ r.jobId := fun s hs' hne h =>
    hne (Database.eq_of_jobId hs' hr h)
  have hpending : ∀ q ∈ rest, Expired now q → q.jobId ≠ r.jobId := fun q hq hqe =>
    hother q (hs.pending q hq hqe).1 fun h => hunexpired (h ▸ hqe)
  refine ⟨fun s hs' hsq => ?_, fun q hq hqe => ?_, fun r₀ hr₀ hr₀e hnot s hs' hid' => ?_,
    fun r₀ hr₀ hactive hending => ?_, fun q hq hqs hqe u hu => ?_, ?_⟩
  · refine hs.queued s (honly.mem_of_mem hs' fun h => hnq ?_) hsq
    rw [← Database.eq_of_jobId hs' hleft (h.trans hid.symm)]
    exact hsq
  · obtain ⟨hmem, hworker⟩ := hs.pending q hq hqe
    exact ⟨honly.mem hmem (hpending q hq hqe), (honly.workers _ (hpending q hq hqe)).trans hworker⟩
  · have hne : s.jobId ≠ r.jobId := fun h =>
      hs.settled r₀ hr₀ hr₀e hnot r (mem_sweepRows.mpr ⟨hr, .inl hrq⟩) (h.symm.trans hid')
    obtain ⟨hs'', hstatus⟩ := mem_sweepRows.mp hs'
    exact hs.settled r₀ hr₀ hr₀e hnot s (mem_sweepRows.mpr ⟨honly.mem_of_mem hs'' hne, hstatus⟩) hid'
  · obtain ⟨s, hs', hspec, hsa⟩ := hs.held r₀ hr₀ hactive hending
    refine ⟨s, honly.mem hs' (hother s hs' fun h => ?_), hspec, hsa⟩
    rw [h, hrq] at hsa
    simp [JobStatus.active] at hsa
  · obtain ⟨hut, hworker, hearlier⟩ := hs.blocking q hq hqs hqe u hu
    have hne : u.jobId ≠ r.jobId := hother u hut fun h =>
      hs.blocker_stays hrest hq hqs hqe hu (h ▸ hd)
    refine ⟨honly.mem hut hne, (honly.workers _ hne).trans hworker, hearlier.imp_right fun h => ?_⟩
    exact honly.sublist h (by simp [hne, hpending q hq hqe])
  · refine honly.totals hr hs.totals (.inr (.inl ?_))
    obtain ⟨-, hcpu, hmemory⟩ := hd.2.2
    exact ⟨hcpu.trans_lt (hlimits r.kind).1, hmemory.trans_lt (hlimits r.kind).2⟩

/-- The head of the snapshot is not expired, or its row is gone. -/
theorem Sweeping.skip {e : JobRecord} (hs : Sweeping policy now w₀ (e :: rest) t)
    (he : ¬ Expired now e) : Sweeping policy now w₀ rest t :=
  ⟨hs.queued, fun q hq => hs.pending q (List.mem_cons_of_mem _ hq),
    fun r hr hre hnot => hs.settled r hr hre fun hmem =>
      (List.mem_cons.mp hmem).elim (fun h => he (h ▸ hre)) hnot,
    fun r hr hactive hending => hs.held r hr hactive fun h => List.mem_cons_of_mem _ (hending h),
    fun q hq => hs.blocking q (List.mem_cons_of_mem _ hq), hs.totals⟩

/-- The head of the snapshot was cancelled: its row has a final status, or it is quarantined
because nobody could confirm the end of its worker. -/
theorem Sweeping.cancelled {e : JobRecord} {status : JobStatus}
    (hs : Sweeping policy now w₀ (e :: rest) t) (hrest : Remaining w₀ (e :: rest))
    (he : Expired now e) (honly : Only e.jobId t t') (hrow : RowStatus t' e.jobId status)
    (hstatus : status ≠ .queued ∧ status ≠ .dispatching ∧ status ≠ .running)
    (hlease : e.status.active → Ending w₀ now e ∨ status.active)
    (hgrow : e.status.active ∨ ¬ status.active) : Sweeping policy now w₀ rest t' := by
  obtain ⟨het, -⟩ := hs.pending e List.mem_cons_self he
  obtain ⟨heq, hes⟩ := mem_sweepRows.mp (hrest.mem List.mem_cons_self)
  have hnodup : ((e :: rest).map byJobId).Nodup := w₀.db.unique.sublist (hrest.sublist.map _)
  have hne : ∀ q ∈ rest, q.jobId ≠ e.jobId := fun q hq h =>
    (List.nodup_cons.mp hnodup).1 (List.mem_map.mpr ⟨q, hq, h⟩)
  obtain ⟨e', he', hid', hst⟩ := hrow
  have hself : ∀ s ∈ t'.db.jobs, s.jobId = e.jobId → s.status = status := fun s hs' h => by
    rw [Database.eq_of_jobId hs' he' (h.trans hid'.symm), hst]
  refine ⟨fun s hs' hsq => ?_, fun q hq hqe => ?_, fun r₀ hr₀ hr₀e hnot s hs' hid => ?_,
    fun r₀ hr₀ hactive hending => ?_, fun q hq hqs hqe u hu => ?_, ?_⟩
  · exact hs.queued s (honly.mem_of_mem hs' fun h => hstatus.1 ((hself s hs' h).symm.trans hsq)) hsq
  · obtain ⟨hmem, hworker⟩ := hs.pending q (List.mem_cons_of_mem _ hq) hqe
    exact ⟨honly.mem hmem (hne q hq), (honly.workers _ (hne q hq)).trans hworker⟩
  · obtain ⟨hs'', hsweep⟩ := mem_sweepRows.mp hs'
    by_cases hse : s.jobId = e.jobId
    · rw [hself s hs'' hse] at hsweep
      exact hsweep.elim hstatus.1 fun h => h.elim hstatus.2.1 hstatus.2.2
    · refine hs.settled r₀ hr₀ hr₀e (fun hmem => ?_) s
        (mem_sweepRows.mpr ⟨honly.mem_of_mem hs'' hse, hsweep⟩) hid
      exact (List.mem_cons.mp hmem).elim (fun h => hse (h ▸ hid)) hnot
  · obtain ⟨s, hs', hspec, hsa⟩ := hs.held r₀ hr₀ hactive fun h => List.mem_cons_of_mem _ (hending h)
    by_cases hse : s.jobId = e.jobId
    · obtain rfl := Database.eq_of_jobId hr₀ heq ((congrArg JobSpec.jobId hspec).symm.trans hse)
      rcases hlease hactive with hend | hkept
      · exact absurd rfl (hne r₀ (hending hend))
      · exact ⟨e', he', honly.spec_eq het he' hid', hst ▸ hkept⟩
    · exact ⟨s, honly.mem hs' hse, hspec, hsa⟩
  · obtain ⟨hut, hworker, hearlier⟩ := hs.blocking q (List.mem_cons_of_mem _ hq) hqs hqe u hu
    have hue : u.jobId ≠ e.jobId := by
      rcases hu.2.2.2.1 with rfl | ⟨-, hunexpired⟩
      · exact hne u hq
      · exact fun h => hunexpired (Database.eq_of_jobId hu.1 heq h ▸ he)
    refine ⟨honly.mem hut hue, (honly.workers _ hue).trans hworker, hearlier.imp_right fun h => ?_⟩
    exact honly.sublist h (by simp [hue, hne q hq])
  · refine honly.totals het hs.totals (hgrow.imp_right fun h => .inr fun s hs' hse => ?_)
    rwa [hself s hs' hse]

theorem sweep_solo (hsafe : SweepSafe policy w₀ now) (hrest : Remaining w₀ rest)
    (hw : Rest (.sweeping now) policy t) (hs : Sweeping policy now w₀ rest t) :
    Solo (Regime.sweeping now).env (Change (.sweeping now) policy)
      (fun result t' => (∃ ids, result = .ok ids) ∧ Sweeping policy now w₀ [] t')
      (sweep policy now rest) t := by
  induction rest generalizing t with
  | nil => exact (solo_ret _).mpr ⟨⟨[], rfl⟩, hs⟩
  | cons e rest ih =>
    have hlooked : Remaining w₀ rest := by
      obtain ⟨looked, h⟩ := hrest
      exact ⟨looked ++ [e], by simpa using h⟩
    have hrow := hrest.mem List.mem_cons_self
    unfold sweep
    refine (solo_lift _ _).mpr ?_
    rw [rowExpired_eq (hsafe.clock e hrow)]
    by_cases he : Expired now e
    · simp only [he, decide_true, if_true]
      obtain ⟨het, hworker⟩ := hs.pending e List.mem_cons_self he
      obtain ⟨heq, hstatus⟩ := mem_sweepRows.mp hrow
      have hself : ∀ r ∈ t.db.jobs, r.jobId = e.jobId → r = e := fun r hr h =>
        Database.eq_of_jobId hr het h
      have hnonterm : e.status.nonterminal ∧ e.status ≠ .quarantined := by
        rcases hstatus with h | h | h <;> simp [h, JobStatus.nonterminal, JobStatus.active]
      -- the cancellation leaves the rest of the snapshot in its place
      have hcancel : Solo (Regime.sweeping now).env (Change (.sweeping now) policy)
          (Outcome (.sweeping now) policy (Sweeping policy now w₀ rest)
            (CancelRefused t e.jobId [] (some "DEADLINE_EXCEEDED") true))
          (cancelJob policy e.jobId [] (some "DEADLINE_EXCEEDED") true) t :=
        cancelJob_solo hw
        (fun hterm => by simp [hterm e het rfl] at hnonterm)
        (fun r hr hid hre => by
          obtain rfl := hself r hr hid
          have hreenters : Reenters w₀ r := hre.imp_right fun h => hworker ▸ h
          refine ⟨Sweeping.carried hlooked (fun q hq hqs hqe => ?_) hsafe.limits,
            fun t' honly hrow' => hs.cancelled hrest he honly hrow' (by simp) (fun hactive => ?_)
              (.inr (by simp [JobStatus.active]))⟩
          · have hq' := List.mem_cons_of_mem r hq
            refine (hsafe.blocked q (mem_sweepRows.mp (hrest.mem hq')).1 hqs hqe).resolve_right
              fun h => h r hrow ?_ he hreenters
            exact ((List.singleton_sublist.mpr hq).cons_cons r).trans hrest.sublist
          · refine .inl ⟨he, hstatus.resolve_left fun h => ?_, hreenters.resolve_left fun h => ?_⟩
            all_goals simp [h, JobStatus.active] at hactive)
        (fun r hr hid hnq t' honly hrow' => by
          obtain rfl := hself r hr hid
          refine hs.cancelled hrest he honly hrow' (by simp) (fun _ => .inr rfl) (.inl ?_)
          rcases hstatus.resolve_left hnq with h | h <;> simp [h, JobStatus.active])
      refine Solo.bind (hcancel.weaken (fun _ _ h => h) fun result t' ht' => ?_)
      cases result with
      | ok cancelled =>
        refine Solo.bind ((ih hlooked ht'.rest (ht'.kept cancelled rfl)).weaken (fun _ _ h => h)
          fun result t'' ht'' => ?_)
        obtain ⟨⟨ids, rfl⟩, hdone⟩ := ht''
        exact (solo_ret _).mpr ⟨⟨_, rfl⟩, hdone⟩
      | error err =>
        rcases ht'.failed trivial err rfl with (hdup | ⟨now', err', herr⟩) | ⟨-, hkept, kind, hover⟩
        · simp at hdup
        · rw [requestCancellation_eq het hnonterm.1 hnonterm.2 (mergeArtifacts_nil _)] at herr
          cases herr
        · exact absurd hover (hkept.totals kind)
    · simp only [he, decide_false, Bool.false_eq_true, if_false]
      exact ih hlooked hw (hs.skip he)

/-! ## The whole sweep -/

theorem Sweeping.start (hsafe : SweepSafe policy w now) :
    Sweeping policy now w (sweepRows w.db) w := by
  refine ⟨fun s hs _ => hs, fun r hr _ => ⟨(mem_sweepRows.mp hr).1, rfl⟩,
    fun r hr _ hnot s hs hid => hnot ?_, fun r hr hactive _ => ⟨r, hr, rfl, hactive⟩,
    fun q _ _ _ u hu => ⟨hu.1, rfl, hu.2.2.2.1.imp_right And.left⟩, hsafe.totals⟩
  rwa [← Database.eq_of_jobId (mem_sweepRows.mp hs).1 hr hid]

/-- The workers of these jobs are as they were, and so are the rows' specifications. -/
def Spared (now : Instant) (w t : World) : Prop :=
  ∀ r ∈ w.db.jobs, r.deadline ≤ now → t.starts r.jobId = w.starts r.jobId ∧
    ∃ s ∈ t.db.jobs, s.toJobSpec = r.toJobSpec

theorem Change.spared {t' : World} (h : Change (.sweeping now) policy t t')
    (ht : Spared now w t) : Spared now w t' := by
  intro r hr hdead
  obtain ⟨hstarts, s, hs, hspec⟩ := ht r hr hdead
  obtain ⟨s', hs', hspec'⟩ := h.durable.mem_specs hs
  refine ⟨?_, s', hs', hspec'.trans hspec⟩
  cases h with
  | @started q hq _ _ hmay =>
    have hne : r.jobId ≠ q.jobId := by
      intro hid
      obtain rfl := Database.eq_of_jobId hs hq ((congrArg JobSpec.jobId hspec).trans hid)
      have hlate : s.deadline ≤ now := (congrArg JobSpec.deadline hspec).trans_le hdead
      exact absurd hmay (not_lt.mpr hlate)
    simpa [World.started, hne] using hstarts
  | finished => simpa using hstarts
  | _ => exact hstarts

/-- `enforce_deadlines(now)` ends and does not raise. It starts no job whose deadline has
passed, and no job that was expired before it is queued, dispatching or running after it. -/
structure DeadlinesEnforced (m : Regime) (policy : SchedulerPolicy) (w : World)
    (now : Instant) : Prop where
  terminates : Acc (fun d c => Transact.Step m.env c d)
    (enforceDeadlines policy (some ⟨now, some 0⟩), w)
  returns : ∀ e t, ¬ Steps m.env (enforceDeadlines policy (some ⟨now, some 0⟩), w) (.throw e, t)
  spares : ∀ p t, Steps m.env (enforceDeadlines policy (some ⟨now, some 0⟩), w) (p, t) →
    ∀ r ∈ w.db.jobs, r.deadline ≤ now → t.starts r.jobId = w.starts r.jobId
  ends : ∀ ids t, Steps m.env (enforceDeadlines policy (some ⟨now, some 0⟩), w) (.ret ids, t) →
    ∀ r ∈ w.db.jobs, Expired now r → ∀ s ∈ sweepRows t.db, s.jobId ≠ r.jobId

theorem enforceDeadlines_solo (hsafe : SweepSafe policy w now)
    (hw : Rest (.sweeping now) policy w) :
    Solo (Regime.sweeping now).env
      (fun s t => Spared now w s ∧ Change (.sweeping now) policy s t)
      (fun result t => Spared now w t ∧ (∃ ids, result = .ok ids) ∧ Sweeping policy now w [] t)
      (enforceDeadlines policy (some ⟨now, some 0⟩)) w := by
  refine Solo.invariant (p := enforceDeadlines policy (some ⟨now, some 0⟩)) ?_
    (fun _ _ hs hG => hG.spared hs) fun r hr _ => ⟨rfl, r, hr, rfl⟩
  exact (solo_read _ _).mpr
    ⟨.unchanged w, sweep_solo hsafe ⟨[], rfl⟩ hw (Sweeping.start hsafe)⟩

theorem deadlines_enforced_if_blocked {c : Config Unit World SchedulerError Answer}
    (hc : Reached .free policy c) (hrest : c.AtRest) (hsafe : SweepSafe policy c.state now) :
    DeadlinesEnforced (.sweeping now) policy c.state now := by
  have hfree := session_rest (fun _ => trivial) hc hrest
  have hw : Rest (.sweeping now) policy c.state :=
    ⟨hfree.inv, fun h => absurd trivial h.2, False.elim⟩
  have hsolo := enforceDeadlines_solo hsafe hw
  refine ⟨Transact.Step.acc _ _ _, fun e t hsteps => ?_, fun p t hsteps r hr hdead => ?_,
    fun ids t hsteps r hr hexpired => ?_⟩
  · obtain ⟨-, ⟨ids, hids⟩, -⟩ := (solo_throw e).mp (Solo.steps hsolo hsteps).2
    cases hids
  · have hspared : Spared now c.state t := by
      have hkept := (Solo.steps hsolo hsteps).1
      induction hkept with
      | refl => exact fun r hr _ => ⟨rfl, r, hr, rfl⟩
      | tail _ hG _ => exact hG.2.spared hG.1
    exact (hspared r hr hdead).1
  · obtain ⟨-, -, hdone⟩ := (solo_ret ids).mp (Solo.steps hsolo hsteps).2
    exact hdone.settled r hr hexpired (by simp)

/-- A running job that is cancelled, and a queued one that has no worker. -/
theorem deadlines_enforced_if_blocked_sample :
    let c := sampleRun .free (steady .returned (.returned ⟨true, []⟩))
      [.submit (sampleRequest "job_001" (some ⟨0⟩)), .submit (sampleRequest "job_002" none)]
    c.state.db.jobs.map (fun r => r.status) = [.running, .queued] ∧
    (∀ r ∈ c.state.db.jobs, Expired 200000000 r) ∧
    DeadlinesEnforced (.sweeping 200000000) samplePolicy c.state 200000000 := by
  intro c
  have hc : Reached .free samplePolicy c := sampleRun_free _ _
  have hrest : c.AtRest := atRest_of_isNone (by decide +kernel)
  have hunattached : ∀ q ∈ c.state.db.jobs, q.status = .queued → c.state.workers q.jobId = none := by
    decide +kernel
  have hclock : ∀ r ∈ sweepRows c.state.db, ClockSafe r := by decide +kernel
  have htotals : ∀ kind, ¬ LeaseOverflow c.state.db kind := by decide +kernel
  have hlimits : sampleLimits.cpuCores < 2 ^ 63 ∧ sampleLimits.memoryBytes < 2 ^ 63 := by decide
  refine ⟨by decide +kernel, by decide +kernel, deadlines_enforced_if_blocked hc hrest
    ⟨fun q hq hs _ => .inl ⟨q, hq, hs, rfl, .inl rfl, .inl (hunattached q hq hs)⟩, hclock, htotals,
      fun _ => hlimits⟩⟩

/-- The sweep cancels the running job, and the dispatch after it starts the queued one, whose
deadline has passed as well. -/
theorem expired_job_started_by_sweep :
    ¬ ∀ (policy : SchedulerPolicy) (c : Config Unit World SchedulerError Answer) (now : Instant),
      Reached .free policy c → c.AtRest → c.state.online →
      DeadlinesEnforced .free policy c.state now := by
  intro henforced
  let o := steady .returned (.returned ⟨true, []⟩)
  let c := sampleRun .free o
    [.submit (sampleRequest "job_001" (some ⟨0⟩)), .submit (sampleRequest "job_002" (some ⟨1⟩))]
  let d := (Transact.advance Regime.free.env o)^[40]
    (enforceDeadlines samplePolicy (some ⟨200000000, some 0⟩), c.state)
  have hc : Reached .free samplePolicy c := sampleRun_free _ _
  have hrest : c.AtRest := atRest_of_isNone (by decide +kernel)
  have honline : c.state.online = true := by decide +kernel
  have hd : Steps Regime.free.env
      (enforceDeadlines samplePolicy (some ⟨200000000, some 0⟩), c.state) (d.1, d.2) :=
    advance_steps Regime.free.env (fun _ _ => trivial) 40 _
  have hstarted : ∃ r ∈ c.state.db.jobs, r.deadline ≤ 200000000 ∧
      d.2.starts r.jobId ≠ c.state.starts r.jobId := by decide +kernel
  obtain ⟨r, hr, hdead, hne⟩ := hstarted
  exact hne ((henforced samplePolicy c 200000000 hc hrest honline).spares _ _ hd r hr hdead)

end NovaRtl.Scheduler
