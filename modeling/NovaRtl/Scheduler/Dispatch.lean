import NovaRtl.Scheduler.Symbolic

/-!
# Dispatch

Started from a world at rest, `dispatch` makes only steps of `Change`, and whatever it
returns or raises it leaves the world at rest. `Rest` is what holds between two
operations, `Busy` what holds while one job is on its way between two statuses.

A property that every pass of the loop keeps is kept by the loop: `Carried` states what a
pass may assume of the job that it takes off the queue.
-/

namespace NovaRtl.Scheduler

open Transact Transact.Prog

/-- No job is in a transient status. -/
def Settled (w : World) : Prop :=
  ∀ r ∈ w.db.jobs, r.status ≠ .dispatching ∧ r.status ≠ .cancelling

/-- No job that was never reserved is being cancelled or quarantined. -/
def Calm (w : World) : Prop :=
  ∀ r ∈ w.db.jobs, r.status = .cancelling ∨ r.status = .quarantined → Dispatched w.db r.jobId

structure Rest (m : Regime) (policy : SchedulerPolicy) (w : World) : Prop where
  inv : Inv policy w
  settled : m.settles → Settled w
  calm : m.calm → Calm w

/-- At rest but for `job`. -/
structure Busy (m : Regime) (policy : SchedulerPolicy) (job : EntityId) (w : World) : Prop where
  inv : Inv policy w
  settled : m.settles → ∀ r ∈ w.db.jobs, r.jobId ≠ job →
    r.status ≠ .dispatching ∧ r.status ≠ .cancelling
  calm : m.calm → ∀ r ∈ w.db.jobs, r.jobId ≠ job →
    r.status = .cancelling ∨ r.status = .quarantined → Dispatched w.db r.jobId

variable {m : Regime} {policy : SchedulerPolicy} {w w' : World} {job : EntityId}
  {r : JobRecord} {set : JobProgress → JobProgress} {e : SchedulerEventRecord}

theorem Rest.busy (h : Rest m policy w) (job : EntityId) : Busy m policy job w :=
  ⟨h.inv, fun hc r hr _ => h.settled hc r hr, fun hc r hr _ => h.calm hc r hr⟩

theorem Rest.frame (h : Rest m policy w) (hc : Change m policy w w') (hdb : w'.db = w.db) :
    Rest m policy w' := by
  refine ⟨hc.inv h.inv, fun hclean => ?_, fun hcalm => ?_⟩
  · simpa only [Settled, hdb] using h.settled hclean
  · simpa only [Calm, hdb] using h.calm hcalm

theorem Busy.frame (h : Busy m policy job w) (hc : Change m policy w w') (hdb : w'.db = w.db) :
    Busy m policy job w' := by
  refine ⟨hc.inv h.inv, fun hclean => ?_, fun hcalm => ?_⟩
  · simpa only [hdb] using h.settled hclean
  · simpa only [hdb] using h.calm hcalm

theorem Busy.move (h : Busy m policy r.jobId w) (hc : Change m policy w w')
    (hm : Move m w.db w'.db r set e) : Busy m policy r.jobId w' := by
  refine ⟨hc.inv h.inv, fun hclean s hs hne => ?_, fun hcalm s hs hne hst => ?_⟩
  · rcases hm.mem_iff.mp hs with rfl | ⟨hs, -⟩
    · exact absurd rfl hne
    · exact h.settled hclean s hs hne
  · rcases hm.mem_iff.mp hs with rfl | ⟨hs, -⟩
    · exact absurd rfl hne
    · exact (h.calm hcalm s hs hne hst).mono hc.durable.events_prefix

/-- The job on its way has arrived. -/
theorem Busy.settle (h : Busy m policy r.jobId w) (hc : Change m policy w w')
    (hm : Move m w.db w'.db r set e)
    (hset : (set r.toJobProgress).status ≠ .dispatching ∧
      (set r.toJobProgress).status ≠ .cancelling)
    (hcalm : m.calm → (set r.toJobProgress).status = .quarantined → Dispatched w.db r.jobId) :
    Rest m policy w' := by
  have hbusy := h.move hc hm
  refine ⟨hc.inv h.inv, fun hclean s hs => ?_, fun hm' s hs hst => ?_⟩
  · rcases hm.mem_iff.mp hs with rfl | ⟨_, hne⟩
    · exact hset
    · exact hbusy.settled hclean s hs hne
  · rcases hm.mem_iff.mp hs with rfl | ⟨_, hne⟩
    · exact (hcalm hm' (hst.resolve_left hset.2)).mono hc.durable.events_prefix
    · exact hbusy.calm hm' s hs hne hst

/-- An operation that raises half-way does so outside the clean regime. -/
theorem Busy.abort (h : Busy m policy r.jobId w) (hr : r ∈ w.db.jobs) (hclean : ¬ m.clean)
    (hcalm : m.calm → r.status = .cancelling ∨ r.status = .quarantined →
      Dispatched w.db r.jobId) : Rest m policy w := by
  refine ⟨h.inv, fun hc => absurd hc.1 hclean, fun hm s hs hst => ?_⟩
  by_cases hid : s.jobId = r.jobId
  · obtain rfl := Database.eq_of_jobId hs hr hid
    exact hcalm hm hst
  · exact h.calm hm s hs hid hst

/-! ## The length of the queue -/

def queueLength (w : World) : Nat := (queuedRows w.db).length

theorem queueLength_move (hm : Move m w.db w'.db r set e) :
    queueLength w' + (if r.status = .queued then 1 else 0) = queueLength w := by
  have hcount := Table.countP_updateAt w.db.unique hm.mem (·.withProgress set)
    fun s => decide (s.status = .queued)
  have hnew : (set r.toJobProgress).status ≠ .queued := JobStatus.ne_queued_of_canBecome hm.edge
  have hlen : ∀ db : Database,
      (queuedRows db).length = db.jobs.countP fun s => decide (s.status = .queued) :=
    fun db => (List.countP_eq_length_filter).symm
  have hjobs : w'.db.jobs = Table.updateAt byJobId r.jobId (·.withProgress set) w.db.jobs := by
    rw [hm.db_eq]; rfl
  simp only [queueLength, hlen, hjobs]
  have hzero : decide ((r.withProgress set).status = .queued) = false := decide_eq_false hnew
  simp only [hzero, Bool.false_eq_true, if_false, Nat.add_zero, decide_eq_true_eq] at hcount
  exact hcount

/-! ## One pass of the loop -/

/-- No kind has a queued head that could start. -/
def Conserving (policy : SchedulerPolicy) (w : World) : Prop := ∀ r, ¬ Dispatchable policy w r

/-- The world after the pass that took `r` off the queue of `w₀`. -/
structure Passed (m : Regime) (policy : SchedulerPolicy) (w₀ : World) (r : JobRecord)
    (length : Nat) (result : Except SchedulerError Unit) (w : World) : Prop where
  rest : Rest m policy w
  queue : queueLength w = length
  only : Only r.jobId w₀ w
  failed : ∀ e, result = .error e → e ≠ .outOfFuel ∧ ¬ m.clean

theorem afterTermination_change (m : Regime) (policy : SchedulerPolicy) (w : World) (job : EntityId)
    (termination : Option WorkerTermination) :
    Change m policy w (w.afterTermination job termination) := by
  cases termination with
  | none => exact .unchanged w
  | some t =>
    unfold World.afterTermination
    dsimp only
    split
    · exact .ended w job
    · exact .unchanged w

theorem afterTermination_only (w : World) (job : EntityId)
    (termination : Option WorkerTermination) (other : EntityId) :
    Only other w (w.afterTermination job termination) :=
  .of_jobs_eq (by rw [afterTermination_db]) (fun _ _ => by rw [afterTermination_workers])
    (afterTermination_online w job termination)

theorem finishAndForget_only (w : World) (job : EntityId) (logs : List ArtifactRef)
    (now : Instant) (status : FinalStatus) (errorCode : Option String) :
    Only job w (w.finishAndForget job logs now status errorCode) := by
  have hmove : Only job w (w.finishJob job logs now status errorCode) := by
    unfold World.finishJob
    split
    · exact (Only.move ..).trans (.of_jobs_eq rfl (fun _ _ => rfl) rfl)
    · exact Only.move ..
  exact hmove.trans (.setWorker ..)

section StartReserved

variable {w₀ : World} (hb : Busy m policy r.jobId w) (hr : r ∈ w.db.jobs)
  (hs : r.status = .dispatching) (honly : Only r.jobId w₀ w)
include hb hr hs honly

theorem dispatching_passed {length : Nat} (hqueue : queueLength w = length)
    {err : SchedulerError} (hfuel : err ≠ .outOfFuel) (hclean : ¬ m.clean) :
    Passed m policy w₀ r length (.error err) w :=
  ⟨hb.abort hr hclean fun _ hst => by simp [hs] at hst, hqueue, honly,
    fun e he => ⟨by cases he; exact hfuel, hclean⟩⟩

theorem recoverStart_solo (worker : WorkerControl) :
    Solo m.env (Change m policy) (Passed m policy w₀ r (queueLength w))
      (recoverStart r.jobId worker) w := by
  unfold recoverStart
  refine solo_attemptTermination (fun termination hallow => ?_) fun hallow => ?_
  · -- the worker answered: `hkeeps` is what the regime knows about its logs
    have hkeeps : DistinctIfTerminated (outcomeOf termination) →
        Written m r.partialLogArtifacts (terminationLogs termination) := fun hdistinct => by
      have := m.keeps_startFailure (outcomeOf_ne_interrupted termination) hdistinct hallow r hr rfl
      exact .inr (.inr (by simpa using this))
    have hchange := afterTermination_change m policy w r.jobId termination
    have hdb := afterTermination_db w r.jobId termination
    have halive := afterTermination_alive w r.jobId termination
    have honly2 := honly.trans (afterTermination_only w r.jobId termination r.jobId)
    generalize hw2 : w.afterTermination r.jobId termination = w2 at *
    have hb2 := hb.frame hchange hdb
    have hr2 : r ∈ w2.db.jobs := by rw [hdb]; exact hr
    have hq2 : queueLength w2 = queueLength w := by simp only [queueLength, hdb]
    refine ⟨hchange, ?_⟩
    split
    · next hconf =>
      refine solo_finishOnly hr2 hs (.unchanged w2) (fun hnodup now => ?_) fun hdup => ?_
      · have hkeeps := hkeeps (distinctIfTerminated_outcomeOf fun _ => hnodup)
        have hedge : FinishEdge r.status .infrastructureError := by rw [hs]; trivial
        have hfinish : Change m policy w2 _ := .finished now .infrastructureError
          (some "WORKER_START_FAILED") hr2 hedge (fun _ => halive hconf) hkeeps
        have hmove := move_finishJob (m := m) now .infrastructureError
          (some "WORKER_START_FAILED") hr2 hedge hkeeps
        have hrest := hb2.settle hfinish hmove (by simp [FinalStatus.status])
          (by simp [FinalStatus.status])
        refine ⟨hfinish, .workers _ _, hrest.frame (.workers _ _) rfl, ?_,
          honly2.trans (finishAndForget_only ..), by simp⟩
        have := queueLength_move hmove
        rw [if_neg (by simp [hs])] at this
        exact this.trans hq2
      · refine dispatching_passed hb2 hr2 hs honly2 hq2 (by simp) fun hclean => hdup ?_
        have hans := (m.clean_answers hclean hallow).2
        cases termination with
        | none => simp [confirmed] at hconf
        | some t => exact hans t rfl hconf
    · next hconf =>
      have hkeeps := hkeeps (distinctIfTerminated_outcomeOf fun h => absurd h hconf)
      refine solo_quarantine hr2 hs (.unchanged w2) fun now => ?_
      have hactive : r.status.active := by rw [hs]; rfl
      have hdisp : Dispatched w2.db r.jobId := hb2.inv.dispatched r hr2 (.inl hs)
      have hquar : Change m policy w2 _ := .quarantined now
        "WORKER_START_TERMINATION_UNCONFIRMED" hr2 hactive hkeeps fun _ => hdisp
      have hmove := move_enterQuarantine (m := m) now "WORKER_START_TERMINATION_UNCONFIRMED"
        hr2 hactive hkeeps
      refine ⟨hquar, hb2.settle hquar hmove (by simp) fun _ _ => hdisp, ?_,
        honly2.trans (.move ..), by simp⟩
      have := queueLength_move hmove
      rw [if_neg (by simp [hs])] at this
      exact this.trans hq2
  · exact ⟨.unchanged w, dispatching_passed hb hr hs honly rfl (by simp)
      fun hclean => (m.clean_answers hclean hallow).1 rfl⟩

theorem startReserved_solo {worker : WorkerControl} (hworker : w.workers r.jobId = some worker)
    (hzero : w.starts r.jobId = 0) (hmay : m.mayStart r.toJobSpec) :
    Solo m.env (Change m policy) (Passed m policy w₀ r (queueLength w))
      (startReserved r.jobId) w := by
  unfold startReserved
  rw [solo_requireWorker hworker]
  refine ⟨.unchanged w, ?_⟩
  rw [solo_callStart]
  intro outcome hallow
  have hstart : Change m policy w (w.started r.jobId) := .started hr hs hzero hmay
  have hb1 := hb.frame hstart rfl
  have honly1 : Only r.jobId w₀ (w.started r.jobId) :=
    honly.trans (.of_jobs_eq rfl (fun _ _ => rfl) rfl)
  refine ⟨hstart, ?_⟩
  cases outcome with
  | interrupted =>
    refine (solo_throw _).mpr (dispatching_passed hb1 hr hs honly1 rfl (by simp) fun hclean => ?_)
    exact m.clean_answers hclean hallow rfl
  | raised => exact recoverStart_solo hb1 hr hs honly1 worker
  | returned =>
    refine solo_transactNow fun now => ⟨.unchanged _, ?_⟩
    rw [commitRunning_eq (w := w.started r.jobId) hr hs]
    have hran : Change m policy (w.started r.jobId) _ := .ran now hr hs
    have hmove := move_startRunning (m := m) (w := w.started r.jobId) now hr hs
    refine ⟨hran, (solo_ret _).mpr ⟨hb1.settle hran hmove (by simp) (by simp), ?_,
      honly1.trans (.move ..), by simp⟩⟩
    have := queueLength_move hmove
    rw [if_neg (by simp [hs])] at this
    exact this

end StartReserved

/-! ## The loop -/

/-- The job has a row, and it is not in the queue. -/
def LeftQueue (w : World) (job : EntityId) : Prop :=
  ∃ s ∈ w.db.jobs, s.jobId = job ∧ s.status ≠ .queued

theorem Change.leftQueue (h : Change m policy w w') (hw : LeftQueue w job) : LeftQueue w' job := by
  obtain ⟨s, hs, hid, hq⟩ := hw
  obtain ⟨s', hs', hid', hq'⟩ := h.durable.rows s hs
  exact ⟨s', hs', hid'.trans hid, mt hq' hq⟩

/-- Every pass keeps `K` and starts only what the regime lets start. -/
structure Carried (m : Regime) (policy : SchedulerPolicy) (K : World → Prop) : Prop where
  mayStart : ∀ {w r}, K w → Dispatchable policy w r → m.mayStart r.toJobSpec
  pass : ∀ {w w' r}, K w → Dispatchable policy w r → Only r.jobId w w' →
    LeftQueue w' r.jobId → K w'

theorem Carried.trivial (h : ∀ spec, m.mayStart spec) : Carried m policy fun _ => True :=
  ⟨fun _ _ => h _, fun _ _ _ _ => True.intro⟩

/-- What `dispatch` ends with. -/
structure DispatchResult (m : Regime) (policy : SchedulerPolicy) (K : World → Prop)
    (result : Except SchedulerError Unit) (w : World) : Prop where
  rest : Rest m policy w
  kept : K w
  conserving : result = .ok () → Conserving policy w
  fuel : result ≠ .error .outOfFuel
  failed : m.clean → ∀ e, result = .error e →
    e = .operationalError "integer overflow" ∧ ∃ kind, LeaseOverflow w.db kind

variable {K : World → Prop}

theorem dispatchLoop_solo (hcarry : Carried m policy K) (fuel : Nat) (hw : Rest m policy w)
    (hK : K w) (hfuel : queueLength w < fuel) :
    Solo m.env (Change m policy) (DispatchResult m policy K) (dispatchLoop policy fuel) w := by
  induction fuel generalizing w with
  | zero => omega
  | succ fuel ih =>
    unfold dispatchLoop
    refine solo_transactNow fun now => ⟨.unchanged w, ?_⟩
    obtain ⟨herr, hover⟩ | ⟨hnone, hcons⟩ | ⟨r, hr, hs, hdisp, hsome⟩ :=
      reserveNextDispatch_cases policy now w
    · rw [herr]
      exact ⟨hw, hK, by simp, by simp, fun _ e he => ⟨(Except.error.inj he).symm, hover⟩⟩
    · rw [hnone]
      exact ⟨.unchanged w, (solo_ret _).mpr ⟨hw, hK, fun _ => hcons, by simp, by simp⟩⟩
    · -- one pass: `r` leaves the queue, and its start is settled before the next pass
      rw [hsome]
      obtain ⟨hhead, hattached, hfits⟩ := id hdisp
      obtain ⟨worker, hworker⟩ := Option.ne_none_iff_exists'.mp hattached
      have hreserve := Change.reserved (m := m) now hr hs hhead hfits
      have hmove := move_reserve (m := m) now hr hs
      have hlen := queueLength_move hmove
      rw [if_pos hs] at hlen
      have hzero := (hw.inv.untouched r.jobId fun s hs' hid => by
        rw [Database.eq_of_jobId hs' hr hid]; exact hs).1
      refine ⟨hreserve, Solo.bind ?_⟩
      have hr1 : r.withProgress (fun p => { p with status := .dispatching }) ∈
          (w.reserve r.jobId now).db.jobs := hmove.mem_iff.mpr (.inl rfl)
      have hb1 : Busy m policy (r.withProgress fun p => { p with status := .dispatching }).jobId
          (w.reserve r.jobId now) := (hw.busy r.jobId).move hreserve hmove
      have hmay : m.mayStart r.toJobSpec := hcarry.mayStart hK hdisp
      have hpass := Solo.invariant (I := fun t => LeftQueue t r.jobId)
        (startReserved_solo hb1 hr1 rfl (.move ..) hworker hzero hmay)
        (fun _ _ h hG => hG.leftQueue h) ⟨_, hr1, rfl, by simp⟩
      refine hpass.weaken (fun _ _ h => h.2) fun result t ⟨hleft, ht⟩ => ?_
      have hK' := hcarry.pass hK hdisp ht.only hleft
      cases result with
      | ok _ => exact ih ht.rest hK' (by rw [ht.queue]; omega)
      | error e =>
        obtain ⟨hfuel, hclean⟩ := ht.failed e rfl
        exact ⟨ht.rest, hK', by simp, fun he => hfuel (Except.error.inj he),
          fun h => absurd h hclean⟩

theorem dispatch_solo (hcarry : Carried m policy K) (hw : Rest m policy w) (hK : K w) :
    Solo m.env (Change m policy) (DispatchResult m policy K) (dispatch policy) w := by
  unfold dispatch
  rw [solo_read]
  exact ⟨.unchanged w, dispatchLoop_solo hcarry _ hw hK (Nat.lt_succ_self _)⟩

end NovaRtl.Scheduler
