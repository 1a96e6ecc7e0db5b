import NovaRtl.Scheduler.Dispatch

/-!
# The other operations

The same for every other operation and for the constructor: only changes in `Change`, and
a world at rest at the end. `Outcome` adds what a caller learns from the result: a property
`K` that the dispatch at the end carries along, and, when workers answer cleanly, the only
reasons to raise.
-/

namespace NovaRtl.Scheduler

open Transact Transact.Prog

variable {m : Regime} {policy : SchedulerPolicy} {w w' : World} {job : EntityId}
  {r : JobRecord} {K : World → Prop} {α : Type}

/-- What an operation ends with; `Refusal` is why it may raise of its own. -/
structure Outcome (m : Regime) (policy : SchedulerPolicy) (K : World → Prop) (Refusal : Prop)
    (result : Except SchedulerError α) (w : World) : Prop where
  rest : Rest m policy w
  kept : ∀ a, result = .ok a → K w
  failed : m.clean → ∀ e, result = .error e → Refusal ∨
    e = .operationalError "integer overflow" ∧ K w ∧ ∃ kind, LeaseOverflow w.db kind

variable {Refusal : Prop}

theorem Outcome.ok {a : α} (hw : Rest m policy w) (hK : K w) :
    Outcome m policy K Refusal (.ok a) w := ⟨hw, fun _ _ => hK, by simp⟩

theorem Outcome.refused {e : SchedulerError} (hw : Rest m policy w)
    (h : m.clean → Refusal) : Outcome m policy K Refusal (.error e : Except SchedulerError α) w :=
  ⟨hw, by simp, fun hclean _ _ => .inl (h hclean)⟩

theorem Outcome.mono {Refusal' : Prop} {result : Except SchedulerError α}
    (h : Outcome m policy K Refusal result w) (himp : Refusal → Refusal') :
    Outcome m policy K Refusal' result w :=
  ⟨h.rest, h.kept, fun hclean e he => (h.failed hclean e he).imp_left himp⟩

theorem DispatchResult.outcome {result : Except SchedulerError Unit}
    (h : DispatchResult m policy K result w) : Outcome m policy K Refusal result w :=
  ⟨h.rest, fun _ _ => h.kept, fun hclean e he =>
    .inr ⟨(h.failed hclean e he).1, h.kept, (h.failed hclean e he).2⟩⟩

/-- Going on after an operation with one that is safe wherever the first one succeeds. -/
theorem Outcome.solo_bind {β : Type} {p : Op α} {k : α → Op β} {K' : World → Prop}
    (hp : Solo m.env (Change m policy) (Outcome m policy K Refusal) p w)
    (hk : ∀ a t, Rest m policy t → K t →
      Solo m.env (Change m policy) (Outcome m policy K' Refusal) (k a) t)
    (hK : ∀ t, K t → K' t) :
    Solo m.env (Change m policy) (Outcome m policy K' Refusal) (p >>= k) w := by
  refine Solo.bind (hp.weaken (fun _ _ h => h) fun result t ht => ?_)
  cases result with
  | ok a => exact hk a t ht.rest (ht.kept a rfl)
  | error e =>
    refine ⟨ht.rest, by simp, fun hclean e' he => ?_⟩
    cases he
    exact (ht.failed hclean e rfl).imp_right (And.imp_right (And.imp_left (hK t)))

/-- The row of a job has a status. -/
def RowStatus (w : World) (job : EntityId) (status : JobStatus) : Prop :=
  ∃ r ∈ w.db.jobs, r.jobId = job ∧ r.status = status

/-! ## Finishing -/

theorem finishAndForget_row (hr : r ∈ w.db.jobs) (logs : List ArtifactRef) (now : Instant)
    (status : FinalStatus) (errorCode : Option String) :
    RowStatus (w.finishAndForget r.jobId logs now status errorCode) r.jobId status.status := by
  refine ⟨r.withProgress fun p => { p with
    status := status.status, partialLogArtifacts := logs, endedAt := some now, errorCode }, ?_,
    rfl, rfl⟩
  change _ ∈ (w.finishJob r.jobId logs now status errorCode).db.jobs
  rw [finishJob_db]
  exact (Database.mem_setJob hr).mpr (.inl rfl)

/-- `_finish` of a job on its way, up to the dispatch at its end. -/
theorem finishOnly_solo {Q : Except SchedulerError Unit → World → Prop} {status : FinalStatus}
    {logs : List ArtifactRef} {errorCode : Option String} {expected : JobStatus}
    (hb : Busy m policy r.jobId w) (hr : r ∈ w.db.jobs) (hs : r.status = expected)
    (hedge : FinishEdge r.status status) (halive : status ≠ .completed → w.alive r.jobId = false)
    (hlogs : (logs.map byArtifactId).Nodup → Written m r.partialLogArtifacts logs)
    (hok : ∀ t, Rest m policy t → Only r.jobId w t → RowStatus t r.jobId status.status →
      Q (.ok ()) t)
    (herror : ¬ (logs.map byArtifactId).Nodup →
      Q (.error (.valueError "partial log artifact IDs must be unique")) w) :
    Solo m.env (Change m policy) Q (finishOnly r.jobId status logs errorCode expected) w := by
  refine solo_finishOnly hr hs (.unchanged w) (fun hnodup now => ?_) herror
  have hlogs := hlogs hnodup
  have hfinish : Change m policy w _ := .finished now status errorCode hr hedge halive hlogs
  have hmove := move_finishJob (m := m) now status errorCode hr hedge hlogs
  have hrest := hb.settle hfinish hmove (by cases status <;> simp [FinalStatus.status])
    (by cases status <;> simp [FinalStatus.status])
  exact ⟨hfinish, .workers _ _, hok _ (hrest.frame (.workers _ _) rfl)
    (finishAndForget_only ..) (finishAndForget_row hr ..)⟩

theorem finish_solo {status : FinalStatus} {logs : List ArtifactRef} {errorCode : Option String}
    {expected : JobStatus} (hb : Busy m policy r.jobId w) (hr : r ∈ w.db.jobs)
    (hs : r.status = expected) (hedge : FinishEdge r.status status)
    (halive : status ≠ .completed → w.alive r.jobId = false)
    (hlogs : (logs.map byArtifactId).Nodup → Written m r.partialLogArtifacts logs) (hcarry : Carried m policy K)
    (hK : ∀ t, Only r.jobId w t → RowStatus t r.jobId status.status → K t)
    (herror : ¬ (logs.map byArtifactId).Nodup → Rest m policy w ∧ (m.clean → Refusal)) :
    Solo m.env (Change m policy) (Outcome m policy K Refusal)
      (finish policy r.jobId status logs errorCode expected) w := by
  unfold finish
  refine Solo.bind (finishOnly_solo hb hr hs hedge halive hlogs (fun t ht honly hrow => ?_)
    fun hdup => .refused (herror hdup).1 (herror hdup).2)
  exact (dispatch_solo hcarry ht (hK t honly hrow)).weaken (fun _ _ h => h)
    fun _ _ h => h.outcome

/-! ## Cancellation -/

theorem enterQuarantine_row (hr : r ∈ w.db.jobs) (logs : List ArtifactRef) (now : Instant)
    (errorCode : String) :
    RowStatus (w.enterQuarantine r.jobId logs now errorCode) r.jobId .quarantined :=
  ⟨_, (Database.mem_setJob hr).mpr (.inl rfl), rfl, rfl⟩

theorem quarantine_solo {Q : Except SchedulerError Unit → World → Prop} {logs : List ArtifactRef}
    {errorCode : String} {expected : JobStatus} (hb : Busy m policy r.jobId w)
    (hr : r ∈ w.db.jobs) (hs : r.status = expected) (hactive : r.status.active)
    (hlogs : Written m r.partialLogArtifacts logs) (hdisp : m.calm → Dispatched w.db r.jobId)
    (hok : ∀ t, Rest m policy t → Only r.jobId w t → RowStatus t r.jobId .quarantined →
      Q (.ok ()) t) :
    Solo m.env (Change m policy) Q (quarantine r.jobId logs errorCode expected) w := by
  refine solo_quarantine hr hs (.unchanged w) fun now => ?_
  have hquar : Change m policy w _ := .quarantined now errorCode hr hactive hlogs hdisp
  have hmove := move_enterQuarantine (m := m) now errorCode hr hactive hlogs
  exact ⟨hquar, hok _ (hb.settle hquar hmove (by simp) fun hcalm _ => hdisp hcalm) (.move ..)
    (enterQuarantine_row hr ..)⟩

/-- The second half of `_cancel`, for a row whose request was committed. -/
theorem settleCancellation_solo {prior : JobStatus} {errorCode : Option String}
    (hb : Busy m policy r.jobId w) (hr : r ∈ w.db.jobs) (hs : r.status = .cancelling)
    (hnodup : (r.partialLogArtifacts.map byArtifactId).Nodup)
    (hqueued : prior = .queued → w.alive r.jobId = false)
    (hdisp : prior ≠ .queued → m.calm → Dispatched w.db r.jobId)
    (hfinished : prior = .queued ∨ w.workers r.jobId ≠ none → Carried m policy K ∧
      ∀ t, Only r.jobId w t → RowStatus t r.jobId .cancelled → K t)
    (hquar : prior ≠ .queued →
      ∀ t, Only r.jobId w t → RowStatus t r.jobId .quarantined → K t) :
    Solo m.env (Change m policy) (Outcome m policy K Refusal)
      (settleCancellation policy r.jobId errorCode prior r.partialLogArtifacts) w := by
  have hedge : FinishEdge r.status .cancelled := by rw [hs]; trivial
  unfold settleCancellation
  split
  · next hprior =>
    obtain ⟨hcarry, hK⟩ := hfinished (.inl hprior)
    exact finish_solo hb hr hs hedge (fun _ => hqueued hprior) (fun _ => .inl rfl) hcarry hK
      fun hdup => absurd hnodup hdup
  · next hprior =>
    rw [solo_read]
    refine ⟨.unchanged w, ?_⟩
    have hactive : r.status.active := by rw [hs]; rfl
    cases hworker : w.workers r.jobId with
    | none =>
      -- nobody answers for the worker, so the job is quarantined with the logs it has
      simp only [pure_eq, ret_bind, terminationLogs, mergeArtifacts_nil, lift, confirmed,
        Bool.false_eq_true, if_false]
      exact quarantine_solo hb hr hs hactive (.inr (.inl ⟨[], mergeArtifacts_nil _⟩))
        (hdisp hprior) fun t ht honly hrow => .ok ht (hquar hprior t honly hrow)
    | some worker =>
      obtain ⟨hcarry, hK⟩ := hfinished (.inr (by simp [hworker]))
      refine solo_attemptTermination (fun termination hallow => ?_) fun hallow => ?_
      · have hchange := afterTermination_change m policy w r.jobId termination
        have hdb := afterTermination_db w r.jobId termination
        have halive := afterTermination_alive w r.jobId termination
        have honly2 := afterTermination_only w r.jobId termination r.jobId
        generalize w.afterTermination r.jobId termination = w2 at *
        have hb2 := hb.frame hchange hdb
        have hr2 : r ∈ w2.db.jobs := by rw [hdb]; exact hr
        have hdisp2 : m.calm → Dispatched w2.db r.jobId := by
          rw [hdb]; exact hdisp hprior
        refine ⟨hchange, ?_⟩
        rw [solo_lift]
        cases hmerge : mergeArtifacts r.partialLogArtifacts (terminationLogs termination) with
        | error e =>
          have hclean : ¬ m.clean := fun hclean => by
            obtain ⟨merged, hok⟩ := (m.clean_answers hclean hallow).2 r hr rfl
            rw [outcomeOf_logs, hmerge] at hok
            cases hok
          exact .refused (hb2.abort hr2 hclean fun hcalm _ => hdisp2 hcalm) fun h =>
            absurd h hclean
        | ok merged =>
          have hwritten : Written m r.partialLogArtifacts merged := .inr (.inl ⟨_, hmerge⟩)
          simp only
          split
          · next hconf =>
            exact finish_solo hb2 hr2 hs hedge (fun _ => halive hconf) (fun _ => hwritten) hcarry
              (fun t honly hrow => hK t (honly2.trans honly) hrow)
              fun hdup => absurd (mergeArtifacts_ok hmerge).1 hdup
          · exact quarantine_solo hb2 hr2 hs hactive hwritten hdisp2
              fun t ht honly hrow => .ok ht (hquar hprior t (honly2.trans honly) hrow)
      · have hclean : ¬ m.clean := fun hclean => (m.clean_answers hclean hallow).1 rfl
        exact ⟨.unchanged w, .refused (hb.abort hr hclean fun hcalm _ => hdisp hprior hcalm)
          fun h => absurd h hclean⟩

/-- What `_cancel` refuses to begin. -/
def CancelRefused (w : World) (job : EntityId) (logs : List ArtifactRef)
    (errorCode : Option String) (skip : Bool) : Prop :=
  ¬ (logs.map byArtifactId).Nodup ∨
    ∃ now e, requestCancellation job logs errorCode skip now w = .error e

theorem cancelJob_solo {logs : List ArtifactRef} {errorCode : Option String} {skip : Bool}
    (hw : Rest m policy w)
    (hskip : (∀ r ∈ w.db.jobs, r.jobId = job → r.status.terminal) → K w)
    (hfinished : ∀ r ∈ w.db.jobs, r.jobId = job → r.status = .queued ∨ w.workers job ≠ none →
      Carried m policy K ∧ ∀ t, Only job w t → RowStatus t job .cancelled → K t)
    (hquar : ∀ r ∈ w.db.jobs, r.jobId = job → r.status ≠ .queued →
      ∀ t, Only job w t → RowStatus t job .quarantined → K t) :
    Solo m.env (Change m policy) (Outcome m policy K (CancelRefused w job logs errorCode skip))
      (cancelJob policy job logs errorCode skip) w := by
  unfold cancelJob
  refine lift_validateArtifacts (fun _ => ?_) fun hdup => .refused hw fun _ => .inl hdup
  refine solo_transactNow fun now => ⟨.unchanged w, ?_⟩
  obtain ⟨e, herr⟩ | ⟨hnone, -, hterm⟩ | ⟨r, merged, hr, rfl, hterm, hq, hmerge, hsome⟩ :=
    requestCancellation_cases job logs errorCode skip now w
  · rw [herr]
    exact .refused hw fun _ => .inr ⟨now, e, herr⟩
  · rw [hnone]
    exact ⟨.unchanged w, (solo_ret _).mpr (.ok hw (hskip hterm))⟩
  · rw [hsome]
    have hrequest : Change m policy w _ := .requested now errorCode hr hterm hq hmerge
    have hmove := move_requestCancel (m := m) now errorCode hr hterm hq hmerge
    have hb := (hw.busy r.jobId).move hrequest hmove
    refine ⟨hrequest, ?_⟩
    let r' := r.withProgress fun p =>
      { p with status := .cancelling, partialLogArtifacts := merged, errorCode }
    have hr' : r' ∈ (w.requestCancel r.jobId merged now errorCode).db.jobs :=
      hmove.mem_iff.mpr (.inl rfl)
    have honly : Only r.jobId w (w.requestCancel r.jobId merged now errorCode) := .move ..
    refine Outcome.solo_bind (K := K) (settleCancellation_solo (r := r') hb hr' rfl
      (mergeArtifacts_ok hmerge).1 (fun hprior => ?_) (fun hprior hcalm => ?_)
      (fun hprior => ?_) fun hprior t ht hrow => hquar r hr rfl hprior t (honly.trans ht) hrow)
      (fun _ t ht hK => (solo_ret _).mpr (.ok ht hK)) fun _ h => h
    · exact (hw.inv.untouched r.jobId fun s hs hid => by
        rw [Database.eq_of_jobId hs hr hid]; exact hprior).2
    · -- only a queued row can be cancelled without ever having been reserved
      have hdisp : Dispatched w.db r.jobId := by
        cases hst : r.status with
        | dispatching => exact hw.inv.dispatched r hr (.inl hst)
        | running => exact hw.inv.dispatched r hr (.inr hst)
        | cancelling => exact hw.calm hcalm r hr (.inl hst)
        | queued => exact absurd hst hprior
        | quarantined => exact absurd hst hq
        | _ => simp [hst, JobStatus.nonterminal, JobStatus.active] at hterm
      exact hdisp.mono hrequest.durable.events_prefix
    · obtain ⟨hcarry, hK⟩ := hfinished r hr rfl hprior
      exact ⟨hcarry, fun t ht hrow => hK t (honly.trans ht) hrow⟩

/-! ## Reconciliation -/

theorem Only.exists_row (h : Only job w w') {other : EntityId}
    (hrow : ∃ s ∈ w.db.jobs, s.jobId = other) : ∃ s ∈ w'.db.jobs, s.jobId = other := by
  obtain ⟨s, hs, hid⟩ := hrow
  have hspec : s.toJobSpec ∈ w'.db.jobs.map JobRecord.toJobSpec := by
    rw [h.specs]; exact List.mem_map_of_mem hs
  obtain ⟨t, ht, hts⟩ := List.mem_map.mp hspec
  exact ⟨t, ht, (congrArg JobSpec.jobId hts).trans hid⟩

theorem Carried.and_exists (h : Carried m policy K) (job : EntityId) :
    Carried m policy fun w => K w ∧ ∃ s ∈ w.db.jobs, s.jobId = job :=
  ⟨fun hK hd => h.mayStart hK.1 hd,
    fun hK hd honly hleft => ⟨h.pass hK.1 hd honly hleft, honly.exists_row hK.2⟩⟩

/-- Ask the worker of a row for its end and settle the row by the answer. -/
theorem reconcileRow_solo {Q : Except SchedulerError Unit → World → Prop}
    (worker : WorkerControl) (finishing : List ArtifactRef → Op Unit) (code : String)
    (hw : Rest m policy w) (hr : r ∈ w.db.jobs) (hactive : r.status.active)
    (hdisp : m.calm → Dispatched w.db r.jobId)
    (hfinish : ∀ t logs, Rest m policy t → t.db = w.db → t.alive r.jobId = false →
      Only r.jobId w t → (logs.map byArtifactId).Nodup → Written m r.partialLogArtifacts logs →
      Solo m.env (Change m policy) Q (finishing logs) t)
    (hquar : ∀ t, Rest m policy t → Only r.jobId w t → RowStatus t r.jobId .quarantined →
      Q (.ok ()) t)
    (herror : ∀ t e, Rest m policy t → (m.clean → w.online = true) → Q (.error e) t) :
    Solo m.env (Change m policy) Q (do
      let termination ← attemptTermination .reconciliation r.jobId worker
      let logs ← lift (mergeArtifacts r.partialLogArtifacts (terminationLogs termination))
      if confirmed termination then finishing logs
      else quarantine r.jobId logs code r.status) w := by
  refine solo_attemptTermination (fun termination hallow => ?_) fun hallow => ?_
  · have hchange := afterTermination_change m policy w r.jobId termination
    have hdb := afterTermination_db w r.jobId termination
    have halive := afterTermination_alive w r.jobId termination
    have honly2 := afterTermination_only w r.jobId termination r.jobId
    generalize w.afterTermination r.jobId termination = w2 at *
    have hw2 := hw.frame hchange hdb
    refine ⟨hchange, ?_⟩
    rw [solo_lift]
    cases hmerge : mergeArtifacts r.partialLogArtifacts (terminationLogs termination) with
    | error e =>
      refine herror w2 e hw2 fun hclean => ?_
      by_contra honline
      obtain ⟨merged, hok⟩ :=
        (m.clean_answers hclean hallow (by simpa using honline)).2 r hr rfl
      rw [outcomeOf_logs, hmerge] at hok
      cases hok
    | ok merged =>
      have hwritten : Written m r.partialLogArtifacts merged := .inr (.inl ⟨_, hmerge⟩)
      simp only
      split
      · next hconf =>
        exact hfinish w2 merged hw2 hdb (halive hconf) honly2 (mergeArtifacts_ok hmerge).1 hwritten
      · exact quarantine_solo (hw2.busy _) (by rw [hdb]; exact hr) rfl hactive hwritten
          (by rw [hdb]; exact hdisp)
          fun t ht honly hrow => hquar t ht (honly2.trans honly) hrow
  · refine ⟨.unchanged w, herror w _ hw fun hclean => ?_⟩
    by_contra honline
    exact (m.clean_answers hclean hallow (by simpa using honline)).1 rfl

theorem reconcileQuarantined_solo {worker : WorkerControl} (hw : Rest m policy w)
    (hcarry : Carried m policy K) (honly : ∀ t, Only job w t → K t) :
    Solo m.env (Change m policy) (Outcome m policy K (¬ RowStatus w job .quarantined ∨ w.online = true))
      (reconcileQuarantined policy job worker) w := by
  unfold reconcileQuarantined
  rw [solo_jobRecord]
  refine ⟨.unchanged w, fun r hr hid => ?_, fun hnone => ?_⟩
  · subst hid
    split
    · next hs =>
      refine (solo_throw _).mpr (.refused hw fun _ => .inl ?_)
      rintro ⟨s, hs', hid, hst⟩
      rw [Database.eq_of_jobId hs' hr hid] at hst
      exact hs hst
    · next hs =>
      have hs : r.status = .quarantined := not_not.mp hs
      rw [solo_setWorker]
      have hset : Change m policy w _ := .workers w (Function.update w.workers r.jobId (some worker))
      have honly1 : Only r.jobId w _ := .setWorker w r.jobId (some worker)
      refine ⟨hset, ?_⟩
      have hw1 := hw.frame hset rfl
      have hr1 : r ∈ (w.withWorkers (Function.update w.workers r.jobId (some worker))).db.jobs := hr
      generalize w.withWorkers (Function.update w.workers r.jobId (some worker)) = w1 at *
      -- what is left is to settle the row, and to read its record at the end
      have hrow : ∃ s ∈ w.db.jobs, s.jobId = r.jobId := ⟨r, hr, rfl⟩
      have hsettled := reconcileRow_solo
        (Q := Outcome m policy (fun t => K t ∧ ∃ s ∈ t.db.jobs, s.jobId = r.jobId)
          (w.online = true))
        worker
        (fun logs => finish policy r.jobId .infrastructureError logs
          (some (errorCodeOr r.errorCode "QUARANTINED_WORKER_TERMINATED")) r.status)
        "WORKER_TERMINATION_UNCONFIRMED" hw1 hr1
        (by rw [hs]; rfl) (fun hcalm => hw1.calm hcalm r hr1 (.inr hs))
        (fun t logs ht hdb halive honly2 hnodup hwritten => finish_solo (ht.busy _)
          (by rw [hdb]; exact hr1) rfl (by rw [hs]; trivial) (fun _ => halive) (fun _ => hwritten)
          (hcarry.and_exists _)
          (fun u honly3 _ => ⟨honly u (honly1.trans (honly2.trans honly3)),
            (honly1.trans (honly2.trans honly3)).exists_row hrow⟩)
          fun hdup => absurd hnodup hdup)
        (fun t ht honly2 _ => .ok ht ⟨honly t (honly1.trans honly2),
          (honly1.trans honly2).exists_row hrow⟩)
        (fun t e ht honline => .refused ht fun h => honly1.online.symm.trans (honline h))
      rw [hs] at hsettled
      have hread : ∀ u t, Rest m policy t → (K t ∧ ∃ s ∈ t.db.jobs, s.jobId = r.jobId) →
          Solo m.env (Change m policy) (Outcome m policy K (w.online = true))
            ((fun _ : Unit => jobRecord r.jobId) u) t := by
        rintro - t ht ⟨hKt, s, hs', hid⟩
        have hlookup : jobRecord r.jobId = (jobRecord r.jobId >>= fun s => (.ret s : Op JobRecord)) :=
          by simp only [jobRecord, bind_assoc]; congr 1; funext o; cases o <;> rfl
        simp only
        rw [hlookup, solo_jobRecord]
        exact ⟨.unchanged t, fun s _ _ => (solo_ret _).mpr (.ok ht hKt),
          fun hnone => absurd hid (hnone s hs')⟩
      have hall := Outcome.solo_bind hsettled hread fun t ht => ht.1
      refine Solo.weaken (Q := Outcome m policy K (w.online = true)) ?_ (fun _ _ h => h)
        fun _ _ h => h.mono .inr
      simpa only [bind_assoc, ite_bind] using hall
  · refine .refused hw fun _ => .inl ?_
    rintro ⟨s, hs, hid, -⟩
    exact hnone s hs hid

end NovaRtl.Scheduler
