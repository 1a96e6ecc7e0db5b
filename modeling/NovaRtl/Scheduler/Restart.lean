import NovaRtl.Scheduler.Operate

/-!
# Construction on an existing database

The constructor takes a snapshot of the nonterminal rows and settles them one by one. A row
of the snapshot that was not queued is still the same row when its turn comes: the rows
before it are other jobs, and the dispatches in between take only queued ones.
-/

namespace NovaRtl.Scheduler

open Transact Transact.Prog

variable {m : Regime} {policy : SchedulerPolicy} {w w' : World} {r : JobRecord}
  {K : World → Prop}

/-- The branch that `reconcileDispatching` and `resumeCancellation` share. -/
theorem settleRow_solo (status : FinalStatus) (finalCode : Option String) (code : String)
    (worker : Option WorkerControl) (hw : Rest m policy w) (hoff : w.online = false)
    (hr : r ∈ w.db.jobs)
    (hactive : r.status.active) (hedge : FinishEdge r.status status)
    (hdisp : m.calm → Dispatched w.db r.jobId) (honly : ∀ t, Only r.jobId w t → K t) :
    Solo m.env (Change m policy) (Outcome m policy K False) (do
      let termination ← attemptIfAny r.jobId worker
      let logs ← lift (mergeArtifacts r.partialLogArtifacts (terminationLogs termination))
      if confirmed termination then finishOnly r.jobId status logs finalCode r.status
      else quarantine r.jobId logs code r.status) w := by
  cases worker with
  | none =>
    simp only [attemptIfAny, pure_eq, ret_bind, terminationLogs, mergeArtifacts_nil, lift, confirmed,
      Bool.false_eq_true, if_false]
    exact quarantine_solo (hw.busy _) hr rfl hactive (.inr (.inl ⟨[], mergeArtifacts_nil _⟩)) hdisp
      fun t ht honly' _ => .ok ht (honly t honly')
  | some worker =>
    exact reconcileRow_solo worker (fun logs => finishOnly r.jobId status logs finalCode r.status)
      code hw hr hactive hdisp
      (fun t logs ht hdb halive honly' hnodup hwritten => finishOnly_solo (ht.busy _)
        (by rw [hdb]; exact hr) rfl hedge (fun _ => halive) (fun _ => hwritten)
        (fun u hu honly'' _ => .ok hu (honly u (honly'.trans honly'')))
        fun hdup => absurd hnodup hdup)
      (fun t ht honly' _ => .ok ht (honly t honly'))
      fun t e ht honline => .refused ht fun h => by simp [hoff] at honline; exact honline h

theorem reconcileOne_solo (worker : Option WorkerControl) (hw : Rest m policy w)
    (hoff : w.online = false) (hr : r.status ≠ .queued → r ∈ w.db.jobs) (hcarry : Carried m policy K)
    (honly : ∀ t, Only r.jobId w t → K t) :
    Solo m.env (Change m policy) (Outcome m policy K False) (reconcileOne policy r worker) w := by
  have hsame : Solo m.env (Change m policy) (Outcome m policy K False) (.ret ()) w :=
    (solo_ret _).mpr (.ok hw (honly w (.refl _ w)))
  unfold reconcileOne
  split
  · next worker _ _ hs =>
    have hmem := hr (by simp [hs])
    have hsettle := settleRow_solo .infrastructureError (some "INTERRUPTED_DURING_DISPATCH")
      "INTERRUPTED_DISPATCH_WORKER_UNCONFIRMED" worker hw hoff hmem
      (by rw [hs]; rfl) (by rw [hs]; trivial) (fun _ => hw.inv.dispatched r hmem (.inl hs)) honly
    rwa [hs] at hsettle
  · next hs =>
    have hmem := hr (by simp [hs])
    exact quarantine_solo (hw.busy _) hmem hs (by rw [hs]; rfl) (.inl rfl)
      (fun _ => hw.inv.dispatched r hmem (.inr hs)) fun t ht honly' _ => .ok ht (honly t honly')
  · next worker _ _ hs =>
    have hmem := hr (by simp [hs])
    have hsettle := settleRow_solo .cancelled r.errorCode "WORKER_TERMINATION_UNCONFIRMED" worker
      hw hoff hmem (by rw [hs]; rfl) (by rw [hs]; trivial) (fun hcalm => hw.calm hcalm r hmem (.inl hs))
      honly
    rwa [hs] at hsettle
  · next control hs =>
    have hmem := hr (by simp [hs])
    refine Outcome.solo_bind (K := K) ((reconcileQuarantined_solo hw hcarry honly).weaken
      (fun _ _ h => h) fun _ _ h => h.mono fun hnot =>
        hnot.elim (fun h => h ⟨r, hmem, rfl, hs⟩) fun h => by simp [hoff] at h)
      (fun _ t ht hK => (solo_ret _).mpr (.ok ht hK)) fun _ h => h
  · exact hsame

/-- The scheduler is still under construction, and the rows of its snapshot that were not
queued are still there. -/
structure Standing (rows : List JobRecord) (w : World) : Prop where
  offline : w.online = false
  rows : ∀ s ∈ rows, s.status ≠ .queued → s ∈ w.db.jobs

theorem Standing.carried (hmay : ∀ spec, m.mayStart spec) (rows : List JobRecord) :
    Carried m policy (Standing rows) := by
  refine ⟨fun _ _ => hmay _, fun {w w' r} hstand hdisp honly _ =>
    ⟨honly.online.trans hstand.offline, fun s hs hq => ?_⟩⟩
  refine honly.mem (hstand.rows s hs hq) fun hid => hq ?_
  obtain ⟨hr, hrq⟩ := mem_queuedRows.mp hdisp.1.mem
  rwa [Database.eq_of_jobId (hstand.rows s hs hq) hr hid]

theorem reconcileAll_solo (hmay : ∀ spec, m.mayStart spec) (resolver : WorkerResolver)
    (rows : List JobRecord) (hrows : (rows.map byJobId).Nodup) (hw : Rest m policy w)
    (hstand : Standing rows w) :
    Solo m.env (Change m policy) (Outcome m policy (fun _ => True) False)
      (reconcileAll policy resolver rows) w := by
  induction rows generalizing w with
  | nil => exact (solo_ret _).mpr (.ok hw trivial)
  | cons r rest ih =>
    simp only [List.map_cons, List.nodup_cons] at hrows
    have hrest : ∀ t, Only r.jobId w t → Standing rest t := fun t honly =>
      ⟨honly.online.trans hstand.offline, fun s hs hq =>
        honly.mem (hstand.rows s (List.mem_cons_of_mem _ hs) hq) fun hid =>
          hrows.1 (List.mem_map.mpr ⟨s, hs, hid⟩)⟩
    -- the resolver's worker is in the table before the row is looked at
    have hturn : ∀ t, Rest m policy t → t.db = w.db → Only r.jobId w t →
        Solo m.env (Change m policy) (Outcome m policy (fun _ => True) False)
          (reconcileOne policy r (resolver r) >>= fun _ => reconcileAll policy resolver rest) t := by
      intro t ht hdb honly
      refine Outcome.solo_bind (reconcileOne_solo (resolver r) ht
        (honly.online.trans hstand.offline) (fun hq => ?_)
        (Standing.carried hmay rest) fun u hu => hrest u (honly.trans hu))
        (fun _ u hu hK => ih hrows.2 hu hK) fun _ _ => trivial
      rw [hdb]
      exact hstand.rows r List.mem_cons_self hq
    unfold reconcileAll
    cases hres : resolver r with
    | none =>
      have := hturn w hw rfl (.refl _ w)
      rwa [hres] at this
    | some worker =>
      have hset : Change m policy w _ := .workers w (Function.update w.workers r.jobId (some worker))
      have := hturn _ (hw.frame hset rfl) rfl (.setWorker w r.jobId (some worker))
      rw [hres] at this
      exact solo_setWorker.mpr ⟨hset, this⟩

theorem snapshot_standing (hoff : w.online = false) :
    let rows := w.db.jobs.filter fun r => r.status.nonterminal
    (rows.map byJobId).Nodup ∧ Standing rows w :=
  ⟨w.db.unique.sublist (List.filter_sublist.map _), hoff,
    fun _ hs _ => List.mem_of_mem_filter hs⟩

theorem reconcileNonterminal_solo (hmay : ∀ spec, m.mayStart spec) (resolver : WorkerResolver)
    (hw : Rest m policy w) (hoff : w.online = false) :
    Solo m.env (Change m policy) (Outcome m policy (fun _ => True) False)
      (reconcileNonterminal policy resolver) w := by
  unfold reconcileNonterminal
  rw [solo_read]
  obtain ⟨hrows, hstand⟩ := snapshot_standing hoff
  refine ⟨.unchanged w, Outcome.solo_bind (reconcileAll_solo hmay resolver _ hrows hw hstand)
    (fun _ t ht hK => ?_) fun _ h => h⟩
  exact (dispatch_solo (.trivial hmay) ht hK).weaken (fun _ _ h => h) fun _ _ h => h.outcome

/-- The constructor raises only over another policy, or where SQLite cannot add the leases. -/
theorem construct_solo (hmay : ∀ spec, m.mayStart spec) (other : SchedulerPolicy)
    (resolver : WorkerResolver) (hw : Rest m policy w) (hoff : w.online = false) :
    Solo m.env (Change m policy) (fun result t => Rest m policy t ∧
      (m.clean → ∀ e, result = .error e →
        other ≠ policy ∨ e = .operationalError "integer overflow"))
      (construct other resolver) w := by
  unfold construct
  rw [solo_modify]
  have hreset : Change m policy w _ := .workers w fun _ => none
  have hw1 : Rest m policy _ := hw.frame hreset rfl
  refine ⟨hreset, ?_⟩
  rw [solo_transact]
  obtain ⟨rfl, hinit⟩ | ⟨hne, hinit⟩ := initializeDatabase_cases other hw1.inv.policy_eq
  · refine hinit ▸ ⟨.unchanged _, ?_⟩
    refine Solo.bind ((reconcileNonterminal_solo hmay resolver hw1 hoff).weaken (fun _ _ h => h)
      fun result t ht => ?_)
    cases result with
    | error e =>
      refine ⟨ht.rest, fun hclean e' he => ?_⟩
      cases he
      exact (ht.failed hclean e rfl).elim False.elim fun h => .inr h.1
    | ok _ =>
      rw [Prog.modify, solo_commit]
      have honline : Change m other t _ := .online t
      exact ⟨honline, (solo_ret _).mpr ⟨ht.rest.frame honline rfl, by simp⟩⟩
  · exact hinit ▸ ⟨hw1, fun _ _ _ => .inl hne⟩

end NovaRtl.Scheduler
