import NovaRtl.Scheduler.Restart
import NovaRtl.Transact.System

/-!
# Sessions

One client works with one scheduler at a time: it constructs one on the database, invokes
its operations one after another, and constructs the next one after a stop of the process.
`session m policy` is this system under a regime.

## Main results

* `session_certified`: in every configuration a session reaches the database satisfies
  `Inv`, and between two operations the scheduler is at rest.
* `session_sound`: the same for the runs that begin with an empty queue.
-/

namespace NovaRtl.Scheduler

open Transact Transact.Prog

/-- The public operations of a scheduler and of the handles it returns. -/
inductive Operation where
  | submit (request : JobRequest)
  | attachWorker (id : EntityId) (worker : WorkerControl)
  | dispatch
  | complete (id : EntityId) (logs : List ArtifactRef)
  | cancel (id : EntityId) (logs : List ArtifactRef)
  | enforceDeadlines (now : Option DateTime)
  | recordPartialLogs (id : EntityId) (artifacts : List ArtifactRef)
  | reconcileQuarantined (id : EntityId) (worker : WorkerControl)
  | job (id : EntityId)
  | handle (id : EntityId)
  | consumed (run : EntityId)
  | events (id : EntityId)

/-- Run for its effects. -/
def discard {α : Type} (p : Op α) : Op Unit := p >>= fun _ => .ret ()

def Operation.program (policy : SchedulerPolicy) : Operation → Op Unit
  | .submit request => discard (Scheduler.submit policy request)
  | .attachWorker id worker => discard (Scheduler.attachWorker policy id worker)
  | .dispatch => Scheduler.dispatch policy
  | .complete id logs => Scheduler.complete policy id logs
  | .cancel id logs => Scheduler.cancel policy id logs
  | .enforceDeadlines now => discard (Scheduler.enforceDeadlines policy now)
  | .recordPartialLogs id artifacts => Scheduler.recordPartialLogs id artifacts
  | .reconcileQuarantined id worker => discard (Scheduler.reconcileQuarantined policy id worker)
  | .job id => discard (jobRecord id)
  | .handle id => discard (Scheduler.handle id)
  | .consumed run => discard (Scheduler.consumed run)
  | .events id => discard (Scheduler.events id)

/-- What a regime asks of the arguments of an operation. -/
def Regime.admits (m : Regime) (w : World) : Operation → Prop
  | .complete job logs => ∀ r ∈ w.db.jobs, r.jobId = job → r.status = .running →
      (logs.map byArtifactId).Nodup → m.keeps r.partialLogArtifacts logs
  | _ => True

theorem Regime.free_admits {w : World} (op : Operation) : Regime.free.admits w op := by
  cases op <;> simp [Regime.admits, Regime.free]

/-- The process is gone: its scheduler and its worker table with it. -/
def World.stopped (w : World) : World := { w with online := false, workers := fun _ => none }

inductive Invokes (m : Regime) (policy : SchedulerPolicy) (w : World) : Op Unit → Prop where
  | operation (op : Operation) :
      w.online = true → m.admits w op → Invokes m policy w (op.program policy)
  | construct (other : SchedulerPolicy) (resolver : WorkerResolver) :
      w.online = false → m.resolves resolver → Invokes m policy w (construct other resolver)

/-- One client. The process may stop between two operations; within one it may do so
where the regime does not exclude it. -/
def session (m : Regime) (policy : SchedulerPolicy) :
    System Unit World SchedulerError Answer where
  env := m.env
  invokes _ w p := Invokes m policy w p
  mayHalt w := m.crashes ∧ (m.calm → Calm w)
  halted := World.stopped

variable {m : Regime} {policy : SchedulerPolicy} {w w' : World} {job : EntityId}
  {r : JobRecord} {α : Type}

/-! ## The operations keep the scheduler at rest -/

/-- The operation makes only permitted changes and leaves the scheduler at rest. -/
abbrev Restful (m : Regime) (policy : SchedulerPolicy) (p : Op α) (w : World) : Prop :=
  Solo m.env (Change m policy) (fun _ t => Rest m policy t) p w

theorem Restful.of_outcome {K : World → Prop} {Refusal : Prop} {p : Op α}
    (h : Solo m.env (Change m policy) (Outcome m policy K Refusal) p w) : Restful m policy p w :=
  h.weaken (fun _ _ h => h) fun _ _ h => h.rest

theorem Restful.bind {β : Type} {p : Op α} {k : α → Op β} (hp : Restful m policy p w)
    (hk : ∀ a t, Rest m policy t → Restful m policy (k a) t) :
    Restful m policy (p >>= k) w := by
  refine Solo.bind (hp.weaken (fun _ _ h => h) fun result t ht => ?_)
  cases result with
  | ok a => exact hk a t ht
  | error e => exact ht

theorem Restful.discard {p : Op α} (hp : Restful m policy p w) : Restful m policy (discard p) w :=
  hp.bind fun _ _ ht => (solo_ret _).mpr ht

theorem Rest.admitRow (hw : Rest m policy w) {spec : JobSpec}
    (fresh : ∀ r ∈ w.db.jobs, r.jobId ≠ spec.jobId)
    (hc : Change m policy w (w.admitRow spec fresh)) :
    Rest m policy (w.admitRow spec fresh) := by
  have hrows : ∀ s ∈ (w.admitRow spec fresh).db.jobs, s ∈ w.db.jobs ∨ s.status = .queued := by
    intro s hs
    rcases List.mem_append.mp hs with hs | hs
    · exact .inl hs
    · obtain rfl := List.mem_singleton.mp hs
      exact .inr rfl
  refine ⟨hc.inv hw.inv, fun hset s hs => ?_, fun hcalm s hs hst => ?_⟩
  · rcases hrows s hs with hs | hs
    · exact hw.settled hset s hs
    · simp [hs]
  · rcases hrows s hs with hs | hs
    · exact (hw.calm hcalm s hs hst).mono hc.durable.events_prefix
    · simp [hs] at hst

theorem Rest.setLogs (hw : Rest m policy w) (hr : r ∈ w.db.jobs) {logs : List ArtifactRef}
    (hc : Change m policy w (w.setLogs r.jobId logs)) : Rest m policy (w.setLogs r.jobId logs) := by
  have hrows : ∀ s ∈ (w.setLogs r.jobId logs).db.jobs,
      ∃ s' ∈ w.db.jobs, s'.jobId = s.jobId ∧ s'.status = s.status := by
    intro s hs
    rcases (Database.mem_setJob hr).mp hs with rfl | ⟨hs, -⟩
    · exact ⟨r, hr, rfl, rfl⟩
    · exact ⟨s, hs, rfl, rfl⟩
  refine ⟨hc.inv hw.inv, fun hset s hs => ?_, fun hcalm s hs hst => ?_⟩
  · obtain ⟨s', hs', -, hstatus⟩ := hrows s hs
    rw [← hstatus]
    exact hw.settled hset s' hs'
  · obtain ⟨s', hs', hid, hstatus⟩ := hrows s hs
    rw [← hstatus] at hst
    rw [← hid]
    exact (hw.calm hcalm s' hs' hst).mono hc.durable.events_prefix

theorem recordPartialLogs_restful (artifacts : List ArtifactRef) (hw : Rest m policy w) :
    Restful m policy (recordPartialLogs job artifacts) w := by
  unfold recordPartialLogs
  refine lift_validateArtifacts (fun _ => ?_) fun _ => hw
  rw [transact, solo_commit]
  obtain ⟨e, herr⟩ | ⟨r, merged, hr, rfl, hterm, hmerge, hok⟩ := commitPartialLogs_cases job artifacts w
  · exact herr ▸ hw
  · have hc : Change m policy w (w.setLogs r.jobId merged) := .logged hr hterm hmerge
    exact hok ▸ ⟨hc, (solo_ret _).mpr (hw.setLogs hr hc)⟩

theorem jobRecord_restful (hw : Rest m policy w) : Restful m policy (jobRecord job) w := by
  unfold jobRecord
  refine (solo_read _ _).mpr ⟨.unchanged w, ?_⟩
  cases w.db.row? job with
  | none => exact (solo_throw _).mpr hw
  | some r => exact (solo_ret _).mpr hw

/-- The rows of `w` and one more, of `job`. -/
def Admitted (w : World) (job : EntityId) (t : World) : Prop :=
  ∃ spec : JobSpec, spec.jobId = job ∧
    t.db.jobs.map JobRecord.toJobSpec = w.db.jobs.map JobRecord.toJobSpec ++ [spec]

theorem Admitted.carried (hmay : ∀ spec, m.mayStart spec) :
    Carried m policy (Admitted w job) :=
  ⟨fun _ _ => hmay _, fun ⟨spec, hid, hspecs⟩ _ honly _ => ⟨spec, hid, honly.specs.trans hspecs⟩⟩

section Unrestricted

variable (hmay : ∀ spec, m.mayStart spec) (hw : Rest m policy w)
include hmay hw

theorem dispatch_restful : Restful m policy (dispatch policy) w :=
  (dispatch_solo (.trivial hmay) hw trivial).weaken (fun _ _ h => h) fun _ _ h => h.rest

/-- A submission is refused and changes nothing, or it adds the one row of its job. -/
theorem submit_solo (request : JobRequest) :
    Solo m.env (Change m policy) (fun result t => Rest m policy t ∧
      ((∃ e, result = .error e) ∧ t = w ∨ Admitted w request.jobId t))
      (submit policy request) w := by
  unfold submit
  refine solo_utcNow.mpr fun now _ => ⟨.unchanged w, ?_⟩
  rw [solo_lift]
  cases hspec : validateRequest policy request now with
  | error e => exact ⟨hw, .inl ⟨⟨e, rfl⟩, rfl⟩⟩
  | ok spec =>
    simp only
    rw [solo_transact]
    obtain ⟨e, herr⟩ | ⟨fresh, hcandidates, htokens, hok⟩ := admit_cases policy spec w
    · exact herr ▸ ⟨hw, .inl ⟨⟨e, rfl⟩, rfl⟩⟩
    · have hc : Change m policy w (w.admitRow spec fresh) := .admitted spec fresh hcandidates htokens
      have hadmitted : Admitted w request.jobId (w.admitRow spec fresh) :=
        ⟨spec, validateRequest_jobId hspec, by simp [World.admitRow, Database.insert,
          Database.appendEvent]⟩
      refine hok ▸ ⟨hc, ?_⟩
      have hw1 := hw.admitRow fresh hc
      have hend : ∀ t, Rest m policy t → Admitted w request.jobId t →
          Solo m.env (Change m policy) (fun result t => Rest m policy t ∧
            ((∃ e, result = .error e) ∧ t = w ∨ Admitted w request.jobId t))
            (dispatch policy >>= fun _ => .ret request.jobId) t := by
        intro t ht hadm
        refine Solo.bind ((dispatch_solo (Admitted.carried hmay) ht hadm).weaken
          (fun _ _ h => h) fun result u hu => ?_)
        cases result with
        | ok _ => exact (solo_ret _).mpr ⟨hu.rest, .inr hu.kept⟩
        | error e => exact ⟨hu.rest, .inr hu.kept⟩
      cases request.worker with
      | none => exact hend _ hw1 hadmitted
      | some worker =>
        have hset : Change m policy (w.admitRow spec fresh) _ :=
          .workers _ (Function.update w.workers request.jobId (some worker))
        exact solo_setWorker.mpr ⟨hset, hend _ (hw1.frame hset rfl) hadmitted⟩

theorem attachWorker_restful (worker : WorkerControl) :
    Restful m policy (attachWorker policy job worker) w := by
  unfold attachWorker
  refine (jobRecord_restful hw).bind fun record t ht => ?_
  split
  · exact (solo_throw _).mpr ht
  · have hset : Change m policy t _ := .workers _ (Function.update t.workers job (some worker))
    exact solo_setWorker.mpr ⟨hset, Restful.bind (dispatch_restful hmay (ht.frame hset rfl))
      fun _ _ h => (solo_ret _).mpr h⟩

theorem complete_restful {logs : List ArtifactRef}
    (hkeeps : ∀ r ∈ w.db.jobs, r.jobId = job → r.status = .running →
      (logs.map byArtifactId).Nodup → m.keeps r.partialLogArtifacts logs) :
    Restful m policy (complete policy job logs) w := by
  unfold complete
  by_cases hrow : ∃ r ∈ w.db.jobs, r.jobId = job ∧ r.status = .running
  · obtain ⟨r, hr, rfl, hs⟩ := hrow
    have hfinish : Solo m.env (Change m policy) (Outcome m policy (fun _ => True) True)
        (finish policy r.jobId .completed logs none .running) w :=
      finish_solo (hw.busy _) hr hs (by rw [hs]; trivial) (by simp)
        (fun hnodup => .inr (.inr (hkeeps r hr rfl hs hnodup))) (.trivial hmay)
        (fun _ _ _ => trivial)
        fun _ => ⟨hw, fun _ => trivial⟩
    exact .of_outcome hfinish
  · refine Solo.bind (solo_finishOnly_absent (fun s hs h => hrow ⟨s, hs, h⟩) (.unchanged w) ?_)
    exact fun _ => hw

theorem cancelJob_restful (logs : List ArtifactRef) (errorCode : Option String) (skip : Bool) :
    Restful m policy (cancelJob policy job logs errorCode skip) w :=
  .of_outcome <| cancelJob_solo hw (fun _ => trivial)
    (fun _ _ _ _ => ⟨.trivial hmay, fun _ _ _ => trivial⟩) fun _ _ _ _ _ _ _ => trivial

theorem sweep_restful (instant : Instant) (rows : List JobRecord) :
    Restful m policy (sweep policy instant rows) w := by
  induction rows generalizing w with
  | nil => exact (solo_ret _).mpr hw
  | cons row rest ih =>
    unfold sweep
    refine (solo_lift _ _).mpr ?_
    cases rowExpired row instant with
    | error e => exact hw
    | ok expired =>
      cases expired with
      | false => exact ih hw
      | true =>
        refine Restful.bind (cancelJob_restful hmay hw ..) fun _ t ht => ?_
        exact Restful.bind (ih ht) fun _ _ h => (solo_ret _).mpr h

theorem enforceDeadlines_restful (now : Option DateTime) :
    Restful m policy (enforceDeadlines policy now) w := by
  have hgo : ∀ instant : DateTime, Restful m policy (if instant.utcOffset ≠ some 0 then
      (.throw (.valueError "deadline enforcement time must be timezone-aware UTC") :
        Op (List EntityId))
      else do
        let rows ← read fun w => sweepRows w.db
        sweep policy instant.instant rows) w := by
    intro instant
    split
    · exact (solo_throw _).mpr hw
    · exact (solo_read _ _).mpr ⟨.unchanged w, sweep_restful hmay hw ..⟩
  unfold enforceDeadlines
  cases now with
  | some value => exact hgo value
  | none =>
    exact solo_utcNow.mpr fun value _ => ⟨.unchanged w, hgo ⟨value, some 0⟩⟩

theorem program_restful {op : Operation} (hop : m.admits w op) :
    Restful m policy (op.program policy) w := by
  cases op with
  | submit request =>
    exact Restful.discard ((submit_solo hmay hw request).weaken (fun _ _ h => h) fun _ _ h => h.1)
  | attachWorker id worker => exact (attachWorker_restful hmay hw worker).discard
  | dispatch => exact dispatch_restful hmay hw
  | complete id logs => exact complete_restful hmay hw hop
  | cancel id logs => exact (cancelJob_restful hmay hw logs none false).discard
  | enforceDeadlines now => exact (enforceDeadlines_restful hmay hw now).discard
  | recordPartialLogs id artifacts => exact recordPartialLogs_restful artifacts hw
  | reconcileQuarantined id worker =>
    exact (Restful.of_outcome (reconcileQuarantined_solo hw (.trivial hmay)
      fun _ _ => trivial)).discard
  | job id => exact (jobRecord_restful hw).discard
  | handle id => exact ((jobRecord_restful hw).bind fun _ _ h => (solo_ret _).mpr h).discard
  | consumed run =>
    refine (solo_transact _ _).mpr ?_
    cases consumedOn w.db run with
    | error e => exact hw
    | ok usage => exact ⟨.unchanged w, (solo_ret _).mpr hw⟩
  | events id =>
    exact (solo_read _ _).mpr ⟨.unchanged w, (solo_ret _).mpr hw⟩

end Unrestricted

/-! ## The system -/

theorem Rest.stopped (hw : Rest m policy w) : Rest m policy w.stopped := by
  have hdown : Rest m policy (w.withWorkers fun _ => none) := hw.frame (.workers _ _) rfl
  exact ⟨⟨hdown.inv.policy_eq, hdown.inv.untouched, hdown.inv.dispatched⟩, hdown.settled,
    hdown.calm⟩

theorem session_certified (hmay : ∀ spec, m.mayStart spec) :
    (session m policy).Certified (fun _ => Inv policy) (fun _ => Rest m policy)
      (fun _ => (· = ·)) (fun _ (_ : Unit) w t _ => Change m policy w t) () where
  refl _ := ⟨fun _ => rfl⟩
  trans _ := ⟨fun _ _ _ h h' => h.trans h'⟩
  compatible hij := absurd (Subsingleton.elim _ _) hij
  preserved hI hG := hG.inv hI
  dropped hI := hI
  stable hJ heq := heq ▸ hJ
  invoked {_ i w p} _ hw hp := by
    cases hp with
    | operation op _ hadmits => exact program_restful hmay hw hadmits
    | construct other resolver hoff _ =>
      exact (construct_solo hmay other resolver hw hoff).weaken (fun _ _ h => h) fun _ _ h => h.1
  halted {_ w} hI hhalt := by
    have hw : Rest m policy w := by
      rcases hhalt with hrest | ⟨hcrashes, hcalm⟩
      · exact hrest ()
      · exact ⟨hI, fun h => absurd hcrashes h.2, hcalm⟩
    exact ⟨hw.stopped.inv, fun _ => hw.stopped⟩

theorem Rest.of_initial : Rest m policy (.initial policy) :=
  ⟨⟨rfl, fun _ _ => ⟨rfl, rfl⟩, by simp [World.initial, Database.empty]⟩,
    by simp [Settled, World.initial, Database.empty],
    by simp [Calm, World.initial, Database.empty]⟩

/-- The session before its first construction. -/
def session.start (policy : SchedulerPolicy) : Config Unit World SchedulerError Answer :=
  .resting Unit SchedulerError Answer (.initial policy)

/-- A configuration that a session reaches from the empty queue. -/
abbrev Reached (m : Regime) (policy : SchedulerPolicy)
    (c : Config Unit World SchedulerError Answer) : Prop :=
  (session m policy).Run (session.start policy) c

abbrev SessionSound (m : Regime) (policy : SchedulerPolicy)
    (c : Config Unit World SchedulerError Answer) : Prop :=
  (session m policy).Sound (fun _ => Inv policy) (fun _ => Rest m policy) (fun _ => (· = ·))
    (fun _ (_ : Unit) w t _ => Change m policy w t) (fun _ => ()) c

theorem session_start (m : Regime) (policy : SchedulerPolicy) :
    SessionSound m policy (session.start policy) :=
  have hinitial : Rest m policy (.initial policy) := .of_initial
  System.Sound.resting hinitial.inv fun _ => hinitial

theorem session_sound (hmay : ∀ spec, m.mayStart spec)
    {c : Config Unit World SchedulerError Answer} (hc : Reached m policy c) :
    SessionSound m policy c :=
  ((session_certified hmay).sound (session_start m policy) hc).choose_spec

theorem session_rest (hmay : ∀ spec, m.mayStart spec)
    {c : Config Unit World SchedulerError Answer} (hc : Reached m policy c) (hrest : c.AtRest) :
    Rest m policy c.state :=
  ((session_sound hmay hc).2 ()).1 (hrest ())

/-- What every change keeps and no stop undoes holds in every configuration reached. -/
theorem session_invariant (hmay : ∀ spec, m.mayStart spec) {T : World → Prop}
    (hinitial : T (.initial policy))
    (hchange : ∀ {w t}, Inv policy w → Change m policy w t → T w → T t)
    (hstop : ∀ {w}, T w → T w.stopped)
    {c : Config Unit World SchedulerError Answer} (hc : Reached m policy c) : T c.state :=
  (session_certified hmay).history (T := fun s t => T s → T t) (fun _ => id)
    (fun h h' => h' ∘ h) (fun hI hG => hchange hI hG) (fun _ => hstop)
    (session_start m policy) hc hinitial

/-- Any preorder that contains the changes of the database relates the two ends of a run. -/
theorem session_history (hmay : ∀ spec, m.mayStart spec) {T : Database → Database → Prop}
    (hrefl : ∀ db, T db db) (htrans : ∀ {a b c}, T a b → T b c → T a c)
    (hdurable : ∀ {a b}, Durable m policy a b → T a b)
    {c d : Config Unit World SchedulerError Answer} (hc : Reached m policy c)
    (hrun : (session m policy).Run c d) : T c.state.db d.state.db :=
  (session_certified hmay).history (T := fun s t => T s.db t.db) (fun _ => hrefl _) htrans
    (fun _ hG => hdurable hG.durable) (fun _ => hrefl _) (session_sound hmay hc) hrun

/-! ## Driving a session -/

/-- What the client does next. -/
inductive ClientCall where
  | operation (op : Operation)
  | construct (policy : SchedulerPolicy) (resolver : WorkerResolver)
  | stop

abbrev Oracle := World → (r : Request) → Answer r

/-- The client makes one call and waits for its end, at most `n` steps; a call it cannot make
is skipped. -/
def drive (m : Regime) (policy : SchedulerPolicy) (o : Oracle) (n : ℕ)
    (c : Config Unit World SchedulerError Answer) (call : ClientCall) :
    Config Unit World SchedulerError Answer :=
  if (c.running ()).isNone then
    match call with
    | .operation op =>
      if c.state.online then (session m policy).perform o n c () (op.program policy) else c
    | .construct other resolver =>
      if c.state.online then c
      else (session m policy).perform o n c () (Scheduler.construct other resolver)
    | .stop => .resting Unit SchedulerError Answer c.state.stopped
  else c

def driveAll (m : Regime) (policy : SchedulerPolicy) (o : Oracle) (n : ℕ)
    (c : Config Unit World SchedulerError Answer) (calls : List ClientCall) :
    Config Unit World SchedulerError Answer := calls.foldl (drive m policy o n) c

theorem drive_run {o : Oracle} (ho : ∀ w r, m.allows w r (o w r)) (n : ℕ)
    (c : Config Unit World SchedulerError Answer) (call : ClientCall)
    (hadmits : ∀ op, call = .operation op → ∀ w, m.admits w op)
    (hresolves : ∀ other resolver, call = .construct other resolver → m.resolves resolver) :
    (session m policy).Run c (drive m policy o n c call) := by
  unfold drive
  split
  · next hrest =>
    have hi : c.running () = none := Option.isNone_iff_eq_none.mp hrest
    split
    · split
      · next op honline =>
        exact System.perform_run ho n hi (.operation op honline (hadmits op rfl _))
      · exact .refl
    · split
      · exact .refl
      · next other resolver honline =>
        exact System.perform_run ho n hi
          (.construct other resolver (by simpa using honline) (hresolves _ _ rfl))
    · exact .single (.halt (.inl fun _ => hi))
  · exact .refl

theorem driveAll_run {o : Oracle} (ho : ∀ w r, m.allows w r (o w r)) (n : ℕ)
    (c : Config Unit World SchedulerError Answer) {calls : List ClientCall}
    (hadmits : ∀ op, .operation op ∈ calls → ∀ w, m.admits w op)
    (hresolves : ∀ other resolver, .construct other resolver ∈ calls → m.resolves resolver) :
    (session m policy).Run c (driveAll m policy o n c calls) := by
  induction calls generalizing c with
  | nil => exact .refl
  | cons call rest ih =>
    have hfirst : (session m policy).Run c _ := drive_run ho n c call
      (fun op he => hadmits op (he ▸ List.mem_cons_self))
      fun other resolver he => hresolves other resolver (by simp [he])
    exact hfirst.trans (ih _ (fun op hop => hadmits op (List.mem_cons_of_mem _ hop))
      fun _ _ h => hresolves _ _ (List.mem_cons_of_mem _ h))

theorem atRest_of_isNone {c : Config Unit World SchedulerError Answer}
    (h : (c.running ()).isNone) : c.AtRest := fun _ => Option.isNone_iff_eq_none.mp h

/-! ## A small setting -/

def sampleLimits : JobKindLimits :=
  ⟨1, 4, 4000, 10000, by decide, by decide, by decide, by decide⟩

/-- One job of each kind at a time. -/
def samplePolicy : SchedulerPolicy := ⟨fun _ => sampleLimits, 2, 100, 1, by decide, by decide⟩

/-- A planner job of one second whose deadline is 100 seconds after the epoch. -/
def sampleRequest (job : EntityId) (worker : Option WorkerControl) : JobRequest :=
  ⟨job, "run_001", "PLANNER", 1, 500, 1000, 0, 0, 0, ⟨100000000, some 0⟩, worker⟩

/-- The clock stands at one second, and all workers answer alike. -/
def steady (start : StartOutcome) (termination : TerminateOutcome) : Oracle
  | _, .now => (1000000 : Int)
  | _, .start _ _ => start
  | _, .terminateAndWait _ _ _ => termination

/-- A new scheduler without a resolver, then the operations, with at most 40 steps each. -/
def sampleRun (m : Regime) (o : Oracle) (operations : List Operation) :
    Config Unit World SchedulerError Answer :=
  driveAll m samplePolicy o 40 (session.start samplePolicy)
    (.construct samplePolicy (fun _ => none) :: operations.map .operation)

theorem sampleRun_reached {o : Oracle} (ho : ∀ w r, m.allows w r (o w r))
    {operations : List Operation} (hadmits : ∀ op ∈ operations, ∀ w, m.admits w op)
    (hresolves : m.resolves fun _ => none) :
    Reached m samplePolicy (sampleRun m o operations) :=
  driveAll_run ho 40 _ (fun op hop => hadmits op (by simpa using hop)) fun other resolver h => by
    obtain ⟨-, rfl⟩ : other = samplePolicy ∧ resolver = fun _ => none := by simpa using h
    exact hresolves

theorem sampleRun_free (o : Oracle) (operations : List Operation) :
    Reached .free samplePolicy (sampleRun .free o operations) :=
  sampleRun_reached (fun _ _ => trivial) (fun _ _ _ => Regime.free_admits _) trivial

end NovaRtl.Scheduler
