import NovaRtl.Scheduler.Leases

/-!
# Dispatch and cancellation by two clients

Two clients share one scheduler: one dispatches, the other cancels, and each atomic step of
one may fall between any two of the other. A client that reserves a job holds its token until
it calls `start`; `Act` lists the steps a client can make and what they do to its tokens. The
tokens of the two clients are disjoint, so no job is started twice.

A job that is cancelled between its reservation and its start may be started after its
termination was confirmed. `Timing.orderly` excludes exactly this: no worker is started that is
known to have ended. Then no final job has a running worker.
-/

namespace NovaRtl.Scheduler

open Transact Transact.Prog

inductive Client where
  | dispatcher | canceller
  deriving DecidableEq

/-- Which calls of `start` may happen. -/
inductive Timing where
  | arbitrary
  /-- No worker is started that is known to have ended. -/
  | orderly
  deriving DecidableEq

def Timing.env (timing : Timing) : Env World Answer where
  allows
    | w, .start job _, _ => timing = .orderly → w.gone job = false
    | _, _, _ => True
  effect r a w := w.answered r a

inductive Client.Invokes (policy : SchedulerPolicy) (w : World) : Client → Op Unit → Prop where
  | dispatch : w.online = true → Invokes policy w .dispatcher (dispatch policy)
  | cancel (job : EntityId) (logs : List ArtifactRef) :
      w.online = true → Invokes policy w .canceller (cancel policy job logs)

/-- The two clients. The process does not stop. -/
def concurrent (timing : Timing) (policy : SchedulerPolicy) :
    System Client World SchedulerError Answer where
  env := timing.env
  invokes client w p := Client.Invokes policy w client p
  mayHalt _ := False
  halted := id

/-- No job is final while its worker may be running, and no job was started twice. -/
structure StartedOnce (w : World) : Prop where
  ended : ∀ r ∈ w.db.jobs, r.status.terminal → w.alive r.jobId = false
  once : ∀ job, w.starts job ≤ 1

variable {timing : Timing} {policy : SchedulerPolicy} {w t u : World} {job : EntityId}
  {g g' : Set EntityId} {r : JobRecord} {α β : Type}

/-! ## What the clients do -/

/-- The worker of the job has ended or was never started, and it will not be started. -/
def Over (w : World) (job : EntityId) : Prop :=
  (w.gone job = true ∧ w.alive job = false) ∨
  (¬ Dispatched w.db job ∧ ∃ r ∈ w.db.jobs, r.jobId = job ∧ r.status ≠ .queued)

/-- A job in the queue was never reserved. -/
def Fresh (w : World) : Prop := ∀ r ∈ w.db.jobs, r.status = .queued → ¬ Dispatched w.db r.jobId

/-- The steps of a client that holds the tokens `g`, and the tokens it holds afterwards. -/
inductive Act (timing : Timing) : Set EntityId → World → World → Set EntityId → Prop where
  | unchanged (g : Set EntityId) (w : World) : Act timing g w w g
  | workers (g : Set EntityId) (w : World) (workers : EntityId → Option WorkerControl) :
      Act timing g w (w.withWorkers workers) g
  | ended (g : Set EntityId) (w : World) (job : EntityId) : Act timing g w (w.ended job) g
  | reserved {g : Set EntityId} {w : World} {r : JobRecord} (now : Instant) :
      r ∈ w.db.jobs → r.status = .queued →
      Act timing g w (w.reserve r.jobId now) (insert r.jobId g)
  | started {g : Set EntityId} {w : World} {job : EntityId} :
      job ∈ g → (timing = .orderly → w.gone job = false) →
      Act timing g w (w.started job) (g \ {job})
  | moved {g : Set EntityId} {w : World} {r : JobRecord} (set : JobProgress → JobProgress)
      (eventType : EventType) (now : Instant) (logs : List ArtifactRef)
      (errorCode : Option String) :
      r ∈ w.db.jobs → (set r.toJobProgress).status ≠ .queued → eventType ≠ .dispatching →
      (timing = .orderly → (set r.toJobProgress).status.terminal → Over w r.jobId) →
      Act timing g w (w.move r.jobId set eventType now logs errorCode) g

/-- What no step takes back. -/
structure Kept (timing : Timing) (w t : World) : Prop where
  fresh : Fresh w → Fresh t
  settled : timing = .orderly → ∀ job, Over w job → Over t job

instance : Std.Refl (Kept timing) := ⟨fun _ => ⟨id, fun _ _ => id⟩⟩

instance : IsTrans World (Kept timing) :=
  ⟨fun _ _ _ h h' => ⟨h'.fresh ∘ h.fresh, fun ho job => h'.settled ho job ∘ h.settled ho job⟩⟩

section Move

variable {set : JobProgress → JobProgress} {eventType : EventType} {now : Instant}
  {logs : List ArtifactRef} {errorCode : Option String}

theorem mem_move (hr : r ∈ w.db.jobs) {s : JobRecord} :
    s ∈ (w.move r.jobId set eventType now logs errorCode).db.jobs ↔
      s = r.withProgress set ∨ (s ∈ w.db.jobs ∧ s.jobId ≠ r.jobId) := Database.mem_setJob hr

theorem dispatched_move :
    Dispatched (w.move r.jobId set eventType now logs errorCode).db job ↔
      Dispatched w.db job ∨ (r.jobId = job ∧ eventType = .dispatching) :=
  dispatched_append (e := ⟨r.jobId, eventType, now, logs, errorCode⟩) rfl

/-- A row that leaves or keeps out of the queue. -/
theorem Fresh.move (h : Fresh w) (hr : r ∈ w.db.jobs)
    (hset : (set r.toJobProgress).status ≠ .queued) :
    Fresh (w.move r.jobId set eventType now logs errorCode) := by
  intro s hs hq
  rcases (mem_move hr).mp hs with rfl | ⟨hs, hne⟩
  · exact absurd hq hset
  · rw [dispatched_move]
    rintro (hd | ⟨hid, -⟩)
    · exact h s hs hq hd
    · exact hne hid.symm

theorem Over.move (h : Over w job) (hr : r ∈ w.db.jobs)
    (hset : (set r.toJobProgress).status ≠ .queued)
    (hevent : eventType = .dispatching → r.status = .queued) :
    Over (w.move r.jobId set eventType now logs errorCode) job := by
  rcases h with hgone | ⟨hnot, s, hs, rfl, hq⟩
  · exact .inl hgone
  · refine .inr ⟨?_, ?_⟩
    · rw [dispatched_move]
      rintro (hd | ⟨hid, htype⟩)
      · exact hnot hd
      · rw [← Database.eq_of_jobId hr hs hid] at hq
        exact hq (hevent htype)
    · by_cases hid : s.jobId = r.jobId
      · exact ⟨_, (mem_move hr).mpr (.inl rfl), hid.symm, hset⟩
      · exact ⟨s, (mem_move hr).mpr (.inr ⟨hs, hid⟩), rfl, hq⟩

end Move

theorem Act.kept (h : Act timing g w t g') : Kept timing w t := by
  cases h with
  | unchanged => exact refl_of (Kept timing) w
  | workers ws => exact ⟨id, fun _ _ => id⟩
  | ended other =>
    refine ⟨id, fun _ job h => h.imp_left fun ⟨hgone, halive⟩ => ?_⟩
    by_cases hjob : job = other
    · subst hjob; simp [World.ended]
    · simp [World.ended, hjob, hgone, halive]
  | reserved now hr hq =>
    exact ⟨fun hf => hf.move hr (by simp), fun _ _ ho => ho.move hr (by simp) fun _ => hq⟩
  | @started other _ hgone =>
    refine ⟨id, fun ho job h => h.imp_left fun ⟨hgone', halive⟩ => ?_⟩
    have hne : job ≠ other := by
      rintro rfl
      rw [hgone ho] at hgone'
      cases hgone'
    simpa [World.started, hne] using ⟨hgone', halive⟩
  | moved set eventType now logs code hr hset hevent _ =>
    exact ⟨fun hf => hf.move hr hset, fun _ _ ho => ho.move hr hset fun h => absurd h hevent⟩

/-! ## Tokens -/

/-- The jobs that each client has reserved and not yet started, and what they say about the
state. -/
structure Tokens (timing : Timing) (tokens : Client → Set EntityId) (w : World) : Prop where
  disjoint : ∀ {i j job}, job ∈ tokens i → job ∈ tokens j → i = j
  unstarted : ∀ {i job}, job ∈ tokens i → w.starts job = 0
  reserved : ∀ {i job}, job ∈ tokens i → Dispatched w.db job
  live : timing = .orderly → ∀ {i job}, job ∈ tokens i →
    ∀ r ∈ w.db.jobs, r.jobId = job → r.status.terminal → w.gone job = true
  fresh : Fresh w
  untouched : ∀ {job}, ¬ Dispatched w.db job → w.starts job = 0 ∧ w.alive job = false
  once : ∀ job, w.starts job ≤ 1
  ended : timing = .orderly → ∀ r ∈ w.db.jobs, r.status.terminal → w.alive r.jobId = false

variable {tokens : Client → Set EntityId} {client other : Client}

theorem mem_update {tokens : Client → Set EntityId} :
    job ∈ Function.update tokens client g other ↔
      (other = client ∧ job ∈ g) ∨ (other ≠ client ∧ job ∈ tokens other) := by
  rcases eq_or_ne other client with rfl | h
  · simp
  · simp [h]

/-- Fewer tokens say less. -/
theorem Tokens.subset (h : Tokens timing tokens w) {tokens' : Client → Set EntityId}
    (hsub : ∀ i, tokens' i ⊆ tokens i) : Tokens timing tokens' w where
  disjoint hi hj := h.disjoint (hsub _ hi) (hsub _ hj)
  unstarted hi := h.unstarted (hsub _ hi)
  reserved hi := h.reserved (hsub _ hi)
  live ho _ _ hi := h.live ho (hsub _ hi)
  fresh := h.fresh
  untouched := h.untouched
  once := h.once
  ended := h.ended

theorem Tokens.ended' (h : Tokens timing tokens w) (job : EntityId) :
    Tokens timing tokens (w.ended job) where
  disjoint := h.disjoint
  unstarted := h.unstarted
  reserved := h.reserved
  live ho i other hi r hr hid hterm := by
    have := h.live ho hi r hr hid hterm
    simp only [World.ended, Function.update_apply]
    split
    · rfl
    · exact this
  fresh := h.fresh
  untouched hd := by
    obtain ⟨hs, ha⟩ := h.untouched hd
    refine ⟨hs, ?_⟩
    simp only [World.ended, Function.update_apply]
    split
    · rfl
    · exact ha
  once := h.once
  ended ho r hr hterm := by
    have := h.ended ho r hr hterm
    simp only [World.ended, Function.update_apply]
    split
    · rfl
    · exact this

/-- The tokens after a move that reserves nothing. -/
theorem Tokens.move (h : Tokens timing tokens w) (hr : r ∈ w.db.jobs)
    {set : JobProgress → JobProgress} {eventType : EventType} (now : Instant)
    (logs : List ArtifactRef) (errorCode : Option String)
    (hset : (set r.toJobProgress).status ≠ .queued)
    (hover : timing = .orderly → (set r.toJobProgress).status.terminal → Over w r.jobId) :
    Tokens timing tokens (w.move r.jobId set eventType now logs errorCode) where
  disjoint := h.disjoint
  unstarted := h.unstarted
  reserved hi := dispatched_move.mpr (.inl (h.reserved hi))
  live ho i job hi s hs hid hterm := by
    rcases (mem_move hr).mp hs with rfl | ⟨hs, -⟩
    · obtain ⟨hgone, -⟩ | ⟨hnot, -⟩ := hover ho hterm
      · exact hid ▸ hgone
      · exact absurd (h.reserved hi) (hid ▸ hnot)
    · exact h.live ho hi s hs hid hterm
  fresh := h.fresh.move hr hset
  untouched hd := h.untouched fun hd' => hd (dispatched_move.mpr (.inl hd'))
  once := h.once
  ended ho s hs hterm := by
    rcases (mem_move hr).mp hs with rfl | ⟨hs, -⟩
    · obtain ⟨-, halive⟩ | ⟨hnot, -⟩ := hover ho hterm
      · exact halive
      · exact (h.untouched hnot).2
    · exact h.ended ho s hs hterm

/-- A job that leaves the queue was nobody's, and its token goes to the client that takes it. -/
theorem Tokens.reserve (h : Tokens timing tokens w) (hr : r ∈ w.db.jobs) (hq : r.status = .queued)
    (now : Instant) (client : Client) :
    Tokens timing (Function.update tokens client (insert r.jobId (tokens client)))
      (w.reserve r.jobId now) := by
  have hmoved : Tokens timing tokens (w.reserve r.jobId now) :=
    h.move hr now [] none (by simp) fun _ hterm => Bool.noConfusion hterm
  have hnot : ¬ Dispatched w.db r.jobId := h.fresh r hr hq
  have hnew : ∀ {i job}, job ∈ Function.update tokens client (insert r.jobId (tokens client)) i →
      (i = client ∧ job = r.jobId) ∨ job ∈ tokens i := by
    intro i job hi
    rcases mem_update.mp hi with ⟨rfl, rfl | hi⟩ | ⟨-, hi⟩
    · exact .inl ⟨rfl, rfl⟩
    · exact .inr hi
    · exact .inr hi
  refine { hmoved with
    disjoint := fun {i j job} hi hj => ?_, unstarted := fun {i job} hi => ?_,
    reserved := fun {i job} hi => ?_, live := fun ho {i job} hi s hs hid hterm => ?_ }
  · rcases hnew hi with ⟨rfl, rfl⟩ | hi' <;> rcases hnew hj with ⟨rfl, hid⟩ | hj'
    · rfl
    · exact absurd (h.reserved hj') hnot
    · exact absurd (h.reserved hi') (hid ▸ hnot)
    · exact h.disjoint hi' hj'
  · rcases hnew hi with ⟨-, rfl⟩ | hi
    · exact (h.untouched hnot).1
    · exact h.unstarted hi
  · rcases hnew hi with ⟨-, rfl⟩ | hi
    · exact dispatched_move.mpr (.inr ⟨rfl, rfl⟩)
    · exact hmoved.reserved hi
  · rcases hnew hi with ⟨-, rfl⟩ | hi
    · rcases (mem_move hr).mp hs with rfl | ⟨-, hne⟩
      · exact Bool.noConfusion hterm
      · exact absurd hid hne
    · exact hmoved.live ho hi s hs hid hterm

/-- A start spends the token of its job. -/
theorem Tokens.start (h : Tokens timing tokens w) (hjob : job ∈ tokens client)
    (hgone : timing = .orderly → w.gone job = false) :
    Tokens timing (Function.update tokens client (tokens client \ {job})) (w.started job) := by
  have hold : ∀ {i other}, other ∈ Function.update tokens client (tokens client \ {job}) i →
      other ∈ tokens i ∧ other ≠ job := by
    intro i other hi
    rcases mem_update.mp hi with ⟨rfl, hi'⟩ | ⟨hne, hi'⟩
    · exact hi'
    · exact ⟨hi', fun heq => hne (h.disjoint hi' (heq ▸ hjob))⟩
  exact {
    disjoint := fun hi hj => h.disjoint (hold hi).1 (hold hj).1
    unstarted := fun hi => by
      simpa [World.started, (hold hi).2] using h.unstarted (hold hi).1
    reserved := fun hi => h.reserved (hold hi).1
    live := fun ho _ _ hi => h.live ho (hold hi).1
    fresh := h.fresh
    untouched := fun {other} hd => by
      have hne : other ≠ job := by
        rintro rfl
        exact hd (h.reserved hjob)
      simpa [World.started, hne] using h.untouched hd
    once := fun other => by
      by_cases he : other = job
      · subst he; simp [World.started, h.unstarted hjob]
      · simpa [World.started, he] using h.once other
    ended := fun ho r hr hterm => by
      -- the row is not final: otherwise its worker is known to have ended
      have hne : r.jobId ≠ job := fun hid => by
        have := h.live ho hjob r hr hid hterm
        rw [hgone ho] at this
        cases this
      simpa [World.started, hne] using h.ended ho r hr hterm }

theorem Tokens.act (h : Tokens timing tokens w) (hact : Act timing (tokens client) w t g') :
    Tokens timing (Function.update tokens client g') t := by
  have hsame : Function.update tokens client (tokens client) = tokens :=
    Function.update_eq_self client tokens
  cases hact with
  | unchanged => rwa [hsame]
  | workers ws => exact hsame.symm ▸ { h with }
  | ended job => exact hsame.symm ▸ h.ended' job
  | reserved now hr hq => exact h.reserve hr hq now client
  | started hjob hgone => exact h.start hjob hgone
  | moved set eventType now logs code hr hset _ hover =>
    exact hsame.symm ▸ h.move hr now logs code hset hover

/-! ## The programs of the clients -/

/-- Whatever the other client does between its steps, the program makes only steps of `Act`. -/
abbrev Guarded (timing : Timing) (p : Op α) (g : Set EntityId) (w : World) : Prop :=
  Safe timing.env (Kept timing) (Act timing) (fun _ _ t => Fresh t) p g w

section Rules

variable {p : Op α} {k : α → Op β}

theorem guarded_ret (hw : Fresh w) (a : α) : Guarded timing (.ret a) g w :=
  fun _ ht => ht.fresh hw

theorem guarded_throw (hw : Fresh w) (e : SchedulerError) :
    Guarded timing (.throw e : Op α) g w := fun _ ht => ht.fresh hw

theorem Guarded.bind (hp : Guarded timing p g w)
    (hk : ∀ a g' t, Fresh t → Guarded timing (k a) g' t) : Guarded timing (p >>= k) g w := by
  refine Safe.bind (hp.weaken (fun _ _ _ _ h => h) fun result g' t ht => ?_)
  cases result with
  | ok a => exact hk a g' t ht
  | error e => exact ht

theorem guarded_lift (hw : Fresh w) {x : Except SchedulerError α}
    (h : ∀ a, x = .ok a → Guarded timing (k a) g w) : Guarded timing (lift x >>= k) g w := by
  cases x with
  | ok a => exact h a rfl
  | error e => exact guarded_throw hw e

/-- What a transaction may do to a state, and what has to hold of the rest of the program. -/
abbrev Commits (timing : Timing) (f : Transaction α) (k : α → Op β) (g : Set EntityId)
    (t : World) : Prop :=
  match f t with
  | .ok (a, u) => ∃ g', Act timing g t u g' ∧ Guarded timing (k a) g' u
  | .error _ => Fresh t

theorem guarded_transactNow {f : Instant → Transaction α}
    (h : ∀ now t, Kept timing w t → Commits timing (f now) k g t) :
    Guarded timing (transactNow f >>= k) g w := by
  intro t ht now _
  refine ⟨g, .unchanged g t, fun u hu => ?_⟩
  have hcommits := h now u (trans_of (Kept timing) ht hu)
  unfold Commits at hcommits
  split at hcommits
  · next heq => rw [heq]; exact hcommits
  · next heq => rw [heq]; exact fun v hv => hv.fresh hcommits

theorem guarded_read {f : World → α} (h : ∀ a t, Kept timing w t → Guarded timing (k a) g t) :
    Guarded timing (read f >>= k) g w :=
  fun t ht => ⟨g, .unchanged g t, h (f t) t ht⟩

theorem guarded_setWorker {k : Unit → Op α} {worker : Option WorkerControl}
    (h : ∀ t, Kept timing w t → Guarded timing (k ()) g t) :
    Guarded timing (setWorker job worker >>= k) g w := by
  intro t ht
  have hact : Act timing g t _ g := .workers g t (Function.update t.workers job worker)
  exact ⟨g, hact, h _ (trans_of (Kept timing) ht hact.kept)⟩

theorem guarded_requireWorker (hw : Fresh w) {k : WorkerControl → Op α}
    (h : ∀ worker t, Kept timing w t → Guarded timing (k worker) g t) :
    Guarded timing (requireWorker job >>= k) g w := by
  rw [requireWorker, bind_assoc]
  refine guarded_read fun worker t ht => ?_
  cases worker with
  | none => exact guarded_throw (ht.fresh hw) _
  | some worker => exact h worker t ht

theorem guarded_callStart {k : StartOutcome → Op α} {worker : WorkerControl} (hjob : job ∈ g)
    (h : ∀ outcome t, Kept timing w t → Guarded timing (k outcome) (g \ {job}) t) :
    Guarded timing (callStart job worker >>= k) g w := by
  intro t ht outcome hallow
  have hact : Act timing g t _ _ := .started hjob hallow
  exact ⟨_, hact, h outcome _ (trans_of (Kept timing) ht hact.kept)⟩

theorem act_afterTermination (g : Set EntityId) (w : World) (job : EntityId)
    (termination : Option WorkerTermination) :
    Act timing g w (w.afterTermination job termination) g := by
  cases termination with
  | none => exact .unchanged g w
  | some termination =>
    unfold World.afterTermination
    dsimp only
    split
    · exact .ended g w job
    · exact .unchanged g w

theorem over_afterTermination {termination : Option WorkerTermination}
    (h : confirmed termination) : Over (w.afterTermination job termination) job := by
  refine .inl ⟨?_, afterTermination_alive w job termination h⟩
  cases termination with
  | none => simp [confirmed] at h
  | some termination =>
    have hterminated : termination.terminated = true := h
    simp [World.afterTermination, hterminated, World.ended]

theorem guarded_attemptTermination (hw : Fresh w) {site : CallSite} {worker : WorkerControl}
    {k : Option WorkerTermination → Op α}
    (h : ∀ termination t, Kept timing w t → (confirmed termination → Over t job) →
      Guarded timing (k termination) g t) :
    Guarded timing (attemptTermination site job worker >>= k) g w := by
  have hreturn : ∀ termination t, Kept timing w t →
      Act timing g t (t.afterTermination job termination) g ∧
        Guarded timing (k termination) g (t.afterTermination job termination) := by
    intro termination t ht
    have hact := @act_afterTermination timing g t job termination
    exact ⟨hact, h termination _ (trans_of (Kept timing) ht hact.kept) over_afterTermination⟩
  intro t ht outcome _
  cases outcome with
  | returned termination => exact ⟨g, hreturn (some termination) t ht⟩
  | raised => exact ⟨g, hreturn none t ht⟩
  | interrupted => exact ⟨g, .unchanged g t, guarded_throw (ht.fresh hw) _⟩

end Rules

/-- A transaction that moves the row of `job` out of `expected`, or finds none. -/
theorem exists_row_or_absent (w : World) (job : EntityId) (expected : JobStatus) :
    (∃ r ∈ w.db.jobs, r.jobId = job ∧ r.status = expected) ∨
      ∀ s ∈ w.db.jobs, ¬ (s.jobId = job ∧ s.status = expected) := by
  by_cases h : ∃ r ∈ w.db.jobs, r.jobId = job ∧ r.status = expected
  · exact .inl h
  · exact .inr fun s hs hrow => h ⟨s, hs, hrow⟩

theorem quarantine_guarded (hw : Fresh w) (logs : List ArtifactRef) (errorCode : String)
    (expected : JobStatus) :
    Guarded timing (quarantine job logs errorCode expected) g w := by
  rw [quarantine, ← bind_ret (transactNow _)]
  refine guarded_transactNow fun now t ht => ?_
  obtain ⟨r, hr, rfl, hs⟩ | habsent := exists_row_or_absent t job expected
  · rw [Commits, commitQuarantine_eq hr hs]
    have hact : Act timing g t (t.enterQuarantine r.jobId logs now errorCode) g :=
      .moved _ _ now _ _ hr (by simp) (by simp) fun _ hterm => Bool.noConfusion hterm
    exact ⟨g, hact, guarded_ret (hact.kept.fresh (ht.fresh hw)) ()⟩
  · rw [Commits, commitQuarantine_absent habsent]
    exact ht.fresh hw

/-- `_finish` ends a job whose worker is over. -/
theorem finishOnly_guarded (hw : Fresh w) {status : FinalStatus} (hstatus : status ≠ .completed)
    (hover : timing = .orderly → Over w job) (logs : List ArtifactRef)
    (errorCode : Option String) (expected : JobStatus) :
    Guarded timing (finishOnly job status logs errorCode expected) g w := by
  unfold finishOnly
  refine guarded_lift hw fun _ _ => guarded_transactNow fun now t ht => ?_
  obtain ⟨r, hr, rfl, hs⟩ | habsent := exists_row_or_absent t job expected
  · have hrow : t.finishJob r.jobId logs now status errorCode =
        t.finishRow r.jobId logs now status errorCode := if_neg hstatus
    have hact : Act timing g t (t.finishRow r.jobId logs now status errorCode) g :=
      .moved _ _ now _ _ hr (by cases status <;> simp [FinalStatus.status])
        (by cases status <;> simp [FinalStatus.eventType])
        fun ho _ => ht.settled ho _ (hover ho)
    rw [Commits, commitFinish_eq hr hs, hrow]
    refine ⟨g, hact, ?_⟩
    rw [← bind_ret (setWorker _ _)]
    exact guarded_setWorker fun u hu => guarded_ret (hu.fresh (hact.kept.fresh (ht.fresh hw))) ()
  · rw [Commits, commitFinish_absent habsent]
    exact ht.fresh hw

theorem recoverStart_guarded (hw : Fresh w) (worker : WorkerControl) :
    Guarded timing (recoverStart job worker) g w := by
  unfold recoverStart
  refine guarded_attemptTermination hw fun termination t ht hover => ?_
  split
  · next hconfirmed =>
    exact finishOnly_guarded (ht.fresh hw) (by simp) (fun _ => hover hconfirmed) ..
  · exact quarantine_guarded (ht.fresh hw) _ _ _

theorem abandonStart_guarded (hw : Fresh w) (worker : WorkerControl) :
    Guarded timing (abandonStart job worker) g w := by
  unfold abandonStart
  exact guarded_attemptTermination hw fun _ t ht _ => guarded_throw (ht.fresh hw) _

/-- One pass of the loop spends the token of the job that it starts. -/
theorem startReserved_guarded (hw : Fresh w) (hjob : job ∈ g) :
    Guarded timing (startReserved job) g w := by
  unfold startReserved
  refine guarded_requireWorker hw fun worker t ht => guarded_callStart hjob fun outcome u hu => ?_
  have hu' := hu.fresh (ht.fresh hw)
  cases outcome with
  | interrupted => exact guarded_throw hu' _
  | raised => exact recoverStart_guarded hu' worker
  | returned =>
    refine guarded_transactNow fun now v hv => ?_
    have hv' := hv.fresh hu'
    obtain ⟨r, hr, rfl, hs⟩ | habsent := exists_row_or_absent v job .dispatching
    · rw [Commits, commitRunning_eq hr hs]
      have hact : Act timing (g \ {r.jobId}) v (v.startRunning r.jobId now) (g \ {r.jobId}) :=
        .moved _ _ now _ _ hr (by simp) (by simp) fun _ hterm => Bool.noConfusion hterm
      exact ⟨_, hact, guarded_ret (hact.kept.fresh hv') ()⟩
    · rw [Commits, commitRunning_absent habsent]
      exact ⟨_, .unchanged _ v, abandonStart_guarded hv' worker⟩

theorem dispatchLoop_guarded (policy : SchedulerPolicy) (fuel : ℕ) (hw : Fresh w) :
    Guarded timing (dispatchLoop policy fuel) g w := by
  induction fuel generalizing g w with
  | zero => exact guarded_throw hw _
  | succ fuel ih =>
    unfold dispatchLoop
    refine guarded_transactNow fun now t ht => ?_
    have ht' := ht.fresh hw
    obtain ⟨herr, -⟩ | ⟨hnone, -⟩ | ⟨r, hr, hs, -, hsome⟩ := reserveNextDispatch_cases policy now t
    · rw [Commits, herr]
      exact ht'
    · rw [Commits, hnone]
      exact ⟨g, .unchanged g t, guarded_ret ht' ()⟩
    · rw [Commits, hsome]
      have hact : Act timing g t (t.reserve r.jobId now) (insert r.jobId g) := .reserved now hr hs
      refine ⟨_, hact, Guarded.bind (startReserved_guarded (hact.kept.fresh ht') ?_)
        fun _ _ u hu => ih hu⟩
      exact Set.mem_insert r.jobId g

theorem dispatch_guarded (policy : SchedulerPolicy) (hw : Fresh w) :
    Guarded timing (dispatch policy) g w := by
  unfold dispatch
  exact guarded_read fun _ t ht => dispatchLoop_guarded policy _ (ht.fresh hw)

theorem finish_guarded (policy : SchedulerPolicy) (hw : Fresh w) {status : FinalStatus}
    (hstatus : status ≠ .completed) (hover : timing = .orderly → Over w job)
    (logs : List ArtifactRef) (errorCode : Option String) (expected : JobStatus) :
    Guarded timing (finish policy job status logs errorCode expected) g w := by
  unfold finish
  exact (finishOnly_guarded hw hstatus hover ..).bind fun _ _ t ht => dispatch_guarded policy ht

/-- After the request: a job that was in the queue is over, any other is asked for its end. -/
theorem settleCancellation_guarded (policy : SchedulerPolicy) (hw : Fresh w) {prior : JobStatus}
    (hqueued : prior = .queued → Over w job) (errorCode : Option String)
    (merged : List ArtifactRef) :
    Guarded timing (settleCancellation policy job errorCode prior merged) g w := by
  unfold settleCancellation
  split
  · next hprior => exact finish_guarded policy hw (by simp) (fun _ => hqueued hprior) ..
  · refine guarded_read fun worker t ht => ?_
    have hend : ∀ termination u, Kept timing t u → (confirmed termination → Over u job) →
        Guarded timing (do
          let completedLogs ← lift (mergeArtifacts merged (terminationLogs termination))
          if confirmed termination then
            finish policy job .cancelled completedLogs errorCode .cancelling
          else
            quarantine job completedLogs "WORKER_TERMINATION_UNCONFIRMED" .cancelling) g u := by
      intro termination u hu hover
      have hu' := hu.fresh (ht.fresh hw)
      refine guarded_lift hu' fun logs _ => ?_
      split
      · next hconfirmed =>
        exact finish_guarded policy hu' (by simp) (fun _ => hover hconfirmed) ..
      · exact quarantine_guarded hu' _ _ _
    cases worker with
    | none => exact hend none t (refl_of (Kept timing) t) fun h => by simp [confirmed] at h
    | some worker => exact guarded_attemptTermination (ht.fresh hw) hend

theorem cancelJob_guarded (policy : SchedulerPolicy) (hw : Fresh w) (logs : List ArtifactRef)
    (errorCode : Option String) (skip : Bool) :
    Guarded timing (cancelJob policy job logs errorCode skip) g w := by
  unfold cancelJob
  refine guarded_lift hw fun _ _ => guarded_transactNow fun now t ht => ?_
  have ht' := ht.fresh hw
  obtain ⟨e, herr⟩ | ⟨hnone, -, -⟩ | ⟨r, merged, hr, rfl, -, -, -, hsome⟩ :=
    requestCancellation_cases job logs errorCode skip now t
  · rw [Commits, herr]
    exact ht'
  · rw [Commits, hnone]
    exact ⟨g, .unchanged g t, guarded_ret ht' false⟩
  · rw [Commits, hsome]
    have hact : Act timing g t (t.requestCancel r.jobId merged now errorCode) g :=
      .moved _ _ now _ _ hr (by simp) (by simp) fun _ hterm => Bool.noConfusion hterm
    have hu := hact.kept.fresh ht'
    -- a job that was in the queue has no worker, and it cannot be reserved any more
    have hover : r.status = .queued → Over (t.requestCancel r.jobId merged now errorCode) r.jobId := by
      intro hq
      refine .inr ⟨fun hd => ?_, _, (mem_move hr).mpr (.inl rfl), rfl, by simp⟩
      rcases dispatched_move.mp hd with hd | ⟨-, h⟩
      · exact ht' r hr hq hd
      · cases h
    exact ⟨g, hact, (settleCancellation_guarded policy hu hover errorCode merged).bind
      fun _ _ v hv => guarded_ret hv true⟩

theorem client_guarded {p : Op Unit} (hw : Fresh w) (hp : Client.Invokes policy w client p) :
    Guarded timing p g w := by
  cases hp with
  | dispatch _ => exact dispatch_guarded policy hw
  | cancel job logs _ =>
    have hcancel : Guarded timing (cancelJob policy job logs none false) g w :=
      cancelJob_guarded policy hw logs none false
    exact hcancel.bind fun _ _ t ht => guarded_ret ht ()

/-! ## The system -/

theorem concurrent_certified (timing : Timing) (policy : SchedulerPolicy) :
    (concurrent timing policy).Certified (Tokens timing) (fun _ => Fresh)
      (fun _ => Kept timing) (fun _ => Act timing) ∅ where
  refl _ := inferInstance
  trans _ := inferInstance
  compatible _ hact := hact.kept
  preserved h hact := h.act hact
  dropped {_ i _} h := h.subset fun j => by
    rcases eq_or_ne j i with rfl | hj
    · simp
    · simp [hj]
  stable hw ht := ht.fresh hw
  invoked _ hw hp := client_guarded hw hp
  halted h _ := ⟨h.subset fun _ => Set.empty_subset _, fun _ => h.fresh⟩

/-! ## Runs from what one client leaves behind -/

/-- Jobs are started at most once, and only after a reservation. -/
def StartsReserved (w : World) : Prop :=
  ∀ job, w.starts job ≤ 1 ∧ (¬ Dispatched w.db job → w.starts job = 0)

theorem StartsReserved.frame {m : Regime} (hw : StartsReserved w) (h : Change m policy w t)
    (hstarts : t.starts = w.starts) : StartsReserved t := fun job => by
  rw [hstarts]
  exact ⟨(hw job).1, fun hd => (hw job).2 fun hd' => hd (hd'.mono h.durable.events_prefix)⟩

theorem Change.startsReserved {m : Regime} (h : Change m policy w t) (hinv : Inv policy w)
    (hw : StartsReserved w) : StartsReserved t := by
  have hframe := hw.frame h
  cases h with
  | @started r hr hs hzero _ =>
    intro job
    by_cases hid : job = r.jobId
    · subst hid
      refine ⟨by simp [World.started, hzero], fun hd => absurd ?_ hd⟩
      exact hinv.dispatched r hr (.inl hs)
    · simpa [World.started, hid] using hw job
  | finished now status code hr hs _ _ => exact hframe (finishJob_starts _ _ _ _ _)
  | _ => exact hframe rfl

/-- Before the two clients begin nobody holds a token. -/
theorem session_tokens {c : Config Unit World SchedulerError Answer}
    (hc : Reached .free policy c) (timing : Timing) :
    Tokens timing (fun _ => ∅) c.state := by
  have hmay : ∀ spec, Regime.free.mayStart spec := fun _ => trivial
  have hstarts : StartsReserved c.state :=
    session_invariant hmay (fun _ => ⟨Nat.zero_le 1, fun _ => rfl⟩)
      (fun hinv hG hw => hG.startsReserved hinv hw) id hc
  have halive := session_accounted hmay hc
  exact {
    disjoint := fun hi => absurd hi (Set.notMem_empty _)
    unstarted := fun hi => absurd hi (Set.notMem_empty _)
    reserved := fun hi => absurd hi (Set.notMem_empty _)
    live := fun _ _ _ hi => absurd hi (Set.notMem_empty _)
    fresh := fun r hr hq => (session_lifecycle hmay hc).not_dispatched hr hq
    untouched := fun {job} hd => by
      refine ⟨(hstarts job).2 hd, ?_⟩
      by_contra ha
      obtain ⟨r, -, rfl, hgranted⟩ := halive job (by simpa using ha)
      exact hd hgranted.2.2
    once := fun job => (hstarts job).1
    ended := fun _ r hr hterm => by
      by_contra ha
      obtain ⟨s, hs, hid, hgranted⟩ := halive r.jobId (by simpa using ha)
      obtain rfl := Database.eq_of_jobId hs hr hid
      simp [JobStatus.terminal, JobStatus.nonterminal, hgranted.2.1] at hterm }

/-- The two clients, on the state that a session left behind. -/
abbrev Interleaved (timing : Timing) (policy : SchedulerPolicy) (w : World)
    (c : Config Client World SchedulerError Answer) : Prop :=
  (concurrent timing policy).Run (.resting Client SchedulerError Answer w) c

theorem interleaved_tokens {c₀ : Config Unit World SchedulerError Answer}
    (hc₀ : Reached .free policy c₀) {c : Config Client World SchedulerError Answer}
    (hrun : Interleaved timing policy c₀.state c) : ∃ tokens, Tokens timing tokens c.state := by
  have htokens := session_tokens hc₀ timing
  have hstart : (concurrent timing policy).Sound (Tokens timing) (fun _ => Fresh)
      (fun _ => Kept timing) (fun _ => Act timing) (fun _ => ∅)
      (.resting Client SchedulerError Answer c₀.state) :=
    System.Sound.resting htokens fun _ => htokens.fresh
  obtain ⟨tokens, hsound⟩ := (concurrent_certified timing policy).sound hstart hrun
  exact ⟨tokens, hsound.1⟩

/-- No order of steps starts a job twice. -/
theorem starts_le_one {c₀ : Config Unit World SchedulerError Answer}
    (hc₀ : Reached .free policy c₀) {c : Config Client World SchedulerError Answer}
    (hrun : Interleaved timing policy c₀.state c) (job : EntityId) : c.state.starts job ≤ 1 := by
  obtain ⟨tokens, htokens⟩ := interleaved_tokens hc₀ hrun
  exact htokens.once job

theorem started_once_if_orderly {c₀ : Config Unit World SchedulerError Answer}
    (hc₀ : Reached .free policy c₀) {c : Config Client World SchedulerError Answer}
    (hrun : Interleaved .orderly policy c₀.state c) : StartedOnce c.state := by
  obtain ⟨tokens, htokens⟩ := interleaved_tokens hc₀ hrun
  exact ⟨htokens.ended rfl, htokens.once⟩

/-! ## Two jobs of one kind -/

/-- One job runs, and another one waits for its lease. -/
def twoJobs (o : Oracle) : Config Unit World SchedulerError Answer :=
  sampleRun .free o
    [.submit (sampleRequest "job_001" (some ⟨0⟩)), .submit (sampleRequest "job_002" (some ⟨1⟩))]

/-- Workers start and confirm every termination that a cancellation asks for. -/
def obligingWorkers : Oracle
  | _, .now => (1000000 : Int)
  | _, .start _ _ => .returned
  | _, .terminateAndWait .cancellation _ _ => .returned ⟨true, []⟩
  | _, .terminateAndWait _ _ _ => .raised

instance (timing : Timing) (policy : SchedulerPolicy) :
    (w : World) → (r : Request) → (a : Answer r) →
      Decidable ((concurrent timing policy).env.allows w r a)
  | w, .start job _, _ => inferInstanceAs (Decidable (timing = .orderly → w.gone job = false))
  | _, .now, _ => .isTrue trivial
  | _, .terminateAndWait _ _ _, _ => .isTrue trivial

/-- A client invokes a program on the state of `c` and takes `n` steps. -/
theorem interleaved_invoke {c : Config Client World SchedulerError Answer} {client : Client}
    {p : Op Unit} {o : Oracle} {n : ℕ} (hrun : Interleaved timing policy w c)
    (hrest : (c.running client).isNone) (hp : Client.Invokes policy c.state client p)
    (hplay : (concurrent timing policy).Playable o
      ⟨Function.update c.running client (some p), c.state⟩ (List.replicate n client)) :
    Interleaved timing policy w ((concurrent timing policy).perform o n c client p) :=
  (hrun.tail (.invoke (Option.isNone_iff_eq_none.mp hrest) hp)).trans (System.play_run hplay)

/-- The canceller ends the first job, and the dispatcher starts the second one before the
canceller gets to its own dispatch. Then the canceller ends the second job as well. -/
theorem started_once_if_orderly_sample :
    let S := concurrent .orderly samplePolicy
    let c₀ := twoJobs obligingWorkers
    let c₁ := S.perform obligingWorkers 6 (.resting Client SchedulerError Answer c₀.state)
      .canceller (cancel samplePolicy "job_001" [])
    let c₂ := S.perform obligingWorkers 40 c₁ .dispatcher (dispatch samplePolicy)
    let c₃ := S.play obligingWorkers c₂ (List.replicate 40 .canceller)
    let c₄ := S.perform obligingWorkers 40 c₃ .canceller (cancel samplePolicy "job_002" [])
    c₄.state.db.jobs.map (fun r => (r.status, c₄.state.starts r.jobId)) =
      [(.cancelled, 1), (.cancelled, 1)] ∧ StartedOnce c₄.state := by
  intro S c₀ c₁ c₂ c₃ c₄
  have hc₀ : Reached .free samplePolicy c₀ := sampleRun_free _ _
  have h₁ : Interleaved .orderly samplePolicy c₀.state c₁ :=
    interleaved_invoke .refl rfl (.cancel _ _ (by decide +kernel)) (by decide +kernel)
  have h₂ : Interleaved .orderly samplePolicy c₀.state c₂ :=
    interleaved_invoke h₁ (by decide +kernel) (.dispatch (by decide +kernel)) (by decide +kernel)
  have h₃ : Interleaved .orderly samplePolicy c₀.state c₃ :=
    h₂.trans (System.play_run (by decide +kernel))
  have h₄ : Interleaved .orderly samplePolicy c₀.state c₄ :=
    interleaved_invoke h₃ (by decide +kernel) (.cancel _ _ (by decide +kernel)) (by decide +kernel)
  exact ⟨by decide +kernel, started_once_if_orderly hc₀ h₄⟩

/-- The dispatcher reserves the second job, the canceller asks its worker to end, gets the
confirmation and cancels the job, and then the dispatcher starts the worker. -/
theorem started_after_cancellation :
    ¬ ∀ (policy : SchedulerPolicy) (c₀ : Config Unit World SchedulerError Answer)
      (c : Config Client World SchedulerError Answer),
      Reached .free policy c₀ → c₀.AtRest → c₀.state.online →
      Interleaved .arbitrary policy c₀.state c → StartedOnce c.state := by
  intro hsafe
  let S := concurrent .arbitrary samplePolicy
  let c₀ := twoJobs obligingWorkers
  let c₁ := S.perform obligingWorkers 6 (.resting Client SchedulerError Answer c₀.state)
    .canceller (cancel samplePolicy "job_001" [])
  -- four steps: the length of the queue, the clock, the reservation and the worker table
  let c₂ := S.perform obligingWorkers 4 c₁ .dispatcher (dispatch samplePolicy)
  let c₃ := S.play obligingWorkers c₂ (List.replicate 40 .canceller)
  let c₄ := S.perform obligingWorkers 40 c₃ .canceller (cancel samplePolicy "job_002" [])
  let c₅ := S.play obligingWorkers c₄ (List.replicate 40 .dispatcher)
  have hc₀ : Reached .free samplePolicy c₀ := sampleRun_free _ _
  have hrest : c₀.AtRest := atRest_of_isNone (by decide +kernel)
  have honline : c₀.state.online = true := by decide +kernel
  have h₁ : Interleaved .arbitrary samplePolicy c₀.state c₁ :=
    interleaved_invoke .refl rfl (.cancel _ _ honline) (by decide +kernel)
  have h₂ : Interleaved .arbitrary samplePolicy c₀.state c₂ :=
    interleaved_invoke h₁ (by decide +kernel) (.dispatch (by decide +kernel)) (by decide +kernel)
  have h₃ : Interleaved .arbitrary samplePolicy c₀.state c₃ :=
    h₂.trans (System.play_run (by decide +kernel))
  have h₄ : Interleaved .arbitrary samplePolicy c₀.state c₄ :=
    interleaved_invoke h₃ (by decide +kernel) (.cancel _ _ (by decide +kernel)) (by decide +kernel)
  have h₅ : Interleaved .arbitrary samplePolicy c₀.state c₅ :=
    h₄.trans (System.play_run (by decide +kernel))
  have halive : ∃ r ∈ c₅.state.db.jobs, r.status.terminal ∧ c₅.state.alive r.jobId = true := by
    decide +kernel
  obtain ⟨r, hr, hterm, halive⟩ := halive
  have hended := (hsafe samplePolicy c₀ c₅ hc₀ hrest honline h₅).ended r hr hterm
  rw [halive] at hended
  cases hended

end NovaRtl.Scheduler
