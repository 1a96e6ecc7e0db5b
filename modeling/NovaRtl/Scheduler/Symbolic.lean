import NovaRtl.Scheduler.Changes
import NovaRtl.Transact.Safety

/-!
# Symbolic execution of the operations

One rule for each building block of the operations, for any guarantee `G` and any result
`Q`. A rule names the world that a successful transaction leads to, so that the proofs
about whole operations never unfold a transaction.
-/

namespace NovaRtl.Scheduler

open Transact Transact.Prog

variable {E : Env World Answer} {G : World → World → Prop} {w : World} {α β : Type}
variable {Q : Except SchedulerError α → World → Prop}

/-- The surroundings act on the world as `World.answered` says. -/
class Faithful (E : Env World Answer) : Prop where
  effect_eq : ∀ r a w, E.effect r a w = w.answered r a

instance (m : Regime) : Faithful m.env := ⟨fun _ _ _ => rfl⟩

section Calls

variable [Faithful E]

theorem solo_utcNow {k : Instant → Op α} :
    Solo E G Q (utcNow >>= k) w ↔
      ∀ now, E.allows w .now now → G w w ∧ Solo E G Q (k now) w := by
  rw [show utcNow >>= k = Prog.call .now fun now => k now from rfl, solo_call]
  simp only [Faithful.effect_eq, World.answered]

theorem solo_transactNow {f : Instant → Transaction β} {k : β → Op α}
    (h : ∀ now, G w w ∧ match f now w with
      | .ok (b, t) => G w t ∧ Solo E G Q (k b) t
      | .error e => Q (.error e) w) : Solo E G Q (transactNow f >>= k) w := by
  rw [transactNow, bind_assoc, solo_utcNow]
  refine fun now _ => ⟨(h now).1, ?_⟩
  rw [solo_transact]
  have hnow := (h now).2
  cases hf : f now w with
  | ok b => simpa only [hf] using hnow
  | error e => simpa only [hf] using hnow

theorem solo_callStart {job : EntityId} {worker : WorkerControl} {k : StartOutcome → Op α} :
    Solo E G Q (callStart job worker >>= k) w ↔ ∀ outcome,
      E.allows w (.start job worker) outcome →
        G w (w.started job) ∧ Solo E G Q (k outcome) (w.started job) := by
  rw [show callStart job worker >>= k = Prog.call (.start job worker) fun o => k o from rfl,
    solo_call]
  simp only [Faithful.effect_eq, World.answered]
  rfl

end Calls

/-- The world after a termination call: a confirmed one ends the worker. -/
def World.afterTermination (w : World) (job : EntityId) : Option WorkerTermination → World
  | some termination => if termination.terminated then w.ended job else w
  | none => w

/-- The outcome that `_attempt_termination` turns into its result. -/
def outcomeOf : Option WorkerTermination → TerminateOutcome
  | some termination => .returned termination
  | none => .raised

@[simp] theorem outcomeOf_logs (termination : Option WorkerTermination) :
    (outcomeOf termination).logs = terminationLogs termination := by
  cases termination <;> rfl

@[simp] theorem outcomeOf_ne_interrupted (termination : Option WorkerTermination) :
    outcomeOf termination ≠ .interrupted := by
  cases termination <;> simp [outcomeOf]

theorem afterTermination_db (w : World) (job : EntityId) (termination : Option WorkerTermination) :
    (w.afterTermination job termination).db = w.db := by
  cases termination with
  | none => rfl
  | some t => unfold World.afterTermination; dsimp only; split <;> rfl

theorem afterTermination_workers (w : World) (job : EntityId)
    (termination : Option WorkerTermination) :
    (w.afterTermination job termination).workers = w.workers := by
  cases termination with
  | none => rfl
  | some t => unfold World.afterTermination; dsimp only; split <;> rfl

theorem afterTermination_online (w : World) (job : EntityId)
    (termination : Option WorkerTermination) :
    (w.afterTermination job termination).online = w.online := by
  cases termination with
  | none => rfl
  | some t => unfold World.afterTermination; dsimp only; split <;> rfl

theorem distinctIfTerminated_outcomeOf {termination : Option WorkerTermination}
    (h : confirmed termination → ((terminationLogs termination).map byArtifactId).Nodup) :
    DistinctIfTerminated (outcomeOf termination) := by
  rintro t ht hterminated
  cases termination with
  | none => cases ht
  | some _ => cases ht; exact h hterminated

theorem afterTermination_alive (w : World) (job : EntityId)
    (termination : Option WorkerTermination) (h : confirmed termination) :
    (w.afterTermination job termination).alive job = false := by
  cases termination with
  | none => simp [confirmed] at h
  | some t =>
    have ht : t.terminated = true := h
    simp [World.afterTermination, ht, World.ended]

theorem solo_attemptTermination [Faithful E] {site : CallSite} {job : EntityId}
    {worker : WorkerControl} {k : Option WorkerTermination → Op α}
    (hreturn : ∀ termination,
      E.allows w (.terminateAndWait site job worker) (outcomeOf termination) →
      G w (w.afterTermination job termination) ∧
        Solo E G Q (k termination) (w.afterTermination job termination))
    (hinterrupt : E.allows w (.terminateAndWait site job worker) .interrupted →
      G w w ∧ Q (.error .interrupted) w) :
    Solo E G Q (attemptTermination site job worker >>= k) w := by
  have hcall : attemptTermination site job worker >>= k =
      Prog.call (.terminateAndWait site job worker) fun outcome =>
        (match outcome with
          | .returned termination => .ret (some termination)
          | .raised => .ret none
          | .interrupted => .throw .interrupted) >>= k := by
    simp only [attemptTermination, callTerminate, call_bind, ret_bind]
    congr 1
    funext outcome
    cases outcome <;> rfl
  rw [hcall, solo_call]
  intro outcome hallow
  simp only [Faithful.effect_eq]
  cases outcome with
  | returned termination => exact hreturn (some termination) hallow
  | raised => exact hreturn none hallow
  | interrupted => exact ⟨(hinterrupt hallow).1, (solo_throw _).mpr (hinterrupt hallow).2⟩

theorem solo_requireWorker {job : EntityId} {worker : WorkerControl} {k : WorkerControl → Op α}
    (hworker : w.workers job = some worker) :
    Solo E G Q (requireWorker job >>= k) w ↔ G w w ∧ Solo E G Q (k worker) w := by
  rw [requireWorker, bind_assoc, solo_read, hworker]
  rfl

theorem solo_setWorker {job : EntityId} {worker : Option WorkerControl} {k : Unit → Op α} :
    Solo E G Q (setWorker job worker >>= k) w ↔
      G w (w.withWorkers (Function.update w.workers job worker)) ∧
        Solo E G Q (k ()) (w.withWorkers (Function.update w.workers job worker)) :=
  solo_modify _ _

theorem solo_jobRecord {job : EntityId} {k : JobRecord → Op α} :
    Solo E G Q (jobRecord job >>= k) w ↔ G w w ∧
      (∀ r ∈ w.db.jobs, r.jobId = job → Solo E G Q (k r) w) ∧
      ((∀ r ∈ w.db.jobs, r.jobId ≠ job) → Q (.error (unknownJob job)) w) := by
  rw [jobRecord, bind_assoc, solo_read]
  refine and_congr_right fun _ => ?_
  cases hrow : w.db.row? job with
  | none =>
    have hnone := Database.row?_eq_none.mp hrow
    simp only [throw_bind, solo_throw]
    exact ⟨fun h => ⟨fun r hr hid => absurd hid (hnone r hr), fun _ => h⟩, fun h => h.2 hnone⟩
  | some r =>
    obtain ⟨hr, hid⟩ := Database.row?_eq_some.mp hrow
    simp only [pure_eq, ret_bind]
    refine ⟨fun h => ⟨fun s hs hsid => ?_, fun hnone => absurd hid (hnone r hr)⟩,
      fun h => h.1 r hr hid⟩
    obtain rfl := Database.eq_of_jobId hs hr (hsid.trans hid.symm)
    exact h

theorem lift_validateArtifacts {logs : List ArtifactRef} {k : Unit → Op α}
    (hok : (logs.map byArtifactId).Nodup → Solo E G Q (k ()) w)
    (herror : ¬ (logs.map byArtifactId).Nodup →
      Q (.error (.valueError "partial log artifact IDs must be unique")) w) :
    Solo E G Q (lift (validateArtifacts logs) >>= k) w := by
  rw [solo_lift]
  unfold validateArtifacts
  by_cases h : (logs.map byArtifactId).Nodup
  · simpa only [if_pos h] using hok h
  · simpa only [if_neg h] using herror h

section Moves

variable [Faithful E] {Q : Except SchedulerError Unit → World → Prop} {r : JobRecord}
  {logs : List ArtifactRef} {expected : JobStatus}

theorem solo_quarantine {errorCode : String} (hr : r ∈ w.db.jobs) (hs : r.status = expected)
    (hrefl : G w w)
    (h : ∀ now, G w (w.enterQuarantine r.jobId logs now errorCode) ∧
      Q (.ok ()) (w.enterQuarantine r.jobId logs now errorCode)) :
    Solo E G Q (quarantine r.jobId logs errorCode expected) w := by
  unfold quarantine transactNow
  rw [solo_utcNow]
  refine fun now _ => ⟨hrefl, ?_⟩
  rw [transact, solo_commit, commitQuarantine_eq hr hs]
  exact ⟨(h now).1, (solo_ret _).mpr (h now).2⟩

/-- The world after `_finish`: the row is final and its worker is forgotten. -/
def World.finishAndForget (w : World) (job : EntityId) (logs : List ArtifactRef) (now : Instant)
    (status : FinalStatus) (errorCode : Option String) : World :=
  (w.finishJob job logs now status errorCode).withWorkers
    (Function.update (w.finishJob job logs now status errorCode).workers job none)

theorem solo_finishOnly {status : FinalStatus} {errorCode : Option String} (hr : r ∈ w.db.jobs)
    (hs : r.status = expected) (hrefl : G w w)
    (hok : (logs.map byArtifactId).Nodup → ∀ now,
      G w (w.finishJob r.jobId logs now status errorCode) ∧
      G (w.finishJob r.jobId logs now status errorCode)
        (w.finishAndForget r.jobId logs now status errorCode) ∧
      Q (.ok ()) (w.finishAndForget r.jobId logs now status errorCode))
    (herror : ¬ (logs.map byArtifactId).Nodup →
      Q (.error (.valueError "partial log artifact IDs must be unique")) w) :
    Solo E G Q (finishOnly r.jobId status logs errorCode expected) w := by
  unfold finishOnly
  refine lift_validateArtifacts (fun hnodup => ?_) herror
  refine solo_transactNow fun now => ⟨hrefl, ?_⟩
  rw [commitFinish_eq hr hs]
  obtain ⟨hfinish, hforget, hQ⟩ := hok hnodup now
  refine ⟨hfinish, ?_⟩
  rw [setWorker, Prog.modify, solo_commit]
  exact ⟨hforget, (solo_ret _).mpr hQ⟩

/-- `_finish` for a job that is not in the expected status raises and writes nothing. -/
theorem solo_finishOnly_absent {job : EntityId} {status : FinalStatus}
    {errorCode : Option String} (h : ∀ s ∈ w.db.jobs, ¬ (s.jobId = job ∧ s.status = expected))
    (hrefl : G w w) (hQ : ∀ e, Q (.error e) w) :
    Solo E G Q (finishOnly job status logs errorCode expected) w := by
  unfold finishOnly
  refine lift_validateArtifacts (fun _ => ?_) fun _ => hQ _
  refine solo_transactNow fun now => ⟨hrefl, ?_⟩
  rw [commitFinish_absent h]
  exact hQ _

end Moves

end NovaRtl.Scheduler
