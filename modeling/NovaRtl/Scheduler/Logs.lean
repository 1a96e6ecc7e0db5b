import NovaRtl.Scheduler.Session

/-!
# Partial logs

Cancellation and reconciliation merge the logs of a worker with the stored ones; a
completion and a failed start replace them. So the stored logs of a job grow in every run
in which these two hand over what is already stored.
-/

namespace NovaRtl.Scheduler

open Transact

variable {m : Regime} {policy : SchedulerPolicy} {db db' : Database}

/-- `new` has all of `stored`, and no identity with two contents. -/
def KeepsAll (stored new : List ArtifactRef) : Prop :=
  (∀ a ∈ stored, a ∈ new) ∧ Table.Consistent byArtifactId new

instance (stored new : List ArtifactRef) : Decidable (KeepsAll stored new) :=
  inferInstanceAs (Decidable ((∀ a ∈ stored, a ∈ new) ∧
    ∀ a ∈ new, ∀ b ∈ new, byArtifactId a = byArtifactId b → a = b))

/-- Workers that failed to start, and callers of `complete`, hand over the stored logs. -/
def Regime.keeping : Regime where
  allows w
    | .terminateAndWait .startFailure job _, outcome =>
      outcome ≠ .interrupted → DistinctIfTerminated outcome →
        ∀ r ∈ w.db.jobs, r.jobId = job → KeepsAll r.partialLogArtifacts outcome.logs
    | _, _ => True
  keeps := KeepsAll
  mayStart _ := True
  resolves _ := True
  clean := False
  crashes := True
  calm := False
  keeps_startFailure hi hd h := h hi hd
  clean_answers h := h.elim

/-- The stored logs of every job are still stored. -/
def LogsGrow (db db' : Database) : Prop :=
  ∀ r ∈ db.jobs, ∃ r' ∈ db'.jobs, r'.jobId = r.jobId ∧
    ∀ a ∈ r.partialLogArtifacts, a ∈ r'.partialLogArtifacts

instance (db db' : Database) : Decidable (LogsGrow db db') :=
  inferInstanceAs (Decidable (∀ r ∈ db.jobs, ∃ r' ∈ db'.jobs, _))

theorem LogsGrow.refl (db : Database) : LogsGrow db db := fun r hr => ⟨r, hr, rfl, fun _ => id⟩

theorem LogsGrow.trans {a b c : Database} (h : LogsGrow a b) (h' : LogsGrow b c) :
    LogsGrow a c := by
  intro r hr
  obtain ⟨s, hs, hid, hsub⟩ := h r hr
  obtain ⟨t, ht, hid', hsub'⟩ := h' s hs
  exact ⟨t, ht, hid'.trans hid, fun a ha => hsub' a (hsub a ha)⟩

/-- Every row stores logs of one content for each identity. -/
def LogsConsistent (db : Database) : Prop :=
  ∀ r ∈ db.jobs, Table.Consistent byArtifactId r.partialLogArtifacts

theorem mergeArtifacts_keepsAll {stored more merged : List ArtifactRef}
    (hstored : Table.Consistent byArtifactId stored)
    (h : mergeArtifacts stored more = .ok merged) : KeepsAll stored merged := by
  obtain ⟨hnodup, hmem⟩ := mergeArtifacts_ok h
  exact ⟨fun a ha => (hmem a).mpr (.inl ((Table.mem_dict hstored).mpr ha)),
    Table.consistent_of_nodup hnodup⟩

theorem Written.keepsAll {stored new : List ArtifactRef} (h : Written .keeping stored new)
    (hstored : Table.Consistent byArtifactId stored) : KeepsAll stored new := by
  obtain rfl | ⟨more, hmerge⟩ | hkeeps := h
  · exact ⟨fun _ => id, hstored⟩
  · exact mergeArtifacts_keepsAll hstored hmerge
  · exact hkeeps

/-- A row whose logs were written keeps what it had; the others stay. -/
theorem LogsGrow.of_row {r : JobRecord} {set : JobProgress → JobProgress} (hr : r ∈ db.jobs)
    (hrows : ∀ s, s ∈ db'.jobs ↔ s = r.withProgress set ∨ (s ∈ db.jobs ∧ s.jobId ≠ r.jobId))
    (hset : KeepsAll r.partialLogArtifacts (set r.toJobProgress).partialLogArtifacts)
    (hdb : LogsConsistent db) : LogsConsistent db' ∧ LogsGrow db db' := by
  refine ⟨fun s hs => ?_, fun s hs => ?_⟩
  · rcases (hrows s).mp hs with rfl | ⟨hs, -⟩
    · exact hset.2
    · exact hdb s hs
  · by_cases hid : s.jobId = r.jobId
    · obtain rfl := Database.eq_of_jobId hs hr hid
      exact ⟨_, (hrows _).mpr (.inl rfl), rfl, hset.1⟩
    · exact ⟨s, (hrows s).mpr (.inr ⟨hs, hid⟩), rfl, fun _ => id⟩

theorem Durable.logsGrow (h : Durable .keeping policy db db') (hdb : LogsConsistent db) :
    LogsConsistent db' ∧ LogsGrow db db' := by
  cases h with
  | same => exact ⟨hdb, .refl db⟩
  | admitted spec fresh _ _ =>
    refine ⟨fun s hs => ?_, fun s hs => ⟨s, List.mem_append_left _ hs, rfl, fun _ => id⟩⟩
    rcases List.mem_append.mp hs with hs | hs
    · exact hdb s hs
    · obtain rfl := List.mem_singleton.mp hs
      exact fun a ha => by cases ha
  | @moved _ r _ _ hm =>
    exact LogsGrow.of_row hm.mem (fun _ => hm.mem_iff) (hm.logs.keepsAll (hdb r hm.mem)) hdb
  | @logged r _ merged hr _ hmerge =>
    exact LogsGrow.of_row hr (fun _ => Database.mem_setJob hr)
      (mergeArtifacts_keepsAll (hdb r hr) hmerge) hdb

theorem logs_grow_if_kept {c d : Config Unit World SchedulerError Answer}
    (hc : Reached .keeping policy c) (hrun : (session .keeping policy).Run c d) :
    LogsGrow c.state.db d.state.db := by
  have hmay : ∀ spec, Regime.keeping.mayStart spec := fun _ => trivial
  have hgrow : ∀ {c d}, Reached .keeping policy c → (session .keeping policy).Run c d →
      LogsConsistent c.state.db → LogsConsistent d.state.db ∧ LogsGrow c.state.db d.state.db :=
    fun hc hrun => session_history hmay
      (T := fun a b => LogsConsistent a → LogsConsistent b ∧ LogsGrow a b)
      (fun db h => ⟨h, .refl db⟩)
      (fun hab hbc ha => ⟨(hbc (hab ha).1).1, (hab ha).2.trans (hbc (hab ha).1).2⟩)
      Durable.logsGrow hc hrun
  have hstart : LogsConsistent (session.start policy).state.db := fun r hr => by
    simp [session.start, Config.resting, World.initial, Database.empty] at hr
  exact (hgrow hc hrun (hgrow .refl hc hstart).1).2

def sampleLog : ArtifactRef :=
  ⟨"artifact_a", "artifact://logs/a", "00", "text/plain", 10, 0, none, .internal⟩

/-- Submit a job, and record a log while it runs. -/
def recorded : List Operation :=
  [.submit (sampleRequest "job_001" (some ⟨0⟩)), .recordPartialLogs "job_001" [sampleLog]]

/-- Workers start, and end without logs of their own. -/
def quietWorkers : Oracle
  | _, .now => (1000000 : Int)
  | _, .start _ _ => .returned
  | _, .terminateAndWait .startFailure _ _ => .interrupted
  | _, .terminateAndWait _ _ _ => .returned ⟨true, []⟩

theorem quietWorkers_keeping (w : World) (r : Request) :
    Regime.keeping.allows w r (quietWorkers w r) := by
  rcases r with _ | _ | ⟨_ | _ | _ | _, _, _⟩
  · trivial
  · trivial
  · exact fun h => absurd rfl h
  all_goals trivial

/-- The cancellation of a running job keeps the log that was recorded before. -/
theorem logs_grow_if_kept_cancelled :
    let c := sampleRun .keeping quietWorkers recorded
    let d := drive .keeping samplePolicy quietWorkers 40 c (.operation (.cancel "job_001" []))
    d.state.db.jobs.map (fun r => (r.status, r.partialLogArtifacts)) =
      [(.cancelled, [sampleLog])] ∧
    LogsGrow c.state.db d.state.db := by
  intro c d
  have hc : Reached .keeping samplePolicy c := sampleRun_reached quietWorkers_keeping
    (by simp [recorded, Regime.admits]) trivial
  have hd : (session .keeping samplePolicy).Run c d := drive_run quietWorkers_keeping 40 _ _
    (by rintro op ⟨⟩ w; trivial) fun _ _ _ => trivial
  exact ⟨by decide +kernel, logs_grow_if_kept hc hd⟩

/-- The completion of a running job without logs loses the one recorded before. -/
theorem logs_lost_on_completion :
    ¬ ∀ (policy : SchedulerPolicy) (c d : Config Unit World SchedulerError Answer),
      Reached .free policy c → (session .free policy).Run c d →
      LogsGrow c.state.db d.state.db := by
  intro hgrow
  have hlost := hgrow samplePolicy (sampleRun .free quietWorkers recorded)
    (drive .free samplePolicy quietWorkers 40 (sampleRun .free quietWorkers recorded)
      (.operation (.complete "job_001" [])))
    (sampleRun_free _ _) (drive_run (fun _ _ => trivial) 40 _ _
      (fun _ _ _ => Regime.free_admits _) fun _ _ _ => trivial)
  revert hlost
  decide +kernel

end NovaRtl.Scheduler
