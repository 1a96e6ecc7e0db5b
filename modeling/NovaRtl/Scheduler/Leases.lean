import Mathlib.Data.Nat.Cast.Basic
import NovaRtl.Scheduler.Lifecycle

/-!
# Capacity and budgets

A job can have a worker process only while it holds a lease that a reservation granted.
The leases so granted stay within the limits of their kind, because a reservation counts
all leases and nothing else turns an unreserved job into a reserved one. The budget of a
run is counted over its rows, which are only ever added.
-/

namespace NovaRtl.Scheduler

open Transact

variable {m : Regime} {policy : SchedulerPolicy} {w w' : World} {db db' : Database}
  {r : JobRecord} {set : JobProgress → JobProgress} {e : SchedulerEventRecord}
  {kind : JobKind} {weight : JobSpec → Nat}

/-! ## Granted leases -/

instance (db : Database) (job : EntityId) : Decidable (Dispatched db job) :=
  inferInstanceAs (Decidable (∃ e ∈ db.events, _))

/-- The row holds a lease of this kind that a reservation granted. -/
def Granted (db : Database) (kind : JobKind) (r : JobRecord) : Prop :=
  r.kind = kind ∧ r.status.active ∧ Dispatched db r.jobId

instance (db : Database) (kind : JobKind) (r : JobRecord) : Decidable (Granted db kind r) :=
  inferInstanceAs (Decidable (_ ∧ _))

/-- The total of a weight over the granted leases of a kind. -/
def grantedTotal (db : Database) (kind : JobKind) (weight : JobSpec → Nat) : Nat :=
  (db.jobs.map fun r => if Granted db kind r then weight r.toJobSpec else 0).sum

theorem dispatched_append (h : db'.events = db.events ++ [e]) {job : EntityId} :
    Dispatched db' job ↔ Dispatched db job ∨ (e.jobId = job ∧ e.eventType = .dispatching) := by
  simp only [Dispatched, h, List.mem_append, List.mem_singleton]
  constructor
  · rintro ⟨e', he' | rfl, hid, htype⟩
    · exact .inl ⟨e', he', hid, htype⟩
    · exact .inr ⟨hid, htype⟩
  · rintro (⟨e', he', hid, htype⟩ | ⟨hid, htype⟩)
    · exact ⟨e', .inl he', hid, htype⟩
    · exact ⟨e, .inr rfl, hid, htype⟩

theorem Lifecycle.not_dispatched (hdb : Lifecycle db) (hr : r ∈ db.jobs)
    (hs : r.status = .queued) : ¬ Dispatched db r.jobId := by
  rintro ⟨e, he, hid, htype⟩
  have hpath := hdb.path r hr
  rw [hs] at hpath
  have hmem : e.eventType.status ∈ history db r.jobId :=
    List.mem_map_of_mem (List.mem_filter.mpr ⟨he, by simpa using hid⟩)
  rw [hpath.eq_singleton, htype] at hmem
  simp [EventType.status] at hmem

/-- A move changes the total by what it does to its own row. -/
theorem grantedTotal_move (hm : Move m db db' r set e) (kind : JobKind)
    (weight : JobSpec → Nat) :
    grantedTotal db' kind weight + (if Granted db kind r then weight r.toJobSpec else 0) =
      grantedTotal db kind weight +
        (if Granted db' kind (r.withProgress set) then weight r.toJobSpec else 0) := by
  have hjobs : db'.jobs = Table.updateAt byJobId r.jobId (·.withProgress set) db.jobs := by
    rw [hm.db_eq]; rfl
  unfold grantedTotal
  rw [hjobs]
  refine Table.sum_updateAt db.unique hm.mem (·.withProgress set)
    (fun s => if Granted db kind s then weight s.toJobSpec else 0)
    (fun s => if Granted db' kind s then weight s.toJobSpec else 0) fun s _ hne => ?_
  have hsame : Granted db' kind s ↔ Granted db kind s := by
    simp only [Granted, dispatched_append hm.events, hm.jobId, Ne.symm hne, false_and, or_false]
  simp only [hsame]

/-- Only a reservation grants a lease. -/
theorem grantedTotal_move_le (hdb : Lifecycle db) (hm : Move m db db' r set e)
    (he : e.eventType ≠ .dispatching) : grantedTotal db' kind weight ≤ grantedTotal db kind weight := by
  have htotal := grantedTotal_move hm kind weight
  have himp : Granted db' kind (r.withProgress set) → Granted db kind r := by
    rintro ⟨hkind, -, hdisp⟩
    have hdisp : Dispatched db r.jobId := by
      rcases (dispatched_append hm.events).mp hdisp with h | ⟨-, h⟩
      · exact h
      · exact absurd h he
    have hnonterm := JobStatus.nonterminal_of_canBecome hm.edge
    refine ⟨hkind, ?_, hdisp⟩
    by_contra hactive
    exact hdb.not_dispatched hm.mem (by simpa [JobStatus.nonterminal, hactive] using hnonterm) hdisp
  by_cases h : Granted db' kind (r.withProgress set)
  · rw [if_pos h, if_pos (himp h)] at htotal
    omega
  · rw [if_neg h] at htotal
    omega

theorem grantedTotal_le_leases (db : Database) (kind : JobKind) (weight : JobSpec → Nat) :
    grantedTotal db kind weight ≤ ((leases db kind).map fun s => weight s.toJobSpec).sum := by
  unfold grantedTotal leases
  induction db.jobs with
  | nil => simp
  | cons s rest ih =>
    by_cases hs : s.kind = kind ∧ s.status.active
    · have hf : (s.kind = kind && s.status.active) = true := by simpa using hs
      simp only [List.map_cons, List.sum_cons, List.filter_cons, hf, if_true]
      split <;> omega
    · have hf : (s.kind = kind && s.status.active) = false := by simpa using hs
      have hnot : ¬ Granted db kind s := fun h => hs ⟨h.1, h.2.1⟩
      simp only [List.map_cons, List.sum_cons, List.filter_cons, hf, Bool.false_eq_true, if_false,
        if_neg hnot]
      omega

/-- The step lemma: a bound that every reservation respects holds after every change. -/
theorem Change.grantedTotal_le {bound : JobKind → Nat} (h : Change m policy w w')
    (hdb : Lifecycle w.db)
    (hfits : ∀ r, Fits policy w.db r →
      ((leases w.db r.kind).map fun s => weight s.toJobSpec).sum + weight r.toJobSpec ≤
        bound r.kind)
    (hw : ∀ kind, grantedTotal w.db kind weight ≤ bound kind) (kind : JobKind) :
    grantedTotal w'.db kind weight ≤ bound kind := by
  cases h with
  | unchanged | workers | online | ended | started => exact hw kind
  | @reserved r now hr hs _ hfit =>
    have htotal := grantedTotal_move (move_reserve (m := m) now hr hs) kind weight
    have hnew : ¬ Granted w.db kind r := fun h => by simpa [hs, JobStatus.active] using h.2.1
    rw [if_neg hnew] at htotal
    split at htotal
    · next hgranted =>
      obtain rfl : r.kind = kind := hgranted.1
      have := hfits r hfit
      have := grantedTotal_le_leases w.db r.kind weight
      omega
    · have := hw kind
      omega
  | ran now hr hs =>
    exact (grantedTotal_move_le hdb (move_startRunning (m := m) now hr hs) (by simp)).trans (hw kind)
  | requested now code hr hterm hq hmerge =>
    exact (grantedTotal_move_le hdb (move_requestCancel (m := m) now code hr hterm hq hmerge)
      (by simp)).trans (hw kind)
  | quarantined now code hr hs hlogs _ =>
    exact (grantedTotal_move_le hdb (move_enterQuarantine (m := m) now code hr hs hlogs)
      (by simp)).trans (hw kind)
  | finished now status code hr hs _ hlogs =>
    exact (grantedTotal_move_le hdb (move_finishJob (m := m) now status code hr hs hlogs)
      (by cases status <;> simp [FinalStatus.eventType])).trans (hw kind)
  | @admitted spec fresh _ _ =>
    refine le_trans (le_of_eq ?_) (hw kind)
    have happend : (w.admitRow spec fresh).db.events =
      w.db.events ++ [⟨spec.jobId, .queued, spec.submittedAt, [], none⟩] := rfl
    have hdisp : ∀ job, Dispatched (w.admitRow spec fresh).db job ↔ Dispatched w.db job :=
      fun job => (dispatched_append happend).trans (by simp)
    have hsame : ∀ s, Granted (w.admitRow spec fresh).db kind s ↔ Granted w.db kind s := fun s => by
      simp only [Granted, hdisp]
    have hnew : ¬ Granted w.db kind ⟨spec, ⟨.queued, [], none, none, none⟩⟩ := fun h => by
      simpa [JobStatus.active] using h.2.1
    unfold grantedTotal
    simp only [hsame]
    simp [World.admitRow, Database.insert, Database.appendEvent, hnew]
  | @logged r _ merged hr _ _ =>
    refine le_trans (le_of_eq ?_) (hw kind)
    exact congrArg List.sum (Table.map_updateAt
      (fun s => if Granted w.db kind s then weight s.toJobSpec else 0) r.jobId
      (·.withProgress fun p => { p with partialLogArtifacts := merged }) (fun _ => rfl) w.db.jobs)

/-! ## Worker processes -/

/-- The rows of a kind whose worker may be running. -/
def aliveRows (w : World) (kind : JobKind) : List JobRecord :=
  w.db.jobs.filter fun r => r.kind = kind && w.alive r.jobId

structure WithinLimits (limits : JobKindLimits) (rows : List JobRecord) : Prop where
  count : rows.length ≤ limits.maxConcurrency
  cpu : (rows.map fun r => r.cpuCores).sum ≤ limits.cpuCores
  memory : (rows.map fun r => r.memoryBytes).sum ≤ limits.memoryBytes

/-- A worker that may be running belongs to a row that holds a granted lease. -/
def Accounted (w : World) : Prop :=
  ∀ job, w.alive job → ∃ r ∈ w.db.jobs, r.jobId = job ∧ Granted w.db r.kind r

theorem Accounted.moved (h : Accounted w) (hdb : w'.db = db') (hm : Move m w.db db' r set e)
    (halive : ∀ job, w'.alive job → w.alive job)
    (hactive : w'.alive r.jobId → (set r.toJobProgress).status.active) : Accounted w' := by
  subst hdb
  intro job hjob
  obtain ⟨s, hs, rfl, hkind, hst, hdisp⟩ := h job (halive job hjob)
  have hdisp' : Dispatched w'.db s.jobId := (dispatched_append hm.events).mpr (.inl hdisp)
  by_cases hid : s.jobId = r.jobId
  · obtain rfl := Database.eq_of_jobId hs hm.mem hid
    exact ⟨_, hm.mem_iff.mpr (.inl rfl), rfl, hkind, hactive hjob, hdisp'⟩
  · exact ⟨s, hm.mem_iff.mpr (.inr ⟨hs, hid⟩), rfl, hkind, hst, hdisp'⟩

theorem finishJob_alive_self {job : EntityId} {logs : List ArtifactRef} {now : Instant}
    {status : FinalStatus} {errorCode : Option String}
    (h : status ≠ .completed → w.alive job = false) :
    (w.finishJob job logs now status errorCode).alive job = false := by
  by_cases hs : status = .completed
  · simp [World.finishJob, hs, World.ended]
  · exact finishJob_alive (h hs)

theorem Change.accounted (h : Change m policy w w') (hinv : Inv policy w) (hw : Accounted w) :
    Accounted w' := by
  cases h with
  | unchanged | workers | online => exact hw
  | ended job =>
    intro other ho
    refine hw other ?_
    by_contra hn
    simp [World.ended, Function.update_apply, hn] at ho
  | @admitted spec fresh _ _ =>
    intro job hjob
    obtain ⟨r, hr, hid, hkind, hst, hdisp⟩ := hw job hjob
    exact ⟨r, List.mem_append_left _ hr, hid, hkind, hst,
      (dispatched_append rfl).mpr (.inl hdisp)⟩
  | reserved now hr hs _ _ => exact hw.moved rfl (move_reserve (m := m) now hr hs) (fun _ => id) fun _ => rfl
  | @started r hr hs _ _ =>
    intro job hjob
    by_cases hid : job = r.jobId
    · exact ⟨r, hr, hid.symm, rfl, by rw [hs]; rfl, hinv.dispatched r hr (.inl hs)⟩
    · simp only [World.started, Function.update_of_ne hid] at hjob
      exact hw job hjob
  | ran now hr hs => exact hw.moved rfl (move_startRunning (m := m) now hr hs) (fun _ => id) fun _ => rfl
  | requested now code hr hterm hq hmerge =>
    exact hw.moved rfl (move_requestCancel (m := m) now code hr hterm hq hmerge) (fun _ => id)
      fun _ => rfl
  | quarantined now code hr hs hlogs _ =>
    exact hw.moved rfl (move_enterQuarantine (m := m) now code hr hs hlogs) (fun _ => id)
      fun _ => rfl
  | finished now status code hr hs halive hlogs =>
    -- the only move that gives up a lease, and the worker is known to have ended
    refine hw.moved rfl (move_finishJob (m := m) now status code hr hs hlogs) (fun job hjob => ?_)
      fun hjob => ?_
    · by_contra hn
      rw [finishJob_alive (by simpa using hn)] at hjob
      cases hjob
    · rw [finishJob_alive_self halive] at hjob
      cases hjob
  | @logged r _ merged hr _ _ =>
    intro job hjob
    obtain ⟨s, hs, rfl, hkind, hst, hdisp⟩ := hw job hjob
    by_cases hid : s.jobId = r.jobId
    · obtain rfl := Database.eq_of_jobId hs hr hid
      exact ⟨_, (Database.mem_setJob hr).mpr (.inl rfl), rfl, hkind, hst, hdisp⟩
    · exact ⟨s, (Database.mem_setJob hr).mpr (.inr ⟨hs, hid⟩), rfl, hkind, hst, hdisp⟩

theorem session_accounted (hmay : ∀ spec, m.mayStart spec)
    {c : Config Unit World SchedulerError Answer} (hc : Reached m policy c) :
    Accounted c.state :=
  session_invariant hmay (fun job h => by simp [World.initial] at h)
    (fun hinv hG hw => hG.accounted hinv hw) id hc

/-- Every bound that reservations respect is one on the granted leases. -/
theorem session_grantedTotal (hmay : ∀ spec, m.mayStart spec) (weight : JobSpec → Nat)
    (bound : JobKind → Nat)
    (hfits : ∀ db r, Fits policy db r →
      ((leases db r.kind).map fun s => weight s.toJobSpec).sum + weight r.toJobSpec ≤ bound r.kind)
    {c : Config Unit World SchedulerError Answer} (hc : Reached m policy c) (kind : JobKind) :
    grantedTotal c.state.db kind weight ≤ bound kind := by
  have hboth := session_invariant hmay
    (T := fun w => Lifecycle w.db ∧ ∀ kind, grantedTotal w.db kind weight ≤ bound kind)
    ⟨⟨by simp [World.initial, Database.empty], by simp [World.initial, Database.empty]⟩,
      by simp [World.initial, Database.empty, grantedTotal]⟩
    (fun _ hG h => ⟨hG.durable.lifecycle h.1, hG.grantedTotal_le h.1 (fun r => hfits _ r) h.2⟩)
    id hc
  exact hboth.2 kind

theorem aliveRows_sum_le (hw : Accounted w) (kind : JobKind) (weight : JobSpec → Nat) :
    ((aliveRows w kind).map fun r => weight r.toJobSpec).sum ≤ grantedTotal w.db kind weight := by
  have hgranted : ∀ r ∈ w.db.jobs, r.kind = kind → w.alive r.jobId → Granted w.db kind r := by
    rintro r hr rfl halive
    obtain ⟨s, hs, hid, hgr⟩ := hw r.jobId halive
    rwa [Database.eq_of_jobId hs hr hid] at hgr
  unfold aliveRows grantedTotal
  generalize w.db.jobs = rows at hgranted ⊢
  induction rows with
  | nil => simp
  | cons s rest ih =>
    have ih := ih fun r hr => hgranted r (List.mem_cons_of_mem _ hr)
    by_cases hs : s.kind = kind ∧ w.alive s.jobId
    · have hf : (s.kind = kind && w.alive s.jobId) = true := by simpa using hs
      simp only [List.filter_cons, hf, if_true, List.map_cons, List.sum_cons,
        if_pos (hgranted s (by simp) hs.1 hs.2)]
      omega
    · have hf : (s.kind = kind && w.alive s.jobId) = false := by simpa using hs
      simp only [List.filter_cons, hf, Bool.false_eq_true, if_false, List.map_cons, List.sum_cons]
      omega

theorem alive_within_limits {c : Config Unit World SchedulerError Answer}
    (hc : Reached .free policy c) :
    (∀ job, c.state.alive job → ∃ r ∈ c.state.db.jobs, r.jobId = job) ∧
    ∀ kind, WithinLimits (policy.kindLimits kind) (aliveRows c.state kind) := by
  have hmay : ∀ spec, Regime.free.mayStart spec := fun _ => trivial
  have hw := session_accounted hmay hc
  refine ⟨fun job hjob => ?_, fun kind => ⟨?_, ?_, ?_⟩⟩
  · obtain ⟨r, hr, hid, -⟩ := hw job hjob
    exact ⟨r, hr, hid⟩
  · have hcount := session_grantedTotal hmay (fun _ => 1)
      (fun kind => (policy.kindLimits kind).maxConcurrency) (fun db r h => by
        simpa using Nat.succ_le_of_lt h.1) hc kind
    simpa using (aliveRows_sum_le hw kind fun _ => 1).trans hcount
  · exact (aliveRows_sum_le hw kind JobSpec.cpuCores).trans
      (session_grantedTotal hmay JobSpec.cpuCores (fun kind => (policy.kindLimits kind).cpuCores)
        (fun db r h => h.2.1) hc kind)
  · exact (aliveRows_sum_le hw kind JobSpec.memoryBytes).trans
      (session_grantedTotal hmay JobSpec.memoryBytes
        (fun kind => (policy.kindLimits kind).memoryBytes) (fun db r h => h.2.2) hc kind)

/-- A job that runs beside one whose failed start could not be undone is held back. -/
theorem alive_within_limits_quarantined :
    let c := sampleRun .free (steady .raised .raised)
      [.submit (sampleRequest "job_001" (some ⟨0⟩)), .submit (sampleRequest "job_002" (some ⟨1⟩))]
    c.state.db.jobs.map (fun r => (r.status, c.state.alive r.jobId)) =
      [(.quarantined, true), (.queued, false)] ∧
    WithinLimits sampleLimits (aliveRows c.state .planner) :=
  ⟨by decide +kernel, (alive_within_limits (sampleRun_free _ _)).2 .planner⟩

/-! ## Budgets -/

theorem runTotal_eq (db : Database) (run : EntityId) (cost : JobSpec → Nat) :
    runTotal db run cost =
      (((db.jobs.map JobRecord.toJobSpec).filter fun s => s.runId = run).map cost).sum := by
  rw [List.filter_map, List.map_map]
  rfl

/-- The admitted jobs of `db`, each once, are the first ones of `db'`. -/
def Extends (db db' : Database) : Prop :=
  db.jobs.map JobRecord.toJobSpec <+: db'.jobs.map JobRecord.toJobSpec

theorem Durable.extends (h : Durable m policy db db') : Extends db db' := by
  cases h with
  | same => exact List.prefix_rfl
  | admitted spec fresh _ _ =>
    simp [Extends, Database.insert, Database.appendEvent]
  | moved hm => exact (List.prefix_rfl : _ <+: _).trans (by rw [hm.specs])
  | logged => simp [Extends]

/-- The step lemma of a run's budget. -/
theorem Durable.runTotal_le {cost : JobSpec → Nat} {limit : Nat} (h : Durable m policy db db')
    (hlimit : ∀ spec : JobSpec,
      runTotal db spec.runId JobSpec.candidateCost + spec.candidateCost ≤ policy.maxCandidates →
      runTotal db spec.runId JobSpec.tokenCost + spec.tokenCost ≤ policy.maxTokens →
      runTotal db spec.runId cost + cost spec ≤ limit)
    (hdb : ∀ run, runTotal db run cost ≤ limit) (run : EntityId) :
    runTotal db' run cost ≤ limit := by
  cases h with
  | same => exact hdb run
  | admitted spec fresh hcandidates htokens =>
    rw [runTotal_eq]
    simp only [Database.insert, Database.appendEvent, List.map_append, List.map_singleton,
      List.filter_append, List.filter_singleton, List.sum_append]
    rw [← runTotal_eq]
    by_cases hrun : spec.runId = run
    · subst hrun
      simpa using hlimit spec hcandidates htokens
    · simpa [hrun] using hdb run
  | moved hm =>
    rw [runTotal_eq, hm.specs, ← runTotal_eq]
    exact hdb run
  | logged =>
    rw [runTotal_eq, Database.setJob_specs, ← runTotal_eq]
    exact hdb run

theorem session_runTotal (hmay : ∀ spec, m.mayStart spec)
    {c : Config Unit World SchedulerError Answer} (hc : Reached m policy c) (run : EntityId) :
    runTotal c.state.db run JobSpec.candidateCost ≤ policy.maxCandidates ∧
      runTotal c.state.db run JobSpec.tokenCost ≤ policy.maxTokens := by
  have hinitial : ∀ (cost : JobSpec → Nat) run, runTotal (World.initial policy).db run cost = 0 :=
    fun _ _ => rfl
  constructor
  · exact session_invariant hmay
      (T := fun w => ∀ run, runTotal w.db run JobSpec.candidateCost ≤ policy.maxCandidates)
      (fun run => by simp [hinitial])
      (fun _ hG h => hG.durable.runTotal_le (fun _ hcandidates _ => hcandidates) h) id hc run
  · exact session_invariant hmay
      (T := fun w => ∀ run, runTotal w.db run JobSpec.tokenCost ≤ policy.maxTokens)
      (fun run => by simp [hinitial])
      (fun _ hG h => hG.durable.runTotal_le (fun _ _ htokens => htokens) h) id hc run

end NovaRtl.Scheduler
