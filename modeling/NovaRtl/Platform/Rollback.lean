import NovaRtl.Platform.Publication

/-!
# Publication of both outputs or none

Whichever step fails, the files are afterwards as they were or both outputs are new, and the views
are bound to the lock. What is published and staged so far differs from the prior files at most in
entries that the handlers restore.
-/

namespace NovaRtl.PlatformLock

open Transact Function

variable {p : Publication} {fault : Option ℕ} {entry : Entry} {data : ByteArray}

section

variable {α : Type} {returned : α → Faulty Publication → Prop}
  {raised : Failure → Faulty Publication → Prop}

theorem io_endsIn {f : Publication → α × Publication}
    (hok : ∀ later, (fault = none → later = none) → returned (f p).1 ⟨(f p).2, later⟩)
    (hfail : fault ≠ none → raised .osError ⟨p, none⟩) :
    EndsIn (io f) ⟨p, fault⟩ returned raised :=
  EndsIn.perform hok hfail

/-- No step fails any more. -/
theorem io_endsIn_none {f : Publication → α × Publication}
    (hok : returned (f p).1 ⟨(f p).2, none⟩) : EndsIn (io f) ⟨p, none⟩ returned raised :=
  io_endsIn (fun _ hlater => by rwa [hlater rfl]) fun h => absurd rfl h

theorem readBytes_endsIn (data : ByteArray) {returned : ByteArray → Faulty Publication → Prop}
    (hdata : p.files entry = some data)
    (hok : ∀ later, (fault = none → later = none) → returned data ⟨p, later⟩)
    (hfail : fault ≠ none → raised .osError ⟨p, none⟩) :
    EndsIn (readBytes entry) ⟨p, fault⟩ returned raised := by
  refine EndsIn.bind (io_endsIn (fun later hlater => ?_) hfail)
  refine EndsIn.validate (fun a ha => ?_) fun e he => ?_
  · rw [hdata] at ha
    obtain rfl := Except.ok.inj ha
    exact hok later hlater
  · rw [hdata] at he
    cases he

end

/-! ## Temporary files -/

def Publication.staged (p : Publication) (data : ByteArray) : Publication :=
  {p with files := update p.files (.temporary p.made) (some data), made := p.made + 1}

/-- A temporary file is made with the data or removed again. -/
theorem stageBytes_endsIn {returned : Entry → Faulty Publication → Prop}
    {raised : Failure → Faulty Publication → Prop} (hfresh : p.files (.temporary p.made) = none)
    (hok : ∀ later, (fault = none → later = none) →
      returned (.temporary p.made) ⟨p.staged data, later⟩)
    (hnone : fault ≠ none → raised .osError ⟨p, none⟩)
    (hfail : fault ≠ none → raised .osError ⟨{p with made := p.made + 1}, none⟩) :
    EndsIn (stageBytes data) ⟨p, fault⟩ returned raised := by
  refine EndsIn.bind (io_endsIn (fun first hfirst => ?_) hnone)
  have hclean (content : ByteArray) (h : first ≠ none) : EndsIn (unlink (.temporary p.made))
      ⟨p.staged content, none⟩ (fun _ u => raised .osError u) raised := by
    refine io_endsIn_none ?_
    have hfiles : update (update p.files (.temporary p.made) (some content))
        (.temporary p.made) none = p.files := by
      rw [update_idem, ← hfresh, update_eq_self]
    simp only [Publication.staged, hfiles]
    exact hfail fun hnone => h (hfirst hnone)
  refine EndsIn.bind (EndsIn.onError ?_)
  refine EndsIn.bind (EndsIn.onError (io_endsIn (fun opened hopened => ?_) fun h => ?_))
  · refine EndsIn.ensure ?_
    refine EndsIn.bind (io_endsIn (fun written hwritten => ?_) fun h => ?_)
    · have hwrite : update (update p.files (.temporary p.made) (some .empty))
          (.temporary p.made) (some data) = update p.files (.temporary p.made) (some data) :=
        update_idem ..
      rw [hwrite]
      have hsteps {last : Option ℕ} (hlast : written = none → last = none) (h : last ≠ none) :
          first ≠ none :=
        fun hnone => h (hlast (hwritten (hopened hnone)))
      refine EndsIn.bind (io_endsIn (fun flushed hflushed => ?_) fun h => ?_)
      · refine io_endsIn (fun synced hsynced => ?_) fun h => ?_
        · refine io_endsIn (fun closed hclosed => ?_) fun h => ?_
          · exact hok closed fun hnone =>
              hclosed (hsynced (hflushed (hwritten (hopened (hfirst hnone)))))
          · exact hclean data (hsteps (fun hnone => hsynced (hflushed hnone)) h)
        · exact io_endsIn_none (hclean data (hsteps hflushed h))
      · exact io_endsIn_none (hclean data (hsteps id h))
    · exact io_endsIn_none (hclean .empty fun hnone => h (hopened hnone))
  · exact io_endsIn_none (hclean .empty h)

theorem update_moved {files : Files} {temporary destination : Entry}
    (hfresh : files temporary = none) (hne : destination ≠ temporary) :
    update (update (update files temporary (some data)) destination (some data)) temporary none =
      update files destination (some data) := by
  rw [update_comm hne.symm, update_idem, update_comm hne, ← hfresh, update_eq_self]

/-- After the failure. -/
theorem atomicWriteBytes_endsIn {returned : Unit → Faulty Publication → Prop}
    {raised : Failure → Faulty Publication → Prop} {destination : Entry}
    (hfresh : p.files (.temporary p.made) = none) (hne : destination ≠ .temporary p.made)
    (hok : returned () ⟨{p with
      files := update p.files destination (some data), made := p.made + 1}, none⟩) :
    EndsIn (atomicWriteBytes destination data) ⟨p, none⟩ returned raised := by
  refine EndsIn.bind (io_endsIn_none ?_)
  refine EndsIn.bind (stageBytes_endsIn hfresh (fun later hlater => ?_) (fun h => absurd rfl h)
    fun h => absurd rfl h)
  rw [hlater rfl]
  refine EndsIn.ensure (io_endsIn_none (io_endsIn_none ?_))
  simp only [Publication.staged, update_self]
  rw [update_idem, update_moved hfresh hne]
  exact hok

theorem restoreOutput_endsIn {returned : Unit → Faulty Publication → Prop}
    {raised : Failure → Faulty Publication → Prop} {path : Entry} {prior : Option ByteArray}
    (hfresh : p.files (.temporary p.made) = none) (hne : path ≠ .temporary p.made)
    (hok : ∀ made, p.made ≤ made →
      returned () ⟨{p with files := update p.files path prior, made := made}, none⟩) :
    EndsIn (restoreOutput path prior) ⟨p, none⟩ returned raised := by
  cases prior with
  | none =>
    rw [restoreOutput]
    exact io_endsIn_none (hok p.made le_rfl)
  | some prior => exact atomicWriteBytes_endsIn hfresh hne (hok _ (Nat.le_succ _))

/-! ## What the handlers undo -/

/-- The files before the publication: at paths only. -/
def priorFiles (prior : String → Option ByteArray) : Files
  | .file path => prior path
  | .temporary _ => none

/-- Files differ from the prior ones only where something was published or is staged. -/
structure Pending (prior : String → Option ByteArray) (lock views : String)
    (p : Publication) : Prop where
  fresh : ∀ n, p.made ≤ n → p.files (.temporary n) = none
  unchanged : ∀ entry, p.files entry = priorFiles prior entry ∨
    (p.lockPublished ∧ entry = .file lock) ∨ (p.viewsPublished ∧ entry = .file views) ∨
    p.lockTemporary = some entry ∨ p.viewsTemporary = some entry
  staged : ∀ entry, p.lockTemporary = some entry ∨ p.viewsTemporary = some entry →
    priorFiles prior entry = none

/-- Files differ from the prior ones only where something is staged. -/
structure Removable (prior : String → Option ByteArray) (p : Publication) : Prop where
  unchanged : ∀ entry, p.files entry = priorFiles prior entry ∨
    p.lockTemporary = some entry ∨ p.viewsTemporary = some entry
  staged : ∀ entry, p.lockTemporary = some entry ∨ p.viewsTemporary = some entry →
    priorFiles prior entry = none

variable {prior : String → Option ByteArray} {lock views : String}

theorem Pending.removable (h : Pending prior lock views p) (hlock : p.lockPublished = false)
    (hviews : p.viewsPublished = false) : Removable prior p where
  unchanged entry := by simpa [hlock, hviews] using h.unchanged entry
  staged := h.staged

section

variable {returned : Unit → Faulty Publication → Prop}
  {raised : Failure → Faulty Publication → Prop} {published : Publication → Bool}
  {temporary : Publication → Option Entry} {path : Entry} {content : Option ByteArray}

theorem restorePublished_endsIn (hfresh : p.files (.temporary p.made) = none)
    (hne : path ≠ .temporary p.made)
    (hok : ∀ made, p.made ≤ made → returned () ⟨{p with
      files := fun entry => if published p ∧ entry = path then content else p.files entry,
      made := made}, none⟩) :
    EndsIn (restorePublished published path content) ⟨p, none⟩ returned raised := by
  refine EndsIn.bind (EndsIn.get ?_)
  cases hpublished : published p with
  | true =>
    have hfiles : update p.files path content =
        fun entry => if published p ∧ entry = path then content else p.files entry := by
      funext entry
      simp [update_apply, hpublished]
    simp only [← hfiles] at hok
    exact restoreOutput_endsIn hfresh hne hok
  | false =>
    simp only [hpublished, Bool.false_eq_true, false_and, if_false] at hok ⊢
    exact EndsIn.pure (hok p.made le_rfl)

theorem unlinkStaged_endsIn (hok : returned () ⟨{p with
      files := fun entry => if temporary p = some entry then none else p.files entry}, none⟩) :
    EndsIn (unlinkStaged temporary) ⟨p, none⟩ returned raised := by
  refine EndsIn.bind (EndsIn.get ?_)
  cases htemporary : temporary p with
  | some path =>
    have hfiles : update p.files path none =
        fun entry => if temporary p = some entry then none else p.files entry := by
      funext entry
      simp [update_apply, htemporary, eq_comm]
    simp only [← hfiles] at hok
    exact io_endsIn_none hok
  | none =>
    simp only [htemporary, reduceCtorEq, if_false] at hok ⊢
    exact EndsIn.pure hok

/-- What was moved away is not unlinked once more. -/
theorem unlinkStaged_endsIn_moved (hmoved : ∀ path, temporary p = some path → p.files path = none)
    (hok : ∀ later, returned () ⟨p, later⟩) (hfail : raised .osError ⟨p, none⟩) :
    EndsIn (unlinkStaged temporary) ⟨p, fault⟩ returned raised := by
  refine EndsIn.bind (EndsIn.get ?_)
  cases htemporary : temporary p with
  | some path =>
    refine io_endsIn (fun later _ => ?_) fun _ => hfail
    have hfiles : update p.files path none = p.files := by
      rw [← hmoved path htemporary, update_eq_self]
    rw [hfiles]
    exact hok later
  | none => exact EndsIn.pure (hok fault)

end

/-- The published outputs are restored and the temporary files are still there. -/
theorem rollBack_endsIn (h : Pending prior lock views p) :
    EndsIn (rollBack (.file lock) (.file views) (prior lock) (prior views)) ⟨p, none⟩
      (fun _ _ => False) (fun _ w => w.fault = none ∧ Removable prior w.state) := by
  refine EndsIn.bind (EndsIn.rescue (EndsIn.bind ?_))
  refine restorePublished_endsIn (h.fresh _ le_rfl) nofun fun made hmade => ?_
  refine restorePublished_endsIn ?_ nofun fun last hlast => ?_
  · simpa using h.fresh _ hmade
  · refine EndsIn.throw ⟨rfl, ⟨fun entry => ?_, h.staged⟩⟩
    by_cases hviews : p.viewsPublished ∧ entry = .file views
    · obtain ⟨-, rfl⟩ := id hviews
      exact .inl (if_pos hviews)
    by_cases hlock : p.lockPublished ∧ entry = .file lock
    · obtain ⟨-, rfl⟩ := id hlock
      exact .inl ((if_neg hviews).trans (if_pos hlock))
    · simpa [hviews, hlock] using h.unchanged entry

/-- Nothing is left of what was staged. -/
theorem removeTemporaries_endsIn {raised : Failure → Faulty Publication → Prop}
    (h : Removable prior p) :
    EndsIn removeTemporaries ⟨p, none⟩ (fun _ w => w.state.files = priorFiles prior) raised := by
  refine EndsIn.bind (unlinkStaged_endsIn (unlinkStaged_endsIn ?_))
  funext entry
  by_cases hviews : p.viewsTemporary = some entry
  · simp [hviews, h.staged entry (.inr hviews)]
  by_cases hlock : p.lockTemporary = some entry
  · simp [hlock, h.staged entry (.inl hlock)]
  · simpa [hviews, hlock] using h.unchanged entry

/-! ## The two publications -/

namespace Pending

theorem start (made : ℕ) : Pending prior lock views {files := priorFiles prior, made := made} where
  fresh _ _ := rfl
  unchanged _ := .inl rfl
  staged := nofun

theorem remade (h : Pending prior lock views p) :
    Pending prior lock views {p with made := p.made + 1} :=
  ⟨fun n hn => h.fresh n (Nat.le_of_succ_le hn), h.unchanged, h.staged⟩

theorem stage {q : Publication} (h : Pending prior lock views p) (data : ByteArray)
    (hfiles : q.files = (p.staged data).files) (hmade : q.made = p.made + 1)
    (hstaged : ∀ entry, q.lockTemporary = some entry ∨ q.viewsTemporary = some entry ↔
      entry = .temporary p.made ∨ p.lockTemporary = some entry ∨ p.viewsTemporary = some entry)
    (hlock : q.lockPublished = p.lockPublished) (hviews : q.viewsPublished = p.viewsPublished) :
    Pending prior lock views q where
  fresh n hn := by
    rw [hmade] at hn
    have hne : n ≠ p.made := (Nat.lt_of_succ_le hn).ne'
    simpa [hfiles, Publication.staged, hne] using h.fresh n (Nat.le_of_succ_le hn)
  unchanged entry := by
    rw [hstaged, hlock, hviews]
    by_cases hentry : entry = .temporary p.made
    · exact .inr (.inr (.inr (.inl hentry)))
    · have hsame : q.files entry = p.files entry := by simp [hfiles, Publication.staged, hentry]
      rw [hsame]
      rcases h.unchanged entry with hsame | hlock' | hviews' | hentry'
      · exact .inl hsame
      · exact .inr (.inl hlock')
      · exact .inr (.inr (.inl hviews'))
      · exact .inr (.inr (.inr (.inr hentry')))
  staged entry hentry := by
    obtain rfl | hentry := (hstaged entry).mp hentry
    · rfl
    · exact h.staged entry hentry

theorem publish {destination temporary : Entry} {content : Option ByteArray}
    (h : Pending prior lock views p) (hdestination : ∃ path, destination = .file path)
    {q : Publication}
    (hq : q.files = update (update p.files destination content) temporary none)
    (hmade : q.made = p.made) (hlock : q.lockTemporary = p.lockTemporary)
    (hviews : q.viewsTemporary = p.viewsTemporary)
    (hstaged : p.lockTemporary = some temporary ∨ p.viewsTemporary = some temporary)
    (hpublished : (q.lockPublished ∧ destination = .file lock) ∨
      (q.viewsPublished ∧ destination = .file views))
    (hlockPublished : p.lockPublished → q.lockPublished)
    (hviewsPublished : p.viewsPublished → q.viewsPublished) :
    Pending prior lock views q where
  fresh n hn := by
    obtain ⟨path, rfl⟩ := hdestination
    rw [hq, update_apply]
    split
    next => rfl
    next => simpa using h.fresh n (hmade ▸ hn)
  unchanged entry := by
    rw [hq, hlock, hviews]
    by_cases htemporary : entry = temporary
    · subst htemporary
      exact .inr (.inr (.inr hstaged))
    by_cases hentry : entry = destination
    · subst hentry
      exact .inr (hpublished.imp_right .inl)
    · rw [update_of_ne htemporary, update_of_ne hentry]
      rcases h.unchanged entry with hsame | ⟨hprior, hlock'⟩ | ⟨hprior, hviews'⟩ | hentry'
      · exact .inl hsame
      · exact .inr (.inl ⟨hlockPublished hprior, hlock'⟩)
      · exact .inr (.inr (.inl ⟨hviewsPublished hprior, hviews'⟩))
      · exact .inr (.inr (.inr hentry'))
  staged entry hentry := h.staged entry (by rwa [hlock, hviews] at hentry)

end Pending

variable {PlatformLock : Type} {outputs : Outputs PlatformLock} {lockData viewsData : ByteArray}

/-- What a failure of the `try` block leaves to the handlers. -/
structure Interrupted (prior : String → Option ByteArray) (lock views : String) (e : Failure)
    (w : Faulty Publication) : Prop where
  spent : w.fault = none
  pending : Pending prior lock views w.state
  unpublished : ¬ e.Handled → w.state.lockPublished = false ∧ w.state.viewsPublished = false

/-- Both outputs are new. -/
def newFiles (prior : String → Option ByteArray) (lock views : String)
    (lockData viewsData : ByteArray) : Files :=
  update (update (priorFiles prior) (.file lock) (some lockData)) (.file views) (some viewsData)

def Bound (outputs : Outputs PlatformLock) (lockData viewsData : ByteArray) : Prop :=
  ∃ views, outputs.loadViews viewsData = .ok views ∧ views.platformLockHash = sha256 lockData

/-- The outputs are published and nothing is staged any more. -/
structure Complete (outputs : Outputs PlatformLock) (prior : String → Option ByteArray)
    (lock views : String) (lockData viewsData : ByteArray) (p : Publication) : Prop where
  files : p.files = newFiles prior lock views lockData viewsData
  bound : Bound outputs lockData viewsData
  lockMoved : ∀ path, p.lockTemporary = some path → p.files path = none
  viewsMoved : ∀ path, p.viewsTemporary = some path → p.files path = none

theorem readViews_endsIn (data : ByteArray) {returned : PlatformAnalysisViews → Faulty Publication → Prop}
    {raised : Failure → Faulty Publication → Prop} (hdata : p.files entry = some data)
    (hok : ∀ later views, outputs.loadViews data = .ok views → returned views ⟨p, later⟩)
    (hload : ∀ e, outputs.loadViews data = .error e → raised e ⟨p, none⟩)
    (hfail : raised .osError ⟨p, none⟩) :
    EndsIn (readViews outputs entry) ⟨p, fault⟩ returned raised :=
  EndsIn.bind (readBytes_endsIn _ hdata
    (fun later _ => EndsIn.validate (fun views => hok later views) hload) fun _ => hfail)

theorem require_eq_error {c : Prop} [Decidable c] {e error : Failure}
    (h : require c error = .error e) : ¬ c ∧ error = e := by
  unfold require at h
  split at h
  · cases h
  · exact ⟨‹_›, Except.error.inj h⟩

/-! ### The states that the `try` block goes through -/

section

variable (prior lock views lockData viewsData)

def lockStaged : Publication :=
  {Publication.staged {files := priorFiles prior} lockData with
    lockTemporary := some (.temporary 0)}

def bothStaged : Publication :=
  {(lockStaged prior lockData).staged viewsData with viewsTemporary := some (.temporary 1)}

def lockMoved : Publication :=
  {bothStaged prior lockData viewsData with
    files := update (update (bothStaged prior lockData viewsData).files (.file lock)
      (some lockData)) (.temporary 0) none
    lockPublished := true}

def bothMoved : Publication :=
  {lockMoved prior lock lockData viewsData with
    files := update (update (lockMoved prior lock lockData viewsData).files (.file views)
      (some viewsData)) (.temporary 1) none
    viewsPublished := true}

end

theorem lockStaged_pending : Pending prior lock views (lockStaged prior lockData) :=
  (Pending.start 0).stage lockData rfl rfl
    (by simp [lockStaged, Publication.staged, eq_comm]) rfl rfl

theorem bothStaged_pending : Pending prior lock views (bothStaged prior lockData viewsData) :=
  lockStaged_pending.stage viewsData rfl rfl
    (by simp [lockStaged, bothStaged, Publication.staged, eq_comm, or_comm]) rfl rfl

theorem lockMoved_pending : Pending prior lock views (lockMoved prior lock lockData viewsData) :=
  bothStaged_pending.publish ⟨lock, rfl⟩ rfl rfl rfl rfl (.inl rfl) (.inl ⟨rfl, rfl⟩)
    (fun _ => rfl) id

theorem bothMoved_pending :
    Pending prior lock views (bothMoved prior lock views lockData viewsData) :=
  lockMoved_pending.publish ⟨views, rfl⟩ rfl rfl rfl rfl (.inr rfl) (.inr ⟨rfl, rfl⟩)
    id (fun _ => rfl)

theorem bothMoved_complete (hbound : Bound outputs lockData viewsData) :
    Complete outputs prior lock views lockData viewsData
      (bothMoved prior lock views lockData viewsData) where
  files := by
    funext entry
    simp only [bothMoved, lockMoved, bothStaged, lockStaged, Publication.staged, newFiles,
      update_apply]
    cases entry with
    | file path => simp
    | temporary n => by_cases h₀ : n = 0 <;> by_cases h₁ : n = 1 <;> simp [h₀, h₁, priorFiles]
  bound := hbound
  lockMoved := by
    rintro path ⟨⟩
    simp [bothMoved, lockMoved]
  viewsMoved := by
    rintro path ⟨⟩
    simp [bothMoved]

theorem publishPair_endsIn (hne : lock ≠ views) :
    EndsIn (publishPair outputs (.file lock) (.file views) lockData viewsData)
      ⟨{files := priorFiles prior}, fault⟩
      (fun _ w => Complete outputs prior lock views lockData viewsData w.state)
      (Interrupted prior lock views) := by
  refine EndsIn.bind (stageBytes_endsIn rfl (fun _ _ => ?_)
    (fun _ => ⟨rfl, .start 0, fun _ => ⟨rfl, rfl⟩⟩)
    fun _ => ⟨rfl, .start 1, fun _ => ⟨rfl, rfl⟩⟩)
  refine EndsIn.bind (EndsIn.assign ?_)
  change EndsIn _ (Faulty.mk (lockStaged prior lockData) _) _ _
  have hlock {e : Failure} : Interrupted prior lock views e ⟨lockStaged prior lockData, none⟩ :=
    ⟨rfl, lockStaged_pending, fun _ => ⟨rfl, rfl⟩⟩
  refine EndsIn.bind (stageBytes_endsIn rfl (fun _ _ => ?_) (fun _ => hlock)
    fun _ => ⟨rfl, lockStaged_pending.remade, fun _ => ⟨rfl, rfl⟩⟩)
  refine EndsIn.bind (EndsIn.assign ?_)
  change EndsIn _ (Faulty.mk (bothStaged prior lockData viewsData) _) _ _
  -- a failure that no handler is for can only come before the first replacement
  have hboth {e : Failure} :
      Interrupted prior lock views e ⟨bothStaged prior lockData viewsData, none⟩ :=
    ⟨rfl, bothStaged_pending, fun _ => ⟨rfl, rfl⟩⟩
  refine EndsIn.bind (EndsIn.validate (fun status _ => ?_) fun _ _ => hboth)
  refine EndsIn.bind (readViews_endsIn viewsData rfl (fun _ staged hstaged => ?_) (fun _ _ => hboth) hboth)
  refine EndsIn.bind (EndsIn.validate (fun _ hvalid => ?_) fun _ _ => hboth)
  obtain ⟨-, hhash⟩ := require_eq_ok.mp hvalid
  refine EndsIn.bind (io_endsIn (fun _ _ => ?_) fun _ => hboth)
  refine EndsIn.bind (EndsIn.assign ?_)
  change EndsIn _ (Faulty.mk (lockMoved prior lock lockData viewsData) _) _ _
  have hmoved : Interrupted prior lock views .osError
      ⟨lockMoved prior lock lockData viewsData, none⟩ :=
    ⟨rfl, lockMoved_pending, fun h => absurd nofun h⟩
  refine EndsIn.bind (io_endsIn (fun _ _ => ?_) fun _ => hmoved)
  refine EndsIn.bind (EndsIn.assign ?_)
  change EndsIn _ (Faulty.mk (bothMoved prior lock views lockData viewsData) _) _ _
  have hdone {e : Failure} (he : e.Handled) : Interrupted prior lock views e
      ⟨bothMoved prior lock views lockData viewsData, none⟩ :=
    ⟨rfl, bothMoved_pending, fun h => absurd he h⟩
  have hos : Failure.osError.Handled := nofun
  have hcomplete : Complete outputs prior lock views lockData viewsData
      (bothMoved prior lock views lockData viewsData) :=
    bothMoved_complete ⟨staged, hstaged, hhash⟩
  refine EndsIn.bind (readViews_endsIn viewsData ?_ (fun _ final hfinal => ?_)
    (fun e he => ?_) (hdone hos))
  · rw [hcomplete.files]
    exact update_self ..
  · refine EndsIn.bind (readBytes_endsIn lockData ?_ (fun _ _ => ?_)
      fun _ => hdone hos)
    · rw [hcomplete.files, newFiles, update_of_ne (by simpa using hne), update_self]
    · exact EndsIn.validate (fun _ _ => hcomplete) fun e he => by
        obtain ⟨-, rfl⟩ := require_eq_error he
        exact hdone nofun
  · rw [hstaged] at he
    cases he

/-! ## The publication -/

theorem readPrior_endsIn {path : String} {returned : Option ByteArray → Faulty Publication → Prop}
    {raised : Failure → Faulty Publication → Prop}
    (hok : ∀ later, returned (prior path) ⟨{files := priorFiles prior}, later⟩)
    (hfail : raised .osError ⟨{files := priorFiles prior}, none⟩) :
    EndsIn (readPrior (.file path)) ⟨{files := priorFiles prior}, fault⟩ returned raised := by
  refine EndsIn.bind (io_endsIn (fun later _ => ?_) fun _ => hfail)
  cases hprior : prior path with
  | none =>
    have hfile : (priorFiles prior (.file path)).isSome = false := by simp [priorFiles, hprior]
    simp only [hfile, Bool.false_eq_true, if_false]
    exact EndsIn.pure (hprior ▸ hok later)
  | some data =>
    have hfile : (priorFiles prior (.file path)).isSome = true := by simp [priorFiles, hprior]
    simp only [hfile, if_true]
    exact EndsIn.bind (readBytes_endsIn _ hprior
      (fun last _ => EndsIn.pure (hprior ▸ hok last)) fun _ => hfail)

theorem release_endsIn {w : Faulty Publication} (returned raised : Files → Prop)
    (hok : returned w.state.files) (hfail : raised w.state.files) :
    EndsIn (do quiet; quiet : Publish Unit) w (fun _ w => returned w.state.files)
      (fun _ w => raised w.state.files) := by
  refine EndsIn.bind (io_endsIn (fun _ _ => ?_) fun _ => hfail)
  exact io_endsIn (fun _ _ => hok) fun _ => hfail

/-- The `try` statement. -/
theorem tryPublish_endsIn (hne : lock ≠ views) :
    EndsIn (ensure
        (rescue Failure.Handled
          (publishPair outputs (.file lock) (.file views) lockData viewsData)
          fun _ => rollBack (.file lock) (.file views) (prior lock) (prior views))
        removeTemporaries)
      ⟨{files := priorFiles prior}, fault⟩
      (fun _ w => w.state.files = newFiles prior lock views lockData viewsData ∧
        Bound outputs lockData viewsData)
      (fun _ w => w.state.files = priorFiles prior ∨
        w.state.files = newFiles prior lock views lockData viewsData ∧
          Bound outputs lockData viewsData) := by
  refine EndsIn.ensure (EndsIn.rescue ((publishPair_endsIn hne).mono ?_ ?_))
  · rintro _ ⟨p, later⟩ hcomplete
    have hnew := And.intro hcomplete.files hcomplete.bound
    exact EndsIn.bind (unlinkStaged_endsIn_moved hcomplete.lockMoved
      (fun _ => unlinkStaged_endsIn_moved hcomplete.viewsMoved (fun _ => hnew) (.inr hnew))
      (.inr hnew))
  · rintro e ⟨p, later⟩ ⟨rfl, hpending, hunpublished⟩
    have hremove (e : Failure) {q : Publication} (h : Removable prior q) :
        EndsIn removeTemporaries ⟨q, none⟩
          (fun _ w => w.state.files = priorFiles prior ∨
            w.state.files = newFiles prior lock views lockData viewsData ∧
              Bound outputs lockData viewsData)
          (fun _ w => w.state.files = priorFiles prior ∨
            w.state.files = newFiles prior lock views lockData viewsData ∧
              Bound outputs lockData viewsData) :=
      (removeTemporaries_endsIn h).mono (fun _ _ => .inl) fun _ _ => id
    refine ⟨fun _ => (rollBack_endsIn hpending).mono (fun _ _ => False.elim) ?_, fun hunhandled => ?_⟩
    · rintro e ⟨q, later⟩ ⟨rfl, hremovable⟩
      exact hremove e hremovable
    · obtain ⟨hlock, hviews⟩ := hunpublished hunhandled
      exact hremove e (hpending.removable hlock hviews)

/-- Both outputs are new and the views are bound to the lock. -/
def NewPair (outputs : Outputs PlatformLock) (platformLock : PlatformLock)
    (prior : String → Option ByteArray) (lock views : String) (files : Files) : Prop :=
  ∃ lockData viewsData, outputs.serializedLockBytes platformLock lock = .ok lockData ∧
    outputs.serializedAnalysisViews platformLock (sha256 lockData) = .ok viewsData ∧
    files = newFiles prior lock views lockData viewsData ∧ Bound outputs lockData viewsData

/-- Whichever step fails, the files are as they were or both outputs are new. -/
theorem publishPlatformOutputs_all_or_nothing (outputs : Outputs PlatformLock)
    (platformLock : PlatformLock) (lock views : String) (prior : String → Option ByteArray)
    (fault : Option ℕ) :
    EndsIn (publishPlatformOutputs outputs platformLock lock views)
      ⟨{files := priorFiles prior}, fault⟩
      (fun _ w => NewPair outputs platformLock prior lock views w.state.files)
      (fun _ w => w.state.files = priorFiles prior ∨
        NewPair outputs platformLock prior lock views w.state.files) := by
  refine EndsIn.bind (EndsIn.validate (fun _ hne => ?_) fun _ _ => .inl rfl)
  have hne := require_eq_ok.mp hne
  refine EndsIn.bind (io_endsIn (fun _ _ => ?_) fun _ => .inl rfl)
  refine EndsIn.bind (io_endsIn (fun _ _ => ?_) fun _ => .inl rfl)
  refine EndsIn.bind (EndsIn.validate (fun lockData hlockData => ?_) fun _ _ => .inl rfl)
  refine EndsIn.bind (EndsIn.validate (fun viewsData hviewsData => ?_) fun _ _ => .inl rfl)
  refine EndsIn.bind (io_endsIn (fun _ _ => ?_) fun _ => .inl rfl)
  have hnew {files : Files} (h : files = newFiles prior lock views lockData viewsData ∧
      Bound outputs lockData viewsData) : NewPair outputs platformLock prior lock views files :=
    ⟨lockData, viewsData, hlockData, hviewsData, h⟩
  let pair := NewPair outputs platformLock prior lock views
  let settled := fun files => files = priorFiles prior ∨ pair files
  have hkept {w : Faulty Publication} (h : settled w.state.files) :=
    release_endsIn settled settled h h
  refine EndsIn.ensure (EndsIn.bind (io_endsIn (fun _ _ => ?_) fun _ => hkept (.inl rfl)))
  refine EndsIn.bind (readPrior_endsIn (fun _ => ?_) (hkept (.inl rfl)))
  refine EndsIn.bind (readPrior_endsIn (fun _ => ?_) (hkept (.inl rfl)))
  refine (tryPublish_endsIn hne).mono (fun _ w h => ?_) fun _ w h => hkept (h.imp_right hnew)
  exact release_endsIn pair settled (hnew h) (.inr (hnew h))

end NovaRtl.PlatformLock
