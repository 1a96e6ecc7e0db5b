import NovaRtl.Artifacts.Store

/-!
# Publishing artifacts

Several processes publish artifacts at once. Each may raise or be killed at any step, and power may
fail. The holder of a lock is the only one that changes its path, and a path that has a regular file
keeps its content until power fails. `store_certified` is what these rules come to.
-/

namespace NovaRtl.Artifacts

open Scheduler Transact

/-- The content cannot be told from the data by its digest and its size. -/
structure Call.Alike (call : Call) (content : ByteArray) : Prop where
  digest_eq : digestOf content = call.digest
  size_eq : content.size = call.data.size

/-- A path with a regular file keeps its content and its time. -/
def Keeps (s t : Disk) : Prop :=
  ∀ digest file, s.regular? digest = some file →
    ∃ file', t.regular? digest = some file' ∧ file'.content = file.content ∧
      file'.mtime = file.mtime

/-- What holds between any two steps, if these were the contents at first. -/
structure Valid (initial : Digest → Option ByteArray) (s : Disk) : Prop where
  synced : ∀ digest file, s.regular? digest = some file → file.synced
  durable : ∀ digest file, (s.blobs digest).durable = some (.regular file) →
    file.synced ∧ ∃ file', s.regular? digest = some file' ∧ file'.content = file.content
  verified : ∀ digest file, s.regular? digest = some file →
    digestOf file.content = digest ∨ initial digest = some file.content
  answered : ∀ answer ∈ s.answers, ∃ file, s.regular? answer.1.digest = some file ∧
    answer.1.Alike file.content ∧ answer.2 = answer.1.ref file.mtime

/-- What the other processes may do. -/
structure Rely (process : ProcessId) (s t : Disk) : Prop where
  held : ∀ digest, t.holder digest = some process ↔ s.holder digest = some process
  blobs : ∀ digest, s.holder digest = some process → t.blobs digest = s.blobs digest
  temporaries : ∀ temporary,
    t.temporaries (process, temporary) = s.temporaries (process, temporary)
  keeps : Keeps s t

/-- What a process does. -/
structure Guarantee (initial : Digest → Option ByteArray) (process : ProcessId) (s t : Disk) :
    Prop where
  held : ∀ other ≠ process, ∀ digest,
    t.holder digest = some other ↔ s.holder digest = some other
  blobs : ∀ other ≠ process, ∀ digest,
    s.holder digest = some other → t.blobs digest = s.blobs digest
  temporaries : ∀ other ≠ process, ∀ temporary,
    t.temporaries (other, temporary) = s.temporaries (other, temporary)
  keeps : Keeps s t
  losses : t.losses = s.losses
  valid : Valid initial s → Valid initial t

variable {initial : Digest → Option ByteArray} {process other : ProcessId} {s t u : Disk}
  {digest : Digest} {call : Call} {file : File}

theorem Keeps.refl (s : Disk) : Keeps s s := fun _ file h => ⟨file, h, rfl, rfl⟩

theorem Keeps.trans (h : Keeps s t) (h' : Keeps t u) : Keeps s u := by
  intro digest file hfile
  obtain ⟨file', hfile', hcontent, hmtime⟩ := h digest file hfile
  obtain ⟨file'', hfile'', hcontent', hmtime'⟩ := h' digest file' hfile'
  exact ⟨file'', hfile'', hcontent'.trans hcontent, hmtime'.trans hmtime⟩

instance : Std.Refl (Rely process) :=
  ⟨fun s => ⟨fun _ => Iff.rfl, fun _ _ => rfl, fun _ => rfl, .refl s⟩⟩

instance : IsTrans Disk (Rely process) where
  trans _ _ _ h h' :=
    { held := fun digest => (h'.held digest).trans (h.held digest)
      blobs := fun digest hheld =>
        (h'.blobs digest ((h.held digest).mpr hheld)).trans (h.blobs digest hheld)
      temporaries := fun temporary => (h'.temporaries temporary).trans (h.temporaries temporary)
      keeps := h.keeps.trans h'.keeps }

theorem Guarantee.refl (s : Disk) : Guarantee initial process s s :=
  ⟨fun _ _ _ => Iff.rfl, fun _ _ _ _ => rfl, fun _ _ _ => rfl, .refl s, rfl, id⟩

theorem Guarantee.trans (h : Guarantee initial process s t) (h' : Guarantee initial process t u)
    : Guarantee initial process s u := by
  refine ⟨fun other hne digest => (h'.held other hne digest).trans (h.held other hne digest),
    fun other hne digest hother => ?_, fun other hne temporary => ?_, h.keeps.trans h'.keeps,
    h'.losses.trans h.losses, fun hvalid => h'.valid (h.valid hvalid)⟩
  · rw [h'.blobs other hne digest ((h.held other hne digest).mpr hother),
      h.blobs other hne digest hother]
  · rw [h'.temporaries other hne temporary, h.temporaries other hne temporary]

theorem Guarantee.rely (hne : other ≠ process) (h : Guarantee initial process s t) :
    Rely other s t :=
  ⟨h.held other hne, h.blobs other hne, h.temporaries other hne, h.keeps⟩

/-! ## Changes of the disk -/

theorem regular?_eq_some :
    s.regular? digest = some file ↔ s.node digest = some (.regular file) := by
  unfold Disk.regular?
  split
  next found hnode => simp [hnode]
  next hnone => simpa using hnone file

/-- Only the locks change, and none of another process. -/
theorem Guarantee.of_holder (holder : Digest → Option ProcessId)
    (h : ∀ other ≠ process, ∀ digest, holder digest = some other ↔ s.holder digest = some other) :
    Guarantee initial process s { s with holder } :=
  ⟨h, fun _ _ _ _ => rfl, fun _ _ _ => rfl, .refl s, rfl,
    fun hvalid => ⟨hvalid.synced, hvalid.durable, hvalid.verified, hvalid.answered⟩⟩

theorem Guarantee.kill (s : Disk) : Guarantee initial process s (s.kill process) := by
  refine .of_holder _ fun other hne digest => ?_
  split
  next hheld => simp [hheld, hne.symm]
  next => exact Iff.rfl

theorem holder_setHolder (holder : Option ProcessId) (digest' : Digest) :
    (s.setHolder digest holder).holder digest' =
      if digest' = digest then holder else s.holder digest' :=
  Function.update_apply _ _ _ _

theorem Guarantee.setHolder (holder : Option ProcessId)
    (h : ∀ other ≠ process, holder = some other ↔ s.holder digest = some other) :
    Guarantee initial process s (s.setHolder digest holder) := by
  refine .of_holder _ fun other hne digest' => ?_
  by_cases hsame : digest' = digest
  · subst hsame
    rw [Function.update_self]
    exact h other hne
  · rw [Function.update_of_ne hsame]

theorem Guarantee.setTemporary (temporary : ℕ) (file : Option File) :
    Guarantee initial process s (s.setTemporary (process, temporary) file) := by
  refine ⟨fun _ _ _ => Iff.rfl, fun _ _ _ _ => rfl, fun other hne temporary' => ?_, .refl s, rfl,
    fun hvalid => ⟨hvalid.synced, hvalid.durable, hvalid.verified, hvalid.answered⟩⟩
  exact Function.update_of_ne (by simp [hne]) _ _

@[simp] theorem blobs_setBlob_self (blob : Blob) :
    (s.setBlob digest blob).blobs digest = blob :=
  Function.update_self _ _ _

@[simp] theorem node_setBlob_self (blob : Blob) :
    (s.setBlob digest blob).node digest = blob.node := by
  rw [Disk.node, blobs_setBlob_self]

theorem blobs_setBlob_of_ne {digest' : Digest} (h : digest' ≠ digest) (blob : Blob) :
    (s.setBlob digest blob).blobs digest' = s.blobs digest' :=
  Function.update_of_ne h _ _

theorem regular?_setBlob_of_ne {digest' : Digest} (h : digest' ≠ digest) (blob : Blob) :
    (s.setBlob digest blob).regular? digest' = s.regular? digest' := by
  unfold Disk.regular? Disk.node
  rw [blobs_setBlob_of_ne h]

/-- The holder of a lock changes its path, and keeps what is there. -/
theorem Guarantee.setBlob {blob : Blob} (hheld : s.holder digest = some process)
    (hkeeps : ∀ file, s.regular? digest = some file → ∃ file', blob.node = some (.regular file') ∧
      file'.content = file.content ∧ file'.mtime = file.mtime)
    (hnode : Valid initial s → ∀ file, blob.node = some (.regular file) → file.synced ∧
      (digestOf file.content = digest ∨ initial digest = some file.content))
    (hdurable : Valid initial s → ∀ file, blob.durable = some (.regular file) → file.synced ∧
      ∃ file', blob.node = some (.regular file') ∧ file'.content = file.content) :
    Guarantee initial process s (s.setBlob digest blob) := by
  have hkept : Keeps s (s.setBlob digest blob) := by
    intro digest' file hfile
    by_cases hsame : digest' = digest
    · subst hsame
      obtain ⟨file', hnode', hsame'⟩ := hkeeps file hfile
      exact ⟨file', regular?_eq_some.mpr (by rw [node_setBlob_self, hnode']), hsame'⟩
    · exact ⟨file, by rwa [regular?_setBlob_of_ne hsame], rfl, rfl⟩
  refine ⟨fun _ _ _ => Iff.rfl, fun other hne digest' hother => ?_, fun _ _ _ => rfl, hkept, rfl,
    fun hvalid => ⟨fun digest' file hfile => ?_, fun digest' file hfile => ?_,
      fun digest' file hfile => ?_, fun answer hanswer => ?_⟩⟩
  · refine blobs_setBlob_of_ne (fun hsame => hne ?_) blob
    rw [hsame, hheld] at hother
    exact (Option.some_inj.mp hother).symm
  · by_cases hsame : digest' = digest
    · subst hsame
      rw [regular?_eq_some, node_setBlob_self] at hfile
      exact (hnode hvalid file hfile).1
    · rw [regular?_setBlob_of_ne hsame] at hfile
      exact hvalid.synced digest' file hfile
  · by_cases hsame : digest' = digest
    · subst hsame
      rw [blobs_setBlob_self] at hfile
      obtain ⟨hsynced, file', hfile', hcontent⟩ := hdurable hvalid file hfile
      exact ⟨hsynced, file', regular?_eq_some.mpr (by rw [node_setBlob_self, hfile']), hcontent⟩
    · rw [blobs_setBlob_of_ne hsame] at hfile
      rw [regular?_setBlob_of_ne hsame]
      exact hvalid.durable digest' file hfile
  · by_cases hsame : digest' = digest
    · subst hsame
      rw [regular?_eq_some, node_setBlob_self] at hfile
      exact (hnode hvalid file hfile).2
    · rw [regular?_setBlob_of_ne hsame] at hfile
      exact hvalid.verified digest' file hfile
  · obtain ⟨file, hfile, halike, href⟩ := hvalid.answered answer hanswer
    obtain ⟨file', hfile', hcontent, hmtime⟩ := hkept _ file hfile
    exact ⟨file', hfile', hcontent ▸ halike, hmtime ▸ href⟩

theorem Guarantee.updateBlob {f : File → File} (hheld : s.holder digest = some process)
    (hcontent : ∀ file, (f file).content = file.content)
    (hmtime : ∀ file, (f file).mtime = file.mtime)
    (hsynced : ∀ file, file.synced → (f file).synced) :
    Guarantee initial process s (s.updateBlob digest f) := by
  unfold Disk.updateBlob
  split
  next found hfound =>
    refine .setBlob hheld (fun file hfile => ?_) (fun hvalid file hfile => ?_)
      fun hvalid file hfile => ?_
    · rw [hfound] at hfile
      cases hfile
      exact ⟨f found, rfl, hcontent found, hmtime found⟩
    · cases hfile
      exact ⟨hsynced found (hvalid.synced digest found hfound),
        (hcontent found).symm ▸ hvalid.verified digest found hfound⟩
    · obtain ⟨hdurable, file', hfile', hsame⟩ := hvalid.durable digest file hfile
      rw [hfound] at hfile'
      cases hfile'
      exact ⟨hdurable, f found, rfl, (hcontent found).trans hsame⟩
  next => exact .refl s

theorem Guarantee.fsyncDirectory (hheld : s.holder digest = some process) :
    Guarantee initial process s (Operation.apply process s (.fsyncDirectory digest) ()) := by
  refine .setBlob hheld (fun file hfile => ⟨file, regular?_eq_some.mp hfile, rfl, rfl⟩)
    (fun hvalid file hfile => ?_) fun hvalid file hfile => ?_
  · have hregular : s.regular? digest = some file := regular?_eq_some.mpr hfile
    exact ⟨hvalid.synced digest file hregular, hvalid.verified digest file hregular⟩
  · exact ⟨hvalid.synced digest file (regular?_eq_some.mpr hfile), file, hfile, rfl⟩

theorem regular?_of_absent (habsent : exists? (s.node digest) = false) :
    s.regular? digest = none := by
  unfold Disk.regular?
  split
  next file hnode =>
    rw [hnode] at habsent
    cases habsent
  next => rfl

/-- A temporary file with the data takes a place that was free. -/
theorem Guarantee.replace {temporary : ℕ} (hheld : s.holder digest = some process)
    (habsent : exists? (s.node digest) = false)
    (hstaged : s.temporaries (process, temporary) = some file) (hsynced : file.synced)
    (hcontent : digestOf file.content = digest) :
    Guarantee initial process s (Operation.apply process s (.replace temporary digest) ()) := by
  have hnone := regular?_of_absent habsent
  have hplaced : Guarantee initial process s (s.setBlob digest
      { s.blobs digest with node := (s.temporaries (process, temporary)).map .regular }) := by
    refine .setBlob hheld (fun file' hfile' => ?_) (fun _ file' hfile' => ?_)
      fun hvalid file' hfile' => ?_
    · rw [hnone] at hfile'
      cases hfile'
    · rw [hstaged] at hfile'
      cases hfile'
      exact ⟨hsynced, .inl hcontent⟩
    · obtain ⟨-, file'', hfile'', -⟩ := hvalid.durable digest file' hfile'
      rw [hnone] at hfile''
      cases hfile''
  exact hplaced.trans (.setTemporary temporary none)

/-! ## Assertions -/

/-- The process holds no lock. -/
def Idle (process : ProcessId) (s : Disk) : Prop := ∀ digest, s.holder digest ≠ some process

/-- The process holds the lock of the digest and no other. -/
def Holding (process : ProcessId) (digest : Digest) (s : Disk) : Prop :=
  ∀ digest', s.holder digest' = some process ↔ digest' = digest

/-- The artifact of the call is at its path. -/
def Stored (call : Call) (s : Disk) : Prop :=
  ∃ file, s.regular? call.digest = some file ∧ call.Alike file.content

/-- The lock is held, and its path is free. -/
def Free (process : ProcessId) (digest : Digest) (s : Disk) : Prop :=
  Holding process digest s ∧ exists? (s.node digest) = false

/-- The path is free, and a temporary file is as far as `staged` says. -/
def Staging (process : ProcessId) (digest : Digest) (temporary : ℕ) (staged : File → Prop)
    (s : Disk) : Prop :=
  Free process digest s ∧ ∃ file, s.temporaries (process, temporary) = some file ∧ staged file

/-- The lock is held, and the artifact is at its path. -/
def Kept (process : ProcessId) (call : Call) (s : Disk) : Prop :=
  Holding process call.digest s ∧ Stored call s

theorem Holding.self (h : Holding process digest s) : s.holder digest = some process :=
  (h digest).mpr rfl

theorem stable_idle : Stable (Rely process) (Idle process) :=
  fun _ _ hs hrely digest hheld => hs digest ((hrely.held digest).mp hheld)

theorem stable_holding : Stable (Rely process) (Holding process digest) :=
  fun _ _ hs hrely digest' => (hrely.held digest').trans (hs digest')

theorem stable_stored : Stable (Rely process) (Stored call) := by
  rintro s t ⟨file, hfile, halike⟩ hrely
  obtain ⟨file', hfile', hcontent, -⟩ := hrely.keeps _ file hfile
  exact ⟨file', hfile', hcontent ▸ halike⟩

theorem stable_free : Stable (Rely process) (Free process digest) := by
  rintro s t ⟨hholding, habsent⟩ hrely
  refine ⟨stable_holding s t hholding hrely, ?_⟩
  rwa [Disk.node, hrely.blobs digest hholding.self]

theorem stable_staging {temporary : ℕ} {staged : File → Prop} :
    Stable (Rely process) (Staging process digest temporary staged) := by
  rintro s t ⟨hfree, file, hfile, hstaged⟩ hrely
  exact ⟨stable_free s t hfree hrely, file, (hrely.temporaries temporary).trans hfile, hstaged⟩

theorem stable_kept : Stable (Rely process) (Kept process call) :=
  fun s t hs hrely => ⟨stable_holding s t hs.1 hrely, stable_stored s t hs.2 hrely⟩

/-! ## What the parts do -/

/-- How a part ends: it returns, it raises, or its process is killed. -/
def Ends {α : Type} (process : ProcessId) (returns : α → Disk → Prop) (raises : Disk → Prop) :
    Except Exit α → Disk → Prop
  | .ok a => returns a
  | .error (.raised _) => raises
  | .error .killed => Idle process

abbrev Does {α : Type} (initial : Digest → Option ByteArray) (process : ProcessId)
    (P : Disk → Prop) (x : Op α) (returns : α → Disk → Prop) (raises : Disk → Prop) : Prop :=
  Triple disk (Rely process) (Guarantee initial process) P x (Ends process returns raises)

/-- The state that a reply leaves. -/
def Reply.Leaves {α : Type} (process : ProcessId) (returns : α → Disk → Prop)
    (raises : Disk → Prop) : Reply α → Disk → Prop
  | .done value => returns value
  | .failed _ => raises
  | .killed => Idle process

theorem does_perform {operation : Operation} {P raises : Disk → Prop}
    {returns : operation.Value → Disk → Prop} (hP : Stable (Rely process) P)
    (hstable : ∀ value, Stable (Rely process) (returns value))
    (hraises : Stable (Rely process) raises)
    (hdone : ∀ s value, P s → operation.Returns process s value →
      Guarantee initial process s (operation.apply process s value) ∧
        returns value (operation.apply process s value))
    (hfailed : ∀ s partialData, P s →
      Guarantee initial process s (operation.fail process s partialData) ∧
        raises (operation.fail process s partialData)) :
    Does initial process P (perform process operation) returns raises := by
  refine Triple.call hP (Reply.Leaves process returns raises) (fun s reply hs hallowed => ?_)
    fun reply => ?_
  · cases reply with
    | done value => exact hdone s value hs hallowed
    | failed partialData => exact hfailed s partialData hs
    | killed =>
      refine ⟨Guarantee.kill s, fun digest => ?_⟩
      change (if s.holder digest = some process then none else s.holder digest) ≠ some process
      split
      · simp
      · assumption
  · cases reply with
    | done value => exact Triple.ret (hstable value) fun _ => id
    | failed partialData => exact Triple.throw hraises fun _ => id
    | killed => exact Triple.throw stable_idle fun _ => id

/-- An operation that changes nothing. -/
theorem does_look {operation : Operation} {P raises : Disk → Prop}
    {returns : operation.Value → Disk → Prop} (hP : Stable (Rely process) P)
    (hstable : ∀ value, Stable (Rely process) (returns value))
    (hraises : Stable (Rely process) raises)
    (happly : ∀ s value, operation.apply process s value = s)
    (hfail : ∀ s partialData, operation.fail process s partialData = s)
    (hdone : ∀ s value, P s → operation.Returns process s value → returns value s)
    (hfailed : ∀ s, P s → raises s) :
    Does initial process P (perform process operation) returns raises := by
  refine does_perform hP hstable hraises (fun s value hs hreturns => ?_) fun s partialData hs => ?_
  · rw [happly]
    exact ⟨.refl s, hdone s value hs hreturns⟩
  · rw [hfail]
    exact ⟨.refl s, hfailed s hs⟩

section Rules

variable {α β : Type} {x : Op α} {P raises raises' : Disk → Prop} {returns : α → Disk → Prop}

theorem does_bind {k : α → Op β} {returns' : β → Disk → Prop} (returns : α → Disk → Prop)
    (hx : Does initial process P x returns raises)
    (hk : ∀ a, Does initial process (returns a) (k a) returns' raises) :
    Does initial process P (x >>= k) returns' raises := by
  refine Triple.bind returns (hx.conseq (fun _ => id) fun r s hr => ?_) hk
  cases r with
  | ok a => exact hr
  | error e => cases e <;> exact hr

theorem does_conseq {P' : Disk → Prop} {returns' : α → Disk → Prop}
    (h : Does initial process P' x returns' raises') (hP : ∀ s, P s → P' s)
    (hreturns : ∀ a s, returns' a s → returns a s) (hraises : ∀ s, raises' s → raises s) :
    Does initial process P x returns raises := by
  refine h.conseq hP fun r s hr => ?_
  cases r with
  | ok a => exact hreturns a s hr
  | error e =>
    cases e with
    | raised e => exact hraises s hr
    | killed => exact hr

theorem does_ret {a : α} (hP : Stable (Rely process) P) (h : ∀ s, P s → returns a s) :
    Does initial process P (.ret a) returns raises :=
  Triple.ret hP h

theorem does_raise {e : StoreError} (hP : Stable (Rely process) P) (h : ∀ s, P s → raises s) :
    Does initial process P (.throw (.raised e) : Op α) returns raises :=
  Triple.throw hP h

/-- The cleanup runs where `x` raises, and not where its process is killed. -/
theorem does_onError {cleanup : Op Unit} (hx : Does initial process P x returns raises)
    (hreturns : ∀ a, Stable (Rely process) (returns a)) (hraises : Stable (Rely process) raises)
    (hraises' : Stable (Rely process) raises')
    (hcleanup : Does initial process raises cleanup (fun _ => raises') raises') :
    Does initial process P (x.onError Exit.IsRaised cleanup) returns raises' := by
  refine Triple.onError Guarantee.refl (Ends process returns raises) (fun r => ?_) hx
    (fun _ _ => id) (fun e s he hs => ?_) (fun e he => ?_) fun e => ?_
  · cases r with
    | ok a => exact hreturns a
    | error e =>
      cases e with
      | raised e => exact hraises
      | killed => exact stable_idle
  · cases e with
    | raised e => exact absurd (by simp [Exit.IsRaised]) he
    | killed => exact hs
  · cases e with
    | raised e =>
      refine hcleanup.conseq (fun _ => id) fun r s hr => ?_
      cases r with
      | ok u => exact hr
      | error e' => cases e' <;> exact hr
    | killed => exact absurd rfl he
  · cases e with
    | raised e => exact hraises'
    | killed => exact stable_idle

end Rules

theorem verifyPath_eq_ok {size : ℕ} {node : Option Node} {content : ByteArray}
    (h : verifyPath digest size node = .ok content) :
    ∃ file, node = some (.regular file) ∧ file.content = content ∧ content.size = size ∧
      digestOf content = digest := by
  unfold verifyPath at h
  split at h
  · cases h
  · cases h
  next file =>
    split at h
    · cases h
    next hsame =>
      cases h
      rw [not_or, not_not, not_not] at hsame
      exact ⟨file, rfl, rfl, hsame⟩

theorem verifyBlob_does :
    Does initial process (Holding process call.digest)
      (verifyBlob process call.digest call.data.size) (fun _ => Kept process call)
      (Holding process call.digest) := by
  refine does_bind (fun result s => Holding process call.digest s ∧
    ∀ content, result = .ok content → Stored call s) ?_ fun result => ?_
  · refine does_look stable_holding (fun result s t hs hrely => ?_) stable_holding
      (fun _ _ => rfl) (fun _ _ => rfl) (fun s result hs hreturns => ?_) fun _ => id
    · exact ⟨stable_holding s t hs.1 hrely, fun content hcontent =>
        stable_stored s t (hs.2 content hcontent) hrely⟩
    · refine ⟨hs, fun content hcontent => ?_⟩
      obtain ⟨file, hnode, rfl, hsize, hdigest⟩ :=
        verifyPath_eq_ok ((show result = _ from hreturns).symm.trans hcontent)
      exact ⟨file, regular?_eq_some.mpr hnode, hdigest, hsize⟩
  · have hstable : Stable (Rely process) fun s => Holding process call.digest s ∧
        ∀ content, result = .ok content → Stored call s := fun s t hs hrely =>
      ⟨stable_holding s t hs.1 hrely, fun content hcontent =>
        stable_stored s t (hs.2 content hcontent) hrely⟩
    cases result with
    | ok content => exact does_ret hstable fun s hs => ⟨hs.1, hs.2 content rfl⟩
    | error e => exact does_raise hstable fun s hs => hs.1

theorem Kept.updateBlob {f : File → File} (h : Kept process call s)
    (hcontent : ∀ file, (f file).content = file.content)
    (hmtime : ∀ file, (f file).mtime = file.mtime)
    (hsynced : ∀ file, file.synced → (f file).synced) :
    Guarantee initial process s (s.updateBlob call.digest f) ∧
      Kept process call (s.updateBlob call.digest f) := by
  have hguarantee : Guarantee initial process s (s.updateBlob call.digest f) :=
    .updateBlob h.1.self hcontent hmtime hsynced
  have hholder : (s.updateBlob call.digest f).holder = s.holder := by
    unfold Disk.updateBlob
    split <;> rfl
  obtain ⟨file, hfile, halike⟩ := h.2
  obtain ⟨file', hfile', hsame, -⟩ := hguarantee.keeps _ file hfile
  refine ⟨hguarantee, fun digest' => ?_, file', hfile', hsame ▸ halike⟩
  rw [hholder]
  exact h.1 digest'

/-- A blob that is there is verified, and its permissions are put right. -/
theorem confirm_does :
    Does initial process (Holding process call.digest) (confirm process call)
      (fun _ => Kept process call) (Holding process call.digest) := by
  refine does_bind _ verifyBlob_does fun _ => ?_
  refine does_bind (fun _ => Kept process call) (does_look stable_kept (fun _ => stable_kept)
    stable_holding (fun _ _ => rfl) (fun _ _ => rfl) (fun _ _ hs _ => hs) fun _ hs => hs.1)
      fun permissions => ?_
  split
  · refine does_bind (fun _ => Kept process call) (does_perform stable_kept (fun _ => stable_kept)
      stable_holding (fun s _ hs _ => ?_) fun s _ hs => ⟨.refl s, hs.1⟩) fun _ =>
        does_perform stable_kept (fun _ => stable_kept) stable_holding (fun s _ hs _ => ?_)
          fun s _ hs => ⟨.refl s, hs.1⟩
    · exact hs.updateBlob (fun _ => rfl) (fun _ => rfl) fun _ => id
    · exact hs.updateBlob (fun _ => rfl) (fun _ => rfl) fun _ _ => rfl
  · exact does_ret stable_kept fun _ => id

theorem Staging.updateTemporary {temporary : ℕ} {staged staged' : File → Prop} {f : File → File}
    (h : Staging process digest temporary staged s)
    (hstaged : ∀ file, staged file → staged' (f file)) :
    Guarantee initial process s (s.updateTemporary (process, temporary) f) ∧
      Staging process digest temporary staged' (s.updateTemporary (process, temporary) f) := by
  obtain ⟨hfree, file, hfile, hfound⟩ := h
  refine ⟨.setTemporary temporary _, hfree, f file, ?_, hstaged file hfound⟩
  rw [Disk.updateTemporary, hfile]
  exact Function.update_self _ _ _

/-- The temporary file takes the place of the blob. -/
theorem Staging.replace {temporary : ℕ} (h : Staging process call.digest temporary
      (fun file => file.content = call.data ∧ file.synced) s) :
    Guarantee initial process s
        (Operation.apply process s (.replace temporary call.digest) ()) ∧
      Kept process call (Operation.apply process s (.replace temporary call.digest) ()) := by
  obtain ⟨⟨hholding, habsent⟩, file, hfile, hcontent, hsynced⟩ := h
  refine ⟨.replace hholding.self habsent hfile hsynced (congrArg digestOf hcontent), hholding,
    file, ?_, congrArg digestOf hcontent, congrArg ByteArray.size hcontent⟩
  rw [regular?_eq_some]
  exact (node_setBlob_self _).trans (congrArg (Option.map Node.regular) hfile)

theorem publish_does :
    Does initial process (Free process call.digest) (publish process call)
      (fun _ => Kept process call) (Holding process call.digest) := by
  have hcreated : Does initial process (Free process call.digest)
      (perform process .createTemporary)
      (fun temporary => Staging process call.digest temporary fun _ => True)
      (Holding process call.digest) := by
    refine does_perform stable_free (fun _ => stable_staging) stable_holding
      (fun s temporary hs _ => ⟨.setTemporary temporary _, hs, ?_⟩) fun s _ hs => ⟨.refl s, hs.1⟩
    exact ⟨_, Function.update_self _ _ _, trivial⟩
  refine does_bind _ hcreated fun temporary => ?_
  have hplaced : Does initial process
      (Staging process call.digest temporary fun _ => True)
      (do let _ ← perform process (.write temporary call.data)
          perform process (.fchmod temporary)
          perform process (.fsync temporary)
          perform process (.replace temporary call.digest))
      (fun _ => Kept process call) (Holding process call.digest) := by
    refine does_bind (fun _ => Staging process call.digest temporary
      fun file => file.content = call.data) (does_perform stable_staging
        (fun _ => stable_staging) stable_holding (fun s _ hs _ => ?_) fun s _ hs => ?_) fun _ => ?_
    · exact hs.updateTemporary fun _ _ => rfl
    · exact ⟨.setTemporary temporary _, hs.1.1⟩
    refine does_bind (fun _ => Staging process call.digest temporary
      fun file => file.content = call.data) (does_perform stable_staging
        (fun _ => stable_staging) stable_holding (fun s _ hs _ => ?_)
          fun s _ hs => ⟨.refl s, hs.1.1⟩) fun _ => ?_
    · exact hs.updateTemporary fun _ => id
    refine does_bind (fun _ => Staging process call.digest temporary
      fun file => file.content = call.data ∧ file.synced) (does_perform stable_staging
        (fun _ => stable_staging) stable_holding (fun s _ hs _ => ?_)
          fun s _ hs => ⟨.refl s, hs.1.1⟩) fun _ => ?_
    · exact hs.updateTemporary fun _ hcontent => ⟨hcontent, rfl⟩
    exact does_perform stable_staging (fun _ => stable_kept) stable_holding
      (fun s _ hs _ => hs.replace) fun s _ hs => ⟨.refl s, hs.1.1⟩
  refine does_bind (fun _ => Kept process call) (does_onError hplaced (fun _ => stable_kept)
    stable_holding stable_holding ?_) fun _ => ?_
  · refine does_perform stable_holding (fun _ => stable_holding) stable_holding
      (fun s _ hs _ => ⟨.setTemporary temporary none, hs⟩) fun s _ hs => ⟨.refl s, hs⟩
  · refine does_bind (fun _ => Holding process call.digest) ?_ fun _ => verifyBlob_does
    refine does_perform stable_kept (fun _ => stable_holding) stable_holding
      (fun s _ hs _ => ⟨.fsyncDirectory hs.1.self, hs.1⟩) fun s _ hs => ⟨.refl s, hs.1⟩

theorem putLocked_does :
    Does initial process (Holding process call.digest) (putLocked process call)
      (fun _ => Kept process call) (Holding process call.digest) := by
  refine does_bind (fun found s => Holding process call.digest s ∧
    (found = false → exists? (s.node call.digest) = false)) ?_ fun found => ?_
  · refine does_look stable_holding (fun found s t hs hrely => ?_) stable_holding
      (fun _ _ => rfl) (fun _ _ => rfl) (fun s found hs hreturns => ⟨hs, ?_⟩) fun _ => id
    · refine ⟨stable_holding s t hs.1 hrely, fun hfound => ?_⟩
      rw [Disk.node, hrely.blobs _ hs.1.self]
      exact hs.2 hfound
    · rintro rfl
      exact (show false = _ from hreturns).symm
  · cases found with
    | true => exact does_conseq confirm_does (fun s hs => hs.1) (fun _ _ => id) fun _ => id
    | false =>
      exact does_conseq publish_does (fun s hs => ⟨hs.1, hs.2 rfl⟩) (fun _ _ => id) fun _ => id

/-- The process has read the time of the blob that it published. -/
def Dated (process : ProcessId) (call : Call) (mtime : Instant) (s : Disk) : Prop :=
  Idle process s ∧ ∃ file, s.regular? call.digest = some file ∧ call.Alike file.content ∧
    mtime = file.mtime

theorem stable_dated {mtime : Instant} : Stable (Rely process) (Dated process call mtime) := by
  rintro s t ⟨hidle, file, hfile, halike, hmtime⟩ hrely
  obtain ⟨file', hfile', hcontent, hsame⟩ := hrely.keeps _ file hfile
  exact ⟨stable_idle s t hidle hrely, file', hfile', hcontent ▸ halike, hsame ▸ hmtime⟩

/-- The lock is released however its holder goes on. -/
theorem unlock_does {P Q : Disk → Prop} (hP : Stable (Rely process) P)
    (hQ : Stable (Rely process) Q) (hholding : ∀ s, P s → Holding process digest s)
    (hkeeps : ∀ s, P s → Q (s.setHolder digest none)) :
    Does initial process P (perform process (.unlock digest))
      (fun _ s => Idle process s ∧ Q s) (Idle process) := by
  have hreleased : ∀ s, P s → Guarantee initial process s (s.setHolder digest none) ∧
      Idle process (s.setHolder digest none) := by
    intro s hs
    have hheld := hholding s hs
    refine ⟨.setHolder none fun other hne => ?_, fun digest' hother => ?_⟩
    · simp [hheld.self, hne.symm]
    · rw [holder_setHolder] at hother
      split at hother
      next => cases hother
      next hne => exact hne ((hheld digest').mp hother)
  refine does_perform hP (fun _ s t hs hrely => ⟨stable_idle s t hs.1 hrely, hQ s t hs.2 hrely⟩)
    stable_idle (fun s _ hs _ => ?_) fun s _ hs => hreleased s hs
  exact ⟨(hreleased s hs).1, (hreleased s hs).2, hkeeps s hs⟩

theorem putBytes_does :
    Does initial process (Idle process) (putBytes process call) (fun _ => Idle process)
      (Idle process) := by
  unfold putBytes
  split
  · exact does_raise stable_idle fun _ => id
  have hquiet : ∀ operation : Operation,
      (∀ s value, operation.apply process s value = s) →
      (∀ s partialData, operation.fail process s partialData = s) →
      Does initial process (Idle process) (perform process operation) (fun _ => Idle process)
        (Idle process) := fun operation happly hfail =>
    does_look stable_idle (fun _ => stable_idle) stable_idle happly hfail (fun _ _ hs _ => hs)
      fun _ => id
  refine does_bind _ (hquiet _ (fun _ _ => rfl) fun _ _ => rfl) fun _ => ?_
  refine does_bind _ (hquiet _ (fun _ _ => rfl) fun _ _ => rfl) fun _ => ?_
  refine does_bind (fun _ => Holding process call.digest) ?_ fun _ => ?_
  · refine does_perform stable_idle (fun _ => stable_holding) stable_idle
      (fun s _ hs hfree => ⟨.setHolder _ fun other hne => ?_, fun digest' => ?_⟩)
      fun s _ hs => ⟨.refl s, hs⟩
    · rw [show s.holder call.digest = none from hfree]
      simp [hne.symm]
    · change (s.setHolder call.digest (some process)).holder digest' = some process ↔ _
      rw [holder_setHolder]
      split
      next hsame => simp [hsame]
      next hne => simp [hne, hs digest']
  refine does_bind (fun _ s => Idle process s ∧ Stored call s) ?_ fun _ => ?_
  · refine does_bind (fun _ => Kept process call) (does_onError putLocked_does
      (fun _ => stable_kept) stable_holding stable_idle ?_) fun _ => ?_
    · exact does_conseq (unlock_does stable_holding (fun _ _ _ _ => trivial) (fun _ => id)
        fun _ _ => trivial) (fun _ => id) (fun _ _ hs => hs.1) fun _ => id
    · exact does_bind _ (unlock_does stable_kept stable_stored (fun _ hs => hs.1) fun _ hs => hs.2)
        fun _ => does_ret (fun s t hs hrely => ⟨stable_idle s t hs.1 hrely,
          stable_stored s t hs.2 hrely⟩) fun _ => id
  refine does_bind (Dated process call) ?_ fun mtime => ?_
  · refine does_look (fun s t hs hrely => ⟨stable_idle s t hs.1 hrely,
      stable_stored s t hs.2 hrely⟩) (fun _ => stable_dated) stable_idle (fun _ _ => rfl)
        (fun _ _ => rfl) (fun s mtime hs hreturns => ?_) fun s hs => hs.1
    obtain ⟨hidle, file, hfile, halike⟩ := hs
    obtain ⟨file', hfile', hmtime⟩ := hreturns
    rw [hfile] at hfile'
    cases hfile'
    exact ⟨hidle, file, hfile, halike, hmtime⟩
  · refine Triple.modify stable_dated (fun s hs => ?_) fun s t hs hrely => ?_
    · refine ⟨fun _ _ _ => Iff.rfl, fun _ _ _ _ => rfl, fun _ _ _ => rfl, .refl s, rfl,
        fun hvalid => ⟨hvalid.synced, hvalid.durable, hvalid.verified, fun answer hanswer => ?_⟩⟩
      rcases List.mem_append.mp hanswer with hanswer | hanswer
      · exact hvalid.answered answer hanswer
      · obtain ⟨-, file, hfile, halike, hmtime⟩ := hs
        rw [List.mem_singleton] at hanswer
        subst hanswer
        exact ⟨file, hfile, halike, congrArg call.ref hmtime⟩
    · have hidle : Idle process { s with answers := s.answers ++ [(call, call.ref mtime)] } := hs.1
      exact stable_idle _ t hidle hrely

/-! ## Power failures -/

theorem regular?_settle {fate : Fate} {node : Option Node}
    (hsynced : ∀ file, node = some (.regular file) → file.synced) :
    fate.settle digest node = node := by
  unfold Fate.settle
  split
  next file => rw [if_pos (hsynced file rfl)]
  next => rfl

/-- A power failure leaves a path as it is, or as it was when its directory was last synced. -/
theorem node_powerLoss (hvalid : Valid initial s) (digest : Digest) :
    s.powerLoss.node digest = s.node digest ∨
      s.powerLoss.node digest = (s.blobs digest).durable := by
  unfold Disk.node Disk.powerLoss Fate.blob
  dsimp only
  split
  · exact .inl (regular?_settle fun file hfile =>
      hvalid.synced digest file (regular?_eq_some.mpr hfile))
  · exact .inr (regular?_settle fun file hfile => (hvalid.durable digest file hfile).1)

theorem Valid.powerLoss (hvalid : Valid initial s) : Valid initial s.powerLoss := by
  have hfrom : ∀ digest file, s.powerLoss.regular? digest = some file → file.synced ∧
      ∃ file', s.regular? digest = some file' ∧ file'.content = file.content := by
    intro digest file hfile
    rw [regular?_eq_some] at hfile
    rcases node_powerLoss hvalid digest with hnode | hnode
    · rw [hnode] at hfile
      have hregular : s.regular? digest = some file := regular?_eq_some.mpr hfile
      exact ⟨hvalid.synced digest file hregular, file, hregular, rfl⟩
    · rw [hnode] at hfile
      exact hvalid.durable digest file hfile
  refine ⟨fun digest file hfile => (hfrom digest file hfile).1, fun digest file hfile => ?_,
    fun digest file hfile => ?_, by simp [Disk.powerLoss]⟩
  · have hregular : s.powerLoss.regular? digest = some file := regular?_eq_some.mpr hfile
    exact ⟨(hfrom digest file hregular).1, file, hregular, rfl⟩
  · obtain ⟨-, file', hfile', hcontent⟩ := hfrom digest file hfile
    exact hcontent ▸ hvalid.verified digest file' hfile'

/-! ## The system -/

theorem store_certified (initial : Digest → Option ByteArray) :
    store.Certified (fun _ => Valid initial) Idle Rely
      (fun process _ s t _ => Guarantee initial process s t) () where
  refl _ := inferInstance
  trans _ := inferInstance
  compatible hne h := h.rely hne
  preserved hvalid h := h.valid hvalid
  dropped hvalid := hvalid
  stable hidle hrely := stable_idle _ _ hidle hrely
  invoked := by
    rintro _ process s program - hidle ⟨call, rfl⟩
    refine Safe.weaken (putBytes_does s hidle) (fun _ _ _ _ => id) fun r _ t ht => ?_
    rcases r with (_ | _) | _ <;> exact ht
  halted hvalid _ := ⟨hvalid.powerLoss, fun _ _ => by simp [store, Disk.powerLoss]⟩

end NovaRtl.Artifacts
