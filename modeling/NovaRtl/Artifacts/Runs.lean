import NovaRtl.Artifacts.Publication

/-!
# Runs of the artifact store

What holds of the artifacts in every run of several processes that publish them.

## Main results

* `blobs_verify` — no path ever names a content with another digest.
* `blobs_immutable` — the content at a path does not change while power lasts.
* `answer_opens` — an artifact that was published can be read.
* `answers_agree` — publishing the same data again answers the same reference.
-/

namespace NovaRtl.Artifacts

open Scheduler Transact

variable {initial : Digest → Option ByteArray} {process : ProcessId} {s t u : Disk}
  {digest : Digest} {call : Call} {file : File}

/-- A disk that has just been mounted. -/
structure Booted (s : Disk) : Prop where
  synced : ∀ digest file, s.regular? digest = some file → file.synced
  durable : ∀ digest, (s.blobs digest).durable = s.node digest
  holder : ∀ digest, s.holder digest = none
  answers : s.answers = []

/-- The contents of the regular files. -/
def Disk.contents (s : Disk) (digest : Digest) : Option ByteArray :=
  (s.regular? digest).map File.content

theorem Booted.valid (h : Booted s) : Valid s.contents s where
  synced := h.synced
  durable digest file hfile := by
    rw [h.durable] at hfile
    have hregular : s.regular? digest = some file := regular?_eq_some.mpr hfile
    exact ⟨h.synced digest file hregular, file, hregular, rfl⟩
  verified digest file hfile := .inr (by rw [Disk.contents, hfile, Option.map_some])
  answered := by simp [h.answers]

variable {c c' : Configuration}

/-- The disk is valid, and what is left of each program is safe. -/
def Consistent (initial : Digest → Option ByteArray) (c : Configuration) : Prop :=
  ∃ ρ : ProcessId → Unit, store.Sound (fun _ => Valid initial) Idle Rely
    (fun process _ s t _ => Guarantee initial process s t) ρ c

theorem Booted.consistent (h : Booted s) (hrun : store.Run s.mounted c) :
    Consistent s.contents c := by
  have hmounted : store.Sound (fun _ => Valid s.contents) Idle Rely
      (fun process _ t u _ => Guarantee s.contents process t u) (fun _ => ()) s.mounted :=
    System.Sound.resting h.valid fun _ digest => by simp [h.holder]
  have hcertified := store_certified s.contents
  exact System.Certified.sound hcertified hmounted hrun

/-- What a run leaves of its beginning. -/
structure Follows (s t : Disk) : Prop where
  losses : s.losses ≤ t.losses
  keeps : t.losses = s.losses → Keeps s t

theorem Follows.trans (h : Follows s t) (h' : Follows t u) : Follows s u := by
  refine ⟨h.losses.trans h'.losses, fun heq => ?_⟩
  have hst : t.losses = s.losses := le_antisymm (h'.losses.trans heq.le) h.losses
  exact (h.keeps hst).trans (h'.keeps (heq.trans hst.symm))

theorem Booted.history (h : Booted s) (hrun : store.Run s.mounted c) (hrun' : store.Run c c') :
    Follows c.state c'.state := by
  obtain ⟨ρ, hsound⟩ := h.consistent hrun
  have hcertified := store_certified s.contents
  refine hcertified.history (T := Follows) (fun s => ⟨le_refl _, fun _ => .refl s⟩)
    (fun h h' => h.trans h') (fun _ h => ⟨h.losses.ge, fun _ => h.keeps⟩) (fun s => ?_) hsound hrun'
  exact ⟨Nat.le_succ _, fun heq => absurd heq (Nat.succ_ne_self _)⟩

/-! ## Calls that nobody disturbs -/

theorem perform_steps {operation : Operation} {value : operation.Value}
    (h : operation.Returns process s value) :
    Steps disk (perform process operation, s) (.ret value, operation.apply process s value) :=
  .single (Step.answer (E := disk) (r := (process, operation)) (.done value) h)

/-- What only locks, power failures and the end of a call change. -/
structure Framed (s t : Disk) : Prop where
  holder : t.holder = s.holder
  answers : t.answers = s.answers
  losses : t.losses = s.losses

theorem Framed.trans (h : Framed s t) (h' : Framed t u) : Framed s u :=
  ⟨h'.holder.trans h.holder, h'.answers.trans h.answers, h'.losses.trans h.losses⟩

theorem framed_updateBlob (digest : Digest) (f : File → File) :
    Framed s (s.updateBlob digest f) := by
  unfold Disk.updateBlob
  split <;> exact ⟨rfl, rfl, rfl⟩

def Operation.locks : Operation → Bool
  | .lock _ | .unlock _ => true
  | _ => false

theorem framed_apply {operation : Operation} {value : operation.Value}
    (h : t = operation.apply process s value) (hlocks : operation.locks = false) :
    Framed s t := by
  subst h
  cases operation with
  | lock digest => cases hlocks
  | unlock digest => cases hlocks
  | chmod digest => exact framed_updateBlob digest _
  | fsyncBlob digest => exact framed_updateBlob digest _
  | _ => exact ⟨rfl, rfl, rfl⟩

/-- The data of the call is at its path, since `mtime`. -/
def Present (call : Call) (mtime : Instant) (s : Disk) : Prop :=
  ∃ file, s.regular? call.digest = some file ∧ file.content = call.data ∧ file.mtime = mtime

theorem verifyBlob_steps {mtime : Instant} (h : Present call mtime s) :
    Steps disk (verifyBlob process call.digest call.data.size, s) (.ret (), s) := by
  obtain ⟨file, hfile, hcontent, -⟩ := h
  have hverified : verifyPath call.digest call.data.size (s.node call.digest) =
      .ok file.content := by
    rw [regular?_eq_some.mp hfile, verifyPath, hcontent, if_neg (by simp [Call.digest])]
  have hreturns : (Operation.verify call.digest call.data.size).Returns process s
      (.ok file.content) := hverified.symm
  exact (perform_steps hreturns).bind .refl

theorem Present.updateBlob {mtime : Instant} {f : File → File} (h : Present call mtime s)
    (hcontent : ∀ file, (f file).content = file.content)
    (hmtime : ∀ file, (f file).mtime = file.mtime) :
    Present call mtime (s.updateBlob call.digest f) := by
  obtain ⟨file, hfile, hdata, hsince⟩ := h
  unfold Disk.updateBlob
  rw [hfile]
  refine ⟨f file, ?_, (hcontent file).trans hdata, (hmtime file).trans hsince⟩
  rw [regular?_eq_some, node_setBlob_self]

theorem confirm_steps (process : ProcessId) {mtime : Instant} (h : Present call mtime s) :
    ∃ t, Steps disk (confirm process call, s) (.ret (), t) ∧ Present call mtime t ∧
      Framed s t := by
  obtain ⟨file, hfile, -, -⟩ := id h
  have hmode : (Operation.mode call.digest).Returns process s file.mode := ⟨file, hfile, rfl⟩
  by_cases hpermissions : file.mode = blobMode
  · refine ⟨s, (verifyBlob_steps h).bind ((perform_steps hmode).bind ?_), h, rfl, rfl, rfl⟩
    rw [if_neg (not_not.mpr hpermissions)]
    exact .refl
  · have hchanged : Present call mtime _ := h.updateBlob
      (f := fun file => { file with mode := blobMode }) (fun _ => rfl) fun _ => rfl
    have hsynced : Present call mtime _ := hchanged.updateBlob
      (f := fun file => { file with synced := true }) (fun _ => rfl) fun _ => rfl
    refine ⟨_, (verifyBlob_steps h).bind ((perform_steps hmode).bind ?_), hsynced,
      (framed_updateBlob _ _).trans (framed_updateBlob _ _)⟩
    rw [if_pos hpermissions]
    have hchmod : (Operation.chmod call.digest).Returns process s () := trivial
    refine (perform_steps hchmod).bind ?_
    have hfsync : (Operation.fsyncBlob call.digest).Returns process
        (Operation.apply process s (.chmod call.digest) ()) () := trivial
    exact perform_steps hfsync

theorem publish_steps (call : Call) {temporary : ℕ}
    (hfree : s.temporaries (process, temporary) = none) (mtime : Instant) :
    ∃ t, Steps disk (publish process call, s) (.ret (), t) ∧ Present call mtime t ∧
      Framed s t := by
  have hcreated : (Operation.createTemporary).Returns process s temporary := hfree
  obtain ⟨s₁, hs₁⟩ : ∃ u, u = Operation.apply process s .createTemporary temporary := ⟨_, rfl⟩
  obtain ⟨s₂, hs₂⟩ : ∃ u, u = Operation.apply process s₁ (.write temporary call.data) mtime :=
    ⟨_, rfl⟩
  obtain ⟨s₃, hs₃⟩ : ∃ u, u = Operation.apply process s₂ (.fchmod temporary) () := ⟨_, rfl⟩
  obtain ⟨s₄, hs₄⟩ : ∃ u, u = Operation.apply process s₃ (.fsync temporary) () := ⟨_, rfl⟩
  obtain ⟨s₅, hs₅⟩ : ∃ u, u = Operation.apply process s₄ (.replace temporary call.digest) () :=
    ⟨_, rfl⟩
  obtain ⟨s₆, hs₆⟩ : ∃ u, u = Operation.apply process s₅ (.fsyncDirectory call.digest) () :=
    ⟨_, rfl⟩
  have hstaged : s₄.temporaries (process, temporary) =
      some ⟨call.data, blobMode, mtime, true⟩ := by
    simp [hs₄, hs₃, hs₂, hs₁, Operation.apply, Disk.updateTemporary, Disk.setTemporary]
  have hreplace : (Operation.replace temporary call.digest).Returns process s₄ () := by
    change s₄.temporaries (process, temporary) ≠ none
    simp [hstaged]
  have hplaced : s₅.node call.digest = some (.regular ⟨call.data, blobMode, mtime, true⟩) := by
    rw [hs₅]
    exact (node_setBlob_self _).trans (congrArg (Option.map Node.regular) hstaged)
  have hpresent : Present call mtime s₆ := by
    refine ⟨⟨call.data, blobMode, mtime, true⟩, regular?_eq_some.mpr ?_, rfl, rfl⟩
    rw [hs₆]
    exact (node_setBlob_self _).trans hplaced
  have hframe : Framed s s₆ :=
    (framed_apply hs₁ rfl).trans <|
      (framed_apply hs₂ rfl).trans <|
      (framed_apply hs₃ rfl).trans <|
      (framed_apply hs₄ rfl).trans <|
      (framed_apply hs₅ rfl).trans <|
      framed_apply hs₆ rfl
  have hwritten : Steps disk ((do
      let _ ← perform process (.write temporary call.data)
      perform process (.fchmod temporary)
      perform process (.fsync temporary)
      perform process (.replace temporary call.digest) : Op Unit), s₁) (.ret (), s₅) := by
    have hwrite : (Operation.write temporary call.data).Returns process s₁ mtime := trivial
    refine (perform_steps hwrite).bind ?_
    rw [← hs₂]
    have hfchmod : (Operation.fchmod temporary).Returns process s₂ () := trivial
    refine (perform_steps hfchmod).bind ?_
    rw [← hs₃]
    have hfsync : (Operation.fsync temporary).Returns process s₃ () := trivial
    refine (perform_steps hfsync).bind ?_
    rw [← hs₄, hs₅]
    exact perform_steps hreplace
  refine ⟨s₆, (perform_steps hcreated).bind ?_, hpresent, hframe⟩
  rw [← hs₁]
  refine hwritten.onError.bind ?_
  have hsync : (Operation.fsyncDirectory call.digest).Returns process s₅ () := trivial
  refine (perform_steps hsync).bind ?_
  rw [← hs₆]
  exact verifyBlob_steps hpresent

/-- The path of the call is free and so is a temporary file, or the path has the data. -/
def Ready (process : ProcessId) (call : Call) (mtime : Instant) (s : Disk) : Prop :=
  (s.node call.digest = none ∧ ∃ temporary, s.temporaries (process, temporary) = none) ∨
    Present call mtime s

theorem putLocked_steps {mtime : Instant} (hready : Ready process call mtime s) :
    ∃ t, Steps disk (putLocked process call, s) (.ret (), t) ∧ Present call mtime t ∧
      Framed s t := by
  rcases hready with ⟨habsent, temporary, hfree⟩ | hpresent
  · have hexists : (Operation.exists? call.digest).Returns process s false := by
      change false = exists? (s.node call.digest)
      rw [habsent, exists?]
    obtain ⟨t, hsteps, ht⟩ := publish_steps call hfree mtime
    exact ⟨t, (perform_steps hexists).bind hsteps, ht⟩
  · have hexists : (Operation.exists? call.digest).Returns process s true := by
      obtain ⟨file, hfile, -⟩ := hpresent
      change true = exists? (s.node call.digest)
      rw [regular?_eq_some.mp hfile, exists?]
    obtain ⟨t, hsteps, ht⟩ := confirm_steps process hpresent
    exact ⟨t, (perform_steps hexists).bind hsteps, ht⟩

/-- A call that nobody disturbs answers. -/
theorem putBytes_steps {mtime : Instant} (hwritable : call.readOnly = false)
    (hlock : s.holder call.digest = none) (hready : Ready process call mtime s) :
    ∃ t, Steps disk (putBytes process call, s) (.ret (), t) ∧ Present call mtime t ∧
      t.holder = s.holder ∧ t.losses = s.losses ∧
      t.answers = s.answers ++ [(call, call.ref mtime)] := by
  obtain ⟨s₁, hs₁⟩ : ∃ u, u = s.setHolder call.digest (some process) := ⟨_, rfl⟩
  have hready₁ : Ready process call mtime s₁ := hs₁ ▸ hready
  obtain ⟨s₂, hsteps, hpresent, hframed⟩ := putLocked_steps hready₁
  obtain ⟨s₃, hs₃⟩ : ∃ u, u = s₂.setHolder call.digest none := ⟨_, rfl⟩
  obtain ⟨t, ht⟩ : ∃ t : Disk, t = { s₃ with answers := s₃.answers ++ [(call, call.ref mtime)] } :=
    ⟨_, rfl⟩
  have hanswers₃ : s₃.answers = s.answers := by
    rw [hs₃]
    change s₂.answers = s.answers
    rw [hframed.answers, hs₁]
    rfl
  have hholder : t.holder = s.holder := by
    rw [ht, hs₃]
    change Function.update s₂.holder call.digest none = s.holder
    rw [hframed.holder, hs₁, Disk.setHolder, Function.update_idem, ← hlock,
      Function.update_eq_self]
  have hlosses : t.losses = s.losses := by
    rw [ht, hs₃]
    change s₂.losses = s.losses
    rw [hframed.losses, hs₁]
    rfl
  have hpresent₃ : Present call mtime s₃ := hs₃ ▸ hpresent
  refine ⟨t, ?_, ht ▸ hpresent₃, hholder, hlosses, by rw [ht, hanswers₃]⟩
  rw [putBytes, if_neg (by simp [hwritable])]
  have hdirectory : (Operation.ensureDirectory).Returns process s () := trivial
  refine (perform_steps hdirectory).bind ?_
  have hopen : (Operation.openLock).Returns process s () := trivial
  refine (perform_steps hopen).bind ?_
  have hlocked : (Operation.lock call.digest).Returns process s () := hlock
  refine (perform_steps hlocked).bind ?_
  have hunlock : (Operation.unlock call.digest).Returns process s₂ () := trivial
  have hput : Steps disk (Prog.ensure Exit.IsRaised (putLocked process call)
      (perform process (.unlock call.digest)), s₁) (.ret (), s₃) := by
    rw [hs₃]
    exact hsteps.ensure (perform_steps hunlock)
  rw [← show s₁ = Operation.apply process s (.lock call.digest) () from hs₁]
  refine hput.bind ?_
  obtain ⟨file, hfile, -, hmtime⟩ := hpresent₃
  have hstat : (Operation.stat call.digest).Returns process s₃ mtime := ⟨file, hfile, hmtime.symm⟩
  refine (perform_steps hstat).bind ?_
  rw [ht]
  exact .single (.commit rfl)

theorem Disk.run_putBytes (s : Disk) (process : ProcessId) {call : Call} (mtime : Instant)
    (hwritable : call.readOnly = false) (hlock : s.holder call.digest = none)
    (hready : Ready process call mtime s) :
    ∃ t, store.Run s.mounted t.mounted ∧ Present call mtime t ∧ t.holder = s.holder ∧
      t.losses = s.losses ∧ t.answers = s.answers ++ [(call, call.ref mtime)] := by
  obtain ⟨t, hsteps, ht⟩ := putBytes_steps hwritable hlock hready
  exact ⟨t, System.run_steps (c := s.mounted) rfl ⟨call, rfl⟩ hsteps, ht⟩

/-! ## Results -/

section Sample

def emptyDisk : Disk where
  blobs _ := ⟨none, none⟩
  temporaries _ := none
  holder _ := none
  answers := []
  losses := 0
  fates _ := ⟨fun _ => true, fun _ => .empty⟩

def netlistCall : Call := ⟨"module top; endmodule".toUTF8, "text/x-verilog", .internal, false⟩

theorem emptyDisk_booted : Booted emptyDisk where
  synced _ _ h := by cases h
  durable _ := rfl
  holder _ := rfl
  answers := rfl

/-- Two processes publish the same netlist, one after the other. -/
theorem netlist_published : ∃ s t : Disk, store.Run emptyDisk.mounted s.mounted ∧
    store.Run s.mounted t.mounted ∧ t.losses = s.losses ∧
    Present netlistCall 7 s ∧ s.answers = [(netlistCall, netlistCall.ref 7)] ∧
    t.answers = [(netlistCall, netlistCall.ref 7), (netlistCall, netlistCall.ref 7)] := by
  obtain ⟨s, hrun, hpresent, hholder, -, hanswers⟩ :=
    emptyDisk.run_putBytes 0 7 (show netlistCall.readOnly = false from rfl) rfl
      (.inl ⟨rfl, 0, rfl⟩)
  obtain ⟨t, hrun', -, -, hlosses, hanswers'⟩ :=
    s.run_putBytes 1 7 (show netlistCall.readOnly = false from rfl)
      (congrFun hholder netlistCall.digest) (.inr hpresent)
  refine ⟨s, t, hrun, hrun', hlosses, hpresent, hanswers, ?_⟩
  rw [hanswers', hanswers]
  rfl

end Sample

/-- Whatever processes are killed, whatever raises and whenever power fails: if every blob of a disk
has the digest that it is named by, then this stays so. No lock outlasts its holder. -/
theorem blobs_verify (hboot : Booted s)
    (hverified : ∀ digest file, s.regular? digest = some file → digestOf file.content = digest)
    (hrun : store.Run s.mounted c) :
    (∀ digest file, c.state.regular? digest = some file → digestOf file.content = digest) ∧
      (c.AtRest → ∀ digest, c.state.holder digest = none) := by
  obtain ⟨ρ, hvalid, hclients⟩ := hboot.consistent hrun
  refine ⟨fun digest file hfile => ?_, fun hrest digest => ?_⟩
  · rcases hvalid.verified digest file hfile with hverifies | hinitial
    · exact hverifies
    · obtain ⟨file', hfile', hcontent⟩ := Option.map_eq_some_iff.mp hinitial
      rw [← hcontent]
      exact hverified digest file' hfile'
  · rw [Option.eq_none_iff_forall_ne_some]
    exact fun process => (hclients process).1 (hrest process) digest

theorem blobs_verify_netlist : ∃ s : Disk, store.Run emptyDisk.mounted s.mounted ∧
    (∃ file, s.regular? netlistCall.digest = some file) ∧
    (∀ digest file, s.regular? digest = some file → digestOf file.content = digest) ∧
    ∀ digest, s.holder digest = none := by
  obtain ⟨s, t, hrun, -, -, ⟨file, hfile, -⟩, -⟩ := netlist_published
  obtain ⟨hverified, hreleased⟩ := blobs_verify emptyDisk_booted (fun _ _ h => by cases h) hrun
  exact ⟨s, hrun, ⟨file, hfile⟩, hverified, hreleased fun _ => rfl⟩

/-- While power lasts, a blob is neither changed nor removed. -/
theorem blobs_immutable (hboot : Booted s) (hrun : store.Run s.mounted c) (hrun' : store.Run c c')
    (hpower : c'.state.losses = c.state.losses) : Keeps c.state c'.state :=
  (hboot.history hrun hrun').keeps hpower

theorem blobs_immutable_netlist : ∃ s t : Disk, store.Run emptyDisk.mounted s.mounted ∧
    store.Run s.mounted t.mounted ∧ (∃ file, s.regular? netlistCall.digest = some file) ∧
    Keeps s t := by
  obtain ⟨s, t, hrun, hrun', hlosses, ⟨file, hfile, -⟩, -⟩ := netlist_published
  exact ⟨s, t, hrun, hrun', ⟨file, hfile⟩,
    blobs_immutable emptyDisk_booted hrun hrun' hlosses⟩

theorem isDigest_digestOf (data : ByteArray) : isDigest (digestOf data) := by
  have hhex : ∀ c ∈ Text.Sha256.hexOfBytes data, (c.isDigit || ('a' ≤ c && c ≤ 'f')) = true :=
    fun c => Text.Sha256.hexOfBytes_isHex
  simpa [isDigest, digestOf, Text.Sha256.length_hexOfBytes] using hhex

theorem blobPath_ref (call : Call) (ref : ArtifactRef) (huri : ref.uri = uriPrefix ++ call.digest)
    (hsha : ref.sha256 = "sha256:" ++ call.digest) : blobPath ref = .ok call.digest := by
  have hlength : uriPrefix.length = uriPrefix.toList.length := rfl
  have hdigest : String.ofList (ref.uri.toList.drop uriPrefix.length) = call.digest := by
    rw [huri, String.toList_append, hlength, List.drop_left, String.ofList_toList]
  unfold blobPath
  rw [hdigest, bind_eq_ok]
  refine ⟨(), require_eq_ok.mpr ?_, bind_eq_ok.mpr ⟨(), require_eq_ok.mpr ?_,
    bind_eq_ok.mpr ⟨(), require_eq_ok.mpr hsha, rfl⟩⟩⟩
  · rw [huri, String.toList_append]
    exact List.prefix_append _ _
  · exact isDigest_digestOf call.data

theorem openVerified_ref {answered : Call} {mtime : Instant} {file' : File}
    (hfile : s.regular? answered.digest = some file)
    (hfile' : t.regular? answered.digest = some file') (halike : answered.Alike file'.content)
    (artifactId : EntityId) (producer : Option EntityId) :
    openVerified { answered.ref mtime with artifactId, producerStageResultId := producer } s.node
      t.node = .ok file'.content := by
  have hnode := regular?_eq_some.mp hfile
  have hnode' := regular?_eq_some.mp hfile'
  have hsize := halike.size_eq
  have hdigest := halike.digest_eq
  unfold openVerified
  rw [blobPath_ref answered _ rfl rfl]
  refine bind_eq_ok.mpr ⟨_, rfl, bind_eq_ok.mpr ⟨(), require_eq_ok.mpr (by rw [hnode]; rfl), ?_⟩⟩
  rw [hnode', verifyPath, if_neg (by simp [Call.ref, hsize, hdigest])]

/-- An artifact that was published opens, also under another name, as long as power lasts, wherever
the two looks of `open_verified` fall between the steps of other processes. -/
theorem answer_opens (hboot : Booted s) (hrun : store.Run s.mounted c) (hrun' : store.Run c c')
    (hpower : c'.state.losses = c.state.losses) {answer : Call × ArtifactRef}
    (hanswer : answer ∈ c.state.answers) (artifactId : EntityId) (producer : Option EntityId) :
    ∃ content, openVerified
        { answer.2 with artifactId, producerStageResultId := producer } c.state.node c'.state.node =
          .ok content ∧ answer.1.Alike content := by
  obtain ⟨ρ, hvalid, -⟩ := hboot.consistent hrun
  obtain ⟨file, hfile, halike, href⟩ := hvalid.answered answer hanswer
  obtain ⟨file', hfile', hcontent, -⟩ := (hboot.history hrun hrun').keeps hpower _ file hfile
  have halike' : answer.1.Alike file'.content := hcontent ▸ halike
  rw [href]
  exact ⟨file'.content, openVerified_ref hfile hfile' halike' artifactId producer, halike'⟩

theorem answer_opens_netlist : ∃ s t : Disk, ∃ content,
    openVerified { netlistCall.ref 7 with artifactId := "netlist" } s.node t.node = .ok content ∧
      netlistCall.Alike content := by
  obtain ⟨s, t, hrun, hrun', hlosses, -, hanswers, -⟩ := netlist_published
  have hanswer : (netlistCall, netlistCall.ref 7) ∈ s.answers := by simp [hanswers]
  exact ⟨s, t, answer_opens emptyDisk_booted hrun hrun' hlosses hanswer "netlist" none⟩

/-- Two calls with the same data get the same reference, if power lasts between them. -/
theorem answers_agree (hboot : Booted s) (hrun : store.Run s.mounted c)
    {answer answer' : Call × ArtifactRef} (hanswer : answer ∈ c.state.answers)
    (hanswer' : answer' ∈ c.state.answers) (hdata : answer.1.data = answer'.1.data)
    (hmedia : answer.1.mediaType = answer'.1.mediaType)
    (hclassification : answer.1.classification = answer'.1.classification) :
    answer.2 = answer'.2 := by
  obtain ⟨ρ, hvalid, -⟩ := hboot.consistent hrun
  obtain ⟨file, hfile, -, href⟩ := hvalid.answered answer hanswer
  obtain ⟨file', hfile', -, href'⟩ := hvalid.answered answer' hanswer'
  have hdigest : answer.1.digest = answer'.1.digest := congrArg digestOf hdata
  rw [← hdigest, hfile] at hfile'
  cases hfile'
  rw [href, href', Call.ref, Call.ref, hdigest, hdata, hmedia, hclassification]

theorem answers_agree_netlist : ∃ t : Disk, store.Run emptyDisk.mounted t.mounted ∧
    t.answers.length = 2 ∧ ∀ answer ∈ t.answers, answer.2 = netlistCall.ref 7 := by
  obtain ⟨s, t, hrun, hrun', -, -, -, hanswers⟩ := netlist_published
  have hfirst : (netlistCall, netlistCall.ref 7) ∈ t.answers := by simp [hanswers]
  refine ⟨t, hrun.trans hrun', by rw [hanswers]; rfl, fun answer hanswer => ?_⟩
  have hcall : answer.1 = netlistCall := by
    rw [hanswers] at hanswer
    simp only [List.mem_cons, List.not_mem_nil, or_false, or_self] at hanswer
    rw [hanswer]
  exact answers_agree emptyDisk_booted (hrun.trans hrun') hanswer hfirst (by rw [hcall])
    (by rw [hcall]) (by rw [hcall])

end NovaRtl.Artifacts
