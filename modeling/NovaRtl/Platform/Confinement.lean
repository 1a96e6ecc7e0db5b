import NovaRtl.Platform.Extraction

/-!
# Extraction stays in its destination

Members and targets are checked as texts. What the texts say holds of the files as long as no
member is extracted through a symbolic link and no target leads up after one: then nothing outside
the destination changes and every link stays inside.
-/

namespace NovaRtl.Hydration

open Posix Transact

/-- No component leads up after a link. -/
def NoUpAfterLink (isLink : Path → Prop) [DecidablePred isLink] : Path → List String → Prop
  | _, [] => True
  | current, part :: rest =>
    if part = ".." then NoUpAfterLink isLink current.dropLast rest
    else if isLink (current ++ [part]) then ".." ∉ rest
    else NoUpAfterLink isLink (current ++ [part]) rest

variable {isLink : Path → Prop} [DecidablePred isLink] {path current : Path} {target : String}
  {rest : List String}

theorem steady_of_resolveParts (h : resolveParts target current rest = .ok ())
    (hup : NoUpAfterLink isLink current rest) : Steady isLink current rest := by
  induction rest generalizing current with
  | nil => trivial
  | cons part rest ih =>
    rw [resolveParts] at h
    rw [NoUpAfterLink] at hup
    rw [Steady]
    split at h
    next hpart =>
      rw [if_pos hpart] at hup ⊢
      split at h
      · cases h
      next hne => exact ⟨hne, ih h hup⟩
    next hpart =>
      rw [if_neg hpart] at hup ⊢
      split at hup
      next hlink => rwa [if_pos hlink]
      next hlink =>
        rw [if_neg hlink]
        exact ih h hup

theorem link_of_safeLinkTarget (h : safeLinkTarget path target = .ok ()) (hknown : isLink path)
    (hup : NoUpAfterLink isLink path.dropLast (parts target)) : Link isLink path target := by
  simp only [safeLinkTarget, bind_eq_ok, require_eq_ok, exists_const] at h
  obtain ⟨⟨-, -, habsolute⟩, hresolve⟩ := h
  exact ⟨hknown, by simpa using habsolute, steady_of_resolveParts hresolve hup⟩

/-! ## Members -/

/-- The symbolic links of an archive, at their paths below the destination. -/
def archiveLinks (stripComponents : ℕ) (members : List TarMember) : List (Path × String) :=
  members.filterMap fun member =>
    match member.kind, safeMemberPath member.name stripComponents with
    | .sym, .ok (some relative) => some (relative, member.linkname)
    | _, _ => none

/-- What the first loop checks of an entry. -/
structure EntryChecked (entry : TarMember × Path) : Prop where
  nonempty : entry.2 ≠ []
  down : ".." ∉ entry.2
  link : entry.1.kind = .sym → safeLinkTarget entry.2 entry.1.linkname = .ok ()

def entryLinks (entries : List (TarMember × Path)) : List (Path × String) :=
  entries.filterMap fun entry =>
    if entry.1.kind = .sym then some (entry.2, entry.1.linkname) else none

variable {metadata : ArchiveMetadata} {member : TarMember}

theorem safeMemberPath_eq_ok {name : String} {stripComponents : ℕ} {relative : Path}
    (h : safeMemberPath name stripComponents = .ok (some relative)) :
    relative ≠ [] ∧ ".." ∉ relative := by
  simp only [safeMemberPath, bind_eq_ok, require_eq_ok, exists_const, pure, Except.pure,
    Except.ok.injEq] at h
  obtain ⟨⟨-, -, -, hup⟩, h⟩ := h
  split at h
  · cases h
  next hlong =>
    obtain rfl := Option.some.inj h
    exact ⟨by simpa using hlong, fun hmem => hup (List.mem_of_mem_drop hmem)⟩

theorem scanMember_eq_ok {count bytes : ℕ} {result : Option Path × ℕ}
    (h : scanMember metadata count bytes member = .ok result) :
    safeMemberPath member.name metadata.stripComponents = .ok result.1 ∧
      ∀ relative ∈ result.1, EntryChecked (member, relative) := by
  simp only [scanMember, bind_eq_ok, require_eq_ok, exists_const] at h
  obtain ⟨-, relative, hpath, h⟩ := h
  cases relative with
  | none =>
    obtain rfl := Except.ok.inj h
    exact ⟨hpath, by simp⟩
  | some relative =>
    simp only [bind_eq_ok, require_eq_ok, exists_const] at h
    obtain ⟨-, hlink, -, h⟩ := h
    obtain rfl := Except.ok.inj h
    obtain ⟨hne, hdown⟩ := safeMemberPath_eq_ok hpath
    refine ⟨hpath, ?_⟩
    rintro _ ⟨⟩
    exact ⟨hne, hdown, hlink⟩

theorem scanMembers_eq_ok {broken : Bool} {count bytes : ℕ} {members : List TarMember}
    {entries : List (TarMember × Path)}
    (h : scanMembers metadata broken count bytes members = .ok entries) :
    (∀ entry ∈ entries, EntryChecked entry) ∧
      entryLinks entries = archiveLinks metadata.stripComponents members := by
  induction members generalizing count bytes entries with
  | nil =>
    rw [scanMembers] at h
    split at h
    · cases h
    · obtain rfl := Except.ok.inj h
      exact ⟨by simp, rfl⟩
  | cons member members ih =>
    simp only [scanMembers, bind_eq_ok] at h
    obtain ⟨⟨relative, bytes'⟩, hmember, rest, hrest, h⟩ := h
    obtain ⟨hpath, hchecked⟩ := scanMember_eq_ok hmember
    obtain ⟨hall, hlinks⟩ := ih hrest
    obtain rfl := Except.ok.inj h
    cases relative with
    | none =>
      refine ⟨hall, hlinks.trans ?_⟩
      cases hkind : member.kind <;> simp [archiveLinks, hpath, hkind]
    | some relative =>
      refine ⟨List.forall_mem_cons.mpr ⟨hchecked relative rfl, hall⟩, ?_⟩
      rw [Option.elim_some, entryLinks, archiveLinks, List.filterMap_cons, List.filterMap_cons]
      unfold entryLinks archiveLinks at hlinks
      rw [hlinks]
      cases hkind : member.kind <;> simp [hpath]

/-! ## Extraction -/

variable {before fs fs' : FileSystem RegularFile} {destination relative : Path} {name : String}
  {links : List (Path × String)} {node : Node RegularFile}

/-- Nothing outside the destination differs from before. -/
def OutsideSame (before : FileSystem RegularFile) (destination : Path)
    (fs : FileSystem RegularFile) : Prop :=
  ∀ q, ¬ destination <+: q → fs q = before q

/-- During the extraction: the destination is a real directory, and the links in it are those that
were created. -/
structure Extracting (before : FileSystem RegularFile) (destination : Path)
    (links : List (Path × String)) (fs : FileSystem RegularFile) : Prop where
  outside : OutsideSame before destination fs
  real : ∀ q, q <+: destination → fs q = some .directory
  created : ∀ p target, fs (destination ++ p) = some (.symlink target) → (p, target) ∈ links

namespace Extracting

/-- A path that no created link is on leads where it says. -/
theorem plain (h : Extracting before destination links fs) (hdown : ".." ∉ destination ++ relative)
    (hfree : ∀ link ∈ links, ¬ link.1 <+: relative) : Plain fs [] (destination ++ relative) where
  down := hdown
  linkless q _ hq target htarget := by
    rw [List.nil_append] at htarget
    obtain habove | hbelow := List.prefix_or_prefix_of_prefix hq (List.prefix_append _ relative)
    · rw [h.real q habove] at htarget
      cases htarget
    · obtain ⟨p, rfl⟩ := hbelow
      exact hfree _ (h.created p target htarget) ((List.prefix_append_right_inj _).mp hq)

theorem made (h : Extracting before destination links fs)
    (hmade : Made (destination ++ relative) fs fs') :
    Extracting before destination links fs' := by
  have hreal {q : Path} (hq : q <+: destination) : fs' q = some .directory := by
    obtain hsame | ⟨hnone, -⟩ := hmade q
    · rw [hsame, h.real q hq]
    · rw [h.real q hq] at hnone
      cases hnone
  refine ⟨fun q hq => ?_, fun q => hreal, fun p target htarget => ?_⟩
  · obtain hsame | ⟨hnone, -, -, hbegins⟩ := hmade q
    · rw [hsame, h.outside q hq]
    · obtain habove | hbelow :=
        List.prefix_or_prefix_of_prefix hbegins (List.prefix_append destination relative)
      · rw [h.real q habove] at hnone
        cases hnone
      · exact absurd hbelow hq
  · obtain hsame | ⟨-, hdirectory, -⟩ := hmade (destination ++ p)
    · exact h.created p target (hsame ▸ htarget)
    · rw [hdirectory] at htarget
      cases htarget

/-- A node is created below the destination. -/
theorem update (h : Extracting before destination links fs) (hne : relative ≠ [])
    {links' : List (Path × String)} (hlinks : links ⊆ links')
    (hnode : ∀ target, node = .symlink target → (relative, target) ∈ links') :
    Extracting before destination links'
      (Function.update fs (destination ++ relative) (some node)) where
  outside q hq := by
    rw [Function.update_of_ne, h.outside q hq]
    rintro rfl
    exact hq (List.prefix_append _ _)
  real q hq := by
    rw [Function.update_of_ne, h.real q hq]
    rintro rfl
    have hlength := hq.length_le
    have := List.length_pos_iff.mpr hne
    rw [List.length_append] at hlength
    omega
  created p target htarget := by
    by_cases hp : p = relative
    · subst hp
      rw [Function.update_self] at htarget
      exact hnode target (Option.some.inj htarget)
    · rw [Function.update_of_ne (by simpa using hp)] at htarget
      exact hlinks (h.created p target htarget)

end Extracting

theorem getLastD_eq (hne : relative ≠ []) : relative.dropLast ++ [relative.getLastD ""] = relative := by
  rw [List.getLastD_eq_getLast?, List.getLast?_eq_some_getLast hne]
  exact List.dropLast_append_getLast hne

section

variable {raised : ExtractionFailure → FileSystem RegularFile → Prop}
  (hdestination : ".." ∉ destination)
  (hraised : ∀ e fs', OutsideSame before destination fs' → raised e fs')

include hdestination

theorem down_append (h : ".." ∉ relative) : ".." ∉ destination ++ relative := by
  simp [hdestination, h]

include hraised

theorem makeDirs_keeps (h : Extracting before destination links fs) (hdown : ".." ∉ relative)
    (hfree : ∀ link ∈ links, ¬ link.1 <+: relative) :
    EndsIn (onFiles (makeDirs (destination ++ relative).reverse)) fs
      (fun _ fs' => Extracting before destination links fs') raised := by
  have hplain := h.plain (down_append hdestination hdown) hfree
  have hmakes := makeDirs_endsIn (by rwa [List.reverse_reverse] :
    Plain fs [] (destination ++ relative).reverse.reverse)
  rw [List.reverse_reverse] at hmakes
  exact EndsIn.adaptExcept (hmakes.mono (fun _ _ hmade => h.made hmade)
    fun _ _ hmade => hraised _ _ (h.made hmade).outside)

/-- A node is created where no created link is on the way. -/
theorem create_keeps (h : Extracting before destination links fs) (hne : relative ≠ [])
    (hdown : ".." ∉ relative) (hfree : ∀ link ∈ links, ¬ link.1 <+: relative.dropLast)
    {links' : List (Path × String)} (hlinks : links ⊆ links')
    (hnode : ∀ target, node = .symlink target → (relative, target) ∈ links') :
    EndsIn (onFiles (create (destination ++ relative.dropLast) (relative.getLastD "") node)) fs
      (fun _ fs' => Extracting before destination links' fs') raised := by
  have hdown' : ".." ∉ relative.dropLast := fun hmem => hdown (List.mem_of_mem_dropLast hmem)
  refine EndsIn.adaptExcept (create_endsIn (h.plain (down_append hdestination hdown') hfree)
    (fun _ => ?_) fun e => hraised _ _ h.outside)
  rw [List.append_assoc, getLastD_eq hne]
  exact h.update hne hlinks hnode

/-- Before any link is created, a directory or file of the archive is made where it says. -/
theorem extractEntry_keeps {entry : TarMember × Path} (hentry : EntryChecked entry)
    (h : Extracting before destination [] fs) :
    EndsIn (extractEntry destination entry) fs
      (fun _ fs' => Extracting before destination [] fs') raised := by
  obtain ⟨member, relative⟩ := entry
  have hdown := hentry.down
  have hdown' : ".." ∉ relative.dropLast := fun hmem => hdown (List.mem_of_mem_dropLast hmem)
  unfold extractEntry
  dsimp only
  split
  · exact makeDirs_keeps hdestination hraised h hdown (by simp)
  · refine EndsIn.bind ((makeDirs_keeps hdestination hraised h hdown' (by simp)).mono
      (fun _ fs' h' => ?_) fun _ _ => id)
    split
    · exact EndsIn.throw (hraised _ _ h'.outside)
    · exact create_keeps hdestination hraised h' hentry.nonempty hdown (by simp)
        (List.Subset.refl _) nofun
  · exact EndsIn.pure h

/-- A link is created where it says when none of the links before it is on its path. -/
theorem linkEntry_keeps {entry : TarMember × Path} (hentry : EntryChecked entry)
    (h : Extracting before destination links fs)
    (hfree : entry.1.kind = .sym → ∀ link ∈ links, ¬ link.1 <+: entry.2.dropLast) :
    EndsIn (linkEntry destination entry) fs
      (fun _ fs' => Extracting before destination (links ++ entryLinks [entry]) fs') raised := by
  obtain ⟨member, relative⟩ := entry
  have hdown := hentry.down
  have hdown' : ".." ∉ relative.dropLast := fun hmem => hdown (List.mem_of_mem_dropLast hmem)
  unfold linkEntry
  dsimp only
  split
  next hsym =>
    refine EndsIn.bind ((makeDirs_keeps hdestination hraised h hdown' (hfree hsym)).mono
      (fun _ fs' h' => ?_) fun _ _ => id)
    refine create_keeps hdestination hraised h' hentry.nonempty hdown (hfree hsym)
      (List.subset_append_left ..) ?_
    rintro target ⟨⟩
    simp [entryLinks, hsym]
  next hsym =>
    have hnone : entryLinks [(member, relative)] = [] := by simp [entryLinks, hsym]
    rw [hnone, List.append_nil]
    exact EndsIn.pure h

end

/-- Where the destination is made: its parent is a real directory of a tree. -/
structure Site (before : FileSystem RegularFile) (destination : Path) : Prop where
  tree : IsTree before
  nonempty : destination ≠ []
  down : ".." ∉ destination
  parent : ∀ q, q <+: destination.dropLast → before q = some .directory

theorem Site.plain (h : Site before destination) : Plain before [] destination.dropLast where
  down := fun hmem => h.down (List.mem_of_mem_dropLast hmem)
  linkless q _ hq target htarget := by
    rw [List.nil_append, h.parent q hq] at htarget
    cases htarget

theorem Site.extracting (h : Site before destination) (hnone : before destination = none) :
    Extracting before destination []
      (Function.update before destination (some .directory)) where
  outside q hq := by
    rw [Function.update_of_ne]
    rintro rfl
    exact hq List.prefix_rfl
  real q hq := by
    by_cases hsame : q = destination
    · rw [hsame, Function.update_self]
    · rw [Function.update_of_ne hsame, h.parent q]
      rw [← List.dropLast_append_getLast h.nonempty] at hq hsame
      exact (List.prefix_concat_iff.mp hq).resolve_left hsame
  created p target htarget := by
    by_cases hp : p = []
    · subst hp
      simp at htarget
    · rw [Function.update_of_ne (by simpa using hp), h.tree.eq_none hnone] at htarget
      cases htarget

theorem makeDestination_endsIn (h : Site before destination) :
    EndsIn (makeDestination destination) before
      (fun _ fs => Extracting before destination [] fs) (fun _ fs => fs = before) := by
  have hcreate : EndsIn (create destination.dropLast (destination.getLastD "") .directory) before
      (fun _ fs => Extracting before destination [] fs) (fun _ fs => fs = before) := by
    refine create_endsIn h.plain (fun hnone => ?_) fun _ => rfl
    rw [getLastD_eq h.nonempty] at hnone ⊢
    exact h.extracting hnone
  refine EndsIn.rescue (hcreate.mono (fun _ _ => id) ?_)
  rintro e fs rfl
  refine ⟨fun _ => ?_, fun _ => rfl⟩
  -- the directories above are there, so making them changes nothing
  have hsame {fs' : FileSystem RegularFile} (hmade : Made destination.dropLast fs fs') :
      fs' = fs := by
    funext q
    obtain hsame | ⟨hnone, -, -, hq⟩ := hmade q
    · exact hsame
    · rw [h.parent q hq] at hnone
      cases hnone
  have hmakes := makeDirs_endsIn (by rw [List.reverse_reverse]; exact h.plain :
    Plain fs [] destination.dropLast.reverse.reverse)
  rw [List.reverse_reverse] at hmakes
  refine EndsIn.bind (hmakes.mono (fun _ fs' hmade => ?_) fun _ _ => hsame)
  rw [hsame hmade]
  exact hcreate

/-- No link of an archive is on the path of a later one. -/
def Separate (links : List (Path × String)) : Prop :=
  links.Pairwise fun earlier later => ¬ (earlier.1 <+: later.1 ∧ earlier.1 ≠ later.1)

theorem Separate.free {link : Path × String} (h : Separate (links ++ [link]))
    (hne : link.1 ≠ []) : ∀ earlier ∈ links, ¬ earlier.1 <+: link.1.dropLast := by
  intro earlier hearlier hbegins
  have hboth := (List.pairwise_append.mp h).2.2 earlier hearlier link (by simp)
  refine hboth ⟨hbegins.trans (List.dropLast_prefix _), fun hsame => ?_⟩
  have hlength := hbegins.length_le
  have := List.length_pos_iff.mpr hne
  rw [hsame, List.length_dropLast] at hlength
  omega

theorem extractTar_endsIn {archive : TarArchive} (hsite : Site before destination)
    (hseparate : Separate (archiveLinks metadata.stripComponents archive.members)) :
    EndsIn (extractTar metadata archive destination) before
      (fun _ fs => Extracting before destination
        (archiveLinks metadata.stripComponents archive.members) fs ∧
        ∀ link ∈ archiveLinks metadata.stripComponents archive.members,
          safeLinkTarget link.1 link.2 = .ok ())
      (fun _ fs => OutsideSame before destination fs) := by
  have hsame : OutsideSame before destination before := fun _ _ => rfl
  refine EndsIn.bind (EndsIn.ofExcept (fun entries hentries => ?_) fun _ _ => hsame)
  obtain ⟨hchecked, hlinks⟩ := scanMembers_eq_ok hentries
  rw [← hlinks] at hseparate ⊢
  refine EndsIn.bind (EndsIn.adaptExcept ((makeDestination_endsIn hsite).mono (fun _ fs h => ?_)
    fun _ _ hfs => hfs ▸ hsame))
  let extracting := fun (rest : List (TarMember × Path)) fs =>
    (∀ entry ∈ rest, EntryChecked entry) ∧ Extracting before destination [] fs
  refine EndsIn.bind ((EndsIn.forM extracting (fun entry rest fs hfs => ?_)
    ⟨hchecked, h⟩).mono (fun _ fs h => ?_) fun _ _ => id)
  · obtain ⟨hentry, hrest⟩ := List.forall_mem_cons.mp hfs.1
    exact (extractEntry_keeps hsite.down (fun _ _ => id) hentry hfs.2).mono
      (fun _ _ hfs' => ⟨hrest, hfs'⟩) fun _ _ => id
  let linking := fun (rest : List (TarMember × Path)) fs =>
    ∃ done, entries = done ++ rest ∧ Extracting before destination (entryLinks done) fs
  refine (EndsIn.forM linking (fun entry rest fs hfs => ?_)
    ⟨[], rfl, h.2⟩).mono (fun _ fs h => ?_) fun _ _ => id
  · obtain ⟨done, hdone, hfs⟩ := hfs
    have hentry : EntryChecked entry := hchecked entry (by simp [hdone])
    refine (linkEntry_keeps hsite.down (fun _ _ => id) hentry hfs fun hsym => ?_).mono
      (fun _ fs' hfs' => ⟨done ++ [entry], by simp [hdone], ?_⟩) fun _ _ => id
    · have hsplit : entryLinks entries =
          (entryLinks done ++ [(entry.2, entry.1.linkname)]) ++ entryLinks rest := by
        simp [hdone, entryLinks, hsym]
      rw [hsplit] at hseparate
      exact Separate.free (List.pairwise_append.mp hseparate).1 hentry.nonempty
    · have hdone' : entryLinks (done ++ [entry]) = entryLinks done ++ entryLinks [entry] :=
        List.filterMap_append ..
      rwa [hdone']
  · obtain ⟨done, hdone, hfs⟩ := h
    rw [List.append_nil] at hdone
    subst hdone
    refine ⟨hfs, fun link hlink => ?_⟩
    obtain ⟨entry, hentry, hvalue⟩ := List.mem_filterMap.mp hlink
    split at hvalue
    next hsym =>
      obtain rfl := Option.some.inj hvalue
      exact (hchecked entry hentry).link hsym
    next => cases hvalue

/-! ## Links that are left -/

/-- Following any link below the root stays below the root. -/
def LinksConfined (fs : FileSystem RegularFile) (root : Path) : Prop :=
  ∀ p target, fs (root ++ p) = some (.symlink target) →
    Confined fs root (afterLink (root ++ p.dropLast) target []).1
      (afterLink (root ++ p.dropLast) target []).2

theorem linksConfined_of_link {root : Path}
    (h : ∀ p target, fs (root ++ p) = some (.symlink target) → Link isLink p target) :
    LinksConfined fs root := by
  intro p target htarget
  have hlink := h p target htarget
  rw [afterLink, hlink.relative, List.append_nil]
  exact confined_of_steady h hlink.steady

/-- The links of an archive that can be read. -/
def linksOf : Except ExtractionFailure TarArchive → Option ArchiveMetadata → List (Path × String)
  | .ok archive, some metadata => archiveLinks metadata.stripComponents archive.members
  | _, _ => []

/-- No target leads up after one of the links. -/
def Level (links : List (Path × String)) : Prop :=
  ∀ link ∈ links, NoUpAfterLink (· ∈ links.map Prod.fst) link.1.dropLast (parts link.2)

theorem safeExtractArchive_endsIn {archive : Except ExtractionFailure TarArchive}
    {metadata : Option ArchiveMetadata} (hsite : Site before destination)
    (hseparate : Separate (linksOf archive metadata)) :
    EndsIn (safeExtractArchive archive destination metadata) before
      (fun _ fs => OutsideSame before destination fs ∧
        (Level (linksOf archive metadata) → LinksConfined fs destination))
      (fun _ fs => OutsideSame before destination fs) := by
  have hsame : OutsideSame before destination before := fun _ _ => rfl
  cases metadata with
  | none => exact EndsIn.throw hsame
  | some metadata =>
    refine EndsIn.bind (EndsIn.ofExcept (fun tar htar => ?_) fun _ _ => hsame)
    subst htar
    refine (extractTar_endsIn hsite hseparate).mono ?_ fun _ _ => id
    rintro _ fs ⟨hfs, hchecked⟩
    let links := archiveLinks metadata.stripComponents tar.members
    have hlinks (hlevel : Level links) (p : Path) (target : String)
        (htarget : fs (destination ++ p) = some (.symlink target)) :
        Link (· ∈ links.map Prod.fst) p target := by
      have hmem := hfs.created p target htarget
      exact link_of_safeLinkTarget (hchecked _ hmem) (List.mem_map_of_mem hmem) (hlevel _ hmem)
    exact ⟨hfs.outside, fun hlevel => linksConfined_of_link (hlinks hlevel)⟩

/-! ## Inventories -/

def Tree.linkAt (tree : Tree) (path : Path) : Prop :=
  ∃ target, tree.node path = some (.symlink target)

instance (tree : Tree) : DecidablePred tree.linkAt := fun path =>
  match h : tree.node path with
  | some (.symlink target) => isTrue ⟨target, h⟩
  | none | some .directory | some (.file _) =>
    isFalse (by rintro ⟨target, htarget⟩; simp [h] at htarget)

mutual

theorem visitNode_checks {exclude : Bool} :
    ∀ (child : Tree) (relative : Path) (entries : List ComponentInventoryEntry),
      visitNode exclude relative child = .ok entries →
      ∀ rest target, child.node rest = some (.symlink target) →
      (∀ q, q ≠ [] → q <+: rest → excluded exclude (relative ++ q) = false) →
      safeLinkTarget (relative ++ rest) target = .ok ()
  | .directory mode children, relative, entries, h, rest, target, hnode, hvisible => by
    simp only [visitNode, bind_eq_ok] at h
    obtain ⟨below, hbelow, -⟩ := h
    cases rest with
    | nil => simp [Tree.node] at hnode
    | cons name rest =>
      exact visit_checks children relative below hbelow name rest target hnode hvisible
  | .file content, relative, entries, h, rest, target, hnode, hvisible => by
    cases rest <;> simp [Tree.node] at hnode
  | .symlink mode target', relative, entries, h, rest, target, hnode, hvisible => by
    cases rest with
    | nil =>
      rw [visitNode, bind_eq_ok] at h
      obtain ⟨⟨⟩, htarget, -⟩ := h
      simp only [Tree.node, Option.some.injEq, Node.symlink.injEq] at hnode
      rw [List.append_nil, ← hnode]
      exact htarget
    | cons name rest => simp [Tree.node] at hnode
  | .other, relative, entries, h, rest, target, hnode, hvisible => by
    cases rest <;> simp [Tree.node] at hnode

/-- Every visible link below a visited directory has a safe target. -/
theorem visit_checks {exclude : Bool} :
    ∀ (children : List (String × Tree)) (above : Path) (entries : List ComponentInventoryEntry),
      visit exclude above children = .ok entries →
      ∀ name rest target, childNode children name rest = some (.symlink target) →
      (∀ q, q ≠ [] → q <+: name :: rest → excluded exclude (above ++ q) = false) →
      safeLinkTarget (above ++ name :: rest) target = .ok ()
  | [], above, entries, h, name, rest, target, hnode, hvisible => by simp [childNode] at hnode
  | (name', child) :: others, above, entries, h, name, rest, target, hnode, hvisible => by
    simp only [visit, bind_eq_ok] at h
    obtain ⟨first, hfirst, last, hlast, -⟩ := h
    rw [childNode] at hnode
    split at hnode
    next hname =>
      subst hname
      rw [hvisible [name'] (by simp) (by simp)] at hfirst
      have hbelow := visitNode_checks child (above ++ [name']) first hfirst rest target hnode
        fun q hne hq => by
          rw [List.append_assoc]
          exact hvisible (name' :: q) (by simp) (by simpa using hq)
      simpa using hbelow
    next => exact visit_checks others above last hlast name rest target hnode hvisible

end

/-- No link is where the inventory does not look, and no target leads up after a link. -/
structure TreeLevel (exclude : Bool) (tree : Tree) : Prop where
  visible : ∀ p target, tree.node p = some (.symlink target) →
    ∀ q, q ≠ [] → q <+: p → excluded exclude q = false
  level : ∀ p target, tree.node p = some (.symlink target) →
    NoUpAfterLink tree.linkAt p.dropLast (parts target)

theorem componentInventory_confined {tree : Tree} {exclude : Bool} {component : Path}
    {entries : List ComponentInventoryEntry} (hfs : ∀ p, fs (component ++ p) = tree.node p)
    (haccepted : componentInventory tree exclude = .ok entries) (hlevel : TreeLevel exclude tree) :
    LinksConfined fs component := by
  have hlinks (p : Path) (target : String)
      (htarget : fs (component ++ p) = some (.symlink target)) : Link tree.linkAt p target := by
    rw [hfs] at htarget
    cases tree with
    | directory mode children =>
      cases p with
      | nil => simp [Tree.node] at htarget
      | cons name rest =>
        have hsafe := visit_checks children [] entries haccepted name rest target
          (by simpa [Tree.node] using htarget) (hlevel.visible _ _ htarget)
        exact link_of_safeLinkTarget hsafe ⟨target, htarget⟩ (hlevel.level _ _ htarget)
    | _ => cases haccepted
  exact linksConfined_of_link hlinks

/-- An archive that makes a node elsewhere is not confined. -/
theorem escapes {archive : Except ExtractionFailure TarArchive} {metadata : Option ArchiveMetadata}
    {q : Path} (hsite : Site before destination) (hq : ¬ destination <+: q)
    (hcreated : leaves (safeExtractArchive archive destination metadata) before q ≠ before q) :
    ¬ ∀ (before : FileSystem RegularFile) (destination : Path)
      (archive : Except ExtractionFailure TarArchive) (metadata : Option ArchiveMetadata),
      Site before destination →
      EndsIn (safeExtractArchive archive destination metadata) before
        (fun _ fs => OutsideSame before destination fs ∧ LinksConfined fs destination)
        (fun _ fs => OutsideSame before destination fs) := by
  intro h
  have hends := (h before destination archive metadata hsite).mono
    (fun _ _ hfs => hfs.1) fun _ _ => id
  exact hcreated (hends.leaves q hq)

/-- A directory `w` and nothing else. -/
def smallBefore : FileSystem RegularFile := fun path =>
  if path = [] ∨ path = ["w"] then some .directory else none

theorem smallSite : Site smallBefore ["w", "d"] where
  tree path name h := by
    have hpath : path = [] := by
      by_contra hne
      cases path with
      | nil => exact hne rfl
      | cons _ _ => simp [smallBefore] at h
    simp [smallBefore, hpath]
  nonempty := by simp
  down := by decide
  parent q hq := by
    rcases q with _ | ⟨name, _ | ⟨_, _⟩⟩ <;> simp_all [smallBefore]

def smallMetadata : ArchiveMetadata where
  byteSize := 1
  byteSize_pos := Nat.one_pos
  stripComponents := 0
  maxRegularFileBytes := 1
  maxEntries := 3

def linkMember (name linkname : String) : TarMember := {name, kind := .sym, linkname}

/-- A tool and a link to it. -/
def toolArchive : TarArchive where
  members := [{name := "bin/tool", kind := .file, size := 1, mode := 493, content := some [1]},
    linkMember "bin/link" "../bin/tool"]

theorem linksOf_toolArchive : linksOf (.ok toolArchive) (some smallMetadata) =
    [(["bin", "link"], "../bin/tool")] := by
  decide +kernel

/-- The links that are left, above a directory of tools. -/
def toolTree : Tree :=
  .directory 493 [("bin", .directory 493
    [("link", .symlink 511 "../bin/tool"), ("tool", .directory 493 [])])]

theorem toolTree_link {path : Path} {target : String}
    (h : toolTree.node path = some (.symlink target)) :
    path = ["bin", "link"] ∧ target = "../bin/tool" := by
  rcases path with _ | ⟨first, rest⟩
  · cases h
  rw [toolTree, Tree.node, childNode] at h
  split at h
  next hfirst =>
    rcases rest with _ | ⟨second, rest⟩
    · cases h
    rw [Tree.node, childNode] at h
    split at h
    next hsecond =>
      rcases rest with _ | ⟨third, rest⟩
      · cases h
        exact ⟨by rw [hfirst, hsecond], rfl⟩
      · cases h
    next =>
      rw [childNode] at h
      split at h
      · rcases rest with _ | ⟨third, rest⟩ <;> cases h
      · cases h
  next => cases h

theorem parts_tool : parts "../bin/tool" = ["..", "bin", "tool"] := by decide +kernel

theorem toolTree_level : TreeLevel false toolTree where
  visible path target h q hne hq := by
    obtain ⟨rfl, -⟩ := toolTree_link h
    rcases q with _ | ⟨first, rest⟩
    · exact absurd rfl hne
    · obtain ⟨rfl, -⟩ := List.cons_prefix_cons.mp hq
      simp [excluded]
  level path target h := by
    obtain ⟨rfl, rfl⟩ := toolTree_link h
    have hbin : ¬ toolTree.linkAt ["bin"] := fun ⟨target, h⟩ => by
      simpa using (toolTree_link h).1
    have htool : ¬ toolTree.linkAt ["bin", "tool"] := fun ⟨target, h⟩ => by
      simpa using (toolTree_link h).1
    simp [parts_tool, NoUpAfterLink, hbin, htool]

theorem toolTree_accepted : ∃ entries, componentInventory toolTree false = .ok entries := by
  have hok : (componentInventory toolTree false).isOk = true := by decide +kernel
  cases h : componentInventory toolTree false with
  | ok entries => exact ⟨entries, rfl⟩
  | error e =>
    rw [h] at hok
    cases hok

/-- The second link is created through the first one and the third through the second. -/
def climbingArchive : TarArchive where
  members := [linkMember "x/y/l" "../..", linkMember "x/y/l/b" "../..",
    linkMember "x/y/l/b/out" "x"]

theorem climbingArchive_creates :
    leaves (safeExtractArchive (.ok climbingArchive) ["w", "d"] (some smallMetadata)) smallBefore
      ["out"] ≠ smallBefore ["out"] := by
  decide +kernel

end NovaRtl.Hydration
