import Mathlib.Data.Nat.Notation
import Mathlib.Data.List.Infix
import Mathlib.Logic.Function.Basic
import NovaRtl.Transact.Ends

/-!
# File systems with symbolic links

A file system gives the node at each absolute path whose directories are real. A path text is walked
component by component, through symbolic links up to a limit, and a node is created in the directory
that the walk leads to. A path without links and `..` leads where it says.
-/

namespace Posix

open Transact

abbrev Path := List String

inductive Node (α : Type) where
  | directory
  | file (content : α)
  | symlink (target : String)
  deriving DecidableEq

/-- The node at each path. The root is the empty path. -/
abbrev FileSystem (α : Type) := Path → Option (Node α)

inductive Errno where
  | noEntry
  | exists
  | notDirectory
  | loop
  deriving DecidableEq

/-- The components of a path text, without empty ones and `.`. -/
def parts (text : String) : List String :=
  ((text.toList.splitOn '/').map String.ofList).filter fun part => part ≠ "" ∧ part ≠ "."

def isAbsolute (text : String) : Bool := text.toList.head? = some '/'

section

variable {α : Type} (fs : FileSystem α)

/-! ## Walking -/

/-- Where a symbolic link leads on from the directory that it is in. -/
def afterLink (current : Path) (target : String) (rest : List String) : Path × List String :=
  (if isAbsolute target then [] else current, parts target ++ rest)

/-- Where the components lead from a directory; `follow` goes on at a symbolic link. -/
def walkWith (follow : Path → List String → Except Errno Path) :
    Path → List String → Except Errno Path
  | current, [] => .ok current
  | current, part :: rest =>
    if part = ".." then walkWith follow current.dropLast rest
    else
      match fs (current ++ [part]) with
      | none => .error .noEntry
      | some .directory => walkWith follow (current ++ [part]) rest
      | some (.file _) => if rest = [] then .ok (current ++ [part]) else .error .notDirectory
      | some (.symlink target) =>
        follow (afterLink current target rest).1 (afterLink current target rest).2

/-- At most the given number of links is followed. -/
def walk : ℕ → Path → List String → Except Errno Path
  | 0 => walkWith fs fun _ _ => .error .loop
  | n + 1 => walkWith fs (walk n)

def maxLinks : ℕ := 40

def resolve (path : Path) : Except Errno Path := walk fs maxLinks [] path

def isDirectory : Option (Node α) → Bool
  | some .directory => true
  | _ => false

def isDir (path : Path) : Bool :=
  match resolve fs path with
  | .ok real => isDirectory (fs real)
  | .error _ => false

/-! ## Creating nodes -/

/-- Create a node that is not there, in the directory that a path leads to. -/
def create (parent : Path) (name : String) (node : Node α) :
    EStateM Errno (FileSystem α) Unit := do
  let fs ← get
  let real ← ofExcept (resolve fs parent)
  check (isDirectory (fs real)) .notDirectory
  check ((fs (real ++ [name])).isNone) .exists
  modify fun fs => Function.update fs (real ++ [name]) (some node)

/-- What exists already is fine when it is a directory. -/
def existing (path : Path) (e : Errno) : EStateM Errno (FileSystem α) Unit := do
  check (isDir (← get) path) e

/-- `mkdir -p` on a path given from its end: an existing directory is left as it is, and missing
directories above are made. -/
def makeDirs : List String → EStateM Errno (FileSystem α) Unit
  | [] => pure ()
  | name :: above =>
    rescue (fun _ => True) (create above.reverse name .directory) fun e =>
      if e = .noEntry then do
        makeDirs above
        rescue (· ≠ .noEntry) (create above.reverse name .directory)
          (existing (name :: above).reverse)
      else existing (name :: above).reverse e

/-! ## Following links -/

/-- One step of following a path; whatever is no link is walked through. -/
def followStep : Path × List String → Path × List String
  | (current, []) => (current, [])
  | (current, part :: rest) =>
    if part = ".." then (current.dropLast, rest)
    else
      match fs (current ++ [part]) with
      | some (.symlink target) => afterLink current target rest
      | _ => (current ++ [part], rest)

/-- Every directory that following the path from `current` comes through is below `root`. -/
def Confined (root current : Path) (rest : List String) : Prop :=
  ∀ n, root <+: ((followStep fs)^[n] (current, rest)).1

/-! ## Paths without links -/

/-- No component leads up or is a link. -/
structure Plain (current : Path) (rest : List String) : Prop where
  down : ".." ∉ rest
  linkless : ∀ p, p ≠ [] → p <+: rest → ∀ target, fs (current ++ p) ≠ some (.symlink target)

variable {fs} {current real : Path} {part name : String} {rest : List String}

theorem Plain.tail (h : Plain fs current (part :: rest)) : Plain fs (current ++ [part]) rest where
  down := fun hmem => h.down (List.mem_cons_of_mem _ hmem)
  linkless p _ hp target := by
    have := h.linkless (part :: p) (by simp) (List.cons_prefix_cons.mpr ⟨rfl, hp⟩) target
    simpa using this

theorem walkWith_of_plain {follow : Path → List String → Except Errno Path}
    (hplain : Plain fs current rest) (h : walkWith fs follow current rest = .ok real) :
    real = current ++ rest := by
  induction rest generalizing current with
  | nil => simpa [walkWith] using h.symm
  | cons part rest ih =>
    have hpart : part ≠ ".." := fun h => hplain.down (h ▸ List.mem_cons_self)
    have hlink := hplain.linkless [part] (by simp) (by simp)
    rw [walkWith, if_neg hpart] at h
    split at h
    · cases h
    · rw [ih hplain.tail h, List.append_assoc, List.singleton_append]
    · split at h
      next hrest => simpa [hrest] using h.symm
      · cases h
    next target htarget => exact absurd htarget (hlink target)

theorem resolve_of_plain {path : Path} (hplain : Plain fs [] path) (h : resolve fs path = .ok real) :
    real = path :=
  walkWith_of_plain hplain h

theorem create_endsIn {parent : Path} {node : Node α} (hplain : Plain fs [] parent)
    {returned : Unit → FileSystem α → Prop} {raised : Errno → FileSystem α → Prop}
    (hok : fs (parent ++ [name]) = none →
      returned () (Function.update fs (parent ++ [name]) (some node)))
    (herror : ∀ e, raised e fs) : EndsIn (create parent name node) fs returned raised := by
  refine EndsIn.bind (EndsIn.get (EndsIn.bind (EndsIn.ofExcept (fun real hreal => ?_)
    fun e _ => herror e)))
  obtain rfl := resolve_of_plain hplain hreal
  refine EndsIn.bind (EndsIn.check (fun _ => ?_) fun _ => herror _)
  refine EndsIn.bind (EndsIn.check (fun hnone => ?_) fun _ => herror _)
  exact EndsIn.modify (hok (Option.isNone_iff_eq_none.mp hnone))

/-- Missing directories on the way to a path were made, and nothing else changed. -/
def Made (path : Path) (fs fs' : FileSystem α) : Prop :=
  ∀ q, fs' q = fs q ∨ fs q = none ∧ fs' q = some .directory ∧ q ≠ [] ∧ q <+: path

theorem Made.refl (path : Path) (fs : FileSystem α) : Made path fs fs := fun _ => .inl rfl

theorem Made.trans {path path' : Path} {fs' fs'' : FileSystem α} (h : Made path fs fs')
    (hpath : path <+: path') (h' : Made path' fs' fs'') : Made path' fs fs'' := by
  intro q
  obtain hsame' | ⟨hnone', hmade', hne, hq⟩ := h' q
  · rw [hsame']
    exact (h q).imp_right fun ⟨hnone, hmade, hne, hq⟩ => ⟨hnone, hmade, hne, hq.trans hpath⟩
  · obtain hsame | ⟨hnone, hmade, -⟩ := h q
    · exact .inr ⟨hsame ▸ hnone', hmade', hne, hq⟩
    · rw [hmade] at hnone'
      cases hnone'

theorem made_update {parent : Path} (hnone : fs (parent ++ [name]) = none) :
    Made (parent ++ [name]) fs
      (Function.update fs (parent ++ [name]) (some .directory)) := by
  intro q
  by_cases hq : q = parent ++ [name]
  · subst hq
    exact .inr ⟨hnone, Function.update_self .., by simp, List.prefix_rfl⟩
  · exact .inl (Function.update_of_ne hq ..)

theorem Plain.of_made {path : Path} {fs' : FileSystem α} (hplain : Plain fs [] path)
    {path' : Path} (h : Made path' fs fs') : Plain fs' [] path where
  down := hplain.down
  linkless p hne hp target htarget := by
    obtain hsame | ⟨-, hmade, -⟩ := h ([] ++ p)
    · exact hplain.linkless p hne hp target (hsame ▸ htarget)
    · rw [hmade] at htarget
      cases htarget

theorem Plain.of_prefix {path path' : Path} (hplain : Plain fs [] path') (h : path <+: path') :
    Plain fs [] path where
  down hmem := hplain.down (h.subset hmem)
  linkless p hne hp := hplain.linkless p hne (hp.trans h)

theorem existing_endsIn {path : Path} {e : Errno} {returned : Unit → FileSystem α → Prop}
    {raised : Errno → FileSystem α → Prop} (hok : returned () fs) (herror : raised e fs) :
    EndsIn (existing path e) fs returned raised :=
  EndsIn.bind (EndsIn.get (EndsIn.check (fun _ => hok) fun _ => herror))

theorem makeDirs_endsIn {reversed : List String} (hplain : Plain fs [] reversed.reverse) :
    EndsIn (makeDirs reversed) fs (fun _ fs' => Made reversed.reverse fs fs')
      (fun _ fs' => Made reversed.reverse fs fs') := by
  induction reversed generalizing fs with
  | nil => exact EndsIn.pure (Made.refl _ _)
  | cons name above ih =>
    have habove : above.reverse <+: (name :: above).reverse := by simp
    have hpath : (name :: above).reverse = above.reverse ++ [name] := List.reverse_cons
    refine EndsIn.rescue (create_endsIn (hplain.of_prefix habove) (fun hnone => ?_) fun e => ?_)
    · rw [hpath]
      exact made_update hnone
    refine ⟨fun _ => ?_, fun h => absurd trivial h⟩
    split
    · refine EndsIn.bind ((ih (hplain.of_prefix habove)).mono (fun _ fs' hmade => ?_)
        fun _ fs' hmade => hmade.trans habove (Made.refl _ _))
      have hmade' := hmade.trans habove (Made.refl _ _)
      refine EndsIn.rescue (create_endsIn ((hplain.of_prefix habove).of_made hmade)
        (fun hnone => ?_) fun e => ⟨fun _ => existing_endsIn hmade' hmade', fun _ => hmade'⟩)
      rw [hpath]
      exact hmade.trans (by simp) (made_update hnone)
    · exact existing_endsIn (Made.refl _ _) (Made.refl _ _)

/-- Every node is in a directory. -/
def IsTree (fs : FileSystem α) : Prop :=
  ∀ path name, fs (path ++ [name]) ≠ none → fs path = some .directory

theorem IsTree.eq_none {path : Path} (h : IsTree fs) (hpath : fs path = none) (p : Path) :
    fs (path ++ p) = none := by
  induction p using List.reverseRecOn with
  | nil => rwa [List.append_nil]
  | append_singleton p name ih =>
    by_contra hsome
    rw [← List.append_assoc] at hsome
    rw [h _ _ hsome] at ih
    cases ih

/-! ## Following relative links -/

variable {isLink : Path → Prop} [DecidablePred isLink] {root : Path}

/-- Read as a text from a directory below the root, the components do not leave it, and none leads
up after a link. -/
def Steady (isLink : Path → Prop) [DecidablePred isLink] : Path → List String → Prop
  | _, [] => True
  | current, part :: rest =>
    if part = ".." then current ≠ [] ∧ Steady isLink current.dropLast rest
    else if isLink (current ++ [part]) then ".." ∉ rest
    else Steady isLink (current ++ [part]) rest

theorem steady_of_down (h : ".." ∉ rest) : Steady isLink current rest := by
  induction rest generalizing current with
  | nil => trivial
  | cons part rest ih =>
    have hpart : part ≠ ".." := fun hup => h (hup ▸ List.mem_cons_self)
    have hrest : ".." ∉ rest := fun hmem => h (List.mem_cons_of_mem _ hmem)
    rw [Steady, if_neg hpart]
    split
    · exact hrest
    · exact ih hrest

theorem Steady.append {rest' : List String} (h : Steady isLink current rest)
    (hdown : ".." ∉ rest') : Steady isLink current (rest ++ rest') := by
  induction rest generalizing current with
  | nil => exact steady_of_down hdown
  | cons part rest ih =>
    rw [Steady] at h
    rw [List.cons_append, Steady]
    split
    next hup =>
      rw [if_pos hup] at h
      exact ⟨h.1, ih h.2⟩
    next hup =>
      rw [if_neg hup] at h
      split
      next hlink =>
        rw [if_pos hlink] at h
        simp [h, hdown]
      next hlink =>
        rw [if_neg hlink] at h
        exact ih h

/-- A link below the root has a relative target that is steady from the directory of the link. -/
structure Link (isLink : Path → Prop) [DecidablePred isLink] (path : Path) (target : String) :
    Prop where
  known : isLink path
  relative : isAbsolute target = false
  steady : Steady isLink path.dropLast (parts target)

/-- Where all links are such ones, following them stays below the root. -/
theorem confined_of_steady
    (hlinks : ∀ p target, fs (root ++ p) = some (.symlink target) → Link isLink p target)
    (h : Steady isLink current rest) : Confined fs root (root ++ current) rest := by
  -- what remains to follow is steady from a directory below the root
  have hstep : ∀ c r, Steady isLink c r → ∃ c' r', Steady isLink c' r' ∧
      followStep fs (root ++ c, r) = (root ++ c', r') := by
    intro c r hsteady
    cases r with
    | nil => exact ⟨c, [], trivial, rfl⟩
    | cons part r =>
      rw [Steady] at hsteady
      rw [followStep]
      split at hsteady
      next hup =>
        obtain ⟨hne, hsteady⟩ := hsteady
        refine ⟨c.dropLast, r, hsteady, ?_⟩
        rw [if_pos hup, List.dropLast_append_of_ne_nil hne]
      next hup =>
        rw [if_neg hup]
        cases hnode : fs (root ++ c ++ [part]) with
        | some node =>
          cases node with
          | symlink target =>
            have hlink := hlinks (c ++ [part]) target (by rwa [← List.append_assoc])
            rw [if_pos hlink.known] at hsteady
            have htarget := hlink.steady
            rw [List.dropLast_concat] at htarget
            exact ⟨c, parts target ++ r, htarget.append hsteady, by
              simp [afterLink, hlink.relative]⟩
          | directory | file =>
            refine ⟨c ++ [part], r, ?_, by simp [List.append_assoc]⟩
            split at hsteady
            · exact steady_of_down hsteady
            · exact hsteady
        | none =>
          refine ⟨c ++ [part], r, ?_, by simp [List.append_assoc]⟩
          split at hsteady
          · exact steady_of_down hsteady
          · exact hsteady
  have hrun : ∀ n, ∃ c r, Steady isLink c r ∧
      (followStep fs)^[n] (root ++ current, rest) = (root ++ c, r) := by
    intro n
    induction n with
    | zero => exact ⟨current, rest, h, rfl⟩
    | succ n ih =>
      obtain ⟨c, r, hsteady, hn⟩ := ih
      obtain ⟨c', r', hsteady', hnext⟩ := hstep c r hsteady
      exact ⟨c', r', hsteady', by rw [Function.iterate_succ_apply', hn, hnext]⟩
  intro n
  obtain ⟨c, r, -, hn⟩ := hrun n
  rw [hn]
  exact List.prefix_append _ _

end

end Posix
