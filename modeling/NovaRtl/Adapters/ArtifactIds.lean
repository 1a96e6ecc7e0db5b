import NovaRtl.Adapters.Base
import NovaRtl.Contracts.CanonicalJson

/-!
# Artifact ids of a run

`_semantic_artifact_id` of `adapters/base.py` names an artifact by the stage result and by its role.
A role may be any text: it is lowered, and every run of other characters becomes one `_`. An id over
96 characters is cut and gets twelve digits of its digest, so that it says no longer which role it
is of.
-/

namespace NovaRtl.Adapters

open Text

/-- `str.lower` -/
structure Lowering where
  lower : List Char → List Char
  lower_ascii : ∀ text : List Char, (text.all fun c => c.toNat < 128) →
    lower text = text.map Char.toLower

/-- `[a-z0-9_]` -/
def isIdChar (c : Char) : Bool := c.isLower || c.isDigit || c = '_'

/-- `re.sub(r"[^a-z0-9_]+", "_", text)`, in a run of other characters or not. -/
def underscored (inRun : Bool) : List Char → List Char
  | [] => []
  | c :: rest =>
    if isIdChar c then c :: underscored false rest
    else if inRun then underscored true rest
    else '_' :: underscored true rest

/-- `text.strip("_")` -/
def stripUnderscores (text : List Char) : List Char :=
  ((text.dropWhile (· = '_')).reverse.dropWhile (· = '_')).reverse

/-- The role as a part of an id. -/
def normalizedRole (lowering : Lowering) (role : String) : List Char :=
  match stripUnderscores (underscored false (lowering.lower role.toList)) with
  | [] => "artifact".toList
  | name => name

/-- `sha256(candidate.encode()).hexdigest()[:12]` -/
def digestSuffix (candidate : List Char) : List Char :=
  (Sha256.hexOfBytes (encode (String.ofList candidate))).take 12

def candidateId (stageResultId : String) (name : List Char) : List Char :=
  stageResultId.toList ++ '_' :: name

/-- The candidate, cut if it is too long for an id. -/
def boundedId (candidate : List Char) : List Char :=
  if candidate.length ≤ 96 then candidate
  else candidate.take 83 ++ '_' :: digestSuffix candidate

/-- `_semantic_artifact_id` -/
def semanticArtifactId (lowering : Lowering) (stageResultId role : String) : EntityId :=
  String.ofList (boundedId (candidateId stageResultId (normalizedRole lowering role)))

/-! ## The ids are valid -/

section Names

theorem isIdChar_underscored (inRun : Bool) (text : List Char) :
    ∀ c ∈ underscored inRun text, isIdChar c := by
  induction text generalizing inRun with
  | nil => exact nofun
  | cons c rest ih =>
    intro d hd
    rw [underscored] at hd
    split at hd
    next hc =>
      rcases List.mem_cons.mp hd with rfl | hd
      · exact hc
      · exact ih false d hd
    next =>
      split at hd
      · exact ih true d hd
      · rcases List.mem_cons.mp hd with rfl | hd
        · rfl
        · exact ih true d hd

theorem stripUnderscores_subset (text : List Char) : stripUnderscores text ⊆ text := by
  intro c hc
  have hinner := List.mem_reverse.mp (List.dropWhile_subset _ (List.mem_reverse.mp hc))
  exact List.dropWhile_subset _ hinner

variable {lowering : Lowering}

theorem isIdChar_normalizedRole (role : String) :
    ∀ c ∈ normalizedRole lowering role, isIdChar c := by
  unfold normalizedRole
  split
  next => exact List.all_eq_true.mp (by decide)
  next =>
    intro c hc
    exact isIdChar_underscored false _ c (stripUnderscores_subset _ hc)

theorem normalizedRole_ne_nil (role : String) : normalizedRole lowering role ≠ [] := by
  unfold normalizedRole
  split
  next => decide
  next hname => exact hname

/-- A role that is a name already. -/
theorem normalizedRole_of_name {role : String} (hchars : role.toList.all isIdChar)
    (hlower : role.toList.map Char.toLower = role.toList)
    (hascii : role.toList.all fun c => c.toNat < 128)
    (hstrip : stripUnderscores role.toList = role.toList) (hne : role.toList ≠ []) :
    normalizedRole lowering role = role.toList := by
  have hsame (text : List Char) (h : text.all isIdChar) : underscored false text = text := by
    induction text with
    | nil => rfl
    | cons c rest ih =>
      rw [List.all_cons, Bool.and_eq_true] at h
      rw [underscored, if_pos h.1, ih h.2]
  unfold normalizedRole
  rw [lowering.lower_ascii _ hascii, hlower, hsame _ hchars, hstrip]
  cases hrole : role.toList with
  | nil => exact absurd hrole hne
  | cons c rest => rfl

end Names

section Ids

variable {lowering : Lowering} {candidate : List Char}

theorem length_digestSuffix (candidate : List Char) : (digestSuffix candidate).length = 12 := by
  rw [digestSuffix, List.length_take, Sha256.length_hexOfBytes]
  rfl

theorem isHex_of_mem_digestSuffix {c : Char} (h : c ∈ digestSuffix candidate) :
    (c.isDigit || ('a' ≤ c && c ≤ 'f')) = true :=
  Sha256.hexOfBytes_isHex (List.mem_of_mem_take h)

theorem length_boundedId_le (candidate : List Char) : (boundedId candidate).length ≤ 96 := by
  unfold boundedId
  split
  next h => exact h
  next h =>
    rw [List.length_append, List.length_take, List.length_cons, length_digestSuffix]
    omega

theorem isIdChar_of_isHex {c : Char} (h : (c.isDigit || ('a' ≤ c && c ≤ 'f')) = true) :
    isIdChar c := by
  unfold isIdChar
  cases hdigit : c.isDigit with
  | true => simp
  | false =>
    rw [hdigit, Bool.false_or, Bool.and_eq_true, decide_eq_true_eq, decide_eq_true_eq] at h
    have hlower : c.isLower = true := by
      delta Char.isLower
      simp only [Bool.and_eq_true, decide_eq_true_eq]
      exact ⟨h.1, UInt32.le_trans h.2 (by decide)⟩
    rw [hlower]
    rfl

theorem isIdChar_boundedId (h : ∀ c ∈ candidate, isIdChar c) :
    ∀ c ∈ boundedId candidate, isIdChar c := by
  unfold boundedId
  split
  next => exact h
  next =>
    intro c hc
    rcases List.mem_append.mp hc with hc | hc
    · exact h c (List.mem_of_mem_take hc)
    · rcases List.mem_cons.mp hc with rfl | hc
      · rfl
      · exact isIdChar_of_isHex (isHex_of_mem_digestSuffix hc)

theorem head?_boundedId (candidate : List Char) :
    (boundedId candidate).head? = candidate.head? := by
  unfold boundedId
  split
  next => rfl
  next h =>
    cases candidate with
    | nil => exact absurd (Nat.zero_le 96) h
    | cons c rest => rfl

theorem isEntityId_of_chars {text : List Char} (hlength : text.length ≤ 96) (hmin : 3 ≤ text.length)
    (hhead : ∀ c ∈ text.head?, c.isLower) (hchars : ∀ c ∈ text, isIdChar c) :
    isEntityId (String.ofList text) := by
  rw [isEntityId, String.toList_ofList]
  cases text with
  | nil => exact absurd hmin (by decide)
  | cons c rest =>
    rw [List.length_cons] at hlength hmin
    simp only [Bool.and_eq_true, decide_eq_true_eq, List.all_eq_true]
    refine ⟨⟨⟨hhead c rfl, fun d hd => ?_⟩, by omega⟩, by omega⟩
    exact hchars d (List.mem_cons_of_mem c hd)

theorem chars_of_isEntityId {id : String} (h : isEntityId id) :
    3 ≤ id.toList.length ∧ id.toList.length ≤ 96 ∧ (∀ c ∈ id.toList.head?, c.isLower) ∧
      ∀ c ∈ id.toList, isIdChar c := by
  unfold isEntityId at h
  cases hid : id.toList with
  | nil => rw [hid] at h; cases h
  | cons c rest =>
    rw [hid] at h
    simp only [Bool.and_eq_true, decide_eq_true_eq, List.all_eq_true] at h
    obtain ⟨⟨⟨hc, hrest⟩, hmin⟩, hmax⟩ := h
    refine ⟨by rw [List.length_cons]; omega, by rw [List.length_cons]; omega, ?_, ?_⟩
    · rintro _ ⟨⟩
      exact hc
    · intro d hd
      rcases List.mem_cons.mp hd with rfl | hd
      · simp [isIdChar, hc]
      · exact hrest d hd

/-- Whatever the role, the id is one. -/
theorem isEntityId_semanticArtifactId {stageResultId : String} (h : isEntityId stageResultId)
    (role : String) : isEntityId (semanticArtifactId lowering stageResultId role) := by
  obtain ⟨hmin, -, hhead, hchars⟩ := chars_of_isEntityId h
  refine isEntityId_of_chars (length_boundedId_le _) ?_ ?_ ?_
  · unfold boundedId candidateId
    split
    · rw [List.length_append]
      omega
    · next hlong =>
      rw [List.length_append, List.length_take, List.length_cons, length_digestSuffix]
      omega
  · rw [head?_boundedId, candidateId, List.head?_append_of_ne_nil]
    · exact hhead
    · intro hnil
      rw [hnil] at hmin
      cases hmin
  · refine isIdChar_boundedId fun c hc => ?_
    rcases List.mem_append.mp hc with hc | hc
    · exact hchars c hc
    · rcases List.mem_cons.mp hc with rfl | hc
      · rfl
      · exact isIdChar_normalizedRole role c hc

end Ids

/-! ## Which roles share an id -/

/-- Two candidates that get one id. -/
inductive Clash (a b : List Char) : Prop where
  | same (h : a = b)
  | cutBoth (ha : 96 < a.length) (hb : 96 < b.length) (htake : a.take 83 = b.take 83)
      (hdigest : digestSuffix a = digestSuffix b)
  | cutFirst (ha : 96 < a.length) (hb : b.length ≤ 96)
      (h : b = a.take 83 ++ '_' :: digestSuffix a)
  | cutSecond (ha : a.length ≤ 96) (hb : 96 < b.length)
      (h : a = b.take 83 ++ '_' :: digestSuffix b)

theorem boundedId_eq_iff {a b : List Char} : boundedId a = boundedId b ↔ Clash a b := by
  constructor
  · intro h
    unfold boundedId at h
    split at h
    next ha =>
      split at h
      · exact .same h
      next hb => exact .cutSecond ha (by omega) h
    next ha =>
      split at h
      next hb => exact .cutFirst (by omega) hb h.symm
      next hb =>
        obtain ⟨htake, htail⟩ := List.append_inj h (by simp only [List.length_take]; omega)
        exact .cutBoth (by omega) (by omega) htake (List.cons.inj htail).2
  · rintro (rfl | ⟨ha, hb, htake, hdigest⟩ | ⟨ha, hb, rfl⟩ | ⟨ha, hb, rfl⟩)
    · rfl
    · rw [boundedId, boundedId, if_neg (by omega), if_neg (by omega), htake, hdigest]
    · rw [boundedId, boundedId, if_neg (by omega), if_pos hb]
    · rw [boundedId, boundedId, if_pos ha, if_neg (by omega)]

/-- The candidates of two roles are equal if the names are. -/
theorem candidateId_inj {stageResultId : String} {a b : List Char} :
    candidateId stageResultId a = candidateId stageResultId b ↔ a = b := by
  rw [candidateId, candidateId, List.append_right_inj, List.cons_inj_right]

end NovaRtl.Adapters
