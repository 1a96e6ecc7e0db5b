import Mathlib.Order.Basic
import NovaRtl.Contracts.Reporting
import NovaRtl.Order.Frontier

/-!
# The Pareto archive

`search/pareto.py`: records are kept for good, and the frontier of each correctness class is
computed from them. Metric values are finite floats, of which only the comparison matters: they are
a preorder here, since the two zeros compare equal.
-/

namespace NovaRtl.Search

inductive ParetoError where
  /-- `ParetoArchiveError` -/
  | archive (text : String)
  /-- `IncomparableMetricsError` -/
  | incomparable (text : String)
  deriving DecidableEq, Repr

def maximized : List String := ["setup_wns_ns", "setup_tns_ns", "hold_wns_ns", "hold_tns_ns"]

variable {Value : Type}

section Dominance

variable [Preorder Value]

/-- The comparison of one metric. A missing metric raises, which no archived record does. -/
def NoWorse (left right : ParetoRecord Value) (name : String) : Prop :=
  match item? left.metricVector name, item? right.metricVector name with
  | some l, some r => if name ∈ maximized then r ≤ l else l ≤ r
  | _, _ => False

def Better (left right : ParetoRecord Value) (name : String) : Prop :=
  match item? left.metricVector name, item? right.metricVector name with
  | some l, some r => if name ∈ maximized then r < l else l < r
  | _, _ => False

def Dominates (left right : ParetoRecord Value) : Prop :=
  (∀ name ∈ officialMetricVector, NoWorse left right name) ∧
    ∃ name ∈ officialMetricVector, Better left right name

variable {left mid right : ParetoRecord Value} {name : String}

theorem NoWorse.trans (h : NoWorse left mid name) (h' : NoWorse mid right name) :
    NoWorse left right name := by
  unfold NoWorse at *
  grind [le_trans]

theorem Better.trans_noWorse (h : Better left mid name) (h' : NoWorse mid right name) :
    Better left right name := by
  unfold NoWorse Better at *
  grind [lt_of_lt_of_le, lt_of_le_of_lt]

theorem not_better_self : ¬ Better left left name := by
  unfold Better
  grind [lt_irrefl]

instance : IsTrans (ParetoRecord Value) Dominates where
  trans := by
    rintro left mid right ⟨hleft, name, hname, hbetter⟩ ⟨hright, -⟩
    exact ⟨fun name hname => (hleft name hname).trans (hright name hname),
      name, hname, hbetter.trans_noWorse (hright name hname)⟩

instance : Std.Irrefl (Dominates : ParetoRecord Value → ParetoRecord Value → Prop) where
  irrefl := by
    rintro record ⟨-, name, -, hbetter⟩
    exact not_better_self hbetter

variable [DecidableLE Value] [DecidableLT Value]

instance (left right : ParetoRecord Value) (name : String) :
    Decidable (NoWorse left right name) := by
  unfold NoWorse
  split <;> infer_instance

instance (left right : ParetoRecord Value) (name : String) :
    Decidable (Better left right name) := by
  unfold Better
  split <;> infer_instance

instance (left right : ParetoRecord Value) : Decidable (Dominates left right) :=
  inferInstanceAs (Decidable (_ ∧ _))

end Dominance

/-- The list as Python writes it. -/
def listText (names : List String) : String :=
  "[" ++ ", ".intercalate (names.map fun name => "'" ++ name ++ "'") ++ "]"

def validateRecord (record : ParetoRecord Value) : Except ParetoError Unit := do
  let supplied := record.metricVector.map Prod.fst
  require (sortedSet supplied = sortedSet officialMetricVector)
    (.archive ("official Pareto vector must be complete (missing=" ++
      listText (sortedSet (officialMetricVector.filter (· ∉ supplied))) ++ ", extra=" ++
      listText (sortedSet (supplied.filter (· ∉ officialMetricVector))) ++ ")"))
  require (sortedSet (record.comparisonIdentityHashes.map Prod.fst) =
      sortedSet requiredComparisonIdentities)
    (.archive "official comparison identity set is incomplete")

def requireSameIdentity (left right : ParetoRecord Value) : Except ParetoError Unit := do
  require (sortedSet (left.requiredViewMetricIds.map Prod.fst) =
      sortedSet (right.requiredViewMetricIds.map Prod.fst))
    (.incomparable "required analysis view IDs differ")
  require (left.physicalStage = right.physicalStage) (.incomparable "physical_stage differs")
  forM (sorted requiredComparisonIdentities) fun name =>
    require (item? left.comparisonIdentityHashes name = item? right.comparisonIdentityHashes name)
      (.incomparable ("comparison identity differs: " ++ name))

/-- The records in the order in which they were added. -/
structure ParetoArchive (Value : Type) where
  records : List (ParetoRecord Value)
  ids_nodup : (records.map ParetoRecord.candidateId).Nodup

inductive Disposition where
  | frontier
  | dominated
  deriving DecidableEq, Repr

structure ParetoUpdatePayload where
  correctnessContract : CorrectnessContract
  candidateId : EntityId
  disposition : Disposition
  frontierCandidateIds : List EntityId
  removedCandidateIds : List EntityId

/-- An update carries the canonical hash of its payload. -/
structure ParetoUpdate (canonicalSha256 : ParetoUpdatePayload → String) extends
    ParetoUpdatePayload where
  updateHash : String
  hash_canonical : updateHash = canonicalSha256 toParetoUpdatePayload

structure ParetoArchivePayload (Value : Type) where
  records : List (ParetoRecord Value)
  frontierCandidateIds : List (CorrectnessContract × List EntityId)
  dominance : List (EntityId × List EntityId)

structure ParetoArchiveSnapshot (canonicalSha256 : ParetoArchivePayload Value → String) extends
    ParetoArchivePayload Value where
  archiveHash : String
  records_ordered : records.map ParetoRecord.candidateId =
    sortedSet (records.map ParetoRecord.candidateId)
  hash_canonical : archiveHash = canonicalSha256 toParetoArchivePayload

theorem ParetoArchiveSnapshot.ext_payload {archiveSha256 : ParetoArchivePayload Value → String}
    {snapshot snapshot' : ParetoArchiveSnapshot archiveSha256}
    (h : snapshot.toParetoArchivePayload = snapshot'.toParetoArchivePayload) :
    snapshot = snapshot' := by
  have hhash : snapshot.archiveHash = snapshot'.archiveHash := by
    rw [snapshot.hash_canonical, snapshot'.hash_canonical, h]
  cases snapshot
  cases snapshot'
  simp_all only

namespace ParetoArchive

def empty : ParetoArchive Value := ⟨[], .nil⟩

/-- The records by candidate identity. -/
def ordered (archive : ParetoArchive Value) : List (ParetoRecord Value) :=
  sortedBy ParetoRecord.candidateId archive.records

def partition (archive : ParetoArchive Value) (contract : CorrectnessContract) :
    List (ParetoRecord Value) :=
  archive.ordered.filter fun record => record.correctnessContract = contract

def insert (archive : ParetoArchive Value) (record : ParetoRecord Value)
    (hnew : record.candidateId ∉ archive.records.map ParetoRecord.candidateId) :
    ParetoArchive Value where
  records := archive.records ++ [record]
  ids_nodup := by
    rw [List.map_append, List.map_singleton]
    refine archive.ids_nodup.append (List.nodup_singleton _) ?_
    simpa [List.disjoint_singleton] using hnew

section Partition

variable {archive : ParetoArchive Value} {record : ParetoRecord Value}
  {contract : CorrectnessContract}

theorem mem_partition :
    record ∈ archive.partition contract ↔
      record ∈ archive.records ∧ record.correctnessContract = contract := by
  simp [partition, ordered]

theorem partition_insert_of_ne {hnew : record.candidateId ∉ archive.records.map _}
    (hne : contract ≠ record.correctnessContract) :
    (archive.insert record hnew).partition contract = archive.partition contract := by
  have hfilter : (archive.insert record hnew).records.filter
      (fun other => other.correctnessContract = contract) =
        archive.records.filter fun other => other.correctnessContract = contract := by
    simp [insert, hne.symm]
  rw [partition, partition, ordered, ordered,
    filter_sortedBy _ _ (archive.insert record hnew).ids_nodup,
    filter_sortedBy _ _ archive.ids_nodup, hfilter]

theorem mem_partition_insert {hnew : record.candidateId ∉ archive.records.map _}
    {other : ParetoRecord Value} :
    other ∈ (archive.insert record hnew).partition record.correctnessContract ↔
      other ∈ archive.partition record.correctnessContract ∨ other = record := by
  simp only [mem_partition, insert, List.mem_append, List.mem_singleton]
  grind

theorem ordered_ids (archive : ParetoArchive Value) :
    archive.ordered.map ParetoRecord.candidateId =
      sortedSet (archive.ordered.map ParetoRecord.candidateId) := by
  have hnodup : (archive.ordered.map ParetoRecord.candidateId).Nodup :=
    ((sortedBy_perm _ archive.records).map _).nodup_iff.mpr archive.ids_nodup
  have hsorted : (archive.ordered.map ParetoRecord.candidateId).Pairwise (· ≤ ·) :=
    List.pairwise_map.mpr (sortedBy_pairwise _ archive.records)
  rw [sortedSet, hnodup.dedup, sorted, hsorted.insertionSort_eq]

end Partition

/-- The comparison of archived records finds every metric. -/
theorem metric_present {record : ParetoRecord Value} (h : validateRecord record = .ok ())
    {name : String} (hname : name ∈ officialMetricVector) :
    (item? record.metricVector name).isSome := by
  simp only [validateRecord, bind_eq_ok, require_eq_ok] at h
  obtain ⟨-, hsupplied, -⟩ := h
  rw [item?_isSome, ← mem_sortedSet, hsupplied, mem_sortedSet]
  exact hname

/-- Records of which every prefix admits the next one. -/
structure Admissible (records : List (ParetoRecord Value)) : Prop where
  valid : ∀ record ∈ records, validateRecord record = .ok ()
  ids_nodup : (records.map ParetoRecord.candidateId).Nodup
  comparable : records.Pairwise fun peer record =>
    peer.correctnessContract = record.correctnessContract → requireSameIdentity peer record = .ok ()

theorem Admissible.sublist {records records' : List (ParetoRecord Value)}
    (h : Admissible records) (hsub : records'.Sublist records) : Admissible records' where
  valid record hrecord := h.valid record (hsub.subset hrecord)
  ids_nodup := h.ids_nodup.sublist (hsub.map _)
  comparable := h.comparable.sublist hsub

theorem admissible_empty : Admissible (empty : ParetoArchive Value).records where
  valid := nofun
  ids_nodup := .nil
  comparable := .nil

variable [Preorder Value] [DecidableLE Value] [DecidableLT Value]

def frontier (archive : ParetoArchive Value) (contract : CorrectnessContract) :
    List (ParetoRecord Value) :=
  (archive.partition contract).filter fun record =>
    ¬ ∃ other ∈ archive.partition contract,
      other.candidateId ≠ record.candidateId ∧ Dominates other record

section Updates

variable (updateSha256 : ParetoUpdatePayload → String)

/-- The update for a record that has just been inserted. -/
def updateOf (before after : ParetoArchive Value) (record : ParetoRecord Value) :
    ParetoUpdate updateSha256 :=
  let ids := fun archive : ParetoArchive Value =>
    (archive.frontier record.correctnessContract).map ParetoRecord.candidateId
  let payload : ParetoUpdatePayload :=
    { correctnessContract := record.correctnessContract
      candidateId := record.candidateId
      disposition := if record.candidateId ∈ ids after then .frontier else .dominated
      frontierCandidateIds := sortedSet (ids after)
      removedCandidateIds := sortedSet ((ids before).filter (· ∉ ids after)) }
  { payload with updateHash := updateSha256 payload, hash_canonical := rfl }

/-- The answer of an add, and the archive after it. -/
def add (archive : ParetoArchive Value) (record : ParetoRecord Value) :
    Except ParetoError (ParetoUpdate updateSha256) × ParetoArchive Value :=
  match validateRecord record with
  | .error e => (.error e, archive)
  | .ok _ =>
    if hold : record.candidateId ∈ archive.records.map ParetoRecord.candidateId then
      (.error (.archive ("candidate already archived: " ++ record.candidateId)), archive)
    else
      match forM (archive.partition record.correctnessContract) fun peer =>
          requireSameIdentity peer record with
      | .error e => (.error e, archive)
      | .ok _ =>
        (.ok (updateOf updateSha256 archive (archive.insert record hold) record),
          archive.insert record hold)

def addAll (archive : ParetoArchive Value) (records : List (ParetoRecord Value)) :
    ParetoArchive Value :=
  records.foldl (fun archive record => (archive.add updateSha256 record).2) archive

def Accepts (archive : ParetoArchive Value) (record : ParetoRecord Value) : Prop :=
  ∃ update, (archive.add updateSha256 record).1 = .ok update

def AcceptsAll (archive : ParetoArchive Value) : List (ParetoRecord Value) → Prop
  | [] => True
  | record :: records =>
    archive.Accepts updateSha256 record ∧
      (archive.add updateSha256 record).2.AcceptsAll records

end Updates

section Snapshot

variable (archiveSha256 : ParetoArchivePayload Value → String)

/-- The contracts of the archive in the order of their names. -/
def contracts (archive : ParetoArchive Value) : List CorrectnessContract :=
  [.latencyAware, .retimingEquiv, .strictSeqEquiv].filter fun contract =>
    ∃ record ∈ archive.ordered, record.correctnessContract = contract

def snapshot (archive : ParetoArchive Value) : ParetoArchiveSnapshot archiveSha256 :=
  let payload : ParetoArchivePayload Value :=
    { records := archive.ordered
      frontierCandidateIds := archive.contracts.map fun contract =>
        (contract, (archive.frontier contract).map ParetoRecord.candidateId)
      dominance := archive.ordered.map fun record =>
        (record.candidateId, (archive.ordered.filter fun other =>
          other.correctnessContract = record.correctnessContract ∧ Dominates record other).map
            ParetoRecord.candidateId) }
  { payload with
    archiveHash := archiveSha256 payload
    records_ordered := archive.ordered_ids
    hash_canonical := rfl }

/-- A snapshot depends on the records alone. -/
theorem snapshot_eq_of_perm {archive archive' : ParetoArchive Value}
    (h : archive.records.Perm archive'.records) :
    archive.snapshot archiveSha256 = archive'.snapshot archiveSha256 := by
  have hordered : archive.ordered = archive'.ordered :=
    sortedBy_eq_of_perm _ h archive.ids_nodup
  apply ParetoArchiveSnapshot.ext_payload
  dsimp only [snapshot]
  unfold contracts frontier partition
  rw [hordered]

end Snapshot

section Laws

variable {updateSha256 : ParetoUpdatePayload → String} {archive : ParetoArchive Value}
  {record : ParetoRecord Value} {contract : CorrectnessContract}

theorem mem_frontier :
    record ∈ archive.frontier contract ↔
      Undominated Dominates (archive.partition contract) record := by
  simp only [frontier, Undominated, List.mem_filter, decide_eq_true_eq]
  refine and_congr_right fun hrecord => ?_
  constructor
  · intro h other hother hdom
    refine h ⟨other, hother, fun hid => ?_, hdom⟩
    have heq : other = record := List.inj_on_of_nodup_map archive.ids_nodup
      (mem_partition.mp hother).1 (mem_partition.mp hrecord).1 hid
    exact Std.Irrefl.irrefl (r := Dominates) record (heq ▸ hdom)
  · rintro h ⟨other, hother, -, hdom⟩
    exact h other hother hdom

/-- What an add does: nothing, or an insertion that the update describes. -/
theorem add_cases (updateSha256 : ParetoUpdatePayload → String) (archive : ParetoArchive Value)
    (record : ParetoRecord Value) :
    (∃ e, archive.add updateSha256 record = (.error e, archive)) ∨
      ∃ hnew, archive.add updateSha256 record =
          (.ok (updateOf updateSha256 archive (archive.insert record hnew) record),
            archive.insert record hnew) ∧
        validateRecord record = .ok () ∧
        ∀ peer ∈ archive.partition record.correctnessContract,
          requireSameIdentity peer record = .ok () := by
  unfold add
  split
  next e he => exact .inl ⟨e, rfl⟩
  next hvalid =>
    split
    next hold => exact .inl ⟨_, rfl⟩
    next hnew =>
      split
      next e he => exact .inl ⟨e, rfl⟩
      next hpeers => exact .inr ⟨hnew, rfl, hvalid, forM_eq_ok.mp hpeers⟩

theorem accepts_iff :
    archive.Accepts updateSha256 record ↔
      validateRecord record = .ok () ∧
        record.candidateId ∉ archive.records.map ParetoRecord.candidateId ∧
        ∀ peer ∈ archive.partition record.correctnessContract,
          requireSameIdentity peer record = .ok () := by
  constructor
  · rintro ⟨update, h⟩
    rcases add_cases updateSha256 archive record with
      ⟨e, he⟩ | ⟨hnew, -, hvalid, hpeers⟩
    · rw [he] at h
      cases h
    · exact ⟨hvalid, hnew, hpeers⟩
  · rintro ⟨hvalid, hnew, hpeers⟩
    have hforM := forM_eq_ok (u := ()).mpr hpeers
    simp only [Accepts, add, hvalid, hnew, hforM, dite_false]
    exact ⟨_, rfl⟩

theorem add_of_accepts (h : archive.Accepts updateSha256 record) :
    ∃ hnew, archive.add updateSha256 record =
      (.ok (updateOf updateSha256 archive (archive.insert record hnew) record),
        archive.insert record hnew) := by
  rcases add_cases updateSha256 archive record with
    ⟨e, he⟩ | ⟨hnew, hadd, -⟩
  · obtain ⟨update, hupdate⟩ := h
    rw [he] at hupdate
    cases hupdate
  · exact ⟨hnew, hadd⟩

theorem frontier_insert {hnew : record.candidateId ∉ archive.records.map _}
    {former : ParetoRecord Value}
    (hformer : former ∈ archive.frontier record.correctnessContract) :
    former ∈ (archive.insert record hnew).frontier record.correctnessContract ↔
      ¬ Dominates record former := by
  rw [mem_frontier] at *
  rw [undominated_insert_of_mem (fun _ => mem_partition_insert) hformer.1, and_iff_right hformer]

theorem mem_removed {hnew : record.candidateId ∉ archive.records.map _} {id : EntityId} :
    id ∈ (updateOf updateSha256 archive (archive.insert record hnew) record).removedCandidateIds ↔
      ∃ former ∈ archive.frontier record.correctnessContract,
        former.candidateId = id ∧ Dominates record former := by
  simp only [updateOf, mem_sortedSet, List.mem_filter, List.mem_map, decide_eq_true_eq]
  constructor
  · rintro ⟨⟨former, hformer, rfl⟩, hgone⟩
    refine ⟨former, hformer, rfl, ?_⟩
    by_contra hdom
    exact hgone ⟨former, (frontier_insert hformer).mpr hdom, rfl⟩
  · rintro ⟨former, hformer, rfl, hdom⟩
    refine ⟨⟨former, hformer, rfl⟩, ?_⟩
    rintro ⟨other, hother, hid⟩
    have hmem : former ∈ (archive.insert record hnew).partition record.correctnessContract :=
      mem_partition_insert.mpr (.inl (mem_frontier.mp hformer).1)
    obtain rfl : other = former := List.inj_on_of_nodup_map (archive.insert record hnew).ids_nodup
      (mem_partition.mp (mem_frontier.mp hother).1).1 (mem_partition.mp hmem).1 hid
    exact (frontier_insert hformer).mp hother hdom

theorem removed_eq_nil {hnew : record.candidateId ∉ archive.records.map _}
    {other : ParetoRecord Value} (hother : other ∈ archive.partition record.correctnessContract)
    (hdom : Dominates other record) :
    (updateOf updateSha256 archive (archive.insert record hnew) record).removedCandidateIds =
      [] := by
  apply List.eq_nil_iff_forall_not_mem.mpr
  intro id hid
  obtain ⟨former, hformer, -, hbelow⟩ := mem_removed.mp hid
  exact (mem_frontier.mp hformer).not_dom hother hdom hbelow

/-- Every record is on the frontier of its class or dominated by a record that is. -/
theorem covered (hrecord : record ∈ archive.records) :
    ∃ front ∈ archive.frontier record.correctnessContract,
      front = record ∨ Dominates front record := by
  obtain ⟨front, hfront, hcover⟩ : ∃ front,
      Undominated Dominates (archive.partition record.correctnessContract) front ∧
        (front = record ∨ Dominates front record) :=
    exists_undominated (mem_partition.mpr ⟨hrecord, rfl⟩)
  exact ⟨front, mem_frontier.mpr hfront, hcover⟩

theorem accepts_iff_admissible (h : Admissible archive.records) :
    archive.Accepts updateSha256 record ↔ Admissible (archive.records ++ [record]) := by
  rw [accepts_iff]
  constructor
  · rintro ⟨hvalid, hnew, hpeers⟩
    constructor
    · simpa [or_imp, forall_and] using ⟨h.valid, hvalid⟩
    · exact (archive.insert record hnew).ids_nodup
    · refine List.pairwise_append.mpr ⟨h.comparable, List.pairwise_singleton _ _, ?_⟩
      intro peer hpeer other hother hclass
      obtain rfl := List.mem_singleton.mp hother
      exact hpeers peer (mem_partition.mpr ⟨hpeer, hclass⟩)
  · intro h'
    refine ⟨h'.valid record (by simp), ?_, ?_⟩
    · have hnodup := h'.ids_nodup
      rw [List.map_append, List.nodup_append] at hnodup
      intro hold
      exact hnodup.2.2 _ hold _ (by simp) rfl
    · intro peer hpeer
      obtain ⟨hmem, hclass⟩ := mem_partition.mp hpeer
      exact (List.pairwise_append.mp h'.comparable).2.2 peer hmem record (by simp) hclass

theorem admissible_add (h : Admissible archive.records) :
    Admissible (archive.add updateSha256 record).2.records := by
  rcases add_cases updateSha256 archive record with ⟨e, he⟩ | ⟨hnew, hadd, hrest⟩
  · rwa [he]
  · rw [hadd]
    have haccept : archive.Accepts updateSha256 record := accepts_iff.mpr ⟨hrest.1, hnew, hrest.2⟩
    exact (accepts_iff_admissible h).mp haccept

theorem admissible_addAll (h : Admissible archive.records)
    (records : List (ParetoRecord Value)) :
    Admissible (archive.addAll updateSha256 records).records := by
  induction records generalizing archive with
  | nil => exact h
  | cons record records ih => exact ih (admissible_add h)

theorem records_add_subset (archive : ParetoArchive Value) (record : ParetoRecord Value) :
    archive.records ⊆ (archive.add updateSha256 record).2.records := by
  rcases add_cases updateSha256 archive record with ⟨e, he⟩ | ⟨hnew, hadd, -⟩
  · rw [he]
    exact fun _ h => h
  · rw [hadd]
    exact List.subset_append_left _ _

theorem records_addAll_subset (updateSha256 : ParetoUpdatePayload → String)
    (archive : ParetoArchive Value)
    (records : List (ParetoRecord Value)) :
    archive.records ⊆ (archive.addAll updateSha256 records).records := by
  induction records generalizing archive with
  | nil => exact fun _ h => h
  | cons record records ih => exact fun other h => ih _ (records_add_subset archive record h)

theorem acceptsAll_iff {records : List (ParetoRecord Value)} (h : Admissible archive.records) :
    archive.AcceptsAll updateSha256 records ↔ Admissible (archive.records ++ records) := by
  induction records generalizing archive with
  | nil => simpa [AcceptsAll] using h
  | cons record records ih =>
    rw [AcceptsAll]
    constructor
    · rintro ⟨haccept, hrest⟩
      rw [ih (admissible_add h)] at hrest
      obtain ⟨hnew, hadd⟩ := add_of_accepts haccept
      rw [hadd] at hrest
      simpa [insert] using hrest
    · intro h'
      have haccept : archive.Accepts updateSha256 record :=
        (accepts_iff_admissible h).mpr (h'.sublist (by simp))
      refine ⟨haccept, (ih (admissible_add h)).mpr ?_⟩
      obtain ⟨hnew, hadd⟩ := add_of_accepts haccept
      rw [hadd]
      simpa [insert] using h'

theorem records_of_acceptsAll {records : List (ParetoRecord Value)}
    (h : archive.AcceptsAll updateSha256 records) :
    (archive.addAll updateSha256 records).records = archive.records ++ records := by
  induction records generalizing archive with
  | nil => simp [addAll]
  | cons record records ih =>
    obtain ⟨haccept, hrest⟩ := h
    have hrecords := ih hrest
    obtain ⟨hnew, hadd⟩ := add_of_accepts haccept
    rw [addAll, List.foldl_cons, ← addAll, hrecords, hadd]
    simp [insert]

/-- The accepted records of one class, added alone, give the frontier of that class. -/
theorem frontier_of_class (records : List (ParetoRecord Value)) (contract : CorrectnessContract) :
    (empty.addAll updateSha256 records).frontier contract =
      (empty.addAll updateSha256 ((empty.addAll updateSha256 records).records.filter
        fun record => record.correctnessContract = contract)).frontier contract := by
  have hadmissible : Admissible (empty.addAll updateSha256 records).records :=
    admissible_addAll admissible_empty records
  generalize empty.addAll updateSha256 records = archive at hadmissible
  have hclass := hadmissible.sublist (List.filter_sublist
    (p := fun record : ParetoRecord Value => record.correctnessContract = contract))
  have haccept : empty.AcceptsAll updateSha256 (archive.records.filter
      fun record => record.correctnessContract = contract) :=
    (acceptsAll_iff admissible_empty).mpr (by simpa [empty] using hclass)
  have hrecords := records_of_acceptsAll haccept
  have hpartition : archive.partition contract =
      (empty.addAll updateSha256 (archive.records.filter
        fun record => record.correctnessContract = contract)).partition contract := by
    rw [partition, partition, ordered, ordered, filter_sortedBy _ _ archive.ids_nodup,
      filter_sortedBy _ _ (ids_nodup _), hrecords]
    simp [empty]
  unfold frontier
  rw [hpartition]

end Laws

theorem archive_laws (updateSha256 : ParetoUpdatePayload → String)
    (archiveSha256 : ParetoArchivePayload Value → String)
    (records : List (ParetoRecord Value)) (record : ParetoRecord Value) :
    let archive := empty.addAll updateSha256 records
    (∀ e, (archive.add updateSha256 record).1 = .error e →
      (archive.add updateSha256 record).2 = archive) ∧
    (∀ update, (archive.add updateSha256 record).1 = .ok update →
      (∀ id, id ∈ update.removedCandidateIds ↔
        ∃ former ∈ archive.frontier record.correctnessContract,
          former.candidateId = id ∧ Dominates record former) ∧
      ((∃ other ∈ archive.partition record.correctnessContract, Dominates other record) →
        update.removedCandidateIds = [])) ∧
    (∀ before accepted after, records = before ++ accepted :: after →
      (empty.addAll updateSha256 before).Accepts updateSha256 accepted →
      ∃ front ∈ archive.frontier accepted.correctnessContract,
        front = accepted ∨ Dominates front accepted) ∧
    (∀ contract ≠ record.correctnessContract,
      (archive.add updateSha256 record).2.frontier contract = archive.frontier contract) ∧
    (∀ contract, archive.frontier contract =
      (empty.addAll updateSha256 (archive.records.filter
        fun other => other.correctnessContract = contract)).frontier contract) ∧
    ∀ reordered, records.Perm reordered → empty.AcceptsAll updateSha256 records →
      empty.AcceptsAll updateSha256 reordered →
      archive.snapshot archiveSha256 =
        (empty.addAll updateSha256 reordered).snapshot archiveSha256 := by
  intro archive
  refine ⟨?_, ?_, ?_, ?_, frontier_of_class records, ?_⟩
  · intro e he
    rcases add_cases updateSha256 archive record with
      ⟨e', hadd⟩ | ⟨hnew, hadd, -⟩
    · rw [hadd]
    · rw [hadd] at he
      cases he
  · intro update hupdate
    obtain ⟨hnew, hadd⟩ := add_of_accepts ⟨update, hupdate⟩
    rw [hadd, Except.ok.injEq] at hupdate
    subst hupdate
    refine ⟨fun id => mem_removed, ?_⟩
    rintro ⟨other, hother, hdom⟩
    exact removed_eq_nil hother hdom
  · rintro before accepted after rfl haccept
    apply covered
    obtain ⟨hnew, hadd⟩ := add_of_accepts haccept
    have hmem : accepted ∈
        ((empty.addAll updateSha256 before).add updateSha256 accepted).2.records := by
      rw [hadd]
      exact List.mem_append_right _ (List.mem_singleton_self _)
    have hkept := records_addAll_subset updateSha256 _ after hmem
    simpa [archive, addAll] using hkept
  · intro contract hne
    rcases add_cases updateSha256 archive record with
      ⟨e, hadd⟩ | ⟨hnew, hadd, -⟩
    · rw [hadd]
    · rw [hadd]
      dsimp only
      unfold frontier
      rw [partition_insert_of_ne hne]
  · intro reordered hperm haccept haccept'
    apply snapshot_eq_of_perm
    rw [records_of_acceptsAll haccept, records_of_acceptsAll haccept']
    exact hperm.append_left _

end ParetoArchive

end NovaRtl.Search
