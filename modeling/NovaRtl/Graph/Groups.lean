import Mathlib.Data.List.Nodup
import Mathlib.Data.List.Perm.Basic

/-!
# Groups

A dictionary from keys to lists, filled by appending each value to the list of its key.
-/

/-- Keys with the values collected under them, in the order of the first value of each key. -/
abbrev Groups (κ α : Type) := List (κ × List α)

namespace Groups

variable {ι κ α : Type} [DecidableEq κ]

/-- Append a value to the list of its key. -/
def insert (groups : Groups κ α) (key : κ) (a : α) : Groups κ α :=
  match groups with
  | [] => [(key, [a])]
  | (k, members) :: rest =>
    if k = key then (k, members ++ [a]) :: rest else (k, members) :: insert rest key a

def keys (groups : Groups κ α) : List κ := groups.map Prod.fst

variable {groups : Groups κ α} {key k : κ} {a : α} {members : List α}

omit [DecidableEq κ] in
theorem mem_keys : k ∈ groups.keys ↔ ∃ members, (k, members) ∈ groups := by
  simp [keys]

omit [DecidableEq κ] in
theorem mem_keys_cons {group : κ × List α} {rest : Groups κ α} :
    k ∈ keys (group :: rest) ↔ k = group.1 ∨ k ∈ rest.keys := by
  simp [keys]

theorem mem_keys_insert : k ∈ (groups.insert key a).keys ↔ k = key ∨ k ∈ groups.keys := by
  induction groups with
  | nil => simp [insert, keys]
  | cons group rest ih =>
    rw [insert]
    split
    · next h =>
      rw [mem_keys_cons, mem_keys_cons, h]
      tauto
    · rw [mem_keys_cons, mem_keys_cons, ih]
      tauto

theorem nodup_keys_insert (h : groups.keys.Nodup) : (groups.insert key a).keys.Nodup := by
  induction groups with
  | nil => simp [insert, keys]
  | cons group rest ih =>
    obtain ⟨hnew, hrest⟩ := List.nodup_cons.mp h
    rw [insert]
    split
    · exact h
    · next hne =>
      refine List.nodup_cons.mpr ⟨fun hmem => ?_, ih hrest⟩
      rcases mem_keys_insert.mp hmem with heq | hmem
      · exact hne heq
      · exact hnew hmem

/-- The values of the groups after an insertion. -/
theorem flatMap_insert : ((groups.insert key a).flatMap Prod.snd).Perm
    (groups.flatMap Prod.snd ++ [a]) := by
  induction groups with
  | nil => simp [insert]
  | cons group rest ih =>
    rw [insert]
    split
    · simp only [List.flatMap_cons, List.append_assoc]
      exact List.perm_append_comm.append_left _
    · simp only [List.flatMap_cons, List.append_assoc]
      exact ih.append_left _

/-- A group after an insertion. -/
theorem mem_insert (h : groups.keys.Nodup) (hmem : (k, members) ∈ groups.insert key a) :
    (k ≠ key ∧ (k, members) ∈ groups) ∨
      (k = key ∧ ((∃ old, (k, old) ∈ groups ∧ members = old ++ [a]) ∨
        k ∉ groups.keys ∧ members = [a])) := by
  induction groups with
  | nil =>
    obtain ⟨rfl, rfl⟩ := Prod.mk.inj (List.mem_singleton.mp hmem)
    exact .inr ⟨rfl, .inr ⟨List.not_mem_nil, rfl⟩⟩
  | cons group rest ih =>
    obtain ⟨first, old⟩ := group
    obtain ⟨hnew, hrest⟩ := List.nodup_cons.mp h
    rw [insert] at hmem
    split at hmem
    · next heq =>
      subst heq
      rcases List.mem_cons.mp hmem with hhead | htail
      · obtain ⟨rfl, rfl⟩ := Prod.mk.inj hhead
        exact .inr ⟨rfl, .inl ⟨old, List.mem_cons_self, rfl⟩⟩
      · have hne : k ≠ first := by
          rintro rfl
          exact hnew (mem_keys.mpr ⟨_, htail⟩)
        exact .inl ⟨hne, List.mem_cons_of_mem _ htail⟩
    · next hne =>
      rcases List.mem_cons.mp hmem with hhead | htail
      · obtain ⟨rfl, rfl⟩ := Prod.mk.inj hhead
        exact .inl ⟨hne, List.mem_cons_self⟩
      · rcases ih hrest htail with ⟨hother, hmem⟩ | ⟨rfl, ⟨old', hmem, heq⟩ | ⟨hnone, heq⟩⟩
        · exact .inl ⟨hother, List.mem_cons_of_mem _ hmem⟩
        · exact .inr ⟨rfl, .inl ⟨old', List.mem_cons_of_mem _ hmem, heq⟩⟩
        · refine .inr ⟨rfl, .inr ⟨fun hmem => ?_, heq⟩⟩
          rcases List.mem_cons.mp hmem with hfirst | hmem
          · exact hne hfirst.symm
          · exact hnone hmem

/-- The groups of the values of some items. -/
structure Collects (groups : Groups κ α) (key : ι → κ) (value : ι → α) (items : List ι) :
    Prop where
  nodup : groups.keys.Nodup
  values : (groups.flatMap Prod.snd).Perm (items.map value)
  mem_keys : ∀ k, k ∈ groups.keys ↔ ∃ item ∈ items, key item = k
  members_eq : ∀ k members, (k, members) ∈ groups →
    members = (items.filter fun item => key item = k).map value

variable {keyOf : ι → κ} {value : ι → α} {items : List ι}

theorem collects_nil : Collects ([] : Groups κ α) keyOf value [] where
  nodup := List.nodup_nil
  values := .refl _
  mem_keys := by simp [keys]
  members_eq := by simp

theorem Collects.insert (h : Collects groups keyOf value items) (item : ι) :
    Collects (groups.insert (keyOf item) (value item)) keyOf value (items ++ [item]) where
  nodup := nodup_keys_insert h.nodup
  values := by
    rw [List.map_append]
    exact flatMap_insert.trans (h.values.append_right _)
  mem_keys k := by
    rw [mem_keys_insert, h.mem_keys]
    grind
  members_eq k members hmem := by
    rw [List.filter_append, List.map_append]
    rcases mem_insert h.nodup hmem with ⟨hne, hold⟩ | ⟨rfl, ⟨old, hold, rfl⟩ | ⟨hnone, rfl⟩⟩
    · rw [h.members_eq k members hold, List.filter_cons_of_neg (by simpa using Ne.symm hne)]
      simp
    · rw [h.members_eq _ old hold, List.filter_cons_of_pos (by simp)]
      simp
    · rw [h.mem_keys] at hnone
      have hempty : (items.filter fun other => keyOf other = keyOf item) = [] := by
        rw [List.filter_eq_nil_iff]
        intro other hother
        simpa using fun heq => hnone ⟨other, hother, heq⟩
      simp [hempty]

end Groups
