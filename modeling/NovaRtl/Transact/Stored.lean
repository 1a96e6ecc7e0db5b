import Mathlib.Data.List.Forall2
import Mathlib.Data.List.Sort
import NovaRtl.Transact.Table

/-!
# Tables of encoded values

A table may keep an encoding of each value next to columns to search by. `Stored encode values rows`
says that the rows encode the values in order; a search, a filter or an update by a column then acts
on the values as it acts on the rows.
-/

namespace Table

variable {α ρ κ β : Type*} {encode : α → Option ρ} {values : List α} {rows : List ρ}

def Stored (encode : α → Option ρ) (values : List α) (rows : List ρ) : Prop :=
  List.Forall₂ (fun value row => encode value = some row) values rows

theorem stored_nil : Stored encode [] [] := List.Forall₂.nil

theorem Stored.append {value : α} {row : ρ} (h : Stored encode values rows)
    (hrow : encode value = some row) : Stored encode (values ++ [value]) (rows ++ [row]) :=
  List.rel_append h (.cons hrow .nil)

theorem Stored.map_eq {column : ρ → β} {field : α → β} (h : Stored encode values rows)
    (hcolumn : ∀ {value row}, encode value = some row → column row = field value) :
    rows.map column = values.map field := by
  induction h with
  | nil => rfl
  | cons hrow _ ih => rw [List.map_cons, List.map_cons, hcolumn hrow, ih]

theorem Stored.filter {p : α → Bool} {q : ρ → Bool} (h : Stored encode values rows)
    (hq : ∀ {value row}, encode value = some row → q row = p value) :
    Stored encode (values.filter p) (rows.filter q) := by
  induction h with
  | nil => exact .nil
  | cons hrow _ ih =>
    rw [List.filter_cons, List.filter_cons, hq hrow]
    split
    · exact .cons hrow ih
    · exact ih

theorem Stored.countP_eq {p : α → Bool} {q : ρ → Bool} (h : Stored encode values rows)
    (hq : ∀ {value row}, encode value = some row → q row = p value) :
    rows.countP q = values.countP p := by
  rw [List.countP_eq_length_filter, List.countP_eq_length_filter]
  exact (h.filter hq).length_eq.symm

/-- Rewriting the rows that a condition selects rewrites the values that it selects. -/
theorem Stored.rewrite {p : α → Bool} {q : ρ → Bool} {f : α → α} {g : ρ → ρ}
    (h : Stored encode values rows)
    (hq : ∀ {value row}, encode value = some row → q row = p value)
    (hg : ∀ {value row}, value ∈ values → encode value = some row → p value →
      encode (f value) = some (g row)) :
    Stored encode (values.map fun a => if p a then f a else a)
      (rows.map fun r => if q r then g r else r) := by
  induction h with
  | nil => exact .nil
  | cons hrow _ ih =>
    refine .cons ?_ (ih fun hmem => hg (List.mem_cons_of_mem _ hmem))
    beta_reduce
    rw [hq hrow]
    split
    next hp => exact hg List.mem_cons_self hrow hp
    next => exact hrow

variable [DecidableEq κ] {column : ρ → κ} {field : α → κ} {k : κ}

/-- A search by a column finds the encoding of the value that a search by the field finds. -/
theorem Stored.lookup (h : Stored encode values rows)
    (hcolumn : ∀ {value row}, encode value = some row → column row = field value) :
    Option.Rel (fun value row => encode value = some row) (lookup field values k)
      (lookup column rows k) := by
  unfold Table.lookup
  induction h with
  | nil => exact .none
  | cons hrow _ ih =>
    rw [List.find?_cons, List.find?_cons, hcolumn hrow]
    split
    · exact .some hrow
    · exact ih

/-- A condition that some row of a key meets, and only rows of that key, selects that row. -/
theorem map_if_eq_updateAt {p : α → Bool} {f : α → α} (hvalues : (values.map field).Nodup)
    (hp : ∀ value, p value → field value = k) (hex : ∃ value ∈ values, p value) :
    values.map (fun value => if p value then f value else value) = updateAt field k f values := by
  obtain ⟨selected, hmem, hselected⟩ := hex
  refine List.map_congr_left fun value hvalue => ?_
  by_cases hkey : field value = k
  · have hsame : value = selected :=
      eq_of_key hvalues hvalue hmem (hkey.trans (hp _ hselected).symm)
    rw [if_pos hkey, hsame, if_pos hselected]
  · rw [if_neg hkey, if_neg fun h => hkey (hp _ h)]

end Table
