import NovaRtl.Text.JsonRoundTrip

/-!
# Objects of JSON values

A dictionary is read by its keys, so what is read does not depend on their order. Python compares
the values, among them numbers of different types.
-/

namespace Text

namespace Json

variable {φ : Type}

/-! ## Reading by key -/

theorem lookup_orderedInsert (field : String × Json φ) (fields : List (String × Json φ))
    (key : String) :
    (fields.orderedInsert (fun a b => a.1 ≤ b.1) field).lookup key =
      (field :: fields).lookup key := by
  obtain ⟨name, value⟩ := field
  induction fields with
  | nil => rfl
  | cons first fields ih =>
    obtain ⟨first, other⟩ := first
    by_cases hle : name ≤ first
    · rw [List.orderedInsert_cons, if_pos hle]
    · have hne : name ≠ first := fun heq => hle heq.le
      rw [List.orderedInsert_cons, if_neg hle, List.lookup_cons, ih]
      simp only [List.lookup_cons]
      by_cases hkey : key = first
      · have hother : key ≠ name := fun heq => hne (heq.symm.trans hkey)
        simp [hkey, beq_eq_false_iff_ne.mpr (hkey ▸ hother)]
      · simp [beq_eq_false_iff_ne.mpr hkey]

theorem lookup_sorted (fields : List (String × Json φ)) (key : String) :
    (fields.insertionSort fun a b => a.1 ≤ b.1).lookup key = fields.lookup key := by
  induction fields with
  | nil => rfl
  | cons field fields ih =>
    obtain ⟨name, value⟩ := field
    rw [List.insertionSort_cons, lookup_orderedInsert, List.lookup_cons, List.lookup_cons, ih]

/-- The value of a key once all keys are sorted. -/
theorem lookup_sortKeys (fields : List (String × Json φ)) (key : String) :
    ((sortFields fields).insertionSort fun a b => a.1 ≤ b.1).lookup key =
      (fields.lookup key).map sortKeys := by
  rw [lookup_sorted]
  induction fields with
  | nil => rfl
  | cons field fields ih =>
    obtain ⟨name, value⟩ := field
    rw [sortFields, sortField, List.lookup_cons, List.lookup_cons, ih]
    cases key == name <;> rfl

theorem mem_sortKeys {fields : List (String × Json φ)} {field : String × Json φ} :
    field ∈ (sortFields fields).insertionSort (fun a b => a.1 ≤ b.1) ↔
      ∃ value, (field.1, value) ∈ fields ∧ sortKeys value = field.2 := by
  rw [List.mem_insertionSort, sortFields_eq_map, List.mem_map]
  constructor
  · rintro ⟨⟨key, value⟩, hmem, rfl⟩
    exact ⟨value, hmem, rfl⟩
  · rintro ⟨value, hmem, hvalue⟩
    exact ⟨(field.1, value), hmem, Prod.ext rfl hvalue⟩

/-! ## Objects without repeated keys -/

mutual
/-- No object of the value repeats a key. -/
def keysUnique : Json φ → Bool
  | arr items => itemsUnique items
  | obj fields => (fields.map Prod.fst).Nodup && fieldsUnique fields
  | _ => true
termination_by structural j => j

def itemsUnique : List (Json φ) → Bool
  | [] => true
  | item :: items => keysUnique item && itemsUnique items
termination_by structural items => items

def fieldsUnique : List (String × Json φ) → Bool
  | [] => true
  | field :: fields => fieldUnique field && fieldsUnique fields
termination_by structural fields => fields

def fieldUnique : String × Json φ → Bool
  | (_, value) => keysUnique value
termination_by structural field => field
end

theorem fieldsUnique_iff {fields : List (String × Json φ)} :
    fieldsUnique fields = true ↔ ∀ field ∈ fields, field.2.keysUnique = true := by
  induction fields with
  | nil => simp [fieldsUnique]
  | cons field fields ih =>
    obtain ⟨key, value⟩ := field
    rw [fieldsUnique, fieldUnique, Bool.and_eq_true, ih, List.forall_mem_cons]

theorem keysUnique_obj {fields : List (String × Json φ)} :
    (obj fields).keysUnique = true ↔
      (fields.map Prod.fst).Nodup ∧ ∀ field ∈ fields, field.2.keysUnique = true := by
  rw [keysUnique, Bool.and_eq_true, decide_eq_true_eq, fieldsUnique_iff]

/-- Without repeated keys the order of the keys does not matter. -/
theorem sortKeys_of_perm {fields fields' : List (String × Json φ)} (hperm : fields.Perm fields')
    (hkeys : (fields.map Prod.fst).Nodup) : sortKeys (obj fields) = sortKeys (obj fields') := by
  have hsorted (fields : List (String × Json φ)) :=
    List.pairwise_insertionSort (fun a b : String × Json φ => a.1 ≤ b.1) (sortFields fields)
  have hsame : (sortFields fields).Perm (sortFields fields') := by
    rw [sortFields_eq_map, sortFields_eq_map]
    exact hperm.map _
  have hnodup : ((sortFields fields).map Prod.fst).Nodup := by
    rw [sortFields_eq_map, List.map_map]
    exact hkeys
  rw [sortKeys, sortKeys, obj.injEq]
  refine List.Perm.eq_of_pairwise ?_ (hsorted fields) (hsorted fields')
    ((List.perm_insertionSort _ _).trans (hsame.trans (List.perm_insertionSort _ _).symm))
  intro a b ha hb hle hge
  have hmem := (List.mem_insertionSort _).mp ha
  have hmem' := hsame.mem_iff.mpr ((List.mem_insertionSort _).mp hb)
  exact List.inj_on_of_nodup_map hnodup hmem hmem' (le_antisymm hle hge)

theorem dumps_eq_of_sortKeys {F : Floats φ} {j j' : Json φ} (h : sortKeys j = sortKeys j') :
    dumps F j = dumps F j' := by
  rw [dumps, dumps, h]

end Json

/-! ## Comparison -/

/-- Floating-point numbers beside the integers. -/
structure Numbers (φ : Type) extends Floats φ where
  /-- `float(n)` -/
  ofInt : ℤ → Option φ
  /-- The integer that a number is, if it is one. -/
  toInt : φ → Option ℤ
  compareZero : φ → Ordering

namespace Json

variable {φ : Type} (N : Numbers φ)

mutual
/-- Truth values and whole floating-point numbers as integers. -/
def numeric : Json φ → Json φ
  | bool b => int b.toInt
  | float x => match N.toInt x with
    | some n => int n
    | none => float x
  | arr items => arr (numericItems items)
  | obj fields => obj (numericFields fields)
  | j => j
termination_by structural j => j

def numericItems : List (Json φ) → List (Json φ)
  | [] => []
  | item :: items => numeric item :: numericItems items
termination_by structural items => items

def numericFields : List (String × Json φ) → List (String × Json φ)
  | [] => []
  | field :: fields => numericField field :: numericFields fields
termination_by structural fields => fields

def numericField : String × Json φ → String × Json φ
  | (key, value) => (key, numeric value)
termination_by structural field => field
end

/-- Python's `a == b` -/
def equal (a b : Json φ) : Bool :=
  write N.toFloats (sortKeys (numeric N a)) == write N.toFloats (sortKeys (numeric N b))

variable {N}

theorem writeString_injective {s t : String} (h : writeString s = writeString t) : s = t := by
  obtain ⟨text, htext, hread⟩ := readString_writeString s []
  obtain ⟨text', htext', hread'⟩ := readString_writeString t []
  rw [h, htext', List.cons.injEq] at htext
  rw [htext.2, hread, Option.some.injEq, Prod.mk.injEq] at hread'
  exact String.toList_injective hread'.1

/-- A number is not written as a string or as `null`. -/
theorem write_numeric_of_chars {text : List Char} (hchars : text.all isNumberChar) {c : Char}
    (hc : isNumberChar c = false) (rest : List Char) : text ≠ c :: rest := by
  rintro rfl
  simp [hc] at hchars

theorem write_int_ne {c : Char} (hc : isNumberChar c = false) (n : ℤ) (rest : List Char) :
    write N.toFloats (int n) ≠ c :: rest := by
  rw [write]
  exact write_numeric_of_chars (writeInt_chars n) hc rest

theorem write_float_ne {c : Char} (hc : isNumberChar c = false) (x : φ) (rest : List Char) :
    write N.toFloats (sortKeys (numeric N (float x))) ≠ c :: rest := by
  rw [numeric]
  cases N.toInt x with
  | some n => exact write_int_ne hc n rest
  | none => exact write_numeric_of_chars (N.repr_chars x) hc rest

theorem equal_str {j : Json φ} {s : String} : equal N j (str s) = true ↔ j = str s := by
  rw [equal, beq_iff_eq]
  constructor
  · intro h
    cases j with
    | str t => exact congrArg str (writeString_injective h)
    | null => simp [numeric, sortKeys, write, writeString] at h
    | bool b => exact absurd h (write_int_ne (by decide) _ _)
    | int n => exact absurd h (write_int_ne (by decide) _ _)
    | float x => exact absurd h (write_float_ne (by decide) _ _)
    | arr items => simp [numeric, sortKeys, write, writeString] at h
    | obj fields => simp [numeric, sortKeys, write, writeString] at h
  · rintro rfl
    rfl

theorem equal_null {j : Json φ} : equal N j null = true ↔ j = null := by
  rw [equal, beq_iff_eq]
  constructor
  · intro h
    cases j with
    | null => rfl
    | str t => simp [numeric, sortKeys, write, writeString] at h
    | bool b => exact absurd h (write_int_ne (by decide) _ _)
    | int n => exact absurd h (write_int_ne (by decide) _ _)
    | float x => exact absurd h (write_float_ne (by decide) _ _)
    | arr items => simp [numeric, sortKeys, write] at h
    | obj fields => simp [numeric, sortKeys, write] at h
  · rintro rfl
    rfl

end Json

end Text
