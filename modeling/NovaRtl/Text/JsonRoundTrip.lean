import NovaRtl.Text.Json

/-!
# Reading what was written

The reader gives back the value that a text was written of, whatever follows the text.
-/

namespace Text

variable {φ : Type} {F : Floats φ}

/-! ## Strings -/

theorem hexValue_hexDigit (n : ℕ) : hexValue (hexDigit n) = some (n % 16) := by
  have hall : ∀ k < 16, hexValue (Nat.digitChar k) = some k := by decide
  exact hall _ (Nat.mod_lt _ (by omega))

theorem readString_of_plain {c : Char} {rest : List Char} (hquote : c ≠ '"') (hslash : c ≠ '\\')
    (hspace : ¬ c.toNat < 32) :
    readString (c :: rest) = (readString rest).map fun (s, rest) => (c :: s, rest) := by
  rw [readString.eq_def]
  split <;> simp_all

theorem readString_escape (c : Char) (rest : List Char) :
    readString (escape c ++ rest) = (readString rest).map fun (s, rest) => (c :: s, rest) := by
  unfold escape
  split_ifs with h1 h2 h3 h4 h5 h6 h7 h8
  all_goals try (subst c; simp [readString, unescape])
  · have hcode : hexValue4 '0' '0' (hexDigit (c.toNat / 16)) (hexDigit c.toNat) =
        some c.toNat := by
      have hzero : hexValue '0' = some 0 := by decide
      simp only [hexValue4, hzero, hexValue_hexDigit, Option.bind_eq_bind, Option.bind_some,
        Option.pure_def, Option.some.injEq]
      omega
    have hlow : c.toNat < 0xD800 ∨ 0xE000 ≤ c.toNat := by omega
    simp only [List.cons_append, List.nil_append]
    rw [readString]
    simp [hcode, hlow]
  · exact readString_of_plain h1 h2 h8

theorem readString_write (s : List Char) (rest : List Char) :
    readString (s.flatMap escape ++ '"' :: rest) = some (s, rest) := by
  induction s with
  | nil => rw [List.flatMap_nil, List.nil_append, readString]
  | cons c s ih => rw [List.flatMap_cons, List.append_assoc, readString_escape, ih, Option.map_some]

/-! ## Numbers -/

theorem head?_toDigits (n : ℕ) : (Nat.toDigits 10 n).head? = some '0' ↔ n = 0 := by
  induction n using Nat.strong_induction_on with
  | _ n ih =>
    by_cases hn : n < 10
    · rw [Nat.toDigits_of_lt_base hn, List.head?_cons, Option.some.injEq]
      have hall : ∀ k < 10, Nat.digitChar k = '0' ↔ k = 0 := by decide
      exact hall n hn
    · rw [Nat.toDigits_of_base_le (by omega) (by omega), List.head?_append_of_ne_nil _
        Nat.toDigits_ne_nil, ih (n / 10) (by omega)]
      omega

theorem readDigits_toDigits {n : ℕ} (hlength : (Nat.toDigits 10 n).length ≤ maxDigits) :
    readDigits (Nat.toDigits 10 n) = some n := by
  unfold readDigits
  rw [if_pos, Nat.ofDigitChars_ten_toDigits]
  refine ⟨Nat.toDigits_ne_nil, List.all_eq_true.mpr fun c hc => ?_, fun hhead => ?_, hlength⟩
  · exact Nat.isDigit_of_mem_toDigits (by omega) (by omega) hc
  · rw [(head?_toDigits n).mp hhead]
    rfl

theorem readInt_writeInt {n : ℤ} (hlength : (Nat.toDigits 10 n.natAbs).length ≤ maxDigits) :
    readInt (writeInt n) = some n := by
  have hread := readDigits_toDigits hlength
  unfold writeInt
  by_cases hneg : n < 0
  · have habs : -(n.natAbs : ℤ) = n := by omega
    rw [if_pos hneg, List.singleton_append, readInt, List.head?_cons, if_pos rfl, List.tail_cons,
      hread, Option.map_some, habs]
  · have hhead : (Nat.toDigits 10 n.natAbs).head? ≠ some '-' := by
      intro hhead
      have hdigit := Nat.isDigit_of_mem_toDigits (by omega) (by omega) (List.mem_of_head? hhead)
      exact absurd hdigit (by decide)
    have habs : (n.natAbs : ℤ) = n := by omega
    rw [if_neg hneg, List.nil_append, readInt, if_neg hhead, hread, Option.map_some, habs]

/-- What follows does not continue a number. -/
def Ends (rest : List Char) : Prop := ∀ c ∈ rest.head?, isNumberChar c = false

theorem takeWhile_append {token rest : List Char} (htoken : token.all isNumberChar)
    (hrest : Ends rest) :
    (token ++ rest).takeWhile isNumberChar = token ∧
      (token ++ rest).dropWhile isNumberChar = rest := by
  have htoken' : ∀ c ∈ token, isNumberChar c := List.all_eq_true.mp htoken
  have hnil : rest.takeWhile isNumberChar = [] ∧ rest.dropWhile isNumberChar = rest := by
    cases rest with
    | nil => exact ⟨rfl, rfl⟩
    | cons c rest => simp [hrest c rfl]
  rw [List.takeWhile_append_of_pos htoken', List.dropWhile_append_of_pos htoken', hnil.1, hnil.2,
    List.append_nil]
  exact ⟨rfl, rfl⟩

theorem writeInt_chars (n : ℤ) : (writeInt n).all isNumberChar := by
  refine List.all_eq_true.mpr fun c hc => ?_
  unfold writeInt at hc
  rcases List.mem_append.mp hc with hc | hc
  · split at hc
    · obtain rfl := List.mem_singleton.mp hc
      rfl
    · cases hc
  · simp [isNumberChar, Nat.isDigit_of_mem_toDigits (by omega) (by omega) hc]

theorem writeInt_float (n : ℤ) : (writeInt n).any isFloatChar = false := by
  refine List.any_eq_false.mpr fun c hc => ?_
  unfold writeInt at hc
  rcases List.mem_append.mp hc with hc | hc
  · split at hc
    · obtain rfl := List.mem_singleton.mp hc
      decide
    · cases hc
  · have hdigit := Nat.isDigit_of_mem_toDigits (by omega) (by omega) hc
    intro hfloat
    simp only [isFloatChar, Bool.or_eq_true, decide_eq_true_eq] at hfloat
    rcases hfloat with (rfl | rfl) | rfl <;> exact absurd hdigit (by decide)

namespace Json

theorem readNumber_writeInt {n : ℤ} (hlength : (Nat.toDigits 10 n.natAbs).length ≤ maxDigits)
    {rest : List Char} (hrest : Ends rest) :
    readNumber F (writeInt n ++ rest) = some (int n, rest) := by
  obtain ⟨htake, hdrop⟩ := takeWhile_append (writeInt_chars n) hrest
  simp [readNumber, htake, hdrop, writeInt_float, readInt_writeInt hlength]

theorem readNumber_repr (x : φ) {rest : List Char} (hrest : Ends rest) :
    readNumber F (F.repr x ++ rest) = some (float x, rest) := by
  obtain ⟨htake, hdrop⟩ := takeWhile_append (F.repr_chars x) hrest
  simp [readNumber, htake, hdrop, F.repr_float, F.ofRepr_repr]

/-! ## Values -/

/-- The first character of a value: no space and none that goes on with or ends a sequence. -/
def Begins (c : Char) : Prop :=
  isNumberChar c ∨ c = 'n' ∨ c = 't' ∨ c = 'f' ∨ c = '"' ∨ c = '[' ∨ c = '\x7b'

theorem Begins.ne {c : Char} (h : Begins c) :
    isSpace c = false ∧ c ≠ ']' ∧ c ≠ '\x7d' ∧ c ≠ ',' := by
  refine ⟨Bool.eq_false_iff.mpr fun hspace => ?_, ?_, ?_, ?_⟩
  · simp only [isSpace, Bool.or_eq_true, decide_eq_true_eq] at hspace
    rcases hspace with ((rfl | rfl) | rfl) | rfl <;> exact absurd h (by unfold Begins; decide)
  all_goals
    rintro rfl
    exact absurd h (by unfold Begins; decide)

theorem writeInt_ne_nil (n : ℤ) : writeInt n ≠ [] := fun hnil =>
  Nat.toDigits_ne_nil (List.append_eq_nil_iff.mp hnil).2

theorem repr_ne_nil (x : φ) : F.repr x ≠ [] := by
  intro hnil
  have hfloat := F.repr_float x
  rw [hnil] at hfloat
  cases hfloat

theorem begins_of_chars {text : List Char} (hne : text ≠ []) (hchars : text.all isNumberChar) :
    ∃ c rest, text = c :: rest ∧ Begins c := by
  obtain ⟨c, rest, rfl⟩ := List.exists_cons_of_ne_nil hne
  exact ⟨c, rest, rfl, .inl (List.all_eq_true.mp hchars c List.mem_cons_self)⟩

theorem write_begins (j : Json φ) : ∃ c text, write F j = c :: text ∧ Begins c := by
  cases j with
  | null => exact ⟨_, _, rfl, by simp [Begins]⟩
  | bool b => cases b <;> exact ⟨_, _, rfl, by simp [Begins]⟩
  | int n => exact begins_of_chars (writeInt_ne_nil n) (writeInt_chars n)
  | float x => exact begins_of_chars (repr_ne_nil x) (F.repr_chars x)
  | str | arr | obj => exact ⟨_, _, rfl, by simp [Begins]⟩

theorem skipSpace_of_begins {c : Char} (h : Begins c) (text : List Char) :
    skipSpace (c :: text) = c :: text := by
  rw [skipSpace, List.dropWhile_cons_of_neg]
  simp [h.ne.1]

theorem ends_writeItems (items : List (Json φ)) (rest : List Char) :
    Ends (writeItems F true items ++ rest) := by
  cases items <;> · rintro c ⟨rfl⟩; decide

theorem ends_writeFields (fields : List (String × Json φ)) (rest : List Char) :
    Ends (writeFields F true fields ++ rest) := by
  cases fields <;> · rintro c ⟨rfl⟩; decide

theorem length_write_pos (j : Json φ) : 0 < (write F j).length := by
  obtain ⟨c, text, htext, -⟩ := write_begins (F := F) j
  simp [htext]

theorem length_writeItems_pos (more : Bool) (items : List (Json φ)) :
    0 < (writeItems F more items).length := by
  cases items with
  | nil => simp [writeItems]
  | cons item items =>
    have := length_write_pos (F := F) item
    simp only [writeItems, List.length_append]
    omega

theorem writeField_begins (field : String × Json φ) :
    ∃ text, writeField F field = '"' :: text := by
  obtain ⟨key, value⟩ := field
  exact ⟨_, rfl⟩

theorem length_writeField_pos (field : String × Json φ) : 0 < (writeField F field).length := by
  obtain ⟨text, htext⟩ := writeField_begins (F := F) field
  simp [htext]

theorem length_writeFields_pos (more : Bool) (fields : List (String × Json φ)) :
    0 < (writeFields F more fields).length := by
  cases fields with
  | nil => simp [writeFields]
  | cons field fields =>
    have := length_writeField_pos (F := F) field
    simp only [writeFields, List.length_append]
    omega

/-- A text that begins like a number is read as one. -/
theorem readValue_number {token rest : List Char} {fuel : ℕ} {value : Json φ}
    (hchars : token.all isNumberChar) (hne : token ≠ [])
    (hread : readNumber F (token ++ rest) = some (value, rest)) :
    readValue F (fuel + 1) (token ++ rest) = some (value, rest) := by
  obtain ⟨c, text, rfl⟩ := List.exists_cons_of_ne_nil hne
  have hc : isNumberChar c := List.all_eq_true.mp hchars c List.mem_cons_self
  have hne : c ≠ '"' ∧ c ≠ '[' ∧ c ≠ '\x7b' ∧ c ≠ 'n' ∧ c ≠ 't' ∧ c ≠ 'f' := by
    refine ⟨?_, ?_, ?_, ?_, ?_, ?_⟩ <;>
    · rintro rfl
      exact absurd hc (by decide)
  rw [List.cons_append] at hread ⊢
  rw [readValue, skipSpace_of_begins (.inl hc)]
  simp [hne, hread]

theorem readString_writeString (s : String) (rest : List Char) :
    ∃ text, writeString s ++ rest = '"' :: text ∧ readString text = some (s.toList, rest) :=
  ⟨s.toList.flatMap escape ++ '"' :: rest, by simp [writeString], readString_write ..⟩

mutual
theorem readValue_write (j : Json φ) (hj : j.writable) {fuel : ℕ} {rest : List Char}
    (hfuel : (write F j).length ≤ fuel) (hrest : Ends rest) :
    readValue F fuel (write F j ++ rest) = some (j, rest) := by
  obtain ⟨fuel, rfl⟩ : ∃ k, fuel = k + 1 := by
    have := length_write_pos (F := F) j
    exact ⟨fuel - 1, by omega⟩
  cases j with
  | null => simp [write, readValue, skipSpace, isSpace, readWord]
  | bool b => cases b <;> simp [write, readValue, skipSpace, isSpace, readWord]
  | int n =>
    have hlength : (Nat.toDigits 10 n.natAbs).length ≤ maxDigits := by simpa [writable] using hj
    exact readValue_number (writeInt_chars n) (writeInt_ne_nil n)
      (readNumber_writeInt hlength hrest)
  | float x =>
    exact readValue_number (F.repr_chars x) (repr_ne_nil x) (readNumber_repr x hrest)
  | str s =>
    obtain ⟨text, htext, hread⟩ := readString_writeString s rest
    rw [write, htext, readValue, skipSpace, List.dropWhile_cons_of_neg (by decide)]
    simp [hread]
  | arr items =>
    rw [writable] at hj
    simp only [write, List.length_cons] at hfuel
    have hread : readItems F fuel false (writeItems F false items ++ rest) = some (items, rest) :=
      readItems_write false items hj (by omega)
    simp [write, readValue, skipSpace, isSpace, hread]
  | obj fields =>
    rw [writable] at hj
    simp only [write, List.length_cons] at hfuel
    have hread : readFields F fuel false (writeFields F false fields ++ rest) =
        some (fields, rest) := readFields_write false fields hj (by omega)
    simp [write, readValue, skipSpace, isSpace, hread]
termination_by structural j

theorem readItems_write (more : Bool) (items : List (Json φ)) (hitems : writableItems items)
    {fuel : ℕ} {rest : List Char} (hfuel : (writeItems F more items).length ≤ fuel) :
    readItems F fuel more (writeItems F more items ++ rest) = some (items, rest) := by
  obtain ⟨fuel, rfl⟩ : ∃ k, fuel = k + 1 := by
    have := length_writeItems_pos (F := F) more items
    exact ⟨fuel - 1, by omega⟩
  cases items with
  | nil => simp [writeItems, readItems, skipSpace, isSpace]
  | cons item items =>
    rw [writableItems, Bool.and_eq_true] at hitems
    have hlength : (write F item).length + (writeItems F true items).length ≤ fuel + 1 := by
      refine le_trans ?_ hfuel
      simp [writeItems]
    have hitem := length_write_pos (F := F) item
    have hitems_pos := length_writeItems_pos (F := F) true items
    have hread : readValue F fuel (write F item ++ (writeItems F true items ++ rest)) =
        some (item, writeItems F true items ++ rest) :=
      readValue_write item hitems.1 (by omega) (ends_writeItems items rest)
    have hmore : readItems F fuel true (writeItems F true items ++ rest) = some (items, rest) :=
      readItems_write true items hitems.2 (by omega)
    cases more with
    | true => simp [writeItems, readItems, skipSpace, isSpace, hread, hmore]
    | false =>
      obtain ⟨c, text, htext, hbegins⟩ := write_begins (F := F) item
      rw [htext, List.cons_append] at hread
      rw [writeItems, htext, readItems]
      simp [skipSpace_of_begins hbegins, hbegins.ne, hread, hmore]
termination_by structural items

theorem readFields_write (more : Bool) (fields : List (String × Json φ))
    (hfields : writableFields fields) {fuel : ℕ} {rest : List Char}
    (hfuel : (writeFields F more fields).length ≤ fuel) :
    readFields F fuel more (writeFields F more fields ++ rest) = some (fields, rest) := by
  obtain ⟨fuel, rfl⟩ : ∃ k, fuel = k + 1 := by
    have := length_writeFields_pos (F := F) more fields
    exact ⟨fuel - 1, by omega⟩
  cases fields with
  | nil => simp [writeFields, readFields, skipSpace, isSpace]
  | cons field fields =>
    rw [writableFields, Bool.and_eq_true] at hfields
    have hlength : (writeField F field).length + (writeFields F true fields).length ≤
        fuel + 1 := by
      refine le_trans ?_ hfuel
      simp [writeFields]
    have hfield := length_writeField_pos (F := F) field
    have hfields_pos := length_writeFields_pos (F := F) true fields
    have hread : readField F fuel (writeField F field ++ (writeFields F true fields ++ rest)) =
        some (field, writeFields F true fields ++ rest) :=
      readField_write field hfields.1 (by omega) (ends_writeFields fields rest)
    have hmore : readFields F fuel true (writeFields F true fields ++ rest) =
        some (fields, rest) := readFields_write true fields hfields.2 (by omega)
    cases more with
    | true => simp [writeFields, readFields, skipSpace, isSpace, hread, hmore]
    | false =>
      obtain ⟨text, htext⟩ := writeField_begins (F := F) field
      rw [htext, List.cons_append] at hread
      rw [writeFields, htext, readFields]
      simp [skipSpace, isSpace, hread, hmore]
termination_by structural fields

theorem readField_write (field : String × Json φ) (hfield : writableField field) {fuel : ℕ}
    {rest : List Char} (hfuel : (writeField F field).length ≤ fuel) (hrest : Ends rest) :
    readField F fuel (writeField F field ++ rest) = some (field, rest) := by
  obtain ⟨fuel, rfl⟩ : ∃ k, fuel = k + 1 := by
    have := length_writeField_pos (F := F) field
    exact ⟨fuel - 1, by omega⟩
  obtain ⟨key, value⟩ := field
  rw [writableField] at hfield
  have hlength : (write F value).length ≤ fuel := by
    simp only [writeField, writeString, List.cons_append, List.length_cons,
      List.length_append] at hfuel
    omega
  have hread : readValue F fuel (write F value ++ rest) = some (value, rest) :=
    readValue_write value hfield hlength hrest
  obtain ⟨text, htext, hkey⟩ := readString_writeString key (':' :: (write F value ++ rest))
  rw [writeField, List.append_assoc, List.cons_append, htext, readField]
  simp [skipSpace, isSpace, hkey, hread]
termination_by structural field
end

/-- A text that `json.dumps` wrote is read as the value with its keys sorted. -/
theorem read_dumps {j : Json φ} {text : String} (h : dumps F j = some text) :
    read F text = some (sortKeys j) := by
  unfold dumps at h
  split at h
  next hwritable =>
    obtain rfl := Option.some.inj h
    have hread := readValue_write (F := F) (sortKeys j) hwritable le_rfl
      (show Ends [] by simp [Ends])
    rw [List.append_nil] at hread
    simp [read, hread, skipSpace]
  next => cases h

/-! ## Values that can be written -/

theorem writableItems_eq_all (items : List (Json φ)) :
    writableItems items = items.all writable := by
  induction items with
  | nil => rfl
  | cons item items ih => rw [writableItems, ih, List.all_cons]

theorem writableFields_eq_all (fields : List (String × Json φ)) :
    writableFields fields = fields.all fun field => field.2.writable := by
  induction fields with
  | nil => rfl
  | cons field fields ih => rw [writableFields, ih, List.all_cons, writableField]

@[simp] theorem writable_null : (null : Json φ).writable = true := rfl

@[simp] theorem writable_bool (b : Bool) : (bool b : Json φ).writable = true := rfl

@[simp] theorem writable_float (x : φ) : (float x).writable = true := rfl

@[simp] theorem writable_str (s : String) : (str s : Json φ).writable = true := rfl

@[simp] theorem writable_arr (items : List (Json φ)) :
    (arr items).writable = items.all writable :=
  writableItems_eq_all items

@[simp] theorem writable_obj (fields : List (String × Json φ)) :
    (obj fields).writable = fields.all fun field => field.2.writable :=
  writableFields_eq_all fields

/-- Integers of the contracts' own are short. -/
theorem writable_int_of_lt {n : ℤ} (h : n.natAbs < 10) : (int n : Json φ).writable = true := by
  rw [writable, Nat.toDigits_of_lt_base h]
  rfl

mutual
theorem writable_sortKeys (j : Json φ) : (sortKeys j).writable = j.writable := by
  cases j with
  | arr items =>
    rw [sortKeys, writable, writable]
    exact writableItems_sortItems items
  | obj fields =>
    rw [sortKeys, writable, writable, writableFields_eq_all,
      (List.perm_insertionSort _ _).all_eq, ← writableFields_eq_all]
    exact writableFields_sortFields fields
  | _ => rw [sortKeys] <;> nofun
termination_by structural j

theorem writableItems_sortItems (items : List (Json φ)) :
    writableItems (sortItems items) = writableItems items := by
  cases items with
  | nil => rfl
  | cons item items =>
    rw [sortItems, writableItems, writableItems, writable_sortKeys item,
      writableItems_sortItems items]
termination_by structural items

theorem writableFields_sortFields (fields : List (String × Json φ)) :
    writableFields (sortFields fields) = writableFields fields := by
  cases fields with
  | nil => rfl
  | cons field fields =>
    rw [sortFields, writableFields, writableFields, writableField_sortField field,
      writableFields_sortFields fields]
termination_by structural fields

theorem writableField_sortField (field : String × Json φ) :
    writableField (sortField field) = writableField field := by
  obtain ⟨key, value⟩ := field
  rw [sortField, writableField, writableField, writable_sortKeys value]
termination_by structural field
end

theorem isSome_dumps {j : Json φ} : (dumps F j).isSome ↔ j.writable := by
  unfold dumps
  rw [writable_sortKeys]
  split <;> simp_all

/-! ## Values of one text -/

theorem sortKeys_eq_of_dumps {j j' : Json φ} {text : String} (h : dumps F j = some text)
    (h' : dumps F j' = some text) : sortKeys j = sortKeys j' :=
  Option.some.inj ((read_dumps h).symm.trans (read_dumps h'))

theorem sortItems_eq_map (items : List (Json φ)) : sortItems items = items.map sortKeys := by
  induction items with
  | nil => rfl
  | cons item items ih => rw [sortItems, ih, List.map_cons]

theorem sortFields_eq_map (fields : List (String × Json φ)) :
    sortFields fields = fields.map fun field => (field.1, sortKeys field.2) := by
  induction fields with
  | nil => rfl
  | cons field fields ih => rw [sortFields, ih, List.map_cons, sortField]

/-- Objects that are the same up to the order of their keys have the same values. -/
theorem sortKeys_obj_value {fields fields' : List (String × Json φ)}
    (h : sortKeys (obj fields) = sortKeys (obj fields')) (hkeys : (fields'.map Prod.fst).Nodup)
    {key : String} {value value' : Json φ} (hvalue : (key, value) ∈ fields)
    (hvalue' : (key, value') ∈ fields') : sortKeys value = sortKeys value' := by
  simp only [sortKeys, obj.injEq] at h
  have hperm : (sortFields fields).Perm (sortFields fields') := by
    have hsorted := List.perm_insertionSort (fun a b => a.1 ≤ b.1) (sortFields fields)
    rw [h] at hsorted
    exact hsorted.symm.trans (List.perm_insertionSort _ _)
  have hnodup : ((sortFields fields').map Prod.fst).Nodup := by
    rw [sortFields_eq_map, List.map_map]
    exact hkeys
  have hmem : (key, sortKeys value) ∈ sortFields fields' := by
    refine hperm.mem_iff.mp ?_
    rw [sortFields_eq_map]
    exact List.mem_map.mpr ⟨_, hvalue, rfl⟩
  have hmem' : (key, sortKeys value') ∈ sortFields fields' := by
    rw [sortFields_eq_map]
    exact List.mem_map.mpr ⟨_, hvalue', rfl⟩
  exact congrArg Prod.snd (List.inj_on_of_nodup_map hnodup hmem hmem' rfl)

end Json

end Text
