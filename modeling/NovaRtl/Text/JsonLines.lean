import NovaRtl.Text.JsonRoundTrip

/-!
# Written values in one line

`json.dumps` escapes every control character of a string, also in a key, so what it writes holds
none. A written value is one line, and texts joined by line feeds split at them again.
-/

namespace Text

variable {φ : Type} {F : Floats φ}

/-- Not a control character. -/
def Printable (c : Char) : Prop := 32 ≤ c.toNat

instance : DecidablePred Printable := fun c => inferInstanceAs (Decidable (32 ≤ c.toNat))

theorem printable_of_isNumberChar {c : Char} (h : isNumberChar c) : Printable c := by
  simp only [isNumberChar, Bool.or_eq_true, decide_eq_true_eq, Char.isDigit, Bool.and_eq_true] at h
  obtain ((((⟨h, -⟩ | rfl) | rfl) | rfl) | rfl) | rfl := h
  · exact le_trans (by decide) (UInt32.le_iff_toNat_le.mp h)
  all_goals decide

theorem printable_hexDigit (n : ℕ) : Printable (hexDigit n) := by
  have hall : ∀ i < 16, Printable (Nat.digitChar i) := by decide
  exact hall _ (Nat.mod_lt n (by decide))

/-- What is escaped is written without control characters. -/
theorem printable_escape {c d : Char} (h : d ∈ escape c) : Printable d := by
  unfold escape at h
  have hpair (a b : Char) (ha : Printable a) (hb : Printable b) (hd : d ∈ [a, b]) :
      Printable d := by
    rcases List.mem_pair.mp hd with rfl | rfl
    · exact ha
    · exact hb
  iterate 7
    split at h
    · exact hpair _ _ (by decide) (by decide) h
  split at h
  · simp only [List.mem_cons, List.not_mem_nil, or_false] at h
    obtain rfl | rfl | rfl | rfl | rfl | rfl := h
    · decide
    · decide
    · decide
    · decide
    · exact printable_hexDigit _
    · exact printable_hexDigit _
  · next hcontrol =>
    obtain rfl := List.mem_singleton.mp h
    exact Nat.le_of_not_lt hcontrol

theorem printable_writeString {s : String} {c : Char} (h : c ∈ writeString s) : Printable c := by
  rcases List.mem_append.mp h with h | h
  · rcases List.mem_cons.mp h with rfl | h
    · decide
    · obtain ⟨d, -, hd⟩ := List.mem_flatMap.mp h
      exact printable_escape hd
  · obtain rfl := List.mem_singleton.mp h
    decide

namespace Json

mutual
/-- By recursion on the value: strings are escaped, numbers have number characters, and the rest is
punctuation. -/
theorem printable_write (j : Json φ) : ∀ c ∈ write F j, Printable c := by
  cases j with
  | null =>
    have hword : ['n', 'u', 'l', 'l'].Forall Printable := by decide
    exact List.forall_iff_forall_mem.mp hword
  | bool b =>
    cases b with
    | true =>
      have hword : ['t', 'r', 'u', 'e'].Forall Printable := by decide
      exact List.forall_iff_forall_mem.mp hword
    | false =>
      have hword : ['f', 'a', 'l', 's', 'e'].Forall Printable := by decide
      exact List.forall_iff_forall_mem.mp hword
  | int n =>
    exact fun c hc => printable_of_isNumberChar (List.all_eq_true.mp (writeInt_chars n) c hc)
  | float x =>
    exact fun c hc => printable_of_isNumberChar (List.all_eq_true.mp (F.repr_chars x) c hc)
  | str s => exact fun c hc => printable_writeString hc
  | arr items =>
    intro c hc
    rcases List.mem_cons.mp hc with rfl | hc
    · decide
    · exact printable_writeItems false items c hc
  | obj fields =>
    intro c hc
    rcases List.mem_cons.mp hc with rfl | hc
    · decide
    · exact printable_writeFields false fields c hc
termination_by structural j

theorem printable_writeItems (more : Bool) (items : List (Json φ)) :
    ∀ c ∈ writeItems F more items, Printable c := by
  cases items with
  | nil =>
    intro c hc
    obtain rfl := List.mem_singleton.mp hc
    decide
  | cons item items =>
    intro c hc
    rw [writeItems, List.mem_append, List.mem_append] at hc
    rcases hc with hc | hc | hc
    · split at hc
      · obtain rfl := List.mem_singleton.mp hc
        decide
      · cases hc
    · exact printable_write item c hc
    · exact printable_writeItems true items c hc
termination_by structural items

theorem printable_writeFields (more : Bool) (fields : List (String × Json φ)) :
    ∀ c ∈ writeFields F more fields, Printable c := by
  cases fields with
  | nil =>
    intro c hc
    obtain rfl := List.mem_singleton.mp hc
    decide
  | cons field fields =>
    intro c hc
    rw [writeFields, List.mem_append, List.mem_append] at hc
    rcases hc with hc | hc | hc
    · split at hc
      · obtain rfl := List.mem_singleton.mp hc
        decide
      · cases hc
    · exact printable_writeField field c hc
    · exact printable_writeFields true fields c hc
termination_by structural fields

theorem printable_writeField (field : String × Json φ) :
    ∀ c ∈ writeField F field, Printable c := by
  obtain ⟨key, value⟩ := field
  intro c hc
  rw [writeField, List.mem_append] at hc
  rcases hc with hc | hc
  · exact printable_writeString hc
  · rcases List.mem_cons.mp hc with rfl | hc
    · decide
    · exact printable_write value c hc
termination_by structural field
end

/-- A written value has no line feed. -/
theorem newline_notMem_dumps {j : Json φ} {text : String} (h : dumps F j = some text) :
    '\n' ∉ text.toList := by
  unfold dumps at h
  split at h
  next =>
    obtain rfl := Option.some.inj h
    rw [String.toList_ofList]
    intro hmem
    exact absurd (printable_write _ _ hmem) (by decide)
  next => cases h

end Json

end Text
