import NovaRtl.Text.Json

/-!
# The bytes of a JSON text

A JSON text is encoded string by string. Of a string that is given as a literal the bytes are known
at once, its characters have to be decoded; so the bytes of a text are evaluated from those of its
strings.

## Main results

* `Json.bytes_eq` — the bytes are those of the characters of the text.
-/

namespace Text

/-- The bytes of characters. -/
def bytesOf (chars : List Char) : List UInt8 := chars.flatMap String.utf8EncodeChar

theorem bytesOf_append (chars chars' : List Char) :
    bytesOf (chars ++ chars') = bytesOf chars ++ bytesOf chars' :=
  List.flatMap_append

/-- `escape` on a byte -/
def escapeByte (b : UInt8) : List UInt8 :=
  bif (b.toNat.blt 32).or ((b.toNat.beq 34).or (b.toNat.beq 92)) then
    bytesOf (escape (Char.ofNat b.toNat))
  else [b]

theorem escapeByte_of_le {b : UInt8} (h : 128 ≤ b.toNat) : escapeByte b = [b] := by
  have hblt : b.toNat.blt 32 = false := by
    rw [← Bool.not_eq_true, Nat.blt_eq]
    omega
  have hbeq : ∀ n < 128, b.toNat.beq n = false := by
    intro n hn
    rw [← Bool.not_eq_true, Nat.beq_eq]
    omega
  simp [escapeByte, hblt, hbeq 34 (by decide), hbeq 92 (by decide)]

theorem le_of_mem_utf8EncodeChar {c : Char} (hc : 128 ≤ c.toNat) {b : UInt8}
    (hb : b ∈ String.utf8EncodeChar c) : 128 ≤ b.toNat := by
  have hc' : ¬ c.val.toNat ≤ 127 := by
    change ¬ c.toNat ≤ 127
    omega
  unfold String.utf8EncodeChar at hb
  dsimp only at hb
  rw [if_neg hc'] at hb
  split at hb
  · simp only [List.mem_cons, List.not_mem_nil, or_false] at hb
    rcases hb with rfl | rfl <;> rw [UInt8.toNat_ofNat'] <;> omega
  · split at hb
    · simp only [List.mem_cons, List.not_mem_nil, or_false] at hb
      rcases hb with rfl | rfl | rfl <;> rw [UInt8.toNat_ofNat'] <;> omega
    · simp only [List.mem_cons, List.not_mem_nil, or_false] at hb
      rcases hb with rfl | rfl | rfl | rfl <;> rw [UInt8.toNat_ofNat'] <;> omega

theorem bytesOf_escape_ascii : ∀ n < 128,
    bytesOf (escape (Char.ofNat n)) = escapeByte (UInt8.ofNat n) := by
  decide +kernel

/-- A character is escaped byte by byte. -/
theorem bytesOf_escape (c : Char) :
    bytesOf (escape c) = (String.utf8EncodeChar c).flatMap escapeByte := by
  by_cases hc : c.toNat < 128
  · have hencode : String.utf8EncodeChar c = [UInt8.ofNat c.toNat] := by
      unfold String.utf8EncodeChar
      dsimp only
      rw [if_pos (show c.val.toNat ≤ 127 from Nat.le_of_lt_succ hc)]
      rfl
    have hascii := bytesOf_escape_ascii c.toNat hc
    rw [Char.ofNat_toNat] at hascii
    rw [hencode, List.flatMap_singleton, hascii]
  · have hle : 128 ≤ c.toNat := Nat.le_of_not_lt hc
    have hplain : escape c = [c] := by
      have hne : ∀ d : Char, d.toNat < 128 → c ≠ d := by
        rintro d hd rfl
        exact absurd hd (by omega)
      unfold escape
      rw [if_neg (hne _ (by decide)), if_neg (hne _ (by decide)), if_neg (hne _ (by decide)),
        if_neg (hne _ (by decide)), if_neg (hne _ (by decide)), if_neg (hne _ (by decide)),
        if_neg (hne _ (by decide)), if_neg (by omega)]
    have hbytes : ∀ bytes : List UInt8, (∀ b ∈ bytes, 128 ≤ b.toNat) →
        bytes.flatMap escapeByte = bytes := by
      intro bytes h
      induction bytes with
      | nil => rfl
      | cons b bytes ih =>
        rw [List.flatMap_cons, escapeByte_of_le (h b List.mem_cons_self),
          ih fun b' hb' => h b' (List.mem_cons_of_mem b hb')]
        rfl
    rw [hplain, hbytes _ fun b hb => le_of_mem_utf8EncodeChar hle hb]
    exact List.flatMap_singleton ..

def stringBytes (s : String) : List UInt8 :=
  34 :: s.toByteArray.data.toList.flatMap escapeByte ++ [34]

theorem stringBytes_eq (s : String) : stringBytes s = bytesOf (writeString s) := by
  have hs : s.toByteArray.data.toList = bytesOf s.toList := by
    obtain ⟨chars, rfl⟩ : ∃ chars, s = String.ofList chars := ⟨s.toList, String.ofList_toList.symm⟩
    simp [List.utf8Encode, bytesOf]
  have hescape : ∀ chars : List Char,
      (bytesOf chars).flatMap escapeByte = bytesOf (chars.flatMap escape) := by
    intro chars
    induction chars with
    | nil => rfl
    | cons c chars ih =>
      rw [List.flatMap_cons, bytesOf_append, ← ih, bytesOf_escape, bytesOf, List.flatMap_cons,
        List.flatMap_append]
      rfl
  rw [stringBytes, hs, hescape, writeString, bytesOf_append]
  rfl

namespace Json

variable {φ : Type} (F : Floats φ)

mutual
/-- `write`, on bytes -/
def bytes : Json φ → List UInt8
  | str s => stringBytes s
  | arr items => 91 :: itemsBytes false items
  | obj fields => 123 :: fieldsBytes false fields
  | null => bytesOf (write F null)
  | bool b => bytesOf (write F (bool b))
  | int n => bytesOf (write F (int n))
  | float x => bytesOf (write F (float x))
termination_by structural j => j

def itemsBytes (more : Bool) : List (Json φ) → List UInt8
  | [] => [93]
  | item :: items => (if more then [44] else []) ++ (bytes item ++ itemsBytes true items)
termination_by structural items => items

def fieldsBytes (more : Bool) : List (String × Json φ) → List UInt8
  | [] => [125]
  | field :: fields => (if more then [44] else []) ++ (fieldBytes field ++ fieldsBytes true fields)
termination_by structural fields => fields

def fieldBytes : String × Json φ → List UInt8
  | (key, value) => stringBytes key ++ 58 :: bytes value
termination_by structural field => field
end

mutual
theorem bytes_eq (j : Json φ) : bytes F j = bytesOf (write F j) := by
  cases j with
  | str s => exact stringBytes_eq s
  | arr items =>
    rw [bytes, write, itemsBytes_eq]
    rfl
  | obj fields =>
    rw [bytes, write, fieldsBytes_eq]
    rfl
  | null => rfl
  | bool b => cases b <;> rfl
  | int n => rfl
  | float x => rfl
termination_by structural j

theorem itemsBytes_eq (more : Bool) (items : List (Json φ)) :
    itemsBytes F more items = bytesOf (writeItems F more items) := by
  cases items with
  | nil => rfl
  | cons item items =>
    rw [itemsBytes, writeItems, bytesOf_append, bytesOf_append, bytes_eq item,
      itemsBytes_eq true items]
    cases more <;> rfl
termination_by structural items

theorem fieldsBytes_eq (more : Bool) (fields : List (String × Json φ)) :
    fieldsBytes F more fields = bytesOf (writeFields F more fields) := by
  cases fields with
  | nil => rfl
  | cons field fields =>
    rw [fieldsBytes, writeFields, bytesOf_append, bytesOf_append, fieldBytes_eq field,
      fieldsBytes_eq true fields]
    cases more <;> rfl
termination_by structural fields

theorem fieldBytes_eq (field : String × Json φ) :
    fieldBytes F field = bytesOf (writeField F field) := by
  obtain ⟨key, value⟩ := field
  rw [fieldBytes, writeField, stringBytes_eq, bytes_eq value, bytesOf_append]
  rfl
termination_by structural field
end

end Json

end Text
