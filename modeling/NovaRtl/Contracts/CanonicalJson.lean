import NovaRtl.Contracts.Base
import NovaRtl.Text.JsonBytes
import NovaRtl.Text.JsonRoundTrip
import NovaRtl.Text.Sha256Evaluation

/-!
# Canonical JSON of contracts

`canonical_json_bytes` of `contracts/base.py` and its inverse, Pydantic's `model_validate_json`. Of
Pydantic it is assumed that a contract's JSON value validates to the contract; the texts in between
are written and read. Hashes are of the canonical bytes.
-/

namespace NovaRtl

open Text

/-- A contract type as Pydantic handles it. A dictionary has no order, so the order of the keys in
a JSON value says nothing. -/
structure Schema (φ α : Type) where
  /-- `model_dump(mode="json")` -/
  modelDump : α → Option (Json φ)
  modelValidate : Json φ → Option α
  modelValidate_modelDump : ∀ {value j}, modelDump value = some j →
    modelValidate (Json.sortKeys j) = some value

variable {φ α : Type} (F : Floats φ) (schema : Schema φ α)

/-- `canonical_json_bytes` -/
def canonicalJsonBytes (value : α) : Option ByteArray :=
  ((schema.modelDump value).bind (Json.dumps F)).map encode

def modelValidateJson (bytes : ByteArray) : Option α :=
  ((decode bytes).bind (Json.read F)).bind schema.modelValidate

variable {F schema}

theorem modelValidateJson_canonicalJsonBytes {value : α} {bytes : ByteArray}
    (h : canonicalJsonBytes F schema value = some bytes) :
    modelValidateJson F schema bytes = some value := by
  obtain ⟨text, htext, rfl⟩ := Option.map_eq_some_iff.mp h
  obtain ⟨j, hj, htext⟩ := Option.bind_eq_some_iff.mp htext
  rw [modelValidateJson, decode_encode, Option.bind_some, Json.read_dumps htext, Option.bind_some,
    schema.modelValidate_modelDump hj]

/-- The canonical bytes of a contract, if it has any, and the contract read back from bytes. -/
structure Codec (α : Type) where
  dump : α → Option ByteArray
  load : ByteArray → Option α
  load_dump : ∀ {value : α} {bytes : ByteArray}, dump value = some bytes → load bytes = some value

def Schema.codec (F : Floats φ) (schema : Schema φ α) : Codec α where
  dump := canonicalJsonBytes F schema
  load := modelValidateJson F schema
  load_dump := modelValidateJson_canonicalJsonBytes

/-! ## Hashes -/

/-- For contracts without floating-point fields. -/
def noFloats : Floats Empty where
  repr := nofun
  ofRepr _ := none
  ofRepr_repr := nofun
  repr_chars := nofun
  repr_float := nofun

/-- `"sha256:" + hashlib.sha256(data).hexdigest()` -/
def sha256Text (data : ByteArray) : String :=
  String.ofList (hashPrefix.toList ++ Sha256.hexOfBytes data)

theorem sha256Text_isHashRef (data : ByteArray) : isHashRef (sha256Text data) := by
  have hlength : hashPrefix.length = hashPrefix.toList.length := rfl
  have hhex : ∀ c ∈ Sha256.hexOfBytes data, (c.isDigit || ('a' ≤ c && c ≤ 'f')) = true :=
    fun c => Sha256.hexOfBytes_isHex
  simpa [isHashRef, sha256Text, hlength, Sha256.length_hexOfBytes] using hhex

def sha256 (data : ByteArray) : HashRef := ⟨sha256Text data, sha256Text_isHashRef data⟩

/-- `canonical_json_bytes` of a mapping -/
def canonicalBytes (F : Floats φ) (j : Json φ) : Option ByteArray := (Json.dumps F j).map encode

/-- `canonical_sha256` of a mapping -/
def canonicalSha256 (F : Floats φ) (j : Json φ) : Option HashRef := (canonicalBytes F j).map sha256

theorem isSome_canonicalSha256 {F : Floats φ} {j : Json φ} :
    (canonicalSha256 F j).isSome ↔ j.writable := by
  rw [canonicalSha256, canonicalBytes, Option.isSome_map, Option.isSome_map, Json.isSome_dumps]

/-- `canonical_sha256` of a value that can be written. -/
def canonicalHash (F : Floats φ) (j : Json φ) (h : j.writable = true) : HashRef :=
  (canonicalSha256 F j).get (isSome_canonicalSha256.mpr h)

/-! ## Sequences of texts -/

def textsJson (texts : List String) : Json φ := .arr (texts.map .str)

@[simp] theorem textsJson_writable (texts : List String) :
    (textsJson texts : Json φ).writable = true := by
  simp [textsJson]

/-- A text or `null`. -/
def textJson : Option String → Json φ
  | none => .null
  | some text => .str text

@[simp] theorem textJson_writable (text : Option String) :
    (textJson text : Json φ).writable = true := by
  cases text <;> rfl

/-! ## Identifiers that end in a hash -/

/-- `hash[-n:]` -/
def lastDigits (n : ℕ) (hash : HashRef) : List Char :=
  hash.val.toList.drop (hash.val.toList.length - n)

/-- An identifier may begin with `stem` when `n` hexadecimal digits follow. -/
def isStem (n : ℕ) (stem : String) : Bool :=
  match stem.toList with
  | [] => false
  | c :: rest =>
    c.isLower && rest.all (fun d => d.isLower || d.isDigit || d = '_') && 2 ≤ rest.length &&
      rest.length + n ≤ 95 && n ≤ 64

theorem length_hashRef (hash : HashRef) : hash.val.toList.length = hashPrefix.length + 64 := by
  obtain ⟨hash, h⟩ := hash
  simp only [isHashRef, Bool.and_eq_true, List.isPrefixOf_iff_prefix, decide_eq_true_eq] at h
  obtain ⟨⟨⟨digits, hdigits⟩, hlength⟩, -⟩ := h
  have hprefix : hashPrefix.toList.length = hashPrefix.length := rfl
  rw [← hdigits, List.drop_left' hprefix] at hlength
  rw [← hdigits, List.length_append, hlength, hprefix]

theorem isHex_lastDigits {n : ℕ} {hash : HashRef} (hn : n ≤ 64) {c : Char}
    (h : c ∈ lastDigits n hash) : c.isDigit ∨ ('a' ≤ c ∧ c ≤ 'f') := by
  have hlength := length_hashRef hash
  have hsplit : lastDigits n hash =
      (hash.val.toList.drop hashPrefix.length).drop (64 - n) := by
    rw [lastDigits, List.drop_drop, hlength]
    congr 1
    omega
  have hvalid := hash.2
  simp only [isHashRef, Bool.and_eq_true] at hvalid
  have hmem := List.mem_of_mem_drop (hsplit ▸ h)
  simpa using List.all_eq_true.mp hvalid.2 c hmem

/-- `f"{stem}{hash[-n:]}"` -/
def hashedId (stem : String) (n : ℕ) (hash : HashRef)
    (hstem : isStem n stem := by decide +kernel) : Identifier :=
  ⟨String.ofList (stem.toList ++ lastDigits n hash), by
    unfold isStem at hstem
    split at hstem
    · cases hstem
    · next c rest hrest =>
      simp only [Bool.and_eq_true, decide_eq_true_eq] at hstem
      obtain ⟨⟨⟨⟨hc, hall⟩, hmin⟩, hmax⟩, hn⟩ := hstem
      have hlength : (lastDigits n hash).length = n := by
        simp only [lastDigits, List.length_drop, length_hashRef]
        omega
      have hdigits : ∀ d ∈ lastDigits n hash, (d.isLower || d.isDigit || d = '_') = true := by
        intro d hd
        rcases isHex_lastDigits hn hd with hdigit | ⟨ha, hf⟩
        · simp [hdigit]
        · have hlower : d.isLower = true := by
            delta Char.isLower
            simp only [Char.le_def] at ha hf
            grind
          simp [hlower]
      simp only [isEntityId, String.toList_ofList, hrest, List.cons_append, Bool.and_eq_true,
        List.all_append, List.length_append, hlength, decide_eq_true_eq]
      exact ⟨⟨⟨hc, hall, List.all_eq_true.mpr hdigits⟩, by omega⟩, by omega⟩⟩

/-- Identifiers whose stems differ early on are different. -/
theorem hashedId_ne {stem stem' : String} {n n' : ℕ} {hash hash' : HashRef} {hstem : isStem n stem}
    {hstem' : isStem n' stem'} (k : ℕ) (hk : k ≤ stem.toList.length)
    (hk' : k ≤ stem'.toList.length) (hne : stem.toList.take k ≠ stem'.toList.take k) :
    (hashedId stem n hash hstem).val ≠ (hashedId stem' n' hash' hstem').val := by
  intro h
  have hchars := congrArg (fun id : String => id.toList.take k) h
  simp only [hashedId, String.toList_ofList] at hchars
  rw [List.take_append_of_le_length hk, List.take_append_of_le_length hk'] at hchars
  exact hne hchars

theorem canonicalSha256_eq_some {F : Floats φ} {j : Json φ} {hash : HashRef} :
    canonicalSha256 F j = some hash ↔ ∃ text, Json.dumps F j = some text ∧
      sha256 (encode text) = hash := by
  simp [canonicalSha256, canonicalBytes, Option.map_eq_some_iff]

/-! ## Digests -/

section Digests

variable {φ : Type} {F : Floats φ} {json : Json φ}

theorem canonicalSha256_canonicalHash (h : json.writable = true) :
    canonicalSha256 F json = some (canonicalHash F json h) :=
  (Option.some_get _).symm

theorem exists_dumps (h : json.writable = true) : ∃ text, Json.dumps F json = some text ∧
    sha256 (encode text) = canonicalHash F json h :=
  canonicalSha256_eq_some.mp (canonicalSha256_canonicalHash h)

/-- The canonical bytes. -/
def jsonBytes (F : Floats φ) (json : Json φ) : List UInt8 := (Json.sortKeys json).bytes F

def jsonDigest (F : Floats φ) (json : Json φ) : Sha256.Digest :=
  Sha256.digest ((jsonBytes F json).map UInt8.toNat)

theorem jsonDigest_eq_quickDigest (json : Json φ) :
    jsonDigest F json = Sha256.quickDigest ((jsonBytes F json).map UInt8.toNat) :=
  (Sha256.quickDigest_eq _).symm

theorem dumps_eq_some {text : String} (h : Json.dumps F json = some text) :
    text = String.ofList (Json.write F (Json.sortKeys json)) := by
  unfold Json.dumps at h
  split at h
  · exact (Option.some.inj h).symm
  · cases h

theorem size_of_canonicalBytes {content : ByteArray} (h : canonicalBytes F json = some content) :
    content.size = (jsonBytes F json).length := by
  obtain ⟨text, htext, rfl⟩ := Option.map_eq_some_iff.mp h
  rw [dumps_eq_some htext]
  simp [encode, List.utf8Encode, jsonBytes, Json.bytes_eq, bytesOf]

theorem canonicalSha256_digits {hash : HashRef} (h : canonicalSha256 F json = some hash) :
    hash.val.toList = hashPrefix.toList ++ Sha256.hexDigest (jsonDigest F json) := by
  obtain ⟨text, htext, rfl⟩ := canonicalSha256_eq_some.mp h
  rw [dumps_eq_some htext]
  simp only [sha256, sha256Text, String.toList_ofList, Sha256.hexOfBytes_encode_ofList, jsonDigest,
    jsonBytes, Json.bytes_eq, bytesOf]

theorem canonicalSha256_eq_some_of_digits (hjson : json.writable) {hash : HashRef}
    (h : hash.val.toList = hashPrefix.toList ++ Sha256.hexDigest (jsonDigest F json)) :
    canonicalSha256 F json = some hash := by
  have hsome := canonicalSha256_canonicalHash (F := F) hjson
  have hchars := (canonicalSha256_digits hsome).trans h.symm
  rw [hsome, Subtype.ext (String.toList_injective hchars)]

/-- The first eight digits of a hash. -/
def firstDigits (hash : String) : List Char := (hash.toList.drop hashPrefix.toList.length).take 8

theorem firstDigits_canonicalHash (h : json.writable) :
    firstDigits (canonicalHash F json h).val = Sha256.hexWord (jsonDigest F json).a := by
  rw [firstDigits, canonicalSha256_digits (canonicalSha256_canonicalHash h), List.drop_left,
    Sha256.take_hexDigest]

/-- Hashes differ if their first digits do. -/
theorem nodup_of_firstDigits {hashes : List String} (h : (hashes.map firstDigits).Nodup) :
    hashes.Nodup :=
  List.Nodup.of_map _ h

end Digests

end NovaRtl
