import NovaRtl.Text.Json

/-!
# SHA-256

`hashlib.sha256` as FIPS 180-4 defines it, on numbers below `2 ^ 32` as words.
-/

namespace Text.Sha256

/-- The number of words, `2 ^ 32`. -/
def modulus : ℕ := 4294967296

def rotr (x n : ℕ) : ℕ := (x >>> n ||| x <<< (32 - n)) % modulus

def constants : List ℕ :=
  [0x428a2f98, 0x71374491, 0xb5c0fbcf, 0xe9b5dba5, 0x3956c25b, 0x59f111f1, 0x923f82a4, 0xab1c5ed5,
    0xd807aa98, 0x12835b01, 0x243185be, 0x550c7dc3, 0x72be5d74, 0x80deb1fe, 0x9bdc06a7, 0xc19bf174,
    0xe49b69c1, 0xefbe4786, 0x0fc19dc6, 0x240ca1cc, 0x2de92c6f, 0x4a7484aa, 0x5cb0a9dc, 0x76f988da,
    0x983e5152, 0xa831c66d, 0xb00327c8, 0xbf597fc7, 0xc6e00bf3, 0xd5a79147, 0x06ca6351, 0x14292967,
    0x27b70a85, 0x2e1b2138, 0x4d2c6dfc, 0x53380d13, 0x650a7354, 0x766a0abb, 0x81c2c92e, 0x92722c85,
    0xa2bfe8a1, 0xa81a664b, 0xc24b8b70, 0xc76c51a3, 0xd192e819, 0xd6990624, 0xf40e3585, 0x106aa070,
    0x19a4c116, 0x1e376c08, 0x2748774c, 0x34b0bcb5, 0x391c0cb3, 0x4ed8aa4a, 0x5b9cca4f, 0x682e6ff3,
    0x748f82ee, 0x78a5636f, 0x84c87814, 0x8cc70208, 0x90befffa, 0xa4506ceb, 0xbef9a3f7, 0xc67178f2]

/-- The eight working variables. -/
structure Digest where
  (a b c d e f g h : ℕ)
  deriving DecidableEq

def initial : Digest where
  a := 0x6a09e667
  b := 0xbb67ae85
  c := 0x3c6ef372
  d := 0xa54ff53a
  e := 0x510e527f
  f := 0x9b05688c
  g := 0x1f83d9ab
  h := 0x5be0cd19

/-- One round, of a constant and a word of the schedule. -/
def round (s : Digest) (step : ℕ × ℕ) : Digest :=
  let sum1 := rotr s.e 6 ^^^ rotr s.e 11 ^^^ rotr s.e 25
  let ch := (s.e &&& s.f) ^^^ ((s.e ^^^ (modulus - 1)) &&& s.g)
  let temp := s.h + sum1 + ch + step.1 + step.2
  let sum0 := rotr s.a 2 ^^^ rotr s.a 13 ^^^ rotr s.a 22
  let maj := (s.a &&& s.b) ^^^ (s.a &&& s.c) ^^^ (s.b &&& s.c)
  { a := (temp + sum0 + maj) % modulus
    b := s.a
    c := s.b
    d := s.c
    e := (s.d + temp) % modulus
    f := s.e
    g := s.f
    h := s.g }

/-- The words of a block, followed by `n` more; the last word comes first. -/
def schedule : ℕ → List ℕ → List ℕ
  | 0, words => words
  | n + 1, words =>
    let word k := words.getD (k - 1) 0
    let sigma0 := rotr (word 15) 7 ^^^ rotr (word 15) 18 ^^^ word 15 >>> 3
    let sigma1 := rotr (word 2) 17 ^^^ rotr (word 2) 19 ^^^ word 2 >>> 10
    schedule n ((word 16 + sigma0 + word 7 + sigma1) % modulus :: words)

def compress (s : Digest) (block : List ℕ) : Digest :=
  let t := (constants.zip (schedule 48 block.reverse).reverse).foldl round s
  { a := (s.a + t.a) % modulus
    b := (s.b + t.b) % modulus
    c := (s.c + t.c) % modulus
    d := (s.d + t.d) % modulus
    e := (s.e + t.e) % modulus
    f := (s.f + t.f) % modulus
    g := (s.g + t.g) % modulus
    h := (s.h + t.h) % modulus }

/-- A multiple of 64 bytes: the message, a one bit, zeros and the message's length in bits. -/
def pad (message : List ℕ) : List ℕ :=
  message ++ [128] ++ List.replicate ((119 - message.length % 64) % 64) 0 ++
    (List.range 8).map fun i => (message.length * 8) >>> (56 - 8 * i) % 256

def words : List ℕ → List ℕ
  | a :: b :: c :: d :: rest => (a * 16777216 + b * 65536 + c * 256 + d) :: words rest
  | _ => []

def blocks : ℕ → List ℕ → List (List ℕ)
  | 0, _ => []
  | n + 1, words => words.take 16 :: blocks n (words.drop 16)

def digest (message : List ℕ) : Digest :=
  let padded := words (pad message)
  (blocks (padded.length / 16) padded).foldl compress initial

def hexWord (word : ℕ) : List Char :=
  (List.range 8).map fun i => hexDigit (word >>> (28 - 4 * i))

def hexDigest (s : Digest) : List Char :=
  hexWord s.a ++ hexWord s.b ++ hexWord s.c ++ hexWord s.d ++ hexWord s.e ++ hexWord s.f ++
    hexWord s.g ++ hexWord s.h

/-- The first eight digits are those of the first word. -/
theorem take_hexDigest (s : Digest) : (hexDigest s).take 8 = hexWord s.a := by
  simp [hexDigest, hexWord]

theorem hexDigit_isHex (n : ℕ) :
    ((hexDigit n).isDigit || ('a' ≤ hexDigit n && hexDigit n ≤ 'f')) = true := by
  have hall : ∀ m < 16,
      (m.digitChar.isDigit || ('a' ≤ m.digitChar && m.digitChar ≤ 'f')) = true := by
    decide
  exact hall (n % 16) (Nat.mod_lt n (by simp))

/-- `hashlib.sha256(data).hexdigest()` -/
def hexOfBytes (data : ByteArray) : List Char :=
  hexDigest (digest (data.data.toList.map UInt8.toNat))

theorem hexOfBytes_encode_ofList (chars : List Char) :
    hexOfBytes (encode (String.ofList chars)) =
      hexDigest (digest ((chars.flatMap String.utf8EncodeChar).map UInt8.toNat)) := by
  simp [hexOfBytes, encode, List.utf8Encode]

theorem length_hexOfBytes (data : ByteArray) : (hexOfBytes data).length = 64 := by
  simp [hexOfBytes, hexDigest, hexWord]

theorem hexOfBytes_isHex {data : ByteArray} {c : Char} (h : c ∈ hexOfBytes data) :
    (c.isDigit || ('a' ≤ c && c ≤ 'f')) = true := by
  have hword : ∀ {word : ℕ}, c ∈ hexWord word → ∃ n, hexDigit n = c := by
    intro word hc
    obtain ⟨i, -, rfl⟩ := List.mem_map.mp hc
    exact ⟨_, rfl⟩
  obtain ⟨n, rfl⟩ : ∃ n, hexDigit n = c := by
    simp only [hexOfBytes, hexDigest, List.mem_append] at h
    rcases h with ((((((h | h) | h) | h) | h) | h) | h) | h <;> exact hword h
  exact hexDigit_isHex n

example : String.ofList (hexOfBytes (encode "abc")) =
    "ba7816bf8f01cfea414140de5dae2223b00361a396177a9cb410ff61f20015ad" := by
  decide +kernel

end Text.Sha256
