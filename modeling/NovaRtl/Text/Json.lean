import Mathlib.Data.List.Sort
import Mathlib.Data.String.Basic
import NovaRtl.Text.Files

/-!
# JSON texts

The values of JSON, the compact text that `json.dumps` writes of a value with sorted keys, and a
reader of JSON texts. Floating-point numbers are a type with a textual form, which reads back as the
number it was written of.
-/

namespace Text

inductive Json (φ : Type) where
  | null
  | bool (b : Bool)
  | int (n : ℤ)
  | float (x : φ)
  | str (s : String)
  | arr (items : List (Json φ))
  | obj (fields : List (String × Json φ))

def isNumberChar (c : Char) : Bool :=
  c.isDigit || c = '-' || c = '+' || c = '.' || c = 'e' || c = 'E'

/-- The characters that no integer has. -/
def isFloatChar (c : Char) : Bool := c = '.' || c = 'e' || c = 'E'

/-- Finite floating-point numbers, with their `repr` and its reading. -/
structure Floats (φ : Type) where
  repr : φ → List Char
  ofRepr : List Char → Option φ
  ofRepr_repr : ∀ x, ofRepr (repr x) = some x
  repr_chars : ∀ x, (repr x).all isNumberChar
  repr_float : ∀ x, (repr x).any isFloatChar

/-- Integers with more digits are neither written nor read. -/
def maxDigits : ℕ := 4300

variable {φ : Type} (F : Floats φ)

/-! ## Writing -/

def hexDigit (n : ℕ) : Char := (n % 16).digitChar

def escape (c : Char) : List Char :=
  if c = '"' then ['\\', '"']
  else if c = '\\' then ['\\', '\\']
  else if c = '\n' then ['\\', 'n']
  else if c = '\r' then ['\\', 'r']
  else if c = '\t' then ['\\', 't']
  else if c = '\x0c' then ['\\', 'f']
  else if c = '\x08' then ['\\', 'b']
  else if c.toNat < 32 then ['\\', 'u', '0', '0', hexDigit (c.toNat / 16), hexDigit c.toNat]
  else [c]

def writeString (s : String) : List Char := '"' :: s.toList.flatMap escape ++ ['"']

def writeInt (n : ℤ) : List Char :=
  (if n < 0 then ['-'] else []) ++ Nat.toDigits 10 n.natAbs

namespace Json

mutual
def write : Json φ → List Char
  | null => ['n', 'u', 'l', 'l']
  | bool true => ['t', 'r', 'u', 'e']
  | bool false => ['f', 'a', 'l', 's', 'e']
  | int n => writeInt n
  | float x => F.repr x
  | str s => writeString s
  | arr items => '[' :: writeItems false items
  | obj fields => '{' :: writeFields false fields
termination_by structural j => j

/-- The items, after others if `more`, and the closing bracket. -/
def writeItems (more : Bool) : List (Json φ) → List Char
  | [] => [']']
  | item :: items => (if more then [','] else []) ++ (write item ++ writeItems true items)
termination_by structural items => items

def writeFields (more : Bool) : List (String × Json φ) → List Char
  | [] => ['}']
  | field :: fields => (if more then [','] else []) ++ (writeField field ++ writeFields true fields)
termination_by structural fields => fields

def writeField : String × Json φ → List Char
  | (key, value) => writeString key ++ ':' :: write value
termination_by structural field => field
end

mutual
def sortKeys : Json φ → Json φ
  | arr items => arr (sortItems items)
  | obj fields => obj ((sortFields fields).insertionSort fun a b => a.1 ≤ b.1)
  | j => j
termination_by structural j => j

def sortItems : List (Json φ) → List (Json φ)
  | [] => []
  | item :: items => sortKeys item :: sortItems items
termination_by structural items => items

def sortFields : List (String × Json φ) → List (String × Json φ)
  | [] => []
  | field :: fields => sortField field :: sortFields fields
termination_by structural fields => fields

def sortField : String × Json φ → String × Json φ
  | (key, value) => (key, sortKeys value)
termination_by structural field => field
end

mutual
/-- No integer of the value is too long to be written. -/
def writable : Json φ → Bool
  | int n => (Nat.toDigits 10 n.natAbs).length ≤ maxDigits
  | arr items => writableItems items
  | obj fields => writableFields fields
  | _ => true
termination_by structural j => j

def writableItems : List (Json φ) → Bool
  | [] => true
  | item :: items => writable item && writableItems items
termination_by structural items => items

def writableFields : List (String × Json φ) → Bool
  | [] => true
  | field :: fields => writableField field && writableFields fields
termination_by structural fields => fields

def writableField : String × Json φ → Bool
  | (_, value) => writable value
termination_by structural field => field
end

/-- `json.dumps` with `allow_nan=False`, `ensure_ascii=False`, compact separators and
`sort_keys=True` -/
def dumps (j : Json φ) : Option String :=
  if (sortKeys j).writable then some (String.ofList (write F (sortKeys j))) else none

end Json

/-! ## Reading -/

def isSpace (c : Char) : Bool := c = ' ' || c = '\t' || c = '\n' || c = '\r'

def skipSpace (text : List Char) : List Char := text.dropWhile isSpace

def hexValue (c : Char) : Option ℕ :=
  if c.isDigit then some (c.toNat - '0'.toNat)
  else if 'a' ≤ c ∧ c ≤ 'f' then some (c.toNat - 'a'.toNat + 10)
  else if 'A' ≤ c ∧ c ≤ 'F' then some (c.toNat - 'A'.toNat + 10)
  else none

def hexValue4 (a b c d : Char) : Option ℕ := do
  return ((((← hexValue a) * 16 + (← hexValue b)) * 16 + (← hexValue c)) * 16 + (← hexValue d))

def unescape (c : Char) : Option Char :=
  if c = '"' ∨ c = '\\' ∨ c = '/' then some c
  else if c = 'n' then some '\n'
  else if c = 'r' then some '\r'
  else if c = 't' then some '\t'
  else if c = 'f' then some '\x0c'
  else if c = 'b' then some '\x08'
  else none

/-- The character of two escaped code units. -/
def surrogates (high low : ℕ) : Option Char :=
  if 0xD800 ≤ high ∧ high < 0xDC00 ∧ 0xDC00 ≤ low ∧ low < 0xE000 then
    some (Char.ofNat (0x10000 + (high - 0xD800) * 0x400 + (low - 0xDC00)))
  else none

/-- The rest of a string after its opening quote. -/
def readString : List Char → Option (List Char × List Char)
  | [] => none
  | '"' :: rest => some ([], rest)
  | '\\' :: 'u' :: a :: b :: c :: d :: rest =>
    match hexValue4 a b c d with
    | none => none
    | some n =>
      if n < 0xD800 ∨ 0xE000 ≤ n then
        (readString rest).map fun (s, rest) => (Char.ofNat n :: s, rest)
      else
        match rest with
        | '\\' :: 'u' :: a' :: b' :: c' :: d' :: rest =>
          ((hexValue4 a' b' c' d').bind (surrogates n)).bind fun char =>
            (readString rest).map fun (s, rest) => (char :: s, rest)
        | _ => none
  | '\\' :: c :: rest => (unescape c).bind fun char =>
      (readString rest).map fun (s, rest) => (char :: s, rest)
  | c :: rest =>
    if c.toNat < 32 ∨ c = '\\' then none
    else (readString rest).map fun (s, rest) => (c :: s, rest)

def readDigits (digits : List Char) : Option ℕ :=
  if digits ≠ [] ∧ digits.all Char.isDigit ∧ (digits.head? = some '0' → digits.length = 1) ∧
      digits.length ≤ maxDigits then
    some (Nat.ofDigitChars 10 digits 0)
  else none

def readInt (token : List Char) : Option ℤ :=
  if token.head? = some '-' then (readDigits token.tail).map fun n : ℕ => -(n : ℤ)
  else (readDigits token).map fun n : ℕ => (n : ℤ)

namespace Json

def readNumber (text : List Char) : Option (Json φ × List Char) :=
  let token := text.takeWhile isNumberChar
  let value := if token.any isFloatChar then (F.ofRepr token).map float else (readInt token).map int
  value.map fun value => (value, text.dropWhile isNumberChar)

def readWord (word : List Char) (value : Json φ) (text : List Char) : Option (Json φ × List Char) :=
  if word.isPrefixOf text then some (value, text.drop word.length) else none

mutual
/-- A value at the head of a text, and what follows it. -/
def readValue : ℕ → List Char → Option (Json φ × List Char)
  | 0, _ => none
  | fuel + 1, text =>
    match skipSpace text with
    | [] => none
    | c :: rest =>
      if c = '"' then (readString rest).map fun (s, rest) => (str (String.ofList s), rest)
      else if c = '[' then (readItems fuel false rest).map fun (items, rest) => (arr items, rest)
      else if c = '{' then
        (readFields fuel false rest).map fun (fields, rest) => (obj fields, rest)
      else if c = 'n' then readWord ['u', 'l', 'l'] null rest
      else if c = 't' then readWord ['r', 'u', 'e'] (bool true) rest
      else if c = 'f' then readWord ['a', 'l', 's', 'e'] (bool false) rest
      else readNumber F (c :: rest)

/-- The rest of an array, after items if `more`. -/
def readItems : ℕ → Bool → List Char → Option (List (Json φ) × List Char)
  | 0, _, _ => none
  | fuel + 1, more, text =>
    match skipSpace text with
    | [] => none
    | c :: rest =>
      if c = ']' then some ([], rest)
      else if more ∧ c ≠ ',' then none
      else do
        let (item, rest) ← readValue fuel (if more then rest else c :: rest)
        let (items, rest) ← readItems fuel true rest
        return (item :: items, rest)

/-- The rest of an object, after fields if `more`. -/
def readFields : ℕ → Bool → List Char → Option (List (String × Json φ) × List Char)
  | 0, _, _ => none
  | fuel + 1, more, text =>
    match skipSpace text with
    | [] => none
    | c :: rest =>
      if c = '}' then some ([], rest)
      else if more ∧ c ≠ ',' then none
      else do
        let (field, rest) ← readField fuel (if more then rest else c :: rest)
        let (fields, rest) ← readFields fuel true rest
        return (field :: fields, rest)

def readField : ℕ → List Char → Option ((String × Json φ) × List Char)
  | 0, _ => none
  | fuel + 1, text =>
    match skipSpace text with
    | '"' :: rest => do
      let (key, rest) ← readString rest
      match skipSpace rest with
      | ':' :: rest => do
        let (value, rest) ← readValue fuel rest
        return ((String.ofList key, value), rest)
      | _ => none
    | _ => none
end

/-- The value of a JSON text. -/
def read (text : String) : Option (Json φ) :=
  match readValue F text.toList.length text.toList with
  | some (value, rest) => if skipSpace rest = [] then some value else none
  | none => none

end Json

end Text
