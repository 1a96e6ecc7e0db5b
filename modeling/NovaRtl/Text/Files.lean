import Mathlib.Data.List.Basic

/-!
# Text files

`Path.read_text(encoding="utf-8")` decodes the bytes and turns every `\r\n` and `\r` into `\n`;
`Path.write_text` encodes the text as it is. A directory gives the entry at each relative path.
-/

namespace Text

def universalNewlines : List Char → List Char
  | [] => []
  | '\r' :: '\n' :: rest => '\n' :: universalNewlines rest
  | c :: rest => (if c = '\r' then '\n' else c) :: universalNewlines rest

def decode (bytes : ByteArray) : Option String := String.fromUTF8? bytes

def encode (text : String) : ByteArray := text.toByteArray

def readText (bytes : ByteArray) : Option String :=
  (decode bytes).map fun text => String.ofList (universalNewlines text.toList)

theorem decode_eq_some {bytes : ByteArray} {text : String} :
    decode bytes = some text ↔ bytes = encode text := by
  unfold decode encode String.fromUTF8?
  constructor
  · intro h
    split at h
    · obtain rfl := Option.some.inj h
      rfl
    · cases h
  · rintro rfl
    rw [dif_pos text.isValidUTF8]
    rfl

theorem decode_encode (text : String) : decode (encode text) = some text :=
  decode_eq_some.mpr rfl

theorem encode_injective {text text' : String} (h : encode text = encode text') :
    text = text' := by
  have hdecode := congrArg decode h
  rw [decode_encode, decode_encode] at hdecode
  exact Option.some.inj hdecode

theorem readText_encode (text : String) :
    readText (encode text) = some (String.ofList (universalNewlines text.toList)) := by
  simp [readText, decode_encode]

/-- Bytes are compared as core compares them, whatever is imported. -/
instance decidableEqBytes : DecidableEq ByteArray := ByteArray.instDecidableEq

/-- What a relative path resolves to. -/
inductive Entry where
  | file (bytes : ByteArray)
  /-- There is no regular file. -/
  | absent
  /-- The path leaves the directory. -/
  | escapes
  deriving DecidableEq

abbrev Directory := String → Entry

def Directory.writeText (directory : Directory) (path text : String) : Directory :=
  Function.update directory path (.file (encode text))

@[simp] theorem Directory.writeText_self (directory : Directory) (path text : String) :
    directory.writeText path text path = .file (encode text) :=
  Function.update_self ..

@[simp] theorem Directory.writeText_of_ne {directory : Directory} {path other text : String}
    (h : other ≠ path) : directory.writeText path text other = directory other :=
  Function.update_of_ne h ..

end Text
