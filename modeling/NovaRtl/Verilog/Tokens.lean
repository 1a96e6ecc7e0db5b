import NovaRtl.Text.Chars

/-!
# The tokens of SystemVerilog text

Text is read in two steps. `atoms` divides it into white space and comments, names, runs of
digits, based literals, strings and single characters; every character belongs to one atom.
`group` joins adjacent characters to the longest operator that begins there and digits to a real
number, and drops what separates tokens.

The digits of a based literal are not compared with its base. `(*` and `*)` are two tokens each,
because they also stand in `@(*)`. Characters that are not ASCII have the classes of a parameter.
-/

namespace Verilog

open Text

inductive Kind where
  | space
  | lineComment
  | blockComment
  | word
  /-- A name that begins with a backslash and ends before white space. -/
  | escaped
  | number
  /-- An apostrophe with what follows it in a literal. -/
  | literal
  | string
  /-- A character that is part of no operator. -/
  | delimiter
  | symbol
  deriving DecidableEq, Repr

/-- White space and comments separate tokens. -/
def Kind.separates (kind : Kind) : Bool := kind ∈ [.space, .lineComment, .blockComment]

structure Token where
  kind : Kind
  text : List Char
  start : ℕ
  deriving DecidableEq, Repr

def Token.isName (t : Token) : Bool := t.kind = .word || t.kind = .escaped

def Token.stop (t : Token) : ℕ := t.start + t.text.length

def delimiters : List Char := "()[]\x7b\x7d;,".toList

/-- Longer operators come first. -/
def operators : List (List Char) :=
  ["<<<=", ">>>=",
    "===", "!==", "==?", "!=?", "<<<", ">>>", "<<=", ">>=", "->>", "<->", "|->", "|=>", "&&&",
    "#-#", "#=#",
    "++", "--", "+=", "-=", "*=", "/=", "%=", "&=", "|=", "^=", "==", "!=", "<=", ">=", "&&",
    "||", "<<", ">>", "->", "=>", "*>", "**", "~&", "~|", "~^", "^~", "::", "+:", "-:", ":=", ":/",
    ".*", "##", "@@"].map String.toList

/-- The rest of a string literal, or of the text; a backslash may precede it. -/
def stringTail (backslash : Bool) : List Char → ℕ
  | [] => 0
  | c :: rest =>
    if backslash then stringTail false rest + 1
    else if c = '"' then 1
    else stringTail (c = '\\') rest + 1

/-- The rest of a block comment, or of the text; a star may precede it. -/
def commentTail (star : Bool) : List Char → ℕ
  | [] => 0
  | c :: rest => if star ∧ c = '/' then 1 else commentTail (c = '*') rest + 1

section Atoms

variable (classes : CharClasses)

def wordStart (c : Char) : Bool := classes.isAlpha c || c = '_' || c = '$'

def wordChar (c : Char) : Bool := classes.isAlnum c || c = '_' || c = '$'

def digitChar (c : Char) : Bool := classes.isAlnum c || c = '_'

def literalChar (c : Char) : Bool := classes.isAlnum c || c = '_' || c = '?'

/-- The kind of the atom that begins with a character, unless it is a comment. -/
def charKind (c : Char) : Kind :=
  if classes.isSpace c then .space
  else if c = '"' then .string
  else if c = '\\' then .escaped
  else if wordStart classes c then .word
  else if classes.isDigit c then .number
  else if c = '\'' then .literal
  else if c ∈ delimiters then .delimiter
  else .symbol

/-- The kind of the atom at `c`, before the character `next`. -/
def atomKind (c : Char) (next : Option Char) : Kind :=
  if c = '/' ∧ next = some '/' then .lineComment
  else if c = '/' ∧ next = some '*' then .blockComment
  else charKind classes c

/-- How many characters follow the first one in an atom. -/
def Kind.more (kind : Kind) (rest : List Char) : ℕ :=
  match kind with
  | .lineComment => (rest.takeWhile (· ≠ '\n')).length
  | .blockComment =>
    match rest with
    | [] => 0
    | _ :: rest => commentTail false rest + 1
  | .string => stringTail false rest
  | .escaped => (rest.takeWhile (!classes.isSpace ·)).length
  | .word => (rest.takeWhile (wordChar classes)).length
  | .number => (rest.takeWhile (digitChar classes)).length
  | .literal => (rest.takeWhile (literalChar classes)).length
  | .space | .delimiter | .symbol => 0

/-- The atoms of a text at `index`, whose first `skip` characters belong to an earlier atom. -/
def atoms (skip index : ℕ) : List Char → List Token
  | [] => []
  | c :: rest =>
    match skip with
    | skip + 1 => atoms skip (index + 1) rest
    | 0 =>
      let kind := atomKind classes c rest.head?
      let more := kind.more classes rest
      ⟨kind, c :: rest.take more, index⟩ :: atoms more (index + 1) rest

end Atoms

/-! ## Tokens of several atoms -/

/-- How many atoms follow a symbol in an operator. -/
def operatorTail (t : Token) (rest : List Token) : ℕ :=
  let run := (t :: rest.takeWhile (·.kind = .symbol)).map Token.text
  match operators.find? fun operator => (operator.map fun c => [c]).isPrefixOf run with
  | some operator => operator.length - 1
  | none => 0

/-- The atoms of a point and digits. -/
def pointTail : List Token → ℕ
  | point :: digits :: _ =>
    if point.kind = .symbol ∧ point.text = ['.'] ∧ digits.kind = .number then 2 else 0
  | _ => 0

/-- Membership of texts is decided by comparing them. -/
theorem lawfulBEq_text : LawfulBEq (List Char) := inferInstance

attribute [local instance] lawfulBEq_text

/-- The atoms of a sign and digits, after digits that end in `e`. -/
def signTail (last : Token) : List Token → ℕ
  | sign :: digits :: _ =>
    if last.text.getLast? ∈ [some 'e', some 'E'] ∧ sign.kind = .symbol ∧
      sign.text ∈ [['+'], ['-']] ∧ digits.kind = .number then 2 else 0
  | _ => 0

/-- How many atoms follow the digits of a number in it. -/
def numberTail (t : Token) (rest : List Token) : ℕ :=
  let fraction := pointTail rest
  let last := (t :: rest).getD fraction t
  fraction + signTail last (rest.drop fraction)

/-- How many of the following atoms belong to the token that begins with an atom. -/
def tail (t : Token) (rest : List Token) : ℕ :=
  match t.kind with
  | .symbol => operatorTail t rest
  | .number => numberTail t rest
  | _ => 0

/-- The tokens of atoms, of which the first `skip` belong to an earlier token. -/
def group (skip : ℕ) : List Token → List Token
  | [] => []
  | t :: rest =>
    match skip with
    | skip + 1 => group skip rest
    | 0 =>
      if t.kind.separates then group 0 rest
      else
        let more := tail t rest
        { t with text := t.text ++ (rest.take more).flatMap Token.text } :: group more rest

variable (classes : CharClasses)

def tokens (text : List Char) : List Token := group 0 (atoms classes 0 0 text)

/-- The tokens without their positions. -/
def tokenTexts (text : List Char) : List (List Char) := (tokens classes text).map Token.text

example : (tokenTexts .ascii "a[1] <<<= \\b+c 1.5e+3*2'b0?;// end\n/* x */x::y".toList).map
      String.ofList =
    ["a", "[", "1", "]", "<<<=", "\\b+c", "1.5e+3", "*", "2", "'b0?", ";", "x", "::", "y"] := by
  decide +kernel

end Verilog
