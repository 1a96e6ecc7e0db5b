import NovaRtl.Text.Chars

/-!
# Tokens of a targeted priority chain

`_lex` of `transforms/priority_mux.py`. The text is scanned from left to right; `scan` decides
on the length and the kind of the token that begins at a character.
-/

namespace NovaRtl.PriorityMux

open Text

inductive PriorityMuxError where
  | message (text : String)
  /-- `f"unsupported SystemVerilog token: {character!r}"` -/
  | unsupportedToken (character : Char)
  /-- A contract of the result was violated. -/
  | validation
  /-- The loop bound of the model; by `parse_ne_outOfFuel` it is never reached. -/
  | outOfFuel
  deriving DecidableEq, Repr

inductive TokenKind where
  | string | identifier | number | operator | symbol
  deriving DecidableEq, Repr

structure Token where
  text : String
  start : ℕ
  end_ : ℕ
  kind : TokenKind
  deriving DecidableEq, Repr

/-- `_DOUBLE_OPERATORS` -/
def doubleOperators : List String :=
  ["===", "!==", "<<<", ">>>", "++", "--", "+=", "-=", "*=", "/=", "%=", "&=", "|=", "^=",
    "==", "!=", "<=", ">=", "&&", "||", "<<", ">>", "->"]

/-- `_SIDE_EFFECT_OPERATORS` -/
def sideEffectOperators : List String :=
  ["++", "--", "+=", "-=", "*=", "/=", "%=", "&=", "|=", "^=", "->"]

/-- `_ALLOWED_SYSTEM_CASTS` -/
def allowedSystemCasts : List String := ["$signed", "$unsigned"]

def symbols : List Char := "()[]\x7b\x7d;=?:,.~!&|^+-*/%<>".toList

/-- What is left of a string literal after its opening quote, the closing quote included. -/
def stringRest : List Char → Option ℕ
  | [] => none
  | '"' :: _ => some 1
  | ['\\'] => none
  | '\\' :: _ :: rest => (stringRest rest).map (· + 2)
  | _ :: rest => (stringRest rest).map (· + 1)

/-- The length of a token whose first character is followed by characters of a class. -/
def runLength (p : Char → Bool) (rest : List Char) : ℕ := 1 + (rest.takeWhile p).length

variable (classes : CharClasses)

/-- Length and kind of the token at `c`; `none` for white space. -/
def scan (c : Char) (rest : List Char) : Except PriorityMuxError (Option (ℕ × TokenKind)) :=
  if classes.isSpace c then .ok none
  else if c = '/' ∧ (rest.head? = some '/' ∨ rest.head? = some '*') then
    .error (.message "comments inside targeted priority chain are unsupported")
  else if c = '"' then
    match stringRest rest with
    | some length => .ok (some (1 + length, .string))
    | none => .error (.message "unterminated string literal")
  else if c = '\\' then
    .ok (some (runLength (fun c => !classes.isSpace c) rest, .identifier))
  else if c = '$' ∨ classes.isAlpha c ∨ c = '_' then
    .ok (some (runLength (fun c => classes.isAlnum c || c = '_' || c = '$') rest, .identifier))
  else if classes.isDigit c ∨ c = '\'' then
    .ok (some (runLength (fun c => classes.isAlnum c || c = '_' || c = '\'' || c = '?') rest,
      .number))
  else
    match doubleOperators.find? fun item => item.toList.isPrefixOf (c :: rest) with
    | some item => .ok (some (item.length, .operator))
    | none =>
      if c ∈ symbols then .ok (some (1, .symbol)) else .error (.unsupportedToken c)

/-- The tokens of `source[index:]`, whose first `skip` characters belong to a token already
emitted. -/
def lexFrom (skip index : ℕ) : List Char → Except PriorityMuxError (List Token)
  | [] => .ok []
  | c :: rest =>
    match skip with
    | skip + 1 => lexFrom skip (index + 1) rest
    | 0 => do
      match ← scan classes c rest with
      | none => lexFrom 0 (index + 1) rest
      | some (length, kind) =>
        let tokens ← lexFrom (length - 1) (index + 1) rest
        return ⟨String.ofList ((c :: rest).take length), index, index + length, kind⟩ :: tokens

/-- `_lex` -/
def lex (source : String) : Except PriorityMuxError (List Token) :=
  lexFrom classes 0 0 source.toList

example : (lex .ascii "if (a) y<=2'd1;").map (·.map Token.text) =
    .ok ["if", "(", "a", ")", "y", "<=", "2'd1", ";"] := by decide +kernel

end NovaRtl.PriorityMux
