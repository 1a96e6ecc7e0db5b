import NovaRtl.Text.Chars
import NovaRtl.Text.Pattern

/-!
# Patterns of the rewrites

The character classes and the small patterns from which the expressions of `transforms/` are put
together.
-/

namespace NovaRtl

open Text Pattern

def wordStart (c : Char) : Bool := c.isAlpha || c = '_'

def wordRest (c : Char) : Bool := c.isAlphanum || c = '_' || c = '$'

/-- `[0-9a-fA-F_]` -/
def hexRest (c : Char) : Bool :=
  c.isDigit || ('a' ≤ c && c ≤ 'f') || ('A' ≤ c && c ≤ 'F') || c = '_'

/-- `[xXzZ?]` -/
def unknownDigit (c : Char) : Bool := c ∈ ['x', 'X', 'z', 'Z', '?']

def baseLetter (c : Char) : Bool := c ∈ ['b', 'B', 'o', 'O', 'd', 'D', 'h', 'H']

/-- `'[sS]?[bBoOdDhH]` -/
def basePatterns : List Pattern :=
  [char (· = '\''), optional (char (· ∈ ['s', 'S'])), char baseLetter]

/-- `part in text` -/
def contains (part : String) (text : String) : Bool :=
  text.toList.tails.any part.toList.isPrefixOf

variable (classes : CharClasses)

def spaces : Pattern := many classes.isSpace

variable {classes}

theorem blank_of_mem_spaces {text : List Char} {hit : Hit} (h : hit ∈ (spaces classes).hits text) :
    Blank classes hit.taken ∧ hit.groups = [] :=
  ⟨(of_mem_many h).2.1, (of_mem_many h).1⟩

end NovaRtl
