/-!
# Identifiers of the persisted contracts

The string types of `contracts/base.py` that other contracts are built from.
-/

namespace NovaRtl

abbrev EntityId := String

/-- `^[a-z][a-z0-9_]{2,95}$` -/
def isEntityId (id : String) : Bool :=
  match id.toList with
  | [] => false
  | c :: rest =>
    c.isLower && rest.all (fun d => d.isLower || d.isDigit || d = '_') &&
      2 ≤ rest.length && rest.length ≤ 95

def hashPrefix : String := "sha256:"

/-- `^sha256:[0-9a-f]{64}$` -/
def isHashRef (hash : String) : Bool :=
  let digits := hash.toList.drop hashPrefix.length
  hashPrefix.toList.isPrefixOf hash.toList && digits.length = 64 &&
    digits.all fun d => d.isDigit || ('a' ≤ d && d ≤ 'f')

abbrev Identifier := { id : EntityId // isEntityId id }

abbrev HashRef := { hash : String // isHashRef hash }

/-- `hash.removeprefix("sha256:")` -/
def hashDigits (hash : String) : String :=
  if hashPrefix.toList.isPrefixOf hash.toList then
    String.ofList (hash.toList.drop hashPrefix.length)
  else hash

end NovaRtl
