import NovaRtl.Contracts.Checks
import NovaRtl.Shell.Exports

/-!
# Activation of a toolchain

The environment that `_execution_environment` of `platform/activation.py` computes, and the script
that `render_shell_environment` writes for a shell, with the contract for the values in
`contracts/platform.py`. Dictionaries are lists in their order. Where no value has a quote, both
give the same variables the same values.
-/

namespace NovaRtl.Activation

open Shell

inductive Operation where
  | prependPath
  | set
  | setLiteral
  deriving DecidableEq

structure CanonicalEnvironmentEntry where
  operation : Operation
  paths : List String := []
  literalValue : Option String := none

inductive Failure where
  | toolchainVerification (message : String)
  /-- `invalid environment variable name: {name!r}` -/
  | invalidName (name : String)
  /-- `invalid canonical environment value for {name}: {error}` -/
  | invalidValue (name error : String)
  | keyError (name : String)
  deriving DecidableEq

/-- `Path.is_absolute`. An absolute path is its own `absolute()`. -/
def isAbsolute (path : String) : Bool := path.toList.head? = some '/'

def isControl (c : Char) : Bool := c.toNat < 32 || c.toNat = 127

namespace CanonicalEnvironmentEntry

def pathsAreAbsoluteAndUnique (entry : CanonicalEnvironmentEntry) : Except String Unit := do
  require entry.paths.Nodup "canonical environment paths must be unique"
  require (∀ item ∈ entry.paths, isAbsolute item)
    "canonical environment path must be absolute and normalized"

def operationValueIsUnambiguous (entry : CanonicalEnvironmentEntry) : Except String Unit := do
  require (entry.literalValue.all fun value => value.toList.all fun c => !isControl c)
    "literal_value must not contain control characters"
  if entry.operation = .setLiteral then do
    require (entry.paths = []) "SET_LITERAL canonical environment entry cannot declare paths"
    require (entry.literalValue.getD "" ≠ "")
      "SET_LITERAL canonical environment entry requires a nonempty literal_value"
  else do
    require (entry.paths ≠ []) "path-based canonical environment entry requires at least 1 path"
    require (entry.literalValue = none)
      "path-based canonical environment entry cannot declare literal_value"
    require (entry.operation = .set → entry.paths.length = 1)
      "SET canonical environment entry requires exactly one path"

/-- The validators of the contract. -/
def validate (entry : CanonicalEnvironmentEntry) : Except String Unit := do
  entry.pathsAreAbsoluteAndUnique
  entry.operationValueIsUnambiguous

end CanonicalEnvironmentEntry

/-! ## The two environments -/

abbrev Dict (α : Type) := List (String × α)

def keys {α : Type} (dict : Dict α) : List String := dict.map Prod.fst

variable (canonicalEnvironment : Dict (List String)) (operations : Dict Operation)
  (literalEnvironment : Dict String)

/-- The operations are for the paths and the literals, of which no name has both. -/
abbrev Matching : Prop :=
  (∀ name ∈ keys canonicalEnvironment, name ∉ keys literalEnvironment) ∧
    (∀ name ∈ keys operations,
      name ∈ keys canonicalEnvironment ∨ name ∈ keys literalEnvironment) ∧
    ∀ name ∈ keys canonicalEnvironment ++ keys literalEnvironment, name ∈ keys operations

/-- `dict[name]` -/
def getItem {α : Type} (dict : Dict α) (name : String) : Except Failure α :=
  (dict.lookup name).elim (.error (.keyError name)) .ok

def assigned (environment : Environment) (name : String) : Operation → Except Failure String
  | .setLiteral => getItem literalEnvironment name
  | .set => do
    let paths ← getItem canonicalEnvironment name
    return ":".intercalate paths
  | .prependPath => do
    let paths ← getItem canonicalEnvironment name
    let joined := ":".intercalate paths
    let inherited := (environment name).getD ""
    return if inherited ≠ "" then joined ++ ":" ++ inherited else joined

/-- `_execution_environment`, in a process with the given environment -/
def executionEnvironment (inherited : Environment) : Except Failure Environment := do
  require (Matching canonicalEnvironment operations literalEnvironment)
    (.toolchainVerification "canonical environment values and operations do not match")
  operations.foldlM (fun environment item => do
    let value ← assigned canonicalEnvironment literalEnvironment environment item.1 item.2
    return Function.update environment item.1 (some value)) inherited

/-- `[A-Z_][A-Z0-9_]{0,127}` -/
def isVariableName (name : String) : Bool :=
  match name.toList with
  | [] => false
  | c :: rest => (c.isUpper || c = '_') && rest.all (fun d => d.isUpper || d.isDigit || d = '_') &&
      rest.length ≤ 127

/-- `"'" + value.replace(...) + "'"` -/
def quote (value : String) : String :=
  String.ofList ('\'' :: (value.toList.flatMap (fun c =>
    if c = '\'' then ['\'', '\\', '\x22', '\'', '\\', '\x22', '\''] else [c]) ++ ['\'']))

/-- What is joined with colons to the value of the variable. -/
def CanonicalEnvironmentEntry.values (entry : CanonicalEnvironmentEntry) : List String :=
  if entry.operation = .setLiteral then entry.literalValue.toList else entry.paths

def renderLine (name : String) (entry : CanonicalEnvironmentEntry) : String :=
  let quoted := ":".intercalate (entry.values.map quote)
  if entry.operation ∈ [.set, .setLiteral] then "export " ++ name ++ "=" ++ quoted
  else "export " ++ name ++ "=" ++ quoted ++ "$\x7b" ++ name ++ ":+:$" ++ name ++ "\x7d"

/-- The entry that the values of a variable make. -/
def entryOf (name : String) (operation : Operation) : CanonicalEnvironmentEntry where
  operation
  paths := (canonicalEnvironment.lookup name).getD []
  literalValue := literalEnvironment.lookup name

/-- `render_shell_environment` -/
def renderShellEnvironment : Except Failure String := do
  require (Matching canonicalEnvironment operations literalEnvironment)
    (.toolchainVerification "environment values and operations do not match")
  let lines ← operations.mapM fun item => do
    require (isVariableName item.1) (.invalidName item.1)
    let entry := entryOf canonicalEnvironment literalEnvironment item.1 item.2
    match entry.validate with
    | .ok () => return renderLine item.1 entry
    | .error error => throw (.invalidValue item.1 error)
  return "\n".intercalate lines ++ if lines = [] then "" else "\n"

end NovaRtl.Activation
