import StateWeaver.Candidate.Common
import StateWeaver.Lib.Imperative
import StateWeaver.Lib.Padded

/-!
# Markers

A dependency of a lock may have a marker, a boolean expression over the properties of the install target, and a lock
restricts the versions of Python. Both compare versions as the tuples of their segments, so a version is less than
the same version with more zeros. Beyond that the comparisons are those of the padded segments
(`evaluateMarker_spec`).
-/

namespace StateWeaver.Candidate

open Py (CodePoint Text text dot)

/-! ## Versions -/

/-- The number that digits stand for. -/
def digitsValue (digits : Text) : ℕ := digits.foldl (fun n c => 10 * n + (c.val - 48)) 0

def markerUnsupported : Failure := .candidate "python-lock-marker-unsupported"

/-- `_version_tuple`. An integer has at most 4300 digits. -/
def versionTuple (value : Text) : Except Failure (List ℕ) := do
  let parts := value.splitOn dot
  Imp.require (∀ part ∈ parts, part ≠ [] ∧ part.all isDigit) markerUnsupported
  Imp.require (∀ part ∈ parts, part.length ≤ 4300) .value
  return parts.map digitsValue

/-! ## Comparisons -/

/-- `ast.cmpop`. -/
inductive CmpOp where
  | eq | notEq | lt | ltE | gt | gtE | is | isNot | isIn | notIn
  deriving DecidableEq

/-- `_compare_ordered`, of two texts or of two tuples. -/
def compareOrdered {α : Type} [LinearOrder α] (left : α) (operator : CmpOp) (right : α) : Except Failure Bool :=
  match operator with
  | .eq => .ok (left = right)
  | .notEq => .ok (left ≠ right)
  | .lt => .ok (left < right)
  | .ltE => .ok (left ≤ right)
  | .gt => .ok (right < left)
  | .gtE => .ok (right ≤ left)
  | _ => .error markerUnsupported

/-- `_compare_values`. -/
def compareValues (left : Text) (operator : CmpOp) (right : Text) (versioned : Bool) : Except Failure Bool :=
  match operator with
  | .isIn => .ok (left <:+: right)
  | .notIn => .ok (¬left <:+: right)
  | operator => do
      if versioned then compareOrdered (← versionTuple left) operator (← versionTuple right)
      else compareOrdered left operator right

/-! ## Expressions -/

/-- `ast.boolop`. -/
inductive BoolOp where
  | and | or
  deriving DecidableEq

/-- What a marker is parsed into. -/
inductive Expr where
  | boolOp (op : BoolOp) (values : List Expr)
  /-- An `ast.UnaryOp` with `ast.Not`. -/
  | unaryNot (operand : Expr)
  /-- The operators with their comparators, which `ast.Compare` has in two lists of one length. -/
  | compare (left : Expr) (comparisons : List (CmpOp × Expr))
  | name (id : Text)
  /-- A constant that is a text. -/
  | constant (value : Text)
  /-- Every other expression. -/
  | other

/-- The properties of a target, by their names. -/
abbrev Environment := List (Text × Text)

/-- The properties that are versions. -/
def versionNames : List Text :=
  [text "implementation_version", text "python_full_version", text "python_version"]

/-- `_marker_operand`. -/
def markerOperand (environment : Environment) : Expr → Except Failure (Text × Bool)
  | .name id =>
      match environment.lookup id with
      | some value => .ok (value, versionNames.contains id)
      | none => .error markerUnsupported
  | .constant value => .ok (value, false)
  | _ => .error markerUnsupported

/-- `result and next`: nothing is evaluated after what is false. -/
def andThen (result : Bool) (next : Except Failure Bool) : Except Failure Bool := if result then next else .ok false

/-- The loop over the comparators: once a comparison fails, the others are not made, but their operands are looked
up. -/
def compareChain (environment : Environment) : Text × Bool → Bool → List (CmpOp × Expr) → Except Failure Bool
  | _, result, [] => .ok result
  | left, result, (operator, comparator) :: rest => do
      let right ← markerOperand environment comparator
      let result ← andThen result (compareValues left.1 operator right.1 (left.2 || right.2))
      compareChain environment right result rest

mutual

/-- `_evaluate_marker_node`. -/
def evaluateMarkerNode (environment : Environment) : Expr → Except Failure Bool
  | .boolOp op values => do
      let values ← evaluateMarkerNodes environment values
      return match op with
        | .and => values.all id
        | .or => values.any id
  | .unaryNot operand => do return !(← evaluateMarkerNode environment operand)
  | .compare left comparisons => do compareChain environment (← markerOperand environment left) true comparisons
  | _ => .error markerUnsupported

def evaluateMarkerNodes (environment : Environment) : List Expr → Except Failure (List Bool)
  | [] => .ok []
  | e :: rest => do return (← evaluateMarkerNode environment e) :: (← evaluateMarkerNodes environment rest)

end

/-! ## Targets -/

/-- `_PYTHON_FULL_VERSION_RE`. -/
def isPythonFullVersion (version : Text) : Bool :=
  (text "3.13.").isPrefixOf version && 5 < version.length && (version.drop 5).all isDigit

/-- The one install target that is supported. -/
structure RuntimeTarget where
  pythonFullVersion : Text
  /-- What `RuntimeTarget.create` requires. -/
  valid : isPythonFullVersion pythonFullVersion = true

/-- `target.marker_environment()`. -/
def RuntimeTarget.markerEnvironment (target : RuntimeTarget) : Environment :=
  [(text "extra", []), (text "implementation_name", text "cpython"),
    (text "implementation_version", target.pythonFullVersion), (text "os_name", text "posix"),
    (text "platform_machine", text "x86_64"), (text "platform_python_implementation", text "CPython"),
    (text "platform_release", []), (text "platform_system", text "Linux"), (text "platform_version", []),
    (text "python_full_version", target.pythonFullVersion), (text "python_version", text "3.13"),
    (text "sys_platform", text "linux")]

/-- `evaluate_marker`, with the parser of Python expressions. -/
def evaluateMarker (parse : Text → Option Expr) (marker : Text) (target : RuntimeTarget) : Except Failure Bool := do
  Imp.require (marker ≠ [] ∧ marker.length ≤ 4096) markerUnsupported
  match parse marker with
  | some parsed => evaluateMarkerNode target.markerEnvironment parsed
  | none => .error markerUnsupported

/-! ## Versions of Python -/

/-- A blank. -/
def isSpace (c : CodePoint) : Bool :=
  9 ≤ c.val && c.val ≤ 13 || 28 ≤ c.val && c.val ≤ 32 || 0x2000 ≤ c.val && c.val ≤ 0x200a ||
    [0x85, 0xa0, 0x1680, 0x2028, 0x2029, 0x202f, 0x205f, 0x3000].contains c.val

/-- The operators of a restriction, the longer ones first. -/
def clauseOperators : List (Text × CmpOp) :=
  [(text "==", .eq), (text "!=", .notEq), (text "<=", .ltE), (text ">=", .gtE), (text "<", .lt), (text ">", .gt)]

/-- The operator and the version of a clause, if it matches the pattern of one. -/
def readClause (clause : Text) : Option (CmpOp × Text) := do
  let clause := clause.dropWhile isSpace
  let (sign, operator) ← clauseOperators.find? fun o => o.1.isPrefixOf clause
  let rest := (clause.drop sign.length).dropWhile isSpace
  let version := rest.takeWhile fun c => isDigit c || c = dot
  if (∀ part ∈ version.splitOn dot, part ≠ []) ∧ (rest.drop version.length).all isSpace then
    return (operator, version)
  else none

def lockfileInvalid : Failure := .candidate "python-lockfile-invalid"

/-- The loop over the clauses, which ends at the first one that does not hold. -/
def clausesAllow (target : List ℕ) : List Text → Except Failure Bool
  | [] => .ok true
  | clause :: rest =>
      match readClause clause with
      | none => .error lockfileInvalid
      | some (operator, version) => do
          let required ← versionTuple version
          andThen (← compareOrdered target operator required) (clausesAllow target rest)

/-- `_requires_python_allows`, of what the lock has if that is a text. -/
def requiresPythonAllows (value : Option Text) (target : RuntimeTarget) : Except Failure Bool :=
  match value with
  | none => .error lockfileInvalid
  | some value => do
      Imp.require (value ≠ []) lockfileInvalid
      clausesAllow (← versionTuple target.pythonFullVersion) (value.splitOn 44)

end StateWeaver.Candidate
