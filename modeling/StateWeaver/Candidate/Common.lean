import StateWeaver.Lib.PurePath

/-!
# What the candidate tools share

The tools reject an invalid candidate with a code. A path of a candidate is relative and spelled as `PurePosixPath`
spells it.
-/

namespace StateWeaver.Candidate

open Py (CodePoint Text text PurePosixPath slash dot)

/-- What the tools raise. -/
inductive Failure where
  /-- `CandidateError`. -/
  | candidate (code : String)
  /-- `UnicodeEncodeError`, a `ValueError`. -/
  | unicodeEncode
  /-- Another `ValueError`, of `int` for too many digits. -/
  | value
  deriving DecidableEq

/-- What is there, or an exception. -/
def orRaise {α : Type} (value : Option α) (failure : Failure) : Except Failure α :=
  match value with
  | some a => .ok a
  | none => .error failure

theorem orRaise_eq_ok {α : Type} {value : Option α} {failure : Failure} {a : α} :
    orRaise value failure = .ok a ↔ value = some a := by
  cases value with
  | none => exact iff_of_false nofun nofun
  | some b => exact ⟨fun h => congrArg some (Except.ok.inj h), fun h => congrArg Except.ok (Option.some.inj h)⟩

/-- A decimal digit of ASCII. -/
def isDigit (c : CodePoint) : Bool := 48 ≤ c.val && c.val ≤ 57

/-- A lowercase hexadecimal digit. -/
def isLowerHex (c : CodePoint) : Bool := isDigit c || 97 ≤ c.val && c.val ≤ 102

/-- `safe_relative_path`, of a text. -/
def isSafeRelativePath (value : Text) : Bool :=
  let path := PurePosixPath.parse value
  value ≠ [] && value.length ≤ 512 && value.all (fun c => c.val ≠ 92 && c.val ≠ 0 && c.val ≠ 58) &&
    !path.isAbsolute && path.str = value && path.parts.all fun part => part ≠ [] ∧ part ≠ [dot] ∧ part ≠ [dot, dot]

end StateWeaver.Candidate
