import Mathlib
import StateWeaver.Lib.Imperative
import StateWeaver.Lib.Python
import StateWeaver.Lib.Sha256

/-!
# Shared primitives of the contracts

The texts of a contract are constrained by a pattern each. A constrained text is stored as it is
after validation, without surrounding whitespace, and carries that it matches its pattern.
-/

namespace StateWeaver.Contracts

/-! ## Constrained texts -/

/-- A text that matches a pattern. -/
structure Constrained (pattern : String → Bool) where
  val : String
  matchesPattern : pattern val = true

namespace Constrained

variable {pattern : String → Bool}

theorem val_injective : Function.Injective (val : Constrained pattern → String) := by
  rintro ⟨a, _⟩ ⟨b, _⟩ h
  cases h
  rfl

/-- Constrained texts are ordered as texts. -/
instance : LinearOrder (Constrained pattern) := LinearOrder.lift' val val_injective

instance instLawfulBEq : LawfulBEq (Constrained pattern) := inferInstance

/-- A character that a text is stripped of at both ends. -/
def isWhitespace (c : Char) : Bool :=
  (9 ≤ c.toNat && c.toNat ≤ 13) || (0x2000 ≤ c.toNat && c.toNat ≤ 0x200a) ||
    [0x20, 0x85, 0xa0, 0x1680, 0x2028, 0x2029, 0x202f, 0x205f, 0x3000].contains c.toNat

/-- A text without surrounding whitespace. -/
def strip (s : String) : String :=
  String.ofList
    ((s.toList.dropWhile isWhitespace).reverse.dropWhile isWhitespace).reverse

/-- Validate a text: strip it, then match the pattern. -/
def ofString? (s : String) : Option (Constrained pattern) :=
  if h : pattern (strip s) = true then some ⟨strip s, h⟩ else none

end Constrained

/-- Between `min` and `max` characters. -/
def hasLength (min max : Nat) (s : String) : Bool :=
  min ≤ s.toList.length && s.toList.length ≤ max

/-- A first character of one class and then any number of characters of another. -/
def headTail (head tail : Char → Bool) : List Char → Bool
  | [] => false
  | c :: rest => head c && rest.all tail

/-- `[a-z0-9]`. -/
def isLowerAlnum (c : Char) : Bool := c.isLower || c.isDigit

/-- `[A-Za-z0-9._:-]`. -/
def isNameChar (c : Char) : Bool := c.isAlphanum || ['.', '_', ':', '-'].contains c

/-- Where a text is in `[a-z][a-z0-9]*(?:[._:-][a-z0-9][a-z0-9_-]*)+`. -/
inductive ContractIdPhase where
  | start | stem | separator | body | failed
  deriving DecidableEq

/-- Read one more character. A `-` or `_` that could also start a new part is read as a part of the
running one, which accepts every text that the other reading accepts. -/
def ContractIdPhase.next : ContractIdPhase → Char → ContractIdPhase
  | .start, c => if c.isLower then .stem else .failed
  | .stem, c =>
      if isLowerAlnum c then .stem
      else if ['.', '_', ':', '-'].contains c then .separator
      else .failed
  | .separator, c => if isLowerAlnum c then .body else .failed
  | .body, c =>
      if isLowerAlnum c || c == '_' || c == '-' then .body
      else if c == '.' || c == ':' then .separator
      else .failed
  | .failed, _ => .failed

/-- The pattern of `ContractId`. -/
def isContractId (s : String) : Bool :=
  hasLength 3 128 s && s.toList.foldl ContractIdPhase.next .start == .body

/-- The pattern of `Name`. -/
def isName (s : String) : Bool := hasLength 1 128 s && headTail Char.isAlphanum isNameChar s.toList

/-- A tag, a letter or digit, and then characters of a class. -/
def isTagged (tag : String) (tail : Char → Bool) (s : String) : Bool :=
  s.toList.take tag.toList.length == tag.toList &&
    headTail Char.isAlphanum tail (s.toList.drop tag.toList.length)

/-- The pattern of `Sha256Digest`. -/
def isSha256Digest (s : String) : Bool :=
  s.toList.take 7 == "sha256:".toList && isHexDigest (String.ofList (s.toList.drop 7))

/-- The pattern of `IdentityHandle`. -/
def isIdentityHandle (s : String) : Bool := hasLength 10 160 s && isTagged "identity:" isNameChar s

/-- The pattern of `ArtifactHandle`. -/
def isArtifactHandle (s : String) : Bool :=
  hasLength 10 256 s && isTagged "artifact:" (fun c => isNameChar c || c == '/') s

/-- `[a-z][a-z0-9_]*(?:\.[a-z][a-z0-9_]*)+`. -/
def isDottedPath (s : String) : Bool :=
  let parts := s.toList.splitOn '.'
  2 ≤ parts.length && parts.all (headTail Char.isLower fun c => isLowerAlnum c || c == '_')

/-- The pattern of `StatePath`. -/
def isStatePath (s : String) : Bool := hasLength 3 256 s && isDottedPath s

abbrev ContractId := Constrained isContractId
abbrev Name := Constrained isName
abbrev Sha256Digest := Constrained isSha256Digest
abbrev IdentityHandle := Constrained isIdentityHandle
abbrev ArtifactHandle := Constrained isArtifactHandle
abbrev StatePath := Constrained isStatePath

/-! ## Scalars -/

/-- Whether a scalar is not a NaN and not an infinity. -/
def isFinite : Py.Scalar → Bool
  | .float x => x.isFinite
  | _ => true

/-- `JsonScalar`: a scalar, finite if it is a float. -/
structure JsonScalar where
  val : Py.Scalar
  finite : isFinite val = true
  deriving DecidableEq

/-- `None` as a JSON scalar. -/
def JsonScalar.none : JsonScalar := ⟨.none_, rfl⟩

inductive EffectOperation where
  | set | add | remove | increment | decrement
  deriving DecidableEq

/-- `validate_effect_operation_value`: the operations and the values they take. -/
def validateEffectOperationValue (operation : EffectOperation) (value : JsonScalar) :
    Except String Unit :=
  match operation, value.val with
  | .set, .none_ | .add, .none_ => .error "set and add effects require a value"
  | .set, _ | .add, _ | .remove, _ => .ok ()
  | .increment, .int _ | .decrement, .int _ => .ok ()
  | .increment, .float x | .decrement, .float x =>
      Imp.require (x.isFinite = true) "increment and decrement effects require a finite value"
  | .increment, _ | .decrement, _ =>
      .error "increment and decrement effects require an integer or float value"

end StateWeaver.Contracts
