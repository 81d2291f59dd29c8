import Mathlib

/-!
# Values of Python

The scalars a JSON document can hold, tuples of them, and what Python's operators do on them: `==`
and the orderings compare `bool`, `int` and `float` as exact numbers, and an operator that is not
defined on its operands raises `TypeError`, which is `none` here. Floats are those of Lean, which
are the same numbers in the same format.
-/

namespace Py

/-! ## Numbers -/

/-- Where a number lies on the extended number line, in units of `2 ^ -1074`. -/
inductive Position where
  | below | at (units : Int) | above | nowhere
  deriving DecidableEq

/-- The exact place of a float. -/
def floatPosition (x : Float) : Position :=
  match x.toModel.unpack with
  | .notANumber => .nowhere
  | .infinity .positive => .above
  | .infinity .negative => .below
  | .zero _ => .at 0
  | .finite sign mantissa exponent _ => .at (sign.apply (mantissa * 2 ^ (exponent + 1074).toNat))

/-- The exact place of an integer. -/
def intPosition (n : Int) : Position := .at (n * 2 ^ 1074)

/-- How two places compare; a NaN compares with nothing. -/
def Position.compare? : Position → Position → Option Ordering
  | .nowhere, _ | _, .nowhere => none
  | .at a, .at b => some (compare a b)
  | .below, .below | .above, .above => some .eq
  | .below, _ | _, .above => some .lt
  | .above, _ | _, .below => some .gt

/-- A value that arithmetic is done with. -/
inductive Number where
  | int (n : Int)
  | float (x : Float)
  deriving DecidableEq

/-- `float(n)`, which raises `OverflowError` if the integer is too large. -/
def toFloat (n : Int) : Option Float :=
  let x := Float.ofInt n
  if x.isInf then none else some x

/-- An arithmetic operator; an integer next to a float is converted first. -/
def Number.arith (onInts : Int → Int → Int) (onFloats : Float → Float → Float) :
    Number → Number → Option Number
  | .int a, .int b => some (.int (onInts a b))
  | .float x, .float y => some (.float (onFloats x y))
  | .int a, .float y => (toFloat a).map fun x => .float (onFloats x y)
  | .float x, .int b => (toFloat b).map fun y => .float (onFloats x y)

/-- `a + b`. -/
def Number.add : Number → Number → Option Number := arith (· + ·) (· + ·)

/-- `a - b`. -/
def Number.sub : Number → Number → Option Number := arith (· - ·) (· - ·)

/-! ## Scalars and tuples -/

/-- A scalar. -/
inductive Scalar where
  | none_
  | bool (b : Bool)
  | int (n : Int)
  | float (x : Float)
  | str (s : String)
  deriving DecidableEq

/-- A scalar or a tuple of scalars. -/
inductive Value where
  | scalar (s : Scalar)
  | tuple (l : List Scalar)
  deriving DecidableEq

/-- What decides whether two scalars are equal. -/
inductive Key where
  | none_
  | number (p : Position)
  | str (s : String)
  deriving DecidableEq

/-- The key of a scalar: `True`, `1` and `1.0` are the same number. -/
def Scalar.key : Scalar → Key
  | .none_ => .none_
  | .bool b => .number (intPosition (if b then 1 else 0))
  | .int n => .number (intPosition n)
  | .float x => .number (floatPosition x)
  | .str s => .str s

/-- `a == b`. A NaN is not equal to itself. -/
def Scalar.eq (a b : Scalar) : Bool := a.key = b.key ∧ a.key ≠ .number .nowhere

/-- `a == b`. -/
def Value.eq : Value → Value → Bool
  | .scalar a, .scalar b => a.eq b
  | .tuple l, .tuple l' => l.length = l'.length ∧ (l.zip l').all fun e => e.1.eq e.2
  | _, _ => false

/-- How two scalars compare, `none` if their types have no ordering. -/
def Scalar.compare? (a b : Scalar) : Option (Option Ordering) :=
  match a.key, b.key with
  | .number p, .number q => some (p.compare? q)
  | .str s, .str t => some (some (compareOfLessAndEq s t))
  | _, _ => none

/-- How two tuples compare: as the first elements that differ, or by length. -/
def compareTuples : List Scalar → List Scalar → Option (Option Ordering)
  | a :: l, b :: l' => if a.eq b then compareTuples l l' else a.compare? b
  | l, l' => some (some (compare l.length l'.length))

/-- How two values compare, `none` if their types have no ordering. -/
def Value.compare? : Value → Value → Option (Option Ordering)
  | .scalar a, .scalar b => a.compare? b
  | .tuple l, .tuple l' => compareTuples l l'
  | _, _ => none

/-- `item in container`. -/
def Value.contains? (container item : Value) : Option Bool :=
  match container, item with
  | .tuple l, item => some (l.any fun a => (Value.scalar a).eq item)
  | .scalar (.str s), .scalar (.str t) => some (t.toList <:+: s.toList)
  | _, _ => none

/-- The number a value is; a `bool` does not count as one. -/
def Value.number? : Value → Option Number
  | .scalar (.int n) => some (.int n)
  | .scalar (.float x) => some (.float x)
  | _ => none

/-- A number as a scalar. -/
def Number.toScalar : Number → Scalar
  | .int n => .int n
  | .float x => .float x

/-! ## Equality -/

theorem Scalar.eq_iff {a b : Scalar} :
    a.eq b = true ↔ a.key = b.key ∧ a.key ≠ .number .nowhere := by
  rw [Scalar.eq, decide_eq_true_eq]

theorem Scalar.eq_symm {a b : Scalar} (h : a.eq b = true) : b.eq a = true := by
  obtain ⟨hkey, hplace⟩ := eq_iff.mp h
  exact eq_iff.mpr ⟨hkey.symm, hkey ▸ hplace⟩

theorem Scalar.eq_trans {a b c : Scalar} (h : a.eq b = true) (h' : b.eq c = true) :
    a.eq c = true := by
  obtain ⟨hkey, hplace⟩ := eq_iff.mp h
  exact eq_iff.mpr ⟨hkey.trans (eq_iff.mp h').1, hplace⟩

/-- A scalar that is not a NaN is equal to itself. -/
theorem Scalar.eq_self {a : Scalar} (h : ∀ x, a = .float x → x.isFinite = true) :
    a.eq a = true := by
  refine eq_iff.mpr ⟨rfl, ?_⟩
  cases a with
  | float x =>
      intro hkey
      have hfinite := h x rfl
      simp only [Scalar.key, Key.number.injEq, floatPosition] at hkey
      rw [Float.isFinite, Float.Model.isFinite] at hfinite
      split at hkey
      · next hunpack =>
          rw [hunpack] at hfinite
          cases hfinite
      all_goals cases hkey
  | none_ => nofun
  | bool b => nofun
  | int n => nofun
  | str s => nofun

example : (Scalar.bool true).eq (.float 1.0) = true ∧
    (Scalar.int 9007199254740993).eq (.float 9007199254740992.0) = false := by
  decide +kernel

end Py
