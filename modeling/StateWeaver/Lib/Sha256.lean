import Mathlib

/-!
# SHA-256 as a parameter

No result depends on which function the digest is, so it is a parameter: a function from byte
strings to 64 lower-case hexadecimal digits.
-/

/-- Whether a character is one of `0123456789abcdef`. -/
def Char.isLowerHex (c : Char) : Bool := c.isDigit || ('a' ≤ c && c ≤ 'f')

/-- Whether a text is 64 lower-case hexadecimal digits. -/
def isHexDigest (s : String) : Bool := s.toList.length == 64 && s.toList.all Char.isLowerHex

/-- A hash function with the output format of `sha256(..).hexdigest()`. -/
class Sha256 where
  /-- The digest of a byte string. -/
  hexdigest : ByteArray → String
  /-- A digest is 64 lower-case hexadecimal digits. -/
  isHexDigest_hexdigest : ∀ bytes, isHexDigest (hexdigest bytes) = true

/-- The hash function does not collide on two byte strings, if both are there. -/
def Sha256.NoCollision [Sha256] {ε : Type} (x x' : Except ε ByteArray) : Prop :=
  ∀ bytes bytes', x = .ok bytes → x' = .ok bytes' →
    Sha256.hexdigest bytes = Sha256.hexdigest bytes' → bytes = bytes'
