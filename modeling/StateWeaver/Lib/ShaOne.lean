import StateWeaver.Lib.Git
import StateWeaver.Lib.Sha2

/-!
# SHA-1

The hash function itself, on words as natural numbers below `2 ^ 32`, for examples with real digests. Its messages
are padded like those of SHA-256.
-/

namespace ShaOne

open Sha2 (evaluated evaluatedList choose majority)

def rotateLeft (x n : ℕ) : ℕ := (x <<< n) % 2 ^ 32 ||| (x >>> (32 - n))

def parity (x y z : ℕ) : ℕ := (x ^^^ y) ^^^ z

/-- The function and the constant of each round. -/
def constants : List ((ℕ → ℕ → ℕ → ℕ) × ℕ) :=
  List.replicate 20 (choose, 0x5a827999) ++ List.replicate 20 (parity, 0x6ed9eba1) ++
    List.replicate 20 (majority, 0x8f1bbcdc) ++ List.replicate 20 (parity, 0xca62c1d6)

structure State where
  a : ℕ
  b : ℕ
  c : ℕ
  d : ℕ
  e : ℕ

def initial : State := ⟨0x67452301, 0xefcdab89, 0x98badcfe, 0x10325476, 0xc3d2e1f0⟩

/-- `n` more words of the schedule, on top of the earlier words, the last one first. -/
def schedule : ℕ → List ℕ → List ℕ
  | 0, words => words
  | n + 1, words =>
      evaluated (rotateLeft (parity (words.getD 2 0) (words.getD 7 0) (words.getD 13 0) ^^^ words.getD 15 0) 1)
        fun word => schedule n (word :: words)

def rounds : List (((ℕ → ℕ → ℕ → ℕ) × ℕ) × ℕ) → State → State
  | [], s => s
  | ((f, k), word) :: rest, ⟨a, b, c, d, e⟩ =>
      evaluated ((rotateLeft a 5 + f b c d + e + k + word) % 2 ^ 32) fun first =>
        evaluated (rotateLeft b 30) fun third => rounds rest ⟨first, a, third, c, d⟩

def State.add : State → State → State
  | ⟨a, b, c, d, e⟩, ⟨a', b', c', d', e'⟩ =>
      evaluated ((a + a') % 2 ^ 32) fun a => evaluated ((b + b') % 2 ^ 32) fun b =>
        evaluated ((c + c') % 2 ^ 32) fun c => evaluated ((d + d') % 2 ^ 32) fun d =>
          evaluated ((e + e') % 2 ^ 32) fun e => ⟨a, b, c, d, e⟩

/-- One block of 16 words. -/
def compress (s : State) (block : List ℕ) : State :=
  s.add (rounds (constants.zip (schedule 64 block.reverse).reverse) s)

/-- Compress the first `n` blocks. -/
def blocks : ℕ → State → List ℕ → State
  | 0, s, _ => s
  | n + 1, ⟨a, b, c, d, e⟩, message =>
      evaluatedList (message.take 16) fun block => blocks n (compress ⟨a, b, c, d, e⟩ block) (message.drop 16)

def hash (message : List ℕ) : List ℕ :=
  evaluatedList message fun message =>
    evaluatedList (Sha2.padded message) fun padded =>
      match blocks ((message.length + 72) / 64) initial padded with
      | ⟨a, b, c, d, e⟩ => [a, b, c, d, e]

def digest (message : List UInt8) : List UInt8 :=
  (hash (message.map UInt8.toNat)).flatMap fun word => (Sha2.bigEndian 4 word).map UInt8.ofNat

example : Git.hex (digest (Git.ascii "abc".toList)) = "a9993e364706816aba3e25717850c26c9cd0d89d".toList := by
  decide +kernel

theorem length_digest (message : List UInt8) : (digest message).length = 20 := by
  rw [digest, hash, Sha2.evaluatedList_eq, Sha2.evaluatedList_eq]
  rfl

/-- SHA-1 as a hash function for Git. -/
@[reducible] def sha1 : Git.Sha1 := ⟨digest, length_digest⟩

end ShaOne
