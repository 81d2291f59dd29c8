import Mathlib
import StateWeaver.Lib.Sha256

/-!
# SHA-256

The hash function itself, on words as natural numbers below `2 ^ 32`, for examples with real digests.
-/

namespace Sha2

/-! ## Words -/

def rotateRight (x n : ℕ) : ℕ := (x >>> n) ||| (x <<< (32 - n)) % 2 ^ 32

def smallSigma (m n k x : ℕ) : ℕ := (rotateRight x m ^^^ rotateRight x n) ^^^ (x >>> k)

def bigSigma (m n k x : ℕ) : ℕ := (rotateRight x m ^^^ rotateRight x n) ^^^ rotateRight x k

def choose (x y z : ℕ) : ℕ := (x &&& y) ^^^ ((x ^^^ 0xffffffff) &&& z)

def majority (x y z : ℕ) : ℕ := ((x &&& y) ^^^ (x &&& z)) ^^^ (y &&& z)

def constants : List ℕ :=
  [0x428a2f98, 0x71374491, 0xb5c0fbcf, 0xe9b5dba5, 0x3956c25b, 0x59f111f1, 0x923f82a4, 0xab1c5ed5,
    0xd807aa98, 0x12835b01, 0x243185be, 0x550c7dc3, 0x72be5d74, 0x80deb1fe, 0x9bdc06a7, 0xc19bf174,
    0xe49b69c1, 0xefbe4786, 0x0fc19dc6, 0x240ca1cc, 0x2de92c6f, 0x4a7484aa, 0x5cb0a9dc, 0x76f988da,
    0x983e5152, 0xa831c66d, 0xb00327c8, 0xbf597fc7, 0xc6e00bf3, 0xd5a79147, 0x06ca6351, 0x14292967,
    0x27b70a85, 0x2e1b2138, 0x4d2c6dfc, 0x53380d13, 0x650a7354, 0x766a0abb, 0x81c2c92e, 0x92722c85,
    0xa2bfe8a1, 0xa81a664b, 0xc24b8b70, 0xc76c51a3, 0xd192e819, 0xd6990624, 0xf40e3585, 0x106aa070,
    0x19a4c116, 0x1e376c08, 0x2748774c, 0x34b0bcb5, 0x391c0cb3, 0x4ed8aa4a, 0x5b9cca4f, 0x682e6ff3,
    0x748f82ee, 0x78a5636f, 0x84c87814, 0x8cc70208, 0x90befffa, 0xa4506ceb, 0xbef9a3f7, 0xc67178f2]

/-! ## Compression -/

structure State where
  a : ℕ
  b : ℕ
  c : ℕ
  d : ℕ
  e : ℕ
  f : ℕ
  g : ℕ
  h : ℕ

def initial : State :=
  ⟨0x6a09e667, 0xbb67ae85, 0x3c6ef372, 0xa54ff53a, 0x510e527f, 0x9b05688c, 0x1f83d9ab, 0x5be0cd19⟩

/-- Call a function with a number that has been evaluated. -/
def evaluated {α : Type} (n : ℕ) (f : ℕ → α) : α := Nat.rec (f 0) (fun m _ => f m.succ) n

/-- Call a function with a list that has been evaluated. -/
def evaluatedList {α : Type} : List ℕ → (List ℕ → α) → α
  | [], f => f []
  | x :: l, f => evaluated x fun x => evaluatedList l fun l => f (x :: l)

/-- `n` more words of the schedule, on top of the earlier words, the last one first. -/
def schedule : ℕ → List ℕ → List ℕ
  | 0, words => words
  | n + 1, words =>
      evaluated ((smallSigma 17 19 10 (words.getD 1 0) + words.getD 6 0 +
        smallSigma 7 18 3 (words.getD 14 0) + words.getD 15 0) % 2 ^ 32) fun word =>
          schedule n (word :: words)

def rounds : List (ℕ × ℕ) → State → State
  | [], s => s
  | (k, word) :: rest, ⟨a, b, c, d, e, f, g, h⟩ =>
      evaluated ((h + bigSigma 6 11 25 e + choose e f g + k + word) % 2 ^ 32) fun first =>
        evaluated ((d + first) % 2 ^ 32) fun e' =>
          evaluated ((first + bigSigma 2 13 22 a + majority a b c) % 2 ^ 32) fun a' =>
            rounds rest ⟨a', a, b, c, e', e, f, g⟩

def add (x y : ℕ) (f : ℕ → State) : State := evaluated ((x + y) % 2 ^ 32) f

def State.add : State → State → State
  | ⟨a, b, c, d, e, f, g, h⟩, ⟨a', b', c', d', e', f', g', h'⟩ =>
      Sha2.add a a' fun a => Sha2.add b b' fun b => Sha2.add c c' fun c => Sha2.add d d' fun d =>
        Sha2.add e e' fun e => Sha2.add f f' fun f => Sha2.add g g' fun g => Sha2.add h h' fun h =>
          ⟨a, b, c, d, e, f, g, h⟩

/-- One block of 16 words. -/
def compress (s : State) (block : List ℕ) : State :=
  s.add (rounds (constants.zip (schedule 48 block.reverse).reverse) s)

/-! ## Messages -/

/-- The words of bytes, the first byte of each the highest. -/
def words : List ℕ → List ℕ
  | a :: b :: c :: d :: rest =>
      evaluated (((a * 256 + b) * 256 + c) * 256 + d) fun word => word :: words rest
  | _ => []

/-- The `n` lowest bytes of a number, the highest first. -/
def bigEndian : ℕ → ℕ → List ℕ
  | 0, _ => []
  | n + 1, x => x / 256 ^ n % 256 :: bigEndian n x

/-- A message with its length, as words of whole blocks. -/
def padded (message : List ℕ) : List ℕ :=
  evaluated message.length fun length =>
    words (message ++ 0x80 :: List.replicate ((119 - length % 64) % 64) 0 ++ bigEndian 8 (8 * length))

/-- Compress the first `n` blocks. -/
def blocks : ℕ → State → List ℕ → State
  | 0, s, _ => s
  | n + 1, ⟨a, b, c, d, e, f, g, h⟩, message =>
      evaluatedList (message.take 16) fun block =>
        blocks n (compress ⟨a, b, c, d, e, f, g, h⟩ block) (message.drop 16)

def hash (message : List ℕ) : List ℕ :=
  evaluatedList message fun message =>
    evaluatedList (padded message) fun padded =>
      match blocks ((message.length + 72) / 64) initial padded with
      | ⟨a, b, c, d, e, f, g, h⟩ => [a, b, c, d, e, f, g, h]

/-! ## Digests -/

def hexDigit (n : ℕ) : Char := "0123456789abcdef".toList.getD n '0'

/-- The `n` lowest hexadecimal digits of a number. -/
def hexDigits : ℕ → ℕ → List Char
  | 0, _ => []
  | n + 1, x => hexDigit (x / 16 ^ n % 16) :: hexDigits n x

def hexdigest (bytes : ByteArray) : String :=
  String.ofList ((hash (bytes.data.toList.map UInt8.toNat)).flatMap (hexDigits 8))

example : hexdigest "abc".toUTF8 = "ba7816bf8f01cfea414140de5dae2223b00361a396177a9cb410ff61f20015ad" := by
  decide +kernel

theorem evaluatedList_eq {α : Type} (l : List ℕ) (f : List ℕ → α) : evaluatedList l f = f l := by
  induction l generalizing f with
  | nil => rfl
  | cons x l ih =>
      rw [evaluatedList]
      cases x <;> exact ih _

theorem length_hash (message : List ℕ) : (hash message).length = 8 := by
  rw [hash, evaluatedList_eq, evaluatedList_eq]
  rfl

theorem length_hexDigits (n x : ℕ) : (hexDigits n x).length = n := by
  induction n with
  | zero => rfl
  | succ n ih => rw [hexDigits, List.length_cons, ih]

theorem isLowerHex_hexDigits (n x : ℕ) : ∀ c ∈ hexDigits n x, c.isLowerHex = true := by
  have hdigit : ∀ d < 16, (hexDigit d).isLowerHex = true := by decide
  induction n with
  | zero => exact nofun
  | succ n ih => exact List.forall_mem_cons.mpr ⟨hdigit _ (Nat.mod_lt _ (by decide)), ih⟩

theorem isHexDigest_hexdigest (bytes : ByteArray) : isHexDigest (hexdigest bytes) = true := by
  rw [isHexDigest, hexdigest, String.toList_ofList, Bool.and_eq_true, beq_iff_eq, List.all_eq_true]
  constructor
  · have hsum : ∀ l : List ℕ, (l.flatMap (hexDigits 8)).length = l.length * 8 := by
      intro l
      induction l with
      | nil => rfl
      | cons x l ih => rw [List.flatMap_cons, List.length_append, length_hexDigits, ih, List.length_cons,
          Nat.succ_mul, Nat.add_comm]
    rw [hsum, length_hash]
  · intro c hc
    obtain ⟨x, -, hx⟩ := List.mem_flatMap.mp hc
    exact isLowerHex_hexDigits 8 x c hx

/-- The digest of an ASCII text, computed from the codes of its characters. -/
def asciiDigest (text : List Char) : Option (List Char) :=
  evaluatedList (text.map Char.toNat) fun codes =>
    if ∀ code ∈ codes, code < 128 then some ((hash codes).flatMap (hexDigits 8)) else none

theorem map_toNat_toUTF8 {text : List Char} (h : ∀ c ∈ text, c.toNat < 128) :
    (String.ofList text).toUTF8.data.toList.map UInt8.toNat = text.map Char.toNat := by
  change text.utf8Encode.data.toList.map UInt8.toNat = text.map Char.toNat
  induction text with
  | nil => rw [List.utf8Encode_nil]; rfl
  | cons c text ih =>
      obtain ⟨hc, htext⟩ := List.forall_mem_cons.mp h
      have hsize : c.utf8Size = 1 := Char.utf8Size_eq_one_iff.mpr (Nat.le_of_lt_succ hc)
      have hcode : c.val.toUInt8.toNat = c.toNat := by
        rw [UInt32.toNat_toUInt8]
        exact Nat.mod_eq_of_lt (Nat.lt_trans hc (by decide))
      rw [List.utf8Encode_cons, List.utf8Encode_singleton, String.utf8EncodeChar_eq_singleton hsize,
        ByteArray.data_append, Array.toList_append, List.map_append, ih htext,
        List.toList_data_toByteArray, List.map_singleton, hcode, List.map_cons, List.singleton_append]

theorem hexdigest_of_asciiDigest {text digest : List Char} (h : asciiDigest text = some digest) :
    hexdigest (String.ofList text).toUTF8 = String.ofList digest := by
  rw [asciiDigest, evaluatedList_eq] at h
  split_ifs at h with hascii
  rw [← Option.some.inj h, hexdigest, map_toNat_toUTF8]
  exact fun c hc => hascii _ (List.mem_map_of_mem hc)

/-- The hash function with its output format. -/
@[reducible]
def sha256 : Sha256 := ⟨hexdigest, isHexDigest_hexdigest⟩

end Sha2
