import StateWeaver.Candidate.Markers
import StateWeaver.Lib.ByteLines

/-!
# Bounds of a lockfile

Before the decoder sees a lockfile, its brackets, strings and bare tokens are counted byte by byte, and its lines are
measured.
-/

namespace StateWeaver.Candidate

/-! ## Limits -/

def maxLockfileBytes : ℕ := 16 * 1024 * 1024
def maxTomlLines : ℕ := 200000
def maxTomlLineBytes : ℕ := 64 * 1024
def maxTomlTokens : ℕ := 500000
def maxTomlTables : ℕ := 20000
def maxTomlDepth : ℕ := 64
def maxTomlKeyBytes : ℕ := 1024
def maxTomlStringBytes : ℕ := 2 * 1024 * 1024
def maxTomlNumberBytes : ℕ := 1024

/-! ## The scanner -/

/-- Where the loop over the bytes is. -/
inductive TomlMode where
  /-- Between tokens. -/
  | plain
  /-- In a string after some of its bytes, the opening quote and the last byte among them. -/
  | string (quote : UInt8) (size : ℕ) (last : UInt8)
  | comment
  /-- In a number after some of its bytes. -/
  | number (size : ℕ)
  /-- In another token. -/
  | bare
  deriving DecidableEq

/-- The variables of the loop. -/
structure TomlScan where
  mode : TomlMode
  depth : ℕ
  tokens : ℕ
  deriving DecidableEq

/-- `b"0123456789_+-.eEoxabcdefABCDEF"`. -/
def isTomlNumberByte (b : UInt8) : Bool :=
  48 ≤ b && b ≤ 57 || 97 ≤ b && b ≤ 102 || 65 ≤ b && b ≤ 70 || [95, 43, 45, 46, 111, 120].contains b

/-- `b" \t\r\n,=[]\x7b\x7d#"`. -/
def endsBareToken (b : UInt8) : Bool := [32, 9, 13, 10, 44, 61, 91, 93, 123, 125, 35].contains b

/-- What a byte between two tokens starts. -/
def tomlPlainStep (scan : TomlScan) (b : UInt8) : Except Failure TomlScan :=
  if b = 34 ∨ b = 39 then .ok { scan with mode := .string b 1 b, tokens := scan.tokens + 1 }
  else if b = 35 then .ok { scan with mode := .comment }
  else if b = 91 ∨ b = 123 then
    if maxTomlDepth < scan.depth + 1 then .error lockfileInvalid
    else .ok { mode := .plain, depth := scan.depth + 1, tokens := scan.tokens + 1 }
  else if b = 93 ∨ b = 125 then
    if scan.depth = 0 then .error lockfileInvalid
    else .ok { scan with mode := .plain, depth := scan.depth - 1 }
  else if b = 43 ∨ b = 45 ∨ 48 ≤ b ∧ b ≤ 57 then .ok { scan with mode := .number 1, tokens := scan.tokens + 1 }
  else if [32, 9, 13, 10, 44, 61].contains b then .ok { scan with mode := .plain }
  else .ok { scan with mode := .bare, tokens := scan.tokens + 1 }

/-- What one byte does. A number and another token end before the byte that is none of theirs. -/
def tomlStep (scan : TomlScan) (b : UInt8) : Except Failure TomlScan :=
  match scan.mode with
  | .plain => tomlPlainStep scan b
  | .string quote size last =>
      if b = quote ∧ (quote = 39 ∨ last ≠ 92) then
        if maxTomlStringBytes < size then .error lockfileInvalid else .ok { scan with mode := .plain }
      else .ok { scan with mode := .string quote (size + 1) b }
  | .comment => .ok { scan with mode := if b = 10 then .plain else .comment }
  | .number size =>
      if isTomlNumberByte b then .ok { scan with mode := .number (size + 1) }
      else if maxTomlNumberBytes < size then .error lockfileInvalid
      else tomlPlainStep scan b
  | .bare => if endsBareToken b then tomlPlainStep scan b else .ok scan

/-- The end of the content. -/
def tomlEnd (scan : TomlScan) : Except Failure Unit :=
  match scan.mode with
  | .string _ _ _ => .error lockfileInvalid
  | .number size => Imp.require (size ≤ maxTomlNumberBytes ∧ scan.depth = 0 ∧ scan.tokens ≤ maxTomlTokens) lockfileInvalid
  | _ => Imp.require (scan.depth = 0 ∧ scan.tokens ≤ maxTomlTokens) lockfileInvalid

/-! ## Lines -/

/-- The loop over the lines, after some lines that look like those of tables. -/
def checkTomlLines : ℕ → List (List UInt8) → Except Failure Unit
  | _, [] => .ok ()
  | tables, line :: rest => do
      Imp.require (line.length ≤ maxTomlLineBytes) lockfileInvalid
      let stripped := Py.lstripBytes line
      if stripped.head? = some 91 then
        Imp.require (tables + 1 ≤ maxTomlTables ∧ stripped.length ≤ maxTomlKeyBytes) lockfileInvalid
        checkTomlLines (tables + 1) rest
      else if 61 ∈ stripped then
        let key := Py.stripBytes (stripped.takeWhile (· ≠ 61))
        Imp.require (key ≠ [] ∧ key.length ≤ maxTomlKeyBytes) lockfileInvalid
        checkTomlLines tables rest
      else checkTomlLines tables rest

/-- `preflight_toml_structure`. -/
def preflightTomlStructure (content : List UInt8) : Except Failure Unit := do
  Imp.require (content.length ≤ maxLockfileBytes) lockfileInvalid
  let lines := Py.splitLines content
  Imp.require (lines.length ≤ maxTomlLines) lockfileInvalid
  let scan ← content.foldlM tomlStep ⟨.plain, 0, 0⟩
  tomlEnd scan
  checkTomlLines 0 lines

end StateWeaver.Candidate
