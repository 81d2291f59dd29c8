import StateWeaver.StateBridge.Archive

/-!
# Commands of the synthetic state bridge

Components are committed by writing the six files of their generation, reading them back, and replacing the
pointer to the active generation.
-/

namespace StateWeaver.StateBridge

open CrashFiles Requests
open Py (Text Tree text)

abbrev Code (α : Type) := CrashFiles.Code Path Failure α

/-! ## Functions -/

/-- `_write_bytes`. Directories are there, so they are not made. -/
def writeBytes (path : Path) (value : ByteArray) : Code Unit := writeReplacing (stagedPath path) path value

/-- `_write_object`. -/
def writeObject (path : Path) (value : Tree) : Code Unit := do
  writeBytes path (← Action.lift (canonical value))

def readBytes (path : Path) : Code ByteArray := Action.request (Request.read path)

/-- The first loop of `_commit_components`. -/
def writeComponents (generation : String) (components : Components) : List (Text × Path) → Code Unit
  | [] => pure ()
  | (name, path) :: rest => do
      let value ← Action.lift (item components name)
      writeObject (generationPath path generation) value
      writeComponents generation components rest

/-- The second loop of `_commit_components`. -/
def verifyComponents (generation : String) (components : Components) : List (Text × Path) → Code Unit
  | [] => pure ()
  | (name, path) :: rest => do
      let raw ← readBytes (generationPath path generation)
      let restored ← Action.lift (parse raw)
      let value ← Action.lift (item components name)
      let _ ← Action.lift (Imp.require (Py.equal restored value = true)
        (Failure.value "staged state generation failed identity verification"))
      verifyComponents generation components rest

/-- `_read_generation`. -/
def readGeneration : Code String := do
  let raw ← readBytes activeGenerationPath
  Action.lift (generationOf raw)

/-- The loop of `_read_components`. -/
def readAll (generation : String) : List (Text × Path) → Code Components
  | [] => pure []
  | (name, path) :: rest => do
      let raw ← readBytes (generationPath path generation)
      let value ← Action.lift (parse raw)
      let _ ← Action.lift (Imp.require (isObject value = true)
        (Failure.value "component state must be a JSON object"))
      let others ← readAll generation rest
      pure ((name, value) :: others)

/-- `_read_components`. -/
def readComponents : Code Components := do
  let generation ← readGeneration
  readAll generation componentPaths

inductive Command where
  | serve
  | health
  | export_
  /-- `import`, with what is on standard input. -/
  | import_ (stdin : ByteArray)

variable [Sha256]

/-- The digest that names a generation. -/
def generationDigest (components : Components) : Except Failure String := do
  return Sha256.hexdigest (← canonical (.obj components))

/-- `_commit_components`. -/
def commitComponents (components : Components) : Code String := do
  let generation ← Action.lift (generationDigest components)
  writeComponents generation components componentPaths
  verifyComponents generation components componentPaths
  writeBytes activeGenerationPath (pointerBytes generation)
  pure generation

/-- `_initialize`. -/
def initialize_ : Code Unit := do
  let present ← (Action.request (Request.exists_ activeGenerationPath) : Code Bool)
  if present = true then
    let _ ← readComponents
    pure ()
  else
    let _ ← commitComponents seed
    pure ()

def healthyReply : ByteArray := Py.encode "\x7b\"healthy\":true\x7d\n".toList

def acceptedReply : ByteArray := Py.encode "\x7b\"accepted\":true,\"schema_version\":\"1.0\"\x7d\n".toList

/-- `_export`. -/
def exportArchive : Code ByteArray := do
  initialize_
  let components ← readComponents
  let bytes ← Action.lift (canonical (archive components))
  pure (bytes ++ Py.encode ['\n'])

/-- `_import`. -/
def importArchive (stdin : ByteArray) : Code ByteArray := do
  initialize_
  let value ← Action.lift (parseInput stdin)
  let components ← Action.lift (validateArchive value)
  let _ ← commitComponents components
  pure acceptedReply

/-- `main`: what a command writes to standard output. Once it is initialized, `serve` only waits. -/
def main : Command → Code ByteArray
  | .serve => do
      initialize_
      pure .empty
  | .health => do
      initialize_
      let _ ← readComponents
      pure healthyReply
  | .export_ => exportArchive
  | .import_ stdin => importArchive stdin

end StateWeaver.StateBridge
