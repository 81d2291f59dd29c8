import StateWeaver.Bridge.CheckpointShards

/-!
# The store over six providers

A checkpoint is staged at every provider in turn, and what was created is rolled back if a step fails. A
compare-and-swap of the pointer makes a generation active after all six shards were observed. A store
that meets anything unexpected is poisoned.
-/

namespace StateWeaver.Bridge

open Py (Text text)
open Requests.Action (lift raise onError attempt)

/-- `ProviderCheckpointObservation`. -/
structure Observation where
  provider : Provider
  generation : Text
  checkpointDigest : Text
  storageDigest : Text
  deriving DecidableEq

/-- `ProviderCheckpointCapture`. -/
structure Capture where
  generation : Text
  checkpointDigest : Text
  checkpointBytes : ByteArray
  observations : List Observation
  deriving DecidableEq

namespace RealProviderLabStateStore

def storePoisoned : Exc := .poisoned "checkpoint-store-poisoned"

/-- `_require_healthy`. -/
def requireHealthy : Call Unit := do
  let poisoned ← ask .getPoisoned
  require (poisoned = false) storePoisoned

/-- `_poison`. -/
def poison {α : Type} : Call α := do
  ask .setPoisoned
  raise storePoisoned

/-- Poison the store unless a condition holds. -/
def poisonUnless (c : Prop) [Decidable c] : Call Unit := if c then pure () else poison

variable [Sha256]

/-- Read the shard of a generation at one provider and check it. -/
def observe (p : Provider) (generation : Text) : Call (ByteArray × Text × Text) :=
  onError
    (do
      match ← checkpointReader p generation with
      | none => poison
      | some observed => lift (validateCheckpointBytes observed))
    fun e => if e.isPoisoned then raise e else poison

/-- The loop of `capture`, with `expected` and `checkpoint_digest` once they are known. -/
def captureFrom (generation : Text) :
    List Provider → Option (ByteArray × Text) → List Observation → Call Capture
  | [], none, _ => raise (.other "AssertionError")
  | [], some (raw, digest), observations => return ⟨generation, digest, raw, observations⟩
  | p :: rest, expected, observations => do
      let (raw, observedGeneration, observedDigest) ← observe p generation
      poisonUnless (observedGeneration = generation)
      poisonUnless (∀ first ∈ expected, (raw, observedDigest) = first)
      captureFrom generation rest (some (raw, observedDigest))
        (observations ++ [⟨p, generation, observedDigest, checkpointHash raw⟩])

/-- `capture`. -/
def capture (generation : Text) : Call Capture := do
  requireHealthy
  require (isGeneration generation = true) (.checkpoint "checkpoint-generation-invalid")
  captureFrom generation checkpointProviders none []

/-- The loop of `stage`, with the list `created`: what was created, and how the loop ended. -/
def stageFrom (raw : ByteArray) (generation digest : Text) :
    List Provider → List Provider → Call (List Provider × Except Exc Unit)
  | [], created => return (created, .ok ())
  | p :: rest, created => do
      match ← attempt (checkpointReader p generation) with
      | .error e => return (created, .error e)
      | .ok existing =>
          match ← attempt (checkpointStager p raw generation digest) with
          | .ok wasCreated =>
              stageFrom raw generation digest rest (if wasCreated then created ++ [p] else created)
          | .error e =>
              return (if existing.isNone && !e.isUnowned then created ++ [p] else created, .error e)

/-- The rollback of `stage`: delete each shard and look whether it is gone; failures are passed over. -/
def rollback (generation : Text) : List Provider → Call Unit
  | [] => return ()
  | p :: rest => do
      let _ ← attempt do
        checkpointDeleter p generation
        checkpointReader p generation
      rollback generation rest

/-- `stage`. -/
def stage (checkpoint : ByteArray) : Call Capture := do
  requireHealthy
  let (raw, generation, digest) ← lift (validateCheckpointBytes checkpoint)
  let (created, result) ← stageFrom raw generation digest checkpointProviders []
  let outcome ← attempt do
    lift result
    capture generation
  match outcome with
  | .ok captured => return captured
  | .error _ => do
      rollback generation created.reverse
      poison

/-- `load_active`. -/
def loadActive : Call Capture := do
  requireHealthy
  match ← checkpointPgActive with
  | none => raise (.checkpoint "checkpoint-active-generation-absent")
  | some generation => capture generation

/-- `compare_and_swap`. -/
def compareAndSwap (expected : Option Text) (next : Text) : Call Capture := do
  requireHealthy
  require (∀ generation ∈ expected, isGeneration generation = true)
    (.checkpoint "checkpoint-generation-invalid")
  require (isGeneration next = true) (.checkpoint "checkpoint-generation-invalid")
  let _ ← capture next
  checkpointPgCas expected next
  let active ← onError loadActive fun e => if e.isConflict then raise e else poison
  poisonUnless (active.generation = next)
  return active

end RealProviderLabStateStore

/-- A call of the store. -/
inductive StoreCall where
  | stage (checkpoint : ByteArray)
  | capture (generation : Text)
  | loadActive
  | compareAndSwap (expected : Option Text) (next : Text)

def StoreCall.action [Sha256] : StoreCall → Call Capture
  | .stage checkpoint => RealProviderLabStateStore.stage checkpoint
  | .capture generation => RealProviderLabStateStore.capture generation
  | .loadActive => RealProviderLabStateStore.loadActive
  | .compareAndSwap expected next => RealProviderLabStateStore.compareAndSwap expected next

end StateWeaver.Bridge
