import StateWeaver.Lab.ProviderCheckpoint
import StateWeaver.Lib.Dict
import StateWeaver.Lib.Imperative
import StateWeaver.Lib.Machine

/-!
# The in-memory store of checkpoints

Checkpoints are staged under their names, and a compare-and-swap makes one of them active. Every call
holds the lock of the store, except that `commit` gives it up between staging and swapping, so clients
interleave between calls and inside commits. A staged shard decodes to a checkpoint of its name, the
active name is staged, and a poisoned store stays as it is.
-/

namespace StateWeaver.Lab

open Py (Text)

/-- `_StoredGeneration`. -/
structure StoredGeneration where
  bytes : ByteArray
  digest : Text
  deriving DecidableEq

/-- `InMemoryLabStateStore`. -/
structure LabStateStore where
  staged : Dict Text StoredGeneration
  activeGeneration : Option Text
  poisoned : Bool

/-- A method of the store, under its lock. -/
abbrev StoreM := Imp LabStateStore Exc

namespace LabStateStore

variable [Sha256]

def empty : LabStateStore := ⟨.empty, none, false⟩

/-- `_require_healthy`. -/
def requireHealthy : StoreM Unit := do
  let s ← get
  Imp.lift (Imp.require (s.poisoned = false) (.poisoned "checkpoint store is poisoned"))

/-- `_poison`, if the condition does not hold. -/
def poisonUnless (c : Bool) (message : String) : StoreM Unit :=
  if c then pure ()
  else do
    modify fun s => { s with poisoned := true }
    throw (.poisoned message)

/-- `restored != checkpoint`, negated. -/
def sameFields (restored checkpoint : CheckpointFields) : Bool :=
  restored.generation = checkpoint.generation && restored.mode = checkpoint.mode &&
    Py.equal (.obj restored.state.entries) (.obj checkpoint.state.entries) &&
      restored.stateFingerprint = checkpoint.stateFingerprint &&
        restored.checkpointDigest = checkpoint.checkpointDigest

/-- `stage`. -/
def stage (checkpoint : CheckpointFields) : StoreM Unit := do
  requireHealthy
  let raw ← Imp.lift checkpoint.canonicalBytes
  let restored ← Imp.lift (fromCanonicalBytes raw)
  poisonUnless (sameFields restored.toCheckpointFields checkpoint)
    "staged checkpoint failed identity verification"
  let s ← get
  let stored : StoredGeneration := ⟨raw, checkpoint.checkpointDigest⟩
  poisonUnless (∀ existing ∈ s.staged.get? checkpoint.generation, existing = stored)
    "generation collision has inconsistent checkpoint bytes"
  modify fun s => { s with staged := s.staged.insert checkpoint.generation stored }

/-- `except CheckpointError`: poison the store for an invalid shard. -/
def poisonInvalid (message : String) : Exc → StoreM LabStateCheckpoint
  | .checkpoint _ | .conflict _ | .poisoned _ => do
      modify fun s => { s with poisoned := true }
      throw (.poisoned message)
  | e => throw e

/-- The shard of the active generation. -/
def activeShard (generation : Text) : StoreM StoredGeneration := do
  let s ← get
  match s.staged.get? generation with
  | some stored => pure stored
  | none => do
      modify fun s => { s with poisoned := true }
      throw (.poisoned "active generation is missing its sealed shard")

/-- `load_active`. -/
def loadActive : StoreM LabStateCheckpoint := do
  requireHealthy
  let s ← get
  match s.activeGeneration with
  | none => throw (.checkpoint "active generation is absent")
  | some generation => do
      let stored ← activeShard generation
      let checkpoint ← Imp.onError (Imp.lift (fromCanonicalBytes stored.bytes))
        (poisonInvalid "active generation sealed shard is invalid")
      poisonUnless (checkpoint.generation = generation && checkpoint.checkpointDigest = stored.digest)
        "active generation does not bind its sealed shard"
      return checkpoint

/-- `compare_and_swap`. -/
def compareAndSwap (expectedGeneration : Option Text) (nextGeneration : Text) :
    StoreM LabStateCheckpoint := do
  requireHealthy
  Imp.lift (Imp.require (isHexText nextGeneration = true) (.checkpoint "next generation is invalid"))
  let s ← get
  Imp.lift (Imp.require (s.activeGeneration = expectedGeneration)
    (.conflict "active generation compare-and-swap failed"))
  poisonUnless (s.staged.contains nextGeneration) "next active generation is missing its sealed shard"
  modify fun s => { s with activeGeneration := some nextGeneration }
  loadActive

end LabStateStore

/-! ## Clients -/

/-- A call of a client. -/
inductive Call [Sha256] where
  | stage (checkpoint : CheckpointFields)
  | compareAndSwap (expectedGeneration : Option Text) (nextGeneration : Text)
  | loadActive
  /-- `commit` up to the end of staging, with what `export_checkpoint` returned or raised. -/
  | commit (exported : Except Exc LabStateCheckpoint) (expectedGeneration : Option Text)
  /-- The compare-and-swap at the end of a commit. -/
  | resume

/-- The store and the commits that have staged and not yet swapped. -/
structure System (Client : Type) where
  store : LabStateStore
  commits : Client → Option (Option Text × Text)

/-- What a call returned or raised. `stage` returns nothing, and neither does a commit that staged. -/
abbrev Result [Sha256] := Except Exc (Option LabStateCheckpoint)

section

variable [Sha256] {Client : Type} [DecidableEq Client]

/-- The result of a method and the store it left. -/
def ending {α : Type} (returned : α → Option LabStateCheckpoint) :
    EStateM.Result Exc LabStateStore α → Result × LabStateStore
  | .ok a s => (.ok (returned a), s)
  | .error e s => (.error e, s)

namespace System

/-- Staging at the start of a commit. -/
def commit (s : System Client) (client : Client) (expectedGeneration : Option Text)
    (checkpoint : LabStateCheckpoint) : Result × System Client :=
  match LabStateStore.stage checkpoint.toCheckpointFields s.store with
  | .ok () store =>
      (.ok none, ⟨store, Function.update s.commits client
        (some (expectedGeneration, checkpoint.generation))⟩)
  | .error e store => (.error e, { s with store := store })

/-- One step: a client calls a method, or goes on with its commit. -/
def step (s : System Client) : Client × Call → Option (Result × System Client)
  | (client, call) =>
      match call, s.commits client with
      | .stage checkpoint, none =>
          let (result, store) := ending (fun _ => none) (LabStateStore.stage checkpoint s.store)
          some (result, { s with store := store })
      | .compareAndSwap expectedGeneration nextGeneration, none =>
          let (result, store) := ending some
            (LabStateStore.compareAndSwap expectedGeneration nextGeneration s.store)
          some (result, { s with store := store })
      | .loadActive, none =>
          let (result, store) := ending some (LabStateStore.loadActive s.store)
          some (result, { s with store := store })
      | .commit (.error e) _, none => some (.error e, s)
      | .commit (.ok checkpoint) expectedGeneration, none =>
          some (s.commit client expectedGeneration checkpoint)
      | .resume, some (expectedGeneration, nextGeneration) =>
          let (result, store) := ending some
            (LabStateStore.compareAndSwap expectedGeneration nextGeneration s.store)
          some (result, ⟨store, Function.update s.commits client none⟩)
      | _, _ => none

def machine : Machine (System Client) (Client × Call) Result := ⟨step⟩

/-- `__init__`, with the checkpoint that becomes active at once, if there is one. -/
def create (initial : Option CheckpointFields) : Except Exc (System Client) :=
  match initial with
  | none => .ok ⟨.empty, fun _ => none⟩
  | some checkpoint =>
      match (do
          LabStateStore.stage checkpoint
          LabStateStore.compareAndSwap none checkpoint.generation) LabStateStore.empty with
      | .ok _ store => .ok ⟨store, fun _ => none⟩
      | .error e _ => .error e

/-- The states that a store and its clients can get to. -/
def Reachable (s : System Client) : Prop :=
  ∃ initial start, create initial = .ok start ∧ machine.Reaches Machine.anyStep start s

end System

end

end StateWeaver.Lab
