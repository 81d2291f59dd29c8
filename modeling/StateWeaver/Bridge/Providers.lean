import Mathlib
import StateWeaver.Bridge.CheckpointBytes
import StateWeaver.Lib.Base64
import StateWeaver.Lib.Requests

/-!
# The providers of checkpoints

Six providers hold the shards of a generation: a row of PostgreSQL, a key of Redis, a queue of RabbitMQ
with one message, and a file for the session, one for the files and one for the clock. PostgreSQL also
holds the pointer to the active generation, which refers to a row. A request is answered truthfully, or
it raises before or after it has taken effect.
-/

namespace StateWeaver.Bridge

open Py (Text text)

/-! ## Shards -/

/-- A directory of shards: `_CHECKPOINT_SESSION_PATH`, `_CHECKPOINT_FILES_PATH` and
`_CHECKPOINT_CLOCK_PATH`. -/
inductive Directory where
  | session | files | clock
  deriving DecidableEq

inductive Provider where
  | postgres | redis | rabbitmq
  | directory (d : Directory)
  deriving DecidableEq

/-- `_CHECKPOINT_PROVIDERS`. -/
def checkpointProviders : List Provider :=
  [.postgres, .redis, .rabbitmq, .directory .session, .directory .files, .directory .clock]

theorem mem_checkpointProviders (p : Provider) : p ∈ checkpointProviders := by
  rcases p with _ | _ | _ | _ | _ | _ <;> decide

/-- A row of `sw_lab_checkpoint`. -/
structure Row where
  checkpointDigest : Text
  storageDigest : Text
  checkpointBase64 : Text

/-- What a provider holds for a generation. The payloads of a queue are those that its messages have. -/
@[reducible]
def Content : Provider → Type
  | .postgres => Row
  | .redis => Text
  | .rabbitmq => List Text
  | .directory _ => ByteArray

/-- The local storage of the browser sessions. -/
structure Browser where
  nextSession : ℕ
  items : ℕ → Text → Option Text

/-- What all providers hold. -/
structure World where
  shards : (p : Provider) → Text → Option (Content p)
  activeGeneration : Option Text
  browser : Browser

namespace World

def empty : World := ⟨fun _ _ => none, none, ⟨0, fun _ _ => none⟩⟩

/-- Put or remove the shard of a generation. -/
def setShard (w : World) (p : Provider) (generation : Text) (content : Option (Content p)) : World :=
  { w with shards := Function.update w.shards p (Function.update (w.shards p) generation content) }

variable {w : World} {p p' : Provider} {generation generation' : Text} {content : Option (Content p)}

@[simp]
theorem setShard_self : (w.setShard p generation content).shards p generation = content := by
  change Function.update w.shards p _ p generation = content
  rw [Function.update_self, Function.update_self]

theorem setShard_of_ne (h : (p', generation') ≠ (p, generation)) :
    (w.setShard p generation content).shards p' generation' = w.shards p' generation' := by
  change Function.update w.shards p _ p' generation' = w.shards p' generation'
  by_cases hp : p' = p
  · subst hp
    rw [Function.update_self, Function.update_of_ne fun hg => h (congrArg _ hg)]
  · rw [Function.update_of_ne hp]

@[simp]
theorem setShard_activeGeneration :
    (w.setShard p generation content).activeGeneration = w.activeGeneration := rfl

@[simp]
theorem setShard_browser : (w.setShard p generation content).browser = w.browser := rfl

end World

/-! ## Requests -/

/-- What `_postgres_query` returns. -/
abbrev Rows := List (List (Option Text))

/-- A request to a provider, or an access to the flag of the store. -/
inductive Request where
  | getPoisoned
  | setPoisoned
  | selectCheckpoint (generation : Text)
  | insertCheckpoint (generation : Text) (row : Row)
  | deleteCheckpoint (generation : Text)
  | selectActive
  | updateActive (expected : Option Text) (next : Text)
  | redisGet (generation : Text)
  /-- `SET` with `NX`. -/
  | redisSet (generation : Text) (value : Text)
  | redisDel (generation : Text)
  | getQueue (generation : Text)
  | getMessages (generation : Text)
  | putQueue (generation : Text)
  | publish (generation : Text) (payload : Text)
  | deleteQueue (generation : Text)
  | newSession
  | openPage (session : ℕ)
  | setItem (session : ℕ) (key value : Text)
  | getItem (session : ℕ) (key : Text)
  | removeItem (session : ℕ) (key : Text)
  | deleteSession (session : ℕ)
  | readFile (d : Directory) (generation : Text)
  | makeDirectory (d : Directory)
  /-- Open a new file and write it. -/
  | createFile (d : Directory) (generation : Text) (raw : ByteArray)
  | unlink (d : Directory) (generation : Text)

/-- The answers of a request. Where a status says which of two things happened, the answer is whether it
is the first: the queue is there (200, not 404), the queue was declared (201, not 204) or deleted (204,
not 404), the file was created (not `FileExistsError`) or removed (not `FileNotFoundError`). -/
@[reducible]
def Answer : Request → Type
  | .getPoisoned => Bool
  | .setPoisoned => Unit
  | .selectCheckpoint _ | .insertCheckpoint _ _ | .deleteCheckpoint _ | .selectActive
  | .updateActive _ _ => Rows
  | .redisGet _ | .redisSet _ _ => Option Text
  | .redisDel _ => ℕ
  | .getQueue _ | .putQueue _ | .publish _ _ | .deleteQueue _ => Bool
  | .getMessages _ => List Text
  | .newSession => ℕ
  | .openPage _ | .removeItem _ _ | .deleteSession _ => Unit
  | .setItem _ _ _ => Bool
  | .getItem _ _ => Option Text
  | .readFile _ _ => Option ByteArray
  | .makeDirectory _ => Unit
  | .createFile _ _ _ | .unlink _ _ => Bool

/-- What a request changes. -/
inductive Effect where
  | nothing
  /-- Hold a shard, if there is none. -/
  | create (p : Provider) (generation : Text) (content : Content p)
  | erase (p : Provider) (generation : Text)
  /-- Append a message to a queue, if it is there. -/
  | enqueue (generation : Text) (payload : Text)
  | activate (expected : Option Text) (next : Text)
  | browse (change : Browser → Browser)

namespace Request

def effect : Request → Effect
  | .insertCheckpoint generation row => .create .postgres generation row
  | .deleteCheckpoint generation => .erase .postgres generation
  | .updateActive expected next => .activate expected next
  | .redisSet generation value => .create .redis generation value
  | .redisDel generation => .erase .redis generation
  | .putQueue generation => .create .rabbitmq generation []
  | .publish generation payload => .enqueue generation payload
  | .deleteQueue generation => .erase .rabbitmq generation
  | .newSession => .browse fun b =>
      ⟨b.nextSession + 1, Function.update b.items b.nextSession fun _ => none⟩
  | .setItem session key value => .browse fun b =>
      { b with items := Function.update b.items session (Function.update (b.items session) key value) }
  | .removeItem session key => .browse fun b =>
      { b with items := Function.update b.items session (Function.update (b.items session) key none) }
  | .createFile d generation raw => .create (.directory d) generation raw
  | .unlink d generation => .erase (.directory d) generation
  | _ => .nothing

/-- What a request that raises has changed: a file may be cut off. -/
def interrupted (written : ℕ) : Request → Effect
  | .createFile d generation raw => .create (.directory d) generation (raw.extract 0 written)
  | r => r.effect

end Request

namespace World

/-- The row of the active generation cannot be deleted, since the pointer refers to it. -/
def protects (w : World) (p : Provider) (generation : Text) : Bool :=
  p = .postgres && w.activeGeneration = some generation

theorem eq_of_protects {w : World} {p : Provider} {generation : Text}
    (h : w.protects p generation = true) : p = .postgres :=
  of_decide_eq_true (Bool.and_eq_true_iff.mp h).1

/-- Whether the compare-and-swap of the pointer finds what it expects. -/
def swaps (w : World) (expected : Option Text) (next : Text) : Bool :=
  w.activeGeneration = expected && (w.shards .postgres next).isSome

def apply (w : World) : Effect → World
  | .nothing => w
  | .create p generation content =>
      if (w.shards p generation).isSome then w else w.setShard p generation (some content)
  | .erase p generation => if w.protects p generation then w else w.setShard p generation none
  | .enqueue generation payload =>
      match w.shards .rabbitmq generation with
      | none => w
      | some messages => w.setShard .rabbitmq generation (some (messages ++ [payload]))
  | .activate expected next =>
      if w.swaps expected next then { w with activeGeneration := some next } else w
  | .browse change => { w with browser := change w.browser }

/-- The longest payload that RabbitMQ returns whole. -/
def truncation : ℕ := 174764

/-- The truthful answer to a request. -/
def answer (w : World) : (r : Request) → Except Exc (Answer r)
  | .getPoisoned => .ok false
  | .setPoisoned => .ok ()
  | .selectCheckpoint generation =>
      .ok ((w.shards .postgres generation).toList.map fun row => [some row.checkpointBase64])
  | .insertCheckpoint generation _ =>
      .ok (if (w.shards .postgres generation).isSome then [] else [[some generation]])
  | .deleteCheckpoint generation =>
      if w.protects .postgres generation then
        .error (.bridge "PostgreSQL rejected the fixed query")
      else .ok []
  | .selectActive => .ok [[w.activeGeneration]]
  | .updateActive expected next => .ok (if w.swaps expected next then [[some next]] else [])
  | .redisGet generation => .ok (w.shards .redis generation)
  | .redisSet generation _ =>
      .ok (if (w.shards .redis generation).isSome then none else some (text "OK"))
  | .redisDel generation => .ok (w.shards .redis generation).toList.length
  | .getQueue generation => .ok (w.shards .rabbitmq generation).isSome
  | .getMessages generation =>
      match w.shards .rabbitmq generation with
      | none => .error (.bridge "provider HTTP request failed")
      | some messages => .ok ((messages.take 2).map fun payload => payload.take truncation)
  | .putQueue generation => .ok (!(w.shards .rabbitmq generation).isSome)
  | .publish generation _ => .ok (w.shards .rabbitmq generation).isSome
  | .deleteQueue generation => .ok (w.shards .rabbitmq generation).isSome
  | .newSession => .ok w.browser.nextSession
  | .openPage _ => .ok ()
  | .setItem _ _ _ => .ok true
  | .getItem session key => .ok (w.browser.items session key)
  | .removeItem _ _ => .ok ()
  | .deleteSession _ => .ok ()
  | .readFile d generation => .ok (w.shards (.directory d) generation)
  | .makeDirectory _ => .ok ()
  | .createFile d generation _ => .ok (!(w.shards (.directory d) generation).isSome)
  | .unlink d generation => .ok (w.shards (.directory d) generation).isSome

end World

/-! ## Failures -/

/-- What a request to a provider raises. -/
inductive Fault where
  | bridge (message : String)
  /-- Another exception, by the name of its class. -/
  | other (name : String)

def Fault.exc : Fault → Exc
  | .bridge message => .bridge message
  | .other name => .other name

/-- How a request ends. -/
inductive Outcome where
  | answered
  /-- It raises and has changed nothing. -/
  | before (fault : Fault)
  /-- It raises and has taken effect; of a file only some bytes may be written. -/
  | after (written : ℕ) (fault : Fault)

/-- One request to the providers. -/
def World.perform (w : World) (r : Request) : Outcome → Except Exc (Answer r) × World
  | .answered => (w.answer r, w.apply r.effect)
  | .before fault => (.error fault.exc, w)
  | .after written fault => (.error fault.exc, w.apply (r.interrupted written))

end StateWeaver.Bridge
