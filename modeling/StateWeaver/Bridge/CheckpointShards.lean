import StateWeaver.Bridge.Providers

/-!
# Reading, staging and deleting shards

How the bridge reads, stages and deletes the shard of a generation at each provider. Staging reads back
what it wrote.
-/

namespace StateWeaver.Bridge

open Py (Text text)
open Requests.Action (lift raise onError attempt)

/-- Code that makes requests to the providers. -/
abbrev Call (α : Type) := Requests.Action Request Answer Exc α

/-- Make a request. -/
def ask (r : Request) : Call (Answer r) := Requests.Action.request r

/-- `isinstance(e, ProviderBridgeError)`. -/
def Exc.isBridgeError : Exc → Bool
  | .other _ => false
  | _ => true

/-- `isinstance(e, OSError)`. -/
def Exc.isOsError (e : Exc) : Bool := e = .other "OSError"

/-- `isinstance(e, ProviderCheckpointPoisonedError)`. -/
def Exc.isPoisoned : Exc → Bool
  | .poisoned _ => true
  | _ => false

/-- `isinstance(e, ProviderCheckpointConflictError)`. -/
def Exc.isConflict : Exc → Bool
  | .conflict _ => true
  | _ => false

/-- `isinstance(e, _ProviderCheckpointUnownedStageError)`. -/
def Exc.isUnowned : Exc → Bool
  | .unowned _ => true
  | _ => false

/-- Raise unless a condition holds. -/
def require (c : Prop) [Decidable c] (e : Exc) : Call Unit := lift (Imp.require c e)

/-- `_checkpoint_decoded`. -/
def checkpointDecoded : Option Text → Except Exc ByteArray
  | none => .error (.checkpoint "checkpoint-storage-invalid")
  | some value =>
      if 174764 < value.length then .error (.checkpoint "checkpoint-storage-invalid")
      else
        match Py.b64decode value with
        | some raw => .ok raw
        | none => .error (.checkpoint "checkpoint-storage-invalid")

/-! ## PostgreSQL -/

/-- `_checkpoint_pg_read`. -/
def checkpointPgRead (generation : Text) : Call (Option ByteArray) := do
  let rows ← ask (.selectCheckpoint generation)
  match rows with
  | [] => return none
  | [[some value]] => return some (← lift (checkpointDecoded (some value)))
  | _ => raise (.checkpoint "checkpoint-postgres-invalid")

/-- `_checkpoint_pg_stage`. -/
def checkpointPgStage [Sha256] (raw : ByteArray) (generation digest : Text) : Call Bool := do
  let rows ← ask (.insertCheckpoint generation ⟨digest, checkpointHash raw, Py.b64encode raw⟩)
  require (rows = [] ∨ rows = [[some generation]]) (.checkpoint "checkpoint-postgres-invalid")
  let observed ← checkpointPgRead generation
  require (observed = some raw) (.checkpoint "checkpoint-postgres-readback-failed")
  return !rows.isEmpty

/-- `_checkpoint_pg_delete`. -/
def checkpointPgDelete (generation : Text) : Call Unit := do
  let _ ← ask (.deleteCheckpoint generation)
  return ()

/-- `_checkpoint_pg_active`. -/
def checkpointPgActive : Call (Option Text) := do
  let rows ← ask .selectActive
  match rows with
  | [[value]] => do
      require (∀ generation ∈ value, isGeneration generation = true)
        (.checkpoint "checkpoint-active-pointer-invalid")
      return value
  | _ => raise (.checkpoint "checkpoint-active-pointer-invalid")

/-- `_checkpoint_pg_cas`. -/
def checkpointPgCas (expected : Option Text) (next : Text) : Call Unit := do
  let rows ← ask (.updateActive expected next)
  require (rows = [[some next]]) (.conflict "checkpoint-cas-conflict")

/-! ## Redis -/

/-- `_checkpoint_redis_read`. -/
def checkpointRedisRead (generation : Text) : Call (Option ByteArray) := do
  let value ← ask (.redisGet generation)
  match value with
  | none => return none
  | some value => return some (← lift (checkpointDecoded (some value)))

/-- `_checkpoint_redis_stage`. -/
def checkpointRedisStage (raw : ByteArray) (generation : Text) : Call Bool := do
  let reply ← ask (.redisSet generation (Py.b64encode raw))
  require (reply = some (text "OK") ∨ reply = none) (.checkpoint "checkpoint-redis-invalid")
  let observed ← checkpointRedisRead generation
  require (observed = some raw) (.checkpoint "checkpoint-redis-readback-failed")
  return reply == some (text "OK")

/-- `_checkpoint_redis_delete`. -/
def checkpointRedisDelete (generation : Text) : Call Unit := do
  let reply ← ask (.redisDel generation)
  require (reply = 0 ∨ reply = 1) (.checkpoint "checkpoint-redis-cleanup-failed")

/-! ## RabbitMQ -/

/-- `_checkpoint_rabbit_read`. -/
def checkpointRabbitRead (generation : Text) : Call (Option ByteArray) := do
  let found ← ask (.getQueue generation)
  if found then do
    let reply ← ask (.getMessages generation)
    match reply with
    | [payload] => return some (← lift (checkpointDecoded (some payload)))
    | _ => raise (.checkpoint "checkpoint-rabbitmq-invalid")
  else return none

/-- `_checkpoint_rabbit_stage`. -/
def checkpointRabbitStage (raw : ByteArray) (generation : Text) : Call Bool := do
  match ← checkpointRabbitRead generation with
  | some existing => do
      require (existing = raw) (.checkpoint "checkpoint-rabbitmq-readback-failed")
      return false
  | none => do
      let created ← ask (.putQueue generation)
      if created then do
        let routed ← ask (.publish generation (Py.b64encode raw))
        require (routed = true) (.checkpoint "checkpoint-rabbitmq-invalid")
      else pure ()
      let observed ← onError (checkpointRabbitRead generation) fun e =>
        raise (if e.isBridgeError && !created then .unowned "checkpoint-rabbitmq-unowned" else e)
      require (observed = some raw)
        (if created then .checkpoint "checkpoint-rabbitmq-readback-failed"
          else .unowned "checkpoint-rabbitmq-unowned")
      return created

/-- `_checkpoint_rabbit_delete`. -/
def checkpointRabbitDelete (generation : Text) : Call Unit := do
  let _ ← onError (ask (.deleteQueue generation)) fun e =>
    raise (if e.isBridgeError then .checkpoint "checkpoint-rabbitmq-cleanup-failed" else e)
  return ()

/-! ## Files -/

/-- `_checkpoint_path_read`, with the check of `_checkpoint_file`. -/
def checkpointPathRead (d : Directory) (generation : Text) : Call (Option ByteArray) := do
  require (isGeneration generation = true) (.checkpoint "checkpoint-generation-invalid")
  match ← onError (ask (.readFile d generation)) fun e =>
      raise (if e.isOsError then .checkpoint "checkpoint-file-read-failed" else e) with
  | none => return none
  | some raw => do
      require (raw.size ≤ maxCheckpointBytes) (.checkpoint "checkpoint-storage-invalid")
      return some raw

/-- `_checkpoint_path_stage`. -/
def checkpointPathStage (d : Directory) (raw : ByteArray) (generation : Text) : Call Bool := do
  require (isGeneration generation = true) (.checkpoint "checkpoint-generation-invalid")
  ask (.makeDirectory d)
  let created ← onError (ask (.createFile d generation raw)) fun e =>
    raise (if e.isOsError then .checkpoint "checkpoint-file-stage-failed" else e)
  let observed ← checkpointPathRead d generation
  require (observed = some raw) (.checkpoint "checkpoint-file-readback-failed")
  return created

/-- `_checkpoint_path_delete`. -/
def checkpointPathDelete (d : Directory) (generation : Text) : Call Unit := do
  require (isGeneration generation = true) (.checkpoint "checkpoint-generation-invalid")
  let _ ← ask (.unlink d generation)
  return ()

/-! ## The browser session -/

/-- `_checkpoint_selenium_key`. -/
def checkpointSeleniumKey (generation : Text) : Text := text "sw.checkpoint." ++ generation

/-- `with _browser_session()`: the session is deleted at the end. -/
def browserSession {α : Type} (body : ℕ → Call α) : Call α := do
  let session ← ask .newSession
  let result ← attempt do
    ask (.openPage session)
    body session
  onError (ask (.deleteSession session)) fun e => if e.isBridgeError then pure () else raise e
  lift result

/-- `_checkpoint_selenium_roundtrip`. -/
def checkpointSeleniumRoundtrip (raw : ByteArray) (generation : Text) : Call ByteArray := do
  let value ← browserSession fun session => do
    let accepted ← ask (.setItem session (checkpointSeleniumKey generation) (Py.b64encode raw))
    require (accepted = true) (.checkpoint "checkpoint-selenium-invalid")
    ask (.getItem session (checkpointSeleniumKey generation))
  let observed ← lift (checkpointDecoded value)
  require (observed = raw) (.checkpoint "checkpoint-selenium-readback-failed")
  return observed

/-- `_checkpoint_selenium_read`. -/
def checkpointSeleniumRead (generation : Text) : Call (Option ByteArray) := do
  match ← checkpointPathRead .session generation with
  | none => return none
  | some raw => return some (← checkpointSeleniumRoundtrip raw generation)

/-- `_checkpoint_selenium_stage`. -/
def checkpointSeleniumStage (raw : ByteArray) (generation : Text) : Call Bool := do
  let existing ← checkpointSeleniumRead generation
  if existing = none then do
    let _ ← checkpointSeleniumRoundtrip raw generation
    let _ ← checkpointPathStage .session raw generation
  else pure ()
  let observed ← checkpointSeleniumRead generation
  require (observed = some raw) (.checkpoint "checkpoint-selenium-readback-failed")
  return existing.isNone

/-- `_checkpoint_selenium_delete`. -/
def checkpointSeleniumDelete (generation : Text) : Call Unit := do
  checkpointPathDelete .session generation
  browserSession fun session => ask (.removeItem session (checkpointSeleniumKey generation))

/-! ## All providers -/

/-- `_CHECKPOINT_READERS`. -/
def checkpointReader : Provider → Text → Call (Option ByteArray)
  | .postgres => checkpointPgRead
  | .redis => checkpointRedisRead
  | .rabbitmq => checkpointRabbitRead
  | .directory .session => checkpointSeleniumRead
  | .directory d => checkpointPathRead d

/-- `_CHECKPOINT_STAGERS`. -/
def checkpointStager [Sha256] (p : Provider) (raw : ByteArray) (generation digest : Text) : Call Bool :=
  match p with
  | .postgres => checkpointPgStage raw generation digest
  | .redis => checkpointRedisStage raw generation
  | .rabbitmq => checkpointRabbitStage raw generation
  | .directory .session => checkpointSeleniumStage raw generation
  | .directory d => checkpointPathStage d raw generation

/-- `_CHECKPOINT_DELETERS`. -/
def checkpointDeleter : Provider → Text → Call Unit
  | .postgres => checkpointPgDelete
  | .redis => checkpointRedisDelete
  | .rabbitmq => checkpointRabbitDelete
  | .directory .session => checkpointSeleniumDelete
  | .directory d => checkpointPathDelete d

end StateWeaver.Bridge
