import StateWeaver.Worlds.Calls
import StateWeaver.Worlds.StoreInvariant
import StateWeaver.Lib.Machine

/-!
# The manager as a machine

Every call of a public method is an operation with its own identity; all operations of a manager
share its store. An input says which operation runs next and what it finds: that it is called, that
it gets the gate it waits for, that it is cancelled there, or that the adapter answers it. An
operation that is cancelled while the adapter works sees `CancelledError` as the answer.

A gate is held by the operation that entered it until that operation leaves the `async with` block,
so who holds it can be read off the frames. The machine lets any waiting operation have a free gate,
in whatever order they came.
-/

namespace StateWeaver.Worlds

open WorldStore

variable [Sha256]

/-- How the stretch of an operation ends. -/
inductive Outcome [Sha256] where
  | suspended (task : Task)
  | returned (value : Returned)
  | raised (e : Exc)
  deriving DecidableEq

/-- How a stretch ended, and the store it left. -/
def ending : EStateM.Result Exc WorldStore Progress → Outcome × WorldStore
  | .ok (.suspended task) s => (.suspended task, s)
  | .ok (.returned value) s => (.returned value, s)
  | .error e s => (.raised e, s)

/-- Which operation runs next and what it finds. -/
inductive Input [Sha256] where
  | call (id loop : Nat) (uuid : String) (call : Call)
  | enter (id : Nat) (capabilities : Nat → Answer)
  | cancel (id : Nat)
  | answer (id : Nat) (answer : Answer) (capabilities : Nat → Answer)

/-- `WorldManager`, with its suspended operations. -/
structure Manager [Sha256] where
  capabilities : CapabilityManifest
  store : WorldStore
  /-- The event loop the manager is bound to. -/
  eventLoop : Option Nat
  /-- The suspended operations. -/
  tasks : Dict Nat Task
  deriving DecidableEq

namespace Manager

/-- `__init__`, with the answer of the adapter's `capabilities()`. -/
def create (capabilities : Answer) : Except Exc Manager := do
  let capabilities ← validatedCapabilities capabilities
  return ⟨capabilities, .empty, none, .empty⟩

/-- `_bind_running_loop`. -/
def bindRunningLoop (m : Manager) (current : Nat) : Except Exc Manager :=
  match m.eventLoop with
  | none => .ok { m with eventLoop := some current }
  | some loop =>
      if loop = current then .ok m
      else .error (.lifecycleError "world manager is bound to a different event loop")

/-- Whether no operation holds the gate of a world. -/
def gateFree (m : Manager) (worldId : NonEmpty) : Bool :=
  m.tasks.entries.all fun e => e.2.gate? ≠ some worldId

/-- The manager after an operation has ended in the given way. -/
def after (m : Manager) (id : Nat) (s : WorldStore) : Outcome → Manager
  | .suspended task => { m with store := s, tasks := m.tasks.insert id task }
  | .returned _ | .raised _ => { m with store := s, tasks := m.tasks.erase id }

/-- Run a stretch of an operation. -/
def advance (m : Manager) (id : Nat) (stretch : StoreM Progress) : Outcome × Manager :=
  ((ending (stretch m.store)).1,
    m.after id (ending (stretch m.store)).2 (ending (stretch m.store)).1)

/-- A call up to its first await. -/
def start (m : Manager) (id loop : Nat) (uuid : String) (call : Call) : Outcome × Manager :=
  match call.start m.store uuid with
  | .error e => (.raised e, m)
  | .ok stretch =>
      match m.bindRunningLoop loop with
      | .error e => (.raised e, m)
      | .ok bound => bound.advance id stretch

/-- One step: the operation an input names runs to its next await. -/
def step (m : Manager) : Input → Option (Outcome × Manager)
  | .call id loop uuid call =>
      if m.tasks.contains id then none else some (m.start id loop uuid call)
  | .enter id capabilities =>
      match m.tasks.get? id with
      | some (.atGate frame) =>
          if m.gateFree frame.world then
            some (m.advance id (frame.enter m.capabilities capabilities))
          else none
      | _ => none
  | .cancel id =>
      match m.tasks.get? id with
      | some (.atGate frame) => some (m.advance id frame.cancelled)
      | _ => none
  | .answer id answer capabilities =>
      match m.tasks.get? id with
      | some (.atAdapter frame) =>
          some (m.advance id (frame.answered m.capabilities answer capabilities))
      | _ => none

/-- The manager as a machine. -/
def machine : Machine Manager Input Outcome := ⟨step⟩

/-- The states a manager can get to, from its construction on. -/
def Reachable (m : Manager) : Prop :=
  ∃ capabilities m₀, create capabilities = .ok m₀ ∧ machine.Reaches Machine.anyStep m₀ m

end Manager

/-- The operation an input is for. -/
def Input.id : Input → Nat
  | .call id _ _ _ | .enter id _ | .cancel id | .answer id _ _ => id

end StateWeaver.Worlds
