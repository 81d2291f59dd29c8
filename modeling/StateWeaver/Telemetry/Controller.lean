import Mathlib
import StateWeaver.Lib.Dict
import StateWeaver.Lib.Machine

/-!
# The runtime observation controller

Calls of `observe` on one controller, interleaved where they await: for the lock of the controller, for
`execute_observed` of the environment and for its `claim_runtime_observation`. A deadline or a
cancellation may reach a call at each of these places. What the environment answers is an input.
-/

namespace StateWeaver.Telemetry

/-- What the controller reads of a request. -/
structure RequestFields (Request : Type) where
  /-- Whether the request is validated. -/
  isValid : Request → Bool
  /-- `request.action_envelope.idempotency_key`. -/
  idempotencyKey : Request → String
  /-- `sha256_digest(request)`. -/
  digest : Request → String

/-- `_MAX_IDEMPOTENCY_RECORDS`. -/
def maxIdempotencyRecords : ℕ := 4096

/-- Where a call of `observe` is. A call that has ended may have executed, and its result may have been
recorded. -/
inductive Stage (Request : Type) where
  | absent
  | waiting (request : Request)
  | executing (request : Request)
  | claiming (request : Request)
  | ended (request : Request) (executed recorded : Bool)

/-- What `resolve_runtime_route` and `runtime_source_digest` say. -/
inductive Binding where
  | matching | mismatched | invalid

/-- How `execute_observed` ends: with an execution that matches the request or not, or with an
exception. -/
inductive Execution where
  | matching | mismatched | deadline | failed

inductive Interruption where
  | deadline | cancellation

inductive Event (Call Request Result : Type) where
  | observe (call : Call) (request : Request)
  /-- The lock is acquired. -/
  | acquired (call : Call) (binding : Binding)
  /-- `execute_observed` ends. -/
  | executed (call : Call) (execution : Execution)
  /-- The observation is claimed, and its result is built or an exception raised. -/
  | finalized (call : Call) (result : Option Result)
  | interrupted (call : Call) (interruption : Interruption)

/-- What becomes of a call in a step. -/
inductive Reply (Result : Type) where
  | pending
  | returned (result : Result)
  /-- `RuntimeObservationError`. -/
  | raised (message : String)
  | cancelled

/-- `RuntimeObservationController`, with the calls of `observe`. -/
structure Controller (Call Request Result : Type) where
  poisoned : Bool
  idempotencyLedger : Dict String (String × Result)
  /-- The call that holds the lock. -/
  holder : Option Call
  calls : Call → Stage Request

namespace Controller

variable {Call Request Result : Type}

def initial : Controller Call Request Result := ⟨false, .empty, none, fun _ => .absent⟩

variable [DecidableEq Call]

/-- Move a call to another stage. -/
def move (s : Controller Call Request Result) (call : Call) (stage : Stage Request) :
    Controller Call Request Result :=
  { s with calls := Function.update s.calls call stage }

/-- End a call that holds the lock and poison the controller. -/
def poison (s : Controller Call Request Result) (call : Call) (request : Request) :
    Controller Call Request Result :=
  { s.move call (.ended request true false) with poisoned := true, holder := none }

/-- Give the lock up, if a call holds it. -/
def release (s : Controller Call Request Result) (call : Call) : Controller Call Request Result :=
  { s with holder := if s.holder = some call then none else s.holder }

/-- What a call does once it has the lock: it ends, or it awaits `execute_observed`. -/
def enter (P : RequestFields Request) (s : Controller Call Request Result) (call : Call) (request : Request)
    (binding : Binding) : Reply Result × Controller Call Request Result :=
  let rejected := s.move call (.ended request false false)
  if s.poisoned then
    (.raised "runtime observation controller is poisoned after an uncertain execution", rejected)
  else
    match s.idempotencyLedger.get? (P.idempotencyKey request) with
    | some (digest, result) =>
        if digest ≠ P.digest request then
          (.raised "runtime observation idempotency key semantics changed", rejected)
        else (.returned result, rejected)
    | none =>
        if maxIdempotencyRecords ≤ s.idempotencyLedger.entries.length then
          (.raised "runtime observation idempotency ledger is full", rejected)
        else
          match binding with
          | .invalid => (.raised "repository runtime source or action binding is invalid", rejected)
          | .mismatched =>
              (.raised "typed route or source does not match the repository app", rejected)
          | .matching => (.pending, { s.move call (.executing request) with holder := some call })

/-- What a call does with the end of `execute_observed`: it ends, or it awaits the claim. -/
def execute (s : Controller Call Request Result) (call : Call) (request : Request) :
    Execution → Reply Result × Controller Call Request Result
  | .matching => (.pending, s.move call (.claiming request))
  | .mismatched =>
      (.raised "authorized runtime observation could not be finalized", s.poison call request)
  | .deadline => (.raised "authorized runtime action exceeded its deadline", s.poison call request)
  | .failed =>
      (.raised "server-side runtime authorization or ASGI execution was rejected", s.poison call request)

/-- What a call does with its result. -/
def finalize (P : RequestFields Request) (s : Controller Call Request Result) (call : Call)
    (request : Request) : Option Result → Reply Result × Controller Call Request Result
  | none => (.raised "authorized runtime observation could not be finalized", s.poison call request)
  | some result =>
      (.returned result,
        { s.move call (.ended request true true) with
          idempotencyLedger := s.idempotencyLedger.insert (P.idempotencyKey request)
            (P.digest request, result)
          holder := none })

/-- What the handlers of `observe` do: they poison the controller wherever the call was. -/
def interrupt (s : Controller Call Request Result) (call : Call) (request : Request) (executed : Bool) :
    Interruption → Reply Result × Controller Call Request Result :=
  let poisoned := { (s.move call (.ended request executed false)).release call with poisoned := true }
  fun
  | .deadline => (.raised "authorized runtime action exceeded its deadline", poisoned)
  | .cancellation => (.cancelled, poisoned)

/-- A step of a call. -/
def step (P : RequestFields Request) (s : Controller Call Request Result) :
    Event Call Request Result → Option (Reply Result × Controller Call Request Result)
  | .observe call request =>
      match s.calls call with
      | .absent =>
          if P.isValid request then some (.pending, s.move call (.waiting request))
          else some (.raised "runtime observation request is invalid",
            s.move call (.ended request false false))
      | _ => none
  | .acquired call binding =>
      match s.calls call, s.holder with
      | .waiting request, none => some (s.enter P call request binding)
      | _, _ => none
  | .executed call execution =>
      match s.calls call with
      | .executing request => some (s.execute call request execution)
      | _ => none
  | .finalized call result =>
      match s.calls call with
      | .claiming request => some (s.finalize P call request result)
      | _ => none
  | .interrupted call interruption =>
      match s.calls call with
      | .waiting request => some (s.interrupt call request false interruption)
      | .executing request => some (s.interrupt call request true interruption)
      | .claiming request => some (s.interrupt call request true interruption)
      | _ => none

def machine (P : RequestFields Request) :
    Machine (Controller Call Request Result) (Event Call Request Result) (Reply Result) :=
  ⟨step P⟩

end Controller

end StateWeaver.Telemetry
