import StateWeaver.Bridge.PostgresReplies
import StateWeaver.Bridge.RedisReplies

/-!
# The readers of replies take their grammar

The rows of PostgreSQL are read as they should be from every stream. The replies of Redis are, unless `int` or the
decoder raises something of its own, `int` takes what is not a number of the protocol, a text in one line has half a
line end in it, or the replies are nested more deeply than calls may be.
-/

namespace StateWeaver.Bridge

open Wire (Connection)

/-- Both readers take exactly their grammar and raise only `ProviderBridgeError`, in whatever pieces the bytes arrive,
exactly if Redis sends nothing on which its reader breaks and nothing that is only tolerated. -/
theorem replies_exact_iff (frames : ℕ) (redis postgres : Connection) :
    RedisExact frames redis ∧ PostgresExact postgres ↔ ¬Escapes frames redis.data ∧ ¬Tolerated frames redis.data :=
  (and_iff_left (postgresExact postgres)).trans redisExact_iff

/-- A text that is no UTF-8, in two pieces. -/
def garbledReply : Connection where
  pieces := [[43, 255], [13, 10]]
  pieces_ne := by decide
  closed := true

/-- The number ten, with an underscore between its digits. -/
def underscoredReply : Connection where
  pieces := [[58, 49, 95, 48, 13, 10]]
  pieces_ne := by decide
  closed := true

theorem isLine_garbled : IsLine [255] := ⟨by decide, by decide⟩

theorem isLine_underscored : IsLine [49, 95, 48] := ⟨by decide, by decide⟩

/-- The reader breaks on the first of these replies, and takes the second one for ten. -/
theorem redis_counterexample : ¬RedisExact 1000 garbledReply ∧ ¬RedisExact 1000 underscoredReply := by
  constructor
  · intro h
    exact (redisExact_iff.mp h).1 (.simple [] isLine_garbled (by decide +kernel))
  · intro h
    have hten : Py.intOfBytes [49, 95, 48] = some 10 := by decide +kernel
    refine (redisExact_iff.mp h).2 ⟨.integer 10, _, [], ⟨trivial, _, isLine_underscored, hten, rfl⟩, ?_, rfl⟩
    rintro ⟨content, -, hnumber, heq⟩
    obtain rfl : content = [49, 95, 48] := (List.append_cancel_right (List.cons.inj heq).2).symm
    generalize hn : (10 : ℤ) = n at hnumber
    cases hnumber with
    | plain _ hdigits => exact absurd hdigits (by decide)

end StateWeaver.Bridge
