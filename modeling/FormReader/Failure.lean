import FormReader.Inspect

/-!
# Failures

Reading a form can fail in two ways that have nothing to do with each other. Either
the text is not what a rule is looking for – `FormReader.Failure.noMatch`, which a
caller with an alternative at hand can recover from – or a resource has run out:
memory (`FormReader.Failure.exhausted`) or levels of nesting
(`FormReader.Failure.tooDeep`). No alternative helps against the latter, so they end
the reading.

The fourth constructor, `FormReader.Failure.outOfRange`, stands for bytes that were
asked for outside of the source. The cursor answers such a question with it; the
rules of the grammar never ask one.
-/

namespace FormReader

/-- What an arena says when it refuses a request: how many bytes were asked for,
and how many it had reserved by then. -/
structure Exhausted where
  requested : Nat
  reserved : Nat
deriving DecidableEq, Repr

namespace Exhausted

/-- The message for a reader of error messages. -/
def message (e : Exhausted) : String :=
  "Arena exhausted: requested " ++ e.requested.repr ++ " bytes with " ++ e.reserved.repr ++
    " bytes already allocated"

/-- The inspection text. -/
def inspect (e : Exhausted) : String :=
  Inspect.record "ArenaExhausted"
    [("requested", e.requested.repr), ("allocated", e.reserved.repr)]

end Exhausted

/-- **Why a form was not read.** -/
inductive Failure where
  /-- The text at the cursor is not what the rule looks for. -/
  | noMatch
  /-- The arena refused a request for memory. -/
  | exhausted (cause : Exhausted)
  /-- A bracket stood inside `depth` others, and no more than `limit` may be
  open at once. -/
  | tooDeep (depth limit : Nat)
  /-- Bytes outside of the source were asked for. -/
  | outOfRange
deriving DecidableEq, Repr

namespace Failure

/-- The kinds of failure. -/
inductive Kind where
  /-- The text did not match. -/
  | mismatch
  /-- A resource has run out. -/
  | resource
  /-- A question that has no answer was asked. -/
  | misuse
deriving DecidableEq, Repr

/-- The kind of a failure. -/
def kind : Failure → Kind
  | noMatch => .mismatch
  | exhausted _ => .resource
  | tooDeep _ _ => .resource
  | outOfRange => .misuse

/-- Whether a failure can be recovered from by trying something else. -/
def isRecoverable (f : Failure) : Bool :=
  f.kind = .mismatch

/-- The message for a reader of error messages. -/
def message : Failure → String
  | noMatch => "No grammar alternative matched the input"
  | exhausted cause => cause.message
  | tooDeep depth limit =>
    "Maximum parsing depth exceeded: depth " ++ depth.repr ++ " exceeds limit of " ++ limit.repr
  | outOfRange => "Bytes outside of the source were asked for"

/-- The inspection text. -/
def inspect : Failure → String
  | noMatch => "NoMatch"
  | exhausted cause => Inspect.tagged "Arena" cause.inspect
  | tooDeep depth limit =>
    Inspect.record "MaxDepthExceeded" [("depth", depth.repr), ("max_depth", limit.repr)]
  | outOfRange => "OutOfRange"

end Failure

end FormReader
