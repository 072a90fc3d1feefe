import Mustache.Position

namespace Mustache

/-- How many partials and parents may be entered inside each other. -/
def maxInclusions : Nat := 64

/-- The reason and the tag that gave rise to it. -/
inductive RenderError where
  /-- An expression calls a filter that is not registered. -/
  | unknownFilter (name : String) (position : Position)
  /-- A filter failed, or a value it needs has no JSON counterpart. -/
  | filterFailed (name : String) (message : String) (position : Position)
  /-- No template has the name. -/
  | partialNotFound (name : String) (position : Position)
  /-- Too many partials and parents are open. -/
  | recursionLimitExceeded (name : String) (depth : Nat) (position : Position)
  /-- Too many levels are open. -/
  | nestingLimitExceeded (depth : Nat) (position : Position)
deriving DecidableEq, Repr

namespace RenderError

def position : RenderError → Position
  | unknownFilter _ p => p
  | filterFailed _ _ p => p
  | partialNotFound _ p => p
  | recursionLimitExceeded _ _ p => p
  | nestingLimitExceeded _ p => p

def message (e : RenderError) : String :=
  let place := e.position.message
  match e with
  | unknownFilter name _ => s!"Unknown filter `{name}` at {place}"
  | filterFailed name message _ => s!"Filter `{name}` failed at {place}: {message}"
  | partialNotFound name _ => s!"Partial `{name}` not found at {place}"
  | recursionLimitExceeded name depth _ =>
    s!"Partial recursion limit exceeded including `{name}` at {place} (depth {depth})"
  | nestingLimitExceeded depth _ => s!"Nesting limit exceeded at {place} (depth {depth})"

end RenderError

end Mustache
