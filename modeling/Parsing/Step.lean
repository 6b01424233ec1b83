/-
Parsing.Step — parsers that do one thing with the state they are given.

A step asks nothing of the state: what it does to a failed one is what
the operation it stands for does.  So a step that succeeds leaves a
failed state failed, and a step that fails gives it a new failure.
-/
import Parsing.Parser

namespace Parsing.Parser

universe u

variable {α : Type u}

/-- Succeeds where it stands. -/
def succeed (value : α) : Parser α :=
  fun s => s.withResult value

/-- Moves forward by `length` bytes. -/
def advance (length : Nat) (value : α) : Parser α :=
  fun s => s.advance length value

/-- Fails. -/
def fail (failure : Failure) : Parser α :=
  fun s => s.failWith failure

end Parsing.Parser
