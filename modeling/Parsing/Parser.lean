/-
Parsing.Parser — parsers, and how one changes what another answers.

A parser takes a state that has no value yet to a state that holds one,
or a failure.  Whether a parser looks at an incoming failure is its own
affair: `map`, `errorMap` and `boxed` hand the state to the parser they
wrap and work on what it answers.
-/
import Parsing.State

namespace Parsing

universe u v

/-- A step from a state without a value to a state with a value, or a
failure. -/
def Parser (α : Type u) : Type u :=
  State Unit → State α

namespace Parser

variable {α : Type u} {β : Type v}

/-- Runs the parser on an input, from its start. -/
def run (p : Parser α) (target : String) : State α :=
  p (State.initial target)

/-- Applies a function to the parser's value. -/
def map (p : Parser α) (f : α → β) : Parser β :=
  fun s => (p s).mapResult f

/-- Applies a function to the parser's failure, given the failure and
the offset of the failed state. -/
def errorMap (p : Parser α) (f : Failure → Nat → Failure) : Parser α :=
  fun s => (p s).mapError f

/-- The parser itself, for lists in which parsers of several origins
stand side by side. -/
def boxed (p : Parser α) : Parser α :=
  fun s => p s

theorem map_apply (p : Parser α) (f : α → β) (s : State Unit) :
    p.map f s = (p s).mapResult f := rfl

theorem errorMap_apply (p : Parser α) (f : Failure → Nat → Failure)
    (s : State Unit) : p.errorMap f s = (p s).mapError f := rfl

end Parser

end Parsing
