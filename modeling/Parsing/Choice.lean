/-
Parsing.Choice — ordered choice.

The alternatives are tried in their order, each from the same state,
and the first success is the answer.  If all of them fail, the choice
fails where it started, with the failure of every alternative as its
causes.
-/
import Parsing.Parser

namespace Parsing

universe u v

/-- No alternative of a choice matched; the causes are theirs. -/
def Failure.exhausted (index : Nat) (causes : List Failure) : Failure :=
  (Failure.leaf .exhaustedAlternatives index
    ("choice: unable to match with any parser at index "
      ++ toString index)).withCauses causes

namespace Parser

variable {α : Type u} {β : Type v}

/-- The first success among the alternatives, or the failures of all of
them, in order. -/
def firstSuccess : List (Parser α) → State Unit → Except (List Failure) (State α)
  | [], _ => .error []
  | p :: ps, s =>
      let attempt := p s
      match attempt.failure? with
      | none => .ok attempt
      | some failure =>
          match firstSuccess ps s with
          | .ok success => .ok success
          | .error failures => .error (failure :: failures)

/-- Tries the alternatives in their order. -/
def choice (ps : List (Parser α)) : Parser α :=
  fun s => s.andThen fun s _ =>
    match firstSuccess ps s with
    | .ok success => success
    | .error failures => s.failWith (.exhausted s.index failures)

/-- Tries one parser, then the other. -/
def or (p q : Parser α) : Parser α :=
  fun s => s.andThen fun s _ =>
    let first := p s
    match first.failure? with
    | none => first
    | some e =>
        let second := q s
        match second.failure? with
        | none => second
        | some e' => s.failWith (.exhausted s.index [e, e'])

/-- Tries one parser, then another with values of its own type. -/
def either (p : Parser α) (q : Parser β) : Parser (α ⊕ β) :=
  (p.map Sum.inl).or (q.map Sum.inr)

end Parser

end Parsing
