/-
Parsing.Expr — parsers as syntax.

A parser is a function, and two parsers cannot be compared or taken
apart.  An expression says how a parser is built, so that one can ask
what it contains and argue by induction over it; `Expr.parser` is the
parser it stands for.  Lists of parts and of alternatives are families
over `Fin n`, whose members are sub-expressions like any other.
-/
import Parsing.Matcher
import Parsing.Sequence
import Parsing.Choice
import Parsing.Repetition

namespace Parsing

/-- How a parser with values of a given type is built. -/
inductive Expr : Type → Type 1 where
  /-- A matcher. -/
  | matcher (m : Matcher) : Expr String
  /-- All parts in a row. -/
  | sequenceOf {α : Type} {n : Nat} (parts : Fin n → Expr α) : Expr (List α)
  /-- Two parsers in a row. -/
  | and {α β : Type} (first : Expr α) (second : Expr β) : Expr (α × β)
  /-- The first alternative that succeeds. -/
  | choice {α : Type} {n : Nat} (alternatives : Fin n → Expr α) : Expr α
  /-- The first of two alternatives that succeeds. -/
  | or {α : Type} (first second : Expr α) : Expr α
  /-- The first of two alternatives of different types that succeeds. -/
  | either {α β : Type} (first : Expr α) (second : Expr β) : Expr (α ⊕ β)
  /-- Zero or more times. -/
  | many {α : Type} (body : Expr α) : Expr (List α)
  /-- One or more times. -/
  | manyOne {α : Type} (body : Expr α) : Expr (List α)
  /-- A function applied to the value. -/
  | map {α β : Type} (body : Expr α) (f : α → β) : Expr β
  /-- A function applied to the failure. -/
  | errorMap {α : Type} (body : Expr α) (f : Failure → Nat → Failure) : Expr α
  /-- The expression itself. -/
  | boxed {α : Type} (body : Expr α) : Expr α
  /-- A parser that is given as a function. -/
  | step {α : Type} (p : Parser α) : Expr α

namespace Expr

universe u v

/-- The parser that the expression stands for. -/
def parser {α : Type} : Expr α → Parser α
  | .matcher m => m.parser
  | .sequenceOf parts => Parser.sequenceOf (List.ofFn fun i => (parts i).parser)
  | .and first second => first.parser.and second.parser
  | .choice alternatives =>
      Parser.choice (List.ofFn fun i => (alternatives i).parser)
  | .or first second => first.parser.or second.parser
  | .either first second => first.parser.either second.parser
  | .many body => body.parser.many
  | .manyOne body => body.parser.manyOne
  | .map body f => body.parser.map f
  | .errorMap body f => body.parser.errorMap f
  | .boxed body => body.parser.boxed
  | .step p => p

/-- Runs the expression's parser on an input. -/
def run {α : Type} (e : Expr α) (target : String) : State α :=
  e.parser.run target

/-- The first of a list of alternatives that succeeds. -/
def choiceOfList {α : Type} (alternatives : List (Expr α)) : Expr α :=
  .choice (fun i : Fin alternatives.length => alternatives[i])

/-- A list read by position and then mapped is the mapped list. -/
theorem ofFn_comp_getElem {α : Type u} {β : Type v} (xs : List α) (f : α → β) :
    (List.ofFn fun i : Fin xs.length => f xs[i]) = xs.map f :=
  List.ext_getElem (by simp) (by simp)

theorem parser_choiceOfList {α : Type} (alternatives : List (Expr α)) :
    (choiceOfList alternatives).parser =
      Parser.choice (alternatives.map parser) := by
  rw [choiceOfList, parser, ofFn_comp_getElem alternatives parser]

end Expr

end Parsing
