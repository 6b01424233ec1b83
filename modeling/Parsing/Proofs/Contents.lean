/-
Parsing.Proofs.Contents — what an expression may contain.

The laws of the engine differ in what they allow beside matchers, lists
of parts and alternatives, and repetitions: functions on values,
functions on failures, parsers given as functions.  `Expr.BuiltWith` is
the one recursion over expressions behind all these restrictions.  It is
a recursion and not an inductive predicate, so that what holds of an
expression can be taken apart although its type says little about it.
-/
import Parsing.Expr

namespace Parsing.Expr

/-- What an expression may contain that is not always allowed. -/
structure Extras where
  /-- Whether functions may be applied to values. -/
  map : Prop
  /-- Whether functions may be applied to failures. -/
  errorMap : Prop
  /-- Which functions may stand as parsers. -/
  step : (α : Type) → Parser α → Prop

/-- The expression contains no extras but those allowed. -/
def BuiltWith (extras : Extras) : {α : Type} → Expr α → Prop
  | _, .matcher _ => True
  | _, .sequenceOf parts => ∀ i, (parts i).BuiltWith extras
  | _, .and first second => first.BuiltWith extras ∧ second.BuiltWith extras
  | _, .choice alternatives => ∀ i, (alternatives i).BuiltWith extras
  | _, .or first second => first.BuiltWith extras ∧ second.BuiltWith extras
  | _, .either first second => first.BuiltWith extras ∧ second.BuiltWith extras
  | _, .many body => body.BuiltWith extras
  | _, .manyOne body => body.BuiltWith extras
  | _, .map body _ => extras.map ∧ body.BuiltWith extras
  | _, .errorMap body _ => extras.errorMap ∧ body.BuiltWith extras
  | _, .boxed body => body.BuiltWith extras
  | α, .step p => extras.step α p

/-- Every function that stands as a parser is one of a kind. -/
def StepsAre (kind : (α : Type) → Parser α → Prop) {α : Type} (e : Expr α) : Prop :=
  e.BuiltWith ⟨True, True, kind⟩

/-- No function stands as a parser. -/
def StepFree {α : Type} (e : Expr α) : Prop :=
  e.StepsAre fun _ _ => False

/-- No function is applied to a failure. -/
def ErrorMapFree {α : Type} (e : Expr α) : Prop :=
  e.BuiltWith ⟨True, False, fun _ _ => True⟩

/-- Where more is allowed, an expression may still be built. -/
theorem BuiltWith.mono {x y : Extras} (hmap : x.map → y.map)
    (herrorMap : x.errorMap → y.errorMap)
    (hstep : ∀ (α : Type) (p : Parser α), x.step α p → y.step α p) {α : Type}
    {e : Expr α} (h : e.BuiltWith x) : e.BuiltWith y := by
  induction e with
  | matcher m => trivial
  | sequenceOf parts ih => exact fun i => ih i (h i)
  | and first second ih₁ ih₂ => exact ⟨ih₁ h.1, ih₂ h.2⟩
  | choice alternatives ih => exact fun i => ih i (h i)
  | or first second ih₁ ih₂ => exact ⟨ih₁ h.1, ih₂ h.2⟩
  | either first second ih₁ ih₂ => exact ⟨ih₁ h.1, ih₂ h.2⟩
  | many body ih => exact ih h
  | manyOne body ih => exact ih h
  | map body f ih => exact ⟨hmap h.1, ih h.2⟩
  | errorMap body f ih => exact ⟨herrorMap h.1, ih h.2⟩
  | boxed body ih => exact ih h
  | step p => exact hstep _ p h

theorem StepsAre.imp {kind kind' : (α : Type) → Parser α → Prop}
    (himp : ∀ (α : Type) (p : Parser α), kind α p → kind' α p) {α : Type}
    {e : Expr α} (h : e.StepsAre kind) : e.StepsAre kind' := by
  unfold StepsAre at *
  exact h.mono (fun _ => trivial) (fun _ => trivial) himp

/-- Where there are no functions as parsers, they are of any kind. -/
theorem StepFree.stepsAre {kind : (α : Type) → Parser α → Prop} {α : Type}
    {e : Expr α} (h : e.StepFree) : e.StepsAre kind :=
  StepsAre.imp (fun _ _ => False.elim) h

end Parsing.Expr
