/-
Parsing.Proofs.Spine — what parsers make of a state that has failed.

Some combinators look at an incoming failure and hand it on; others leave
that to the parser they are built on, and one of these, `errorMap`, then
works on the failure that comes back.  So a failed state is not always
handed on as it is: it meets the functions on the spine of the expression,
which is the way down from it through all combinators that do not look
(`Expr.spine`).  It meets nothing else, however much stands beside and
below the spine.

A function on the spine is given the failure and the offset that the one
before it left.  These need not agree in a state at large, and so
`Failure.rewritten` carries both; they do agree in every state that a run
can come to.
-/
import Mathlib
import Parsing.Proofs.Reachable

namespace Parsing

/-! ## Functions that hand a failure on -/

namespace State

/-- An operation that changes nothing in a failed state. -/
inductive Forwards : {α β : Type} → State α → State β → Prop where
  | advance {α β : Type} (s : State α) (length : Nat) (value : β) :
      Forwards s (s.advance length value)
  | withResult {α β : Type} (s : State α) (value : β) : Forwards s (s.withResult value)

variable {α β : Type} {target : String} {index : Nat} {failure : Failure}

theorem Forwards.of_error {t : State β}
    (h : Forwards (⟨target, index, .error failure⟩ : State α) t) :
    t = ⟨target, index, .error failure⟩ := by
  cases h with
  | advance length value => exact advance_error ..
  | withResult value => exact withResult_error ..

theorem Chain.of_error {t : State β}
    (h : Chain @Forwards (⟨target, index, .error failure⟩ : State α) t) :
    t = ⟨target, index, .error failure⟩ := by
  induction h with
  | start => rfl
  | next _ hlast ih =>
    rw [ih] at hlast
    exact hlast.of_error

end State

/-- Whatever state the parser is given, it makes its answer of it by
operations that change nothing in a failed state. -/
def Parser.Forwarding {α : Type} (p : Parser α) : Prop :=
  ∀ s : State Unit, State.Chain @State.Forwards s (p s)

/-! ## The spine -/

/-- The functions on failures that a failed state meets on its way through
the expression, the innermost first. -/
def Expr.spine : {α : Type} → Expr α → List (Failure → Nat → Failure)
  | _, .and first _ => first.spine
  | _, .map body _ => body.spine
  | _, .errorMap body f => body.spine ++ [f]
  | _, .boxed body => body.spine
  | _, .matcher _ | _, .sequenceOf _ | _, .choice _ | _, .or _ _ | _, .either _ _
  | _, .many _ | _, .manyOne _ | _, .step _ => []

namespace Failure

/-- What the functions, in their order, make of a failure and the offset of
its state.  Each is given what the one before it left, and leaves its own
failure and the offset of that. -/
def rewritten (fs : List (Failure → Nat → Failure)) (failure : Failure) (index : Nat) :
    Failure × Nat :=
  fs.foldl (fun left f => (f left.1 left.2, (f left.1 left.2).index)) (failure, index)

variable {fs : List (Failure → Nat → Failure)} {failure : Failure} {index : Nat}

theorem rewritten_nil : rewritten [] failure index = (failure, index) := rfl

theorem rewritten_append (f : Failure → Nat → Failure) :
    rewritten (fs ++ [f]) failure index =
      (f (rewritten fs failure index).1 (rewritten fs failure index).2,
        (f (rewritten fs failure index).1 (rewritten fs failure index).2).index) := by
  simp [rewritten, List.foldl_append]

/-- The offset stays that of the failure. -/
theorem rewritten_index (h : index = failure.index) :
    (rewritten fs failure index).2 = (rewritten fs failure index).1.index := by
  induction fs generalizing failure index with
  | nil => exact h
  | cons f fs ih => exact @ih (f failure index) _ rfl

end Failure

variable {target : String} {index : Nat} {failure : Failure}

theorem Parser.and_error {α β : Type} {p : Parser α} {q : Parser β} {s : State Unit}
    (h : p s = ⟨target, index, .error failure⟩) :
    p.and q s = ⟨target, index, .error failure⟩ := by
  rw [Parser.and, h, State.andThen_error]

/-- By induction on the expression; where the spine stops, the state is
handed on. -/
theorem Expr.parser_error {α : Type} {e : Expr α}
    (he : e.StepsAre fun _ p => p.Forwarding) (target : String) (index : Nat)
    (failure : Failure) :
    e.parser ⟨target, index, .error failure⟩ =
      ⟨target, (failure.rewritten e.spine index).2,
        .error (failure.rewritten e.spine index).1⟩ := by
  induction e with
  | matcher m => cases m <;> rfl
  | sequenceOf parts ih => rfl
  | and first second ih₁ ih₂ => exact Parser.and_error (ih₁ he.1)
  | choice alternatives ih => rfl
  | or first second ih₁ ih₂ => rfl
  | either first second ih₁ ih₂ => rfl
  | many body ih => rfl
  | manyOne body ih => rfl
  | map body f ih => rw [Expr.parser, Parser.map, ih he.2, State.mapResult_error, Expr.spine]
  | errorMap body f ih =>
    rw [Expr.parser, Parser.errorMap, ih he.2, State.mapError_error, Expr.spine,
      Failure.rewritten_append]
  | boxed body ih => exact ih he
  | step p => exact (he _).of_error

/-- **What becomes of a failed state.**  A failed state that a run can come
to stays failed, on the same input.  Its failure is rewritten by the
functions on the spine, the innermost first, each given the failure and
the offset that the one before it left, and it ends at the offset of its
last failure.  Where the spine has no functions, it comes back as it
was. -/
theorem failed_state_meets_spine {α : Type} {e : Expr α}
    (he : e.StepsAre fun _ p => p.Forwarding) {target : String} {s : State Unit}
    (hs : State.Reachable target s) {failure : Failure} (hfailed : s.outcome = .error failure) :
    e.parser s =
      ⟨s.target, (failure.rewritten e.spine s.index).2,
        .error (failure.rewritten e.spine s.index).1⟩ ∧
    (failure.rewritten e.spine s.index).2 = (failure.rewritten e.spine s.index).1.index ∧
    (e.spine = [] → e.parser s = ⟨s.target, s.index, .error failure⟩) := by
  have hplaced := hs.leadsTo.wellPlaced
  obtain ⟨t, index, outcome⟩ := s
  obtain rfl : outcome = .error failure := hfailed
  refine ⟨Expr.parser_error he t index failure, Failure.rewritten_index hplaced, fun hspine => ?_⟩
  rw [Expr.parser_error he t index failure, hspine, Failure.rewritten_nil]

/-- A step forward, with two functions on the spine, and letters beside it
with one that is not. -/
def renumbered : Expr (Unit × String) :=
  .errorMap
    (.boxed (.and
      (.errorMap (.step fun s => s.advance 1 ()) fun failure _ => { failure with index := 9 })
      (.errorMap (.matcher (.charClass .letters)) fun _ index => .custom index "unseen")))
    (Failure.retold "number")

/-- The inner function moves the failure, the outer one tells where it
is. -/
theorem failed_state_meets_spine_renumbered :
    (renumbered.StepsAre fun _ p => p.Forwarding) ∧
    State.Reachable "ab" (⟨"ab", 7, .error (.custom 7 "no")⟩ : State Unit) ∧
    renumbered.parser ⟨"ab", 7, .error (.custom 7 "no")⟩ =
      ⟨"ab", 9, .error (.custom 9 "number at 9: no")⟩ := by
  have he : renumbered.StepsAre fun _ p => p.Forwarding :=
    ⟨trivial, ⟨trivial, fun s => .next .start (.advance s 1 ())⟩, trivial, trivial⟩
  have hs : State.Reachable "ab" (⟨"ab", 7, .error (.custom 7 "no")⟩ : State Unit) :=
    .next .start (.operation (.fail _ .custom 7 "no"))
  refine ⟨he, hs, ?_⟩
  rw [(failed_state_meets_spine he hs rfl).1]
  rfl

end Parsing
