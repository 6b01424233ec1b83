/-
Parsing.Proofs.Progress — parsers that cannot succeed without moving.

Whether a parser always moves when it succeeds depends on the input; that it
must can be read off the way it is built (`Expr.consumes`).  A matcher moves,
and so does a one-or-more repetition of anything, because an iteration that
stays is not kept.  A sequence needs one part that moves, since the others do
not go back, and a choice needs all of its alternatives.

`Parser.Progresses` is the property that the criterion is sound for, with one
lemma for each combinator.  What it is good for are repetitions: of a parser
that always moves, a repetition stops only where the parser fails.
-/
import Mathlib
import Parsing.Proofs.Reachable
import Parsing.Proofs.Repetition

namespace Parsing

/-! ## The criterion -/

/-- The expression is built so that it cannot succeed where it stands. -/
def Expr.consumes : {α : Type} → Expr α → Bool
  | _, .matcher _ => true
  | _, .sequenceOf parts => decide (∃ i, (parts i).consumes = true)
  | _, .and first second => first.consumes || second.consumes
  | _, .choice alternatives => decide (∀ i, (alternatives i).consumes = true)
  | _, .or first second => first.consumes && second.consumes
  | _, .either first second => first.consumes && second.consumes
  | _, .many _ => false
  | _, .manyOne _ => true
  | _, .map body _ => body.consumes
  | _, .errorMap body _ => body.consumes
  | _, .boxed body => body.consumes
  | _, .step _ => false

/-! ## Parsers that always move -/

namespace Parser

variable {α β : Type} {p : Parser α} {q : Parser β} {ps : List (Parser α)} {target : String}
  {i j : Nat}

/-- Every success from a boundary of the input gets further. -/
def Progresses (p : Parser α) (target : String) : Prop :=
  ∀ ⦃i : Nat⦄, Text.IsBoundary target i →
    ∀ ⦃a : α⦄ ⦃j : Nat⦄, p.Succeeds target i a j → i < j

theorem Progresses.map (hp : p.Progresses target) (f : α → β) :
    (p.map f).Progresses target := by
  intro i hi b j h
  obtain ⟨a, ha, -⟩ := map_succeeds.1 h
  exact hp hi ha

theorem Progresses.errorMap (hp : p.Progresses target) (f : Failure → Nat → Failure) :
    (p.errorMap f).Progresses target := by
  intro i hi a j h
  exact hp hi (errorMap_succeeds.1 h)

/-- It is enough that one of the two moves, for neither goes back. -/
theorem Progresses.and (hp : p.Lawful) (hq : q.Lawful)
    (h : p.Progresses target ∨ q.Progresses target) : (p.and q).Progresses target := by
  intro i hi ab k hsucceeds
  obtain ⟨j, ha, hb⟩ := (and_succeeds hp hi).1 hsucceeds
  obtain ⟨hij, hj⟩ := hp.forward hi ha
  have hjk := (hq.forward hj hb).1
  cases h with
  | inl hfirst => exact Nat.lt_of_lt_of_le (hfirst hi ha) hjk
  | inr hsecond => exact Nat.lt_of_le_of_lt hij (hsecond hj hb)

/-- By induction on the parts: the one that moves is the first, or among the
others. -/
theorem Progresses.sequenceOf (hps : ∀ q ∈ ps, q.Lawful) (hmem : p ∈ ps)
    (hp : p.Progresses target) : (sequenceOf ps).Progresses target := by
  induction ps with
  | nil => exact absurd hmem List.not_mem_nil
  | cons q ps ih =>
    obtain ⟨hq, hrest⟩ := List.forall_mem_cons.1 hps
    intro i hi as k hsucceeds
    obtain ⟨b, j, bs, hb, hbs, -⟩ := (sequenceOf_cons_succeeds hq hi).1 hsucceeds
    obtain ⟨hij, hj⟩ := hq.forward hi hb
    have hjk := ((Lawful.sequenceOf hrest).forward hj hbs).1
    cases List.mem_cons.1 hmem with
    | inl heq =>
      subst heq
      exact Nat.lt_of_lt_of_le (hp hi hb) hjk
    | inr hmem => exact Nat.lt_of_le_of_lt hij (ih hrest hmem hj hbs)

/-- What a choice answers is the answer of an alternative. -/
theorem Progresses.choice (hps : ∀ p ∈ ps, p.Progresses target) :
    (choice ps).Progresses target := by
  intro i hi a j h
  obtain ⟨p, hp, ha⟩ := exists_of_choice_eq_ok h
  exact hps p hp hi ha

theorem Progresses.or {p q : Parser α} (hp : p.Progresses target) (hq : q.Progresses target) :
    (p.or q).Progresses target := by
  rw [or_eq_choice]
  exact .choice (by simp [hp, hq])

theorem Progresses.either (hp : p.Progresses target) (hq : q.Progresses target) :
    (p.either q).Progresses target :=
  (hp.map Sum.inl).or (hq.map Sum.inr)

/-- Whatever is repeated, the first iteration that is kept has moved. -/
theorem Lawful.manyOne_progresses (hp : p.Lawful) : p.manyOne.Progresses target := by
  intro i hi as k h
  obtain ⟨hmany, hne⟩ := (manyOne_succeeds hp hi).1 h
  cases as with
  | nil => exact absurd rfl hne
  | cons a as =>
    obtain ⟨j, ha, hij, has⟩ := (many_cons_succeeds hp hi).1 hmany
    have hj := (hp.forward hi ha).2
    exact Nat.lt_of_lt_of_le hij (hp.many.forward hj has).1

/-- A parser that always moves ends a repetition by failing. -/
theorem Progresses.isError_of_ends (hp : p.Progresses target) (hi : Text.IsBoundary target i)
    (h : p.Ends target i) : (p ⟨target, i, .ok ()⟩).isError = true := by
  cases h with
  | inl herror => exact herror
  | inr hstays =>
    obtain ⟨a, ha⟩ := hstays
    exact absurd (hp hi ha) (Nat.lt_irrefl i)

end Parser

theorem Matcher.progresses (m : Matcher) (target : String) : m.parser.Progresses target := by
  intro i hi token j h
  obtain ⟨u, w, rfl, rfl⟩ := Text.isBoundary_iff.1 hi
  exact m.moves h

/-! ## Soundness of the criterion -/

/-- An expression that is built so that it cannot stay always moves. -/
theorem Expr.progresses {α : Type} {e : Expr α} (he : e.StepsAre fun _ p => p.Lawful)
    (hconsumes : e.consumes = true) (target : String) : e.parser.Progresses target := by
  induction e with
  | matcher m => exact m.progresses target
  | sequenceOf parts ih =>
    obtain ⟨i, hi⟩ := of_decide_eq_true hconsumes
    refine .sequenceOf (Parser.lawful_of_mem_ofFn fun k => parser_lawful (he k))
      (List.mem_ofFn.2 ⟨i, rfl⟩) (ih i (he i) hi)
  | and first second ih₁ ih₂ =>
    refine .and (parser_lawful he.1) (parser_lawful he.2) ?_
    cases Bool.or_eq_true_iff.1 hconsumes with
    | inl hfirst => exact .inl (ih₁ he.1 hfirst)
    | inr hsecond => exact .inr (ih₂ he.2 hsecond)
  | choice alternatives ih =>
    have hall := of_decide_eq_true hconsumes
    refine .choice fun p hp => ?_
    obtain ⟨i, rfl⟩ := List.mem_ofFn.1 hp
    exact ih i (he i) (hall i)
  | or first second ih₁ ih₂ =>
    obtain ⟨hfirst, hsecond⟩ := Bool.and_eq_true_iff.1 hconsumes
    exact (ih₁ he.1 hfirst).or (ih₂ he.2 hsecond)
  | either first second ih₁ ih₂ =>
    obtain ⟨hfirst, hsecond⟩ := Bool.and_eq_true_iff.1 hconsumes
    exact (ih₁ he.1 hfirst).either (ih₂ he.2 hsecond)
  | many body ih => exact Bool.noConfusion hconsumes
  | manyOne body ih =>
    have hbody : body.parser.Lawful := parser_lawful he
    exact hbody.manyOne_progresses
  | map body f ih => exact (ih he.2 hconsumes).map f
  | errorMap body f ih => exact (ih he.2 hconsumes).errorMap f
  | boxed body ih => exact ih he hconsumes
  | step p => exact Bool.noConfusion hconsumes

/-- **Parsers that always move.**  An expression that is built so that it
cannot stay gets further from every state that a run can come to, if it
succeeds.  Of such an expression, no repetition stops because an iteration
stayed: where zero-or-more stops, and one-or-more with it, the expression
fails. -/
theorem consuming_moves {α : Type} {e : Expr α} (he : e.StepsAre fun _ p => p.Stepwise)
    (hconsumes : e.consumes = true) {target : String} {s : State Unit}
    (hs : State.Reachable target s) (hok : s.isError = false) :
    ((e.parser s).isError = false → s.index < (e.parser s).index) ∧
    ∃ as j, e.parser.many s = ⟨target, j, .ok as⟩ ∧
      e.parser.manyOne s =
        (if as.isEmpty then ⟨target, j, .error (.emptyRepetition j)⟩ else ⟨target, j, .ok as⟩) ∧
      (e.parser ⟨target, j, .ok ()⟩).isError = true := by
  have hlawful : e.StepsAre fun _ p => p.Lawful := he.imp fun _ _ hp => hp.lawful
  have hp : e.parser.Lawful := Expr.parser_lawful hlawful
  obtain ⟨i, rfl, hi⟩ := hs.exists_boundary hok
  have hmoves := Expr.progresses hlawful hconsumes target
  refine ⟨fun hsucceeds => ?_, ?_⟩
  · obtain ⟨a, j, ha⟩ := hp.exists_succeeds hi hsucceeds
    rw [ha]
    exact hmoves hi ha
  · have hforward := hp.goesForward target
    obtain ⟨steps, hsteps⟩ := hforward.exists_chain hi
    have hstop := hsteps.lastStop_mem hforward hi
    have hmany := hsteps.many
    exact ⟨_, _, hmany, Parser.manyOne_of_many hmany,
      hmoves.isError_of_ends hstop hsteps.ends_lastStop⟩

/-- Letters, if there are any, and then a mark. -/
def markedLetters : Expr (List String × String) :=
  .and (.many (.matcher (.charClass .letters))) (.matcher (.literal ⟨"é", by decide⟩))

/-- The letters may be missing and the mark may not, so the repetition stops
where the mark is missing. -/
theorem consuming_moves_marked :
    (markedLetters.StepsAre fun _ p => p.Stepwise) ∧ markedLetters.consumes = true ∧
    State.Reachable "aé1" (State.initial "aé1") ∧
    0 < (markedLetters.parser (State.initial "aé1")).index ∧
    markedLetters.parser.many (State.initial "aé1") = ⟨"aé1", 3, .ok [(["a"], "é")]⟩ ∧
    (markedLetters.parser ⟨"aé1", 3, .ok ()⟩).isError = true := by
  have he : markedLetters.StepsAre fun _ p => p.Stepwise := ⟨trivial, trivial⟩
  have hs : State.Reachable "aé1" (State.initial "aé1") := .start
  have hrun : markedLetters.parser.many (State.initial "aé1") =
      ⟨"aé1", 3, .ok [(["a"], "é")]⟩ := by
    simp only [markedLetters, Expr.parser]
    set_option maxRecDepth 2048 in cbv
  obtain ⟨hmoves, as, j, hmany, -, hfails⟩ := consuming_moves he rfl hs rfl
  obtain ⟨-, rfl⟩ := Parser.Succeeds.unique hmany hrun
  refine ⟨he, rfl, hs, hmoves ?_, hrun, hfails⟩
  simp only [markedLetters, Expr.parser]
  cbv

end Parsing
