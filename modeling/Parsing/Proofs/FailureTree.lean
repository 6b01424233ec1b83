/-
Parsing.Proofs.FailureTree — what the tree of a failure looks like.

A failure keeps the failures that led to it, and they keep theirs.  Where
no function is applied to a failure, the engine alone builds these trees:
only a choice has causes, and it stands where its alternatives started, so
on the way from the root to a leaf the offsets do not decrease.
`Failure.WellFormed` says this of a whole tree at once; its parameter is
the offset that the root may not lie before.

The parameter is what the induction needs.  A part of a sequence fails
somewhere behind the start of the sequence, and a tree that is well formed
from there is well formed from the start (`Failure.WellFormed.mono`).  That,
and what combinators make of failures, is all that is needed to carry a
property of failures through combinators (`Failure.Kept`).
-/
import Mathlib
import Parsing.Proofs.Matching

namespace Parsing

namespace Failure

/-! ## Trees -/

/-- The nodes of a failure's tree: the failure, its causes, theirs, and so
on. -/
inductive HasNode : Failure → Failure → Prop where
  | root (failure : Failure) : HasNode failure failure
  | cause {failure cause node : Failure} (hcause : cause ∈ failure.causes)
      (h : HasNode cause node) : HasNode failure node

/-- What the kind of a failure says about it: a matcher fails at the end
of the input or before it, and only a choice has causes. -/
def SuitsKind (target : String) (failure : Failure) : Prop :=
  match failure.kind with
  | .endOfInput => failure.index = target.utf8ByteSize ∧ failure.causes = []
  | .literalMismatch => failure.index < target.utf8ByteSize ∧ failure.causes = []
  | .classMismatch => failure.index < target.utf8ByteSize ∧ failure.causes = []
  | .exhaustedAlternatives => True
  | .emptyRepetition => failure.causes = []
  | .custom => False

/-- A node of a tree that a parser made which started at `start`. -/
structure StandsFrom (target : String) (start : Nat) (node : Failure) : Prop where
  start_le : start ≤ node.index
  le_size : node.index ≤ target.utf8ByteSize
  boundary : Text.IsBoundary target node.index
  le_cause : ∀ cause ∈ node.causes, node.index ≤ cause.index
  suitsKind : node.SuitsKind target

/-- The whole tree stands where it should: the root not before `start`,
and the causes of a node not before the node. -/
inductive WellFormed (target : String) : Nat → Failure → Prop where
  | intro {start : Nat} {failure : Failure} (hstart : start ≤ failure.index)
      (hboundary : Text.IsBoundary target failure.index)
      (hkind : failure.SuitsKind target)
      (hcauses : ∀ cause ∈ failure.causes, WellFormed target failure.index cause) :
      WellFormed target start failure

namespace WellFormed

variable {target : String} {start stop : Nat} {failure node : Failure}

theorem start_le (h : failure.WellFormed target start) : start ≤ failure.index := by
  cases h with
  | intro hstart => exact hstart

/-- A tree may be looked at from further back. -/
theorem mono (h : failure.WellFormed target stop) (hle : start ≤ stop) :
    failure.WellFormed target start := by
  cases h with
  | intro hstop hboundary hkind hcauses =>
    exact .intro (Nat.le_trans hle hstop) hboundary hkind hcauses

theorem leaf {kind : Kind} {message : String} (hb : Text.IsBoundary target start)
    (hkind : (Failure.leaf kind start message).SuitsKind target) :
    (Failure.leaf kind start message).WellFormed target start :=
  .intro (Nat.le_refl _) hb hkind (by simp [Failure.leaf])

theorem exhausted {causes : List Failure} (hb : Text.IsBoundary target start)
    (hcauses : ∀ cause ∈ causes, cause.WellFormed target start) :
    (Failure.exhausted start causes).WellFormed target start :=
  .intro (Nat.le_refl _) hb trivial hcauses

/-- By induction on the way from the root to the node. -/
theorem standsFrom (h : failure.WellFormed target start) (hnode : failure.HasNode node) :
    node.StandsFrom target start := by
  induction hnode generalizing start with
  | root failure =>
    cases h with
    | intro hstart hboundary hkind hcauses =>
      exact ⟨hstart, hboundary.le_size, hboundary,
        fun cause hcause => (hcauses cause hcause).start_le, hkind⟩
  | cause hcause _ ih =>
    cases h with
    | intro hstart _ _ hcauses => exact ih ((hcauses _ hcause).mono hstart)

end WellFormed

end Failure

/-! ## What is true of all failures of a parser -/

/-- A property of failures, and of where the parser started that failed: it
is kept by combinators if it holds of a failure further back as well, and of
the failures that combinators make. -/
structure Failure.Kept (P : String → Nat → Failure → Prop) : Prop where
  mono : ∀ ⦃target : String⦄ ⦃start stop : Nat⦄ ⦃failure : Failure⦄,
    start ≤ stop → P target stop failure → P target start failure
  exhausted : ∀ ⦃target : String⦄ ⦃start : Nat⦄ ⦃causes : List Failure⦄,
    Text.IsBoundary target start → (∀ cause ∈ causes, P target start cause) →
      P target start (.exhausted start causes)
  emptyRepetition : ∀ ⦃target : String⦄ ⦃start : Nat⦄,
    Text.IsBoundary target start → P target start (.emptyRepetition start)

namespace Parser

variable {α β : Type} {p : Parser α} {q : Parser β} {P : String → Nat → Failure → Prop}

/-- From a boundary, the parser fails with nothing but failures that have the
property. -/
def FailsOnly (P : String → Nat → Failure → Prop) (p : Parser α) : Prop :=
  ∀ ⦃target : String⦄ ⦃i : Nat⦄ ⦃failure : Failure⦄, Text.IsBoundary target i →
    p.FailsWith target i failure → P target i failure

theorem FailsOnly.map (hp : p.FailsOnly P) (f : α → β) : (p.map f).FailsOnly P := by
  intro target i failure hi h
  exact hp hi (map_failsWith.1 h)

theorem FailsOnly.and (hP : Failure.Kept P) (hp : p.FailsOnly P) (hq : q.FailsOnly P)
    (hlawful : p.Lawful) : (p.and q).FailsOnly P := by
  intro target i failure hi h
  rcases (and_failsWith hlawful hi).1 h with hfirst | ⟨a, j, ha, hsecond⟩
  · exact hp hi hfirst
  · obtain ⟨hij, hj⟩ := hlawful.forward hi ha
    exact hP.mono hij (hq hj hsecond)

theorem FailsOnly.sequenceOf (hP : Failure.Kept P) {ps : List (Parser α)}
    (hps : ∀ p ∈ ps, p.FailsOnly P) (hlawful : ∀ p ∈ ps, p.Lawful) :
    (sequenceOf ps).FailsOnly P := by
  induction ps with
  | nil =>
    intro target i failure hi h
    exact absurd h sequenceOf_nil_not_failsWith
  | cons p ps ih =>
    intro target i failure hi h
    obtain ⟨hp, hrest⟩ := List.forall_mem_cons.1 hps
    obtain ⟨hp', hrest'⟩ := List.forall_mem_cons.1 hlawful
    rcases (sequenceOf_cons_failsWith hp' hi).1 h with hfirst | ⟨a, j, ha, hothers⟩
    · exact hp hi hfirst
    · obtain ⟨hij, hj⟩ := hp'.forward hi ha
      exact hP.mono hij (ih hrest hrest' hj hothers)

/-- All alternatives start where the choice does. -/
theorem FailsOnly.choice (hP : Failure.Kept P) {ps : List (Parser α)}
    (hps : ∀ p ∈ ps, p.FailsOnly P) (hlawful : ∀ p ∈ ps, p.Lawful) :
    (choice ps).FailsOnly P := by
  intro target i failure hi h
  obtain ⟨causes, hcauses, rfl⟩ := (choice_failsWith hlawful hi).1 h
  refine hP.exhausted hi fun cause hcause => ?_
  obtain ⟨k, hk, rfl⟩ := List.getElem_of_mem hcause
  have hlength : k < ps.length := by rw [hcauses.length_eq]; exact hk
  have hfails : ps[k].FailsWith target i causes[k] := hcauses.get hlength hk
  exact hps _ (List.getElem_mem hlength) hi hfails

theorem FailsOnly.or (hP : Failure.Kept P) {p q : Parser α} (hp : p.FailsOnly P)
    (hq : q.FailsOnly P) (hp' : p.Lawful) (hq' : q.Lawful) : (p.or q).FailsOnly P := by
  rw [or_eq_choice]
  exact .choice hP (by simp [hp, hq]) (by simp [hp', hq'])

theorem FailsOnly.either (hP : Failure.Kept P) (hp : p.FailsOnly P) (hq : q.FailsOnly P)
    (hp' : p.Lawful) (hq' : q.Lawful) : (p.either q).FailsOnly P :=
  (hp.map Sum.inl).or hP (hq.map Sum.inr) (hp'.map _) (hq'.map _)

theorem many_failsOnly (p : Parser α) : p.many.FailsOnly P := by
  intro target i failure hi h
  exact absurd h many_not_failsWith

theorem manyOne_failsOnly (hP : Failure.Kept P) (hlawful : p.Lawful) :
    p.manyOne.FailsOnly P := by
  intro target i failure hi h
  obtain ⟨-, rfl⟩ := (manyOne_failsWith hlawful hi).1 h
  exact hP.emptyRepetition hi

/-- From a boundary, the parser fails with nothing but well-formed
trees. -/
def FailsWellFormed (p : Parser α) : Prop :=
  ∀ ⦃target : String⦄ ⦃i : Nat⦄ ⦃failure : Failure⦄, Text.IsBoundary target i →
    p.FailsWith target i failure → failure.WellFormed target i

end Parser

/-- The combinators keep trees well formed. -/
theorem Failure.kept_wellFormed :
    Failure.Kept fun target start failure => failure.WellFormed target start where
  mono _ _ _ _ hle h := h.mono hle
  exhausted _ _ _ hb hcauses := .exhausted hb hcauses
  emptyRepetition _ _ hb := .leaf hb rfl

/-! ## Matchers and expressions -/

/-- A matcher between `u` and `w` fails at the end if `w` is empty, and
before it otherwise. -/
theorem Failure.wellFormed_mismatch {kind : Kind}
    (hkind : kind = .literalMismatch ∨ kind = .classMismatch) (u w : String)
    (message message' : String) :
    (if w = "" then Failure.leaf .endOfInput u.utf8ByteSize message
      else Failure.leaf kind u.utf8ByteSize message').WellFormed (u ++ w) u.utf8ByteSize := by
  have hb := Text.isBoundary_append u w
  by_cases hw : w = ""
  · rw [if_pos hw]
    exact .leaf hb ⟨by simp [Failure.leaf, hw], rfl⟩
  · have hbefore : u.utf8ByteSize < (u ++ w).utf8ByteSize := by
      have hpos : w.utf8ByteSize ≠ 0 := mt String.utf8ByteSize_eq_zero_iff.1 hw
      rw [String.utf8ByteSize_append]
      omega
    rw [if_neg hw]
    rcases hkind with rfl | rfl
    · exact .leaf hb ⟨hbefore, rfl⟩
    · exact .leaf hb ⟨hbefore, rfl⟩

theorem Matcher.parser_failsWellFormed (m : Matcher) : m.parser.FailsWellFormed := by
  intro target i failure hi h
  obtain ⟨u, w, rfl, rfl⟩ := Text.isBoundary_iff.1 hi
  cases m with
  | literal l =>
    obtain ⟨-, rfl⟩ := Literal.failsWith_iff.1 h
    exact Failure.wellFormed_mismatch (.inl rfl) u w _ _
  | charClass c =>
    obtain ⟨-, rfl⟩ := CharClass.failsWith_iff.1 h
    exact Failure.wellFormed_mismatch (.inr rfl) u w _ _

/-- Where nobody else makes or changes failures, they are well formed. -/
theorem Expr.StepFree.failsWellFormed {α : Type} {e : Expr α} (he : e.StepFree)
    (hplain : e.ErrorMapFree) : e.parser.FailsWellFormed := by
  have hkept := Failure.kept_wellFormed
  show e.parser.FailsOnly fun target start failure => failure.WellFormed target start
  induction e with
  | matcher m => exact m.parser_failsWellFormed
  | sequenceOf parts ih =>
    refine .sequenceOf hkept (fun p hp => ?_)
      (Parser.lawful_of_mem_ofFn fun k => StepFree.lawful (he k))
    obtain ⟨k, rfl⟩ := List.mem_ofFn.1 hp
    exact ih k (he k) (hplain k)
  | and first second ih₁ ih₂ =>
    exact (ih₁ he.1 hplain.1).and hkept (ih₂ he.2 hplain.2) (StepFree.lawful he.1)
  | choice alternatives ih =>
    refine .choice hkept (fun p hp => ?_)
      (Parser.lawful_of_mem_ofFn fun k => StepFree.lawful (he k))
    obtain ⟨k, rfl⟩ := List.mem_ofFn.1 hp
    exact ih k (he k) (hplain k)
  | or first second ih₁ ih₂ =>
    exact (ih₁ he.1 hplain.1).or hkept (ih₂ he.2 hplain.2) (StepFree.lawful he.1)
      (StepFree.lawful he.2)
  | either first second ih₁ ih₂ =>
    exact (ih₁ he.1 hplain.1).either hkept (ih₂ he.2 hplain.2) (StepFree.lawful he.1)
      (StepFree.lawful he.2)
  | many body ih => exact Parser.many_failsOnly _
  | manyOne body ih => exact Parser.manyOne_failsOnly hkept (StepFree.lawful he)
  | map body f ih => exact (ih he.2 hplain.2).map f
  | errorMap body f ih => exact hplain.1.elim
  | boxed body ih => exact ih he hplain
  | step p => exact he.elim

/-- **The trees of failures are well formed.**  A parser without functions
on failures and without functions as parsers that fails from `i` stands at
the offset of its failure, and every node of the tree lies between `i` and
the end of the input, at a boundary, not before its parent, and is what
its kind says. -/
theorem failure_tree_wellFormed {α : Type} {e : Expr α} (he : e.StepFree)
    (hplain : e.ErrorMapFree) {target : String} {i : Nat} (hi : Text.IsBoundary target i)
    {failure : Failure} (h : (e.parser ⟨target, i, .ok ()⟩).outcome = .error failure) :
    (e.parser ⟨target, i, .ok ()⟩).index = failure.index ∧
      ∀ node, failure.HasNode node → node.StandsFrom target i := by
  rcases (Expr.StepFree.lawful he).cases hi with ⟨a, j, ha, -⟩ | ⟨e', he'⟩
  · rw [ha] at h
    cases h
  · have hwell := he.failsWellFormed hplain hi he'
    rw [he'] at h ⊢
    cases h
    exact ⟨rfl, fun node hnode => hwell.standsFrom hnode⟩

/-- Letters, and behind them either a digit that letters or white space
follow, or white space. -/
def nestedChoice : Expr (String × ((String × String) ⊕ String)) :=
  .and (.matcher (.charClass .letters))
    (.either
      (.and (.matcher (.charClass .digits))
        (.or (.matcher (.charClass .letters)) (.matcher (.charClass .whitespace))))
      (.matcher (.charClass .whitespace)))

/-- The choice fails at 3, behind the letter; its first alternative got
past the digit before it failed, and so the causes of that stand at 4. -/
theorem failure_tree_wellFormed_nested_choice :
    nestedChoice.StepFree ∧ nestedChoice.ErrorMapFree ∧ Text.IsBoundary "éa1?" 2 ∧
    (nestedChoice.parser ⟨"éa1?", 2, .ok ()⟩).outcome =
      .error (.exhausted 3
        [.exhausted 4 [CharClass.letters.mismatch 4, CharClass.whitespace.mismatch 4],
          CharClass.whitespace.mismatch 3]) ∧
    (CharClass.whitespace.mismatch 4).StandsFrom "éa1?" 2 := by
  have hfree : nestedChoice.StepFree := ⟨trivial, ⟨trivial, trivial, trivial⟩, trivial⟩
  have hplain : nestedChoice.ErrorMapFree :=
    ⟨trivial, ⟨trivial, trivial, trivial⟩, trivial⟩
  have hb : Text.IsBoundary "éa1?" 2 := by decide
  have hfails : (nestedChoice.parser ⟨"éa1?", 2, .ok ()⟩).outcome =
      .error (.exhausted 3
        [.exhausted 4 [CharClass.letters.mismatch 4, CharClass.whitespace.mismatch 4],
          CharClass.whitespace.mismatch 3]) := by
    simp only [nestedChoice, Expr.parser]
    cbv
  refine ⟨hfree, hplain, hb, hfails, (failure_tree_wellFormed hfree hplain hb hfails).2 _ ?_⟩
  exact .cause (List.mem_cons_self ..)
    (.cause (List.mem_cons_of_mem _ (List.mem_cons_self ..)) (.root _))

end Parsing
