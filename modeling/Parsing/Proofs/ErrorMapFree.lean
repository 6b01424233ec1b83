/-
Parsing.Proofs.ErrorMapFree — functions on failures never decide a parse.

`Expr.withoutErrorMaps` takes every function on failures out of an
expression.  What is left parses as before: from every state that a run can
come to and that has not failed, both expressions succeed with the same
value at the same offset, or both fail.  Only what is said of a failure
differs, and where the failed state stands.

A function on failures may move a failed state anywhere, even behind the
end of the input.  That does no harm because a failed state is a dead end
(a sequence hands it on, a choice and a repetition leave it and go on from
where they started), so a combinator can be compared by the successes of
its parts (`Parser.SameVerdicts`).  One lemma for each combinator, and
induction on the expression puts them together.
-/
import Mathlib
import Parsing.Proofs.Outcome
import Parsing.Proofs.Reachable

namespace Parsing

/-! ## Expressions without functions on failures -/

namespace Expr

/-- The expression without its functions on failures, at any depth. -/
def withoutErrorMaps : {α : Type} → Expr α → Expr α
  | _, .matcher m => .matcher m
  | _, .sequenceOf parts => .sequenceOf fun i => (parts i).withoutErrorMaps
  | _, .and first second => .and first.withoutErrorMaps second.withoutErrorMaps
  | _, .choice alternatives => .choice fun i => (alternatives i).withoutErrorMaps
  | _, .or first second => .or first.withoutErrorMaps second.withoutErrorMaps
  | _, .either first second => .either first.withoutErrorMaps second.withoutErrorMaps
  | _, .many body => .many body.withoutErrorMaps
  | _, .manyOne body => .manyOne body.withoutErrorMaps
  | _, .map body f => .map body.withoutErrorMaps f
  | _, .errorMap body _ => body.withoutErrorMaps
  | _, .boxed body => .boxed body.withoutErrorMaps
  | _, .step p => .step p

/-- Nothing is put in, so what an expression may contain stays allowed. -/
theorem BuiltWith.withoutErrorMaps {x y : Extras} (hmap : x.map → y.map)
    (hstep : ∀ (α : Type) (p : Parser α), x.step α p → y.step α p) {α : Type}
    {e : Expr α} (h : e.BuiltWith x) : e.withoutErrorMaps.BuiltWith y := by
  induction e with
  | matcher m => trivial
  | sequenceOf parts ih => exact fun i => ih i (h i)
  | and first second ih₁ ih₂ => exact ⟨ih₁ h.1, ih₂ h.2⟩
  | choice alternatives ih => exact fun i => ih i (h i)
  | or first second ih₁ ih₂ => exact ⟨ih₁ h.1, ih₂ h.2⟩
  | either first second ih₁ ih₂ => exact ⟨ih₁ h.1, ih₂ h.2⟩
  | many body ih => exact ih h
  | manyOne body ih => exact ih h
  | map body f ih => exact ⟨hmap h.1, ih h.2⟩
  | errorMap body f ih => exact ih h.2
  | boxed body ih => exact ih h
  | step p => exact hstep _ p h

theorem StepsAre.errorMapFree {kind : (α : Type) → Parser α → Prop} {α : Type}
    {e : Expr α} (h : e.StepsAre kind) : e.withoutErrorMaps.ErrorMapFree :=
  BuiltWith.withoutErrorMaps (fun _ => trivial) (fun _ _ _ => trivial) h

end Expr

/-! ## Parsers that succeed alike -/

namespace Parser

variable {α β : Type} {target : String} {i : Nat}

/-- Two lawful parsers that succeed alike over an input: from every
boundary, with the same values up to the same offsets. -/
structure SameVerdicts (target : String) (p q : Parser α) : Prop where
  left : p.Lawful
  right : q.Lawful
  succeeds : ∀ {i : Nat}, Text.IsBoundary target i → ∀ (a : α) (j : Nat),
    p.Succeeds target i a j ↔ q.Succeeds target i a j

theorem SameVerdicts.refl {p : Parser α} (hp : p.Lawful) : SameVerdicts target p p :=
  ⟨hp, hp, fun _ _ _ => Iff.rfl⟩

variable {p q : Parser α} {p' q' : Parser β}

/-- A lawful parser that does not succeed fails, so they also fail alike. -/
theorem SameVerdicts.fails (h : SameVerdicts target p q) (hi : Text.IsBoundary target i) :
    p.Fails target i ↔ q.Fails target i := by
  constructor
  · intro hfails
    rcases h.right.cases hi with ⟨a, j, ha, -⟩ | hq
    · exact absurd hfails ((h.succeeds hi a j).2 ha).not_fails
    · exact hq
  · intro hfails
    rcases h.left.cases hi with ⟨a, j, ha, -⟩ | hp
    · exact absurd hfails ((h.succeeds hi a j).1 ha).not_fails
    · exact hp

theorem SameVerdicts.map (h : SameVerdicts target p q) (f : α → β) :
    SameVerdicts target (p.map f) (q.map f) where
  left := h.left.map f
  right := h.right.map f
  succeeds hi b j := by simp only [map_succeeds, h.succeeds hi]

/-- A function on failures does not touch a success. -/
theorem SameVerdicts.errorMap (h : SameVerdicts target p q) (f : Failure → Nat → Failure) :
    SameVerdicts target (p.errorMap f) q where
  left := h.left.errorMap f
  right := h.right
  succeeds hi a j := errorMap_succeeds.trans (h.succeeds hi a j)

theorem SameVerdicts.and (h : SameVerdicts target p q) (h' : SameVerdicts target p' q') :
    SameVerdicts target (p.and p') (q.and q') where
  left := h.left.and h'.left
  right := h.right.and h'.right
  succeeds {i} hi ab k := by
    rw [and_succeeds h.left hi, and_succeeds h.right hi]
    constructor
    · rintro ⟨j, ha, hb⟩
      have hj := (h.left.forward hi ha).2
      exact ⟨j, (h.succeeds hi _ _).1 ha, (h'.succeeds hj _ _).1 hb⟩
    · rintro ⟨j, ha, hb⟩
      have hj := (h.right.forward hi ha).2
      exact ⟨j, (h.succeeds hi _ _).2 ha, (h'.succeeds hj _ _).2 hb⟩

/-- By induction on the number of parts. -/
theorem SameVerdicts.sequenceOf {n : Nat} {ps qs : Fin n → Parser α}
    (h : ∀ k, SameVerdicts target (ps k) (qs k)) :
    SameVerdicts target (sequenceOf (List.ofFn ps)) (sequenceOf (List.ofFn qs)) where
  left := Lawful.sequenceOf (lawful_of_mem_ofFn fun k => (h k).left)
  right := Lawful.sequenceOf (lawful_of_mem_ofFn fun k => (h k).right)
  succeeds {i} hi as k := by
    induction n generalizing i as with
    | zero => simp only [List.ofFn_zero]
    | succ n ih =>
      have hrest := @ih _ _ fun k => h k.succ
      rw [List.ofFn_succ, List.ofFn_succ, sequenceOf_cons_succeeds (h 0).left hi,
        sequenceOf_cons_succeeds (h 0).right hi]
      constructor
      · rintro ⟨b, j, bs, hb, hbs, rfl⟩
        have hj := ((h 0).left.forward hi hb).2
        exact ⟨b, j, bs, ((h 0).succeeds hi b j).1 hb, (hrest hj bs).1 hbs, rfl⟩
      · rintro ⟨b, j, bs, hb, hbs, rfl⟩
        have hj := ((h 0).right.forward hi hb).2
        exact ⟨b, j, bs, ((h 0).succeeds hi b j).2 hb, (hrest hj bs).2 hbs, rfl⟩

/-- All alternatives start where the choice starts, whatever the failures
of those before them. -/
theorem SameVerdicts.choice {n : Nat} {ps qs : Fin n → Parser α}
    (h : ∀ k, SameVerdicts target (ps k) (qs k)) :
    SameVerdicts target (choice (List.ofFn ps)) (choice (List.ofFn qs)) where
  left := Lawful.choice (lawful_of_mem_ofFn fun k => (h k).left)
  right := Lawful.choice (lawful_of_mem_ofFn fun k => (h k).right)
  succeeds {i} hi a j := by
    induction n with
    | zero => simp only [List.ofFn_zero]
    | succ n ih =>
      have hrest := @ih _ _ fun k => h k.succ
      rw [List.ofFn_succ, List.ofFn_succ, choice_cons_succeeds (h 0).left hi,
        choice_cons_succeeds (h 0).right hi, (h 0).succeeds hi, (h 0).fails hi, hrest]

theorem SameVerdicts.or {p' q' : Parser α} (h : SameVerdicts target p q)
    (h' : SameVerdicts target p' q') : SameVerdicts target (p.or p') (q.or q') where
  left := h.left.or h'.left
  right := h.right.or h'.right
  succeeds hi a j := by
    rw [or_succeeds h.left h'.left hi, or_succeeds h.right h'.right hi, h.succeeds hi,
      h.fails hi, h'.succeeds hi]

theorem SameVerdicts.either (h : SameVerdicts target p q) (h' : SameVerdicts target p' q') :
    SameVerdicts target (p.either p') (q.either q') :=
  (h.map Sum.inl).or (h'.map Sum.inr)

/-- By induction on the values kept.  The attempt that ends a repetition
fails for both parsers or stays where it is for both. -/
theorem SameVerdicts.many (h : SameVerdicts target p q) :
    SameVerdicts target p.many q.many where
  left := h.left.many
  right := h.right.many
  succeeds {i} hi as k := by
    induction as generalizing i with
    | nil =>
      rw [many_nil_succeeds h.left hi, many_nil_succeeds h.right hi, h.fails hi]
      simp only [h.succeeds hi]
    | cons a as ih =>
      rw [many_cons_succeeds h.left hi, many_cons_succeeds h.right hi]
      constructor
      · rintro ⟨j, ha, hij, has⟩
        have hj := (h.left.forward hi ha).2
        exact ⟨j, (h.succeeds hi a j).1 ha, hij, (ih hj).1 has⟩
      · rintro ⟨j, ha, hij, has⟩
        have hj := (h.right.forward hi ha).2
        exact ⟨j, (h.succeeds hi a j).2 ha, hij, (ih hj).2 has⟩

theorem SameVerdicts.manyOne (h : SameVerdicts target p q) :
    SameVerdicts target p.manyOne q.manyOne where
  left := h.left.manyOne
  right := h.right.manyOne
  succeeds hi as j := by
    rw [manyOne_succeeds h.left hi, manyOne_succeeds h.right hi, h.many.succeeds hi]

end Parser

/-! ## The law -/

/-- With and without its functions on failures, an expression gives the
same verdicts. -/
theorem Expr.sameVerdicts_withoutErrorMaps {α : Type} {e : Expr α}
    (h : e.StepsAre fun _ p => p.Lawful) (target : String) :
    Parser.SameVerdicts target e.parser e.withoutErrorMaps.parser := by
  induction e with
  | matcher m => exact .refl m.parser_lawful
  | sequenceOf parts ih => exact .sequenceOf fun k => ih k (h k)
  | and first second ih₁ ih₂ => exact (ih₁ h.1).and (ih₂ h.2)
  | choice alternatives ih => exact .choice fun k => ih k (h k)
  | or first second ih₁ ih₂ => exact (ih₁ h.1).or (ih₂ h.2)
  | either first second ih₁ ih₂ => exact (ih₁ h.1).either (ih₂ h.2)
  | many body ih => exact (ih h).many
  | manyOne body ih => exact (ih h).manyOne
  | map body f ih => exact (ih h.2).map f
  | errorMap body f ih => exact (ih h.2).errorMap f
  | boxed body ih => exact ih h
  | step p => exact .refl h

/-- **Functions on failures never decide a parse.**  From a state that a
run can come to and that has not failed, an expression and what is left of
it without its functions on failures both succeed, on the same input with
the same value at the same offset, or both fail. -/
theorem errorMaps_never_decide {α : Type} {e : Expr α}
    (he : e.StepsAre fun _ p => p.Stepwise) {target : String} {s : State Unit}
    (hs : State.Reachable target s) (hok : s.isError = false) :
    e.withoutErrorMaps.ErrorMapFree ∧
    ((∃ value index, e.parser s = ⟨target, index, .ok value⟩ ∧
        e.withoutErrorMaps.parser s = ⟨target, index, .ok value⟩) ∨
      ((e.parser s).isError = true ∧ (e.withoutErrorMaps.parser s).isError = true)) := by
  have hlawful : e.StepsAre fun _ p => p.Lawful := he.imp fun _ _ hp => hp.lawful
  have hlead := hs.leadsTo
  have hplaced := hlead.wellPlaced
  obtain ⟨t, i, failure | ⟨⟩⟩ := s
  · simp at hok
  obtain rfl : t = target := hlead.target_eq
  have hsame := e.sameVerdicts_withoutErrorMaps hlawful t
  refine ⟨hlawful.errorMapFree, ?_⟩
  rcases hsame.left.cases hplaced with ⟨a, j, ha, -⟩ | ⟨f, hf⟩
  · exact .inl ⟨a, j, ha, (hsame.succeeds hplaced a j).1 ha⟩
  · obtain ⟨f', hf'⟩ := (hsame.fails hplaced).1 ⟨f, hf⟩
    refine .inr ⟨?_, ?_⟩
    · rw [hf, State.isError_error]
    · rw [hf', State.isError_error]

/-- Letters, or else a step forward, again and again; where letters are
missing, the failure is moved behind the end of the input. -/
def relocated : Expr (List String) :=
  .many (.or
    (.errorMap (.matcher (.charClass .letters)) fun failure _ => { failure with index := 9 })
    (.step fun s => s.advance 1 "?"))

/-- The step forward starts where the letters were missing, and not where
their failure was moved to. -/
theorem errorMaps_never_decide_relocated :
    (relocated.StepsAre fun _ p => p.Stepwise) ∧
    State.Reachable "éa1" (⟨"éa1", 2, .ok ()⟩ : State Unit) ∧
    relocated.parser ⟨"éa1", 2, .ok ()⟩ = ⟨"éa1", 4, .ok ["a", "?"]⟩ ∧
    relocated.withoutErrorMaps.parser ⟨"éa1", 2, .ok ()⟩ = ⟨"éa1", 4, .ok ["a", "?"]⟩ := by
  have he : relocated.StepsAre fun _ p => p.Stepwise :=
    ⟨⟨trivial, trivial⟩, fun s => .next .start (.advance s 1 "?")⟩
  have hstate : (State.initial "éa1").advance 1 () = ⟨"éa1", 2, .ok ()⟩ := by cbv
  have hs : State.Reachable "éa1" (⟨"éa1", 2, .ok ()⟩ : State Unit) := by
    rw [← hstate]
    exact .next .start (.operation (.advance _ 1 ()))
  have hrun : relocated.parser ⟨"éa1", 2, .ok ()⟩ = ⟨"éa1", 4, .ok ["a", "?"]⟩ := by
    simp only [relocated, Expr.parser]
    cbv
  refine ⟨he, hs, hrun, ?_⟩
  rcases (errorMaps_never_decide he hs rfl).2 with ⟨value, index, h, h'⟩ | ⟨herror, -⟩
  · rw [h', ← h, hrun]
  · rw [hrun, State.isError_ok] at herror
    exact Bool.noConfusion herror

end Parsing
