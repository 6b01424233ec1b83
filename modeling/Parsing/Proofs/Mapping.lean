/-
Parsing.Proofs.Mapping — functions on values and on failures move through
everything.

A function that is applied to what a parser answers can as well be applied to
what a combinator makes of it: a combinator puts values together and never
looks at one.  These laws are equations between parsers, so that they hold in
every state, failed ones included, and nothing is asked of the parsers: they may
go back, or on to another input, and repetitions of them may have no end.  Of
the two loops, of values and of mapped values, both end or neither does
(`Parser.repeats_map`).

A function on failures is also given the offset of the failed state.  This says
nothing that the failure does not say itself, because a failed state stands at
the offset of its failure.  So a function that changes nothing may be left out;
and at any depth of an expression, the functions may read the offset off the
failure (`Expr.atOwnOffsets`).  Here the state must be one that a run can come
to, and what a parser answers must be one again, of whatever input and wherever
on it (`Parser.AnswersReachable`).  The argument is one about well placed states
(`Parser.Agrees`).
-/
import Mathlib
import Parsing.Proofs.Outcome
import Parsing.Proofs.Reachable

namespace Parsing

/-! ## States -/

namespace State

variable {α β : Type}

theorem mapResult_mapError (s : State α) (f : α → β) (h : Failure → Nat → Failure) :
    (s.mapResult f).mapError h = (s.mapError h).mapResult f := by
  obtain ⟨t, i, e | a⟩ := s <;> rfl

/-- The second function is given what the first one left, and its offset. -/
theorem mapError_mapError (s : State α) (h k : Failure → Nat → Failure) :
    (s.mapError h).mapError k =
      s.mapError fun failure index => k (h failure index) (h failure index).index := by
  obtain ⟨t, i, e | a⟩ := s <;> rfl

/-- In a well placed state, the offset can be read off the failure. -/
theorem WellPlaced.mapError_own {s : State α} (hs : s.WellPlaced) (h : Failure → Nat → Failure) :
    s.mapError (fun failure _ => h failure failure.index) = s.mapError h := by
  obtain ⟨t, i, failure | a⟩ := s
  · obtain rfl : i = failure.index := hs
    rfl
  · rfl

theorem WellPlaced.mapError_id {s : State α} (hs : s.WellPlaced) :
    s.mapError (fun failure _ => failure) = s := by
  obtain ⟨t, i, failure | a⟩ := s
  · obtain rfl : i = failure.index := hs
    rfl
  · rfl

/-- The two are one state, and it is well placed. -/
structure SamePlaced (s t : State α) : Prop where
  eq : t = s
  wellPlaced : s.WellPlaced

theorem SamePlaced.refl {s : State α} (hs : s.WellPlaced) : s.SamePlaced s :=
  ⟨rfl, hs⟩

theorem SamePlaced.mapResult {s t : State α} (h : s.SamePlaced t) (f : α → β) :
    (s.mapResult f).SamePlaced (t.mapResult f) := by
  obtain ⟨rfl, hs⟩ := h
  exact .refl (leadsTo_mapResult hs f).wellPlaced

theorem SamePlaced.andThen {s t : State α} (h : s.SamePlaced t)
    {next next' : State Unit → α → State β}
    (hnext : ∀ rest a, rest.WellPlaced → (next rest a).SamePlaced (next' rest a)) :
    (s.andThen next).SamePlaced (t.andThen next') := by
  obtain ⟨rfl, hs⟩ := h
  obtain ⟨target, i, failure | a⟩ := t
  · exact ⟨rfl, hs⟩
  · exact hnext ⟨target, i, .ok ()⟩ a hs

end State

namespace Parser

/-! ## Functions on values -/

section Values

variable {α β γ δ : Type}

theorem map_map (p : Parser α) (f : α → β) (g : β → γ) : (p.map f).map g = p.map (g ∘ f) :=
  funext fun s => State.mapResult_mapResult (p s) f g

theorem and_map (p : Parser α) (q : Parser β) (f : α → γ) (g : β → δ) :
    (p.map f).and (q.map g) = (p.and q).map (Prod.map f g) := by
  funext s
  simp only [Parser.and, map_apply, State.mapResult_andThen, State.andThen_mapResult,
    State.withResult_mapResult, Prod.map_apply]

theorem inOrder_map (ps : List (Parser α)) (f : α → β) (s : State Unit) :
    inOrder (ps.map fun p => p.map f) s = (inOrder ps s).mapResult (List.map f) := by
  induction ps generalizing s with
  | nil => exact (State.withResult_mapResult s [] (List.map f)).symm
  | cons p ps ih =>
    rw [List.map_cons, inOrder, inOrder, map_apply, State.mapResult_andThen,
      State.andThen_mapResult]
    simp only [ih, State.mapResult_mapResult]
    rfl

theorem sequenceOf_map (ps : List (Parser α)) (f : α → β) :
    sequenceOf (ps.map fun p => p.map f) = (sequenceOf ps).map (List.map f) := by
  funext s
  rw [map_apply, sequenceOf, sequenceOf, State.andThen_mapResult]
  simp only [inOrder_map]

theorem firstSuccess_map (ps : List (Parser α)) (f : α → β) (s : State Unit) :
    firstSuccess (ps.map fun p => p.map f) s =
      (firstSuccess ps s).map fun success => success.mapResult f := by
  induction ps with
  | nil => rfl
  | cons p ps ih =>
    rw [List.map_cons, firstSuccess_cons, firstSuccess_cons, map_apply, State.failure?_mapResult,
      ih]
    cases (p s).failure? with
    | none => rfl
    | some failure => cases firstSuccess ps s <;> rfl

theorem choice_map (ps : List (Parser α)) (f : α → β) :
    choice (ps.map fun p => p.map f) = (choice ps).map f := by
  funext s
  obtain ⟨target, i, failure | ⟨⟩⟩ := s
  · rfl
  · rw [map_apply, choice_apply, choice_apply, firstSuccess_map]
    cases firstSuccess ps ⟨target, i, .ok ()⟩ <;> rfl

theorem or_map (p q : Parser α) (f : α → β) : (p.map f).or (q.map f) = (p.or q).map f := by
  rw [or_eq_choice, or_eq_choice, ← choice_map]
  rfl

/-- By induction on the limit; whether an attempt is kept does not depend on its
value. -/
theorem loop_map (p : Parser α) (f : α → β) (limit : Nat) (s : State Unit) (kept : List α) :
    loop (p.map f) limit s (kept.map f) =
      (loop p limit s kept).map fun (stop, kept) => (stop, kept.map f) := by
  induction limit generalizing s kept with
  | zero => rfl
  | succ limit ih =>
    cases hanswer : p s with
    | mk t i outcome =>
      have hmapped : p.map f s = ⟨t, i, outcome.map f⟩ := by rw [map_apply, hanswer]; rfl
      cases outcome with
      | error failure =>
        rw [loop_of_error hanswer, loop_of_error hmapped]
        rfl
      | ok a =>
        rw [loop_of_ok hanswer, loop_of_ok hmapped]
        split
        · rfl
        · rw [← ih, List.map_append, List.map_singleton]

theorem repeats_map (p : Parser α) (f : α → β) (s : State Unit) (kept : List α) :
    repeats (p.map f) s (kept.map f) =
      (repeats p s kept).map fun (stop, kept) => (stop, kept.map f) :=
  repeats_congr _ fun limit => loop_map p f limit s kept

theorem iterate_map (p : Parser α) (f : α → β) (s : State Unit) :
    iterate (p.map f) s = ((iterate p s).1, (iterate p s).2.map f) := by
  have hrepeats := repeats_map p f s []
  rw [List.map_nil] at hrepeats
  rw [iterate, iterate, hrepeats]
  cases repeats p s [] <;> rfl

theorem many_map (p : Parser α) (f : α → β) : (p.map f).many = p.many.map (List.map f) := by
  funext s
  rw [map_apply, many, many, State.andThen_mapResult]
  simp only [iterate_map, State.withResult_mapResult]

theorem manyOne_map (p : Parser α) (f : α → β) :
    (p.map f).manyOne = p.manyOne.map (List.map f) := by
  funext s
  rw [map_apply, manyOne, manyOne, State.andThen_mapResult]
  simp only [iterate_map, List.isEmpty_map, apply_ite (State.mapResult · (List.map f)),
    State.withResult_mapResult]
  rfl

end Values

/-! ## Functions on failures -/

section Failures

variable {α β : Type}

theorem map_errorMap (p : Parser α) (f : α → β) (h : Failure → Nat → Failure) :
    (p.map f).errorMap h = (p.errorMap h).map f :=
  funext fun s => State.mapResult_mapError (p s) f h

theorem errorMap_errorMap (p : Parser α) (h k : Failure → Nat → Failure) :
    (p.errorMap h).errorMap k =
      p.errorMap fun failure index => k (h failure index) (h failure index).index :=
  funext fun s => State.mapError_mapError (p s) h k

/-- From every well placed state the two parsers answer the same well placed
state. -/
def Agrees (p q : Parser α) : Prop :=
  ∀ s : State Unit, s.WellPlaced → (p s).SamePlaced (q s)

theorem AnswersReachable.agrees {p : Parser α} (hp : p.AnswersReachable) : Agrees p p :=
  fun s hs => .refl (answersReachable_iff.1 hp s hs)

variable {p q : Parser α} {p' q' : Parser β}

theorem Agrees.map (h : Agrees p q) (f : α → β) : Agrees (p.map f) (q.map f) :=
  fun s hs => (h s hs).mapResult f

/-- In a well placed state, the offset can be read off the failure. -/
theorem Agrees.errorMap (h : Agrees p q) (f : Failure → Nat → Failure) :
    Agrees (p.errorMap f) (q.errorMap fun failure _ => f failure failure.index) := by
  intro s hs
  obtain ⟨heq, hplaced⟩ := h s hs
  refine ⟨?_, (State.leadsTo_mapError hplaced f).wellPlaced⟩
  rw [errorMap_apply, errorMap_apply, heq]
  exact hplaced.mapError_own f

theorem Agrees.and (h : Agrees p q) (h' : Agrees p' q') : Agrees (p.and p') (q.and q') :=
  fun s hs => (h s hs).andThen fun rest _ hrest => (h' rest hrest).andThen fun _ _ hlast =>
    .refl (State.leadsTo_withResult hlast _).wellPlaced

/-- By induction on the number of parts. -/
theorem Agrees.inOrder {n : Nat} {ps qs : Fin n → Parser α} (h : ∀ k, Agrees (ps k) (qs k)) :
    Agrees (inOrder (List.ofFn ps)) (inOrder (List.ofFn qs)) := by
  induction n with
  | zero =>
    intro s hs
    rw [List.ofFn_zero, List.ofFn_zero]
    exact .refl (State.leadsTo_withResult hs _).wellPlaced
  | succ n ih =>
    intro s hs
    rw [List.ofFn_succ, List.ofFn_succ]
    exact (h 0 s hs).andThen fun rest a hrest =>
      (ih (fun k => h k.succ) rest hrest).mapResult (a :: ·)

theorem Agrees.sequenceOf {n : Nat} {ps qs : Fin n → Parser α}
    (h : ∀ k, Agrees (ps k) (qs k)) :
    Agrees (sequenceOf (List.ofFn ps)) (sequenceOf (List.ofFn qs)) :=
  fun _ hs => (State.SamePlaced.refl hs).andThen fun rest _ hrest => Agrees.inOrder h rest hrest

theorem Agrees.firstSuccess {n : Nat} {ps qs : Fin n → Parser α}
    (h : ∀ k, Agrees (ps k) (qs k)) {s : State Unit} (hs : s.WellPlaced) :
    firstSuccess (List.ofFn qs) s = firstSuccess (List.ofFn ps) s := by
  induction n with
  | zero => rw [List.ofFn_zero, List.ofFn_zero]
  | succ n ih =>
    rw [List.ofFn_succ, List.ofFn_succ, firstSuccess_cons, firstSuccess_cons, (h 0 s hs).eq,
      ih fun k => h k.succ]

theorem Agrees.choice {n : Nat} {ps qs : Fin n → Parser α} (h : ∀ k, Agrees (ps k) (qs k)) :
    Agrees (choice (List.ofFn ps)) (choice (List.ofFn qs)) := by
  refine fun _ hs => (State.SamePlaced.refl hs).andThen fun rest _ hrest => ?_
  refine ⟨by rw [Agrees.firstSuccess h hrest], ?_⟩
  cases hfirst : Parser.firstSuccess (List.ofFn ps) rest with
  | ok success =>
    -- the answer is that of one of the alternatives
    obtain ⟨p, hp, rfl, -⟩ := exists_of_firstSuccess hfirst
    obtain ⟨k, rfl⟩ := List.mem_ofFn.1 hp
    exact (h k rest hrest).wellPlaced
  | error causes => exact (State.leadsTo_failWith rest _).wellPlaced

theorem Agrees.or {p' q' : Parser α} (h : Agrees p q) (h' : Agrees p' q') :
    Agrees (p.or p') (q.or q') := by
  have hboth : Agrees (Parser.choice (List.ofFn ![p, p'])) (Parser.choice (List.ofFn ![q, q'])) :=
    .choice (Fin.forall_fin_two.2 ⟨h, h'⟩)
  simpa [or_eq_choice] using hboth

theorem Agrees.either (h : Agrees p q) (h' : Agrees p' q') :
    Agrees (p.either p') (q.either q') :=
  (h.map Sum.inl).or (h'.map Sum.inr)

/-- By induction on the limit: all attempts start in well placed states. -/
theorem Agrees.loop (h : Agrees p q) (limit : Nat) {s : State Unit} (hs : s.WellPlaced)
    (kept : List α) : loop q limit s kept = loop p limit s kept := by
  induction limit generalizing s kept with
  | zero => rfl
  | succ limit ih =>
    obtain ⟨heq, hplaced⟩ := h s hs
    cases hanswer : p s with
    | mk t i outcome =>
      have hother := heq.trans hanswer
      cases outcome with
      | error failure => rw [loop_of_error hanswer, loop_of_error hother]
      | ok a =>
        rw [hanswer] at hplaced
        rw [loop_of_ok hanswer, loop_of_ok hother, ih hplaced]

theorem Agrees.iterate (h : Agrees p q) {s : State Unit} (hs : s.WellPlaced) :
    iterate q s = iterate p s ∧ (iterate p s).1.WellPlaced := by
  have hrepeats := repeats_congr id fun limit =>
    (h.loop limit hs []).trans Option.map_id_apply.symm
  refine ⟨by rw [Parser.iterate, Parser.iterate, hrepeats, Option.map_id_apply], ?_⟩
  refine iterate_keeps (fun s t i a hs hanswer => ?_) hs
  have hplaced := (h s hs).wellPlaced
  rwa [hanswer] at hplaced

theorem Agrees.many (h : Agrees p q) : Agrees p.many q.many := by
  refine fun _ hs => (State.SamePlaced.refl hs).andThen fun rest _ hrest => ?_
  obtain ⟨heq, hplaced⟩ := h.iterate hrest
  exact ⟨by rw [heq], (State.leadsTo_withResult hplaced _).wellPlaced⟩

theorem Agrees.manyOne (h : Agrees p q) : Agrees p.manyOne q.manyOne := by
  refine fun _ hs => (State.SamePlaced.refl hs).andThen fun rest _ hrest => ?_
  obtain ⟨heq, hplaced⟩ := h.iterate hrest
  refine ⟨by rw [heq], ?_⟩
  dsimp only
  split
  · exact (State.leadsTo_failWith _ _).wellPlaced
  · exact (State.leadsTo_withResult hplaced _).wellPlaced

end Failures

end Parser

/-- The expression with the failure's own offset given to every function on
failures, at any depth, in the place of that of the state. -/
def Expr.atOwnOffsets : {α : Type} → Expr α → Expr α
  | _, .matcher m => .matcher m
  | _, .sequenceOf parts => .sequenceOf fun i => (parts i).atOwnOffsets
  | _, .and first second => .and first.atOwnOffsets second.atOwnOffsets
  | _, .choice alternatives => .choice fun i => (alternatives i).atOwnOffsets
  | _, .or first second => .or first.atOwnOffsets second.atOwnOffsets
  | _, .either first second => .either first.atOwnOffsets second.atOwnOffsets
  | _, .many body => .many body.atOwnOffsets
  | _, .manyOne body => .manyOne body.atOwnOffsets
  | _, .map body f => .map body.atOwnOffsets f
  | _, .errorMap body f => .errorMap body.atOwnOffsets fun failure _ => f failure failure.index
  | _, .boxed body => .boxed body.atOwnOffsets
  | _, .step p => .step p

theorem Expr.agrees_atOwnOffsets {α : Type} {e : Expr α}
    (he : e.StepsAre fun _ p => p.AnswersReachable) :
    Parser.Agrees e.parser e.atOwnOffsets.parser := by
  induction e with
  | matcher m => exact m.parser_lawful.answersReachable.agrees
  | sequenceOf parts ih => exact .sequenceOf fun k => ih k (he k)
  | and first second ih₁ ih₂ => exact (ih₁ he.1).and (ih₂ he.2)
  | choice alternatives ih => exact .choice fun k => ih k (he k)
  | or first second ih₁ ih₂ => exact (ih₁ he.1).or (ih₂ he.2)
  | either first second ih₁ ih₂ => exact (ih₁ he.1).either (ih₂ he.2)
  | many body ih => exact (ih he).many
  | manyOne body ih => exact (ih he).manyOne
  | map body f ih => exact (ih he.2).map f
  | errorMap body f ih => exact (ih he.2).errorMap f
  | boxed body ih => exact ih he
  | step p => exact Parser.AnswersReachable.agrees he

/-- **Functions move through.**  A function on the values of a parser, or of
all parts of a combinator, is a function on the values of the combinator: in
every state, on success and on failure.  For a repetition this is so of the loop
already: of the two loops both end or neither does.  Functions on values and on
failures do not meet, and two functions on failures are one, the second of which
is given the offset of the new failure.

In a state that a run can come to, a function that changes no failure of a
parser may be left out, and the offset that a function on its failures is given
is that of the failure.  So all functions on failures of an expression, which
may be built of such parsers, might read it off there. -/
theorem functions_move_through {α β γ δ ε ζ : Type} (p q : Parser α) (r : Parser δ)
    (ps : List (Parser α)) (f : α → β) (g : β → γ) (g' : δ → ε)
    (h k : Failure → Nat → Failure) :
    (∀ start kept, Parser.repeats (p.map f) start (kept.map f) =
      (p.repeats start kept).map fun (stop, kept) => (stop, kept.map f)) ∧
    (p.map f).many = p.many.map (List.map f) ∧
    (p.map f).manyOne = p.manyOne.map (List.map f) ∧
    Parser.sequenceOf (ps.map fun p => p.map f) = (Parser.sequenceOf ps).map (List.map f) ∧
    Parser.choice (ps.map fun p => p.map f) = (Parser.choice ps).map f ∧
    (p.map f).or (q.map f) = (p.or q).map f ∧
    (p.map f).and (r.map g') = (p.and r).map (Prod.map f g') ∧
    (p.map f).map g = p.map (g ∘ f) ∧
    (p.map f).errorMap h = (p.errorMap h).map f ∧
    (p.errorMap h).errorMap k =
      p.errorMap (fun failure index => k (h failure index) (h failure index).index) ∧
    (p.AnswersReachable → ∀ {target s}, State.Reachable target s →
      p.errorMap (fun failure _ => failure) s = p s ∧
      ∀ t i failure, p s = ⟨t, i, .error failure⟩ →
        p.errorMap h s = ⟨t, (h failure i).index, .error (h failure i)⟩ ∧ i = failure.index) ∧
    (∀ e : Expr ζ, (e.StepsAre fun _ p => p.AnswersReachable) →
      ∀ {target s}, State.Reachable target s → e.atOwnOffsets.parser s = e.parser s) := by
  refine ⟨p.repeats_map f, p.many_map f, p.manyOne_map f, Parser.sequenceOf_map ps f,
    Parser.choice_map ps f, p.or_map q f, p.and_map r f g', p.map_map f g, p.map_errorMap f h,
    p.errorMap_errorMap h k, ?_, ?_⟩
  · intro hp target s hs
    have hplaced := Parser.answersReachable_iff.1 hp s hs.leadsTo.wellPlaced
    refine ⟨hplaced.mapError_id, fun t i failure hfails => ?_⟩
    rw [hfails] at hplaced
    rw [Parser.errorMap_apply, hfails, State.mapError_error]
    exact ⟨rfl, hplaced⟩
  · intro e he target s hs
    exact (Expr.agrees_atOwnOffsets he s hs.leadsTo.wellPlaced).eq

/-- Goes to behind the first character, wherever it starts. -/
def toSecond : Parser Char :=
  fun s => (State.initial s.target).advance 1 'x'

theorem toSecond_answersReachable : toSecond.AnswersReachable :=
  fun _ _ => .next .start (.operation (.advance _ 1 'x'))

/-- Letters, whose failure is moved and then told again from where it is. -/
def movedLetters : Expr String :=
  .errorMap
    (.errorMap (.matcher (.charClass .letters)) fun failure _ => { failure with index := 9 })
    (Failure.retold "number")

/-- The repetition goes back once, and keeps what it went back with.  Of the
functions on failures the first moves the failure, and the second is given the
place to which it was moved. -/
theorem functions_move_through_moved :
    toSecond.AnswersReachable ∧
    (movedLetters.StepsAre fun _ p => p.AnswersReachable) ∧
    State.Reachable "ab1" (⟨"ab1", 2, .ok ()⟩ : State Unit) ∧
    (toSecond.map Char.toNat).many ⟨"ab1", 2, .ok ()⟩ = ⟨"ab1", 1, .ok [120]⟩ ∧
    toSecond.errorMap (fun failure _ => failure) ⟨"ab1", 2, .ok ()⟩ =
      toSecond ⟨"ab1", 2, .ok ()⟩ ∧
    movedLetters.atOwnOffsets.parser ⟨"ab1", 2, .ok ()⟩ =
      ⟨"ab1", 9, .error
        (.custom 9 "number at 9: letters: could not match letters at index 2")⟩ := by
  have he : movedLetters.StepsAre fun _ p => p.AnswersReachable := ⟨trivial, trivial, trivial⟩
  have hs : State.Reachable "ab1" (⟨"ab1", 2, .ok ()⟩ : State Unit) :=
    State.reachable_of_isBoundary (by decide)
  have hrun : movedLetters.parser ⟨"ab1", 2, .ok ()⟩ =
      ⟨"ab1", 9, .error
        (.custom 9 "number at 9: letters: could not match letters at index 2")⟩ := by
    simp only [movedLetters, Expr.parser]
    cbv
  obtain ⟨-, hmany, -, -, -, -, -, -, -, -, hplaced, hown⟩ :=
    functions_move_through toSecond toSecond toSecond [] Char.toNat id id (Failure.retold "")
      (Failure.retold "")
  refine ⟨toSecond_answersReachable, he, hs, ?_, (hplaced toSecond_answersReachable hs).1,
    (hown movedLetters he hs).trans hrun⟩
  rw [hmany]
  cbv

end Parsing
