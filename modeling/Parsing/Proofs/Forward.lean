/-
Parsing.Proofs.Forward — parsers of which only the successes are known.

A function that stands as a parser may do as it likes with a failure: nobody
looks at one but the choice, the repetition and the functions on failures.
What a repetition needs is that a success keeps the input, does not go back,
and stays within the input.  `Parser.GoesForward` says this of the successes
that start on one input from a set of offsets, and that they lead back into that
set.  So it can be read of all offsets up to the end of the input, or of its
boundaries.

There is one lemma for each combinator, and `Expr.goesForward` puts them
together.
-/
import Mathlib
import Parsing.Step
import Parsing.Proofs.Outcome

namespace Parsing

namespace State

universe u v

variable {α : Type u} {β : Type v}

theorem isError_iff {s : State α} :
    s.isError = true ↔ ∃ t i failure, s = ⟨t, i, .error failure⟩ := by
  obtain ⟨t, i, failure | a⟩ := s
  · simp
  · simp

/-- What comes out of a success that goes on is a success of what comes then. -/
theorem andThen_eq_ok {s : State α} {next : State Unit → α → State β} {target : String}
    {index : Nat} {value : β} :
    s.andThen next = ⟨target, index, .ok value⟩ ↔
      ∃ t i a, s = ⟨t, i, .ok a⟩ ∧ next ⟨t, i, .ok ()⟩ a = ⟨target, index, .ok value⟩ := by
  obtain ⟨t, i, failure | a⟩ := s
  · simp
  · simp

end State

namespace Parser

variable {α β : Type} {p : Parser α} {q : Parser β} {ps : List (Parser α)}
  {target : String} {places : Set Nat}

/-! ## Steps and matchers -/

theorem goesForward_succeed (hwithin : ∀ i ∈ places, i ≤ target.utf8ByteSize) (value : α) :
    (succeed value).GoesForward target places where
  within := hwithin
  forward i hi t j a h := by
    obtain ⟨rfl, rfl, -⟩ := State.mk.inj h
    exact ⟨rfl, Nat.le_refl _, hi⟩

/-- A move forward ends at a boundary, wherever it starts. -/
theorem goesForward_advance (hwithin : ∀ i ∈ places, i ≤ target.utf8ByteSize)
    (hplaces : ∀ j, Text.IsBoundary target j → j ∈ places) (length : Nat) (value : α) :
    (advance length value).GoesForward target places where
  within := hwithin
  forward i hi t j a h := by
    obtain ⟨rfl, rfl, -⟩ := State.mk.inj h
    have hmin := Text.min_le_ceilBoundary target (i + length)
    have hsize := hwithin i hi
    refine ⟨rfl, ?_, hplaces _ (Text.isBoundary_ceilBoundary _ _)⟩
    show i ≤ Text.ceilBoundary target (i + length)
    omega

end Parser

namespace Matcher

/-- A matcher fails where it stands, or moves forward. -/
theorem fails_or_advances (m : Matcher) (target : String) (i : Nat) :
    m.parser.Fails target i ∨
      ∃ length value,
        m.parser ⟨target, i, .ok ()⟩ = Parser.advance length value ⟨target, i, .ok ()⟩ := by
  cases m with
  | literal l =>
    simp only [parser, Literal.parser, State.andThen_ok, Parser.Fails, Parser.FailsWith]
    split
    · exact .inl ⟨_, rfl⟩
    · split
      · exact .inr ⟨_, _, rfl⟩
      · exact .inl ⟨_, rfl⟩
  | charClass c =>
    simp only [parser, CharClass.parser, State.andThen_ok, Parser.Fails, Parser.FailsWith]
    split
    · exact .inl ⟨_, rfl⟩
    · split
      · exact .inl ⟨_, rfl⟩
      · exact .inr ⟨_, _, rfl⟩

variable {target : String} {places : Set Nat}

theorem goesForward (hwithin : ∀ i ∈ places, i ≤ target.utf8ByteSize)
    (hplaces : ∀ j, Text.IsBoundary target j → j ∈ places) (m : Matcher) :
    m.parser.GoesForward target places where
  within := hwithin
  forward i hi t j a h := by
    rcases m.fails_or_advances target i with ⟨failure, hfailure⟩ | ⟨length, value, hadvance⟩
    · unfold Parser.FailsWith at hfailure
      rw [hfailure] at h
      simp at h
    · rw [hadvance] at h
      exact (Parser.goesForward_advance hwithin hplaces length value).forward hi h

end Matcher

namespace Parser

variable {α β : Type} {p : Parser α} {q : Parser β} {ps : List (Parser α)}
  {target : String} {places : Set Nat}

/-! ## Combinators -/

theorem GoesForward.map (hp : p.GoesForward target places) (f : α → β) :
    (p.map f).GoesForward target places where
  within := hp.within
  forward i hi t j b h := by
    obtain ⟨a, ha, -⟩ := State.mapResult_eq_ok.1 h
    exact hp.forward hi ha

theorem GoesForward.errorMap (hp : p.GoesForward target places) (f : Failure → Nat → Failure) :
    (p.errorMap f).GoesForward target places where
  within := hp.within
  forward _ hi _ _ _ h := hp.forward hi (State.mapError_eq_ok.1 h)

theorem GoesForward.and (hp : p.GoesForward target places) (hq : q.GoesForward target places) :
    (p.and q).GoesForward target places where
  within := hp.within
  forward i hi t k ab h := by
    obtain ⟨t₁, j, a, ha, hsecond⟩ := State.andThen_eq_ok.1 h
    obtain ⟨rfl, hij, hj⟩ := hp.forward hi ha
    obtain ⟨t₂, k', b, hb, hpair⟩ := State.andThen_eq_ok.1 hsecond
    obtain ⟨rfl, hjk, hk⟩ := hq.forward hj hb
    obtain ⟨rfl, rfl, -⟩ := State.mk.inj hpair
    exact ⟨rfl, Nat.le_trans hij hjk, hk⟩

theorem GoesForward.sequenceOf (hwithin : ∀ i ∈ places, i ≤ target.utf8ByteSize)
    (hps : ∀ p ∈ ps, p.GoesForward target places) :
    (sequenceOf ps).GoesForward target places := by
  refine ⟨hwithin, fun i hi t k as h => ?_⟩
  rw [Parser.sequenceOf, State.andThen_ok] at h
  induction ps generalizing i as with
  | nil =>
    obtain ⟨rfl, rfl, -⟩ := State.mk.inj h
    exact ⟨rfl, Nat.le_refl _, hi⟩
  | cons p ps ih =>
    obtain ⟨hp, hrest⟩ := List.forall_mem_cons.1 hps
    obtain ⟨t₁, j, a, ha, hothers⟩ := State.andThen_eq_ok.1 h
    obtain ⟨rfl, hij, hj⟩ := hp.forward hi ha
    obtain ⟨bs, hbs, -⟩ := State.mapResult_eq_ok.1 hothers
    obtain ⟨rfl, hjk, hk⟩ := ih hrest j hj bs hbs
    exact ⟨rfl, Nat.le_trans hij hjk, hk⟩

theorem GoesForward.choice (hwithin : ∀ i ∈ places, i ≤ target.utf8ByteSize)
    (hps : ∀ p ∈ ps, p.GoesForward target places) : (choice ps).GoesForward target places where
  within := hwithin
  forward i hi t j a h := by
    obtain ⟨p, hp, ha⟩ := exists_of_choice_eq_ok h
    exact (hps p hp).forward hi ha

theorem GoesForward.or {p q : Parser α} (hp : p.GoesForward target places)
    (hq : q.GoesForward target places) : (p.or q).GoesForward target places := by
  rw [or_eq_choice]
  exact .choice hp.within (by simp [hp, hq])

theorem GoesForward.either (hp : p.GoesForward target places) (hq : q.GoesForward target places) :
    (p.either q).GoesForward target places :=
  (hp.map Sum.inl).or (hq.map Sum.inr)

/-- A repetition stops at an offset of the set, no smaller than the one from
which it starts. -/
theorem GoesForward.iterate (hp : p.GoesForward target places) {i : Nat} (hi : i ∈ places) :
    ∃ j, (iterate p ⟨target, i, .ok ()⟩).1 = ⟨target, j, .ok ()⟩ ∧ i ≤ j ∧ j ∈ places := by
  refine iterate_keeps (motive := fun s => ∃ j, s = ⟨target, j, .ok ()⟩ ∧ i ≤ j ∧ j ∈ places)
    (fun s t k a hs hstep => ?_) ⟨i, rfl, Nat.le_refl i, hi⟩
  obtain ⟨j, rfl, hij, hj⟩ := hs
  obtain ⟨rfl, hjk, hk⟩ := hp.forward hj hstep
  exact ⟨k, rfl, Nat.le_trans hij hjk, hk⟩

theorem GoesForward.many (hp : p.GoesForward target places) :
    p.many.GoesForward target places where
  within := hp.within
  forward i hi t j as h := by
    obtain ⟨k, hk, hik, hkmem⟩ := hp.iterate hi
    rw [many_apply, hk, State.withResult_ok] at h
    obtain ⟨rfl, rfl, -⟩ := State.mk.inj h
    exact ⟨rfl, hik, hkmem⟩

theorem GoesForward.manyOne (hp : p.GoesForward target places) :
    p.manyOne.GoesForward target places where
  within := hp.within
  forward i hi t j as h := by
    obtain ⟨k, hk, hik, hkmem⟩ := hp.iterate hi
    simp only [Parser.manyOne, State.andThen_ok, hk, State.withResult_ok] at h
    split at h
    · simp [State.failWith] at h
    · obtain ⟨rfl, rfl, -⟩ := State.mk.inj h
      exact ⟨rfl, hik, hkmem⟩

theorem goesForward_of_mem_ofFn {n : Nat} {parts : Fin n → Parser α}
    (h : ∀ i, (parts i).GoesForward target places) :
    ∀ p ∈ List.ofFn parts, p.GoesForward target places := by
  intro p hp
  obtain ⟨i, rfl⟩ := List.mem_ofFn.1 hp
  exact h i

end Parser

/-- What is built of parsers that go forward goes forward. -/
theorem Expr.goesForward {target : String} {places : Set Nat}
    (hwithin : ∀ i ∈ places, i ≤ target.utf8ByteSize)
    (hplaces : ∀ j, Text.IsBoundary target j → j ∈ places) {α : Type} {e : Expr α}
    (h : e.StepsAre fun _ p => p.GoesForward target places) :
    e.parser.GoesForward target places := by
  induction e with
  | matcher m => exact m.goesForward hwithin hplaces
  | sequenceOf parts ih =>
    exact .sequenceOf hwithin (Parser.goesForward_of_mem_ofFn fun i => ih i (h i))
  | and first second ih₁ ih₂ => exact (ih₁ h.1).and (ih₂ h.2)
  | choice alternatives ih =>
    exact .choice hwithin (Parser.goesForward_of_mem_ofFn fun i => ih i (h i))
  | or first second ih₁ ih₂ => exact (ih₁ h.1).or (ih₂ h.2)
  | either first second ih₁ ih₂ => exact (ih₁ h.1).either (ih₂ h.2)
  | many body ih => exact (ih h).many
  | manyOne body ih => exact (ih h).manyOne
  | map body f ih => exact (ih h.2).map f
  | errorMap body f ih => exact (ih h.2).errorMap f
  | boxed body ih => exact ih h
  | step p => exact h

end Parsing
