/-
Parsing.Proofs.Regrouping — choices and sequences, however they are bracketed.

The alternatives of a choice can be grouped in any way, by choices of choices
or two at a time by `or`: the same alternative is the answer, and if there is
none, the choice fails at the same place for the same failures.  Only how deep
these lie among the causes shows the grouping (`Parser.SameChoice`), and to
take the causes of a cause in its place undoes it (`Failure.unfoldFirst`).

Sequences can be grouped in any way too, and there not even a failure shows
it: the first part that fails gives its failed state as the answer of the
whole.  `Parser.InARow` says what it is to be the first.

Nothing is asked of the parsers.
-/
import Mathlib
import Parsing.Proofs.Forward

namespace Parsing

/-! ## Choices -/

/-- The causes of the first failure in its place. -/
def Failure.unfoldFirst : List Failure → List Failure
  | [] => []
  | first :: rest => first.causes ++ rest

theorem Failure.unfoldFirst_exhausted (i : Nat) (causes rest : List Failure) :
    unfoldFirst (.exhausted i causes :: rest) = causes ++ rest := rfl

namespace Parser

section Choices

variable {α : Type} {ps qs : List (Parser α)} {target : String} {i : Nat}

/-- Two answers of choices that start at the offset: the same success, or two
failures there of choices that ran out of alternatives.  Kind, offset and
message of such failures are the same, and their causes are related. -/
inductive SameChoice (target : String) (i : Nat)
    (related : List Failure → List Failure → Prop) : State α → State α → Prop where
  | success {s : State α} (h : s.isError = false) : SameChoice target i related s s
  | failure {causes causes' : List Failure} (h : related causes causes') :
      SameChoice target i related ⟨target, i, .error (.exhausted i causes)⟩
        ⟨target, i, .error (.exhausted i causes')⟩

theorem SameChoice.imp {r r' : List Failure → List Failure → Prop} {s t : State α}
    (hst : SameChoice target i r s t) (h : ∀ causes causes', r causes causes' → r' causes causes') :
    SameChoice target i r' s t := by
  cases hst with
  | success hok => exact .success hok
  | failure hr => exact .failure (h _ _ hr)

theorem SameChoice.trans {r r' r'' : List Failure → List Failure → Prop} {s t u : State α}
    (hst : SameChoice target i r s t) (htu : SameChoice target i r' t u)
    (h : ∀ causes causes' causes'', r causes causes' → r' causes' causes'' →
      r'' causes causes'') : SameChoice target i r'' s u := by
  cases hst with
  | success hok =>
    cases htu with
    | success => exact .success hok
    | failure => exact Bool.noConfusion hok
  | failure hr =>
    cases htu with
    | success hok => exact Bool.noConfusion hok
    | failure hr' => exact .failure (h _ _ _ hr hr')

/-- A choice that runs out of alternatives has their failures as its causes. -/
theorem choice_sameChoice (ps : List (Parser α)) (target : String) (i : Nat) :
    SameChoice target i
      (fun causes causes' => causes' = causes ∧
        List.Forall₂ (fun p cause => (p ⟨target, i, .ok ()⟩).failure? = some cause) ps causes)
      (choice ps ⟨target, i, .ok ()⟩) (choice ps ⟨target, i, .ok ()⟩) := by
  rw [choice_apply]
  cases hps : firstSuccess ps ⟨target, i, .ok ()⟩ with
  | ok success => exact .success (isError_of_firstSuccess hps)
  | error causes => exact .failure ⟨rfl, firstSuccess_eq_error_iff.1 hps⟩

theorem firstSuccess_append (ps qs : List (Parser α)) (s : State Unit) :
    firstSuccess (ps ++ qs) s =
      match firstSuccess ps s with
      | .ok success => .ok success
      | .error causes => (firstSuccess qs s).mapError (causes ++ ·) := by
  induction ps with
  | nil => cases h : firstSuccess qs s <;> simp [firstSuccess, h, Except.mapError]
  | cons p ps ih =>
    rw [List.cons_append, firstSuccess_cons, firstSuccess_cons, ih]
    cases (p s).failure? with
    | none => rfl
    | some failure =>
      cases firstSuccess ps s with
      | ok success => rfl
      | error causes => cases firstSuccess qs s <;> rfl

/-- A choice as an alternative gives one cause for all of its own. -/
theorem firstSuccess_choice_cons (ps qs : List (Parser α)) (target : String) (i : Nat) :
    firstSuccess (choice ps :: qs) ⟨target, i, .ok ()⟩ =
      match firstSuccess ps ⟨target, i, .ok ()⟩ with
      | .ok success => .ok success
      | .error causes =>
          (firstSuccess qs ⟨target, i, .ok ()⟩).mapError (.exhausted i causes :: ·) := by
  rw [firstSuccess_cons, choice_apply]
  cases h : firstSuccess ps ⟨target, i, .ok ()⟩ with
  | ok success =>
    have hok := isError_of_firstSuccess h
    obtain ⟨t, j, failure | a⟩ := success
    · exact Bool.noConfusion hok
    · rfl
  | error causes => rfl

/-- Alternatives at the front may be put into a choice of their own. -/
theorem choice_append_sameChoice (ps qs : List (Parser α)) (target : String) (i : Nat) :
    SameChoice target i (fun causes causes' => Failure.unfoldFirst causes' = causes)
      (choice (ps ++ qs) ⟨target, i, .ok ()⟩) (choice (choice ps :: qs) ⟨target, i, .ok ()⟩) := by
  rw [choice_apply, choice_apply, firstSuccess_append, firstSuccess_choice_cons]
  cases hps : firstSuccess ps ⟨target, i, .ok ()⟩ with
  | ok success => exact .success (isError_of_firstSuccess hps)
  | error causes =>
    cases hqs : firstSuccess qs ⟨target, i, .ok ()⟩ with
    | ok success => exact .success (isError_of_firstSuccess hqs)
    | error causes' => exact .failure (Failure.unfoldFirst_exhausted i causes causes')

/-- Two lists of alternatives may both be put into a choice of their own. -/
theorem choice_choices_sameChoice (ps qs : List (Parser α)) (target : String) (i : Nat) :
    SameChoice target i
      (fun causes causes' => ∃ first second, causes = first ++ second ∧
        causes' = [.exhausted i first, .exhausted i second])
      (choice (ps ++ qs) ⟨target, i, .ok ()⟩)
      (choice [choice ps, choice qs] ⟨target, i, .ok ()⟩) := by
  rw [choice_apply, choice_apply, firstSuccess_append, firstSuccess_choice_cons,
    firstSuccess_choice_cons]
  cases hps : firstSuccess ps ⟨target, i, .ok ()⟩ with
  | ok success => exact .success (isError_of_firstSuccess hps)
  | error causes =>
    cases hqs : firstSuccess qs ⟨target, i, .ok ()⟩ with
    | ok success => exact .success (isError_of_firstSuccess hqs)
    | error causes' => exact .failure ⟨causes, causes', rfl, rfl⟩

/-- The alternatives two at a time, from the left. -/
def orFromLeft (p : Parser α) (ps : List (Parser α)) : Parser α :=
  ps.foldl Parser.or p

/-- By induction on the alternatives behind the first two, which are put into a
choice of their own: there is one cause to unfold for each. -/
theorem orFromLeft_sameChoice (p q : Parser α) (ps : List (Parser α)) (target : String)
    (i : Nat) :
    SameChoice target i
      (fun causes causes' => Failure.unfoldFirst^[ps.length] causes' = causes)
      (choice (p :: q :: ps) ⟨target, i, .ok ()⟩)
      (orFromLeft p (q :: ps) ⟨target, i, .ok ()⟩) := by
  induction ps generalizing p q with
  | nil =>
    have hor : orFromLeft p [q] = choice [p, q] := or_eq_choice p q
    rw [hor]
    exact (choice_sameChoice [p, q] target i).imp fun _ _ h => h.1
  | cons r ps ih =>
    have hfold : orFromLeft p (q :: r :: ps) = orFromLeft (choice [p, q]) (r :: ps) := by
      rw [← or_eq_choice]
      rfl
    have hfirst := choice_append_sameChoice [p, q] (r :: ps) target i
    have hrest := ih (choice [p, q]) r
    rw [hfold]
    -- the causes of the first two are one step deeper than those of the others
    refine hfirst.trans hrest fun causes causes' causes'' h h' => ?_
    rw [List.length_cons, Function.iterate_succ_apply', h', h]

theorem orFromLeft_error (p q : Parser α) (ps : List (Parser α)) (target : String) (i : Nat)
    (failure : Failure) :
    orFromLeft p (q :: ps) ⟨target, i, .error failure⟩ = ⟨target, i, .error failure⟩ := by
  induction ps generalizing p q with
  | nil => rfl
  | cons r ps ih => exact ih (p.or q) r

/-- **Choices regrouped.**  A choice between alternatives, and the same
alternatives two at a time, have the same success, or run out of alternatives
alike: the causes of the choice are then the failures of the alternatives in
their order, and unfolding the first cause of the other, once for each
alternative behind the first two, gives the same list.  A choice between the
choices of two lists has the success of a choice between all of them, or it
has two causes, and what these have as causes is what that choice has.  A
choice between two types is one between alternatives of both.  All of them
hand a failed state on. -/
theorem choices_regroup {β : Type} (p q : Parser α) (r : Parser β) (ps qs rs : List (Parser α))
    (target : String) (i : Nat) :
    SameChoice target i
      (fun causes causes' =>
        List.Forall₂ (fun p cause => (p ⟨target, i, .ok ()⟩).failure? = some cause)
            (p :: q :: ps) causes ∧
          Failure.unfoldFirst^[ps.length] causes' = causes)
      (choice (p :: q :: ps) ⟨target, i, .ok ()⟩)
      (orFromLeft p (q :: ps) ⟨target, i, .ok ()⟩) ∧
    SameChoice target i
      (fun causes causes' => ∃ first second, causes = first ++ second ∧
        causes' = [.exhausted i first, .exhausted i second])
      (choice (qs ++ rs) ⟨target, i, .ok ()⟩)
      (choice [choice qs, choice rs] ⟨target, i, .ok ()⟩) ∧
    p.either r = choice [p.map Sum.inl, r.map Sum.inr] ∧
    ∀ failure : Failure,
      choice ps ⟨target, i, .error failure⟩ = ⟨target, i, .error failure⟩ ∧
      orFromLeft p (q :: ps) ⟨target, i, .error failure⟩ = ⟨target, i, .error failure⟩ ∧
      choice [choice qs, choice rs] ⟨target, i, .error failure⟩ = ⟨target, i, .error failure⟩ ∧
      p.either r ⟨target, i, .error failure⟩ = ⟨target, i, .error failure⟩ := by
  refine ⟨?_, choice_choices_sameChoice qs rs target i, or_eq_choice _ _, fun failure => ?_⟩
  · have hcauses := choice_sameChoice (p :: q :: ps) target i
    have hgrouped := orFromLeft_sameChoice p q ps target i
    refine hcauses.trans hgrouped fun causes causes' causes'' h h' => ?_
    obtain ⟨rfl, hfailures⟩ := h
    exact ⟨hfailures, h'⟩
  · exact ⟨rfl, orFromLeft_error p q ps target i failure, rfl, rfl⟩

end Choices

/-! ## Sequences -/

section Sequences

variable {α β γ : Type} {p : Parser α} {ps : List (Parser α)} {as : List α} {s t u : State Unit}

/-- The parsers succeed in a row, each from the state, without its value, that
the one before it answers.  So they lead from one state to another, with a
value each. -/
inductive InARow : List (Parser α) → State Unit → List α → State Unit → Prop where
  | nil (s : State Unit) : InARow [] s [] s
  | cons {p : Parser α} {ps : List (Parser α)} {s t : State Unit} {target : String} {i : Nat}
      {a : α} {as : List α} (hp : p s = ⟨target, i, .ok a⟩)
      (hps : InARow ps ⟨target, i, .ok ()⟩ as t) : InARow (p :: ps) s (a :: as) t

/-- Parsers that succeed in a row hand on to those behind them. -/
theorem InARow.inOrder_append (h : InARow ps s as t) (qs : List (Parser α)) :
    inOrder (ps ++ qs) s = (inOrder qs t).mapResult (as ++ ·) := by
  induction h with
  | nil s => exact (State.mapResult_id _).symm
  | cons hp _ ih =>
    rw [List.cons_append, inOrder, hp, State.andThen_ok, ih, State.mapResult_mapResult]
    rfl

theorem InARow.inOrder (h : InARow ps s as t) : inOrder ps s = t.withResult as := by
  have happend := h.inOrder_append []
  rw [List.append_nil] at happend
  rw [happend, Parser.inOrder, State.withResult_mapResult, List.append_nil]

theorem InARow.isError (h : InARow ps s as t) (hs : s.isError = false) : t.isError = false := by
  induction h with
  | nil s => exact hs
  | cons _ _ ih => exact ih rfl

/-- By induction on the parsers: they all succeed in a row, or there is a first
one that does not. -/
theorem inARow_or_exists_first (ps : List (Parser α)) (s : State Unit) :
    (∃ as t, InARow ps s as t) ∨
      ∃ before first after as t, ps = before ++ first :: after ∧ InARow before s as t ∧
        (first t).isError = true := by
  induction ps generalizing s with
  | nil => exact .inl ⟨[], s, .nil s⟩
  | cons p ps ih =>
    cases hp : p s with
    | mk target i outcome =>
      cases outcome with
      | error failure => exact .inr ⟨[], p, ps, [], s, rfl, .nil s, by rw [hp, State.isError_error]⟩
      | ok a =>
        cases ih ⟨target, i, .ok ()⟩ with
        | inl hrow =>
          obtain ⟨as, t, hrow⟩ := hrow
          exact .inl ⟨a :: as, t, .cons hp hrow⟩
        | inr hfirst =>
          obtain ⟨before, q, after, as, t, rfl, hrow, herror⟩ := hfirst
          exact .inr ⟨p :: before, q, after, a :: as, t, rfl, .cons hp hrow, herror⟩

/-- What stands behind parsers is run if these succeed in a row. -/
theorem inOrder_append (ps qs : List (Parser α)) (target : String) (i : Nat) :
    inOrder (ps ++ qs) ⟨target, i, .ok ()⟩ =
      (inOrder ps ⟨target, i, .ok ()⟩).andThen fun s as =>
        (inOrder qs s).mapResult (as ++ ·) := by
  cases inARow_or_exists_first ps ⟨target, i, .ok ()⟩ with
  | inl hall =>
    obtain ⟨as, rest, hrow⟩ := hall
    have hok := hrow.isError rfl
    rw [hrow.inOrder_append, hrow.inOrder]
    obtain ⟨t, j, failure | ⟨⟩⟩ := rest
    · exact Bool.noConfusion hok
    · rfl
  | inr hexists =>
    obtain ⟨before, first, after, as, rest, rfl, hrow, herror⟩ := hexists
    obtain ⟨t, j, failure, hfirst⟩ := State.isError_iff.1 herror
    rw [List.append_assoc, List.cons_append, hrow.inOrder_append, hrow.inOrder_append, inOrder,
      inOrder, hfirst]
    rfl

/-- A parser that fails behind others that succeed in a row ends the sequence,
whatever comes after it. -/
theorem InARow.sequenceOf_error {target : String} {i : Nat}
    (h : InARow ps ⟨target, i, .ok ()⟩ as u) {t : String} {j : Nat} {failure : Failure}
    (hp : p u = ⟨t, j, .error failure⟩) (after : List (Parser α)) :
    sequenceOf (ps ++ p :: after) ⟨target, i, .ok ()⟩ = ⟨t, j, .error failure⟩ := by
  rw [sequenceOf, State.andThen_ok, h.inOrder_append, Parser.inOrder, hp, State.andThen_error,
    State.mapResult_error]

/-- A sequence fails exactly as the first of its parsers does that fails. -/
theorem sequenceOf_eq_error_iff {target : String} {i : Nat} {t : String} {j : Nat}
    {failure : Failure} :
    sequenceOf ps ⟨target, i, .ok ()⟩ = ⟨t, j, .error failure⟩ ↔
      ∃ before first after as rest, ps = before ++ first :: after ∧
        InARow before ⟨target, i, .ok ()⟩ as rest ∧ first rest = ⟨t, j, .error failure⟩ := by
  constructor
  · intro hfails
    cases inARow_or_exists_first ps ⟨target, i, .ok ()⟩ with
    | inl hall =>
      obtain ⟨as, rest, hrow⟩ := hall
      have hok := hrow.isError rfl
      rw [sequenceOf, State.andThen_ok, hrow.inOrder] at hfails
      obtain ⟨t', k, failure' | ⟨⟩⟩ := rest
      · exact Bool.noConfusion hok
      · simp at hfails
    | inr hexists =>
      obtain ⟨before, first, after, as, rest, rfl, hrow, herror⟩ := hexists
      obtain ⟨t', k, failure', hfirst⟩ := State.isError_iff.1 herror
      rw [hrow.sequenceOf_error hfirst] at hfails
      obtain ⟨rfl, rfl, hfailure⟩ := State.mk.inj hfails
      obtain rfl := Except.error.inj hfailure
      exact ⟨before, first, after, as, rest, rfl, hrow, hfirst⟩
  · rintro ⟨before, first, after, as, rest, rfl, hrow, hfirst⟩
    exact hrow.sequenceOf_error hfirst after

/-- What two sequences in a row answer, in one list. -/
theorem sequenceOf_append (ps qs : List (Parser α)) :
    sequenceOf (ps ++ qs) =
      ((sequenceOf ps).and (sequenceOf qs)).map fun (as, bs) => as ++ bs := by
  funext s
  obtain ⟨target, i, failure | ⟨⟩⟩ := s
  · -- the first of the two sequences hands the failure on as well
    rfl
  · rw [map_apply, sequenceOf, State.andThen_ok, inOrder_append, Parser.and, sequenceOf,
      State.andThen_ok, State.andThen_mapResult]
    cases inOrder ps ⟨target, i, .ok ()⟩ with
    | mk t j outcome =>
      cases outcome with
      | error failure => rfl
      | ok as =>
        rw [State.andThen_ok, State.andThen_ok, State.andThen_withResult, sequenceOf,
          State.andThen_ok, State.mapResult_mapResult]
        rfl

theorem and_and_eq_map (p : Parser α) (q : Parser β) (r : Parser γ) :
    (p.and q).and r = (p.and (q.and r)).map fun (a, b, c) => ((a, b), c) := by
  funext s
  rw [map_apply]
  simp only [Parser.and, State.andThen_assoc, State.andThen_withResult, State.andThen_mapResult,
    State.mapResult_mapResult, State.mapResult_andThen]
  rfl

/-- From a success, two parsers in a list are two parsers in a row. -/
theorem sequenceOf_pair (p q : Parser α) (target : String) (i : Nat) :
    sequenceOf [p, q] ⟨target, i, .ok ()⟩ =
      (p.and q).map (fun (a, b) => [a, b]) ⟨target, i, .ok ()⟩ := by
  rw [map_apply, sequenceOf, State.andThen_ok]
  simp only [inOrder, Parser.and, State.withResult_mapResult, State.andThen_withResult,
    State.andThen_mapResult, State.mapResult_mapResult]
  rfl

/-- **Sequences regrouped.**  A sequence is two sequences in a row, wherever it
is cut, and three parsers in a row are the same from the left and from the
right, in what they answer to a failed state too.  From a success, two parsers
in a list are the same as two in a row.  A sequence fails if one of its parsers
does, after all before it have succeeded, and then as that parser does from the
state that they left; what stands behind it does not matter. -/
theorem sequences_regroup (p p' : Parser α) (q : Parser β) (r : Parser γ)
    (ps qs : List (Parser α)) :
    sequenceOf (ps ++ qs) =
      ((sequenceOf ps).and (sequenceOf qs)).map (fun (as, bs) => as ++ bs) ∧
    (p.and q).and r = (p.and (q.and r)).map (fun (a, b, c) => ((a, b), c)) ∧
    (∀ (target : String) (i : Nat),
      sequenceOf [p, p'] ⟨target, i, .ok ()⟩ =
        (p.and p').map (fun (a, b) => [a, b]) ⟨target, i, .ok ()⟩) ∧
    ∀ (target : String) (i : Nat) (t : String) (j : Nat) (failure : Failure),
      sequenceOf ps ⟨target, i, .ok ()⟩ = ⟨t, j, .error failure⟩ ↔
        ∃ before first after as rest, ps = before ++ first :: after ∧
          InARow before ⟨target, i, .ok ()⟩ as rest ∧ first rest = ⟨t, j, .error failure⟩ :=
  ⟨sequenceOf_append ps qs, and_and_eq_map p q r, sequenceOf_pair p p',
    fun _ _ _ _ _ => sequenceOf_eq_error_iff⟩

/-- A failed state is another matter: the list hands it on, and two in a row
leave it to the first of them. -/
example :
    sequenceOf [fail (.custom 2 "own"), succeed "b"] ⟨"ab", 1, .error (.custom 1 "given")⟩ =
        ⟨"ab", 1, .error (.custom 1 "given")⟩ ∧
      ((fail (.custom 2 "own")).and (succeed "b")).map (fun (a, b) => [a, b])
          ⟨"ab", 1, .error (.custom 1 "given")⟩ =
        ⟨"ab", 2, .error (.custom 2 "own")⟩ :=
  ⟨rfl, rfl⟩

end Sequences

end Parser

end Parsing
