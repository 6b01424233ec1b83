/-
Parsing.Proofs.Repetition — what a repetition keeps, and when it stops.

The successes of a parser that goes forward make one chain from every offset:
each step starts where the one before it stopped and gets further, and the
chain ends where the parser fails or stays (`Parser.Chain`).  A repetition
keeps the values of the chain and stops at its end (`Chain.many`), so what is
said of repetitions here is said of chains.

The loop asks of each attempt only whether it moved.  It knows of no measure
and so might not end.  `Chain.loop` is why it does: a chain is no longer than
the input that is left.

Where every success moves, a repetition is the choice between one more step
and nothing (`many_unrolls`).  In general it leaves nothing to a second
repetition, so that repetitions of repetitions collapse
(`repetitions_collapse`).
-/
import Mathlib
import Parsing.Proofs.Forward
import Parsing.Proofs.Tokens

namespace Parsing.Parser

variable {α : Type} {p : Parser α} {target : String} {places : Set Nat} {i j : Nat} {a : α}
  {steps : List (α × Nat)}

/-! ## Attempts -/

/-- The attempt at the offset ends a repetition: the parser fails, in whatever
way, or succeeds where it stands. -/
def Ends (p : Parser α) (target : String) (i : Nat) : Prop :=
  (p ⟨target, i, .ok ()⟩).isError = true ∨ ∃ a, p.Succeeds target i a i

theorem Succeeds.not_isError (h : p.Succeeds target i a j) :
    (p ⟨target, i, .ok ()⟩).isError = false := by
  unfold Succeeds at h
  rw [h, State.isError_ok]

theorem Succeeds.not_ends (h : p.Succeeds target i a j) (hij : i < j) : ¬ p.Ends target i := by
  intro hends
  cases hends with
  | inl herror => simp [h.not_isError] at herror
  | inr hstays =>
    obtain ⟨b, hb⟩ := hstays
    have hj := (h.unique hb).2
    omega

/-- Every attempt ends the repetition or gets further. -/
theorem GoesForward.ends_or_moves (hp : p.GoesForward target places) (hi : i ∈ places) :
    p.Ends target i ∨ ∃ a j, p.Succeeds target i a j ∧ i < j ∧ j ∈ places := by
  unfold Ends Succeeds
  cases hanswer : p ⟨target, i, .ok ()⟩ with
  | mk t j outcome =>
    cases outcome with
    | error failure => exact .inl (.inl rfl)
    | ok a =>
      obtain ⟨rfl, hij, hj⟩ := hp.forward hi hanswer
      by_cases heq : j = i
      · subst heq
        exact .inl (.inr ⟨a, rfl⟩)
      · exact .inr ⟨a, j, rfl, by omega, hj⟩

theorem loop_of_ends (h : p.Ends target i) (limit : Nat) (kept : List α) :
    loop p (limit + 1) ⟨target, i, .ok ()⟩ kept = some (⟨target, i, .ok ()⟩, kept) := by
  cases h with
  | inl herror =>
    obtain ⟨t, j, failure, hfails⟩ := State.isError_iff.1 herror
    exact loop_of_error hfails limit kept
  | inr hstays =>
    obtain ⟨a, ha⟩ := hstays
    rw [loop_of_ok ha, if_pos rfl]

theorem attempts_of_ends (h : p.Ends target i) :
    attempts p ⟨target, i, .ok ()⟩ = some [⟨target, i, .ok ()⟩] := by
  cases h with
  | inl herror =>
    obtain ⟨t, j, failure, hfails⟩ := State.isError_iff.1 herror
    exact attempts_of_error hfails
  | inr hstays =>
    obtain ⟨a, ha⟩ := hstays
    rw [attempts_of_ok ha, if_pos rfl]

/-! ## Chains -/

/-- The steps from an offset, each with its value and with the offset at which
it stops: every step gets further, and behind the last of them the parser fails
or stays where it is. -/
inductive Chain (p : Parser α) (target : String) : Nat → List (α × Nat) → Prop where
  | ends {i : Nat} (h : p.Ends target i) : Chain p target i []
  | step {i j : Nat} {a : α} {steps : List (α × Nat)} (hstep : p.Succeeds target i a j)
      (hmoves : i < j) (hrest : Chain p target j steps) : Chain p target i ((a, j) :: steps)

/-- The offset at which steps stop that start at an offset. -/
def lastStop (i : Nat) (steps : List (α × Nat)) : Nat :=
  (steps.map Prod.snd).getLastD i

@[simp]
theorem lastStop_nil (i : Nat) : lastStop i ([] : List (α × Nat)) = i := rfl

@[simp]
theorem lastStop_cons (i j : Nat) (a : α) (steps : List (α × Nat)) :
    lastStop i ((a, j) :: steps) = lastStop j steps := by
  rw [lastStop, List.map_cons, List.getLastD_cons, lastStop]

theorem Chain.unique (h : p.Chain target i steps) {steps' : List (α × Nat)}
    (h' : p.Chain target i steps') : steps' = steps := by
  induction h generalizing steps' with
  | ends hends =>
    cases h' with
    | ends _ => rfl
    | step hstep hmoves _ => exact absurd hends (hstep.not_ends hmoves)
  | step hstep hmoves _ ih =>
    cases h' with
    | ends hends => exact absurd hends (hstep.not_ends hmoves)
    | step hstep' _ hrest' =>
      obtain ⟨rfl, rfl⟩ := hstep.unique hstep'
      rw [ih hrest']

/-- By induction on the bytes that are left. -/
theorem GoesForward.exists_chain (hp : p.GoesForward target places) (hi : i ∈ places) :
    ∃ steps, p.Chain target i steps := by
  induction hleft : target.utf8ByteSize - i using Nat.strong_induction_on generalizing i with
  | _ left ih =>
    cases hp.ends_or_moves hi with
    | inl hends => exact ⟨[], .ends hends⟩
    | inr hmoves =>
      obtain ⟨a, j, hstep, hij, hj⟩ := hmoves
      have hsize := hp.within j hj
      obtain ⟨steps, hsteps⟩ := ih (target.utf8ByteSize - j) (by omega) hj rfl
      exact ⟨(a, j) :: steps, .step hstep hij hsteps⟩

/-- Each step moves over one byte at least. -/
theorem Chain.length_add_le (h : p.Chain target i steps) :
    i + steps.length ≤ lastStop i steps := by
  induction h with
  | ends _ => rw [lastStop_nil, List.length_nil, Nat.add_zero]
  | step _ hmoves _ ih =>
    rw [lastStop_cons, List.length_cons]
    omega

theorem Chain.lastStop_mem (h : p.Chain target i steps) (hp : p.GoesForward target places)
    (hi : i ∈ places) : lastStop i steps ∈ places := by
  induction h with
  | ends _ => exact hi
  | step hstep _ _ ih =>
    rw [lastStop_cons]
    exact ih (hp.forward hi hstep).2.2

/-- Behind the last step the parser fails or stays. -/
theorem Chain.ends_lastStop (h : p.Chain target i steps) : p.Ends target (lastStop i steps) := by
  induction h with
  | ends hends => exact hends
  | step _ _ _ ih =>
    rw [lastStop_cons]
    exact ih

/-! ## Repetitions -/

/-- The loop ends with the attempt behind the last step, whatever it has kept
before. -/
theorem Chain.loop (h : p.Chain target i steps) (limit : Nat) (kept : List α) :
    loop p limit ⟨target, i, .ok ()⟩ kept =
      if steps.length < limit then
        some (⟨target, lastStop i steps, .ok ()⟩, kept ++ steps.map Prod.fst)
      else none := by
  induction h generalizing limit kept with
  | ends hends =>
    cases limit with
    | zero => rfl
    | succ limit =>
      rw [loop_of_ends hends, lastStop_nil]
      simp
  | step hstep hmoves _ ih =>
    cases limit with
    | zero => rfl
    | succ limit =>
      rw [loop_of_ok hstep, if_neg (Nat.ne_of_gt hmoves), ih, lastStop_cons]
      simp

/-- Without a limit it ends there too. -/
theorem Chain.repeats (h : p.Chain target i steps) :
    repeats p ⟨target, i, .ok ()⟩ [] =
      some (⟨target, lastStop i steps, .ok ()⟩, steps.map Prod.fst) := by
  have hloop := h.loop (steps.length + 1) []
  rw [if_pos (Nat.lt_succ_self _)] at hloop
  exact repeats_of_loop hloop

/-- The attempts start where the chain does, and where each of its steps stops. -/
theorem Chain.attempts (h : p.Chain target i steps) :
    attempts p ⟨target, i, .ok ()⟩ =
      some ((i :: steps.map Prod.snd).map fun start => ⟨target, start, .ok ()⟩) := by
  induction h with
  | ends hends => exact attempts_of_ends hends
  | step hstep hmoves _ ih =>
    rw [attempts_of_ok hstep, if_neg (Nat.ne_of_gt hmoves), ih]
    rfl

theorem Chain.many (h : p.Chain target i steps) :
    p.many.Succeeds target i (steps.map Prod.fst) (lastStop i steps) := by
  unfold Succeeds
  rw [many_apply, iterate_of_repeats h.repeats, State.withResult_ok]

theorem Chain.manyOne (h : p.Chain target i steps) :
    p.manyOne ⟨target, i, .ok ()⟩ =
      if steps = [] then ⟨target, i, .error (.emptyRepetition i)⟩
      else p.many ⟨target, i, .ok ()⟩ := by
  rw [manyOne_of_many h.many]
  cases steps with
  | nil => rfl
  | cons step steps => exact h.many.symm

/-- **What a repetition keeps.**  From an offset from which a parser goes
forward there is exactly one chain.  A repetition makes one attempt more than
the chain has steps, and so at most one more than there are bytes left; the loop
ends with the last of them, and under every limit that lets it make them all.
Zero-or-more keeps the values of the chain and stops at its end, whatever
failure is met there; one-or-more answers the same if the chain has a step, and
else fails where it started. -/
theorem repetition_follows_chain (hp : p.GoesForward target places) (hi : i ∈ places) :
    (∃! steps, p.Chain target i steps) ∧
    ∀ steps, p.Chain target i steps →
      (attempts p ⟨target, i, .ok ()⟩ =
        some ((i :: steps.map Prod.snd).map fun start => ⟨target, start, .ok ()⟩)) ∧
      steps.length + 1 ≤ (target.utf8ByteSize - i) + 1 ∧
      repeats p ⟨target, i, .ok ()⟩ [] =
        some (⟨target, lastStop i steps, .ok ()⟩, steps.map Prod.fst) ∧
      (∀ limit, loop p limit ⟨target, i, .ok ()⟩ [] =
        if steps.length + 1 ≤ limit then
          some (⟨target, lastStop i steps, .ok ()⟩, steps.map Prod.fst)
        else none) ∧
      p.many ⟨target, i, .ok ()⟩ = ⟨target, lastStop i steps, .ok (steps.map Prod.fst)⟩ ∧
      (steps ≠ [] → p.manyOne ⟨target, i, .ok ()⟩ = p.many ⟨target, i, .ok ()⟩) ∧
      (steps = [] → ∃ failure, p.manyOne ⟨target, i, .ok ()⟩ = ⟨target, i, .error failure⟩ ∧
        failure.kind = .emptyRepetition ∧ failure.index = i ∧ failure.causes = []) := by
  obtain ⟨chain, hchain⟩ := hp.exists_chain hi
  refine ⟨⟨chain, hchain, fun _ => hchain.unique⟩, fun steps hsteps => ?_⟩
  have hlength := hsteps.length_add_le
  have hsize := hp.within _ (hsteps.lastStop_mem hp hi)
  have hmanyOne := hsteps.manyOne
  refine ⟨hsteps.attempts, by omega, hsteps.repeats, fun limit => hsteps.loop limit [],
    hsteps.many, ?_, ?_⟩
  · intro hne
    rw [hmanyOne, if_neg hne]
  · intro hnil
    rw [hmanyOne, if_pos hnil]
    exact ⟨_, rfl, rfl, rfl, rfl⟩

/-- Letters, whose failure is moved behind the end of the input, or else
nothing. -/
def lettersOrNothing : Expr String :=
  .or (.errorMap (.matcher (.charClass .letters)) fun failure _ => { failure with index := 9 })
    (.step (succeed ""))

theorem lettersOrNothing_goesForward (target : String) :
    lettersOrNothing.parser.GoesForward target {i | i ≤ target.utf8ByteSize} :=
  Expr.goesForward (fun _ hi => hi) (fun _ => Text.IsBoundary.le_size)
    ⟨⟨trivial, trivial⟩, goesForward_succeed (fun _ hi => hi) ""⟩

theorem chain_lettersOrNothing : lettersOrNothing.parser.Chain "ab1" 0 [("ab", 2)] := by
  have hmoves : lettersOrNothing.parser.Succeeds "ab1" 0 "ab" 2 := by
    simp only [lettersOrNothing, Expr.parser, Succeeds]
    cbv
  have hstays : lettersOrNothing.parser.Succeeds "ab1" 2 "" 2 := by
    simp only [lettersOrNothing, Expr.parser, Succeeds]
    cbv
  exact .step hmoves (by decide) (.ends (.inr ⟨"", hstays⟩))

/-- The second attempt stays where it is, and so it is the last and not kept;
where it is the first, one-or-more fails. -/
theorem repetition_follows_chain_stays :
    lettersOrNothing.parser.GoesForward "ab1" {i | i ≤ "ab1".utf8ByteSize} ∧
    0 ≤ "ab1".utf8ByteSize ∧ 2 ≤ "ab1".utf8ByteSize ∧
    loop lettersOrNothing.parser 1 ⟨"ab1", 0, .ok ()⟩ [] = none ∧
    loop lettersOrNothing.parser 2 ⟨"ab1", 0, .ok ()⟩ [] = some (⟨"ab1", 2, .ok ()⟩, ["ab"]) ∧
    lettersOrNothing.parser.manyOne ⟨"ab1", 0, .ok ()⟩ = ⟨"ab1", 2, .ok ["ab"]⟩ ∧
    ∃ failure, lettersOrNothing.parser.manyOne ⟨"ab1", 2, .ok ()⟩ = ⟨"ab1", 2, .error failure⟩ ∧
      failure.kind = .emptyRepetition := by
  have hp := lettersOrNothing_goesForward "ab1"
  have hstart : 0 ≤ "ab1".utf8ByteSize := by decide
  have hstop : 2 ≤ "ab1".utf8ByteSize := by decide
  obtain ⟨-, hall⟩ := repetition_follows_chain hp hstart
  obtain ⟨-, -, -, hloop, hmany, hmanyOne, -⟩ := hall _ chain_lettersOrNothing
  obtain ⟨-, hall'⟩ := repetition_follows_chain hp hstop
  obtain ⟨-, -, -, -, -, -, hfails⟩ := hall' [] (.ends chain_lettersOrNothing.ends_lastStop)
  obtain ⟨failure, hfailure, hkind, -⟩ := hfails rfl
  exact ⟨hp, hstart, hstop, hloop 1, hloop 2, (hmanyOne (by simp)).trans hmany, failure, hfailure,
    hkind⟩

/-! ## One step, and then the rest -/

/-- One step and a repetition behind it, with all values in one list. -/
def oneAndMany (p : Parser α) : Parser (List α) :=
  (p.and p.many).map fun (a, as) => a :: as

theorem oneAndMany_isError (h : (p ⟨target, i, .ok ()⟩).isError = true) :
    (p.oneAndMany ⟨target, i, .ok ()⟩).isError = true := by
  obtain ⟨t, j, failure, hfails⟩ := State.isError_iff.1 h
  have hand : p.and p.many ⟨target, i, .ok ()⟩ = ⟨t, j, .error failure⟩ := by
    unfold Parser.and
    rw [hfails, State.andThen_error]
  unfold oneAndMany
  rw [map_apply, hand]
  rfl

/-- A step that moves, with the repetition behind it, is the repetition. -/
theorem GoesForward.oneAndMany_of_moves (hp : p.GoesForward target places) (hi : i ∈ places)
    (h : p.Succeeds target i a j) (hij : i < j) :
    p.oneAndMany ⟨target, i, .ok ()⟩ = p.many ⟨target, i, .ok ()⟩ := by
  unfold oneAndMany
  rw [map_apply, and_of_succeeds h, hp.many_of_succeeds hi h hij]
  generalize p.many ⟨target, j, .ok ()⟩ = s
  obtain ⟨t, k, failure | as⟩ := s
  · rfl
  · rfl

/-- Where the first alternative fails, a second that always succeeds is the
answer. -/
theorem choice_succeed_of_isError (h : (p ⟨target, i, .ok ()⟩).isError = true) (b : α) :
    choice [p, succeed b] ⟨target, i, .ok ()⟩ = ⟨target, i, .ok b⟩ := by
  obtain ⟨t, j, failure, hfails⟩ := State.isError_iff.1 h
  rw [choice, State.andThen_ok]
  simp [firstSuccess, hfails, State.failure?, succeed]

/-- **A repetition unrolled.**  Let every success of the parser move.
Zero-or-more is then the choice between one step with a repetition behind it
and the empty list; and one-or-more is one step with a repetition behind it
where the parser succeeds, and fails where it started where the parser fails. -/
theorem many_unrolls (hp : p.GoesForward target places)
    (hmoves : ∀ i ∈ places, ∀ a j, p.Succeeds target i a j → i < j) (hi : i ∈ places) :
    p.many ⟨target, i, .ok ()⟩ = choice [p.oneAndMany, succeed []] ⟨target, i, .ok ()⟩ ∧
    ((p.manyOne ⟨target, i, .ok ()⟩).isError = false ↔
      (p ⟨target, i, .ok ()⟩).isError = false) ∧
    ((p ⟨target, i, .ok ()⟩).isError = false →
      p.manyOne ⟨target, i, .ok ()⟩ = p.oneAndMany ⟨target, i, .ok ()⟩) ∧
    ((p ⟨target, i, .ok ()⟩).isError = true →
      ∃ failure, p.manyOne ⟨target, i, .ok ()⟩ = ⟨target, i, .error failure⟩ ∧
        failure.kind = .emptyRepetition ∧ failure.index = i ∧ failure.causes = []) := by
  obtain ⟨steps, hsteps⟩ := hp.exists_chain hi
  have hmany : p.many ⟨target, i, .ok ()⟩ = _ := hsteps.many
  have hmanyOne := hsteps.manyOne
  cases hsteps with
  | ends hends =>
    -- an attempt that succeeds where it stands would not move
    have herror : (p ⟨target, i, .ok ()⟩).isError = true := by
      cases hends with
      | inl herror => exact herror
      | inr hstays =>
        obtain ⟨a, ha⟩ := hstays
        exact absurd (hmoves i hi a i ha) (Nat.lt_irrefl i)
    rw [if_pos rfl] at hmanyOne
    rw [hmany, hmanyOne, choice_succeed_of_isError (oneAndMany_isError herror)]
    refine ⟨rfl, by simp [herror], by simp [herror], fun _ => ⟨_, rfl, rfl, rfl, rfl⟩⟩
  | step hstep hij hrest =>
    have hunrolled := hp.oneAndMany_of_moves hi hstep hij
    have hchoice : choice [p.oneAndMany, succeed []] ⟨target, i, .ok ()⟩ = _ :=
      choice_cons_of_succeeds (hunrolled.trans hmany)
    rw [if_neg (List.cons_ne_nil _ _)] at hmanyOne
    rw [hchoice, hmanyOne, hunrolled, hmany]
    refine ⟨rfl, by simp [hstep.not_isError], fun _ => rfl, by simp [hstep.not_isError]⟩

/-- The words of a grammar: from the middle there is one, and behind it there
is none. -/
theorem many_unrolls_words :
    (choice (Grammar.words.matchers.map Matcher.parser)).GoesForward "ab1é"
      {i | Text.IsBoundary "ab1é" i} ∧
    (∀ i ∈ {i | Text.IsBoundary "ab1é" i}, ∀ a j,
      (choice (Grammar.words.matchers.map Matcher.parser)).Succeeds "ab1é" i a j → i < j) ∧
    Text.IsBoundary "ab1é" 2 ∧ Text.IsBoundary "ab1é" 3 ∧
    (choice (Grammar.words.matchers.map Matcher.parser)).manyOne ⟨"ab1é", 2, .ok ()⟩ =
      ⟨"ab1é", 3, .ok ["1"]⟩ ∧
    choice [(choice (Grammar.words.matchers.map Matcher.parser)).oneAndMany, succeed []]
      ⟨"ab1é", 3, .ok ()⟩ = ⟨"ab1é", 3, .ok []⟩ := by
  have hp := (matcherChoice_lawful Grammar.words.matchers).goesForward "ab1é"
  have hmoves : ∀ i ∈ {i | Text.IsBoundary "ab1é" i}, ∀ a j,
      (choice (Grammar.words.matchers.map Matcher.parser)).Succeeds "ab1é" i a j → i < j := by
    intro i hi a j h
    obtain ⟨u, w, htarget, rfl⟩ := Text.isBoundary_iff.1 hi
    rw [htarget] at h
    exact matcherChoice_moves h
  have htwo : Text.IsBoundary "ab1é" 2 := by decide
  have hthree : Text.IsBoundary "ab1é" 3 := by decide
  obtain ⟨-, -, hone, -⟩ := many_unrolls hp hmoves htwo
  obtain ⟨hnone, -⟩ := many_unrolls hp hmoves hthree
  refine ⟨hp, hmoves, htwo, hthree, ?_, ?_⟩
  · rw [hone (by cbv)]
    cbv
  · rw [← hnone]
    cbv

/-! ## Repetitions of repetitions -/

/-- The steps of a repetition as one step, if there are any. -/
def asOneStep (i : Nat) (steps : List (α × Nat)) : List (List α × Nat) :=
  match steps with
  | [] => []
  | _ :: _ => [(steps.map Prod.fst, lastStop i steps)]

/-- A repetition that has stopped has nothing more to keep. -/
theorem Chain.many_lastStop (h : p.Chain target i steps) :
    p.many.Succeeds target (lastStop i steps) [] (lastStop i steps) :=
  (Chain.ends h.ends_lastStop).many

/-- Of repetitions that may be empty, the empty one stays. -/
theorem Chain.chain_many (h : p.Chain target i steps) :
    p.many.Chain target i (asOneStep i steps) := by
  have hfirst := h.many
  have hstops : p.many.Ends target (lastStop i steps) := .inr ⟨[], h.many_lastStop⟩
  have hlength := h.length_add_le
  cases steps with
  | nil => exact .ends hstops
  | cons step steps =>
    rw [List.length_cons] at hlength
    exact .step hfirst (by omega) (.ends hstops)

/-- Of repetitions that may not be empty, the empty one fails. -/
theorem Chain.chain_manyOne (h : p.Chain target i steps) :
    p.manyOne.Chain target i (asOneStep i steps) := by
  have hfirst := h.manyOne
  have hstops : p.manyOne.Ends target (lastStop i steps) := by
    have hnone := (Chain.ends h.ends_lastStop).manyOne
    rw [if_pos rfl] at hnone
    exact .inl (by rw [hnone, State.isError_error])
  have hlength := h.length_add_le
  cases steps with
  | nil => exact .ends hstops
  | cons step steps =>
    rw [if_neg (List.cons_ne_nil _ _)] at hfirst
    rw [List.length_cons] at hlength
    exact .step (hfirst.trans h.many) (by omega) (.ends hstops)

/-- **Repetitions collapse.**  Where a repetition has stopped, another keeps
nothing and stays.  A repetition of repetitions keeps at most one list, and that
only if it is not empty, whether the inner one may be empty or not; and asked for
one list at least, it fails alike in both cases. -/
theorem repetitions_collapse (hp : p.GoesForward target places) (hi : i ∈ places) :
    ∃ as j, p.many ⟨target, i, .ok ()⟩ = ⟨target, j, .ok as⟩ ∧
      p.many ⟨target, j, .ok ()⟩ = ⟨target, j, .ok []⟩ ∧
      sequenceOf [p.many, p.many] ⟨target, i, .ok ()⟩ = ⟨target, j, .ok [as, []]⟩ ∧
      p.many.many ⟨target, i, .ok ()⟩ = ⟨target, j, .ok (if as.isEmpty then [] else [as])⟩ ∧
      p.manyOne.many ⟨target, i, .ok ()⟩ = p.many.many ⟨target, i, .ok ()⟩ ∧
      p.many.manyOne ⟨target, i, .ok ()⟩ = p.manyOne.manyOne ⟨target, i, .ok ()⟩ := by
  obtain ⟨steps, hsteps⟩ := hp.exists_chain hi
  have hfirst := hsteps.many
  have hagain := hsteps.many_lastStop
  have hmany := hsteps.chain_many
  have hmanyOne := hsteps.chain_manyOne
  -- the outer repetitions have the same chain, so that they keep the same
  have houter := hmany.many
  have houter' : p.manyOne.many ⟨target, i, .ok ()⟩ = p.many.many ⟨target, i, .ok ()⟩ :=
    hmanyOne.many.trans houter.symm
  refine ⟨steps.map Prod.fst, lastStop i steps, hfirst, hagain, ?_, ?_, houter', ?_⟩
  · rw [sequenceOf_cons_of_succeeds hfirst, sequenceOf_cons_of_succeeds hagain]
    rfl
  · unfold Succeeds at houter
    rw [houter]
    cases steps with
    | nil => rfl
    | cons step steps => rfl
  · rw [hmany.manyOne, hmanyOne.manyOne, houter']

/-- The inner repetition keeps one value, and the attempt behind it stays. -/
theorem repetitions_collapse_stays :
    lettersOrNothing.parser.GoesForward "ab1" {i | i ≤ "ab1".utf8ByteSize} ∧
    0 ≤ "ab1".utf8ByteSize ∧
    lettersOrNothing.parser.manyOne.many ⟨"ab1", 0, .ok ()⟩ = ⟨"ab1", 2, .ok [["ab"]]⟩ ∧
    lettersOrNothing.parser.many ⟨"ab1", 2, .ok ()⟩ = ⟨"ab1", 2, .ok []⟩ := by
  have hp := lettersOrNothing_goesForward "ab1"
  have hstart : 0 ≤ "ab1".utf8ByteSize := by decide
  obtain ⟨as, j, hfirst, hagain, -, hnested, hcollapse, -⟩ := repetitions_collapse hp hstart
  -- the chain says what the inner repetition keeps
  have hmany := chain_lettersOrNothing.many
  obtain ⟨rfl, rfl⟩ := hmany.unique hfirst
  exact ⟨hp, hstart, hcollapse.trans hnested, hagain⟩

end Parsing.Parser
