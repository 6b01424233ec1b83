/-
Parsing.Proofs.Derivation — the rules of greedy ordered choice, and that
the engine follows them.

`Derives` is a set of inference rules: from an offset of the input, an
expression yields a value up to an offset, or it fails.  The rules know
of no states, no loops and no messages.  Lists of parts and alternatives
are taken one at a time, so that a rule for the first of them and a rule
for the rest say all about a list.

`derives_of_gives` builds a derivation from what a parser answers, by
induction on the expression; `Derives.gives` reads the answer off a
derivation, by induction on it.  The second needs no inversion of the
rules, and makes the derivations unique because a parser is a function.
-/
import Parsing.Proofs.Matching

namespace Parsing

/-- How an attempt ends: with a value at an offset, or not. -/
inductive Verdict (α : Type) where
  /-- The value, and the offset up to which it reaches. -/
  | success (value : α) (stop : Nat)
  /-- There is no value. -/
  | failure

/-- Applies a function to the value. -/
def Verdict.map {α β : Type} (f : α → β) : Verdict α → Verdict β
  | .success value stop => .success (f value) stop
  | .failure => .failure

/-- From the offset, the rules derive the verdict for the expression. -/
inductive Derives (target : String) : {α : Type} → Expr α → Nat → Verdict α → Prop where
  /-- A literal matches its own text. -/
  | literal {l : Literal} {u w : String} (h : target = u ++ (l.expected ++ w)) :
      Derives target (.matcher (.literal l)) u.utf8ByteSize
        (.success l.expected (u ++ l.expected).utf8ByteSize)
  | literal_fails {l : Literal} {u w : String} (h : target = u ++ w)
      (hno : ∀ rest, w ≠ l.expected ++ rest) :
      Derives target (.matcher (.literal l)) u.utf8ByteSize .failure
  /-- A class matches the longest run, unless that is empty. -/
  | run {c : CharClass} {u run w : String} (h : target = u ++ (run ++ w))
      (hne : run ≠ "") (hrun : ∀ ch ∈ run.toList, c.accepts ch = true)
      (hstop : ∀ ch ∈ w.toList.head?, c.accepts ch = false) :
      Derives target (.matcher (.charClass c)) u.utf8ByteSize
        (.success run (u ++ run).utf8ByteSize)
  | run_fails {c : CharClass} {u w : String} (h : target = u ++ w)
      (hstop : ∀ ch ∈ w.toList.head?, c.accepts ch = false) :
      Derives target (.matcher (.charClass c)) u.utf8ByteSize .failure
  /-- Each part starts where the one before it stopped. -/
  | sequenceOf_nil {α : Type} {parts : Fin 0 → Expr α} {i : Nat} :
      Derives target (.sequenceOf parts) i (.success [] i)
  | sequenceOf_cons {α : Type} {n : Nat} {parts : Fin (n + 1) → Expr α} {i j : Nat}
      {a : α} {r : Verdict (List α)} (hfirst : Derives target (parts 0) i (.success a j))
      (hrest : Derives target (.sequenceOf fun k => parts k.succ) j r) :
      Derives target (.sequenceOf parts) i (r.map (a :: ·))
  | sequenceOf_fails {α : Type} {n : Nat} {parts : Fin (n + 1) → Expr α} {i : Nat}
      (hfirst : Derives target (parts 0) i .failure) :
      Derives target (.sequenceOf parts) i .failure
  | and {α β : Type} {first : Expr α} {second : Expr β} {i j : Nat} {a : α}
      {r : Verdict β} (hfirst : Derives target first i (.success a j))
      (hsecond : Derives target second j r) :
      Derives target (.and first second) i (r.map (a, ·))
  | and_fails {α β : Type} {first : Expr α} {second : Expr β} {i : Nat}
      (hfirst : Derives target first i .failure) :
      Derives target (.and first second) i .failure
  /-- The first alternative that succeeds counts, and all start alike. -/
  | choice_nil {α : Type} {alternatives : Fin 0 → Expr α} {i : Nat} :
      Derives target (.choice alternatives) i .failure
  | choice_first {α : Type} {n : Nat} {alternatives : Fin (n + 1) → Expr α}
      {i j : Nat} {a : α} (hfirst : Derives target (alternatives 0) i (.success a j)) :
      Derives target (.choice alternatives) i (.success a j)
  | choice_rest {α : Type} {n : Nat} {alternatives : Fin (n + 1) → Expr α} {i : Nat}
      {r : Verdict α} (hfirst : Derives target (alternatives 0) i .failure)
      (hrest : Derives target (.choice fun k => alternatives k.succ) i r) :
      Derives target (.choice alternatives) i r
  | or_first {α : Type} {first second : Expr α} {i j : Nat} {a : α}
      (hfirst : Derives target first i (.success a j)) :
      Derives target (.or first second) i (.success a j)
  | or_second {α : Type} {first second : Expr α} {i : Nat} {r : Verdict α}
      (hfirst : Derives target first i .failure)
      (hsecond : Derives target second i r) :
      Derives target (.or first second) i r
  | either_first {α β : Type} {first : Expr α} {second : Expr β} {i j : Nat} {a : α}
      (hfirst : Derives target first i (.success a j)) :
      Derives target (.either first second) i (.success (.inl a) j)
  | either_second {α β : Type} {first : Expr α} {second : Expr β} {i : Nat}
      {r : Verdict β} (hfirst : Derives target first i .failure)
      (hsecond : Derives target second i r) :
      Derives target (.either first second) i (r.map .inr)
  /-- A repetition ends when its body fails or stays where it is. -/
  | many_fails {α : Type} {body : Expr α} {i : Nat}
      (hbody : Derives target body i .failure) :
      Derives target (.many body) i (.success [] i)
  | many_stays {α : Type} {body : Expr α} {i : Nat} {a : α}
      (hbody : Derives target body i (.success a i)) :
      Derives target (.many body) i (.success [] i)
  | many_moves {α : Type} {body : Expr α} {i j k : Nat} {a : α} {as : List α}
      (hbody : Derives target body i (.success a j)) (hmoves : j ≠ i)
      (hrest : Derives target (.many body) j (.success as k)) :
      Derives target (.many body) i (.success (a :: as) k)
  | manyOne {α : Type} {body : Expr α} {i j : Nat} {as : List α}
      (hmany : Derives target (.many body) i (.success as j)) (hne : as ≠ []) :
      Derives target (.manyOne body) i (.success as j)
  | manyOne_fails {α : Type} {body : Expr α} {i : Nat}
      (hmany : Derives target (.many body) i (.success [] i)) :
      Derives target (.manyOne body) i .failure
  /-- A function applies to the value; the rest changes nothing. -/
  | map {α β : Type} {body : Expr α} {f : α → β} {i : Nat} {r : Verdict α}
      (hbody : Derives target body i r) : Derives target (.map body f) i (r.map f)
  | errorMap {α : Type} {body : Expr α} {f : Failure → Nat → Failure} {i : Nat}
      {r : Verdict α} (hbody : Derives target body i r) :
      Derives target (.errorMap body f) i r
  | boxed {α : Type} {body : Expr α} {i : Nat} {r : Verdict α}
      (hbody : Derives target body i r) : Derives target (.boxed body) i r

/-- The parser's answer from a success at the offset is the verdict. -/
def Parser.Gives {α : Type} (p : Parser α) (target : String) (i : Nat) :
    Verdict α → Prop
  | .success a j => p.Succeeds target i a j
  | .failure => p.Fails target i

variable {target : String}

/-! ## From answers to derivations -/

/-- The rules derive all verdicts that the expression's parser gives. -/
def Expr.Complete (target : String) {α : Type} (e : Expr α) : Prop :=
  ∀ ⦃i : Nat⦄ ⦃r : Verdict α⦄, Text.IsBoundary target i →
    e.parser.Gives target i r → Derives target e i r

theorem complete_literal (l : Literal) :
    (Expr.matcher (.literal l)).Complete target := by
  intro i r hi h
  obtain ⟨u, w, rfl, rfl⟩ := Text.isBoundary_iff.1 hi
  cases r with
  | success a j =>
    obtain ⟨rest, rfl, rfl, rfl⟩ := Literal.succeeds_iff.1 h
    exact .literal rfl
  | failure =>
    obtain ⟨e, he⟩ := h
    exact .literal_fails rfl (Literal.failsWith_iff.1 he).1

theorem complete_charClass (c : CharClass) :
    (Expr.matcher (.charClass c)).Complete target := by
  intro i r hi h
  obtain ⟨u, w, rfl, rfl⟩ := Text.isBoundary_iff.1 hi
  cases r with
  | success run j =>
    obtain ⟨hrun, hne, rfl⟩ := CharClass.succeeds_iff.1 h
    obtain ⟨rest, rfl, hall, hstop⟩ := Text.leadingRun_eq_iff.1 hrun
    exact .run rfl hne hall hstop
  | failure =>
    obtain ⟨e, he⟩ := h
    exact .run_fails rfl (CharClass.failsWith_iff.1 he).1

theorem complete_sequenceOf {α : Type} {n : Nat} {parts : Fin n → Expr α}
    (hlawful : ∀ k, (parts k).parser.Lawful) (ih : ∀ k, (parts k).Complete target) :
    (Expr.sequenceOf parts).Complete target := by
  induction n with
  | zero =>
    intro i r hi h
    rw [Expr.parser, List.ofFn_zero] at h
    cases r with
    | success as j =>
      obtain ⟨rfl, rfl⟩ := Parser.sequenceOf_nil_succeeds.1 h
      exact .sequenceOf_nil
    | failure =>
      obtain ⟨e, he⟩ := h
      exact absurd he Parser.sequenceOf_nil_not_failsWith
  | succ n ihn =>
    intro i r hi h
    rw [Expr.parser, List.ofFn_succ] at h
    have hrest := ihn (fun k => hlawful k.succ) fun k => ih k.succ
    cases r with
    | success as k =>
      obtain ⟨a, j, bs, ha, hbs, rfl⟩ :=
        (Parser.sequenceOf_cons_succeeds (hlawful 0) hi).1 h
      have hj := ((hlawful 0).forward hi ha).2
      exact .sequenceOf_cons (r := .success bs k) (ih 0 hi ha) (hrest hj hbs)
    | failure =>
      rcases (Parser.sequenceOf_cons_fails (hlawful 0) hi).1 h with hfails | ⟨a, j, ha, hfails⟩
      · exact .sequenceOf_fails (ih 0 hi hfails)
      · have hj := ((hlawful 0).forward hi ha).2
        exact .sequenceOf_cons (r := .failure) (ih 0 hi ha) (hrest hj hfails)

theorem complete_choice {α : Type} {n : Nat} {alternatives : Fin n → Expr α}
    (hlawful : ∀ k, (alternatives k).parser.Lawful)
    (ih : ∀ k, (alternatives k).Complete target) :
    (Expr.choice alternatives).Complete target := by
  induction n with
  | zero =>
    intro i r hi h
    rw [Expr.parser, List.ofFn_zero] at h
    cases r with
    | success a j => exact absurd Parser.choice_nil_failsWith h.not_failsWith
    | failure => exact .choice_nil
  | succ n ihn =>
    intro i r hi h
    rw [Expr.parser, List.ofFn_succ] at h
    have hrest := ihn (fun k => hlawful k.succ) fun k => ih k.succ
    cases r with
    | success a j =>
      rcases (Parser.choice_cons_succeeds (hlawful 0) hi).1 h with ha | ⟨hfails, ha⟩
      · exact .choice_first (ih 0 hi ha)
      · exact .choice_rest (ih 0 hi hfails) (hrest hi ha)
    | failure =>
      have hall : ∀ p ∈ (alternatives 0).parser ::
          List.ofFn (fun k => (alternatives k.succ).parser), p.Lawful :=
        List.forall_mem_cons.2
          ⟨hlawful 0, Parser.lawful_of_mem_ofFn fun k => hlawful k.succ⟩
      obtain ⟨hfails, hothers⟩ := (Parser.choice_cons_fails hall hi).1 h
      exact .choice_rest (ih 0 hi hfails) (hrest hi hothers)

/-- By induction on the values kept: each is one round of the rule. -/
theorem complete_many {α : Type} {body : Expr α} (hlawful : body.parser.Lawful)
    (ih : body.Complete target) : (Expr.many body).Complete target := by
  intro i r hi h
  cases r with
  | success as k =>
    induction as generalizing i with
    | nil =>
      obtain ⟨rfl, hfails | ⟨a, ha⟩⟩ := (Parser.many_nil_succeeds hlawful hi).1 h
      · exact .many_fails (ih hi hfails)
      · exact .many_stays (ih hi ha)
    | cons a as ihas =>
      obtain ⟨j, ha, hij, has⟩ := (Parser.many_cons_succeeds hlawful hi).1 h
      have hj := (hlawful.forward hi ha).2
      exact .many_moves (ih hi ha) (Nat.ne_of_gt hij) (ihas hj has)
  | failure =>
    obtain ⟨e, he⟩ := h
    exact absurd he Parser.many_not_failsWith

theorem complete_manyOne {α : Type} {body : Expr α} (hlawful : body.parser.Lawful)
    (ih : body.Complete target) : (Expr.manyOne body).Complete target := by
  intro i r hi h
  have hmany := complete_many hlawful ih
  cases r with
  | success as j =>
    obtain ⟨has, hne⟩ := (Parser.manyOne_succeeds hlawful hi).1 h
    exact .manyOne (hmany hi has) hne
  | failure =>
    exact .manyOne_fails (hmany hi ((Parser.manyOne_fails hlawful hi).1 h))

theorem complete_and {α β : Type} {first : Expr α} {second : Expr β}
    (hlawful : first.parser.Lawful) (ih₁ : first.Complete target)
    (ih₂ : second.Complete target) : (Expr.and first second).Complete target := by
  intro i r hi h
  cases r with
  | success ab k =>
    obtain ⟨j, ha, hb⟩ := (Parser.and_succeeds hlawful hi).1 h
    have hj := (hlawful.forward hi ha).2
    exact .and (r := .success ab.2 k) (ih₁ hi ha) (ih₂ hj hb)
  | failure =>
    rcases (Parser.and_fails hlawful hi).1 h with hfails | ⟨a, j, ha, hfails⟩
    · exact .and_fails (ih₁ hi hfails)
    · have hj := (hlawful.forward hi ha).2
      exact .and (r := .failure) (ih₁ hi ha) (ih₂ hj hfails)

theorem complete_or {α : Type} {first second : Expr α} (h₁ : first.parser.Lawful)
    (h₂ : second.parser.Lawful) (ih₁ : first.Complete target)
    (ih₂ : second.Complete target) : (Expr.or first second).Complete target := by
  intro i r hi h
  cases r with
  | success a j =>
    rcases (Parser.or_succeeds h₁ h₂ hi).1 h with ha | ⟨hfails, ha⟩
    · exact .or_first (ih₁ hi ha)
    · exact .or_second (ih₁ hi hfails) (ih₂ hi ha)
  | failure =>
    obtain ⟨hfails, hfails'⟩ := (Parser.or_fails h₁ h₂ hi).1 h
    exact .or_second (ih₁ hi hfails) (ih₂ hi hfails')

theorem complete_either {α β : Type} {first : Expr α} {second : Expr β}
    (h₁ : first.parser.Lawful) (h₂ : second.parser.Lawful)
    (ih₁ : first.Complete target) (ih₂ : second.Complete target) :
    (Expr.either first second).Complete target := by
  intro i r hi h
  cases r with
  | success ab j =>
    rcases (Parser.either_succeeds h₁ h₂ hi).1 h with ⟨a, ha, rfl⟩ | ⟨hfails, b, hb, rfl⟩
    · exact .either_first (ih₁ hi ha)
    · exact .either_second (r := .success b j) (ih₁ hi hfails) (ih₂ hi hb)
  | failure =>
    obtain ⟨hfails, hfails'⟩ := (Parser.either_fails h₁ h₂ hi).1 h
    exact .either_second (r := .failure) (ih₁ hi hfails) (ih₂ hi hfails')

theorem complete_map {α β : Type} {body : Expr α} (ih : body.Complete target)
    (f : α → β) : (Expr.map body f).Complete target := by
  intro i r hi h
  cases r with
  | success b j =>
    obtain ⟨a, ha, rfl⟩ := Parser.map_succeeds.1 h
    exact .map (r := .success a j) (ih hi ha)
  | failure => exact .map (r := .failure) (ih hi (Parser.map_fails.1 h))

theorem complete_errorMap {α : Type} {body : Expr α} (hlawful : body.parser.Lawful)
    (ih : body.Complete target) (f : Failure → Nat → Failure) :
    (Expr.errorMap body f).Complete target := by
  intro i r hi h
  cases r with
  | success a j => exact .errorMap (ih hi (Parser.errorMap_succeeds.1 h))
  | failure => exact .errorMap (ih hi ((Parser.errorMap_fails hlawful hi).1 h))

/-- **The rules derive what the engine answers.** -/
theorem derives_of_gives {α : Type} {e : Expr α} (he : e.StepFree) :
    e.Complete target := by
  induction e with
  | matcher m =>
    cases m with
    | literal l => exact complete_literal l
    | charClass c => exact complete_charClass c
  | sequenceOf parts ih =>
    exact complete_sequenceOf (fun k => Expr.StepFree.lawful (he k)) fun k => ih k (he k)
  | and first second ih₁ ih₂ =>
    exact complete_and (Expr.StepFree.lawful he.1) (ih₁ he.1) (ih₂ he.2)
  | choice alternatives ih =>
    exact complete_choice (fun k => Expr.StepFree.lawful (he k)) fun k => ih k (he k)
  | or first second ih₁ ih₂ =>
    exact complete_or (Expr.StepFree.lawful he.1) (Expr.StepFree.lawful he.2)
      (ih₁ he.1) (ih₂ he.2)
  | either first second ih₁ ih₂ =>
    exact complete_either (Expr.StepFree.lawful he.1) (Expr.StepFree.lawful he.2)
      (ih₁ he.1) (ih₂ he.2)
  | many body ih => exact complete_many (Expr.StepFree.lawful he) (ih he)
  | manyOne body ih => exact complete_manyOne (Expr.StepFree.lawful he) (ih he)
  | map body f ih => exact complete_map (ih he.2) f
  | errorMap body f ih => exact complete_errorMap (Expr.StepFree.lawful he.2) (ih he.2) f
  | boxed body ih =>
    intro i r hi h
    exact .boxed (ih he hi h)
  | step p => exact he.elim

/-! ## From derivations to answers -/

namespace Parser

variable {α β : Type} {p : Parser α} {q : Parser β} {ps : List (Parser α)} {i j : Nat}

theorem gives_sequenceOf_cons {a : α} {r : Verdict (List α)} (hp : p.Lawful)
    (hi : Text.IsBoundary target i) (ha : p.Succeeds target i a j)
    (hr : (sequenceOf ps).Gives target j r) :
    (sequenceOf (p :: ps)).Gives target i (r.map (a :: ·)) := by
  cases r with
  | success as k => exact (sequenceOf_cons_succeeds hp hi).2 ⟨a, j, as, ha, hr, rfl⟩
  | failure => exact (sequenceOf_cons_fails hp hi).2 (.inr ⟨a, j, ha, hr⟩)

theorem gives_and {a : α} {r : Verdict β} (hp : p.Lawful)
    (hi : Text.IsBoundary target i) (ha : p.Succeeds target i a j)
    (hr : q.Gives target j r) : (p.and q).Gives target i (r.map (a, ·)) := by
  cases r with
  | success b k => exact (and_succeeds hp hi).2 ⟨j, ha, hr⟩
  | failure => exact (and_fails hp hi).2 (.inr ⟨a, j, ha, hr⟩)

theorem gives_choice_cons {r : Verdict α} (hps : ∀ q ∈ p :: ps, q.Lawful)
    (hi : Text.IsBoundary target i) (hfails : p.Fails target i)
    (hr : (choice ps).Gives target i r) : (choice (p :: ps)).Gives target i r := by
  have hp : p.Lawful := (List.forall_mem_cons.1 hps).1
  cases r with
  | success a j => exact (choice_cons_succeeds hp hi).2 (.inr ⟨hfails, hr⟩)
  | failure => exact (choice_cons_fails hps hi).2 ⟨hfails, hr⟩

theorem gives_or {p q : Parser α} {r : Verdict α} (hp : p.Lawful) (hq : q.Lawful)
    (hi : Text.IsBoundary target i) (hfails : p.Fails target i)
    (hr : q.Gives target i r) : (p.or q).Gives target i r := by
  cases r with
  | success a j => exact (or_succeeds hp hq hi).2 (.inr ⟨hfails, hr⟩)
  | failure => exact (or_fails hp hq hi).2 ⟨hfails, hr⟩

theorem gives_either {r : Verdict β} (hp : p.Lawful) (hq : q.Lawful)
    (hi : Text.IsBoundary target i) (hfails : p.Fails target i)
    (hr : q.Gives target i r) : (p.either q).Gives target i (r.map .inr) := by
  cases r with
  | success b j => exact (either_succeeds hp hq hi).2 (.inr ⟨hfails, b, hr, rfl⟩)
  | failure => exact (either_fails hp hq hi).2 ⟨hfails, hr⟩

theorem gives_map {r : Verdict α} (hr : p.Gives target i r) (f : α → β) :
    (p.map f).Gives target i (r.map f) := by
  cases r with
  | success a j => exact map_succeeds.2 ⟨a, hr, rfl⟩
  | failure => exact map_fails.2 hr

theorem gives_errorMap {r : Verdict α} (hp : p.Lawful) (hi : Text.IsBoundary target i)
    (hr : p.Gives target i r) (f : Failure → Nat → Failure) :
    (p.errorMap f).Gives target i r := by
  cases r with
  | success a j => exact errorMap_succeeds.2 hr
  | failure => exact (errorMap_fails hp hi).2 hr

end Parser

/-- **The engine answers what the rules derive.** -/
theorem Derives.gives {α : Type} {e : Expr α} {i : Nat} {r : Verdict α}
    (h : Derives target e i r) (he : e.StepFree) (hi : Text.IsBoundary target i) :
    e.parser.Gives target i r := by
  induction h with
  | @literal l u w h =>
    subst h
    exact l.parser_of_startsWith u w
  | literal_fails h hno =>
    subst h
    exact ⟨_, Literal.parser_of_not_startsWith hno⟩
  | run h hne hrun hstop =>
    subst h
    exact CharClass.parser_of_leadingRun
      (Text.leadingRun_eq_iff.2 ⟨_, rfl, hrun, hstop⟩) hne
  | run_fails h hstop =>
    subst h
    exact ⟨_, CharClass.parser_of_leadingRun_empty (Text.leadingRun_eq_empty_iff.2 hstop)⟩
  | sequenceOf_nil =>
    rw [Expr.parser, List.ofFn_zero]
    exact Parser.sequenceOf_nil_succeeds.2 ⟨rfl, rfl⟩
  | @sequenceOf_cons α n parts i j a r hfirst hrest ih₁ ih₂ =>
    have hlawful : (parts 0).parser.Lawful := Expr.StepFree.lawful (he 0)
    have ha : (parts 0).parser.Succeeds target i a j := ih₁ (he 0) hi
    have hj := (hlawful.forward hi ha).2
    rw [Expr.parser, List.ofFn_succ]
    exact Parser.gives_sequenceOf_cons hlawful hi ha (ih₂ (fun k => he k.succ) hj)
  | @sequenceOf_fails α n parts i hfirst ih =>
    rw [Expr.parser, List.ofFn_succ]
    exact (Parser.sequenceOf_cons_fails (Expr.StepFree.lawful (he 0)) hi).2
      (.inl (ih (he 0) hi))
  | @and α β first second i j a r hfirst hsecond ih₁ ih₂ =>
    have hlawful : first.parser.Lawful := Expr.StepFree.lawful he.1
    have ha : first.parser.Succeeds target i a j := ih₁ he.1 hi
    have hj := (hlawful.forward hi ha).2
    exact Parser.gives_and hlawful hi ha (ih₂ he.2 hj)
  | and_fails hfirst ih =>
    exact (Parser.and_fails (Expr.StepFree.lawful he.1) hi).2 (.inl (ih he.1 hi))
  | choice_nil =>
    rw [Expr.parser, List.ofFn_zero]
    exact ⟨_, Parser.choice_nil_failsWith⟩
  | @choice_first α n alternatives i j a hfirst ih =>
    rw [Expr.parser, List.ofFn_succ]
    exact Parser.choice_cons_of_succeeds (ih (he 0) hi)
  | @choice_rest α n alternatives i r hfirst hrest ih₁ ih₂ =>
    have hall : ∀ p ∈ (alternatives 0).parser ::
        List.ofFn (fun k => (alternatives k.succ).parser), p.Lawful :=
      List.forall_mem_cons.2 ⟨Expr.StepFree.lawful (he 0),
        Parser.lawful_of_mem_ofFn fun k => Expr.StepFree.lawful (he k.succ)⟩
    rw [Expr.parser, List.ofFn_succ]
    exact Parser.gives_choice_cons hall hi (ih₁ (he 0) hi) (ih₂ (fun k => he k.succ) hi)
  | or_first hfirst ih =>
    exact (Parser.or_succeeds (Expr.StepFree.lawful he.1)
      (Expr.StepFree.lawful he.2) hi).2 (.inl (ih he.1 hi))
  | or_second hfirst hsecond ih₁ ih₂ =>
    exact Parser.gives_or (Expr.StepFree.lawful he.1) (Expr.StepFree.lawful he.2) hi
      (ih₁ he.1 hi) (ih₂ he.2 hi)
  | either_first hfirst ih =>
    exact (Parser.either_succeeds (Expr.StepFree.lawful he.1)
      (Expr.StepFree.lawful he.2) hi).2 (.inl ⟨_, ih he.1 hi, rfl⟩)
  | either_second hfirst hsecond ih₁ ih₂ =>
    exact Parser.gives_either (Expr.StepFree.lawful he.1) (Expr.StepFree.lawful he.2) hi
      (ih₁ he.1 hi) (ih₂ he.2 hi)
  | many_fails hbody ih => exact Parser.many_stops (.inl (ih he hi))
  | many_stays hbody ih => exact Parser.many_stops (.inr ⟨_, ih he hi⟩)
  | @many_moves α body i j k a as hbody hmoves hrest ih₁ ih₂ =>
    have hlawful : body.parser.Lawful := Expr.StepFree.lawful he
    have ha : body.parser.Succeeds target i a j := ih₁ he hi
    obtain ⟨hij, hj⟩ := hlawful.forward hi ha
    exact (Parser.many_cons_succeeds hlawful hi).2
      ⟨j, ha, Nat.lt_of_le_of_ne hij (Ne.symm hmoves), ih₂ he hj⟩
  | @manyOne α body i j as hmany hne ih =>
    have hlawful : body.parser.Lawful := Expr.StepFree.lawful he
    exact (Parser.manyOne_succeeds hlawful hi).2 ⟨ih he hi, hne⟩
  | @manyOne_fails α body i hmany ih =>
    have hlawful : body.parser.Lawful := Expr.StepFree.lawful he
    exact (Parser.manyOne_fails hlawful hi).2 (ih he hi)
  | map hbody ih => exact Parser.gives_map (ih he.2 hi) _
  | errorMap hbody ih =>
    exact Parser.gives_errorMap (Expr.StepFree.lawful he.2) hi (ih he.2 hi) _
  | boxed hbody ih => exact ih he hi

/-! ## The engine and the rules -/

/-- The rules derive exactly what the engine answers. -/
theorem derives_iff_gives {α : Type} {e : Expr α} (he : e.StepFree) {i : Nat}
    (hi : Text.IsBoundary target i) {r : Verdict α} :
    Derives target e i r ↔ e.parser.Gives target i r :=
  ⟨fun h => h.gives he hi, fun h => derives_of_gives he hi h⟩

theorem Parser.Gives.unique {α : Type} {p : Parser α} {i : Nat} {r r' : Verdict α}
    (h : p.Gives target i r) (h' : p.Gives target i r') : r = r' := by
  cases r with
  | success a j =>
    cases r' with
    | success b k =>
      obtain ⟨rfl, rfl⟩ := Succeeds.unique h h'
      rfl
    | failure => exact absurd h' (Succeeds.not_fails h)
  | failure =>
    cases r' with
    | success b k => exact absurd h (Succeeds.not_fails h')
    | failure => rfl

theorem Parser.Lawful.exists_gives {α : Type} {p : Parser α} (hp : p.Lawful) {i : Nat}
    (hi : Text.IsBoundary target i) : ∃ r, p.Gives target i r := by
  rcases hp.cases hi with ⟨a, j, ha, -⟩ | hfails
  · exact ⟨.success a j, ha⟩
  · exact ⟨.failure, hfails⟩

/-- A lawful parser fails where its answer is an error. -/
theorem Parser.Lawful.fails_iff {α : Type} {p : Parser α} (hp : p.Lawful) {i : Nat}
    (hi : Text.IsBoundary target i) :
    p.Fails target i ↔ (p ⟨target, i, .ok ()⟩).isError = true := by
  rcases hp.cases hi with ⟨a, j, ha, -⟩ | hfails
  · have hnot := ha.not_fails
    unfold Succeeds at ha
    simp [hnot, ha]
  · obtain ⟨e, he⟩ := id hfails
    unfold FailsWith at he
    simp [hfails, he]

/-- **The engine is greedy ordered choice.**  From a boundary, an
expression's parser succeeds with the values and offsets that the rules
derive, it fails where they derive a failure, and they derive exactly
one verdict. -/
theorem parser_follows_rules {α : Type} {e : Expr α} (he : e.StepFree) {i : Nat}
    (hi : Text.IsBoundary target i) :
    (∀ value stop,
      e.parser ⟨target, i, .ok ()⟩ = ⟨target, stop, .ok value⟩ ↔
        Derives target e i (.success value stop)) ∧
    ((e.parser ⟨target, i, .ok ()⟩).isError = true ↔ Derives target e i .failure) ∧
    ∃! verdict, Derives target e i verdict := by
  have hlawful : e.parser.Lawful := he.lawful
  refine ⟨fun value stop => ?_, ?_, ?_⟩
  · exact (derives_iff_gives (r := .success value stop) he hi).symm
  · rw [← hlawful.fails_iff hi]
    exact (derives_iff_gives (r := .failure) he hi).symm
  · obtain ⟨r, hr⟩ := hlawful.exists_gives hi
    refine ⟨r, derives_of_gives he hi hr, fun r' hr' => ?_⟩
    exact (hr'.gives he hi).unique hr

/-- Letters, as often as there are some, after a character of two
bytes. -/
theorem parser_follows_rules_letters :
    (Expr.many (.matcher (.charClass .letters))).StepFree ∧
    Text.IsBoundary "éab" "é".utf8ByteSize ∧
    (Expr.many (.matcher (.charClass .letters))).parser
        ⟨"éab", "é".utf8ByteSize, .ok ()⟩ =
      ⟨"éab", ("é" ++ "ab").utf8ByteSize, .ok ["ab"]⟩ := by
  have hfree : (Expr.many (.matcher (.charClass .letters))).StepFree := trivial
  have hb : Text.IsBoundary "éab" "é".utf8ByteSize := by decide
  refine ⟨hfree, hb, ((parser_follows_rules hfree hb).1 _ _).2 ?_⟩
  have hab : Derives "éab" (.matcher (.charClass .letters)) "é".utf8ByteSize
      (.success "ab" ("é" ++ "ab").utf8ByteSize) :=
    .run (w := "") (by decide) (by decide) (List.all_eq_true.1 (by decide)) (by simp)
  have hend : Derives "éab" (.matcher (.charClass .letters))
      ("é" ++ "ab").utf8ByteSize .failure :=
    .run_fails (w := "") (by decide) (by simp)
  exact .many_moves hab (by decide) (.many_fails hend)

end Parsing
