/-
Parsing.Proofs.Shift — a parser sees only what remains.

An expression runs twice: on `w`, and on `u ++ w` from as far behind
`u`.  That the verdicts are alike is a matter of the rules, none of
which asks for an absolute offset: a derivation over `w` becomes one
over `u ++ w` rule by rule.  The rules know nothing of failures, so
their trees are compared apart, by induction on the expression; what the
first run got past before it failed, the second gets past as well.

Messages may name absolute offsets, so nothing is said about them.  A
function on failures may look at messages and at offsets, so nothing is
said about the trees where there are any.
-/
import Mathlib
import Parsing.Proofs.Derivation

namespace Parsing

/-! ## Verdicts -/

/-- The same verdict, reached so many bytes further on. -/
def Verdict.shift {α : Type} (d : Nat) : Verdict α → Verdict α
  | .success value stop => .success value (d + stop)
  | .failure => .failure

theorem Verdict.shift_map {α β : Type} (d : Nat) (f : α → β) (r : Verdict α) :
    (r.map f).shift d = (r.shift d).map f := by
  cases r <;> rfl

/-- **The rules know no absolute offsets.**  What they derive over `w`,
they derive over `u ++ w` behind `u`. -/
theorem Derives.shift {w : String} {α : Type} {e : Expr α} {i : Nat} {r : Verdict α}
    (h : Derives w e i r) (u : String) :
    Derives (u ++ w) e (u.utf8ByteSize + i) (r.shift u.utf8ByteSize) := by
  induction h with
  | @literal l v rest h =>
    have hcut : u ++ w = u ++ v ++ (l.expected ++ rest) := by rw [h, String.append_assoc]
    have hshift := Derives.literal hcut
    rw [String.append_assoc, String.utf8ByteSize_append, String.utf8ByteSize_append] at hshift
    exact hshift
  | @literal_fails l v rest h hno =>
    have hcut : u ++ w = u ++ v ++ rest := by rw [h, String.append_assoc]
    rw [← String.utf8ByteSize_append]
    exact .literal_fails hcut hno
  | @run c v run rest h hne hrun hstop =>
    have hcut : u ++ w = u ++ v ++ (run ++ rest) := by rw [h, String.append_assoc]
    have hshift := Derives.run hcut hne hrun hstop
    rw [String.append_assoc, String.utf8ByteSize_append, String.utf8ByteSize_append] at hshift
    exact hshift
  | @run_fails c v rest h hstop =>
    have hcut : u ++ w = u ++ v ++ rest := by rw [h, String.append_assoc]
    rw [← String.utf8ByteSize_append]
    exact .run_fails hcut hstop
  | sequenceOf_nil => exact .sequenceOf_nil
  | sequenceOf_cons hfirst hrest ih₁ ih₂ =>
    rw [Verdict.shift_map]
    exact .sequenceOf_cons ih₁ ih₂
  | sequenceOf_fails hfirst ih => exact .sequenceOf_fails ih
  | and hfirst hsecond ih₁ ih₂ =>
    rw [Verdict.shift_map]
    exact .and ih₁ ih₂
  | and_fails hfirst ih => exact .and_fails ih
  | choice_nil => exact .choice_nil
  | choice_first hfirst ih => exact .choice_first ih
  | choice_rest hfirst hrest ih₁ ih₂ => exact .choice_rest ih₁ ih₂
  | or_first hfirst ih => exact .or_first ih
  | or_second hfirst hsecond ih₁ ih₂ => exact .or_second ih₁ ih₂
  | either_first hfirst ih => exact .either_first ih
  | either_second hfirst hsecond ih₁ ih₂ =>
    rw [Verdict.shift_map]
    exact .either_second ih₁ ih₂
  | many_fails hbody ih => exact .many_fails ih
  | many_stays hbody ih => exact .many_stays ih
  | many_moves hbody hmoves hrest ih₁ ih₂ => exact .many_moves ih₁ (by omega) ih₂
  | manyOne hmany hne ih => exact .manyOne ih hne
  | manyOne_fails hmany ih => exact .manyOne_fails ih
  | map hbody ih =>
    rw [Verdict.shift_map]
    exact .map ih
  | errorMap hbody ih => exact .errorMap ih
  | boxed hbody ih => exact .boxed ih

/-- The parser gives the same verdict behind `u`. -/
theorem Expr.StepFree.gives_shift {α : Type} {e : Expr α} (he : e.StepFree) {w : String}
    {i : Nat} {r : Verdict α} (hi : Text.IsBoundary w i) (h : e.parser.Gives w i r)
    (u : String) :
    e.parser.Gives (u ++ w) (u.utf8ByteSize + i) (r.shift u.utf8ByteSize) :=
  ((derives_of_gives he hi h).shift u).gives he (hi.shift u)

/-! ## Failures -/

/-- The first failure is the second so many bytes further on: both are
of one kind, their offsets are that far apart, and so are their causes,
to any depth. -/
inductive Failure.ShiftedBy (d : Nat) : Failure → Failure → Prop where
  | intro {kind : Failure.Kind} {index : Nat} {message message' : String}
      {causes causes' : List Failure}
      (hcauses : List.Forall₂ (Failure.ShiftedBy d) causes causes') :
      Failure.ShiftedBy d ⟨kind, d + index, message, causes⟩ ⟨kind, index, message', causes'⟩

namespace Failure.ShiftedBy

variable {d i : Nat}

theorem leaf (kind : Failure.Kind) (message message' : String) :
    (Failure.leaf kind (d + i) message).ShiftedBy d (Failure.leaf kind i message') :=
  .intro .nil

theorem exhausted {causes causes' : List Failure}
    (h : List.Forall₂ (ShiftedBy d) causes causes') :
    (Failure.exhausted (d + i) causes).ShiftedBy d (Failure.exhausted i causes') :=
  .intro h

theorem ite {condition : Prop} [Decidable condition] {f g f' g' : Failure}
    (hf : f.ShiftedBy d f') (hg : g.ShiftedBy d g') :
    (if condition then f else g).ShiftedBy d (if condition then f' else g') := by
  by_cases h : condition
  · rw [if_pos h, if_pos h]
    exact hf
  · rw [if_neg h, if_neg h]
    exact hg

end Failure.ShiftedBy

/-- Behind `u`, the expression fails wherever it fails, and the failure
is shifted. -/
def Expr.FailsShifted (u w : String) {α : Type} (e : Expr α) : Prop :=
  ∀ ⦃i : Nat⦄ ⦃f : Failure⦄, Text.IsBoundary w i → e.parser.FailsWith w i f →
    ∃ f', e.parser.FailsWith (u ++ w) (u.utf8ByteSize + i) f' ∧
      f'.ShiftedBy u.utf8ByteSize f

variable {u w : String}

theorem failsShifted_literal (l : Literal) :
    (Expr.matcher (.literal l)).FailsShifted u w := by
  intro i f hi h
  obtain ⟨v, rest, rfl, rfl⟩ := Text.isBoundary_iff.1 hi
  obtain ⟨hno, rfl⟩ := Literal.failsWith_iff.1 h
  rw [← String.append_assoc, ← String.utf8ByteSize_append]
  refine ⟨_, Literal.parser_of_not_startsWith hno, ?_⟩
  rw [String.utf8ByteSize_append]
  exact .ite (.leaf _ _ _) (.leaf _ _ _)

theorem failsShifted_charClass (c : CharClass) :
    (Expr.matcher (.charClass c)).FailsShifted u w := by
  intro i f hi h
  obtain ⟨v, rest, rfl, rfl⟩ := Text.isBoundary_iff.1 hi
  obtain ⟨hstop, rfl⟩ := CharClass.failsWith_iff.1 h
  rw [← String.append_assoc, ← String.utf8ByteSize_append]
  refine ⟨_, CharClass.parser_of_leadingRun_empty (Text.leadingRun_eq_empty_iff.2 hstop), ?_⟩
  rw [String.utf8ByteSize_append]
  exact .ite (.leaf _ _ _) (.leaf _ _ _)

/-- By induction on the number of parts: the failure is that of the
first, or that of the rest behind it. -/
theorem failsShifted_sequenceOf {α : Type} {n : Nat} {parts : Fin n → Expr α}
    (hfree : ∀ k, (parts k).StepFree) (ih : ∀ k, (parts k).FailsShifted u w) :
    (Expr.sequenceOf parts).FailsShifted u w := by
  induction n with
  | zero =>
    intro i f hi h
    rw [Expr.parser, List.ofFn_zero] at h
    exact absurd h Parser.sequenceOf_nil_not_failsWith
  | succ n ihn =>
    intro i f hi h
    have hlawful : (parts 0).parser.Lawful := (hfree 0).lawful
    have hrest := ihn (fun k => hfree k.succ) fun k => ih k.succ
    rw [Expr.parser, List.ofFn_succ] at h ⊢
    simp only [Parser.sequenceOf_cons_failsWith hlawful (hi.shift u)]
    rcases (Parser.sequenceOf_cons_failsWith hlawful hi).1 h with hf | ⟨a, j, ha, hf⟩
    · obtain ⟨f', hf', hshifted⟩ := ih 0 hi hf
      exact ⟨f', .inl hf', hshifted⟩
    · obtain ⟨f', hf', hshifted⟩ := hrest (hlawful.forward hi ha).2 hf
      have ha' := (hfree 0).gives_shift (r := .success a j) hi ha u
      exact ⟨f', .inr ⟨a, _, ha', hf'⟩, hshifted⟩

/-- The causes of a choice are the failures of its alternatives, one for
one. -/
theorem exists_shifted_causes {α : Type} {ps : List (Parser α)} {i j d : Nat}
    {target target' : String} {causes : List Failure}
    (hps : ∀ p ∈ ps, ∀ f, p.FailsWith target i f →
      ∃ f', p.FailsWith target' j f' ∧ f'.ShiftedBy d f)
    (h : List.Forall₂ (fun p f => p.FailsWith target i f) ps causes) :
    ∃ causes', List.Forall₂ (fun p f => p.FailsWith target' j f) ps causes' ∧
      List.Forall₂ (Failure.ShiftedBy d) causes' causes := by
  induction h with
  | nil => exact ⟨[], .nil, .nil⟩
  | cons hf hrest ih =>
    obtain ⟨hp, hps⟩ := List.forall_mem_cons.1 hps
    obtain ⟨f', hf', hshifted⟩ := hp _ hf
    obtain ⟨causes', hcauses', hall⟩ := ih hps
    exact ⟨f' :: causes', .cons hf' hcauses', .cons hshifted hall⟩

theorem failsShifted_choice {α : Type} {n : Nat} {alternatives : Fin n → Expr α}
    (hfree : ∀ k, (alternatives k).StepFree)
    (ih : ∀ k, (alternatives k).FailsShifted u w) :
    (Expr.choice alternatives).FailsShifted u w := by
  intro i f hi h
  have hall : ∀ p ∈ List.ofFn (fun k => (alternatives k).parser), p.Lawful :=
    Parser.lawful_of_mem_ofFn fun k => (hfree k).lawful
  rw [Expr.parser] at h ⊢
  obtain ⟨causes, hcauses, rfl⟩ := (Parser.choice_failsWith hall hi).1 h
  have hps : ∀ p ∈ List.ofFn (fun k => (alternatives k).parser), ∀ f,
      p.FailsWith w i f → ∃ f', p.FailsWith (u ++ w) (u.utf8ByteSize + i) f' ∧
        f'.ShiftedBy u.utf8ByteSize f := by
    intro p hp f hf
    obtain ⟨k, rfl⟩ := List.mem_ofFn.1 hp
    exact ih k hi hf
  obtain ⟨causes', hcauses', hshifted⟩ := exists_shifted_causes hps hcauses
  exact ⟨_, (Parser.choice_failsWith hall (hi.shift u)).2 ⟨causes', hcauses', rfl⟩,
    .exhausted hshifted⟩

theorem failsShifted_or {α : Type} {first second : Expr α} (h₁ : first.parser.Lawful)
    (h₂ : second.parser.Lawful) (ih₁ : first.FailsShifted u w)
    (ih₂ : second.FailsShifted u w) : (Expr.or first second).FailsShifted u w := by
  intro i f hi h
  obtain ⟨f₁, f₂, hf₁, hf₂, rfl⟩ := (Parser.or_failsWith h₁ h₂ hi).1 h
  obtain ⟨f₁', hf₁', hshifted₁⟩ := ih₁ hi hf₁
  obtain ⟨f₂', hf₂', hshifted₂⟩ := ih₂ hi hf₂
  exact ⟨_, (Parser.or_failsWith h₁ h₂ (hi.shift u)).2 ⟨f₁', f₂', hf₁', hf₂', rfl⟩,
    .exhausted (.cons hshifted₁ (.cons hshifted₂ .nil))⟩

theorem failsShifted_map {α β : Type} {body : Expr α} (ih : body.FailsShifted u w)
    (f : α → β) : (Expr.map body f).FailsShifted u w := by
  intro i f hi h
  obtain ⟨f', hf', hshifted⟩ := ih hi (Parser.map_failsWith.1 h)
  exact ⟨f', Parser.map_failsWith.2 hf', hshifted⟩

/-- **Where no function is applied to a failure, failures are shifted.**
An alternative of another type is one behind a function. -/
theorem Expr.StepFree.failsShifted {α : Type} {e : Expr α} (he : e.StepFree)
    (hplain : e.ErrorMapFree) : e.FailsShifted u w := by
  induction e with
  | matcher m =>
    cases m with
    | literal l => exact failsShifted_literal l
    | charClass c => exact failsShifted_charClass c
  | sequenceOf parts ih => exact failsShifted_sequenceOf he fun k => ih k (he k) (hplain k)
  | and first second ih₁ ih₂ =>
    intro i f hi h
    have hlawful : first.parser.Lawful := Expr.StepFree.lawful he.1
    rw [Expr.parser] at h ⊢
    simp only [Parser.and_failsWith hlawful (hi.shift u)]
    rcases (Parser.and_failsWith hlawful hi).1 h with hf | ⟨a, j, ha, hf⟩
    · obtain ⟨f', hf', hshifted⟩ := ih₁ he.1 hplain.1 hi hf
      exact ⟨f', .inl hf', hshifted⟩
    · obtain ⟨f', hf', hshifted⟩ := ih₂ he.2 hplain.2 (hlawful.forward hi ha).2 hf
      have ha' := Expr.StepFree.gives_shift (r := .success a j) he.1 hi ha u
      exact ⟨f', .inr ⟨a, _, ha', hf'⟩, hshifted⟩
  | choice alternatives ih => exact failsShifted_choice he fun k => ih k (he k) (hplain k)
  | or first second ih₁ ih₂ =>
    exact failsShifted_or (Expr.StepFree.lawful he.1) (Expr.StepFree.lawful he.2)
      (ih₁ he.1 hplain.1) (ih₂ he.2 hplain.2)
  | @either α β first second ih₁ ih₂ =>
    have h₁ : (Expr.map first (Sum.inl : α → α ⊕ β)).parser.Lawful :=
      Parser.Lawful.map (Expr.StepFree.lawful he.1) _
    have h₂ : (Expr.map second (Sum.inr : β → α ⊕ β)).parser.Lawful :=
      Parser.Lawful.map (Expr.StepFree.lawful he.2) _
    exact failsShifted_or h₁ h₂ (failsShifted_map (ih₁ he.1 hplain.1) _)
      (failsShifted_map (ih₂ he.2 hplain.2) _)
  | many body ih =>
    intro i f hi h
    exact absurd h Parser.many_not_failsWith
  | manyOne body ih =>
    intro i f hi h
    have hlawful : body.parser.Lawful := Expr.StepFree.lawful he
    obtain ⟨hmany, rfl⟩ := (Parser.manyOne_failsWith hlawful hi).1 h
    have hfree : (Expr.many body).StepFree := he
    have hmany' := hfree.gives_shift (r := .success [] i) hi hmany u
    exact ⟨_, (Parser.manyOne_failsWith hlawful (hi.shift u)).2 ⟨hmany', rfl⟩, .leaf _ _ _⟩
  | map body f ih => exact failsShifted_map (ih he.2 hplain.2) f
  | errorMap body f ih => exact hplain.1.elim
  | boxed body ih =>
    intro i f hi h
    exact ih he hplain hi h
  | step p => exact he.elim

/-! ## Two runs -/

/-- **A parser sees only what remains.**  Behind `u` as on `w` alone, it
succeeds with the same value, or it fails; offsets differ by the size of
`u`, those of failures and their causes as well unless a function is
applied to a failure. -/
theorem parser_sees_rest {α : Type} {e : Expr α} (he : e.StepFree) (u w : String) :
    (∃ value stop,
      e.parser ⟨u ++ w, u.utf8ByteSize, .ok ()⟩ =
        ⟨u ++ w, u.utf8ByteSize + stop, .ok value⟩ ∧
      e.run w = ⟨w, stop, .ok value⟩) ∨
    ∃ failure failure' : Failure,
      e.parser ⟨u ++ w, u.utf8ByteSize, .ok ()⟩ =
        ⟨u ++ w, failure.index, .error failure⟩ ∧
      e.run w = ⟨w, failure'.index, .error failure'⟩ ∧
      (e.ErrorMapFree → failure.ShiftedBy u.utf8ByteSize failure') := by
  have hlawful : e.parser.Lawful := he.lawful
  have hzero := Text.isBoundary_zero w
  rcases hlawful.cases hzero with ⟨a, j, ha, -⟩ | hfails
  · have ha' := he.gives_shift (r := .success a j) hzero ha u
    exact .inl ⟨a, j, ha', ha⟩
  · obtain ⟨f, hf⟩ := he.gives_shift (r := .failure) hzero hfails u
    obtain ⟨f', hf'⟩ := hfails
    refine .inr ⟨f, f', hf, hf', fun hplain => ?_⟩
    obtain ⟨f'', hf'', hshifted⟩ := he.failsShifted hplain hzero hf'
    exact hf''.unique hf ▸ hshifted

/-- Letters, and then digits or white space that are missing: behind two
bytes more, the offsets are those two bytes apart. -/
theorem parser_sees_rest_missing_digits :
    (Expr.and (.matcher (.charClass .letters)) (.or (.matcher (.charClass .digits))
      (.matcher (.charClass .whitespace)))).StepFree ∧
    ∃ failure failure' : Failure,
      (Expr.and (.matcher (.charClass .letters)) (.or (.matcher (.charClass .digits))
        (.matcher (.charClass .whitespace)))).parser ⟨"é" ++ "a-", 2, .ok ()⟩ =
          ⟨"é" ++ "a-", failure.index, .error failure⟩ ∧
      (Expr.and (.matcher (.charClass .letters)) (.or (.matcher (.charClass .digits))
        (.matcher (.charClass .whitespace)))).run "a-" =
          ⟨"a-", failure'.index, .error failure'⟩ ∧
      failure.ShiftedBy 2 failure' := by
  have hfree : (Expr.and (.matcher (.charClass .letters)) (.or
      (.matcher (.charClass .digits)) (.matcher (.charClass .whitespace)))).StepFree :=
    ⟨trivial, trivial, trivial⟩
  have hplain : (Expr.and (.matcher (.charClass .letters)) (.or
      (.matcher (.charClass .digits)) (.matcher (.charClass .whitespace)))).ErrorMapFree :=
    ⟨trivial, trivial, trivial⟩
  refine ⟨hfree, ?_⟩
  rcases parser_sees_rest hfree "é" "a-" with ⟨value, stop, -, hrun⟩ | ⟨f, f', hf, hf', hshifted⟩
  · have herror : ((Expr.and (.matcher (.charClass .letters)) (.or
        (.matcher (.charClass .digits)) (.matcher (.charClass .whitespace)))).run
          "a-").isError = true := by cbv
    rw [hrun, State.isError_ok] at herror
    exact Bool.noConfusion herror
  · exact ⟨f, f', hf, hf', hshifted hplain⟩

end Parsing
