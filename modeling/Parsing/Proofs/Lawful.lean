/-
Parsing.Proofs.Lawful — the three rules, for states and for parsers.

`State.LeadsTo` says what two states have to do with one another when
the second comes out of the first: the input is the same, the second is
well placed, a failure stays a failure, and from a success to a success
the offset does not decrease.  It is reflexive on well-placed states and
transitive, so that what holds of one operation holds of many.

A parser is lawful when it leads from every well-placed state to its
answer.  One lemma for each combinator, and `Expr.parser_lawful` puts
them together: if the functions that stand as parsers are lawful, so is
every parser built of them.
-/
import Parsing.Proofs.Contents

namespace Parsing

universe u v w

/-! ## From state to state -/

namespace State

variable {α : Type u} {β : Type v} {γ : Type w}

/-- The second state may come out of the first. -/
structure LeadsTo (s : State α) (t : State β) : Prop where
  target_eq : t.target = s.target
  wellPlaced : t.WellPlaced
  stays_failed : s.isError = true → t.isError = true
  forward : s.isError = false → t.isError = false → s.index ≤ t.index

theorem LeadsTo.refl {s : State α} (h : s.WellPlaced) : s.LeadsTo s where
  target_eq := rfl
  wellPlaced := h
  stays_failed := id
  forward _ _ := Nat.le_refl _

theorem LeadsTo.trans {s : State α} {t : State β} {u : State γ}
    (hst : s.LeadsTo t) (htu : t.LeadsTo u) : s.LeadsTo u where
  target_eq := htu.target_eq.trans hst.target_eq
  wellPlaced := htu.wellPlaced
  stays_failed h := htu.stays_failed (hst.stays_failed h)
  forward hs hu := by
    -- a failed state in the middle would have stayed failed
    have ht : t.isError = false := by
      cases h : t.isError with
      | false => rfl
      | true => rw [htu.stays_failed h] at hu; exact hu
    exact Nat.le_trans (hst.forward hs ht) (htu.forward ht hu)

/-! ## The operations -/

theorem leadsTo_mapResult {s : State α} (h : s.WellPlaced) (f : α → β) :
    s.LeadsTo (s.mapResult f) := by
  obtain ⟨target, index, failure | value⟩ := s
  · exact ⟨rfl, h, id, fun _ _ => Nat.le_refl _⟩
  · exact ⟨rfl, h, id, fun _ _ => Nat.le_refl _⟩

theorem leadsTo_withResult {s : State α} (h : s.WellPlaced) (value : β) :
    s.LeadsTo (s.withResult value) :=
  leadsTo_mapResult h _

theorem leadsTo_failWith (s : State α) (failure : Failure) :
    s.LeadsTo (s.failWith failure : State β) where
  target_eq := rfl
  wellPlaced := rfl
  stays_failed _ := rfl
  forward _ h := nomatch h

theorem leadsTo_mapError {s : State α} (h : s.WellPlaced)
    (f : Failure → Nat → Failure) : s.LeadsTo (s.mapError f) := by
  obtain ⟨target, index, failure | value⟩ := s
  · exact leadsTo_failWith _ _
  · exact .refl h

/-- The offset is rounded up, and so it does not decrease. -/
theorem leadsTo_advance {s : State α} (h : s.WellPlaced) (length : Nat) (value : β) :
    s.LeadsTo (s.advance length value) := by
  obtain ⟨target, index, failure | a⟩ := s
  · exact ⟨rfl, h, id, fun _ _ => Nat.le_refl _⟩
  · have hmin := Text.min_le_ceilBoundary target (index + length)
    have hsize : index ≤ target.utf8ByteSize := Text.IsBoundary.le_size h
    refine ⟨rfl, Text.isBoundary_ceilBoundary _ _, id, fun _ _ => ?_⟩
    show index ≤ Text.ceilBoundary target (index + length)
    omega

/-- Where one state leads to another, it leads to what comes after. -/
theorem LeadsTo.andThen {s : State α} {t : State β} {next : State Unit → β → State γ}
    (h : s.LeadsTo t)
    (hnext : ∀ (rest : State Unit) (value : β),
      rest.WellPlaced → rest.LeadsTo (next rest value)) :
    s.LeadsTo (t.andThen next) := by
  obtain ⟨target, index, failure | value⟩ := t
  · exact ⟨h.target_eq, h.wellPlaced, h.stays_failed, h.forward⟩
  · have hrest : s.LeadsTo (⟨target, index, .ok ()⟩ : State Unit) :=
      ⟨h.target_eq, h.wellPlaced, h.stays_failed, h.forward⟩
    exact hrest.trans (hnext _ value hrest.wellPlaced)

theorem leadsTo_andThen {s : State α} (h : s.WellPlaced)
    {next : State Unit → α → State β}
    (hnext : ∀ (rest : State Unit) (value : α),
      rest.WellPlaced → rest.LeadsTo (next rest value)) :
    s.LeadsTo (s.andThen next) :=
  (LeadsTo.refl h).andThen hnext

end State

/-! ## Lawful parsers -/

namespace Parser

open State

variable {α : Type u} {β : Type v}

/-- The parser leads from every well-placed state to its answer. -/
def Lawful (p : Parser α) : Prop :=
  ∀ s : State Unit, s.WellPlaced → s.LeadsTo (p s)

theorem lawful_of_mem_ofFn {n : Nat} {parts : Fin n → Parser α}
    (h : ∀ i, (parts i).Lawful) : ∀ p ∈ List.ofFn parts, p.Lawful := by
  intro p hp
  obtain ⟨i, rfl⟩ := List.mem_ofFn.1 hp
  exact h i

theorem Lawful.map {p : Parser α} (hp : p.Lawful) (f : α → β) :
    (p.map f).Lawful := by
  intro s hs
  exact (hp s hs).trans (leadsTo_mapResult (hp s hs).wellPlaced f)

theorem Lawful.errorMap {p : Parser α} (hp : p.Lawful)
    (f : Failure → Nat → Failure) : (p.errorMap f).Lawful := by
  intro s hs
  exact (hp s hs).trans (leadsTo_mapError (hp s hs).wellPlaced f)

theorem Lawful.and {p : Parser α} {q : Parser β} (hp : p.Lawful) (hq : q.Lawful) :
    (p.and q).Lawful := by
  intro s hs
  refine (hp s hs).andThen fun s₁ a hs₁ => (hq s₁ hs₁).andThen fun s₂ b hs₂ => ?_
  exact leadsTo_withResult hs₂ (a, b)

theorem Lawful.inOrder {ps : List (Parser α)} (hps : ∀ p ∈ ps, p.Lawful) :
    (inOrder ps).Lawful := by
  induction ps with
  | nil => intro s hs; exact leadsTo_withResult hs []
  | cons p ps ih =>
    intro s hs
    obtain ⟨hp, hrest⟩ := List.forall_mem_cons.1 hps
    refine (hp s hs).andThen fun s₁ a hs₁ => (ih hrest s₁ hs₁).trans ?_
    exact leadsTo_mapResult (ih hrest s₁ hs₁).wellPlaced _

theorem Lawful.sequenceOf {ps : List (Parser α)} (hps : ∀ p ∈ ps, p.Lawful) :
    (sequenceOf ps).Lawful := by
  intro s hs
  exact leadsTo_andThen hs fun s₁ _ hs₁ => Lawful.inOrder hps s₁ hs₁

/-- The first success is the answer of one of the alternatives, and it
is a success. -/
theorem exists_of_firstSuccess {ps : List (Parser α)} {s : State Unit} {t : State α}
    (h : firstSuccess ps s = .ok t) : ∃ p ∈ ps, t = p s ∧ t.isError = false := by
  induction ps with
  | nil => simp [firstSuccess] at h
  | cons p ps ih =>
    simp only [firstSuccess] at h
    split at h
    · rename_i hnone
      obtain rfl := Except.ok.inj h
      exact ⟨p, by simp, rfl, by simp [isError, hnone]⟩
    · split at h
      · rename_i hrest
        obtain ⟨q, hq, hanswer⟩ := ih (hrest.trans h)
        exact ⟨q, by simp [hq], hanswer⟩
      · simp at h

theorem Lawful.choice {ps : List (Parser α)} (hps : ∀ p ∈ ps, p.Lawful) :
    (choice ps).Lawful := by
  intro s hs
  refine leadsTo_andThen hs fun s₁ _ hs₁ => ?_
  split
  · rename_i success h
    obtain ⟨p, hp, rfl, -⟩ := exists_of_firstSuccess h
    exact hps p hp s₁ hs₁
  · exact leadsTo_failWith _ _

theorem Lawful.or {p q : Parser α} (hp : p.Lawful) (hq : q.Lawful) :
    (p.or q).Lawful := by
  intro s hs
  refine leadsTo_andThen hs fun s₁ _ hs₁ => ?_
  dsimp only
  split
  · exact hp s₁ hs₁
  · split
    · exact hq s₁ hs₁
    · exact leadsTo_failWith _ _

theorem Lawful.either {p : Parser α} {q : Parser β} (hp : p.Lawful) (hq : q.Lawful) :
    (p.either q).Lawful :=
  (hp.map Sum.inl).or (hq.map Sum.inr)

/-- A repetition leads from its start to where it stops. -/
theorem Lawful.iterate {p : Parser α} (hp : p.Lawful) {s : State Unit}
    (hs : s.WellPlaced) : s.LeadsTo (iterate p s).1 := by
  refine iterate_keeps (fun s' target index value hlead heq => ?_) (.refl hs)
  have hstep := hp s' hlead.wellPlaced
  rw [heq] at hstep
  exact hlead.trans ⟨hstep.target_eq, hstep.wellPlaced, hstep.stays_failed, hstep.forward⟩

theorem Lawful.many {p : Parser α} (hp : p.Lawful) : p.many.Lawful := by
  intro s hs
  refine leadsTo_andThen hs fun s₁ _ hs₁ => ?_
  have hkept := hp.iterate hs₁
  exact hkept.trans (leadsTo_withResult hkept.wellPlaced _)

theorem Lawful.manyOne {p : Parser α} (hp : p.Lawful) : p.manyOne.Lawful := by
  intro s hs
  refine leadsTo_andThen hs fun s₁ _ hs₁ => ?_
  have hkept := hp.iterate hs₁
  dsimp only
  split
  · exact hkept.trans (leadsTo_failWith _ _)
  · exact hkept.trans (leadsTo_withResult hkept.wellPlaced _)

end Parser

/-! ## Matchers and expressions -/

open State

theorem Literal.parser_lawful (l : Literal) : l.parser.Lawful := by
  intro s hs
  refine leadsTo_andThen hs fun s₁ _ hs₁ => ?_
  dsimp only
  split
  · exact leadsTo_failWith _ _
  · split
    · exact leadsTo_advance hs₁ _ _
    · exact leadsTo_failWith _ _

theorem CharClass.parser_lawful (c : CharClass) : c.parser.Lawful := by
  intro s hs
  refine leadsTo_andThen hs fun s₁ _ hs₁ => ?_
  dsimp only
  split
  · exact leadsTo_failWith _ _
  · split
    · exact leadsTo_failWith _ _
    · exact leadsTo_advance hs₁ _ _

theorem Matcher.parser_lawful (m : Matcher) : m.parser.Lawful := by
  cases m with
  | literal l => exact l.parser_lawful
  | charClass c => exact c.parser_lawful

/-- What is built of lawful parsers is lawful. -/
theorem Expr.parser_lawful {α : Type} {e : Expr α}
    (h : e.StepsAre fun _ p => p.Lawful) : e.parser.Lawful := by
  induction e with
  | matcher m => exact m.parser_lawful
  | sequenceOf parts ih =>
    exact Parser.Lawful.sequenceOf (Parser.lawful_of_mem_ofFn fun i => ih i (h i))
  | and first second ih₁ ih₂ => exact (ih₁ h.1).and (ih₂ h.2)
  | choice alternatives ih =>
    exact Parser.Lawful.choice (Parser.lawful_of_mem_ofFn fun i => ih i (h i))
  | or first second ih₁ ih₂ => exact (ih₁ h.1).or (ih₂ h.2)
  | either first second ih₁ ih₂ => exact (ih₁ h.1).either (ih₂ h.2)
  | many body ih => exact (ih h).many
  | manyOne body ih => exact (ih h).manyOne
  | map body f ih => exact (ih h.2).map f
  | errorMap body f ih => exact (ih h.2).errorMap f
  | boxed body ih => exact ih h
  | step p => exact h

theorem Expr.StepFree.lawful {α : Type} {e : Expr α} (he : e.StepFree) :
    e.parser.Lawful :=
  Expr.parser_lawful he.stepsAre

end Parsing
