/-
Parsing.Proofs.Outcome — when a combinator succeeds, and when it fails.

From a success, a lawful parser either succeeds (`Parser.Succeeds`) or
fails (`Parser.FailsWith`), and not both.  For each combinator one
theorem says when it succeeds and one says with what it fails, in terms
of the outcomes of its parts.  Arguments about expressions cite these
and leave the states alone.

Lists of parts and of alternatives are taken one at a time, and a
repetition is unrolled once: an iteration that is kept, and the
repetition from where it stopped.  What a repetition asks of its parser
is that it goes forward (`Parser.GoesForward`), as lawful parsers do:
then the loop has an end.
-/
import Mathlib.Data.List.Forall2
import Mathlib.Data.Set.Defs
import Parsing.Proofs.Lawful

namespace Parsing

namespace State

universe u v w

variable {α : Type u} {β : Type v} {γ : Type w}

theorem mapResult_eq_ok {s : State α} {f : α → β} {target : String} {index : Nat}
    {value : β} :
    s.mapResult f = ⟨target, index, .ok value⟩ ↔
      ∃ a, s = ⟨target, index, .ok a⟩ ∧ f a = value := by
  obtain ⟨t, i, failure | a⟩ := s <;> simp [and_assoc]

theorem mapResult_eq_error {s : State α} {f : α → β} {target : String} {index : Nat}
    {failure : Failure} :
    s.mapResult f = ⟨target, index, .error failure⟩ ↔
      s = ⟨target, index, .error failure⟩ := by
  obtain ⟨t, i, e | a⟩ := s <;> simp

theorem mapError_eq_ok {s : State α} {f : Failure → Nat → Failure} {target : String}
    {index : Nat} {value : α} :
    s.mapError f = ⟨target, index, .ok value⟩ ↔ s = ⟨target, index, .ok value⟩ := by
  obtain ⟨t, i, e | a⟩ := s <;> simp

theorem mapResult_mapResult (s : State α) (f : α → β) (g : β → γ) :
    (s.mapResult f).mapResult g = s.mapResult (g ∘ f) := by
  obtain ⟨t, i, e | a⟩ := s <;> rfl

theorem withResult_mapResult (s : State α) (value : β) (f : β → γ) :
    (s.withResult value).mapResult f = s.withResult (f value) :=
  mapResult_mapResult s _ f

theorem mapResult_id (s : State α) : s.mapResult id = s := by
  obtain ⟨t, i, e | a⟩ := s <;> rfl

theorem failure?_mapResult (s : State α) (f : α → β) :
    (s.mapResult f).failure? = s.failure? := by
  obtain ⟨t, i, e | a⟩ := s <;> rfl

theorem mapResult_andThen (s : State α) (f : α → β) (next : State Unit → β → State γ) :
    (s.mapResult f).andThen next = s.andThen fun rest a => next rest (f a) := by
  obtain ⟨t, i, e | a⟩ := s <;> rfl

theorem andThen_mapResult (s : State α) (next : State Unit → α → State β) (f : β → γ) :
    (s.andThen next).mapResult f = s.andThen fun rest a => (next rest a).mapResult f := by
  obtain ⟨t, i, e | a⟩ := s <;> rfl

theorem andThen_assoc (s : State α) (next : State Unit → α → State β)
    (last : State Unit → β → State γ) :
    (s.andThen next).andThen last = s.andThen fun rest a => (next rest a).andThen last := by
  obtain ⟨t, i, e | a⟩ := s <;> rfl

theorem andThen_withResult (s : State α) (f : α → β) :
    (s.andThen fun rest a => rest.withResult (f a)) = s.mapResult f := by
  obtain ⟨t, i, e | a⟩ := s <;> rfl

end State

namespace Parser

variable {α β : Type} {p : Parser α} {q : Parser β} {ps : List (Parser α)}
  {target : String} {i j k : Nat} {e : Failure}

/-! ## Outcomes -/

/-- From a success at `start`, the parser succeeds with the value at
`stop`. -/
def Succeeds (p : Parser α) (target : String) (start : Nat) (value : α)
    (stop : Nat) : Prop :=
  p ⟨target, start, .ok ()⟩ = ⟨target, stop, .ok value⟩

/-- From a success at `start`, the parser fails with the failure. -/
def FailsWith (p : Parser α) (target : String) (start : Nat) (failure : Failure) :
    Prop :=
  p ⟨target, start, .ok ()⟩ = ⟨target, failure.index, .error failure⟩

/-- From a success at `start`, the parser fails. -/
def Fails (p : Parser α) (target : String) (start : Nat) : Prop :=
  ∃ failure, p.FailsWith target start failure

theorem Succeeds.unique {a b : α} (ha : p.Succeeds target i a j)
    (hb : p.Succeeds target i b k) : a = b ∧ j = k := by
  unfold Succeeds at ha hb
  rw [ha] at hb
  simp only [State.mk.injEq, Except.ok.injEq, true_and] at hb
  exact ⟨hb.2, hb.1⟩

theorem FailsWith.unique {e' : Failure} (h : p.FailsWith target i e)
    (h' : p.FailsWith target i e') : e = e' := by
  unfold FailsWith at h h'
  rw [h] at h'
  simp only [State.mk.injEq, Except.error.injEq, true_and] at h'
  exact h'.2

theorem Succeeds.not_failsWith {a : α} (h : p.Succeeds target i a j) :
    ¬ p.FailsWith target i e := by
  intro he
  unfold Succeeds at h
  unfold FailsWith at he
  rw [h] at he
  simp at he

theorem Succeeds.not_fails {a : α} (h : p.Succeeds target i a j) :
    ¬ p.Fails target i :=
  fun ⟨_, he⟩ => h.not_failsWith he

/-- A lawful parser succeeds further on, at a boundary, or it fails. -/
theorem Lawful.cases (hp : p.Lawful) (hi : Text.IsBoundary target i) :
    (∃ a j, p.Succeeds target i a j ∧ i ≤ j ∧ Text.IsBoundary target j) ∨
      p.Fails target i := by
  have hlead := hp ⟨target, i, .ok ()⟩ hi
  unfold Fails FailsWith Succeeds
  generalize p ⟨target, i, .ok ()⟩ = s at hlead ⊢
  obtain ⟨t, j, failure | a⟩ := s
  · obtain rfl : t = target := hlead.target_eq
    obtain rfl : j = failure.index := hlead.wellPlaced
    exact .inr ⟨failure, rfl⟩
  · obtain rfl : t = target := hlead.target_eq
    exact .inl ⟨a, j, rfl, hlead.forward rfl rfl, hlead.wellPlaced⟩

theorem Lawful.exists_succeeds (hp : p.Lawful) (hi : Text.IsBoundary target i)
    (hok : (p ⟨target, i, .ok ()⟩).isError = false) : ∃ a j, p.Succeeds target i a j := by
  rcases hp.cases hi with ⟨a, j, ha, -⟩ | ⟨e, he⟩
  · exact ⟨a, j, ha⟩
  · unfold FailsWith at he
    rw [he, State.isError_error] at hok
    exact Bool.noConfusion hok

theorem Lawful.failure?_eq_some_iff (hp : p.Lawful) (hi : Text.IsBoundary target i) :
    (p ⟨target, i, .ok ()⟩).failure? = some e ↔ p.FailsWith target i e := by
  rcases hp.cases hi with ⟨a, j, ha, -⟩ | ⟨e', he'⟩
  · have hnot : ¬ p.FailsWith target i e := ha.not_failsWith
    unfold Succeeds at ha
    simp [hnot, ha, State.failure?]
  · have heq : p.FailsWith target i e ↔ e' = e := ⟨he'.unique, fun h => h ▸ he'⟩
    unfold FailsWith at he'
    rw [heq, he', State.failure?, Option.some.injEq]

theorem Lawful.forward {a : α} (hp : p.Lawful) (hi : Text.IsBoundary target i)
    (h : p.Succeeds target i a j) : i ≤ j ∧ Text.IsBoundary target j := by
  rcases hp.cases hi with ⟨b, k, hb, hforward⟩ | hfails
  · obtain ⟨-, rfl⟩ := h.unique hb
    exact hforward
  · exact absurd hfails h.not_fails

/-! ## Functions on values and on failures -/

theorem map_succeeds {f : α → β} {b : β} :
    (p.map f).Succeeds target i b j ↔ ∃ a, p.Succeeds target i a j ∧ f a = b :=
  State.mapResult_eq_ok

theorem map_failsWith {f : α → β} :
    (p.map f).FailsWith target i e ↔ p.FailsWith target i e :=
  State.mapResult_eq_error

theorem errorMap_succeeds {f : Failure → Nat → Failure} {a : α} :
    (p.errorMap f).Succeeds target i a j ↔ p.Succeeds target i a j :=
  State.mapError_eq_ok

theorem errorMap_of_failsWith {f : Failure → Nat → Failure}
    (h : p.FailsWith target i e) : (p.errorMap f).FailsWith target i (f e e.index) := by
  unfold FailsWith at *
  rw [errorMap, h, State.mapError_error]

theorem errorMap_failsWith {f : Failure → Nat → Failure} (hp : p.Lawful)
    (hi : Text.IsBoundary target i) :
    (p.errorMap f).FailsWith target i e ↔
      ∃ e', p.FailsWith target i e' ∧ e = f e' e'.index := by
  constructor
  · intro h
    rcases hp.cases hi with ⟨a, j, ha, -⟩ | ⟨e', he'⟩
    · exact absurd h (errorMap_succeeds.2 ha).not_failsWith
    · exact ⟨e', he', h.unique (errorMap_of_failsWith he')⟩
  · rintro ⟨e', he', rfl⟩
    exact errorMap_of_failsWith he'

theorem map_fails {f : α → β} : (p.map f).Fails target i ↔ p.Fails target i := by
  simp only [Fails, map_failsWith]

theorem errorMap_fails {f : Failure → Nat → Failure} (hp : p.Lawful)
    (hi : Text.IsBoundary target i) :
    (p.errorMap f).Fails target i ↔ p.Fails target i := by
  constructor
  · rintro ⟨e, he⟩
    obtain ⟨e', he', -⟩ := (errorMap_failsWith hp hi).1 he
    exact ⟨e', he'⟩
  · rintro ⟨e, he⟩
    exact ⟨_, errorMap_of_failsWith he⟩

/-! ## Two in a row -/

theorem and_of_succeeds {a : α} (ha : p.Succeeds target i a j) :
    (p.and q) ⟨target, i, .ok ()⟩ = (q ⟨target, j, .ok ()⟩).mapResult (a, ·) := by
  unfold Succeeds at ha
  rw [and, ha, State.andThen_ok, State.andThen_withResult]

theorem and_of_failsWith (h : p.FailsWith target i e) :
    (p.and q).FailsWith target i e := by
  unfold FailsWith at *
  rw [and, h, State.andThen_error]

theorem and_succeeds {ab : α × β} (hp : p.Lawful) (hi : Text.IsBoundary target i) :
    (p.and q).Succeeds target i ab k ↔
      ∃ j, p.Succeeds target i ab.1 j ∧ q.Succeeds target j ab.2 k := by
  obtain ⟨a, b⟩ := ab
  constructor
  · intro h
    rcases hp.cases hi with ⟨a', j, ha, -⟩ | ⟨e, he⟩
    · unfold Succeeds at h
      rw [and_of_succeeds ha, State.mapResult_eq_ok] at h
      obtain ⟨b', hb, hpair⟩ := h
      obtain ⟨rfl, rfl⟩ := Prod.mk.inj hpair
      exact ⟨j, ha, hb⟩
    · exact absurd (and_of_failsWith he) h.not_failsWith
  · rintro ⟨j, ha, hb⟩
    unfold Succeeds at hb ⊢
    rw [and_of_succeeds ha, hb, State.mapResult_ok]

theorem and_failsWith (hp : p.Lawful) (hi : Text.IsBoundary target i) :
    (p.and q).FailsWith target i e ↔
      p.FailsWith target i e ∨
        ∃ a j, p.Succeeds target i a j ∧ q.FailsWith target j e := by
  constructor
  · intro h
    rcases hp.cases hi with ⟨a, j, ha, -⟩ | ⟨e', he'⟩
    · unfold FailsWith at h
      rw [and_of_succeeds ha, State.mapResult_eq_error] at h
      exact .inr ⟨a, j, ha, h⟩
    · exact .inl (h.unique (and_of_failsWith he') ▸ he')
  · rintro (he | ⟨a, j, ha, he⟩)
    · exact and_of_failsWith he
    · unfold FailsWith
      rw [and_of_succeeds ha, State.mapResult_eq_error]
      exact he

theorem and_fails (hp : p.Lawful) (hi : Text.IsBoundary target i) :
    (p.and q).Fails target i ↔
      p.Fails target i ∨ ∃ a j, p.Succeeds target i a j ∧ q.Fails target j := by
  simp only [Fails, and_failsWith hp hi, exists_or]
  grind

/-! ## Many in a row -/

theorem sequenceOf_nil_succeeds {as : List α} :
    (sequenceOf []).Succeeds target i as j ↔ as = [] ∧ j = i := by
  simp [Succeeds, sequenceOf, inOrder, eq_comm, and_comm]

theorem sequenceOf_nil_not_failsWith :
    ¬ (sequenceOf ([] : List (Parser α))).FailsWith target i e := by
  simp [FailsWith, sequenceOf, inOrder]

theorem sequenceOf_cons_of_succeeds {a : α} (ha : p.Succeeds target i a j) :
    sequenceOf (p :: ps) ⟨target, i, .ok ()⟩ =
      (sequenceOf ps ⟨target, j, .ok ()⟩).mapResult (a :: ·) := by
  unfold Succeeds at ha
  rw [sequenceOf, State.andThen_ok, inOrder, ha, State.andThen_ok, sequenceOf,
    State.andThen_ok]

theorem sequenceOf_cons_of_failsWith (h : p.FailsWith target i e) :
    (sequenceOf (p :: ps)).FailsWith target i e := by
  unfold FailsWith at *
  rw [sequenceOf, State.andThen_ok, inOrder, h, State.andThen_error]

theorem sequenceOf_cons_succeeds {as : List α} (hp : p.Lawful)
    (hi : Text.IsBoundary target i) :
    (sequenceOf (p :: ps)).Succeeds target i as k ↔
      ∃ b j bs, p.Succeeds target i b j ∧
        (sequenceOf ps).Succeeds target j bs k ∧ as = b :: bs := by
  constructor
  · intro h
    rcases hp.cases hi with ⟨b, j, hb, -⟩ | ⟨e, he⟩
    · unfold Succeeds at h
      rw [sequenceOf_cons_of_succeeds hb, State.mapResult_eq_ok] at h
      obtain ⟨bs, hbs, rfl⟩ := h
      exact ⟨b, j, bs, hb, hbs, rfl⟩
    · exact absurd (sequenceOf_cons_of_failsWith he) h.not_failsWith
  · rintro ⟨b, j, bs, hb, hbs, rfl⟩
    unfold Succeeds at hbs ⊢
    rw [sequenceOf_cons_of_succeeds hb, hbs, State.mapResult_ok]

theorem sequenceOf_cons_failsWith (hp : p.Lawful) (hi : Text.IsBoundary target i) :
    (sequenceOf (p :: ps)).FailsWith target i e ↔
      p.FailsWith target i e ∨
        ∃ a j, p.Succeeds target i a j ∧ (sequenceOf ps).FailsWith target j e := by
  constructor
  · intro h
    rcases hp.cases hi with ⟨a, j, ha, -⟩ | ⟨e', he'⟩
    · unfold FailsWith at h
      rw [sequenceOf_cons_of_succeeds ha, State.mapResult_eq_error] at h
      exact .inr ⟨a, j, ha, h⟩
    · exact .inl (h.unique (sequenceOf_cons_of_failsWith he') ▸ he')
  · rintro (he | ⟨a, j, ha, he⟩)
    · exact sequenceOf_cons_of_failsWith he
    · unfold FailsWith
      rw [sequenceOf_cons_of_succeeds ha, State.mapResult_eq_error]
      exact he

theorem sequenceOf_cons_fails (hp : p.Lawful) (hi : Text.IsBoundary target i) :
    (sequenceOf (p :: ps)).Fails target i ↔
      p.Fails target i ∨
        ∃ a j, p.Succeeds target i a j ∧ (sequenceOf ps).Fails target j := by
  simp only [Fails, sequenceOf_cons_failsWith hp hi, exists_or]
  grind

/-! ## Choices -/

theorem choice_apply (ps : List (Parser α)) (target : String) (i : Nat) :
    choice ps ⟨target, i, .ok ()⟩ =
      match firstSuccess ps ⟨target, i, .ok ()⟩ with
      | .ok success => success
      | .error causes => ⟨target, i, .error (.exhausted i causes)⟩ := rfl

theorem isError_of_firstSuccess {s : State Unit} {success : State α}
    (h : firstSuccess ps s = .ok success) : success.isError = false := by
  obtain ⟨-, -, -, hok⟩ := exists_of_firstSuccess h
  exact hok

theorem firstSuccess_cons (p : Parser α) (ps : List (Parser α)) (s : State Unit) :
    firstSuccess (p :: ps) s =
      match (p s).failure? with
      | none => .ok (p s)
      | some failure => (firstSuccess ps s).mapError (failure :: ·) := by
  rw [firstSuccess]
  cases (p s).failure? with
  | none => rfl
  | some failure =>
    cases firstSuccess ps s with
    | ok success => rfl
    | error causes => rfl

/-- The causes of a choice that fails are the failures of its alternatives. -/
theorem firstSuccess_eq_error_iff {s : State Unit} {causes : List Failure} :
    firstSuccess ps s = .error causes ↔
      List.Forall₂ (fun p cause => (p s).failure? = some cause) ps causes := by
  induction ps generalizing causes with
  | nil => simp [firstSuccess, eq_comm]
  | cons p ps ih =>
    rw [List.forall₂_cons_left_iff, firstSuccess_cons]
    simp only [← ih]
    cases (p s).failure? with
    | none => simp
    | some failure => cases firstSuccess ps s <;> simp [Except.mapError, eq_comm]

theorem choice_nil_failsWith :
    (choice ([] : List (Parser α))).FailsWith target i (.exhausted i []) := rfl

theorem choice_cons_of_succeeds {a : α} (ha : p.Succeeds target i a j) :
    (choice (p :: ps)).Succeeds target i a j := by
  unfold Succeeds at *
  rw [choice, State.andThen_ok, firstSuccess, ha]
  rfl

/-- A choice that succeeds answers what one of its alternatives does. -/
theorem exists_of_choice_eq_ok {t : String} {a : α}
    (h : choice ps ⟨target, i, .ok ()⟩ = ⟨t, j, .ok a⟩) :
    ∃ p ∈ ps, p ⟨target, i, .ok ()⟩ = ⟨t, j, .ok a⟩ := by
  rw [choice, State.andThen_ok] at h
  split at h
  · rename_i success hsuccess
    obtain ⟨p, hp, rfl, -⟩ := exists_of_firstSuccess hsuccess
    exact ⟨p, hp, h⟩
  · simp [State.failWith] at h

/-- After a failure, what the rest of the alternatives comes to decides;
a failure of theirs gets one more cause. -/
theorem choice_cons_of_failsWith (h : p.FailsWith target i e) :
    choice (p :: ps) ⟨target, i, .ok ()⟩ =
      match firstSuccess ps ⟨target, i, .ok ()⟩ with
      | .ok success => success
      | .error failures => ⟨target, i, .error (.exhausted i (e :: failures))⟩ := by
  unfold FailsWith at h
  rw [choice, State.andThen_ok, firstSuccess, h]
  cases firstSuccess ps ⟨target, i, .ok ()⟩ <;> rfl

theorem choice_cons_succeeds {a : α} (hp : p.Lawful) (hi : Text.IsBoundary target i) :
    (choice (p :: ps)).Succeeds target i a j ↔
      p.Succeeds target i a j ∨
        p.Fails target i ∧ (choice ps).Succeeds target i a j := by
  rcases hp.cases hi with ⟨b, k, hb, -⟩ | hfails
  · constructor
    · intro h
      obtain ⟨rfl, rfl⟩ := h.unique (choice_cons_of_succeeds hb)
      exact .inl hb
    · rintro (ha | ⟨hfails, -⟩)
      · exact choice_cons_of_succeeds ha
      · exact absurd hfails hb.not_fails
  · obtain ⟨e, he⟩ := id hfails
    have hnot : ¬ p.Succeeds target i a j := fun h => h.not_failsWith he
    simp only [hnot, hfails, false_or, true_and]
    unfold Succeeds
    rw [choice_cons_of_failsWith he, choice, State.andThen_ok]
    cases firstSuccess ps ⟨target, i, .ok ()⟩ <;> simp [State.failWith]

/-- There is no first success when every alternative fails. -/
theorem firstSuccess_eq_error {causes : List Failure} (hps : ∀ p ∈ ps, p.Lawful)
    (hi : Text.IsBoundary target i) :
    firstSuccess ps ⟨target, i, .ok ()⟩ = .error causes ↔
      List.Forall₂ (fun p cause => p.FailsWith target i cause) ps causes := by
  rw [firstSuccess_eq_error_iff]
  constructor
  · intro h
    have hall := (List.forall₂_and_left ps causes).2 ⟨hps, h⟩
    exact hall.imp fun p cause hp => (hp.1.failure?_eq_some_iff hi).1 hp.2
  · intro h
    have hall := (List.forall₂_and_left ps causes).2 ⟨hps, h⟩
    exact hall.imp fun p cause hp => (hp.1.failure?_eq_some_iff hi).2 hp.2

/-- A choice fails when every alternative does, and their failures are
its causes. -/
theorem choice_failsWith (hps : ∀ p ∈ ps, p.Lawful) (hi : Text.IsBoundary target i) :
    (choice ps).FailsWith target i e ↔
      ∃ causes, List.Forall₂ (fun p cause => p.FailsWith target i cause) ps causes ∧
        e = .exhausted i causes := by
  simp only [← firstSuccess_eq_error hps hi]
  simp only [FailsWith, choice, State.andThen_ok]
  cases h : firstSuccess ps ⟨target, i, .ok ()⟩ with
  | ok success =>
    obtain ⟨p, -, -, hok⟩ := exists_of_firstSuccess h
    simp only [reduceCtorEq, false_and, exists_false, iff_false]
    intro hsuccess
    rw [hsuccess, State.isError_error] at hok
    exact Bool.noConfusion hok
  | error failures =>
    simp only [State.failWith, State.mk.injEq, Except.error.injEq, true_and]
    constructor
    · rintro ⟨-, rfl⟩
      exact ⟨failures, rfl, rfl⟩
    · rintro ⟨causes, rfl, rfl⟩
      exact ⟨rfl, rfl⟩

theorem choice_cons_fails (hps : ∀ q ∈ p :: ps, q.Lawful)
    (hi : Text.IsBoundary target i) :
    (choice (p :: ps)).Fails target i ↔
      p.Fails target i ∧ (choice ps).Fails target i := by
  have hrest : ∀ q ∈ ps, q.Lawful := (List.forall_mem_cons.1 hps).2
  simp only [Fails, choice_failsWith hps hi, choice_failsWith hrest hi,
    List.forall₂_cons_left_iff]
  constructor
  · rintro ⟨_, _, ⟨e, causes, he, hcauses, rfl⟩, rfl⟩
    exact ⟨⟨e, he⟩, _, causes, hcauses, rfl⟩
  · rintro ⟨⟨e, he⟩, _, causes, hcauses, rfl⟩
    exact ⟨_, _, ⟨e, causes, he, hcauses, rfl⟩, rfl⟩

/-- Of two alternatives, `or` makes the choice that `choice` makes. -/
theorem or_eq_choice (p q : Parser α) : p.or q = choice [p, q] := by
  funext s
  obtain ⟨t, i, failure | ⟨⟩⟩ := s
  · rfl
  · rw [Parser.or, choice, State.andThen_ok, State.andThen_ok]
    simp only [firstSuccess]
    cases (p ⟨t, i, .ok ()⟩).failure? with
    | none => rfl
    | some e => cases (q ⟨t, i, .ok ()⟩).failure? <;> rfl

theorem or_succeeds {p q : Parser α} {a : α} (hp : p.Lawful) (hq : q.Lawful)
    (hi : Text.IsBoundary target i) :
    (p.or q).Succeeds target i a j ↔
      p.Succeeds target i a j ∨ p.Fails target i ∧ q.Succeeds target i a j := by
  have hnil : ¬ (choice ([] : List (Parser α))).Succeeds target i a j :=
    fun h => h.not_failsWith choice_nil_failsWith
  simp only [or_eq_choice, choice_cons_succeeds hp hi, choice_cons_succeeds hq hi, hnil,
    and_false, or_false]

theorem or_failsWith {p q : Parser α} (hp : p.Lawful) (hq : q.Lawful)
    (hi : Text.IsBoundary target i) :
    (p.or q).FailsWith target i e ↔
      ∃ e₁ e₂, p.FailsWith target i e₁ ∧ q.FailsWith target i e₂ ∧
        e = .exhausted i [e₁, e₂] := by
  rw [or_eq_choice, choice_failsWith (by simp [hp, hq]) hi]
  simp only [List.forall₂_cons_left_iff, List.forall₂_nil_left_iff]
  constructor
  · rintro ⟨_, ⟨e₁, _, h₁, ⟨e₂, _, h₂, rfl, rfl⟩, rfl⟩, rfl⟩
    exact ⟨e₁, e₂, h₁, h₂, rfl⟩
  · rintro ⟨e₁, e₂, h₁, h₂, rfl⟩
    exact ⟨_, ⟨e₁, _, h₁, ⟨e₂, _, h₂, rfl, rfl⟩, rfl⟩, rfl⟩

theorem or_fails {p q : Parser α} (hp : p.Lawful) (hq : q.Lawful)
    (hi : Text.IsBoundary target i) :
    (p.or q).Fails target i ↔ p.Fails target i ∧ q.Fails target i := by
  simp only [Fails, or_failsWith hp hq hi]
  constructor
  · rintro ⟨_, e₁, e₂, h₁, h₂, rfl⟩
    exact ⟨⟨e₁, h₁⟩, e₂, h₂⟩
  · rintro ⟨⟨e₁, h₁⟩, e₂, h₂⟩
    exact ⟨_, e₁, e₂, h₁, h₂, rfl⟩

theorem either_succeeds {ab : α ⊕ β} (hp : p.Lawful) (hq : q.Lawful)
    (hi : Text.IsBoundary target i) :
    (p.either q).Succeeds target i ab j ↔
      (∃ a, p.Succeeds target i a j ∧ Sum.inl a = ab) ∨
        p.Fails target i ∧ ∃ b, q.Succeeds target i b j ∧ Sum.inr b = ab := by
  rw [either, or_succeeds (hp.map _) (hq.map _) hi, map_succeeds, map_succeeds]
  simp only [Fails, map_failsWith]

theorem either_fails (hp : p.Lawful) (hq : q.Lawful) (hi : Text.IsBoundary target i) :
    (p.either q).Fails target i ↔ p.Fails target i ∧ q.Fails target i := by
  rw [either, or_fails (hp.map _) (hq.map _) hi, map_fails, map_fails]

/-! ## Parsers that go forward -/

/-- On the input, from the offsets in a set, the parser succeeds only on that
input, at an offset of the set that is no smaller.  None of these offsets is
past the end. -/
structure GoesForward (p : Parser α) (target : String) (places : Set Nat) : Prop where
  within : ∀ i ∈ places, i ≤ target.utf8ByteSize
  forward : ∀ ⦃i : Nat⦄, i ∈ places → ∀ ⦃t : String⦄ ⦃j : Nat⦄ ⦃a : α⦄,
    p ⟨target, i, .ok ()⟩ = ⟨t, j, .ok a⟩ → t = target ∧ i ≤ j ∧ j ∈ places

/-- A lawful parser goes forward from the boundaries of every input. -/
theorem Lawful.goesForward (hp : p.Lawful) (target : String) :
    p.GoesForward target {i | Text.IsBoundary target i} where
  within _ hi := Text.IsBoundary.le_size hi
  forward i hi t j a h := by
    have hlead := hp ⟨target, i, .ok ()⟩ hi
    rw [h] at hlead
    have htarget : t = target := hlead.target_eq
    have hplaced : Text.IsBoundary t j := hlead.wellPlaced
    exact ⟨htarget, hlead.forward rfl rfl, htarget ▸ hplaced⟩

/-! ## Repetitions -/

/-- An attempt that fails ends the loop. -/
theorem iterate_of_fails {s : State Unit} (h : (p s).isError = true) :
    iterate p s = (s, []) := by
  cases hanswer : p s with
  | mk t j outcome =>
    cases outcome with
    | error failure => exact iterate_of_repeats (repeats_of_error hanswer [])
    | ok a =>
      rw [hanswer, State.isError_ok] at h
      exact Bool.noConfusion h

/-- So does one that does not move. -/
theorem iterate_of_stays {a : α} (h : p.Succeeds target i a i) :
    iterate p ⟨target, i, .ok ()⟩ = (⟨target, i, .ok ()⟩, []) := by
  have hrepeats := repeats_of_ok h []
  rw [if_pos rfl] at hrepeats
  exact iterate_of_repeats hrepeats

/-- A repetition of a parser that goes forward ends.  By induction on the bytes
that are left. -/
theorem GoesForward.exists_repeats {places : Set Nat} (hp : p.GoesForward target places)
    (hi : i ∈ places) (kept : List α) : ∃ r, repeats p ⟨target, i, .ok ()⟩ kept = some r := by
  induction hleft : target.utf8ByteSize - i using Nat.strongRecOn
    generalizing i kept with
  | _ left ih =>
    cases hanswer : p ⟨target, i, .ok ()⟩ with
    | mk t j outcome =>
      cases outcome with
      | error failure => exact ⟨_, repeats_of_error hanswer kept⟩
      | ok a =>
        obtain ⟨rfl, hij, hj⟩ := hp.forward hi hanswer
        rw [repeats_of_ok hanswer]
        split
        · exact ⟨_, rfl⟩
        · rename_i hmoves
          have hsize := hp.within j hj
          have hne : j ≠ i := hmoves
          exact ih (t.utf8ByteSize - j) (by omega) hj _ rfl

/-- An iteration that moves is kept, and the others are those from where it
stopped. -/
theorem GoesForward.iterate_of_succeeds {places : Set Nat} {a : α}
    (hp : p.GoesForward target places) (hi : i ∈ places) (h : p.Succeeds target i a j)
    (hij : i < j) :
    iterate p ⟨target, i, .ok ()⟩ =
      ((iterate p ⟨target, j, .ok ()⟩).1, a :: (iterate p ⟨target, j, .ok ()⟩).2) := by
  have hne : j ≠ i := by omega
  obtain ⟨⟨stop, as⟩, hrest⟩ := hp.exists_repeats (hp.forward hi h).2.2 []
  have hfirst : repeats p ⟨target, i, .ok ()⟩ [] = some (stop, a :: as) := by
    rw [repeats_of_ok h, if_neg hne, List.nil_append, ← List.append_nil [a], repeats_append, hrest]
    rfl
  rw [iterate_of_repeats hfirst, iterate_of_repeats hrest]

theorem many_apply (p : Parser α) (target : String) (i : Nat) :
    many p ⟨target, i, .ok ()⟩ =
      (iterate p ⟨target, i, .ok ()⟩).1.withResult (iterate p ⟨target, i, .ok ()⟩).2 :=
  rfl

/-- A repetition stops where it is if its parser fails or stays there. -/
theorem many_stops (h : p.Fails target i ∨ ∃ a, p.Succeeds target i a i) :
    (many p).Succeeds target i [] i := by
  unfold Succeeds
  rw [many_apply]
  rcases h with ⟨e, he⟩ | ⟨a, ha⟩
  · have herror : (p ⟨target, i, .ok ()⟩).isError = true := by
      unfold FailsWith at he
      rw [he, State.isError_error]
    rw [iterate_of_fails herror, State.withResult_ok]
  · rw [iterate_of_stays ha, State.withResult_ok]

/-- Otherwise it goes on from where its parser stopped. -/
theorem GoesForward.many_of_succeeds {places : Set Nat} {a : α}
    (hp : p.GoesForward target places) (hi : i ∈ places) (h : p.Succeeds target i a j)
    (hij : i < j) :
    many p ⟨target, i, .ok ()⟩ = (many p ⟨target, j, .ok ()⟩).mapResult (a :: ·) := by
  rw [many_apply, many_apply, hp.iterate_of_succeeds hi h hij]
  obtain ⟨t, k, failure | ⟨⟩⟩ := (iterate p ⟨target, j, .ok ()⟩).1 <;> rfl

/-- Either the repetition stops, or its parser gets further. -/
theorem Lawful.stops_or_moves (hp : p.Lawful) (hi : Text.IsBoundary target i) :
    (p.Fails target i ∨ ∃ a, p.Succeeds target i a i) ∨
      ∃ a j, p.Succeeds target i a j ∧ i < j ∧ Text.IsBoundary target j := by
  rcases hp.cases hi with ⟨a, j, ha, hij, hj⟩ | hfails
  · rcases Nat.eq_or_lt_of_le hij with rfl | hlt
    · exact .inl (.inr ⟨a, ha⟩)
    · exact .inr ⟨a, j, ha, hlt, hj⟩
  · exact .inl (.inl hfails)

theorem many_nil_succeeds (hp : p.Lawful) (hi : Text.IsBoundary target i) :
    (many p).Succeeds target i [] j ↔
      j = i ∧ (p.Fails target i ∨ ∃ a, p.Succeeds target i a i) := by
  constructor
  · intro h
    rcases hp.stops_or_moves hi with hstops | ⟨a, k, ha, hik, hk⟩
    · exact ⟨(h.unique (many_stops hstops)).2, hstops⟩
    · unfold Succeeds at h
      rw [(hp.goesForward target).many_of_succeeds hi ha hik, State.mapResult_eq_ok] at h
      obtain ⟨as, -, hcons⟩ := h
      simp at hcons
  · rintro ⟨rfl, hstops⟩
    exact many_stops hstops

theorem many_cons_succeeds {a : α} {as : List α} (hp : p.Lawful)
    (hi : Text.IsBoundary target i) :
    (many p).Succeeds target i (a :: as) k ↔
      ∃ j, p.Succeeds target i a j ∧ i < j ∧ (many p).Succeeds target j as k := by
  constructor
  · intro h
    rcases hp.stops_or_moves hi with hstops | ⟨b, j, hb, hij, hj⟩
    · have hnil := (h.unique (many_stops hstops)).1
      simp at hnil
    · unfold Succeeds at h
      rw [(hp.goesForward target).many_of_succeeds hi hb hij, State.mapResult_eq_ok] at h
      obtain ⟨bs, hbs, hcons⟩ := h
      obtain ⟨rfl, rfl⟩ := List.cons.inj hcons
      exact ⟨j, hb, hij, hbs⟩
  · rintro ⟨j, ha, hij, has⟩
    unfold Succeeds at has ⊢
    rw [(hp.goesForward target).many_of_succeeds hi ha hij, has, State.mapResult_ok]

theorem iterate_isError {s : State Unit} (h : s.isError = false) :
    (iterate p s).1.isError = false :=
  iterate_keeps (motive := fun s => s.isError = false) (fun _ _ _ _ _ _ => rfl) h

/-- A repetition never fails on its own account. -/
theorem many_not_failsWith : ¬ (many p).FailsWith target i e := by
  intro h
  have hkept : (iterate p ⟨target, i, .ok ()⟩).1.isError = false := iterate_isError rfl
  unfold FailsWith at h
  rw [many_apply] at h
  rw [State.mapResult_eq_error.1 h, State.isError_error] at hkept
  exact Bool.noConfusion hkept

theorem exists_many_succeeds (hp : p.Lawful) (hi : Text.IsBoundary target i) :
    ∃ as j, (many p).Succeeds target i as j := by
  rcases hp.many.cases hi with ⟨as, j, h, -⟩ | ⟨e, he⟩
  · exact ⟨as, j, h⟩
  · exact absurd he many_not_failsWith

/-- One-or-more is zero-or-more, unless nothing is kept. -/
theorem manyOne_of_many {as : List α} (h : (many p).Succeeds target i as j) :
    manyOne p ⟨target, i, .ok ()⟩ =
      if as.isEmpty then
        ⟨target, (Failure.emptyRepetition j).index, .error (.emptyRepetition j)⟩
      else ⟨target, j, .ok as⟩ := by
  have hkept : (iterate p ⟨target, i, .ok ()⟩).1.isError = false := iterate_isError rfl
  unfold Succeeds at h
  rw [many_apply] at h
  rw [manyOne, State.andThen_ok]
  generalize iterate p ⟨target, i, .ok ()⟩ = kept at h hkept
  obtain ⟨⟨t, k, failure | ⟨⟩⟩, bs⟩ := kept
  · simp at hkept
  · simp only [State.withResult_ok, State.mk.injEq, Except.ok.injEq] at h
    obtain ⟨rfl, rfl, rfl⟩ := h
    rfl

theorem manyOne_succeeds {as : List α} (hp : p.Lawful) (hi : Text.IsBoundary target i) :
    (manyOne p).Succeeds target i as j ↔
      (many p).Succeeds target i as j ∧ as ≠ [] := by
  obtain ⟨bs, k, hbs⟩ := exists_many_succeeds hp hi
  unfold Succeeds at *
  rw [manyOne_of_many hbs, hbs]
  cases bs with
  | nil => simp +contextual [eq_comm]
  | cons b bs => simp +contextual [eq_comm]

theorem manyOne_failsWith (hp : p.Lawful) (hi : Text.IsBoundary target i) :
    (manyOne p).FailsWith target i e ↔
      (many p).Succeeds target i [] i ∧ e = .emptyRepetition i := by
  obtain ⟨bs, k, hbs⟩ := exists_many_succeeds hp hi
  unfold Succeeds FailsWith at *
  rw [manyOne_of_many hbs, hbs]
  cases bs with
  | nil =>
    obtain ⟨rfl, -⟩ := (many_nil_succeeds hp hi).1 hbs
    simp +contextual [eq_comm]
  | cons b bs => simp

theorem manyOne_fails (hp : p.Lawful) (hi : Text.IsBoundary target i) :
    (manyOne p).Fails target i ↔ (many p).Succeeds target i [] i := by
  simp only [Fails, manyOne_failsWith hp hi, exists_and_left, exists_eq, and_true]

end Parser

end Parsing
